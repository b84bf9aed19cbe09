import Stackwise.Machine.Run
import Stackwise.Proofs.Machine.TidyOperations

/-!
# Frames keep a store tidy

What calls of classes and the instructions of a frame do to mappings and sets, and from it what a run
does. Steady actions are tidy, so what is left are the instructions that are not steady.

* `tidy_makeSet`, `tidy_makeDict`: the sets and mappings that are made of what a class is given.
* `tidy_build`, `tidy_update`: the instructions that make collections, and those that add to them.
* `tidy_perform`: every instruction is tidy. `tidy_stepOnce`: every step is.
* `runSteps_tidy`, `tidy_runFrame`, `tidy_resumeFrame`: so are runs of a frame and resumptions of a
  generator.
-/

namespace Stackwise.Machine

variable {α β : Type} {T : Value → Value → Prop}

/-! ## 1. Calls of classes -/

@[grind ←] theorem tidy_makeSet (args : List Value) : Tidy T (makeSet args) := by
  have hrest : ∀ items : List Value, Tidy T (do
      let members ← items.foldlM addMember []
      make (Store.newSet members)) := fun items =>
    (supplies_foldlM .nil fun _ v hms => supplies_addMember hms v).tidy_bind fun ms hms =>
      tidy_make_of fun s hs => hs.newSet hms
  unfold makeSet
  split
  · exact (tidy_pure _).bind hrest
  · exact (gentle_collect _).tidy.bind hrest

theorem supplies_addPair {ps : List (Value × Value)} (h : Apart T (ps.map (·.1))) (v : Value) :
    Supplies T (addPair ps v) fun ps => Apart T (ps.map (·.1)) := by
  unfold addPair
  refine (gentle_collect v).tidy.supplies_bind fun items => ?_
  split
  · exact (supplies_checkHashable _).bind fun _ hk => supplies_look fun s _ => h.insert hk
  · exact supplies_raiseText _ _

@[grind ←] theorem tidy_makeDict (args : List Value) (kwargs : List Keyword) :
    Tidy T (makeDict args kwargs) := by
  have hrest : ∀ ps : List (Value × Value), Apart T (ps.map (·.1)) → Tidy T (make fun s =>
      s.newDict (s.insertAll ps (kwargs.map fun k => (Value.str k.id k.name, k.value)))) := by
    refine fun ps hps => tidy_make_of fun s hs => hs.newDict (hps.insertAll fun p hp => ?_)
    obtain ⟨k, -, rfl⟩ := List.mem_map.mp hp
    rfl
  unfold makeDict
  split
  · exact (supplies_pure .nil).tidy_bind hrest
  · exact (supplies_getDict _).tidy_bind hrest
  · exact (gentle_collect _).tidy.bind fun items =>
      (supplies_foldlM .nil fun _ v hps => supplies_addPair hps v).tidy_bind hrest

@[grind ←] theorem tidy_constructWith (t : TypeId) (args : List Value) (kwargs : List Keyword) :
    Tidy T (constructWith t args kwargs) := by
  unfold constructWith
  refine tidy_ite (gentle_makeInt args).tidy (tidy_ite (gentle_makeFloat args).tidy (tidy_ite ?text
    (tidy_ite ?truth (tidy_ite (gentle_makeBytes args).tidy (tidy_ite ?tuple (tidy_ite ?list
    (tidy_ite (tidy_makeSet args) (tidy_ite (tidy_makeDict args kwargs)
    (tidy_ite (gentle_makeRange args).tidy (tidy_ite (gentle_makeSlice args).tidy
    (tidy_pure _)))))))))))
  all_goals split <;> grind

@[grind ←] theorem tidy_construct (t : TypeId) (args : List Value) (kwargs : List Keyword) :
    Tidy T (construct t args kwargs) := by
  unfold construct
  grind

/-! ## 2. Parts of instructions -/

@[grind ←] theorem tidy_pop : Tidy T pop := steady_pop.tidy

/-- A mapping of pairs that are added one by one. -/
theorem tidy_buildMap (entries : List (Value × Value)) : Tidy T (do
    let pairs ← buildPairs entries
    make (Store.newDict pairs) : FrameAction Value) :=
  (supplies_buildPairs entries).lift.tidy_bind fun _ hps =>
    (tidy_make_of fun _ hs => hs.newDict hps).lift

@[grind ←] theorem tidy_build (shape : Shape) (n : Nat) : Tidy T (build shape n) := by
  unfold build
  cases shape with
  | set =>
    refine (steady_popMany n).tidy.bind fun vs => ?_
    refine (supplies_foldlM .nil fun _ v hms => (supplies_addMember hms v).inFrame).tidy_bind
      fun _ hms => ?_
    exact (tidy_make_of fun _ hs => hs.newSet hms).lift
  | map => exact (steady_popMany _).tidy.bind fun vs => tidy_buildMap _
  | constKeyMap =>
    refine tidy_pop.bind fun keys => (steady_popMany n).tidy.bind fun values => ?_
    split
    · exact tidy_buildMap _
    · exact (steady_broken _).tidy
  | _ => grind

/-- Pairs are merged into the mapping at a depth of the stack. -/
theorem tidy_mergeTarget (depth : Nat) (cause : Broken) (merge : Bool)
    {incoming : List (Value × Value)} (h : ∀ p ∈ incoming, p.1.isHashable = true) : Tidy T (do
      match ← target depth with
      | .dict r => mergeInto r merge incoming
      | _ => broken cause : FrameAction Unit) := by
  refine Tidy.bind (steady_target depth).tidy fun t => ?_
  split
  · exact (tidy_mergeInto _ _ h).lift
  · exact (steady_broken _).tidy

@[grind ←] theorem tidy_update (kind : Update) (depth : Nat) :
    Tidy T (update kind depth) := by
  unfold update
  cases kind with
  | dictUpdate | dictMerge =>
    refine tidy_pop.bind fun other => ?_
    split
    · refine (supplies_getDict _).lift.tidy_bind fun ps hps =>
        tidy_mergeTarget depth _ _ fun p hp => ?_
      exact hps.hashable _ (List.mem_map_of_mem hp)
    · refine (gentle_typeName _).tidy.lift.bind fun n => ?_
      exact (supplies_raiseText _ _).lift.tidy_bind (Q := fun _ => False) fun _ h => h.elim
  | mapAdd =>
    refine tidy_pop.bind fun value => tidy_pop.bind fun key => ?_
    refine (supplies_checkHashable key).lift.tidy_bind fun _ hk =>
      tidy_mergeTarget depth _ _ fun p hp => ?_
    rwa [List.mem_singleton.mp hp]
  | _ => grind

@[grind ←] theorem tidy_callTop (lowering : Lowering) (argc : Nat) :
    Tidy T (callTop lowering argc) := by
  unfold callTop
  grind

@[grind ←] theorem tidy_callMethodTop (lowering : Lowering) (argc : Nat) :
    Tidy T (callMethodTop lowering argc) := by
  unfold callMethodTop
  grind

@[grind ←] theorem tidy_delegateStep (receiver sent : Value) :
    Tidy T (delegateStep receiver sent) := by
  unfold delegateStep
  grind

@[grind ←] theorem tidy_delegate (state exit : Nat) : Tidy T (delegate state exit) := by
  unfold delegate
  refine Tidy.bind tidy_pop fun sent => .bind (steady_peek 0).tidy fun receiver =>
    .bind (Tidy.lift (tidy_delegateStep receiver sent)) fun outcome => ?_
  cases outcome <;> grind

/-! ## 3. Steps -/

@[grind ←] theorem tidy_perform (op : Op) (lowering : Lowering) :
    Tidy T (perform op lowering) := by
  unfold perform
  split <;> grind [steady_enterWith, steady_resumePoint]

theorem tidy_operate (op : Op) (lowering : Lowering) : Tidy T (operate op lowering) := by
  unfold operate
  split <;> grind [steady_reraised]

theorem tidy_execute (step : Step) : Tidy T (execute step) := by
  unfold execute
  split
  · exact tidy_pure _
  · exact tidy_operate _ _

theorem tidy_attemptStep (step : Step) : Tidy T (attemptStep step) := by
  intro ctx hc a ha
  have h := tidy_execute (T := T) step ctx hc a ha
  rw [attemptStep_run]
  cases hres : execute step ctx a with
  | ok flow a' =>
    rw [hres] at h
    exact ⟨h.1, trivial⟩
  | error e a' =>
    rw [hres] at h
    exact ⟨h, trivial⟩

theorem tidy_stepOnce : Tidy T stepOnce := by
  unfold stepOnce
  refine Tidy.bind tidy_frame fun f => .bind tidy_frame fun f' => ?_
  split
  · exact (steady_broken _).tidy
  · rename_i step _
    refine Tidy.bind (tidy_attemptStep step) fun outcome => ?_
    split
    · exact (steady_goTo _).tidy
    · exact (steady_goTo _).tidy
    · exact tidy_pure _
    · exact tidy_pure _
    · exact (steady_routeFault _ _ _).tidy

/-! ## 4. Runs -/

/-- Every step keeps a store tidy, and so does a run. -/
theorem runSteps_tidy {ctx : Context} (hc : ctx.Tidy T) (n : Nat) {a : Activation}
    (ha : a.store.Tidy T) : (endState (runSteps ctx n a)).store.Tidy T := by
  induction n generalizing a with
  | zero => exact ha
  | succ n ih =>
    have hstep := tidy_stepOnce (T := T) ctx hc a ha
    rw [runSteps]
    cases hres : stepOnce ctx a with
    | error e a' =>
      rw [hres] at hstep
      exact hstep
    | ok exit a' =>
      rw [hres] at hstep
      cases exit with
      | none => exact ih hstep.1
      | some exit => exact hstep.1

@[grind ←] theorem tidy_runFrame (f : Frame) : Tidy T (runFrame f) := by
  refine tidy_of_endState fun ctx hc s hs => ?_
  unfold runFrame
  split
  · exact (gentle_raiseText _ _).tidy.ends hc hs
  · have hrun := runSteps_tidy hc ctx.fuel (a := ⟨f, s.enter⟩) (s.tidy_collections hs rfl)
    cases hres : runSteps ctx ctx.fuel ⟨f, s.enter⟩ with
    | ok exit a | error e a =>
      rw [hres] at hrun
      exact a.store.tidy_collections hrun rfl

@[grind ←] theorem tidy_runGenerator (g : Nat) (f : Frame) : Tidy T (runGenerator g f) := by
  unfold runGenerator
  refine (tidy_runFrame f).attempt.bind fun outcome => ?_
  split <;> grind

theorem tidy_resumeFrame (g : Nat) (r : Resumption) : Tidy T (resumeFrame g r) := by
  unfold resumeFrame
  grind

end Stackwise.Machine
