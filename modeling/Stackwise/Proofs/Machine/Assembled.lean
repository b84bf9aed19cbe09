import Stackwise.Proofs.Machine.ComposedOperations

/-!
# Instructions are assembled from operations

Whatever an instruction does to the store, it does by way of an operation on values.

* `Steady`: the actions on a frame that change the store by gentle operations only. Taking operands,
  variables, unpacking, calls, jumps and exceptions are of this kind.
* `Assembled`: those that change it by composed operations only. `Steady.assembled`: steady actions
  do.
* `assembled_operate`, `assembled_stepOnce`: every instruction is one, and every step.
* What a call does before its frame runs is composed as well: the class that is called, the binding
  of the arguments, the program and the cells of the new frame.
-/

namespace Stackwise.Machine

variable {α β : Type}

/-! ## 1. Steady actions -/

/-- The actions on a frame that change the store by gentle operations only. -/
inductive Steady : {α : Type} → FrameAction α → Prop where
  | pure {α : Type} (a : α) : Steady (pure a : FrameAction α)
  | throw {α : Type} (e : Fault) : Steady (throw e : FrameAction α)
  | frame : Steady frame
  | updateFrame (g : Frame → Frame) : Steady (updateFrame g)
  | inFrame {α : Type} {act : Action α} (h : GentleUnder .all act) : Steady (inFrame act)
  | bind {α β : Type} {x : FrameAction β} {k : β → FrameAction α} (hx : Steady x)
      (hk : ∀ a, Steady (k a)) : Steady (x >>= k)

theorem Steady.lift {act : Action α} (h : GentleUnder .all act) :
    Steady (liftM act : FrameAction α) :=
  .inFrame h

theorem gentleUnder_throw_all (e : Fault) : GentleUnder .all (throw e : Action α) := .throw trivial

attribute [grind ←] Steady.pure Steady.throw Steady.frame Steady.updateFrame Steady.inFrame
  Steady.bind Steady.lift gentleUnder_throw_all

@[grind! ←] theorem steady_broken (cause : Broken) : Steady (broken cause : FrameAction α) :=
  .bind .frame fun _ => .throw _

@[grind! ←] theorem steady_onStack (g : List Value → Option (α × List Value)) :
    Steady (onStack g) := by
  unfold onStack
  grind

@[grind ←] theorem steady_pop : Steady pop := steady_onStack _

@[grind! ←] theorem steady_popMany (n : Nat) : Steady (popMany n) := steady_onStack _

@[grind! ←] theorem steady_peek (n : Nat) : Steady (peek n) := steady_onStack _

@[grind! ←] theorem steady_rotate (n : Nat) : Steady (rotate n) := steady_onStack _

@[grind! ←] theorem steady_push (v : Value) : Steady (push v) := .updateFrame _

@[grind! ←] theorem steady_pushAll (vs : List Value) : Steady (pushAll vs) := .updateFrame _

@[grind! ←] theorem steady_target (n : Nat) : Steady (target n) := by
  unfold target
  grind

@[grind! ←] theorem steady_getLocal (slot : Nat) : Steady (getLocal slot) := by
  unfold getLocal
  grind

@[grind! ←] theorem steady_setLocal (slot : Nat) (v : Option Value) :
    Steady (setLocal slot v) := by
  unfold setLocal
  grind

@[grind! ←] theorem steady_cellAt (slot : Nat) : Steady (cellAt slot) := by
  unfold cellAt
  grind

@[grind! ←] theorem steady_getCell (slot : Nat) : Steady (getCell slot) := by
  unfold getCell
  grind

@[grind! ←] theorem steady_unwind (e : Raised) : Steady (unwind e) := by
  unfold unwind
  grind

/-! ## 2. Steady parts of instructions -/

@[grind! ←] theorem steady_unpackSequence (n : Nat) : Steady (unpackSequence n) := by
  unfold unpackSequence
  grind

@[grind! ←] theorem steady_unpackEx (before after : Nat) : Steady (unpackEx before after) := by
  unfold unpackEx
  grind

@[grind! ←] theorem steady_formatTop (flags : Nat) : Steady (formatTop flags) := by
  have hrest : ∀ spec, Steady (do
      let v ← converted flags (← pop)
      push (← newStr (← format v spec)) : FrameAction Unit) := by
    intro spec
    grind
  unfold formatTop
  dsimp only
  split
  · refine .bind steady_pop fun spec => ?_
    split
    · exact hrest _
    · exact .bind (steady_broken _) hrest
  · exact hrest _

@[grind! ←] theorem steady_callKeywords (argc : Nat) : Steady (callKeywords argc) := by
  unfold callKeywords
  refine .bind steady_pop fun names => .bind (steady_popMany argc) fun args =>
    .bind steady_pop fun callee => ?_
  grind

@[grind! ←] theorem steady_callUnpacked (hasMapping : Bool) :
    Steady (callUnpacked hasMapping) := by
  have hrest : ∀ mapping, Steady (do
      let iterable ← pop
      let callee ← pop
      let args ← collect iterable
      let kwargs ← match mapping with
        | some v => mappingKeywords v
        | none => pure []
      push (← callWith callee args kwargs) : FrameAction Unit) := by
    intro mapping
    refine .bind steady_pop fun iterable => .bind steady_pop fun callee =>
      .bind (.lift (gentle_collect iterable).under) fun args => ?_
    cases mapping <;> grind
  unfold callUnpacked
  cases hasMapping with
  | true => exact .bind steady_pop fun v => hrest (some v)
  | false => exact hrest none

@[grind! ←] theorem steady_checked (r : Except Broken α) : Steady (checked r) := by
  unfold checked
  grind

@[grind! ←] theorem steady_makeFunction (flags : Nat) : Steady (makeFunction flags) := by
  unfold makeFunction
  refine .bind steady_pop fun qualname => .bind steady_pop fun code => ?_
  split
  · -- the optional parts, from the closure down to the defaults
    extract_lets has withClosure
    have hclosure : ∀ closure, Steady (withClosure closure) := by
      intro closure
      simp -zeta only [withClosure]
      extract_lets withSignature
      have hsignature : ∀ signature, Steady (withSignature signature) := by
        intro signature
        simp -zeta only [withSignature]
        extract_lets withKeywords
        have hkeywords : ∀ kwdefaults, Steady (withKeywords kwdefaults) := by
          intro kwdefaults
          simp -zeta only [withKeywords]
          split
          · refine .bind steady_pop fun v => ?_
            split <;> grind
          · grind
        split
        · refine .bind steady_pop fun v => ?_
          split
          · exact .bind (.lift (gentle_look _).under) hkeywords
          · exact .bind (steady_broken _) hkeywords
        · exact .bind (.pure _) hkeywords
      split
      · exact .bind steady_pop fun v => .bind (.lift (gentle_look _).under) fun s =>
          .bind (steady_checked _) fun items => .bind (.pure _) hsignature
      · exact .bind (.pure _) hsignature
    split
    · exact .bind steady_pop fun v => .bind (steady_checked _) hclosure
    · exact .bind (.pure _) hclosure
  · exact steady_broken _

theorem steady_enterWith : Steady enterWith := by
  unfold enterWith
  grind

theorem steady_reraised : Steady reraised := by
  unfold reraised
  refine .bind steady_pop fun type => .bind steady_pop fun value =>
    .bind steady_pop fun _ => ?_
  split <;> grind

@[grind! ←] theorem steady_raisedBy (n : Nat) : Steady (raisedBy n) := by
  unfold raisedBy
  grind

theorem steady_resumePoint : Steady resumePoint := by
  unfold resumePoint
  grind

@[grind! ←] theorem steady_dispatch (states : List (Nat × Nat)) : Steady (dispatch states) := by
  unfold dispatch
  grind

@[grind! ←] theorem steady_goTo (pc : Nat) : Steady (goTo pc) :=
  .bind (.updateFrame _) fun _ => .pure _

theorem steady_routeFault (step : Step) (pc : Nat) (fault : Fault) :
    Steady (routeFault step pc fault) := by
  unfold routeFault
  refine .bind (.lift (gentleUnder_catchable trivial)) fun e => ?_
  grind

/-! ## 3. Assembled actions -/

/-- The actions on a frame that change the store by composed operations only. -/
inductive Assembled : {α : Type} → FrameAction α → Prop where
  | pure {α : Type} (a : α) : Assembled (pure a : FrameAction α)
  | throw {α : Type} (e : Fault) : Assembled (throw e : FrameAction α)
  | frame : Assembled frame
  | updateFrame (g : Frame → Frame) : Assembled (updateFrame g)
  | inFrame {α : Type} {act : Action α} (h : Composed .all act) : Assembled (inFrame act)
  | bind {α β : Type} {x : FrameAction β} {k : β → FrameAction α} (hx : Assembled x)
      (hk : ∀ a, Assembled (k a)) : Assembled (x >>= k)
  | attemptStep {step : Step} (h : Assembled (execute step)) : Assembled (attemptStep step)

theorem Steady.assembled {act : FrameAction α} (h : Steady act) : Assembled act := by
  induction h with
  | pure a => exact .pure a
  | throw e => exact .throw e
  | frame => exact .frame
  | updateFrame g => exact .updateFrame g
  | inFrame h => exact .inFrame h.composed
  | bind _ _ ihx ihk => exact ihx.bind ihk

theorem Assembled.lift {act : Action α} (h : Composed .all act) :
    Assembled (liftM act : FrameAction α) :=
  .inFrame h

theorem composed_throw_all (e : Fault) : Composed .all (throw e : Action α) := .throw trivial

theorem assembled_foldlM {xs : List β} {g : α → β → FrameAction α} {a : α}
    (hg : ∀ a x, Assembled (g a x)) : Assembled (xs.foldlM g a) := by
  induction xs generalizing a with
  | nil => exact .pure a
  | cons x xs ih =>
    rw [List.foldlM_cons]
    exact (hg a x).bind fun _ => ih

theorem assembled_mapM {xs : List β} {g : β → FrameAction α} (hg : ∀ x, Assembled (g x)) :
    Assembled (xs.mapM g) := by
  induction xs with
  | nil => exact .pure []
  | cons x xs ih =>
    rw [List.mapM_cons]
    exact (hg x).bind fun _ => ih.bind fun _ => .pure _

theorem assembled_pop : Assembled pop := steady_pop.assembled

attribute [grind ←] Assembled.pure Assembled.throw Assembled.frame Assembled.updateFrame
  Assembled.inFrame Assembled.bind Assembled.lift composed_throw_all assembled_foldlM assembled_mapM
  assembled_pop

-- a part of an instruction that is known to be steady is assembled
grind_pattern Steady.assembled => Steady act, Assembled act

@[grind ←] theorem assembled_build (shape : Shape) (n : Nat) : Assembled (build shape n) := by
  unfold build
  cases shape with
  | constKeyMap =>
    refine .bind assembled_pop fun keys => .bind (steady_popMany n).assembled fun values => ?_
    split <;> grind
  | _ => grind

theorem assembled_mergeTarget (depth : Nat) (cause : Broken) (merge : Bool)
    (incoming : List (Value × Value)) : Assembled (do
      match ← target depth with
      | .dict r => mergeInto r merge incoming
      | _ => broken cause : FrameAction Unit) := by
  refine .bind (steady_target depth).assembled fun t => ?_
  split
  · exact .lift (composed_mergeInto _ _ _)
  · exact (steady_broken _).assembled

@[grind ←] theorem assembled_update (kind : Update) (depth : Nat) :
    Assembled (update kind depth) := by
  unfold update
  cases kind with
  | dictUpdate | dictMerge =>
    refine .bind assembled_pop fun other => ?_
    split
    · exact .bind (.lift (gentle_look _).composed) (assembled_mergeTarget depth _ _)
    · exact .bind (.lift (gentle_typeName _).composed) fun _ =>
        .bind (.lift (gentle_typeError _).composed) (assembled_mergeTarget depth _ _)
  | mapAdd =>
    exact .bind assembled_pop fun value => .bind assembled_pop fun key =>
      .bind (.lift (gentle_checkHashable key).composed) fun _ => assembled_mergeTarget depth _ _ _
  | _ => grind

@[grind ←] theorem assembled_callTop (lowering : Lowering) (argc : Nat) :
    Assembled (callTop lowering argc) := by
  unfold callTop
  grind

@[grind ←] theorem assembled_callMethodTop (lowering : Lowering) (argc : Nat) :
    Assembled (callMethodTop lowering argc) := by
  unfold callMethodTop
  grind

@[grind ←] theorem composed_delegateStep (receiver sent : Value) :
    Composed .all (delegateStep receiver sent) := by
  unfold delegateStep
  grind

@[grind ←] theorem assembled_delegate (state exit : Nat) : Assembled (delegate state exit) := by
  unfold delegate
  refine .bind assembled_pop fun sent => .bind (steady_peek 0).assembled fun receiver =>
    .bind (.lift (composed_delegateStep receiver sent)) fun outcome => ?_
  cases outcome <;> grind

/-! ## 4. Steps -/

@[grind ←] theorem assembled_perform (op : Op) (lowering : Lowering) :
    Assembled (perform op lowering) := by
  unfold perform
  split <;> grind [steady_enterWith, steady_resumePoint]

theorem assembled_operate (op : Op) (lowering : Lowering) : Assembled (operate op lowering) := by
  unfold operate
  split <;> grind [steady_reraised]

theorem assembled_execute (step : Step) : Assembled (execute step) := by
  unfold execute
  split
  · exact .pure _
  · exact assembled_operate _ _

theorem assembled_stepOnce : Assembled stepOnce := by
  unfold stepOnce
  refine .bind .frame fun f => .bind .frame fun f' => ?_
  split
  · exact (steady_broken _).assembled
  · rename_i step _
    refine .bind (.attemptStep (assembled_execute step)) fun outcome => ?_
    split
    · exact (steady_goTo _).assembled
    · exact (steady_goTo _).assembled
    · exact .pure _
    · exact .pure _
    · exact (steady_routeFault _ _ _).assembled

/-! ## 5. Calls of classes -/

section Calls

variable {W : Tolerance}

@[grind ←] theorem composed_makeSet (args : List Value) : Composed W (makeSet args) := by
  unfold makeSet
  split <;> grind

@[grind ←] theorem composed_makeDict (args : List Value) (kwargs : List Keyword) :
    Composed W (makeDict args kwargs) := by
  unfold makeDict
  split <;> grind

@[grind ←] theorem composed_constructWith (t : TypeId) (args : List Value) (kwargs : List Keyword) :
    Composed W (constructWith t args kwargs) := by
  unfold constructWith
  refine composed_ite (gentle_makeInt args).composed (composed_ite (gentle_makeFloat args).composed
    (composed_ite ?text (composed_ite ?truth (composed_ite (gentle_makeBytes args).composed
    (composed_ite ?tuple (composed_ite ?list (composed_ite (composed_makeSet args)
    (composed_ite (composed_makeDict args kwargs) (composed_ite (gentle_makeRange args).composed
    (composed_ite (gentle_makeSlice args).composed (.pure _)))))))))))
  all_goals split <;> grind

theorem composed_construct (t : TypeId) (args : List Value) (kwargs : List Keyword) :
    Composed W (construct t args kwargs) := by
  unfold construct
  grind

/-! ## 6. Calls of functions -/

theorem composed_bind (f : Function) (args : List Value) (kwargs : List Keyword) :
    Composed W (bind f args kwargs) := by
  unfold bind
  dsimp only
  split
  · exact composed_throw_bind (W.other _ rfl)
  · refine .bind .get fun s => .bind (gentle_bound f _).composed fun named => ?_
    split <;> grind

end Calls

end Stackwise.Machine
