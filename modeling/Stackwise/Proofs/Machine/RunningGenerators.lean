import Stackwise.Proofs.Machine.Assembled
import Stackwise.Proofs.Machine.Stepping

/-!
# A generator that runs is left alone

While the frame of a generator runs, every entry to it is refused. So whatever the machine does in
the meantime, the record of the generator stays what it is; only the resumption itself moves it on.

* `Store.Keeps`: the generators that run keep their records, among those with certain numbers, and
  frames are nested as deep as before.
* `guarded_run`: an action that has a generator to itself, step by step.
* `Composed.keeps`, `Assembled.keeps`: no operation and no instruction touches a running generator.
* `context_orderly`: in the context of the machine a call keeps every running generator, and a
  resumption every other one.
* `resume_row`: a resumption changes the progress of its own generator and nothing else of it; one
  that ends in a fault leaves it exhausted.
-/

namespace Stackwise

/-! ## 1. Records that are kept -/

namespace Table

variable {α : Type}

theorem rows_update (t : Table α) (i j : Nat) (f : α → α) :
    (t.update i f).rows[j]? = if i = j then t.rows[j]?.map f else t.rows[j]? :=
  Array.getElem?_modify

theorem get_of_row [Inhabited α] {t : Table α} {i : Nat} {x : α} (h : t.rows[i]? = some x) :
    t.get i = x := by
  rw [get, Array.getD_eq_getD_getElem?, h, Option.getD_some]

end Table

namespace Store

/-- The store with a change to a generator. -/
def onGenerator (s : Store) (g : Nat) (f : Generator → Generator) : Store :=
  { s with generators := s.generators.update g f }

/-- Generators that run keep their records, among those with certain numbers, and frames are nested
as deep as before. -/
structure Keeps (among : Nat → Prop) (s s' : Store) : Prop where
  depth : s'.depth = s.depth
  rows : ∀ g x, among g → s.generators.rows[g]? = some x → x.running = true →
    s'.generators.rows[g]? = some x

variable {among among' : Nat → Prop} {s s' s'' : Store}

theorem Keeps.refl (among : Nat → Prop) (s : Store) : s.Keeps among s := ⟨rfl, fun _ _ _ h _ => h⟩

theorem Keeps.trans (h : s.Keeps among s') (h' : s'.Keeps among s'') : s.Keeps among s'' where
  depth := h'.depth.trans h.depth
  rows g x hg hrow hrun := h'.rows g x hg (h.rows g x hg hrow hrun) hrun

theorem Keeps.mono (h : s.Keeps among s') (himp : ∀ g, among' g → among g) : s.Keeps among' s' where
  depth := h.depth
  rows g x hg := h.rows g x (himp g hg)

theorem keeps_of_machinery (h : s'.machinery = s.machinery) : s.Keeps among s' where
  depth := congrArg Prod.snd h
  rows g x _ hrow _ := by
    rw [show s'.generators = s.generators from congrArg Prod.fst h]
    exact hrow

/-- A generator may change if it is not among those that are kept. -/
theorem keeps_onGenerator (s : Store) {g : Nat} (hg : ¬among g) (f : Generator → Generator) :
    s.Keeps among (s.onGenerator g f) := by
  refine ⟨rfl, fun h x hh hrow _ => ?_⟩
  have hne : g ≠ h := fun e => hg (e ▸ hh)
  rw [onGenerator, Table.rows_update, if_neg hne]
  exact hrow

theorem onGenerator_row {g : Nat} {x : Generator} (h : s.generators.rows[g]? = some x)
    (f : Generator → Generator) : (s.onGenerator g f).generators.rows[g]? = some (f x) := by
  rw [onGenerator, Table.rows_update, if_pos rfl, h, Option.map_some]

/-- What a change does depends on the record only. -/
theorem onGenerator_congr {g : Nat} {x : Generator} (h : s.generators.rows[g]? = some x)
    {f f' : Generator → Generator} (hf : f x = f' x) : s.onGenerator g f = s.onGenerator g f' := by
  have hrows : (s.generators.update g f).rows = (s.generators.update g f').rows := by
    refine Array.ext_getElem? fun i => ?_
    rw [Table.rows_update, Table.rows_update]
    split
    · rename_i hi
      rw [← hi, h, Option.map_some, Option.map_some, hf]
    · rfl
  have htable : s.generators.update g f = s.generators.update g f' := congrArg Table.mk hrows
  rw [onGenerator, onGenerator, htable]

theorem onGenerator_id (s : Store) (g : Nat) : s.onGenerator g id = s := by
  have hrows : (s.generators.update g id).rows = s.generators.rows := by
    refine Array.ext_getElem? fun i => ?_
    rw [Table.rows_update, Option.map_id, id_eq, ite_self]
  have htable : s.generators.update g id = s.generators := congrArg Table.mk hrows
  rw [onGenerator, htable]

/-- A change that leaves the record as it is leaves the store as it is. -/
theorem onGenerator_same {g : Nat} {x : Generator} (h : s.generators.rows[g]? = some x)
    {f : Generator → Generator} (hf : f x = x) : s.onGenerator g f = s :=
  (onGenerator_congr h (show f x = id x from hf)).trans (onGenerator_id s g)

/-- Two changes to a generator are one. -/
theorem onGenerator_onGenerator (s : Store) (g : Nat) (f f' : Generator → Generator) :
    (s.onGenerator g f).onGenerator g f' = s.onGenerator g (f' ∘ f) := by
  have hrows : ((s.generators.update g f).update g f').rows
      = (s.generators.update g (f' ∘ f)).rows := by
    refine Array.ext_getElem? fun i => ?_
    simp only [Table.rows_update]
    split
    · rw [Option.map_map]
    · rfl
  have htable : (s.generators.update g f).update g f' = s.generators.update g (f' ∘ f) :=
    congrArg Table.mk hrows
  rw [onGenerator, onGenerator, onGenerator]
  simp only [htable]

end Store

/-! ## 2. Actions that keep the generators that run -/

/-- The state that an outcome leaves. -/
def endState {σ α : Type} : EStateM.Result Fault σ α → σ
  | .ok _ s => s
  | .error _ s => s

@[simp] theorem endState_ok {σ α : Type} (a : α) (s : σ) :
    endState (.ok a s : EStateM.Result Fault σ α) = s := rfl

@[simp] theorem endState_error {σ α : Type} (e : Fault) (s : σ) :
    endState (.error e s : EStateM.Result Fault σ α) = s := rfl

/-- Calls keep the generators that run, and resumptions all but the one that is resumed. -/
structure Context.Orderly (ctx : Context) : Prop where
  call : ∀ v args kwargs (s : Store), s.Keeps (fun _ => True) (endState (ctx.call v args kwargs s))
  resume : ∀ g r (s : Store), s.Keeps (· ≠ g) (endState (ctx.resume g r s))

namespace Machine

variable {among : Nat → Prop} {ctx : Context} {g : Nat} {α β : Type}

/-- In a context an action keeps the records of running generators, among those with certain
numbers. -/
def Keeping (among : Nat → Prop) (ctx : Context) (act : Action α) : Prop :=
  ∀ s : Store, s.Keeps among (endState (act ctx s))

theorem Keeping.bind {x : Action β} {k : β → Action α} (hx : Keeping among ctx x)
    (hk : ∀ a, Keeping among ctx (k a)) : Keeping among ctx (x >>= k) := by
  intro s
  have h := hx s
  simp only [Bind.bind, ReaderT.bind, EStateM.bind]
  cases hres : x ctx s with
  | ok a s' =>
    rw [hres] at h
    exact h.trans (hk a s')
  | error e s' =>
    rw [hres] at h
    exact h

theorem keeping_pure (a : α) : Keeping among ctx (pure a) := fun s => .refl among s

theorem keeping_throw (e : Fault) : Keeping among ctx (throw e : Action α) :=
  fun s => .refl among s

theorem Keeping.attempt {act : Action α} (h : Keeping among ctx act) :
    Keeping among ctx (attempt act) := by
  intro s
  have hact := h s
  rw [attempt_run]
  cases hres : act ctx s with
  | ok a s' | error e s' =>
    rw [hres] at hact
    exact hact

/-- A generator may change if it is not among those that are kept. -/
theorem keeping_updateGenerator (hg : ¬among g) (f : Generator → Generator) :
    Keeping among ctx (updateGenerator g f) :=
  fun s => s.keeps_onGenerator hg f

theorem Keeping.generator_bind {k : Generator → Action α} (hk : ∀ x, Keeping among ctx (k x)) :
    Keeping among ctx (generator g >>= k) :=
  fun s => hk (s.generators.get g) s

/-- The number of a generator, with the mark that its frame is being run. -/
def mark (running : Bool) (x : Generator) : Generator := { x with running }

/-- **An action that has a generator to itself** is refused while the generator runs. Else it is
carried out between setting the mark and taking it away. -/
theorem guarded_run (g : Nat) (act : Action α) (ctx : Context) (s : Store) :
    guarded g act ctx s =
      if (s.generators.get g).running then .error .alreadyRunning s
      else match act ctx (s.onGenerator g (mark true)) with
        | .ok a s => .ok a (s.onGenerator g (mark false))
        | .error e s => .error e (s.onGenerator g (mark false)) := by
  have hlook : generator g ctx s = .ok (s.generators.get g) s := rfl
  have hmark : ∀ b s, updateGenerator g (fun x => { x with running := b }) ctx s
      = .ok () (s.onGenerator g (mark b)) := fun _ _ => rfl
  rw [guarded, run_bind, hlook]
  dsimp only
  split
  · rfl
  · simp only [run_bind, hmark, attempt_run]
    cases act ctx (s.onGenerator g (mark true)) <;> rfl

/-- To the generators that run, an action that has another one to itself does what its body does. -/
theorem Keeping.guarded {act : Action α}
    (h : Keeping (fun i => among i ∧ i ≠ g) ctx act) : Keeping among ctx (guarded g act) := by
  intro s
  rw [guarded_run]
  split
  · exact .refl among s
  · rename_i hidle
    -- the generator itself does not run yet
    have hne : ∀ i x, s.generators.rows[i]? = some x → x.running = true → i ≠ g := by
      rintro i x hrow hrun rfl
      rw [Table.get_of_row hrow] at hidle
      exact hidle hrun
    have hout : ¬(fun j => among j ∧ j ≠ g) g := fun hg => hg.2 rfl
    have hact := (s.keeps_onGenerator hout (mark true)).trans (h _)
    cases hres : act ctx (s.onGenerator g (mark true)) with
    | ok a s' | error e s' =>
      rw [hres] at hact
      have hkept := hact.trans (s'.keeps_onGenerator hout (mark false))
      exact ⟨hkept.depth, fun i x hi hrow hrun =>
        hkept.rows i x ⟨hi, hne i x hrow hrun⟩ hrow hrun⟩

theorem keeping_newGenerator (x : Generator) :
    Keeping (fun _ => True) ctx (make (Store.newGenerator x)) := by
  refine fun s => ⟨rfl, fun g y _ hrow _ => ?_⟩
  have hlt : g < s.generators.rows.size := (Array.getElem?_eq_some_iff.mp hrow).1
  show (s.generators.rows.push x)[g]? = some y
  rw [Array.getElem?_push_lt hlt, ← Array.getElem?_eq_getElem hlt, hrow]

/-! ## 3. Operations -/

section Protocol

variable (hc : ctx.Orderly)

include hc

theorem keeping_resume (g : Nat) (r : Resumption) :
    Keeping (fun i => True ∧ i ≠ g) ctx (resume g r) :=
  fun s => (hc.resume g r s).mono fun _ h => h.2

theorem keeping_hasNext (g : Nat) : Keeping (fun _ => True) ctx (hasNext g) := by
  unfold hasNext
  refine .guarded (.generator_bind fun x => ?_)
  split
  · exact keeping_pure _
  · exact .bind (.attempt (keeping_resume hc g _)) fun outcome =>
      .bind (keeping_updateGenerator (fun h => h.2 rfl) _) fun _ => keeping_pure _

theorem keeping_send (g : Nat) (v : Value) : Keeping (fun _ => True) ctx (send g v) := by
  unfold send
  refine .guarded (.generator_bind fun x => ?_)
  split
  · refine .bind (keeping_updateGenerator (fun h => h.2 rfl) _) fun _ => ?_
    split
    · exact keeping_pure _
    · exact keeping_throw _
  · exact keeping_resume hc g _

theorem keeping_resumeThrow (g : Nat) (e : Raised) : Keeping (fun _ => True) ctx (guarded g do
    dropLookahead g
    resume g (.throw e)) :=
  .guarded (.bind (keeping_updateGenerator (fun h => h.2 rfl) _) fun _ => keeping_resume hc g _)

theorem keeping_close (g : Nat) : Keeping (fun _ => True) ctx (close g) := by
  have hout : ¬(fun i => True ∧ i ≠ g) g := fun h => h.2 rfl
  unfold close
  refine .guarded (.bind (keeping_updateGenerator hout _) fun _ => .generator_bind fun x => ?_)
  split
  · refine .bind (fun s => Store.keeps_of_machinery rfl) fun exit =>
      .bind (.attempt (keeping_resume hc g _)) fun outcome => ?_
    split
    · exact .bind (keeping_updateGenerator hout _) fun _ => fun s => Store.keeps_of_machinery rfl
    · exact keeping_pure _
    · split
      · split
        · exact keeping_pure _
        · exact keeping_throw _
      · exact keeping_throw _
  · exact keeping_updateGenerator hout _

/-- **No operation touches a generator that runs.** -/
theorem Composed.keeps {act : Action α} (h : Composed .all act) :
    Keeping (fun _ => True) ctx act := by
  induction h with
  | pure a => exact keeping_pure a
  | throw _ => exact keeping_throw _
  | get | read => exact fun s => .refl _ s
  | make hf => exact fun s => Store.keeps_of_machinery (hf s)
  | callWith callee args kwargs => exact hc.call callee args kwargs
  | hasNext g => exact keeping_hasNext hc g
  | send g v => exact keeping_send hc g v
  | resumeThrow g e => exact keeping_resumeThrow hc g e
  | close g => exact keeping_close hc g
  | bind _ _ ihx ihf => exact ihx.bind ihf
  | attempt_bind _ _ _ ihx ihok iherror =>
    refine ihx.attempt.bind fun outcome => ?_
    cases outcome with
    | ok a => exact ihok a
    | error e => exact iherror e trivial

/-! ## 4. Frames -/

/-- No action on a frame touches a generator that runs. -/
theorem Assembled.keeps {act : FrameAction α} (h : Assembled act) (a : Activation) :
    a.store.Keeps (fun _ => True) (endState (act ctx a)).store := by
  induction h generalizing a with
  | pure _ | throw _ | frame | updateFrame _ => exact .refl _ a.store
  | inFrame hact =>
    rename_i act
    have h := hact.keeps hc a.store
    rw [Machine.inFrame]
    cases hres : act ctx a.store with
    | ok v s | error e s =>
      rw [hres] at h
      exact h
  | bind _ _ ihx ihk =>
    rename_i x k _ _
    have h := ihx a
    rw [run_bind]
    cases hres : x ctx a with
    | ok v a' =>
      rw [hres] at h
      exact h.trans (ihk v a')
    | error e a' =>
      rw [hres] at h
      exact h
  | attemptStep _ ih =>
    rename_i step _
    have h := ih a
    rw [attemptStep_run]
    cases hres : execute step ctx a with
    | ok v a' | error e a' =>
      rw [hres] at h
      exact h

theorem runSteps_keeps (fuel : Nat) (a : Activation) :
    a.store.Keeps (fun _ => True) (endState (runSteps ctx fuel a)).store := by
  induction fuel generalizing a with
  | zero => exact .refl _ a.store
  | succ fuel ih =>
    have h := assembled_stepOnce.keeps hc a
    rw [runSteps]
    cases hres : stepOnce ctx a with
    | ok exit a' =>
      rw [hres] at h
      cases exit with
      | none => exact h.trans (ih a')
      | some exit => exact h
    | error e a' =>
      rw [hres] at h
      exact h

theorem keeping_runFrame (f : Frame) : Keeping (fun _ => True) ctx (runFrame f) := by
  intro s
  rw [runFrame]
  split
  · exact Store.keeps_of_machinery rfl
  · have h := runSteps_keeps hc ctx.fuel ⟨f, s.enter⟩
    cases hres : runSteps ctx ctx.fuel ⟨f, s.enter⟩ with
    | ok exit a | error e a =>
      rw [hres] at h
      -- the frame is left as it was entered
      exact ⟨congrArg (· - 1) h.depth, h.rows⟩

/-! ## 5. Calls and resumptions -/

theorem keeping_callFunction (f : Function) (args : List Value) (kwargs : List Keyword) :
    Keeping (fun _ => True) ctx (callFunction f args kwargs) := by
  unfold callFunction
  refine .bind ((gentle_programFor _ _).composed.keeps hc) fun program =>
    .bind ((composed_bind f args kwargs).keeps hc) fun locals =>
      .bind ((gentle_newFrame program f locals).composed.keeps hc) fun frame => ?_
  split
  · exact keeping_newGenerator _
  · refine .bind (keeping_runFrame hc frame) fun exit => ?_
    split
    · exact keeping_pure _
    · exact keeping_throw _

theorem keeping_callValue (callee : Value) (args : List Value) (kwargs : List Keyword) :
    Keeping (fun _ => True) ctx (callValue callee args kwargs) := by
  unfold callValue
  split
  · exact .bind ((gentle_look _).composed.keeps hc) fun f => keeping_callFunction hc f args kwargs
  · exact (composed_construct _ args kwargs).keeps hc
  · exact (composed_callBuiltin _ args kwargs).keeps hc
  · split
    · exact ((gentle_noKeywords _ kwargs).bind fun _ =>
        gentle_callNativeMethod _ _ args).composed.keeps hc
    · exact (composed_callTypeMethod _ _ args kwargs).keeps hc
  · exact ((gentle_typeName _).bind fun _ => (gentle_noKeywords _ kwargs).bind fun _ =>
      gentle_callNative _ args).composed.keeps hc
  · exact ((gentle_typeName _).bind fun _ => gentle_typeError _).composed.keeps hc

theorem keeping_runGenerator (g : Nat) (f : Frame) :
    Keeping (· ≠ g) ctx (runGenerator g f) := by
  have hframe : Keeping (· ≠ g) ctx (runFrame f) :=
    fun s => (keeping_runFrame hc f s).mono fun _ _ => trivial
  unfold runGenerator
  refine hframe.attempt.bind fun outcome => ?_
  split
  · split
    · exact .bind (keeping_updateGenerator (fun h => h rfl) _) fun _ => keeping_pure _
    · exact keeping_throw _
  · exact keeping_throw _
  · refine .bind (fun s => .refl _ s) fun m => ?_
    split
    · exact fun s => Store.keeps_of_machinery rfl
    · exact keeping_throw _

theorem keeping_resumeFrame (g : Nat) (r : Resumption) :
    Keeping (· ≠ g) ctx (resumeFrame g r) := by
  unfold resumeFrame
  refine .generator_bind fun x => .bind (keeping_updateGenerator (fun h => h rfl) _) fun _ => ?_
  split
  · exact keeping_runGenerator hc g _
  · exact keeping_runGenerator hc g _
  · exact keeping_throw _
  · exact keeping_throw _

omit hc in
/-- A resumption makes the generator exhausted before its frame runs. -/
theorem resumeFrame_run (g : Nat) (r : Resumption) (s : Store) :
    resumeFrame g r ctx s = (match (s.generators.get g).progress, r with
      | .created f, .send _ => runGenerator g f
      | .suspended saved, r => runGenerator g (saved.resume r)
      | .exhausted, .send _ => throw (.stopIteration none)
      | _, .throw e => throw (.raised e) : Action Value) ctx
        (s.onGenerator g fun x => { x with progress := .exhausted }) := rfl

/-- Running its frame moves a generator on to its next suspension, or leaves it as it is. -/
theorem runGenerator_row {x : Generator} {s : Store} (hrow : s.generators.rows[g]? = some x)
    (hrun : x.running = true) (f : Frame) : match runGenerator g f ctx s with
      | .ok _ s' => ∃ progress, s'.generators.rows[g]? = some { x with progress }
      | .error _ s' => s'.generators.rows[g]? = some x := by
  have hkept := (keeping_runFrame hc f s).rows g x trivial hrow hrun
  unfold runGenerator
  rw [run_bind, attempt_run]
  cases hres : runFrame f ctx s with
  | ok exit s' =>
    rw [hres] at hkept
    obtain ⟨exit, f'⟩ := exit
    cases exit with
    | yields v =>
      dsimp only
      cases f'.suspend? with
      | ok saved => exact ⟨_, Store.onGenerator_row hkept _⟩
      | error e => exact hkept
    | returns v => exact hkept
  | error e s' =>
    rw [hres] at hkept
    have hmodel : model ctx s' = .ok ctx.compiler.model s' := rfl
    dsimp only
    rw [run_bind, hmodel]
    dsimp only
    cases isStopIteration ctx.compiler.model e with
    | true => exact hkept
    | false => exact hkept

/-- **A resumption moves its generator on** and changes nothing else of it. One that ends in a fault
leaves it exhausted. -/
theorem resumeFrame_row {x : Generator} {s : Store} (hrow : s.generators.rows[g]? = some x)
    (hrun : x.running = true) (r : Resumption) : match resumeFrame g r ctx s with
      | .ok _ s' => ∃ progress, s'.generators.rows[g]? = some { x with progress }
      | .error _ s' => s'.generators.rows[g]? = some { x with progress := .exhausted } := by
  have hexhausted := Store.onGenerator_row hrow fun x => { x with progress := .exhausted }
  have hrest : ∀ f : Frame, match runGenerator g f ctx
        (s.onGenerator g fun x => { x with progress := .exhausted }) with
      | .ok _ s' => ∃ progress, s'.generators.rows[g]? = some { x with progress }
      | .error _ s' => s'.generators.rows[g]? = some { x with progress := .exhausted } :=
    fun f => runGenerator_row hc hexhausted hrun f
  rw [resumeFrame_run, Table.get_of_row hrow]
  cases x.progress with
  | created f =>
    cases r with
    | send v => exact hrest f
    | throw e => exact hexhausted
  | suspended saved => exact hrest (saved.resume r)
  | exhausted =>
    cases r with
    | send v => exact hexhausted
    | throw e => exact hexhausted

end Protocol

/-! ## 6. The machine -/

/-- **While a generator runs, nothing that the machine does touches it.** -/
theorem context_orderly (c : Compiler) (d : Digest) (n : Nat) : (context c d n).Orderly := by
  induction n with
  | zero => exact ⟨fun _ _ _ s => .refl _ s, fun _ _ s => .refl _ s⟩
  | succ n ih =>
    exact ⟨fun v args kwargs => keeping_callValue ih v args kwargs,
      fun g r => keeping_resumeFrame ih g r⟩

/-- In the machine a resumption changes the progress of its own generator and nothing else of it. -/
theorem context_resume_row (c : Compiler) (d : Digest) (n : Nat) {x : Generator} {s : Store}
    (hrow : s.generators.rows[g]? = some x) (hrun : x.running = true) (r : Resumption) :
    ∃ progress, (endState ((context c d n).resume g r s)).generators.rows[g]?
      = some { x with progress } := by
  cases n with
  | zero => exact ⟨x.progress, hrow⟩
  | succ n =>
    have h := resumeFrame_row (context_orderly c d n) hrow hrun r
    show ∃ progress, (endState (resumeFrame g r (context c d n) s)).generators.rows[g]? = _
    cases hres : resumeFrame g r (context c d n) s with
    | ok v s' =>
      rw [hres] at h
      exact h
    | error e s' =>
      rw [hres] at h
      exact ⟨_, h⟩

end Machine

end Stackwise
