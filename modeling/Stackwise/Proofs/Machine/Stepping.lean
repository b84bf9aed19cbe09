import Stackwise.Machine.Run
import Stackwise.Proofs.Machine.StackUse

/-!
# One step of a frame

How a step is put together from the instruction and the way of its fault.

* `stepOnce_run`: the step of a frame, by the outcome of its instruction. `runSteps_succ`: the run
  after it.
* `routeFault_outcome`: a fault is routed to the handler of its offset, which starts with six values
  above its level, or leaves the frame.
* `newFrame_eq_ok`: the frame that a call starts with.
* `Compiler.ofBuiltins`, `plainContext`: what the examples run with.
-/

namespace Stackwise

/-- The compiler that knows the built-in types, with the default options. -/
abbrev Compiler.ofBuiltins : Compiler := .ofModel .withBuiltins {}

/-- The activation with its frame at another offset. -/
def Activation.goTo (a : Activation) (pc : Nat) : Activation :=
  { a with frame := { a.frame with pc } }

/-- What the way of a fault leaves behind: a handler, or a fault. -/
def Footing.routed {α : Type} (W : Tolerance) (r : Footing) (post : α → Prop) :
    EStateM.Result Fault Activation α → Prop
  | .ok v a => post v ∧ W.store a.store
      ∧ ∃ region, Region.find? r.program.regions r.pc = some region
        ∧ a.frame.footing = { r with pc := region.handler }
        ∧ a.frame.stack.length = region.level + 6
  | .error e a => W.store a.store ∧ W.fault e

namespace Machine

/-- The context of a run with this compiler. -/
abbrev plainContext (fuel : Nat) : Context := context .ofBuiltins Digest.standard fuel

/-! ## 1. Instructions -/

theorem attemptStep_run (step : Step) (ctx : Context) (a : Activation) :
    attemptStep step ctx a = match execute step ctx a with
      | .ok flow a => .ok (.ok flow) a
      | .error e a => .ok (.error e) a := by
  have hunfold : attemptStep step ctx a = EStateM.tryCatch
      (EStateM.bind (execute step ctx) fun flow => EStateM.pure (Except.ok flow))
      (fun e => EStateM.pure (Except.error e)) a := rfl
  rw [hunfold]
  simp only [EStateM.tryCatch, EStateM.bind, EStateM.pure]
  cases execute step ctx a <;> rfl

theorem stepOnce_unfold (ctx : Context) (f : Frame) (s : Store) :
    stepOnce ctx ⟨f, s⟩ = (match f.program.step? f.pc with
      | none => broken .noInstruction
      | some step => attemptStep step >>= fun
        | .ok .next => goTo (f.pc + 1)
        | .ok (.jump target) => goTo target
        | .ok (.leave v) => return some (.returns v)
        | .ok (.yields v) => return some (.yields v)
        | .error e => routeFault step f.pc e : FrameAction (Option Exit)) ctx ⟨f, s⟩ := rfl

/-- **A step is its instruction, and then the way that control goes.** -/
theorem stepOnce_run {f : Frame} {step : Step} (hstep : f.program.step? f.pc = some step)
    (ctx : Context) (s : Store) : stepOnce ctx ⟨f, s⟩ = match execute step ctx ⟨f, s⟩ with
      | .ok .next a => .ok none (Activation.goTo a (f.pc + 1))
      | .ok (.jump t) a => .ok none (Activation.goTo a t)
      | .ok (.leave v) a => .ok (some (.returns v)) a
      | .ok (.yields v) a => .ok (some (.yields v)) a
      | .error e a => routeFault step f.pc e ctx a := by
  rw [stepOnce_unfold, hstep]
  simp only [Bind.bind, ReaderT.bind, EStateM.bind, attemptStep_run]
  cases execute step ctx ⟨f, s⟩ with
  | error e a => rfl
  | ok flow a => cases flow <;> rfl

/-- What a run comes to after a step. -/
def goOn (ctx : Context) (n : Nat) :
    EStateM.Result Fault Activation (Option Exit) → EStateM.Result Fault Activation Exit
  | .ok none a => runSteps ctx n a
  | .ok (some exit) a => .ok exit a
  | .error e a => .error e a

theorem runSteps_succ (ctx : Context) (n : Nat) (a : Activation) :
    runSteps ctx (n + 1) a = goOn ctx n (stepOnce ctx a) := by
  rw [runSteps]
  unfold goOn
  cases stepOnce ctx a with
  | error e a => rfl
  | ok exit a => cases exit <;> rfl

/-! ## 2. Faults -/

variable {W : Tolerance} {r : Footing} {d : Nat}

/-- An exception comes to lie on the stack as three values. -/
theorem runs_triple {e : Option Raised} {post : List Value → Nat → Prop}
    (h : ∀ vs, vs.length = 3 → post vs d) : Runs W r (liftM (triple e)) d post := by
  change Runs W r (inFrame (triple e)) d post
  unfold triple
  cases e with
  | none => exact runs_pure (h _ rfl)
  | some e =>
    refine inFrame_bind _ _ ▸ .bind (runs_inFrame (gentle_look _).composed fun entries => ?_)
    refine inFrame_bind _ _ ▸ .bind (runs_inFrame (.make fun _ => rfl) fun tb => ?_)
    exact runs_pure (h _ rfl)

theorem cut_length {α : Type} {stack : List α} {level : Nat} (h : level ≤ stack.length) :
    (Stack.cut stack level).length = level := by
  rw [Stack.cut, List.length_drop]
  omega

theorem cut_append {α : Type} (top : List α) {rest : List α} {level : Nat}
    (h : level ≤ rest.length) : Stack.cut (top ++ rest) level = Stack.cut rest level := by
  rw [Stack.cut, Stack.cut, List.length_append,
    show top.length + rest.length - level = top.length + (rest.length - level) by omega,
    List.drop_append, List.drop_eq_nil_of_le (by omega), List.nil_append, Nat.add_sub_cancel_left]

theorem unwind_outcome {e : Raised} {ctx : Context} (hc : W.context ctx) {f : Frame} {s : Store}
    (hr : f.footing = r) (hs : W.store s) :
    Footing.routed W r (fun _ => True) (unwind e ctx ⟨f, s⟩) := by
  have herror : ∀ e a, a.frame.footing = r → W.store a.store → W.fault e →
      Footing.routed W r (fun _ : Unit => True) (.error e a) := fun e a _ hs he => ⟨hs, he⟩
  unfold unwind
  refine Runs.run_bind hc hr rfl hs (runs_frame fun f₁ hr₁ hd₁ f s hr hd hs => ?_) herror
  have hfind : Region.find? f₁.program.regions f₁.pc = Region.find? r.program.regions r.pc := by
    rw [← hr₁]
    rfl
  rw [hfind]
  cases hregion : Region.find? r.program.regions r.pc with
  | none => exact ⟨hs, W.other _ rfl⟩
  | some region =>
    dsimp only
    split
    · exact ⟨hs, W.other _ rfl⟩
    · rename_i hlevel
      refine Runs.run_bind hc hr hd hs (runs_triple fun before hb f s hr hd hs => ?_) herror
      refine Runs.run_bind hc hr hd hs (runs_triple fun now hn f s hr hd hs => ?_) herror
      refine ⟨trivial, hs, region, hregion, ?_, ?_⟩
      · rw [← hr]
        rfl
      · simp only [List.length_append, hb, hn]
        rw [cut_length (by omega)]
        omega

theorem routeFault_outcome {step : Step} {pc : Nat} {e : Fault} {ctx : Context}
    (hc : W.context ctx) (he : W.fault e) {a : Activation} (hr : a.frame.footing = r)
    (hs : W.store a.store) : Footing.routed W r (· = none) (routeFault step pc e ctx a) := by
  have herror : ∀ e a, a.frame.footing = r → W.store a.store → W.fault e →
      Footing.routed W r (fun x : Option Exit => x = none) (.error e a) :=
    fun e a _ hs he => ⟨hs, he⟩
  have hunwind : ∀ x f s, f.footing = r → W.store s → Footing.routed W r (fun x => x = none)
      ((do unwind x; return none : FrameAction (Option Exit)) ctx ⟨f, s⟩) := by
    intro x f s hr hs
    have h := unwind_outcome (e := x) hc hr hs
    simp only [Bind.bind, ReaderT.bind, EStateM.bind]
    cases hres : unwind x ctx ⟨f, s⟩ with
    | ok v a =>
      rw [hres] at h
      exact ⟨rfl, h.2⟩
    | error e a =>
      rw [hres] at h
      exact h
  unfold routeFault
  refine Runs.run_bind hc hr rfl hs
    (runs_lift (gentleUnder_catchable he).composed fun x f s hr hd hs => ?_) herror
  refine Runs.run_bind hc hr hd hs (runs_frame fun f₁ _ _ f s hr hd hs => ?_) herror
  have hrecord : ∀ entry, Footing.routed W r (fun x => x = none)
      ((do record x entry; unwind x; return none : FrameAction (Option Exit)) ctx ⟨f, s⟩) :=
    fun entry => Runs.run_bind hc hr hd hs
      (runs_gentle (gentle_record _ _) fun _ f s hr _ hs => hunwind x f s hr hs) herror
  cases step.op with
  | reraise _ => exact hunwind x f s hr hs
  | _ => exact hrecord _

/-! ## 3. New frames -/

theorem run_bind_eq_ok {α β σ : Type} {x : ReaderT Context (EStateM Fault σ) α}
    {k : α → ReaderT Context (EStateM Fault σ) β} {ctx : Context} {s s' : σ} {v : β} :
    (x >>= k) ctx s = .ok v s'
      ↔ ∃ u s₁, x ctx s = .ok u s₁ ∧ k u ctx s₁ = .ok v s' := by
  simp only [Bind.bind, ReaderT.bind, EStateM.bind]
  constructor
  · intro h
    cases hx : x ctx s with
    | ok u s₁ =>
      rw [hx] at h
      exact ⟨u, s₁, rfl, h⟩
    | error e s₁ =>
      rw [hx] at h
      cases h
  · rintro ⟨u, s₁, hx, h⟩
    rw [hx]
    exact h

theorem mapM_length {α β : Type} {g : α → Action β} {xs : List α} {ctx : Context} {s s' : Store}
    {ys : List β} (h : xs.mapM g ctx s = .ok ys s') : ys.length = xs.length := by
  induction xs generalizing s ys with
  | nil =>
    cases h
    rfl
  | cons x xs ih =>
    rw [List.mapM_cons] at h
    obtain ⟨y, s₁, -, h⟩ := run_bind_eq_ok.mp h
    obtain ⟨ys₁, s₂, hys, h⟩ := run_bind_eq_ok.mp h
    cases h
    rw [List.length_cons, List.length_cons, ih hys]

/-- **The frame of a call** stands at the entry, with an empty stack and all its cells. -/
theorem newFrame_eq_ok {p : Program} {fn : Function} {locals : Array (Option Value)}
    {ctx : Context} {s s' : Store} {f : Frame} (h : newFrame p fn locals ctx s = .ok f s') :
    f.program = p ∧ f.locals = locals ∧ f.cells.size = p.code.closureSize ∧ f.stack = []
      ∧ f.pc = 0 ∧ f.state = 0 ∧ f.resumption = none := by
  unfold newFrame at h
  dsimp only at h
  split at h
  · cases h
  · rename_i hclosure
    obtain ⟨cells, s₁, hcells, h⟩ := run_bind_eq_ok.mp h
    cases h
    refine ⟨rfl, rfl, ?_, rfl, rfl, rfl, rfl⟩
    have hown := mapM_length hcells
    simp only [bne_iff_ne, ne_eq, not_not] at hclosure
    rw [List.size_toArray, List.length_append, hown, hclosure]
    rfl

end Machine

end Stackwise
