import Stackwise.Proofs.Analysis.Edges
import Stackwise.Proofs.Machine.Stepping

/-!
# Ways out of an instruction

What is known of the outcome of an instruction on any frame, in lockstep or not.

* `operate_ways`: control goes on, to an offset that the operation names, or out of the frame.
* `Quiet`, `operate_quiet`: an operation that may not raise ends in no fault that a handler could
  catch.
-/

namespace Stackwise

/-! ## 1. Control -/

/-- The way of control is one that the operation at `o` has; a frame that is suspended has the state
of the suspension. -/
def Flow.Of (op : Op) (o : Nat) (f : Frame) : Flow → Prop
  | .next => op.GoesTo o (o + 1)
  | .jump t => op.GoesTo o t
  | .leave _ => True
  | .yields _ => op.suspension? = some f.state

theorem mem_of_lookup {β : Type} {k : Nat} {v : β} {xs : List (Nat × β)}
    (h : xs.lookup k = some v) : (k, v) ∈ xs := by
  obtain ⟨l₁, l₂, rfl, -⟩ := List.lookup_eq_some_iff.mp h
  exact List.mem_append_right _ (.head _)

namespace Machine

variable {ctx : Context} {a a' : Activation} {flow : Flow}

theorem delegate_ways {state exit : Nat} (h : delegate state exit ctx a = .ok flow a') :
    flow = .jump exit ∨ ∃ v, flow = .yields v ∧ a'.frame.state = state := by
  unfold delegate at h
  obtain ⟨sent, a₁, -, h⟩ := run_bind_eq_ok.mp h
  obtain ⟨receiver, a₂, -, h⟩ := run_bind_eq_ok.mp h
  obtain ⟨r, a₃, -, h⟩ := run_bind_eq_ok.mp h
  cases r with
  | ok v =>
    obtain ⟨_, a₄, hstate, h⟩ := run_bind_eq_ok.mp h
    cases hstate
    cases h
    exact .inr ⟨v, rfl, rfl⟩
  | error e =>
    obtain ⟨m, a₄, -, h⟩ := run_bind_eq_ok.mp h
    obtain ⟨s, a₅, -, h⟩ := run_bind_eq_ok.mp h
    generalize delegateResult? m s e = result at h
    cases result with
    | some result =>
      obtain ⟨_, a₆, -, h⟩ := run_bind_eq_ok.mp h
      obtain ⟨_, a₇, -, h⟩ := run_bind_eq_ok.mp h
      cases h
      exact .inl rfl
    | none => cases h

theorem dispatch_ways {states : List (Nat × Nat)} (h : dispatch states ctx a = .ok flow a') :
    flow = .next ∨ ∃ k t, flow = .jump t ∧ (k, t) ∈ states := by
  unfold dispatch at h
  obtain ⟨f, a₁, -, h⟩ := run_bind_eq_ok.mp h
  split at h
  · cases h
    exact .inl rfl
  · cases ht : states.lookup f.state with
    | some t =>
      rw [ht] at h
      cases h
      exact .inr ⟨_, t, rfl, mem_of_lookup ht⟩
    | none =>
      rw [ht] at h
      cases h

/-- **Control goes where the operation leads.** -/
theorem operate_ways {op : Op} {lowering : Lowering} (o : Nat)
    (h : operate op lowering ctx a = .ok flow a') : flow.Of op o a'.frame := by
  unfold operate at h
  cases op with
  | forIter exit =>
    obtain ⟨v, a₁, -, h⟩ := run_bind_eq_ok.mp h
    obtain ⟨item, a₂, -, h⟩ := run_bind_eq_ok.mp h
    cases item with
    | some v =>
      obtain ⟨_, a₃, -, h⟩ := run_bind_eq_ok.mp h
      cases h
      exact .inl ⟨rfl, rfl⟩
    | none =>
      obtain ⟨_, a₃, -, h⟩ := run_bind_eq_ok.mp h
      cases h
      exact .inr (.inl rfl)
  | jump target =>
    cases h
    exact .inr (.inl rfl)
  | popJumpIf on target =>
    obtain ⟨v, a₁, -, h⟩ := run_bind_eq_ok.mp h
    obtain ⟨b, a₂, -, h⟩ := run_bind_eq_ok.mp h
    cases h
    split
    · exact .inr (.inl rfl)
    · exact .inl ⟨rfl, rfl⟩
  | jumpIfOrPop on target =>
    obtain ⟨v, a₁, -, h⟩ := run_bind_eq_ok.mp h
    obtain ⟨b, a₂, -, h⟩ := run_bind_eq_ok.mp h
    split at h
    · cases h
      exact .inr (.inl rfl)
    · obtain ⟨_, a₃, -, h⟩ := run_bind_eq_ok.mp h
      cases h
      exact .inl ⟨rfl, rfl⟩
  | jumpIfNotExcMatch target =>
    obtain ⟨handler, a₁, -, h⟩ := run_bind_eq_ok.mp h
    obtain ⟨raised, a₂, -, h⟩ := run_bind_eq_ok.mp h
    obtain ⟨b, a₃, -, h⟩ := run_bind_eq_ok.mp h
    cases h
    split
    · exact .inl ⟨rfl, rfl⟩
    · exact .inr (.inl rfl)
  | returnValue =>
    obtain ⟨v, a₁, -, h⟩ := run_bind_eq_ok.mp h
    split at h
    · obtain ⟨f, a₂, -, h⟩ := run_bind_eq_ok.mp h
      obtain ⟨w, a₃, -, h⟩ := run_bind_eq_ok.mp h
      cases h
      trivial
    · cases h
      trivial
  | reraise _ =>
    obtain ⟨e, a₁, -, h⟩ := run_bind_eq_ok.mp h
    cases h
  | raiseVarargs n =>
    obtain ⟨e, a₁, -, h⟩ := run_bind_eq_ok.mp h
    cases h
  | resumeDispatch states =>
    rcases dispatch_ways h with rfl | ⟨k, t, rfl, hmem⟩
    · exact .inl ⟨rfl, rfl⟩
    · exact .inr (.inr ⟨states, k, rfl, hmem⟩)
  | suspend state =>
    obtain ⟨v, a₁, -, h⟩ := run_bind_eq_ok.mp h
    obtain ⟨_, a₂, hstate, h⟩ := run_bind_eq_ok.mp h
    cases hstate
    cases h
    rfl
  | delegate state exit =>
    rcases delegate_ways h with rfl | ⟨v, rfl, hstate⟩
    · exact .inr (.inl rfl)
    · exact congrArg some hstate.symm
  | _ =>
    obtain ⟨_, a₁, -, h⟩ := run_bind_eq_ok.mp h
    cases h
    exact .inl ⟨rfl, rfl⟩

end Machine

/-! ## 2. Faults -/

/-- No handler sees the fault. -/
def Fault.Fatal (e : Fault) : Prop := ∀ ctx s, Machine.catchable e ctx s = .error e s

namespace Machine

/-- The action ends in no fault that a handler could catch. -/
def Quiet {α : Type} (x : FrameAction α) : Prop :=
  ∀ ctx a e a', x ctx a = .error e a' → e.Fatal

variable {α β : Type}

theorem quiet_pure (v : α) : Quiet (pure v) := fun _ _ _ _ h => by cases h

theorem Quiet.bind {x : FrameAction β} {k : β → FrameAction α} (hx : Quiet x)
    (hk : ∀ v, Quiet (k v)) : Quiet (x >>= k) := by
  intro ctx a e a' h
  simp only [Bind.bind, ReaderT.bind, EStateM.bind] at h
  cases hres : x ctx a with
  | ok v a₁ =>
    rw [hres] at h
    exact hk v ctx a₁ e a' h
  | error e₁ a₁ =>
    rw [hres] at h
    cases h
    exact hx ctx a e a' hres

theorem quiet_frame : Quiet frame := fun _ _ _ _ h => by cases h

theorem quiet_updateFrame (g : Frame → Frame) : Quiet (updateFrame g) :=
  fun _ _ _ _ h => by cases h

theorem quiet_broken (cause : Broken) : Quiet (broken cause : FrameAction α) := by
  intro ctx a e a' h
  cases h
  exact fun _ _ => rfl

theorem quiet_make (g : Store → α × Store) : Quiet (liftM (make g) : FrameAction α) :=
  fun _ _ _ _ h => by cases h

theorem quiet_onStack (g : List Value → Option (α × List Value)) : Quiet (onStack g) := by
  refine quiet_frame.bind fun f => ?_
  cases g f.stack with
  | none => exact quiet_broken _
  | some r => exact .bind (quiet_updateFrame _) fun _ => quiet_pure _

theorem quiet_cellAt (slot : Nat) : Quiet (cellAt slot) := by
  refine quiet_frame.bind fun f => ?_
  cases f.cells[slot]? with
  | none => exact quiet_broken _
  | some r => exact quiet_pure r

theorem quiet_build {shape : Shape} {n : Nat} (h : (Op.build shape n).mayRaise = false) :
    Quiet (build shape n) := by
  cases shape with
  | tuple | list => exact .bind (quiet_onStack _) fun vs => quiet_make _
  | slice =>
    have hrest : ∀ step, Quiet (do
        let stop ← pop
        let start ← pop
        make (Store.newSlice start stop step) : FrameAction Value) :=
      fun step => .bind (quiet_onStack _) fun stop => .bind (quiet_onStack _) fun start =>
        quiet_make _
    unfold build
    dsimp only
    split
    · exact .bind (quiet_onStack _) hrest
    · exact .bind (quiet_pure _) hrest
  | _ => cases h

theorem perform_quiet {op : Op} (hraise : op.mayRaise = false) (hlist : op ≠ .listToTuple)
    (lowering : Lowering) : Quiet (perform op lowering) := by
  unfold perform
  cases op with
  | popTop => exact .bind (quiet_onStack _) fun _ => quiet_pure _
  | rotTwo | rotThree | rotFour | rotN _ => exact quiet_onStack _
  | dupTop => exact .bind (quiet_onStack _) fun _ => quiet_updateFrame _
  | dupTopTwo =>
    exact .bind (quiet_onStack _) fun _ => .bind (quiet_onStack _) fun _ => quiet_updateFrame _
  | loadConst index =>
    refine quiet_frame.bind fun f => ?_
    dsimp only
    split
    · exact .bind (quiet_make _) fun _ => quiet_updateFrame _
    · exact quiet_broken _
  | storeFast slot =>
    refine .bind (quiet_onStack _) fun v => quiet_frame.bind fun f => ?_
    split
    · exact quiet_updateFrame _
    · exact quiet_broken _
  | loadClosure slot => exact .bind (quiet_cellAt slot) fun _ => quiet_updateFrame _
  | popExcept => exact .bind (quiet_onStack _) fun _ => quiet_updateFrame _
  | build shape n => exact .bind (quiet_build hraise) fun _ => quiet_updateFrame _
  | listToTuple => exact absurd rfl hlist
  | nop | jump _ | setupFinally _ _ _ | popBlock | returnValue | resumeDispatch _ | suspend _
  | genStart _ => exact quiet_pure _
  | _ => cases hraise

/-- **An operation that may not raise does not raise**, but for the one that makes a tuple of any
iterable, and a return that is checked. -/
theorem operate_quiet {op : Op} {lowering : Lowering} (hraise : op.mayRaise = false)
    (hlist : op ≠ .listToTuple) (hreturn : op = .returnValue → lowering ≠ .return_ true) :
    Quiet (operate op lowering) := by
  have hperform := (perform_quiet hraise hlist lowering).bind fun _ => quiet_pure Flow.next
  unfold operate
  cases op with
  | jump target => exact quiet_pure _
  | returnValue =>
    refine .bind (quiet_onStack _) fun v => ?_
    split
    · exact absurd rfl (hreturn rfl)
    · exact quiet_pure _
  | resumeDispatch states =>
    refine quiet_frame.bind fun f => ?_
    dsimp only
    split
    · exact quiet_pure _
    · split
      · exact quiet_pure _
      · exact quiet_broken _
  | suspend state =>
    exact .bind (quiet_onStack _) fun v => .bind (quiet_updateFrame _) fun _ => quiet_pure _
  | forIter _ | popJumpIf _ _ | jumpIfOrPop _ _ | jumpIfNotExcMatch _ | reraise _ | raiseVarargs _
  | delegate _ _ => cases hraise
  | _ => exact hperform

end Machine

end Stackwise
