import Stackwise.Proofs.Machine.CaughtExceptions

/-!
# Single operations

What a step of a frame does at the operations that enter `with` blocks and that handle their
exceptions. In each case the stack is given by the values that the operation looks at.

* `stepOnce_next`: an operation that goes on. `stepOnce_pushes`: one that puts a value on the stack.
* `stepOnce_dupTop`, `stepOnce_rotTwo`, `stepOnce_popTop`, `stepOnce_setupFinally`,
  `stepOnce_popExcept`: operations that cannot fail.
* `stepOnce_loadSpecial`, `stepOnce_callMethod`, `stepOnce_withExceptStart`, `stepOnce_popJumpIf`,
  `stepOnce_reraise`: operations that can, by how they end.
-/

namespace Stackwise

namespace Machine

variable {f : Frame} {st : Step} {lowering : Lowering} {rest : List Value} {v w : Value}

/-! ## 1. Operations that go on -/

theorem stepOnce_next (hst : f.program.step? f.pc = some st) {ctx : Context} {s : Store}
    {a : Activation} (hrun : execute st ctx ⟨f, s⟩ = .ok .next a) :
    stepOnce ctx ⟨f, s⟩ = .ok none (a.goTo (f.pc + 1)) := by
  rw [stepOnce_run hst, hrun]

/-- An operation that asks the store for a value has taken its operands, however that ends. -/
theorem stepOnce_pushes (hst : f.program.step? f.pc = some st) {x : Action Value} {ctx : Context}
    {s : Store} (hrun : execute st ctx ⟨f, s⟩ = ((liftM x >>= push) >>= fun _ => return .next
      : FrameAction Flow) ctx ⟨{ f with stack := rest }, s⟩) :
    stepOnce ctx ⟨f, s⟩ = match x ctx s with
      | .ok w t => .ok none ⟨{ f with stack := w :: rest, pc := f.pc + 1 }, t⟩
      | .error e t => routeFault st f.pc e ctx ⟨{ f with stack := rest }, t⟩ := by
  rw [stepOnce_run hst, hrun, run_bind, run_lift_bind]
  cases x ctx s <;> rfl

theorem stepOnce_dupTop (hst : f.program.step? f.pc = some st)
    (hexec : execute st = operate .dupTop lowering) (hstack : f.stack = v :: rest) (ctx : Context)
    (s : Store) :
    stepOnce ctx ⟨f, s⟩ = .ok none ⟨{ f with stack := v :: v :: rest, pc := f.pc + 1 }, s⟩ := by
  have hrun : execute st ctx ⟨f, s⟩ = .ok .next ⟨{ f with stack := v :: v :: rest }, s⟩ := by
    rw [hexec]
    cases f
    subst hstack
    rfl
  exact stepOnce_next hst hrun

theorem stepOnce_rotTwo (hst : f.program.step? f.pc = some st)
    (hexec : execute st = operate .rotTwo lowering) (hstack : f.stack = v :: w :: rest)
    (ctx : Context) (s : Store) :
    stepOnce ctx ⟨f, s⟩ = .ok none ⟨{ f with stack := w :: v :: rest, pc := f.pc + 1 }, s⟩ := by
  have hrun : execute st ctx ⟨f, s⟩ = .ok .next ⟨{ f with stack := w :: v :: rest }, s⟩ := by
    rw [hexec]
    cases f
    subst hstack
    rfl
  exact stepOnce_next hst hrun

theorem stepOnce_popTop (hst : f.program.step? f.pc = some st)
    (hexec : execute st = operate .popTop lowering) (hstack : f.stack = v :: rest)
    (ctx : Context) (s : Store) :
    stepOnce ctx ⟨f, s⟩ = .ok none ⟨{ f with stack := rest, pc := f.pc + 1 }, s⟩ := by
  have hrun : execute st ctx ⟨f, s⟩ = .ok .next ⟨{ f with stack := rest }, s⟩ := by
    rw [hexec]
    cases f
    subst hstack
    rfl
  exact stepOnce_next hst hrun

/-- A block that is opened is nothing to the machine. -/
theorem stepOnce_setupFinally (hst : f.program.step? f.pc = some st) {h n : Nat} {kind : BlockKind}
    (hexec : execute st = operate (.setupFinally h kind n) lowering) (ctx : Context) (s : Store) :
    stepOnce ctx ⟨f, s⟩ = .ok none ⟨{ f with pc := f.pc + 1 }, s⟩ := by
  have hrun : execute st ctx ⟨f, s⟩ = .ok .next ⟨f, s⟩ := by
    rw [hexec]
    rfl
  exact stepOnce_next hst hrun

/-- The exception that was in force before is so again. -/
theorem stepOnce_popExcept (hst : f.program.step? f.pc = some st)
    (hexec : execute st = operate .popExcept lowering) {u : Value}
    (hstack : f.stack = w :: v :: u :: rest) (ctx : Context) (s : Store) : stepOnce ctx ⟨f, s⟩
      = .ok none ⟨{ f with stack := rest, handled := asRaised? v, pc := f.pc + 1 }, s⟩ := by
  have hrun : execute st ctx ⟨f, s⟩
      = .ok .next ⟨{ f with stack := rest, handled := handledOf [u, v, w] }, s⟩ := by
    rw [hexec]
    cases f
    subst hstack
    rfl
  rw [handledOf_eq] at hrun
  exact stepOnce_next hst hrun

/-! ## 2. Operations that can fail -/

theorem stepOnce_loadSpecial (hst : f.program.step? f.pc = some st) {name : String}
    (hexec : execute st = operate (.loadSpecial name) lowering) (hstack : f.stack = v :: rest)
    (ctx : Context) (s : Store) : stepOnce ctx ⟨f, s⟩ = match special v name ctx s with
      | .ok w t => .ok none ⟨{ f with stack := w :: rest, pc := f.pc + 1 }, t⟩
      | .error e t => routeFault st f.pc e ctx ⟨{ f with stack := rest }, t⟩ := by
  refine stepOnce_pushes hst ?_
  rw [hexec]
  cases f
  subst hstack
  rfl

/-- A method is called without arguments. -/
theorem stepOnce_callMethod (hst : f.program.step? f.pc = some st)
    (hexec : execute st = operate (.callFunction 0) lowering) {id nameId : Ident} {name : String}
    (hstack : f.stack = .method id v nameId name :: rest) (ctx : Context) (s : Store) :
    stepOnce ctx ⟨f, s⟩ = match ctx.call (.method id v nameId name) [] [] s with
      | .ok w t => .ok none ⟨{ f with stack := w :: rest, pc := f.pc + 1 }, t⟩
      | .error e t => routeFault st f.pc e ctx ⟨{ f with stack := rest }, t⟩ := by
  refine stepOnce_pushes hst (x := call (.method id v nameId name) []) ?_
  rw [hexec]
  cases f
  subst hstack
  cases lowering <;> rfl

/-- The exit hook is called with the exception that lies on the stack. -/
theorem stepOnce_withExceptStart (hst : f.program.step? f.pc = some st)
    (hexec : execute st = operate .withExceptStart lowering) {type value traceback hook : Value}
    (hstack : f.stack = type :: value :: traceback :: rest) (hhook : rest[3]? = some hook)
    (ctx : Context) (s : Store) : stepOnce ctx ⟨f, s⟩
      = match ctx.call hook [type, value, traceback] [] s with
        | .ok w t => .ok none ⟨{ f with stack := w :: f.stack, pc := f.pc + 1 }, t⟩
        | .error e t => routeFault st f.pc e ctx ⟨f, t⟩ := by
  obtain ⟨b₁, b₂, b₃, rest, rfl⟩ : ∃ b₁ b₂ b₃ below, rest = b₁ :: b₂ :: b₃ :: hook :: below := by
    match rest, hhook with
    | b₁ :: b₂ :: b₃ :: _ :: below, rfl => exact ⟨b₁, b₂, b₃, below, rfl⟩
  refine stepOnce_pushes hst (x := call hook [type, value, traceback]) ?_
  rw [hexec]
  cases f
  subst hstack
  rfl

/-- A value is tested. -/
theorem stepOnce_popJumpIf (hst : f.program.step? f.pc = some st) {on : Bool} {l : Nat}
    (hexec : execute st = operate (.popJumpIf on l) lowering) (hstack : f.stack = w :: rest)
    (ctx : Context) (s : Store) : stepOnce ctx ⟨f, s⟩
      = match truthy w ctx s with
        | .ok yes t =>
          .ok none ⟨{ f with stack := rest, pc := if yes == on then l else f.pc + 1 }, t⟩
        | .error e t => routeFault st f.pc e ctx ⟨{ f with stack := rest }, t⟩ := by
  have hrun : execute st ctx ⟨f, s⟩
      = (liftM (truthy w) >>= fun yes =>
        return if yes == on then .jump l else .next : FrameAction Flow)
          ctx ⟨{ f with stack := rest }, s⟩ := by
    rw [hexec]
    cases f
    subst hstack
    rfl
  rw [stepOnce_run hst, hrun, run_lift_bind]
  cases truthy w ctx s with
  | error e t => rfl
  | ok yes t =>
    dsimp only
    cases h : yes == on <;> rfl

/-- What lies on the stack as an exception is raised again, and the raise is not noted down. -/
theorem stepOnce_reraise (hst : f.program.step? f.pc = some st) {lasti : Bool}
    (hop : st.op = .reraise lasti) (hexec : execute st = operate (.reraise lasti) lowering)
    {type traceback : Value} {e : Raised} (hstack : f.stack = type :: e.value :: traceback :: rest)
    (ctx : Context) (s : Store) :
    stepOnce ctx ⟨f, s⟩ = routed (unwind e ctx ⟨{ f with stack := rest }, s⟩) := by
  have hrun : execute st ctx ⟨f, s⟩ = .error (.raised e) ⟨{ f with stack := rest }, s⟩ := by
    rw [hexec]
    cases f
    subst hstack
    rfl
  have hnoted : noted st f.program.name f.pc e s = s := by
    rw [noted, hop]
  have hroute := routeFault_noted (f := { f with stack := rest }) (s := s)
    (show catchable (.raised e) ctx s = .ok e s from rfl) st f.pc
  rw [hnoted] at hroute
  rw [stepOnce_run hst, hrun]
  exact hroute

end Machine

end Stackwise
