import Stackwise.Proofs.Machine.LiveForms
import Stackwise.Proofs.Machine.SingleSteps

/-!
# The handler of a `with` statement

An exception that comes out of a `with` block is put to the exit hook that lies below the block.

* `WithHandler`: the instructions of the handler. `WithHandler.Entered`: the offsets of one that is
  entered by an exception.
* `runSteps_asking`, `runSteps_drop`: the steps of the handler, up to the answer of the hook and behind
  it.
* `with_suppresses_or_reraises`: the hook is called once, with the exception. If it answers yes, the
  run goes on behind the handler with the stack below the hook and the exception that was in force
  before. If it answers no, the same exception is raised again, and nothing is noted down.
-/

namespace Stackwise

/-! ## 1. The handler -/

/-- The handler of a `with` statement at `h`. It calls the exit hook and tests the answer; if that is
no, it raises again, else it takes what it found off the stack, and goes on behind. -/
structure WithHandler (b : CompiledBody) (h l : Nat) : Prop where
  calls : b.HasOp h .withExceptStart
  tests : b.HasOp (h + 1) (.popJumpIf true l)
  reraises : ∃ lasti, b.HasOp (h + 2) (.reraise lasti)
  drops : ∀ k < 3, b.HasOp (l + k) .popTop
  restores : b.HasOp (l + 3) .popExcept
  forgets : b.HasOp (l + 4) .popTop

instance (b : CompiledBody) (h l : Nat) : Decidable (WithHandler b h l) :=
  decidable_of_iff (b.HasOp h .withExceptStart ∧ b.HasOp (h + 1) (.popJumpIf true l)
      ∧ (∃ lasti, b.HasOp (h + 2) (.reraise lasti)) ∧ (∀ k < 3, b.HasOp (l + k) .popTop)
      ∧ b.HasOp (l + 3) .popExcept ∧ b.HasOp (l + 4) .popTop)
    ⟨fun ⟨h₁, h₂, h₃, h₄, h₅, h₆⟩ => ⟨h₁, h₂, h₃, h₄, h₅, h₆⟩,
      fun ⟨h₁, h₂, h₃, h₄, h₅, h₆⟩ => ⟨h₁, h₂, h₃, h₄, h₅, h₆⟩⟩

/-- The offsets of a handler that an exception enters on the level `n`. -/
structure WithHandler.Entered (b : CompiledBody) (h l n : Nat) (outer : List Block) : Prop where
  hooked : 0 < n
  called : b.FormAt h (n + 6) (.handling n :: outer)
  tested : b.FormAt (h + 1) (n + 7) (.handling n :: outer)
  raised : b.FormAt (h + 2) (n + 6) (.handling n :: outer)
  dropped : ∀ k < 3, b.FormAt (l + k) (n + 6 - k) (.handling n :: outer)
  restored : b.FormAt (l + 3) (n + 3) (.handling n :: outer)
  forgotten : b.FormAt (l + 4) n outer

theorem WithHandler.entered {ty : Typer} {b : CompiledBody} {h l n : Nat} {outer : List Block}
    (hh : WithHandler b h l) (hb : b.Accepted ty)
    (hform : b.FormAt h (n + 6) (.handling n :: outer)) : WithHandler.Entered b h l n outer := by
  obtain ⟨hdepth, htested⟩ := hform.next hb hh.calls rfl
  rw [show n + 6 - 7 + 8 = n + 7 by omega] at htested
  obtain ⟨ws, hm, hall⟩ := htested.ways hb hh.tests
  rw [Op.moves, if_pos (by omega)] at hm
  cases hm
  have hraised : b.FormAt (h + 2) (n + 6) (.handling n :: outer) := hall (.head _)
  have hfirst : b.FormAt (l + 0) (n + 6) (.handling n :: outer) := hall (.tail _ (.head _))
  have hdrop : ∀ {k d}, k < 3 → b.FormAt (l + k) (d + 1) (.handling n :: outer) →
      b.FormAt (l + (k + 1)) d (.handling n :: outer) :=
    fun hk h => (h.next hb (hh.drops _ hk) rfl).2
  have hsecond := hdrop (by decide) hfirst
  have hthird := hdrop (by decide) hsecond
  have hrestored := hdrop (by decide) hthird
  obtain ⟨ws, hm, hall⟩ := hrestored.ways hb hh.restores
  rw [Op.moves, if_pos (Nat.le_add_left 3 n)] at hm
  cases hm
  refine ⟨by omega, hform, htested, hraised, fun k hk => ?_, hrestored, hall (.head _)⟩
  rcases k with _ | _ | _ | k
  · exact hfirst
  · exact hsecond
  · exact hthird
  · omega

/-! ## 2. Its steps -/

namespace Machine

variable {p : Program} {f : Frame} {st : Step} {lowering : Lowering} {ctx : Context} {s : Store}
  {rest : List Value}

variable {ty : Typer} {b : CompiledBody} {h l n : Nat} {outer : List Block}

/-- **The hook is asked once**, about what lies on the stack, and its answer says where to go on. -/
theorem runSteps_asking (hp : f.program.Of ty b) (hh : WithHandler b h l)
    (hin : WithHandler.Entered b h l n outer) (hpc : f.pc = h)
    {type value traceback hook : Value}
    (hstack : f.stack = type :: value :: traceback :: rest) (hhook : rest[3]? = some hook) :
    ∃ call test, f.program.step? f.pc = some call ∧ f.program.step? (f.pc + 1) = some test
      ∧ ∀ ctx k s, runSteps ctx (k + 2) ⟨f, s⟩
        = match ctx.call hook [type, value, traceback] [] s with
          | .error fault t => goOn ctx (k + 1) (routeFault call f.pc fault ctx ⟨f, t⟩)
          | .ok w t => match truthy w ctx t with
            | .error fault t =>
              goOn ctx k (routeFault test (f.pc + 1) fault ctx ⟨{ f with pc := f.pc + 1 }, t⟩)
            | .ok yes t => runSteps ctx k ⟨{ f with pc := if yes then l else f.pc + 2 }, t⟩ := by
  subst hpc
  obtain ⟨call, _, hcall, -, hcalls⟩ := hin.called.step hp hh.calls
  obtain ⟨test, _, htest, -, htests⟩ := hin.tested.step hp hh.tests
  refine ⟨call, test, hcall, htest, fun ctx k s => ?_⟩
  rw [runSteps_succ, stepOnce_withExceptStart hcall hcalls hstack hhook]
  cases ctx.call hook [type, value, traceback] [] s with
  | error fault t => rfl
  | ok w t =>
    dsimp only
    rw [goOn, runSteps_succ, stepOnce_popJumpIf htest htests rfl]
    cases truthy w ctx t with
    | error fault t => rfl
    | ok yes t => cases yes <;> rfl

/-- **The way out of the handler**: what it found is taken off the stack. -/
theorem runSteps_drop (hp : f.program.Of ty b) (hh : WithHandler b h l)
    (hin : WithHandler.Entered b h l n outer) (v₁ v₂ v₃ u v w x : Value) (below : List Value)
    (ctx : Context) (k : Nat) (s : Store) : runSteps ctx (k + 5)
      ⟨{ f with stack := v₁ :: v₂ :: v₃ :: w :: v :: u :: x :: below, pc := l }, s⟩
      = runSteps ctx k ⟨{ f with stack := below, handled := asRaised? v, pc := l + 5 }, s⟩ := by
  have hdrop : ∀ {j : Nat} (hj : j < 3) (v : Value) (below : List Value) (k : Nat),
      runSteps ctx (k + 1) ⟨{ f with stack := v :: below, pc := l + j }, s⟩
        = runSteps ctx k ⟨{ f with stack := below, pc := l + (j + 1) }, s⟩ := by
    intro j hj v below k
    obtain ⟨st, lowering, hst, -, hexec⟩ := (hin.dropped j hj).step hp (hh.drops j hj)
    rw [runSteps_succ, stepOnce_popTop hst hexec rfl]
    rfl
  obtain ⟨restoring, _, hrestoring, -, hrestores⟩ := hin.restored.step hp hh.restores
  obtain ⟨forgetting, _, hforgetting, -, hforgets⟩ := hin.forgotten.step hp hh.forgets
  refine (hdrop (j := 0) (by decide) _ _ _).trans ?_
  rw [hdrop (by decide), hdrop (by decide), runSteps_succ, stepOnce_popExcept hrestoring hrestores rfl,
    goOn, runSteps_succ, stepOnce_popTop hforgetting hforgets rfl, goOn]

/-- An exception at an offset that control comes to leaves the frame, or starts the handler of the
innermost protected block. Nothing is noted down on the way. -/
theorem unwind_blocks (hb : b.Accepted ty) (hp : f.program.Of ty b) {d : Nat} {bs : List Block}
    (hform : b.FormAt f.pc d bs) (e : Raised) (ctx : Context) (s : Store) :
    match Caught.find? bs with
    | none => unwind e ctx ⟨f, s⟩ = .error (.raised e) ⟨f, s⟩
    | some caught => caught.level ≤ f.stack.length → ∃ a k,
      unwind e ctx ⟨f, s⟩ = .ok () a ∧ a.store = s.withIdents k
        ∧ StartsHandler caught.handler caught.level caught.restoreAt e f a := by
  have haim := hform.region hb hp
  cases hfind : Caught.find? bs with
  | none =>
    rw [hfind, Option.map_none, Option.map_eq_none_iff] at haim
    exact unwind_uncaught haim e ctx s
  | some caught =>
    rw [hfind, Option.map_some, Option.map_eq_some_iff] at haim
    obtain ⟨region, hregion, haim⟩ := haim
    simp only [Region.aim, Caught.aim, Prod.mk.injEq] at haim
    obtain ⟨hhandler, hlevel, hrestore⟩ := haim
    intro hle
    obtain ⟨before, now, k, hbefore, hnow, hunwind⟩ := unwind_caught hregion (hlevel ▸ hle) e ctx s
    rw [hhandler, hlevel] at hunwind
    refine ⟨_, k, hunwind, rfl, rfl, ⟨before, now, ?_, ?_, hnow.withIdents k⟩, rfl, rfl, rfl⟩
    · simp only [List.reverse_append, reverse_cut, List.append_assoc]
    · rw [← hrestore]
      exact hbefore.withIdents k

/-! ## 3. The theorem -/

/-- What the handler of a `with` statement starts with, in the activation `a`, after a point that
raised the exception `e`. -/
structure Asks (r : RaisePoint) (ctx : Context) (e : Raised) (caught : Caught) (hook : Value)
    (below before : List Value) (traceback : Value) (a : Activation) : Prop where
  /-- The block that the exception comes out of. -/
  block : Caught.find? (r.body.analysis.state r.offset).blocks = some caught
  aim : caught.aim = r.region.aim
  /-- The fault is an exception, and it comes to the handler. -/
  routed : routeFault r.step r.offset r.fault ctx r.after = .ok none a
  store : ∃ s k, catchable r.fault ctx r.after.store = .ok e s
    ∧ a.store = (noted r.step r.program.name r.offset e s).withIdents k
  /-- The hook lies right below the level of the block. -/
  held : Stack.cut r.after.frame.stack r.region.level = hook :: below
  /-- Above it lie the exception that was in force and the one that was raised. -/
  found : a.store.Shows (inForce r.region.restoreAt r.after.frame.stack.reverse
    r.after.frame.handled) before
  shown : a.store.Shows (some e) [.classObject e.type, e.value, traceback]
  frame : a.frame = { r.after.frame with
    stack := [.classObject e.type, e.value, traceback] ++ before ++ hook :: below
    handled := some e
    pc := r.region.handler }

variable {c : Compiler} {code : CodeObject} {sig : CallSignature} {r : RaisePoint}

/-- An exception that comes out of a `with` block starts its handler. -/
theorem asks_of (hr : r.Of c code sig) (hh : WithHandler r.body r.region.handler l)
    (hheld : r.region.level ≤ r.after.frame.stack.length) (ctx : Context) :
    ∃ e caught hook below before tb a, Asks r ctx e caught hook below before tb a
      ∧ WithHandler.Entered r.body r.region.handler l caught.level caught.outer := by
  obtain ⟨-, -, hb⟩ := CompiledBody.analyze_accepted hr.body
  have hp := Program.of_emit hb hr.program
  obtain ⟨-, hprogram, -⟩ := hr.frames
  obtain ⟨hlive, -, -, -⟩ := hr.analysed
  have hform : r.body.FormAt r.offset _ _ := ⟨hlive, rfl, rfl⟩
  have haim := hform.region hb hp
  rw [hr.region, Option.map_some, eq_comm, Option.map_eq_some_iff] at haim
  obtain ⟨caught, hcaught, haim⟩ := haim
  obtain ⟨hto, hlevel, -⟩ : caught.handler = r.region.handler ∧ caught.level = r.region.level
      ∧ caught.restoreAt = r.region.restoreAt := by
    simpa only [Caught.aim, Region.aim, Prod.mk.injEq] using haim
  have hin := hh.entered hb (hto ▸ hform.handler hb hcaught)
  -- the handler looks seven values deep, so that its level is not the bottom
  have hlength := cut_length hheld
  obtain ⟨hook, below, hcut⟩ : ∃ hook below,
      Stack.cut r.after.frame.stack r.region.level = hook :: below := by
    have hhooked := hin.hooked
    cases hcut : Stack.cut r.after.frame.stack r.region.level with
    | nil =>
      rw [hcut, List.length_nil] at hlength
      omega
    | cons hook below => exact ⟨hook, below, rfl⟩
  obtain ⟨e, s, he⟩ := catchable_run hr.catchable ctx r.after.store
  have hroute := routeFault_noted (f := r.after.frame) he r.step r.offset
  obtain ⟨before, now, k, hbefore, hnow, hunwind⟩ := unwind_caught hr.find hheld e ctx
    (noted r.step r.after.frame.program.name r.offset e s)
  obtain ⟨tb, rfl⟩ : ∃ tb, now = [.classObject e.type, e.value, tb] := hnow.imp' _ fun _ h => h
  rw [hunwind, hcut] at hroute
  exact ⟨e, caught, hook, below, before, tb, _, ⟨hcaught, haim, hroute,
    ⟨s, k, he, by rw [← hprogram]⟩, hcut, hbefore.withIdents k, hnow, rfl⟩, hin⟩

/-- **A `with` statement suppresses an exception or raises it again.** Wherever a run of a compiled
function raises an exception in a block whose handler is that of a `with` statement, and the stack
still holds the values below the level of the block: the handler calls the hook that lies below the
block, once, with the class, the exception and its traceback.

* If the answer is true, the run goes on behind the handler. The stack is what lay below the hook,
  and the exception in force is the one that was so at the raise.
* If it is false, the same exception goes to the enclosing block, or leaves the frame, with the
  traceback that it has. -/
theorem with_suppresses_or_reraises (hr : r.Of c code sig)
    (hh : WithHandler r.body r.region.handler l)
    (hheld : r.region.level ≤ r.after.frame.stack.length) (ctx : Context) :
    ∃ e caught hook below before tb a call test,
      Asks r ctx e caught hook below before tb a
      -- the run of the handler
      ∧ r.program.step? a.frame.pc = some call
      ∧ r.program.step? (a.frame.pc + 1) = some test
      ∧ (∀ ctx k, runSteps ctx (k + 7) a
        = match ctx.call hook [.classObject e.type, e.value, tb] [] a.store with
          | .error fault t =>
            goOn ctx (k + 6) (routeFault call a.frame.pc fault ctx { a with store := t })
          | .ok w t => match truthy w ctx t with
            | .error fault t => goOn ctx (k + 5) (routeFault test (a.frame.pc + 1) fault ctx
              ⟨{ a.frame with pc := a.frame.pc + 1 }, t⟩)
            | .ok true t => runSteps ctx k ⟨{ r.after.frame with
                stack := below
                handled := inForce r.region.restoreAt r.after.frame.stack.reverse
                  r.after.frame.handled
                pc := l + 5 }, t⟩
            | .ok false t => match unwind e ctx ⟨{ a.frame with
                stack := before ++ hook :: below
                pc := a.frame.pc + 2 }, t⟩ with
              | .ok _ a => runSteps ctx (k + 4) a
              | .error fault a => .error fault a)
      -- the way of the exception that is raised again
      ∧ ∀ f, f.program = r.program → f.pc = a.frame.pc + 2 → ∀ ctx t,
        match Caught.find? (.handling caught.level :: caught.outer) with
        | none => unwind e ctx ⟨f, t⟩ = .error (.raised e) ⟨f, t⟩
        | some enclosing => enclosing.level ≤ f.stack.length → ∃ a' k,
          unwind e ctx ⟨f, t⟩ = .ok () a' ∧ a'.store = t.withIdents k
            ∧ StartsHandler enclosing.handler enclosing.level enclosing.restoreAt e f a' := by
  obtain ⟨-, -, hb⟩ := CompiledBody.analyze_accepted hr.body
  have hp := Program.of_emit hb hr.program
  obtain ⟨-, hprogram, -⟩ := hr.frames
  obtain ⟨e, caught, hook, below, before, tb, ⟨f, s⟩, hasks, hin⟩ := asks_of hr hh hheld ctx
  obtain ⟨v₁, v₂, v₃, rfl⟩ := List.length_eq_three.mp hasks.found.length
  have hframe : f = _ := hasks.frame
  have hf : f.program = r.program := (congrArg Frame.program hframe).trans hprogram
  have hpc : f.pc = r.region.handler := congrArg Frame.pc hframe
  have hstack : f.stack = .classObject e.type :: e.value :: tb :: ([v₁, v₂, v₃] ++ hook :: below) :=
    congrArg Frame.stack hframe
  obtain ⟨call, test, hcall, htest, hrun⟩ := runSteps_asking (hf ▸ hp) hh hin hpc hstack rfl
  refine ⟨e, caught, hook, below, _, tb, ⟨f, s⟩, call, test, hasks, hf ▸ hcall, hf ▸ htest,
    fun ctx k => ?_, fun f' hf' hat ctx t => ?_⟩
  · refine (hrun ctx (k + 5) s).trans ?_
    dsimp only
    cases ctx.call hook [.classObject e.type, e.value, tb] [] s with
    | error fault t => rfl
    | ok w t =>
      dsimp only
      cases truthy w ctx t with
      | error fault t => rfl
      | ok yes t =>
        cases yes with
        | true =>
          have hdrop := runSteps_drop (f := { r.after.frame with handled := some e })
            (hprogram ▸ hp) hh hin (.classObject e.type) e.value tb v₃ v₂ v₁ hook below ctx k t
          rw [← handledOf_eq v₃, hasks.found.handledOf] at hdrop
          rw [hframe]
          exact hdrop
        | false =>
          obtain ⟨lasti, hreraise⟩ := hh.reraises
          obtain ⟨again, _, hagain, hop, hraises⟩ := hin.raised.step hp hreraise
          have hstep := stepOnce_reraise (f := { f with pc := f.pc + 2 })
            (show f.program.step? (f.pc + 2) = _ by rw [hf, hpc]; exact hagain) hop hraises
            hstack ctx t
          refine (runSteps_succ ctx (k + 4) _).trans ?_
          refine (congrArg (goOn ctx (k + 4)) hstep).trans ?_
          dsimp only
          cases unwind e ctx _ <;> rfl
  · exact unwind_blocks hb (hf' ▸ hp) (by rw [hat, hpc]; exact hin.raised) e ctx t

/-- A number and a text are added inside of `with`: `with m: 1 + "s"`. -/
def addInWith : CodeObject :=
  { CodeObject.blank 0 "f" "f.py" with
    code := [124, 0, 143, 8, 1, 0, 100, 0, 100, 1, 23, 0, 1, 0, 87, 0, 100, 2, 83, 0, 49, 0,
      115, 13, 119, 0, 1, 0, 1, 0, 1, 0, 89, 0, 1, 0, 100, 2, 83, 0]
    constants := [.int 1, .str "s", .none]
    varnames := ["m"] }

/-- A store with a context manager of the host as its only object. -/
def storeManager : Store where
  natives := ⟨#[{ Native.bare "m" with
    methods := [("__enter__", .self), ("__exit__", .give (.bool true))] }]⟩

/-- The addition fails, and the run goes on behind the handler if the hook says so. -/
theorem with_suppresses_or_reraises_addInWith : ∃ r : RaisePoint,
    r.Of (.ofModel .withBuiltins {}) addInWith .dynamic ∧ r.step.op = .binary .add false
      ∧ WithHandler r.body r.region.handler 18
      ∧ r.region.level ≤ r.after.frame.stack.length
      ∧ ∃ e caught hook below before tb a,
        Asks r (context (.ofModel .withBuiltins {}) Digest.standard 2) e caught hook below before tb a
        ∧ ∀ ctx w t t', ctx.call hook [.classObject e.type, e.value, tb] [] a.store = .ok w t →
          truthy w ctx t = .ok true t' → ∃ f, f.pc = 23 ∧ f.stack = below
            ∧ ∀ k, runSteps ctx (k + 7) a = runSteps ctx k ⟨f, t'⟩ := by
  have hraises : ((Compiler.ofBuiltins.analyze addInWith .dynamic).toOption.any fun b =>
      (Compiler.ofBuiltins.emit b Program.emitter none).toOption.any fun p =>
      (answer? (newFrame p (.ofCode addInWith default default) #[some (.native 0 TypeId.object)]
        (plainContext 2) storeManager)).any fun f =>
      (after (plainContext 2) 10 ⟨f.1, f.2⟩).any fun a => (p.step? a.frame.pc).any fun step =>
      (Region.find? p.regions a.frame.pc).any fun region =>
      (failure? (execute step (plainContext 2) a)).any fun r =>
        p.code.localCount == 1 && step.op == .binary .add false
          && decide (WithHandler b region.handler 18)
          && decide (region.level ≤ r.2.frame.stack.length) && r.1.isCatchable) = true := by
    simp only [Compiler.analyze, CompiledBody.analyze, CompiledBody.build, CompiledBody.settle,
      Body.decode, InstructionStream.decode, InstructionStream.strayJump?_eq]
    decide +kernel
  obtain ⟨b, hb, hraises⟩ := (Option.any_eq_true _ _).mp hraises
  obtain ⟨p, hp, hraises⟩ := (Option.any_eq_true _ _).mp hraises
  obtain ⟨⟨f, s⟩, hf, hraises⟩ := (Option.any_eq_true _ _).mp hraises
  obtain ⟨a, ha, hraises⟩ := (Option.any_eq_true _ _).mp hraises
  obtain ⟨step, hstep, hraises⟩ := (Option.any_eq_true _ _).mp hraises
  obtain ⟨region, hregion, hraises⟩ := (Option.any_eq_true _ _).mp hraises
  obtain ⟨⟨fault, a'⟩, hraised, hraises⟩ := (Option.any_eq_true _ _).mp hraises
  rw [toOption_eq_some] at hb hp
  rw [answer?_eq_some] at hf
  rw [failure?_eq_some] at hraised
  simp only [Bool.and_eq_true, beq_iff_eq, decide_eq_true_eq] at hraises
  obtain ⟨⟨⟨⟨hlocals, hop⟩, hhandler⟩, hheld⟩, hcatchable⟩ := hraises
  have hsize : (#[some (.native 0 TypeId.object)] : Array (Option Value)).size
      = p.code.localCount := hlocals.symm
  let r : RaisePoint := ⟨b, p, a, step, region, fault, a'⟩
  have hr : r.Of .ofBuiltins addInWith .dynamic := ⟨hb, hp,
    ⟨plainContext 2, f, s, 10, .new hsize hf, ha, hraised⟩, hstep, hregion, hcatchable⟩
  obtain ⟨e, caught, hook, below, before, tb, a, _, _, hasks, -, -, hrun, -⟩ :=
    with_suppresses_or_reraises hr hhandler hheld (plainContext 2)
  refine ⟨r, hr, hop, hhandler, hheld, e, caught, hook, below, before, tb, a, hasks,
    fun ctx w t t' hcall htrue => ⟨{ a'.frame with
      stack := below
      handled := inForce region.restoreAt a'.frame.stack.reverse a'.frame.handled
      pc := 23 }, rfl, rfl, fun k => ?_⟩⟩
  rw [hrun, hcall]
  dsimp only
  rw [htrue]

end Machine

end Stackwise
