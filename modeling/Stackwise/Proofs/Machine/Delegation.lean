import Stackwise.Proofs.Analysis.PassOrder
import Stackwise.Proofs.Compile.Offsets
import Stackwise.Proofs.Machine.Throwing

/-!
# Delegation

A generator that delegates to another one hands on what is sent to it, and yields what the other one
yields.

* `CompiledBody.delegation`: a delegation is a loop of three instructions, and is left behind it.
* `runSteps_sent`: a suspended frame goes on behind its resume point, with the value on its stack.
* `runSteps_delegating`: a frame that comes back to a delegation, by what the inner generator does.
* `Store.inside`, `Store.outside`: the store that the inner generator finds, and the one that the
  consumer of the outer generator gets back.
* `delegation_transparent`: any sequence of values, and then the one that ends the delegation.
-/

namespace Stackwise

/-! ## 1. The loop -/

theorem Op.eq_delegate_of_retarget {f : Nat → Nat} {op : Op} {state exit : Nat}
    (h : op.retarget f = .delegate state exit) : ∃ t, op = .delegate state t ∧ exit = f t := by
  cases op with
  | delegate state' t =>
    cases h
    exact ⟨t, rfl, rfl⟩
  | _ => cases h

namespace Body

variable {is out : List Instr} {i : Instr} {q state exit : Nat}

/-- **A delegation is a loop**: behind its resume point control comes back to it, and it is left for
the instruction behind the loop. -/
theorem Machined.delegation (h : Machined is out) (hd : Dense is) (hplain : Plain is)
    (hq : out[q]? = some i) (hop : i.op = .delegate state exit) : exit = q + 3
      ∧ (∃ j, out[q + 1]? = some j ∧ j.op = .resumePoint state)
      ∧ ∃ j, out[q + 2]? = some j ∧ j.op = .jump q := by
  have hpos : 0 < q := by
    refine Nat.pos_of_ne_zero fun hzero => ?_
    obtain ⟨first, hfirst, hdispatch⟩ := h.first
    rw [hzero, hfirst] at hq
    cases hq
    rw [hop] at hdispatch
    cases hdispatch
  obtain ⟨k, y, n, op, hk, hn, rfl⟩ := h.behind hpos (List.getElem?_eq_some_iff.mp hq).1
  obtain ⟨i', hi', hi'op, -, -⟩ := h.entry hk hn
  obtain rfl := Option.some.inj (hq.symm.trans hi')
  rw [hop] at hi'op
  obtain ⟨target, rfl, htarget⟩ := Op.eq_delegate_of_retarget hi'op.symm
  -- of what the pass writes, only the first part of a delegation is one
  obtain ⟨rfl, hyield⟩ : n = 0 ∧ y.op = .yieldFrom := by
    unfold stateChunk at hn
    split at hn
    · cases hn
    · match n, hn with
      | 0, hn | 1, hn => cases hn
    · match n, hn with
      | 0, _ => exact ⟨rfl, ‹_›⟩
      | 1, hn | 2, hn => cases hn
    · have hy := List.mem_singleton.mp (List.mem_of_getElem? hn)
      have hnone := Op.suspension?_of_plain (hplain y (List.mem_of_getElem? hk))
      rw [← hy] at hnone
      cases hnone
  have hchunk : (stateChunk (yieldState is k) y).1 = [.delegate (yieldState is k) (k + 1),
      .resumePoint (yieldState is k), .jump k] := by
    rw [stateChunk, hyield, hd k y hk]
  rw [hchunk] at hn
  cases hn
  refine ⟨?_, ?_, ?_⟩
  · rw [htarget, moved_succ hk, width, hyield, Nat.add_zero]
  · obtain ⟨j, hj, hjop, -⟩ := h.entry hk (n := 1) (by rw [hchunk]; rfl)
    exact ⟨j, hj, hjop⟩
  · obtain ⟨j, hj, hjop, -⟩ := h.entry hk (n := 2) (by rw [hchunk]; rfl)
    exact ⟨j, hj, hjop⟩

end Body

namespace CompiledBody

variable {m : TypeModel} {config : Config} {c : CodeObject} {sig : CallSignature}
  {b : CompiledBody} {i : Instr} {q state exit : Nat}

/-- A delegation of a compiled body is a loop. -/
theorem delegation (h : analyze m config c sig = .ok b) (hq : b.instrs[q]? = some i)
    (hop : i.op = .delegate state exit) : exit = q + 3
      ∧ (∃ j, b.instrs[q + 1]? = some j ∧ j.op = .resumePoint state)
      ∧ ∃ j, b.instrs[q + 2]? = some j ∧ j.op = .jump q := by
  unfold analyze at h
  split at h
  · rename_i b' hb
    cases h
    obtain ⟨⟨r, g, a⟩, hsettle, hb⟩ := bind_eq_ok.mp hb
    cases hb
    obtain ⟨is, m₀, g₀, r₁, hdecode, -, hr₁, hr⟩ := settle_passes hsettle
    obtain ⟨hfits, hplain⟩ := Body.decode_fits hdecode
    obtain ⟨hfits₁, hplain₁⟩ : Body.Fits c r₁.instrs ∧ Body.Plain r₁.instrs := by
      rcases apply_eq_ok hr₁ with ⟨-, rfl⟩ | ⟨-, -, map, hpass, -⟩
      · exact ⟨hfits, hplain⟩
      · exact Body.expandWith_fits hfits hplain hpass
    rcases apply_eq_ok hr with ⟨-, rfl⟩ | ⟨-, -, map, hpass, -⟩
    · have hnone := Op.suspension?_of_plain (hplain₁ i (List.mem_of_getElem? hq))
      rw [hop] at hnone
      cases hnone
    · exact (Body.machined_of_toStateMachine hfits₁ hplain₁ hpass).delegation hfits₁.dense hplain₁
        hq hop
  · cases h

end CompiledBody

/-! ## 2. Frames that go on -/

/-- The frame that was suspended, at an offset and with a stack. -/
def SavedFrame.goingOn (saved : SavedFrame) (pc : Nat) (stack : List Value) : Frame :=
  { saved.resume (.send .none) with pc, stack, resumption := none }

namespace Machine

variable {ty : Typer} {b : CompiledBody} {p : Program} {f : Frame} {ctx : Context} {s : Store}
  {v : Value} {saved : SavedFrame} {i : Instr} {state exit h : Nat} {below : List Value}

theorem resumePoint_sent (hgiven : f.resumption = some (.send v)) (k : Nat) (lowering : Lowering)
    (ctx : Context) (s : Store) : operate (.resumePoint k) lowering ctx ⟨f, s⟩
      = .ok .next ⟨{ f with resumption := none, stack := v :: f.stack }, s⟩ := by
  have hpoint : resumePoint ctx ⟨f, s⟩
      = .ok () ⟨{ f with resumption := none, stack := v :: f.stack }, s⟩ := by
    cases f
    subst hgiven
    rfl
  have hrun : operate (.resumePoint k) lowering ctx ⟨f, s⟩
      = (resumePoint >>= fun _ => return .next : FrameAction Flow) ctx ⟨f, s⟩ := rfl
  rw [hrun, run_bind, hpoint]
  rfl

/-- A frame that goes on after a step is in lockstep again. -/
theorem locked_of_step (hb : b.Accepted ty) (hp : p.Of ty b) (hf : f.Locked b p) {a : Activation}
    (h : stepOnce ctx ⟨f, s⟩ = .ok none a) : a.frame.Fitting b p ∧ a.frame.Running b := by
  have hstep := step_locked hb hp hf (Tolerance.all_context ctx) (Tolerance.all_store s)
  rw [h] at hstep
  exact hstep.2

/-- A step of a frame that runs carries out its instruction. -/
theorem stepOnce_running (hb : b.Accepted ty) (hp : p.Of ty b) (hf : f.Fitting b p)
    (hr : f.Running b) (hi : b.instrs[f.pc]? = some i) (ctx : Context) (s : Store) :
    ∃ step : Step, stepOnce ctx ⟨f, s⟩ = match
        operate i.op (i.op.lowering ty (b.analysis.state f.pc) b.returnType) ctx ⟨f, s⟩ with
      | .ok .next a => .ok none (Activation.goTo a (f.pc + 1))
      | .ok (.jump t) a => .ok none (Activation.goTo a t)
      | .ok (.leave v) a => .ok (some (.returns v)) a
      | .ok (.yields v) a => .ok (some (.yields v)) a
      | .error e a => routeFault step f.pc e ctx a := by
  have hprogram : f.program = p := hf.program
  obtain ⟨i', hi', hstep⟩ := step?_of_live hb hp hr.live
  obtain rfl : i = i' := Option.some.inj (hi.symm.trans hi')
  refine ⟨⟨i.op, i.op.lowering ty (b.analysis.state f.pc) b.returnType, i.line⟩, ?_⟩
  have hrun := stepOnce_run (by rw [hprogram]; exact hstep) ctx s
  rw [execute_eq_operate] at hrun
  exact hrun

/-- **A frame that comes back with a value** goes on behind its resume point, with the value on its
stack. -/
theorem runSteps_sent (hb : b.Accepted ty) (hp : p.Of ty b) (hf : f.Fitting b p)
    (hs : f.Suspending b) (hsaved : f.suspend? = .ok saved) (v : Value) (ctx : Context) (n : Nat)
    (s : Store) : runSteps ctx (n + 2) ⟨saved.resume (.send v), s⟩
        = runSteps ctx n ⟨saved.goingOn (f.pc + 2) (v :: f.stack), s⟩
      ∧ (saved.goingOn (f.pc + 2) (v :: f.stack)).Fitting b p
      ∧ (saved.goingOn (f.pc + 2) (v :: f.stack)).Running b := by
  obtain ⟨hfit, hwait, hstate, hstack, -⟩ := resumed_frame hb hp hf hs hsaved (.send v)
  obtain ⟨j, hj, hop⟩ := hs.resumed
  have hfirst := stepOnce_waiting hb hp hfit hwait hj (by rw [hop, hstate]) ctx s
  obtain ⟨hfit₁, hrun₁⟩ := locked_of_step hb hp ⟨hfit, .inr hwait⟩ hfirst
  obtain ⟨step, hsecond⟩ := stepOnce_running hb hp hfit₁ hrun₁ hj ctx s
  rw [hop, resumePoint_sent rfl] at hsecond
  have hgoing : Activation.goTo ⟨{ { saved.resume (.send v) with pc := f.pc + 1 } with
      resumption := none, stack := v :: (saved.resume (.send v)).stack }, s⟩ (f.pc + 1 + 1)
      = ⟨saved.goingOn (f.pc + 2) (v :: f.stack), s⟩ := by
    rw [hstack]
    rfl
  dsimp only at hsecond
  rw [hgoing] at hsecond
  refine ⟨?_, locked_of_step hb hp ⟨hfit₁, .inl hrun₁⟩ hsecond⟩
  rw [runSteps_succ, hfirst, goOn, runSteps_succ, hsecond, goOn]

/-- A frame that has come back is suspended as before. -/
theorem suspend_goingOn (hb : b.Accepted ty) (hp : p.Of ty b) (hf : f.Fitting b p)
    (hs : f.Suspending b) (hsaved : f.suspend? = .ok saved) (pc : Nat) :
    (saved.goingOn pc f.stack).suspend? = .ok saved := by
  obtain ⟨-, hwait, -, -, -, -, hlocals⟩ := resumed_frame hb hp hf hs hsaved (.send .none)
  obtain ⟨j, hj, hop⟩ := hs.resumed
  obtain ⟨live, hlayout, hfields⟩ := suspend_eq_ok hsaved
  have hlayout' : (saved.goingOn pc f.stack).layout? = .ok live := by
    rw [← hlayout, hfields]
    rfl
  have hkept : (live.filterMap fun slot =>
      ((saved.goingOn pc f.stack).locals[slot]?.join).map fun v => (slot, v)) = saved.locals := by
    refine (List.filterMap_congr fun x hx => ?_).trans (congrArg SavedFrame.locals hfields).symm
    have hsame : (saved.goingOn pc f.stack).locals[x]? = f.locals[x]? :=
      hlocals x ((mem_layout hb hp hwait.generator hf.program hj hop hlayout x).mp hx)
    rw [hsame]
  have hstack : saved.stack = f.stack := by rw [hfields]
  unfold Frame.suspend?
  rw [hlayout']
  dsimp only
  rw [hkept, ← hstack]
  rfl

/-! ## 3. The delegation -/

/-- What is left of the instruction of a delegation once the value was taken from the stack. -/
theorem delegate_eq (state exit : Nat) (hstack : f.stack = v :: .generator h :: below)
    (ctx : Context) (s : Store) : delegate state exit ctx ⟨f, s⟩
      = (liftM (attempt (send h v)) >>= fun
        | .ok y => do
          updateFrame fun f => { f with state }
          return .yields y
        | .error e => do
          match delegateResult? (← model) (← look fun s => s) e with
          | some result =>
            let _ ← pop
            push result
            return .jump exit
          | none => throw e : FrameAction Flow) ctx
        ⟨{ f with stack := .generator h :: below }, s⟩ := by
  cases f
  subst hstack
  rfl

/-- What the instruction of a delegation does to its frame, by what the inner generator does. -/
theorem delegate_run (state exit : Nat) (hstack : f.stack = v :: .generator h :: below)
    (ctx : Context) (s : Store) : delegate state exit ctx ⟨f, s⟩ = match send h v ctx s with
      | .ok y s => .ok (.yields y) ⟨{ f with stack := .generator h :: below, state }, s⟩
      | .error e s => match delegateResult? ctx.compiler.model s e with
        | some r => .ok (.jump exit) ⟨{ f with stack := r :: below }, s⟩
        | none => .error e ⟨{ f with stack := .generator h :: below }, s⟩ := by
  rw [delegate_eq state exit hstack, run_lift_bind, attempt_run]
  cases send h v ctx s with
  | ok y s => rfl
  | error e s =>
    dsimp only
    show (match delegateResult? ctx.compiler.model s e with
      | some result => do
        let _ ← pop
        push result
        return .jump exit
      | none => throw e : FrameAction Flow) ctx ⟨{ f with stack := .generator h :: below }, s⟩ = _
    cases delegateResult? ctx.compiler.model s e <;> rfl

/-- A frame that was left at a delegation to a generator. -/
structure Delegating (b : CompiledBody) (f : Frame) (h : Nat)
    (below : List Value) : Prop where
  instr : ∃ i, b.instrs[f.pc]? = some i ∧ i.op = .delegate f.state (f.pc + 3)
  back : ∃ j, b.instrs[f.pc + 2]? = some j ∧ j.op = .jump f.pc
  stack : f.stack = .generator h :: below

/-- **A frame that comes back to a delegation** sends the value on. It yields what the inner
generator yields, goes on behind the delegation with its result, or raises its exception. -/
theorem runSteps_delegating (hb : b.Accepted ty) (hp : p.Of ty b) (hf : f.Fitting b p)
    (hs : f.Suspending b) (hsaved : f.suspend? = .ok saved) (hd : Delegating b f h below)
    (v : Value) (ctx : Context) (n : Nat) (s : Store) :
    (b.analysis.state f.pc).dead = false ∧ ∃ step : Step,
      runSteps ctx (n + 4) ⟨saved.resume (.send v), s⟩ = match send h v ctx s with
        | .ok y s => .ok (.yields y) ⟨saved.goingOn f.pc f.stack, s⟩
        | .error e s => match delegateResult? ctx.compiler.model s e with
          | some r => runSteps ctx n ⟨saved.goingOn (f.pc + 3) (r :: below), s⟩
          | none => goOn ctx n (routeFault step f.pc e ctx ⟨saved.goingOn f.pc f.stack, s⟩) := by
  obtain ⟨hsent, hfit, hrun⟩ := runSteps_sent hb hp hf hs hsaved v ctx (n + 2) s
  obtain ⟨i, hi, hop⟩ := hd.instr
  obtain ⟨j, hj, hjump⟩ := hd.back
  -- the jump back
  obtain ⟨jumpStep, hback⟩ := stepOnce_running hb hp hfit hrun hj ctx s
  rw [hjump] at hback
  have hthere : stepOnce ctx ⟨saved.goingOn (f.pc + 2) (v :: f.stack), s⟩
      = .ok none ⟨saved.goingOn f.pc (v :: f.stack), s⟩ := hback
  obtain ⟨hfit', hrun'⟩ := locked_of_step hb hp ⟨hfit, .inl hrun⟩ hthere
  obtain ⟨step, hdelegate⟩ := stepOnce_running hb hp hfit' hrun' hi ctx s
  refine ⟨hrun'.live, step, ?_⟩
  have hstate : f.state = saved.state := by
    obtain ⟨live, -, hfields⟩ := suspend_eq_ok hsaved
    rw [hfields]
  have hrun : ∀ lowering, operate (.delegate f.state (f.pc + 3)) lowering ctx
        ⟨saved.goingOn f.pc (v :: f.stack), s⟩
      = delegate f.state (f.pc + 3) ctx ⟨saved.goingOn f.pc (v :: f.stack), s⟩ := fun _ => rfl
  have hdelegated := delegate_run f.state (f.pc + 3)
    (f := saved.goingOn f.pc (v :: f.stack)) (congrArg (v :: ·) hd.stack) ctx s
  rw [hop, hrun, hdelegated] at hdelegate
  rw [hsent, runSteps_succ, hthere, goOn, runSteps_succ, hdelegate]
  cases send h v ctx s with
  | ok y s =>
    dsimp only [goOn]
    rw [hd.stack, hstate]
    rfl
  | error e s =>
    dsimp only
    cases delegateResult? ctx.compiler.model s e with
    | some r => rfl
    | none =>
      dsimp only
      rw [hd.stack]
      rfl

/-- **A fault of the inner generator** is raised at the delegation. -/
theorem goOn_delegating (hb : b.Accepted ty) (hp : p.Of ty b) (hf : f.Fitting b p)
    (hs : f.Suspending b) (hsaved : f.suspend? = .ok saved) (hd : Delegating b f h below)
    (hlive : (b.analysis.state f.pc).dead = false) {fault : Fault} {e : Raised} {s₁ : Store}
    (hfault : catchable fault ctx s = .ok e s₁) (step : Step) (n : Nat) :
    match Caught.find? (b.analysis.state f.pc).blocks with
    | some caught => caught.level ≤ f.stack.length
      ∧ ∃ a, goOn ctx n (routeFault step f.pc fault ctx ⟨saved.goingOn f.pc f.stack, s⟩)
          = runSteps ctx n a
        ∧ StartsHandler caught.handler caught.level caught.restoreAt e f a
        ∧ a.store.cells = s₁.cells
        ∧ ∀ y, b.Needs (f.pc + 1) y ∨ b.Needs caught.handler y →
          a.frame.locals[y]? = f.locals[y]?
    | none => ∃ a, goOn ctx n (routeFault step f.pc fault ctx ⟨saved.goingOn f.pc f.stack, s⟩)
        = .error (.raised e) a ∧ a.store.generators = s₁.generators := by
  obtain ⟨hfit, -, -, -, hcells, hhandled, hlocals⟩ :=
    resumed_frame hb hp hf hs hsaved (.send .none)
  have hprogram : (saved.goingOn f.pc f.stack).program = p := hfit.program
  obtain ⟨i, hi, hop⟩ := hd.instr
  obtain ⟨j, hj, hpoint⟩ := hs.resumed
  -- the blocks are those of the resume point, where the stack is that of the frame
  have hregion := caught_region hb hp hj (by rw [hpoint]; rfl) hs.live
  rw [hs.blocks] at hregion
  have hrouted := goOn_routed (f := saved.goingOn f.pc f.stack) hb hp hprogram hi
    (by rw [hop]; rfl) hlive (fun caught hfind => ?level) hfault step n
  cases hfind : Caught.find? (b.analysis.state f.pc).blocks with
  | none =>
    rw [show (saved.goingOn f.pc f.stack).pc = f.pc from rfl, hfind] at hrouted
    exact hrouted
  | some caught =>
    rw [show (saved.goingOn f.pc f.stack).pc = f.pc from rfl, hfind] at hrouted
    rw [hfind] at hregion
    obtain ⟨-, -, -, hlevel, hneeds⟩ := hregion
    obtain ⟨a, hran, hstarts, hkept, hsame⟩ := hrouted
    exact ⟨hs.depth ▸ hlevel, a, hran,
      hstarts.of_frame (hprogram.trans hf.program.symm) rfl hcells hhandled, hkept,
      fun y hy => hsame ▸ hlocals y (hy.elim id (hneeds y))⟩
  case level =>
    rw [show Caught.find? (b.analysis.state f.pc).blocks = some caught from hfind] at hregion
    obtain ⟨-, -, -, hlevel, -⟩ := hregion
    exact hs.depth ▸ hlevel

end Machine

/-! ## 4. The outer generator -/

/-- A suspended generator between two calls that keeps no outcome. -/
structure Generator.Awaits (x : Generator) (saved : SavedFrame) : Prop where
  idle : x.running = false
  fresh : x.lookahead = none
  progress : x.progress = .suspended saved

namespace Store

/-- The store that the frame of a suspended generator finds when it is resumed. -/
def inside (g : Nat) (s : Store) : Store := (s.onGenerator g Machine.takenUp).enter

/-- The store after the frame of a generator was left, and the generator is what it was before. -/
def outside (g : Nat) (x : Generator) (s : Store) : Store := s.leave.onGenerator g fun _ => x

end Store

namespace Machine

variable {c : Compiler} {d : Digest} {g h k : Nat} {x : Generator} {saved : SavedFrame}
  {s t : Store} {v : Value}

/-- **A value that is sent to a suspended generator** is given to its frame. -/
theorem send_suspended (hrow : s.generators.rows[g]? = some x) (hx : x.Awaits saved)
    (hdepth : s.depth < maxDepth) (v : Value) :
    send g v (context c d (k + 2)) s = concluded g (context c d (k + 1))
      (runSteps (context c d (k + 1)) k ⟨saved.resume (.send v), s.inside g⟩) := by
  have hmarked := Store.onGenerator_row hrow (mark true)
  have hprogress : (mark true x).progress = .suspended saved := hx.progress
  have htaken : s.onGenerator g ((fun x => { x with progress := .exhausted }) ∘ mark true)
      = s.onGenerator g takenUp := by
    refine Store.onGenerator_congr hrow ?_
    show { x with progress := .exhausted, running := true } = _
    rw [takenUp, ← hx.fresh]
  have hresume : (context c d (k + 2)).resume g (.send v) (s.onGenerator g (mark true))
      = runGenerator g (saved.resume (.send v)) (context c d (k + 1))
        (s.onGenerator g takenUp) := by
    show resumeFrame g (.send v) (context c d (k + 1)) _ = _
    rw [resumeFrame_run, Table.get_of_row hmarked, hprogress, Store.onGenerator_onGenerator, htaken]
  have hran := runGenerator_run (g := g) (s := s.onGenerator g takenUp) (saved.resume (.send v))
    (context c d (k + 1)) hdepth
  rw [send_fresh hrow hx.idle hx.fresh, hresume, hran]
  rfl

/-- A generator whose frame yields and is suspended as before is what it was before. -/
theorem concluded_yielded {a : Activation} {y : Value} (hx : x.Awaits saved)
    (hrow : a.store.generators.rows[g]? = some (takenUp x)) (hsaved : a.frame.suspend? = .ok saved)
    (ctx : Context) : concluded g ctx (.ok (.yields y) a) = .ok y (a.store.outside g x) := by
  have hended : ended g (.ok (.yields y, a.frame)) ctx a.store.leave
      = .ok y (a.store.leave.onGenerator g fun x => { x with progress := .suspended saved }) := by
    unfold ended
    dsimp only
    rw [hsaved]
    rfl
  have hback : { takenUp x with progress := .suspended saved, running := false } = x := by
    show { x with progress := .suspended saved, lookahead := none, running := false } = x
    rw [← hx.progress, ← hx.fresh, ← hx.idle]
  unfold concluded
  dsimp only
  rw [hended]
  dsimp only
  rw [Store.onGenerator_onGenerator, Store.outside]
  exact congrArg _ (Store.onGenerator_congr (s := a.store.leave) hrow hback)

/-- The inner generator finds the store again that its last exchange left. -/
theorem inside_outside (hrow : t.generators.rows[g]? = some (takenUp x)) (hdepth : 0 < t.depth) :
    (t.outside g x).inside g = t := by
  have hleave : t.leave.onGenerator g (takenUp ∘ fun _ => x) = t.leave :=
    Store.onGenerator_same (s := t.leave) hrow rfl
  have henter : t.leave.enter = t := by
    unfold Store.leave Store.enter
    dsimp only
    rw [Nat.sub_add_cancel hdepth]
  rw [Store.outside, Store.inside, Store.onGenerator_onGenerator, hleave, henter]

theorem outside_inside (hrow : s.generators.rows[g]? = some x) : (s.inside g).outside g x = s := by
  show (s.onGenerator g takenUp).onGenerator g (fun _ => x) = s
  rw [Store.onGenerator_onGenerator]
  exact Store.onGenerator_same hrow rfl

section Exchange

variable {ty : Typer} {b : CompiledBody} {p : Program} {f : Frame} {below : List Value}

/-- What an exception comes to that is raised at the offset of a frame: the frame goes on at the
handler of the innermost protected block around it, or the exception leaves the generator. -/
def RaisedAt (b : CompiledBody) (f : Frame) (g : Nat) (x : Generator) (ctx : Context) (n : Nat)
    (e : Raised) (s : Store) (r : EStateM.Result Fault Store Value) : Prop :=
  match Caught.find? (b.analysis.state f.pc).blocks with
  | some caught => caught.level ≤ f.stack.length
    ∧ ∃ a, r = concluded g ctx (runSteps ctx n a)
      ∧ StartsHandler caught.handler caught.level caught.restoreAt e f a
      ∧ a.store.cells = s.cells
      ∧ ∀ y, b.Needs (f.pc + 1) y ∨ b.Needs caught.handler y →
        a.frame.locals[y]? = f.locals[y]?
  | none => ∃ e' t, r = .error (.raised e') t
    ∧ t.generators.rows[g]?
      = some { x with progress := .exhausted, lookahead := none, running := false }
    ∧ if isStopIteration ctx.compiler.model (.raised e) then
        e'.type = TypeId.runtimeError ∧ ∃ id, (t.exceptions.get e'.ref).args
          = [.str id "generator raised StopIteration"]
      else e' = e

/-- **One exchange** of a generator that delegates: what comes of a value that is sent to it, by
what comes of it if it is sent to the inner generator. -/
theorem send_delegating (hb : b.Accepted ty) (hp : p.Of ty b) (hf : f.Fitting b p)
    (hs : f.Suspending b) (hsaved : f.suspend? = .ok saved) (hd : Delegating b f h below)
    (hrow : s.generators.rows[g]? = some x) (hx : x.Awaits saved) (hdepth : s.depth < maxDepth)
    (d : Digest) (n : Nat) (v : Value) :
    match send h v (context c d (n + 5)) (s.inside g) with
    | .ok y t => send g v (context c d (n + 6)) s = .ok y (t.outside g x)
        ∧ t.generators.rows[g]? = some (takenUp x) ∧ t.depth = s.depth + 1
    | .error e t => match delegateResult? c.model t e with
      | some r => send g v (context c d (n + 6)) s = concluded g (context c d (n + 5))
          (runSteps (context c d (n + 5)) n ⟨saved.goingOn (f.pc + 3) (r :: below), t⟩)
      | none => ∀ e' t', catchable e (context c d (n + 5)) t = .ok e' t' →
          RaisedAt b f g x (context c d (n + 5)) n e' t' (send g v (context c d (n + 6)) s) := by
  have hc := context_orderly c d (n + 5)
  have htaken : (s.inside g).generators.rows[g]? = some (takenUp x) :=
    Store.onGenerator_row hrow takenUp
  have hkept := keeping_send hc h v (s.inside g)
  obtain ⟨hlive, step, hran⟩ := runSteps_delegating hb hp hf hs hsaved hd v (context c d (n + 5)) n
    (s.inside g)
  rw [send_suspended (k := n + 4) hrow hx hdepth, hran]
  cases hsend : send h v (context c d (n + 5)) (s.inside g) with
  | ok y t =>
    rw [hsend] at hkept
    have hrow' := hkept.rows g _ trivial htaken rfl
    exact ⟨concluded_yielded hx hrow' (suspend_goingOn hb hp hf hs hsaved f.pc) _, hrow',
      hkept.depth⟩
  | error e t =>
    rw [hsend] at hkept
    have hrow' := hkept.rows g _ trivial htaken rfl
    have hmodel : (context c d (n + 5)).compiler.model = c.model := rfl
    dsimp only
    rw [hmodel]
    cases delegateResult? c.model t e with
    | some r => rfl
    | none =>
      intro e' t' hfault
      have hrouted := goOn_delegating hb hp hf hs hsaved hd hlive hfault step n
      unfold RaisedAt
      cases hfind : Caught.find? (b.analysis.state f.pc).blocks with
      | some caught =>
        rw [hfind] at hrouted
        obtain ⟨hlevel, a, hgo, hstarts, hcells, hlocals⟩ := hrouted
        exact ⟨hlevel, a, by rw [hgo], hstarts, hcells, hlocals⟩
      | none =>
        rw [hfind] at hrouted
        obtain ⟨a, hgo, hgenerators⟩ := hrouted
        have hcaught := (gentleUnder_catchable (W := .all) (e := e) trivial).composed.keeps hc t
        rw [hfault] at hcaught
        have htaken' : a.store.generators.rows[g]? = some (takenUp x) := by
          rw [hgenerators]
          exact hcaught.rows g _ trivial hrow' rfl
        rw [hgo]
        exact concluded_raised g (context c d (n + 5)) e' a htaken'

/-- **Any sequence of exchanges.** While the inner generator yields, the outer one yields the same,
and stays what it is. -/
theorem sends_delegating (hb : b.Accepted ty) (hp : p.Of ty b) (hf : f.Fitting b p)
    (hs : f.Suspending b) (hsaved : f.suspend? = .ok saved) (hd : Delegating b f h below)
    (hx : x.Awaits saved) (d : Digest) (n : Nat) {vs ys : List Value} :
    ∀ {s : Store}, s.generators.rows[g]? = some x → s.depth < maxDepth →
      vs.mapM (send h) (context c d (n + 5)) (s.inside g) = .ok ys t →
      vs.mapM (send g) (context c d (n + 6)) s = .ok ys (t.outside g x)
        ∧ (t.outside g x).generators.rows[g]? = some x ∧ (t.outside g x).depth = s.depth
        ∧ (t.outside g x).inside g = t := by
  induction vs generalizing ys with
  | nil =>
    intro s hrow hdepth hinner
    cases hinner
    rw [outside_inside hrow]
    exact ⟨rfl, hrow, rfl, rfl⟩
  | cons v vs ih =>
    intro s hrow hdepth hinner
    rw [List.mapM_cons] at hinner ⊢
    obtain ⟨y, t₁, hsend, hinner⟩ := run_bind_eq_ok.mp hinner
    obtain ⟨ys', t₂, hrest, hinner⟩ := run_bind_eq_ok.mp hinner
    cases hinner
    have hexchange := send_delegating (c := c) hb hp hf hs hsaved hd hrow hx hdepth d n v
    rw [hsend] at hexchange
    obtain ⟨houter, htaken, hdeeper⟩ := hexchange
    have hdepth₁ : (t₁.outside g x).depth = s.depth := congrArg (· - 1) hdeeper
    have hagain := inside_outside htaken (hdeeper ▸ Nat.succ_pos s.depth)
    obtain ⟨hsends, hrow', hdepth', hinside⟩ := ih
      (Store.onGenerator_row (s := t₁.leave) htaken fun _ => x) (hdepth₁ ▸ hdepth)
      (hagain.symm ▸ hrest)
    exact ⟨run_bind_eq_ok.mpr ⟨y, _, houter, run_bind_eq_ok.mpr ⟨ys', _, hsends, rfl⟩⟩, hrow',
      hdepth'.trans hdepth₁, hinside⟩

end Exchange

/-! ## 5. The theorem -/

/-- What was saved of a frame of a compiled generator that has yielded. -/
structure LeftBy (c : Compiler) (b : CompiledBody) (f : Frame) (saved : SavedFrame) : Prop where
  compiled : ∃ code sig, c.analyze code sig = .ok b
  emitted : ∃ p, c.emit b Program.emitter none = .ok p ∧ ∃ f₀ ctx m s y s', Frame.Of p f₀
    ∧ runSteps ctx m ⟨f₀, s⟩ = .ok (.yields y) ⟨f, s'⟩
  saved : f.suspend? = .ok saved

theorem LeftBy.suspending {b : CompiledBody} {f : Frame} (h : LeftBy c b f saved) :
    ∃ ty p, b.Accepted ty ∧ p.Of ty b ∧ f.Fitting b p ∧ f.Suspending b := by
  obtain ⟨code, sig, hb⟩ := h.compiled
  obtain ⟨p, hp, f₀, ctx, m, s, y, s', hof, hrun⟩ := h.emitted
  obtain ⟨-, -, haccepted⟩ := CompiledBody.analyze_accepted hb
  have hprogram := Program.of_emit haccepted hp
  obtain ⟨hfit, hsuspending⟩ :=
    runSteps_suspending haccepted hprogram (locked_of haccepted hprogram hof) hrun
  exact ⟨_, p, haccepted, hprogram, hfit, hsuspending⟩

/-- A frame that was left at a delegation stands in the loop of it. -/
theorem LeftBy.delegating {b : CompiledBody} {f : Frame} (hleft : LeftBy c b f saved) {i : Instr}
    {state exit : Nat} {below : List Value} (hi : b.instrs[f.pc]? = some i)
    (hop : i.op = .delegate state exit) (hstack : f.stack = .generator h :: below) :
    Delegating b f h below ∧ exit = f.pc + 3 := by
  obtain ⟨code, sig, hb⟩ := hleft.compiled
  obtain ⟨ty, p, -, -, -, hs⟩ := hleft.suspending
  obtain ⟨hexit, ⟨j, hj, hpoint⟩, hback⟩ := CompiledBody.delegation hb hi hop
  obtain ⟨j', hj', hpoint'⟩ := hs.resumed
  obtain rfl : j = j' := Option.some.inj (hj.symm.trans hj')
  rw [hpoint] at hpoint'
  cases hpoint'
  exact ⟨⟨⟨i, hi, hexit ▸ hop⟩, hback, hstack⟩, hexit⟩

/-- **Delegation is transparent.** Let a generator be suspended at a delegation to another one, and
let values be sent to it, `None` for a resumption without one:

* as long as the inner generator yields if these values are sent to it, the outer one yields the
  same values;
* a value that ends the inner generator makes the outer one go on in the same step, behind the
  delegation, with the result in the place of the inner generator; any other exception of the inner
  generator is raised at the delegation;
* a value that comes to the inner generator lies on the stack of its frame behind its pending
  yield. -/
theorem delegation_transparent {b : CompiledBody} {f : Frame} (hleft : LeftBy c b f saved)
    -- it was left at a delegation
    {i : Instr} {state exit : Nat} {below : List Value} (hi : b.instrs[f.pc]? = some i)
    (hop : i.op = .delegate state exit) (hstack : f.stack = .generator h :: below)
    -- the outer generator is suspended with it
    (hrow : s.generators.rows[g]? = some x) (hx : x.Awaits saved) (hdepth : s.depth < maxDepth)
    -- the inner generator yields
    (d : Digest) (n : Nat) {vs ys : List Value}
    (hinner : vs.mapM (send h) (context c d (n + 5)) (s.inside g) = .ok ys t) :
    vs.mapM (send g) (context c d (n + 6)) s = .ok ys (t.outside g x)
      ∧ (∀ v, match send h v (context c d (n + 5)) t with
        | .ok y t' => send g v (context c d (n + 6)) (t.outside g x) = .ok y (t'.outside g x)
        | .error e t' => match delegateResult? c.model t' e with
          | some r => exit = f.pc + 3
            ∧ send g v (context c d (n + 6)) (t.outside g x) = concluded g (context c d (n + 5))
              (runSteps (context c d (n + 5)) n ⟨saved.goingOn exit (r :: below), t'⟩)
          | none => ∀ e' t'', catchable e (context c d (n + 5)) t' = .ok e' t'' →
            RaisedAt b f g x (context c d (n + 5)) n e' t''
              (send g v (context c d (n + 6)) (t.outside g x)))
      ∧ ∀ {b' : CompiledBody} {f' : Frame} {saved' : SavedFrame} {y : Generator},
        LeftBy c b' f' saved' → t.generators.rows[h]? = some y → y.Awaits saved' →
        t.depth < maxDepth → ∀ v, send h v (context c d (n + 5)) t
          = concluded h (context c d (n + 4)) (runSteps (context c d (n + 4)) (n + 1)
            ⟨saved'.goingOn (f'.pc + 2) (v :: f'.stack), t.inside h⟩) := by
  obtain ⟨ty, p, hb, hp, hf, hs⟩ := hleft.suspending
  obtain ⟨hd, rfl⟩ := hleft.delegating hi hop hstack
  obtain ⟨hsends, hrow', hdepth', hagain⟩ :=
    sends_delegating hb hp hf hs hleft.saved hd hx d n hrow hdepth hinner
  refine ⟨hsends, fun v => ?_, fun {b' f' saved' y} hleft' hinnerRow hy hdeep v => ?_⟩
  · have hexchange :=
      send_delegating (c := c) hb hp hf hs hleft.saved hd hrow' hx (hdepth' ▸ hdepth) d n v
    rw [hagain] at hexchange
    cases hsend : send h v (context c d (n + 5)) t with
    | ok y t' =>
      rw [hsend] at hexchange
      exact hexchange.1
    | error e t' =>
      rw [hsend] at hexchange
      dsimp only at hexchange ⊢
      cases hresult : delegateResult? c.model t' e with
      | some r =>
        rw [hresult] at hexchange
        exact ⟨rfl, hexchange⟩
      | none =>
        rw [hresult] at hexchange
        exact hexchange
  · obtain ⟨ty', p', hb', hp', hf', hs'⟩ := hleft'.suspending
    rw [send_suspended (k := n + 3) hinnerRow hy hdeep,
      (runSteps_sent hb' hp' hf' hs' hleft'.saved v (context c d (n + 4)) (n + 1) _).1]

/-- A generator that yields 1, then what it is sent as long as that is true, and returns what is
false. -/
def echo : CodeObject :=
  { CodeObject.blank 0 "echo" "g.py" with
    code := [129, 0, 100, 0, 86, 0, 4, 0, 115, 2, 83, 0]
    constants := [.int 1]
    flags := ⟨0x63⟩ }

/-- A generator that delegates to its argument, and returns the result. -/
def relayed : CodeObject :=
  { CodeObject.blank 0 "relayed" "g.py" with
    code := [129, 0, 124, 0, 69, 0, 100, 0, 72, 0, 83, 0]
    constants := [.none]
    varnames := ["it"]
    argCount := 1
    flags := ⟨0x63⟩ }

/-- A store with room for a generator, and one over a program behind it. -/
def storeRelayed (p : Program) : Store where
  generators := ⟨#[default, (storeWith p).generators.get 0]⟩

/-- The generator that is suspended with what was saved of its frame. -/
def awaiting (saved : SavedFrame) : Generator :=
  { (default : Generator) with progress := .suspended saved, lookahead := none, running := false }

/-- The generator on top of a stack, if there is nothing below it. -/
def delegatee? : List Value → Option Nat
  | [.generator h] => some h
  | _ => none

theorem delegatee?_eq_some {stack : List Value} (hstack : delegatee? stack = some h) :
    stack = [.generator h] := by
  unfold delegatee? at hstack
  split at hstack
  · cases hstack
    rfl
  · cases hstack

/-- What is sent to the outer generator comes back from the inner one, and what is sent last is its
result. -/
theorem delegation_transparent_echo : ∃ b f saved, ∃ s t t' : Store, ∃ x y r,
    LeftBy Compiler.ofBuiltins b f saved ∧ s.generators.rows[0]? = some x ∧ x.Awaits saved
      ∧ [Value.int 5].mapM (send 0) (plainContext 10) s = .ok [y] (t.outside 0 x)
      ∧ y.asInt? = some 5
      ∧ send 0 (.int 0) (plainContext 10) (t.outside 0 x) = concluded 0 (plainContext 9)
          (runSteps (plainContext 9) 4 ⟨saved.goingOn 7 [r], t'⟩)
      ∧ r.asInt? = some 0 := by
  have hrun : ((Compiler.ofBuiltins.analyze relayed .dynamic).toOption.any fun b =>
      (Compiler.ofBuiltins.emit b Program.emitter none).toOption.any fun p =>
      (compile .ofBuiltins echo .dynamic).toOption.any fun inner =>
      (answer? (newFrame p (.ofCode relayed default default) #[some (.generator 1)] (plainContext 1)
        (storeRelayed inner))).any fun f =>
      (answer? (runSteps (plainContext 9) 9 ⟨f.1, f.2⟩)).any fun r =>
      r.1.yielded?.any fun _ => r.2.frame.suspend?.toOption.any fun saved =>
      r.2.store.generators.rows[0]?.any fun _ =>
      b.instrs[r.2.frame.pc]?.any fun i => (delegatee? r.2.frame.stack).any fun h =>
      (answer? ([Value.int 5].mapM (send h) (plainContext 9)
        ((r.2.store.onGenerator 0 fun _ => awaiting saved).inside 0))).any fun sent =>
      (failure? (send h (.int 0) (plainContext 9) sent.2)).any fun ended =>
      (delegateResult? Compiler.ofBuiltins.model ended.2 ended.1).any fun result =>
        p.code.localCount == 1 && i.op == .delegate 1 7 && r.2.store.depth < maxDepth
        && sent.1.map Value.asInt? == [some 5] && result.asInt? == some 0) = true := by
    simp only [compile, Compiler.analyze, CompiledBody.analyze, CompiledBody.build,
      CompiledBody.settle, Body.decode, InstructionStream.decode, InstructionStream.strayJump?_eq]
    decide +kernel
  obtain ⟨b, hb, hrun⟩ := (Option.any_eq_true _ _).mp hrun
  obtain ⟨p, hp, hrun⟩ := (Option.any_eq_true _ _).mp hrun
  obtain ⟨inner, -, hrun⟩ := (Option.any_eq_true _ _).mp hrun
  obtain ⟨⟨f₀, s₀⟩, hf₀, hrun⟩ := (Option.any_eq_true _ _).mp hrun
  obtain ⟨⟨exit, ⟨f, s⟩⟩, hyields, hrun⟩ := (Option.any_eq_true _ _).mp hrun
  obtain ⟨w, hw, hrun⟩ := (Option.any_eq_true _ _).mp hrun
  obtain ⟨saved, hsaved, hrun⟩ := (Option.any_eq_true _ _).mp hrun
  obtain ⟨x₀, hrow, hrun⟩ := (Option.any_eq_true _ _).mp hrun
  obtain ⟨i, hi, hrun⟩ := (Option.any_eq_true _ _).mp hrun
  obtain ⟨h, hstack, hrun⟩ := (Option.any_eq_true _ _).mp hrun
  obtain ⟨⟨ys, t⟩, hsent, hrun⟩ := (Option.any_eq_true _ _).mp hrun
  obtain ⟨⟨e, t'⟩, hended, hrun⟩ := (Option.any_eq_true _ _).mp hrun
  obtain ⟨r, hresult, hrun⟩ := (Option.any_eq_true _ _).mp hrun
  rw [toOption_eq_some] at hb hp hsaved
  rw [answer?_eq_some] at hf₀ hyields hsent
  rw [failure?_eq_some] at hended
  rw [Exit.yielded?_eq_some] at hw
  simp only [Bool.and_eq_true, beq_iff_eq, decide_eq_true_eq] at hrun
  obtain ⟨⟨⟨⟨hlocals, hop⟩, hdepth⟩, hfive⟩, hzero⟩ := hrun
  obtain ⟨y, rfl, hy⟩ := List.map_eq_singleton_iff.mp hfive
  have hleft : LeftBy Compiler.ofBuiltins b f saved := by
    refine ⟨⟨relayed, .dynamic, hb⟩, ⟨p, hp, f₀, plainContext 9, 9, s₀, w, s, ?_, ?_⟩, hsaved⟩
    · have hsize : (#[some (.generator 1)] : Array (Option Value)).size = _ := hlocals.symm
      exact .new hsize hf₀
    · exact hw ▸ hyields
  have hawaits : (awaiting saved).Awaits saved := ⟨rfl, rfl, rfl⟩
  have hrow' := Store.onGenerator_row hrow fun _ => awaiting saved
  obtain ⟨hsends, hends, -⟩ := delegation_transparent hleft hi hop (delegatee?_eq_some hstack) hrow'
    hawaits hdepth Digest.standard 4 hsent
  have hlast := hends (.int 0)
  rw [show send h (.int 0) (plainContext 9) t = .error e t' from hended] at hlast
  dsimp only at hlast
  rw [hresult] at hlast
  exact ⟨b, f, saved, _, t, t', _, y, r, hleft, hrow', hawaits, hsends, hy, hlast.2, hzero⟩

end Machine

end Stackwise
