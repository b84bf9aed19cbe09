import Stackwise.Proofs.Machine.AllOrNothing
import Stackwise.Proofs.Machine.DeclaredResults
import Stackwise.Proofs.Machine.Lockstep

/-!
# Targets of updates

An update takes its operands and changes a collection that lies further down the stack. The analysis
looks at the place by counting down from the top, the machine by counting up from the bottom. Both
name one place, unless the operand is zero: then the analysis looks at the top, and the machine
beyond it.

* `Op.effect_update_eq_ok`: what the analysis looks at.
* `target_run`: what the machine finds, counted from the bottom.
* `target_agrees`: both name one place, or the machine looks outside the stack.
* `update_takesTo`: an update that completes has taken the operands that the analysis counts, and
  found something at that place.
* `targets_in_runs`: in every run of a compiled program updates find what they need, but for those
  with operand zero.
* `target_outside`: the analysis accepts a function that looks outside the stack.
-/

namespace Stackwise

/-! ## 1. The analysis -/

/-- The state after an update: its operands are gone. -/
def AbstractState.updated (kind : Update) (s : AbstractState) : AbstractState :=
  { s with stack := s.stack.drop kind.taken, keywords := none }

/-- An update has an effect if its operands are there and something lies at the place of its
collection. -/
theorem Op.effect_update_eq_ok {kind : Update} {depth offset : Nat} {ty : Typer}
    {before : AbstractState} {t : Transfer} :
    (Op.update kind depth).effect ty offset before = .ok t
      ↔ kind.taken ≤ before.depth
        ∧ (∃ slot, (before.updated kind).peek (depth - 1) offset = .ok slot)
        ∧ t = goOn (before.updated kind) := by
  rw [effect, bind_eq_ok]
  constructor
  · rintro ⟨after, hdrop, h⟩
    obtain ⟨slot, hpeek, h⟩ := bind_eq_ok.mp h
    obtain ⟨hle, rfl⟩ := AbstractState.dropMany_eq_ok hdrop
    cases h
    exact ⟨hle, ⟨slot, hpeek⟩, rfl⟩
  · rintro ⟨hle, ⟨slot, hpeek⟩, rfl⟩
    refine ⟨before.updated kind, ?_, bind_eq_ok.mpr ⟨slot, hpeek, rfl⟩⟩
    exact map_eq_ok.mpr ⟨_, if_pos hle, rfl⟩

namespace Machine

variable {kind : Update} {depth offset : Nat} {ctx : Context} {a a' : Activation}

/-! ## 2. The machine -/

/-- The two ways of counting, where the operand is not zero. -/
theorem counted_from_below {stack : List Value} {v : Value} (hne : depth ≠ 0)
    (hv : stack[depth - 1]? = some v) :
    depth ≤ stack.length ∧ stack.reverse[stack.length - depth]? = some v := by
  have hlt := (List.getElem?_eq_some_iff.mp hv).1
  have hplace : stack.length - 1 - (stack.length - depth) = depth - 1 := by omega
  refine ⟨by omega, ?_⟩
  rw [List.getElem?_reverse (by omega), hplace, hv]

/-- What the machine finds as the collection of an update, counted from the bottom of the stack. -/
theorem target_run (depth : Nat) (ctx : Context) (a : Activation) : target depth ctx a
    = if a.frame.stack.length < depth then .error (a.frame.broken .stackUnderflow) a
      else match a.frame.stack.reverse[a.frame.stack.length - depth]? with
        | some v => .ok v a
        | none => .error (a.frame.broken .outsideStack) a := by
  cases depth with
  | zero =>
    rw [if_neg (Nat.not_lt_zero _), Nat.sub_zero, List.getElem?_eq_none List.length_reverse.le]
    rfl
  | succ n =>
    change peek n ctx ⟨a.frame, a.store⟩ = _
    rw [peek, onStack_run]
    split_ifs with hshort
    · rw [List.getElem?_eq_none (Nat.lt_succ_iff.mp hshort)]
      rfl
    · have hv : a.frame.stack[n]? = some a.frame.stack[n] := List.getElem?_eq_getElem (by omega)
      rw [(counted_from_below n.add_one_ne_zero hv).2, hv]
      rfl

/-- What lies at the place of a collection is found, unless the operand is zero. -/
theorem target_of_place {v : Value} (hne : depth ≠ 0) (hv : a.frame.stack[depth - 1]? = some v)
    (ctx : Context) : target depth ctx a = .ok v a := by
  obtain ⟨hle, hbelow⟩ := counted_from_below hne hv
  rw [target_run, if_neg (Nat.not_lt.mpr hle), hbelow]

/-! ## 3. Agreement -/

/-- **Analysis and machine mean one place.** Where an update has an effect, a relation between the
stack of a frame, its operands already taken, and that of the analysis holds between what the
machine finds and what the analysis looked at. Only with operand zero the machine looks outside the
stack. -/
theorem target_agrees {ty : Typer} {before : AbstractState} {t : Transfer}
    (heffect : (Op.update kind depth).effect ty offset before = .ok t) :
    ∃ slot, t = Op.goOn (before.updated kind)
      ∧ (before.updated kind).peek (depth - 1) offset = .ok slot
      ∧ ∀ (R : Value → Slot → Prop) (ctx : Context) (a : Activation),
        List.Forall₂ R a.frame.stack (before.updated kind).stack →
          (depth ≠ 0 → ∃ v, R v slot ∧ target depth ctx a = .ok v a
            ∧ a.frame.stack.reverse[a.frame.stack.length - depth]? = some v)
          ∧ (depth = 0 → target depth ctx a = .error (a.frame.broken .outsideStack) a) := by
  obtain ⟨-, ⟨slot, hpeek⟩, rfl⟩ := Op.effect_update_eq_ok.mp heffect
  refine ⟨slot, rfl, hpeek, fun R ctx a hstack => ⟨fun hne => ?_, ?_⟩⟩
  · obtain ⟨v, hv, hR⟩ := forall₂_getElem? hstack.flip (Op.peek_less hpeek).2
    exact ⟨v, hR, target_of_place hne hv ctx, (counted_from_below hne hv).2⟩
  · rintro rfl
    rfl

/-- An item is added to a list that lies below another value. -/
theorem target_agrees_listAppend :
    let before : AbstractState :=
      { (default : AbstractState) with stack := [.object, .object, .value TypeId.list] }
    let a : Activation := ⟨{ (default : Frame) with stack := [.none, .list 0] }, default⟩
    (∃ t, (Op.update .listAppend 2).effect default 4 before = .ok t)
      ∧ List.Forall₂ (Value.FitsSlot .empty) a.frame.stack (before.updated .listAppend).stack
      ∧ ∀ ctx, target 2 ctx a = .ok (.list 0) a := by
  intro before a
  have heffect : (Op.update .listAppend 2).effect default 4 before
      = .ok (Op.goOn (before.updated .listAppend)) := rfl
  have hstack : List.Forall₂ (Value.FitsSlot .empty) a.frame.stack
      (before.updated .listAppend).stack :=
    .cons (Value.fitsSlot_object _ _) (.cons (Value.fits_of_type rfl) .nil)
  refine ⟨⟨_, heffect⟩, hstack, fun ctx => ?_⟩
  obtain ⟨slot, -, -, hagree⟩ := target_agrees heffect
  obtain ⟨v, -, hfound, hplace⟩ := (hagree _ ctx a hstack).1 (by decide)
  cases hplace
  exact hfound

/-! ## 4. Whole updates -/

section Updates

variable {α β : Type} {n : Nat} {f : Frame} {s : Store}

/-- An action after which the frame is what it was. -/
def KeepsFrame (ctx : Context) (x : FrameAction α) : Prop :=
  ∀ f s v a, x ctx ⟨f, s⟩ = .ok v a → a.frame = f

theorem keepsFrame_lift (act : Action α) : KeepsFrame ctx (liftM act : FrameAction α) := by
  intro f s v a h
  obtain ⟨s', -, rfl⟩ := lift_eq_ok h
  rfl

theorem keepsFrame_broken (cause : Broken) : KeepsFrame ctx (broken cause : FrameAction α) := by
  intro f s v a h
  cases h

/-- An action that takes `n` values, if it completes, and finds something at a place of what is
left. -/
def TakesTo (ctx : Context) (depth n : Nat) (x : FrameAction Unit) : Prop :=
  ∀ f s a, x ctx ⟨f, s⟩ = .ok () a → ∃ operands, operands.length = n
    ∧ f.stack = operands ++ a.frame.stack ∧ depth ≠ 0 ∧ ∃ v, a.frame.stack[depth - 1]? = some v

theorem takesTo_target {g : Value → FrameAction Unit} (hg : ∀ v, KeepsFrame ctx (g v)) :
    TakesTo ctx depth 0 (target depth >>= g) := by
  intro f s a h
  obtain ⟨v, a₁, htarget, h⟩ := run_bind_eq_ok.mp h
  obtain ⟨rfl, hv⟩ := target_eq_ok htarget
  have hframe := hg v f s () a h
  refine ⟨[], rfl, congrArg Frame.stack hframe.symm, ?_, v, hframe ▸ hv⟩
  rintro rfl
  cases htarget

theorem TakesTo.pop {g : Value → FrameAction Unit} (hg : ∀ v, TakesTo ctx depth n (g v)) :
    TakesTo ctx depth (n + 1) (pop >>= g) := by
  intro f s a h
  obtain ⟨v, a₁, hpop, h⟩ := run_bind_eq_ok.mp h
  obtain ⟨rest, hstack, rfl⟩ := pop_eq_ok hpop
  obtain ⟨operands, hlength, hrest, hplace⟩ := hg v _ _ _ h
  exact ⟨v :: operands, congrArg (· + 1) hlength, hstack.trans (congrArg (v :: ·) hrest), hplace⟩

theorem TakesTo.after {x : FrameAction β} {g : β → FrameAction Unit} (hx : KeepsFrame ctx x)
    (hg : ∀ v, TakesTo ctx depth n (g v)) : TakesTo ctx depth n (x >>= g) := by
  intro f s a h
  obtain ⟨v, ⟨f₁, s₁⟩, hv, hrest⟩ := run_bind_eq_ok.mp h
  obtain rfl : f₁ = f := hx f s v ⟨f₁, s₁⟩ hv
  exact hg v f₁ s₁ a hrest

theorem takesTo_mergeTarget (cause : Broken) (merge : Bool) (incoming : List (Value × Value)) :
    TakesTo ctx depth 0 (do
      match ← target depth with
      | .dict r => mergeInto r merge incoming
      | _ => broken cause) := by
  refine takesTo_target fun w => ?_
  split
  · exact keepsFrame_lift _
  · exact keepsFrame_broken cause

/-- **An update that completes** has taken the operands that the analysis counts, and found
something at the place that the analysis looks at. -/
theorem update_takesTo (kind : Update) (depth : Nat) (ctx : Context) :
    TakesTo ctx depth kind.taken (update kind depth) := by
  unfold update
  cases kind
  case listAppend | setAdd =>
    refine .pop fun v => takesTo_target fun w => ?_
    split
    · exact keepsFrame_lift _
    · exact keepsFrame_broken _
  case listExtend | setUpdate =>
    refine .pop fun v => .after (keepsFrame_lift _) fun items => takesTo_target fun w => ?_
    split
    · exact keepsFrame_lift _
    · exact keepsFrame_broken _
  case mapAdd =>
    exact .pop fun v => .pop fun k => .after (keepsFrame_lift _) fun _ => takesTo_mergeTarget _ _ _
  case dictUpdate | dictMerge =>
    refine .pop fun other => ?_
    dsimp only
    split
    · exact .after (keepsFrame_lift _) fun incoming => takesTo_mergeTarget _ _ _
    · exact .after (keepsFrame_lift _) fun name =>
        .after (keepsFrame_lift _) fun incoming => takesTo_mergeTarget _ _ _

end Updates

/-! ## 5. Runs -/

/-- Before an update that has an effect a frame is where the analysis is: only at the start of a
body it may wait, and there the stack is empty. -/
theorem running_before_update {ty : Typer} {b : CompiledBody} {p : Program} {f : Frame}
    {t : Transfer} (hb : b.Accepted ty) (hf : f.Locked b p)
    (heffect : (Op.update kind depth).effect ty f.pc (b.analysis.state f.pc) = .ok t) :
    f.Running b := by
  refine hf.2.resolve_right fun hwait => ?_
  obtain ⟨-, hentry⟩ := hb.solves.entry rfl
  obtain ⟨htaken, -⟩ := Op.effect_update_eq_ok.mp heffect
  have hempty : (CompiledBody.entryState b.code b.signature).depth = 0 := rfl
  rw [hwait.pc, ← hentry.depth, hempty] at htaken
  cases kind <;> cases htaken

/-- **In every run of a compiled program** an update finds its operands on the stack, and below them
its collection, unless its operand is zero. -/
theorem targets_in_runs {c : Compiler} {code : CodeObject} {sig : CallSignature} {b : CompiledBody}
    {p : Program} (hb : c.analyze code sig = .ok b) (hp : c.emit b Program.emitter none = .ok p)
    {f : Frame} (hf : Frame.Of p f) {ctx : Context} {s : Store} {n : Nat} {a : Activation}
    (ha : after ctx n ⟨f, s⟩ = some a) {i : Instr} (hi : b.instrs[a.frame.pc]? = some i)
    (hop : i.op = .update kind depth) :
    kind.taken ≤ a.frame.stack.length ∧ ∀ ctx' s',
      let taken : Activation := ⟨{ a.frame with stack := a.frame.stack.drop kind.taken }, s'⟩
      (depth ≠ 0 → ∃ v, target depth ctx' taken = .ok v taken)
        ∧ (depth = 0 → target depth ctx' taken = .error (a.frame.broken .outsideStack) taken) := by
  obtain ⟨-, -, haccepted⟩ := CompiledBody.analyze_accepted hb
  have hof := Program.of_emit haccepted hp
  have hlocked := locked_of haccepted hof hf
  have heffect (hlive : (b.analysis.state a.frame.pc).dead = false) :=
    haccepted.solves.outcome _ i hi hlive
  rw [hop] at heffect
  have hrun : a.frame.Running b := by
    cases n with
    | zero =>
      cases ha
      obtain ⟨t, heffect, -⟩ := heffect (locked_live haccepted hlocked)
      exact running_before_update haccepted hlocked heffect
    | succ n =>
      exact (after_running haccepted hof hlocked (Tolerance.all_context ctx) (Tolerance.all_store s)
        ha).2
  obtain ⟨t, heffect, -⟩ := heffect hrun.live
  obtain ⟨htaken, ⟨slot, hpeek⟩, -⟩ := Op.effect_update_eq_ok.mp heffect
  have hdepth := AbstractState.peek_eq_ok hpeek
  rw [AbstractState.depth, AbstractState.updated, List.length_drop, ← AbstractState.depth,
    ← hrun.depth, ← List.length_drop] at hdepth
  refine ⟨hrun.depth ▸ htaken, fun ctx' s' => ⟨fun hne => ?_, ?_⟩⟩
  · exact ⟨_, target_of_place hne (List.getElem?_eq_getElem hdepth) ctx'⟩
  · rintro rfl
    rfl

/-! ## 6. A run beyond the top -/

/-- A body, its program, and the activation of a call without arguments after `n` steps. -/
def pointOf? (c : Compiler) (code : CodeObject) (ctx : Context) (n : Nat) :
    Option (CompiledBody × Program × Activation) := do
  let body ← (c.analyze code .dynamic).toOption
  let program ← (c.emit body Program.emitter none).toOption
  match newFrame program (.ofCode code default default)
      (Array.replicate program.code.localCount none) ctx default with
  | .error _ _ => none
  | .ok f s => (after ctx n ⟨f, s⟩).map (body, program, ·)

theorem pointOf?_eq_some {c : Compiler} {code : CodeObject} {n : Nat} {b : CompiledBody}
    {p : Program} (h : pointOf? c code ctx n = some (b, p, a)) :
    c.analyze code .dynamic = .ok b ∧ c.emit b Program.emitter none = .ok p
      ∧ ∃ f s, Frame.Of p f ∧ after ctx n ⟨f, s⟩ = some a := by
  obtain ⟨b', hb, h⟩ := Option.bind_eq_some_iff.mp h
  obtain ⟨p', hp, h⟩ := Option.bind_eq_some_iff.mp h
  split at h
  · cases h
  · rename_i f s hf
    obtain ⟨a', ha, h⟩ := Option.map_eq_some_iff.mp h
    cases h
    exact ⟨toOption_eq_some.mp hb, toOption_eq_some.mp hp, f, s, .new Array.size_replicate hf, ha⟩

/-- An item is added to a list that lies directly below it, with operand zero in place of one. -/
def appendBeyondTop : CodeObject :=
  { CodeObject.blank 0 "f" "f.py" with
    code := [103, 0, 100, 0, 145, 0, 83, 0]
    constants := [.int 1] }

/-- **The analysis accepts an update that looks outside the stack.** The operation has an effect on
the state of the analysis, a call comes to it, and there the run crashes. -/
theorem target_outside : ∃ b p f s a i t,
    (Compiler.ofModel .withBuiltins {}).analyze appendBeyondTop .dynamic = .ok b
      ∧ (Compiler.ofModel .withBuiltins {}).emit b Program.emitter none = .ok p
      ∧ Frame.Of p f ∧ after (plainContext 0) 2 ⟨f, s⟩ = some a
      ∧ b.instrs[a.frame.pc]? = some i ∧ i.op = .update .listAppend 0
      ∧ i.op.effect (CompiledBody.typerFor .withBuiltins {} b.code) a.frame.pc
          (b.analysis.state a.frame.pc) = .ok t
      ∧ (let taken : Activation := ⟨{ a.frame with stack := a.frame.stack.drop 1 }, a.store⟩
        target 0 (plainContext 0) taken = .error (a.frame.broken .outsideStack) taken)
      ∧ ∃ e a', stepOnce (plainContext 0) a = .error e a' ∧ e.isCrash = true := by
  have hpoint : (pointOf? (.ofModel .withBuiltins {}) appendBeyondTop (plainContext 0) 2).any
      (fun (b, _, a) => (b.instrs[a.frame.pc]?.any fun i => i.op == .update .listAppend 0)
        && match stepOnce (plainContext 0) a with
          | .ok _ _ => false
          | .error e _ => e.isCrash) = true := by
    simp only [pointOf?, Compiler.analyze, CompiledBody.analyze, CompiledBody.build,
      CompiledBody.settle, Body.decode, InstructionStream.decode, InstructionStream.strayJump?_eq]
    decide +kernel
  obtain ⟨⟨b, p, a⟩, hpoint, hcrash⟩ := (Option.any_eq_true _ _).mp hpoint
  obtain ⟨hb, hp, f, s, hf, ha⟩ := pointOf?_eq_some hpoint
  rw [Bool.and_eq_true] at hcrash
  obtain ⟨i, hi, hop⟩ := (Option.any_eq_true _ _).mp hcrash.1
  obtain ⟨-, -, haccepted⟩ := CompiledBody.analyze_accepted hb
  have hof := Program.of_emit haccepted hp
  obtain ⟨-, hrun⟩ := after_running haccepted hof (locked_of haccepted hof hf)
    (Tolerance.all_context _) (Tolerance.all_store s) ha
  obtain ⟨t, heffect, -⟩ := haccepted.solves.outcome _ i hi hrun.live
  refine ⟨b, p, f, s, a, i, t, hb, hp, hf, ha, hi, beq_iff_eq.mp hop, heffect,
    rfl, ?_⟩
  have hend := hcrash.2
  split at hend
  · cases hend
  · rename_i e a' hstep
    exact ⟨e, a', hstep, hend⟩

end Machine

end Stackwise
