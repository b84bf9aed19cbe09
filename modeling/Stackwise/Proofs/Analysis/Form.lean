import Stackwise.Analysis.Effect
import Stackwise.Analysis.FlowGraph
import Stackwise.Proofs.Analysis.StateOrder
import Stackwise.Proofs.Outcome

/-!
# Effects on the form of a state

The form of a state is the depth of its stack and its open blocks. How an operation changes it does
not depend on the types of the slots, so it can be said in one table:

* `Op.arity?`: what an operation takes from and puts on the stack, if all it does is to go on;
* `Op.moves`: the form at each way on, for every operation;
* `Op.effect_follows`: an effect that has no fault changes the form as the table says.

From the table alone follows that states of one form go on in states of one form
(`Op.effect_sameForm`).
-/

namespace Stackwise

namespace Op

/-! ## 1. The table -/

/-- How many values an operation needs on the stack and how many it leaves in their place. Branches,
exits and operations on blocks have none. -/
def arity? : Op → Option (Nat × Nat)
  | .popTop | .storeFast _ | .storeDeref _ | .storeGlobal _ | .storeName _ | .deleteAttr _
  | .importStar | .printExpr | .suspend _ => some (1, 0)
  | .rotTwo => some (2, 2)
  | .rotThree => some (3, 3)
  | .rotFour => some (4, 4)
  | .rotN n => some (n, n)
  | .dupTop | .importFrom _ | .loadMethod _ => some (1, 2)
  | .dupTopTwo => some (2, 4)
  | .nop | .genStart _ | .setupAnnotations | .resumeDispatch _ | .deleteFast _ | .deleteDeref _
  | .deleteGlobal _ | .deleteName _ => some (0, 0)
  | .unary _ | .getIter | .getYieldFromIter | .loadAttr _ | .listToTuple | .yieldValue
  | .loadSpecial _ => some (1, 1)
  | .binary _ _ | .binarySubscr | .compare _ | .isOp _ | .containsOp _ | .importName _
  | .yieldFrom => some (2, 1)
  | .storeSubscr => some (3, 0)
  | .deleteSubscr | .storeAttr _ => some (2, 0)
  | .loadConst _ | .loadFast _ | .loadDeref _ | .loadClassDeref _ | .loadClosure _ | .loadGlobal _ _
  | .loadName _ _ | .loadBuildClass | .loadAssertionError | .resumePoint _ => some (0, 1)
  | .build shape n => some (shape.taken n, 1)
  | .update kind depth => some (kind.taken + max depth 1, max depth 1)
  | .unpackSequence n => some (1, n)
  | .unpackEx before after => some (1, before + 1 + after)
  | .formatValue flags => some (if flags &&& formatHasSpec != 0 then 2 else 1, 1)
  | .callFunction argc => some (argc + 1, 1)
  | .callFunctionKw argc | .callMethod argc => some (argc + 2, 1)
  | .callFunctionEx kwargs => some (if kwargs then 3 else 2, 1)
  | .makeFunction flags => some (2 + functionParts flags, 1)
  | .withExceptStart => some (7, 8)
  | _ => none

/-- The form of the states that leave an operation, by depth and blocks before it; nothing if it
needs more than there is. -/
def moves (op : Op) (d : Nat) (bs : List Block) : Option (List (Successor × Nat × List Block)) :=
  match op with
  | .forIter exit => if 1 ≤ d then some [(.next, d + 1, bs), (.jump exit, d - 1, bs)] else none
  | .jump target => some [(.jump target, d, bs)]
  | .popJumpIf _ target =>
    if 1 ≤ d then some [(.next, d - 1, bs), (.jump target, d - 1, bs)] else none
  | .jumpIfOrPop _ target => if 1 ≤ d then some [(.next, d - 1, bs), (.jump target, d, bs)] else none
  | .jumpIfNotExcMatch target =>
    if 2 ≤ d then some [(.next, d - 2, bs), (.jump target, d - 2, bs)] else none
  | .returnValue => if 1 ≤ d then some [] else none
  | .reraise _ => if 3 ≤ d then some [] else none
  | .raiseVarargs n => if n ≤ d then some [] else none
  | .setupFinally h k r =>
    if r ≤ d then
      some [(.next, d, .protect h (d - r) k :: bs), (.jump h, d - r + 6, .handling (d - r) :: bs)]
    else none
  | .setupWith h =>
    if 1 ≤ d then
      some [(.next, d + 1, .protect h d .withBlock :: bs), (.jump h, d + 6, .handling d :: bs)]
    else none
  | .popBlock =>
    match bs with
    | .protect _ _ _ :: rest => some [(.next, d, rest)]
    | _ => none
  | .popExcept =>
    match bs with
    | .handling _ :: rest => if 3 ≤ d then some [(.next, d - 3, rest)] else none
    | _ => none
  | .delegate _ exit => if 2 ≤ d then some [(.next, d - 1, bs), (.jump exit, d - 1, bs)] else none
  | op => op.arity?.bind fun (taken, left) =>
    if taken ≤ d then some [(.next, d - taken + left, bs)] else none

/-- The form of a state that leaves an operation. -/
def formOf (w : Successor × AbstractState) : Successor × Nat × List Block :=
  (w.1, w.2.depth, w.2.blocks)

/-! ## 2. Operations on the stack -/

/-- `s'` differs from `s` in its stack and in the contents of its variables only. -/
structure Carries (s s' : AbstractState) : Prop where
  locals : s'.locals.length = s.locals.length
  cells : s'.cells.length = s.cells.length
  dead : s'.dead = s.dead

theorem Carries.refl (s : AbstractState) : Carries s s := ⟨rfl, rfl, rfl⟩

end Op

namespace AbstractState

variable {s s' : AbstractState} {o n : Nat}

theorem pop_eq_ok {v : Slot} (h : s.pop o = .ok (v, s')) :
    ∃ rest, s.stack = v :: rest ∧ s' = { s with stack := rest } := by
  unfold pop at h
  split at h
  · rename_i w rest hs
    cases h
    exact ⟨rest, hs, rfl⟩
  · cases h

theorem popMany_eq_ok {vs : List Slot} (h : s.popMany n o = .ok (vs, s')) :
    n ≤ s.depth ∧ s' = { s with stack := s.stack.drop n } := by
  unfold popMany at h
  split at h
  · cases h
    exact ⟨‹_›, rfl⟩
  · cases h

theorem dropMany_eq_ok (h : s.dropMany n o = .ok s') :
    n ≤ s.depth ∧ s' = { s with stack := s.stack.drop n } := by
  obtain ⟨⟨vs, r⟩, hp, rfl⟩ := map_eq_ok.mp h
  exact popMany_eq_ok hp

theorem peek_eq_ok {v : Slot} (h : s.peek n o = .ok v) : n < s.depth := by
  unfold peek at h
  split at h
  · rename_i w hs
    exact (List.getElem?_eq_some_iff.mp hs).1
  · cases h

theorem rotate_eq_ok (h : s.rotate n o = .ok s') :
    n ≤ s.depth ∧ ∃ stack, stack.length = s.depth ∧ s' = { s with stack := stack } := by
  unfold rotate at h
  split at h
  · cases h
  · rename_i hn
    rw [not_or, Nat.not_lt] at hn
    split at h
    · cases h
    · rename_i v rest hs
      cases h
      refine ⟨hn.2, _, ?_, rfl⟩
      have hle : n - 1 ≤ rest.length := by
        have := hn.2
        simp only [depth, hs, List.length_cons] at this
        omega
      simp only [depth, hs, List.length_append, List.length_cons, List.length_take,
        List.length_drop]
      omega

theorem truncate_eq_ok {level : Nat} (h : s.truncate level o = .ok s') :
    level ≤ s.depth ∧ s'.depth = level ∧ s' = { s with stack := s'.stack } := by
  unfold truncate at h
  split at h
  · cases h
    rename_i hle
    refine ⟨hle, ?_, rfl⟩
    simp only [depth, List.length_drop] at hle ⊢
    omega
  · cases h

theorem setVariable_eq_ok {vars vars' : List (Option Slot)} {i : Nat} {v : Option Slot}
    (h : setVariable vars i o v = .ok vars') : i < vars.length ∧ vars'.length = vars.length := by
  unfold setVariable at h
  split at h
  · cases h
    exact ⟨‹_›, List.length_set⟩
  · cases h

theorem variable_eq_ok {vars : List (Option Slot)} {i : Nat} {v : Option Slot}
    (h : variable_ vars i o = .ok v) : i < vars.length := by
  unfold variable_ at h
  split at h
  · rename_i w hw
    exact (List.getElem?_eq_some_iff.mp hw).1
  · cases h

end AbstractState

/-! ## 3. Effects that only go on -/

namespace Op

/-- Control goes on with `taken` slots replaced by `left` others, inside the same blocks. -/
def Goes (s : AbstractState) (taken left : Nat) (t : Transfer) : Prop :=
  taken ≤ s.depth ∧ ∃ s', t = goOn s' ∧ s'.depth = s.depth - taken + left
    ∧ s'.blocks = s.blocks ∧ Carries s s'

variable {s : AbstractState} {o n : Nat} {t : Transfer}

/-- A new stack is all that has to be looked at if nothing else changed. -/
theorem goes_stack {taken left : Nat} {stack : List Slot} {keywords : Option (List String)}
    (hle : taken ≤ s.depth) (hlen : stack.length = s.depth - taken + left) :
    Goes s taken left (goOn { s with stack, keywords }) :=
  ⟨hle, _, rfl, hlen, rfl, rfl, rfl, rfl⟩

theorem Goes.of_plain {taken left : Nat} (h : Goes { s with keywords := none } taken left t) :
    Goes s taken left t := by
  obtain ⟨hle, s', ht, hd, hb, hl, hc, hx⟩ := h
  exact ⟨hle, s', ht, hd, hb, hl, hc, hx⟩

theorem take_goes (h : take n o s = .ok t) : Goes s n 0 t := by
  obtain ⟨s', hd, rfl⟩ := map_eq_ok.mp h
  obtain ⟨hle, rfl⟩ := AbstractState.dropMany_eq_ok hd
  exact goes_stack hle (by simp [AbstractState.depth])

theorem makeOf_goes {ty : TypeId} (h : makeOf n o ty s = .ok t) : Goes s n 1 t := by
  obtain ⟨s', hd, rfl⟩ := map_eq_ok.mp h
  obtain ⟨hle, rfl⟩ := AbstractState.dropMany_eq_ok hd
  exact goes_stack hle (by simp [AbstractState.depth])

theorem mapTop_goes {f : Slot → Slot} (h : mapTop f o s = .ok t) : Goes s 1 1 t := by
  obtain ⟨⟨v, s'⟩, hp, rfl⟩ := map_eq_ok.mp h
  obtain ⟨rest, hs, rfl⟩ := AbstractState.pop_eq_ok hp
  exact goes_stack (by simp [AbstractState.depth, hs]) (by simp [AbstractState.depth, hs])

theorem mapTwo_goes {f : Slot → Slot → Slot} (h : mapTwo f o s = .ok t) : Goes s 2 1 t := by
  obtain ⟨⟨r, s₁⟩, hr, h⟩ := bind_eq_ok.mp h
  obtain ⟨⟨l, s₂⟩, hl, h⟩ := bind_eq_ok.mp h
  obtain ⟨rest₁, hs₁, rfl⟩ := AbstractState.pop_eq_ok hr
  obtain ⟨rest₂, hs₂, rfl⟩ := AbstractState.pop_eq_ok hl
  cases h
  have hs : s.stack = r :: l :: rest₂ := by rw [hs₁, show rest₁ = l :: rest₂ from hs₂]
  exact goes_stack (by simp [AbstractState.depth, hs]) (by simp [AbstractState.depth, hs])

theorem rotate_goes (h : (s.rotate n o).map goOn = .ok t) : Goes s n n t := by
  obtain ⟨s', hr, rfl⟩ := map_eq_ok.mp h
  obtain ⟨hle, stack, hlen, rfl⟩ := AbstractState.rotate_eq_ok hr
  exact goes_stack hle (by omega)

theorem push_goes {v : Slot} {keywords : Option (List String)} :
    Goes s 0 1 (goOn { s.push v with keywords }) :=
  goes_stack (Nat.zero_le _) rfl

theorem stay_goes : Goes s 0 0 (goOn s) :=
  goes_stack (Nat.zero_le _) rfl

/-- Calls of all kinds take the arguments, what lies around them, and leave the result. -/
theorem call_goes {ty : Typer} {argc : Nat} (h : call ty argc o s = .ok t) :
    Goes s (argc + 1) 1 t := by
  obtain ⟨⟨args, s₁⟩, ha, h⟩ := bind_eq_ok.mp h
  obtain ⟨⟨callee, s₂⟩, hc, h⟩ := bind_eq_ok.mp h
  obtain ⟨hle, rfl⟩ := AbstractState.popMany_eq_ok ha
  obtain ⟨rest, hs, rfl⟩ := AbstractState.pop_eq_ok hc
  cases h
  have hlen := congrArg List.length hs
  simp only [List.length_drop, List.length_cons] at hlen
  simp only [AbstractState.depth] at hle
  exact goes_stack (by simp only [AbstractState.depth]; omega)
    (by simp only [AbstractState.depth, List.length_cons]; omega)

theorem callKeywords_goes {ty : Typer} {argc : Nat} {kw : Option (List String)}
    (h : callKeywords ty argc o kw s = .ok t) : Goes s (argc + 2) 1 t := by
  obtain ⟨⟨names, s₀⟩, hn, h⟩ := bind_eq_ok.mp h
  obtain ⟨⟨args, s₁⟩, ha, h⟩ := bind_eq_ok.mp h
  obtain ⟨⟨callee, s₂⟩, hc, h⟩ := bind_eq_ok.mp h
  obtain ⟨rest₀, hs₀, rfl⟩ := AbstractState.pop_eq_ok hn
  obtain ⟨hle, rfl⟩ := AbstractState.popMany_eq_ok ha
  obtain ⟨rest, hs, rfl⟩ := AbstractState.pop_eq_ok hc
  cases h
  have hlen := congrArg List.length hs
  simp only [List.length_drop, List.length_cons] at hlen
  simp only [AbstractState.depth] at hle
  exact goes_stack (by simp only [AbstractState.depth, hs₀, List.length_cons]; omega)
    (by simp only [AbstractState.depth, hs₀, List.length_cons]; omega)

/-- Both forms of a call with collections end alike, in the state without the mapping. -/
theorem popTwo_eq_ok {ty : Typer} {s₀ : AbstractState} (h : (do
      let (_, s) ← s₀.pop o
      let (callee, s) ← s.pop o
      return goOn (s.push (ty.resolveCall callee [] []).resultOfUnknown)) = Except.ok t) :
    ∃ args callee rest v, s₀.stack = args :: callee :: rest
      ∧ t = goOn { s₀ with stack := v :: rest } := by
  obtain ⟨⟨args, s₁⟩, ha, h⟩ := bind_eq_ok.mp h
  obtain ⟨⟨callee, s₂⟩, hc, h⟩ := bind_eq_ok.mp h
  obtain ⟨rest₁, hs₁, rfl⟩ := AbstractState.pop_eq_ok ha
  obtain ⟨rest₂, hs₂, rfl⟩ := AbstractState.pop_eq_ok hc
  cases h
  exact ⟨args, callee, rest₂, _, by rw [hs₁, show rest₁ = callee :: rest₂ from hs₂], rfl⟩

theorem callUnpacked_goes {ty : Typer} {kwargs : Bool} (h : callUnpacked ty kwargs o s = .ok t) :
    Goes s (if kwargs then 3 else 2) 1 t := by
  cases kwargs with
  | false =>
    obtain ⟨args, callee, rest, v, hs, rfl⟩ := popTwo_eq_ok h
    exact goes_stack (by simp [AbstractState.depth, hs]) (by simp [AbstractState.depth, hs])
  | true =>
    obtain ⟨s₀, hm, h⟩ := bind_eq_ok.mp h
    obtain ⟨args, callee, rest, v, hs, rfl⟩ := popTwo_eq_ok h
    obtain ⟨hle, rfl⟩ := AbstractState.dropMany_eq_ok hm
    have hlen := congrArg List.length hs
    simp only [List.length_drop, List.length_cons] at hlen
    exact goes_stack (by simp only [AbstractState.depth, if_true]; omega)
      (by simp only [AbstractState.depth, if_true, List.length_cons]; omega)

theorem callMethodSlots_goes {ty : Typer} {argc : Nat} (h : callMethodSlots ty argc o s = .ok t) :
    Goes s (argc + 2) 1 t := by
  obtain ⟨⟨args, s₀⟩, ha, h⟩ := bind_eq_ok.mp h
  obtain ⟨⟨receiver, s₁⟩, hr, h⟩ := bind_eq_ok.mp h
  obtain ⟨⟨callee, s₂⟩, hc, h⟩ := bind_eq_ok.mp h
  obtain ⟨hle, rfl⟩ := AbstractState.popMany_eq_ok ha
  obtain ⟨rest₁, hs₁, rfl⟩ := AbstractState.pop_eq_ok hr
  obtain ⟨rest₂, hs₂, rfl⟩ := AbstractState.pop_eq_ok hc
  cases h
  have hlen := congrArg List.length hs₁
  rw [show rest₁ = callee :: rest₂ from hs₂] at hlen
  simp only [List.length_drop, List.length_cons] at hlen
  simp only [AbstractState.depth] at hle
  exact goes_stack (by simp only [AbstractState.depth]; omega)
    (by simp only [AbstractState.depth, List.length_cons]; omega)

theorem startExit_goes {ty : Typer} (h : startExit ty o s = .ok t) : Goes s 7 8 t := by
  obtain ⟨exit, hp, h⟩ := bind_eq_ok.mp h
  obtain ⟨args, -, h⟩ := bind_eq_ok.mp h
  cases h
  have hlt := AbstractState.peek_eq_ok hp
  exact goes_stack (by omega)
    (by simp only [AbstractState.depth] at hlt ⊢; simp only [List.length_cons]; omega)

/-- **An operation that only goes on changes the depth as its arity says.** -/
theorem effect_goes {ty : Typer} {op : Op} {taken left : Nat} (ha : op.arity? = some (taken, left))
    (h : effect ty o s op = .ok t) : Goes s taken left t := by
  apply Goes.of_plain
  unfold effect at h
  cases op with
  | popTop | storeGlobal _ | storeName _ | deleteAttr _ | importStar | printExpr | suspend _
  | storeSubscr | deleteSubscr | storeAttr _ =>
    cases ha
    exact take_goes h
  | isOp _ | containsOp _ | importName _ | build _ _ | listToTuple | formatValue _ | makeFunction _
  | yieldFrom =>
    cases ha
    exact makeOf_goes h
  | getIter | getYieldFromIter | loadAttr _ | yieldValue | loadSpecial _ =>
    cases ha
    exact mapTop_goes h
  | unary op =>
    cases ha
    cases op <;> exact mapTop_goes h
  | binary _ _ | binarySubscr | compare _ =>
    cases ha
    exact mapTwo_goes h
  | rotTwo | rotThree | rotFour | rotN _ =>
    cases ha
    exact rotate_goes h
  | nop | genStart _ | setupAnnotations | resumeDispatch _ | deleteGlobal _ | deleteName _ =>
    cases ha
    cases h
    exact stay_goes
  | loadConst _ | loadGlobal _ _ | loadName _ _ | loadBuildClass | loadAssertionError
  | resumePoint _ =>
    cases ha
    cases h
    exact push_goes
  | dupTop | importFrom _ =>
    cases ha
    obtain ⟨v, hp, rfl⟩ := map_eq_ok.mp h
    have hlt : 0 < s.stack.length := AbstractState.peek_eq_ok hp
    exact goes_stack hlt (by simp only [AbstractState.depth, List.length_cons]; omega)
  | dupTopTwo =>
    cases ha
    obtain ⟨second, hp, h⟩ := bind_eq_ok.mp h
    obtain ⟨top, -, h⟩ := bind_eq_ok.mp h
    cases h
    have hlt : 1 < s.stack.length := AbstractState.peek_eq_ok hp
    exact goes_stack hlt (by simp only [AbstractState.depth, AbstractState.push, List.length_cons]; omega)
  | loadFast _ | loadDeref _ | loadClassDeref _ | loadClosure _ =>
    cases ha
    obtain ⟨v, -, h⟩ := bind_eq_ok.mp h
    cases h
    exact push_goes
  | storeFast _ =>
    cases ha
    obtain ⟨⟨v, s₁⟩, hp, h⟩ := bind_eq_ok.mp h
    obtain ⟨vars, hv, h⟩ := bind_eq_ok.mp h
    obtain ⟨rest, hs, rfl⟩ := AbstractState.pop_eq_ok hp
    cases h
    have hs' : s.stack = v :: rest := hs
    exact ⟨by simp [AbstractState.depth, hs'], _, rfl, by simp [AbstractState.depth, hs'], rfl,
      (AbstractState.setVariable_eq_ok hv).2, rfl, rfl⟩
  | storeDeref _ =>
    cases ha
    obtain ⟨⟨v, s₁⟩, hp, h⟩ := bind_eq_ok.mp h
    obtain ⟨vars, hv, h⟩ := bind_eq_ok.mp h
    obtain ⟨rest, hs, rfl⟩ := AbstractState.pop_eq_ok hp
    cases h
    have hs' : s.stack = v :: rest := hs
    exact ⟨by simp [AbstractState.depth, hs'], _, rfl, by simp [AbstractState.depth, hs'], rfl,
      rfl, (AbstractState.setVariable_eq_ok hv).2, rfl⟩
  | deleteFast _ =>
    cases ha
    obtain ⟨vars, hv, h⟩ := bind_eq_ok.mp h
    cases h
    exact ⟨Nat.zero_le _, _, rfl, rfl, rfl, (AbstractState.setVariable_eq_ok hv).2, rfl, rfl⟩
  | deleteDeref _ =>
    cases ha
    obtain ⟨vars, hv, h⟩ := bind_eq_ok.mp h
    cases h
    exact ⟨Nat.zero_le _, _, rfl, rfl, rfl, rfl, (AbstractState.setVariable_eq_ok hv).2, rfl⟩
  | loadMethod _ =>
    cases ha
    obtain ⟨⟨v, s₁⟩, hp, h⟩ := bind_eq_ok.mp h
    obtain ⟨rest, hs, rfl⟩ := AbstractState.pop_eq_ok hp
    cases h
    have hs' : s.stack = v :: rest := hs
    exact goes_stack (by simp [AbstractState.depth, hs'])
      (by simp [AbstractState.depth, AbstractState.push, hs'])
  | update kind depth =>
    cases ha
    obtain ⟨s₁, hd, h⟩ := bind_eq_ok.mp h
    obtain ⟨v, hp, h⟩ := bind_eq_ok.mp h
    obtain ⟨hle, rfl⟩ := AbstractState.dropMany_eq_ok hd
    cases h
    have hlt := AbstractState.peek_eq_ok hp
    simp only [AbstractState.depth, List.length_drop] at hle hlt
    exact goes_stack (by simp only [AbstractState.depth]; omega)
      (by simp only [AbstractState.depth, List.length_drop]; omega)
  | unpackSequence n =>
    cases ha
    obtain ⟨⟨v, s₁⟩, hp, rfl⟩ := map_eq_ok.mp h
    obtain ⟨rest, hs, rfl⟩ := AbstractState.pop_eq_ok hp
    have hs' : s.stack = v :: rest := hs
    exact goes_stack (by simp [AbstractState.depth, hs'])
      (by simp [AbstractState.depth, hs', Nat.add_comm])
  | unpackEx before after =>
    cases ha
    obtain ⟨⟨v, s₁⟩, hp, h⟩ := bind_eq_ok.mp h
    obtain ⟨rest, hs, rfl⟩ := AbstractState.pop_eq_ok hp
    cases h
    have hs' : s.stack = v :: rest := hs
    refine goes_stack (by simp [AbstractState.depth, hs']) ?_
    simp only [AbstractState.depth, hs', AbstractState.pushMany, AbstractState.push,
      List.length_append, List.length_replicate, List.length_cons]
    omega
  | callFunction _ => cases ha; exact call_goes h
  | callFunctionKw _ => cases ha; exact callKeywords_goes h
  | callFunctionEx _ => cases ha; exact callUnpacked_goes h
  | callMethod _ => cases ha; exact callMethodSlots_goes h
  | withExceptStart => cases ha; exact startExit_goes h
  | forIter _ | jump _ | popJumpIf _ _ | jumpIfOrPop _ _ | jumpIfNotExcMatch _ | returnValue
  | setupFinally _ _ _ | setupWith _ | popBlock | popExcept | reraise _ | raiseVarargs _
  | delegate _ _ => cases ha

/-! ## 4. Effects of every operation -/

theorem moves_of_arity {op : Op} {taken left : Nat} (ha : op.arity? = some (taken, left)) (d : Nat)
    (bs : List Block) :
    op.moves d bs = if taken ≤ d then some [(.next, d - taken + left, bs)] else none := by
  cases op <;> cases ha <;> rfl

/-- What the table says of an effect. -/
def Follows (op : Op) (s : AbstractState) (t : Transfer) : Prop :=
  op.moves s.depth s.blocks = some (t.map formOf) ∧ ∀ w ∈ t, Carries s w.2

theorem Follows.of_plain {op : Op} (h : Follows op { s with keywords := none } t) :
    Follows op s t := by
  refine ⟨h.1, fun w hw => ?_⟩
  obtain ⟨hl, hc, hx⟩ := h.2 w hw
  exact ⟨hl, hc, hx⟩

theorem Goes.follows {op : Op} {taken left : Nat} (ha : op.arity? = some (taken, left))
    (h : Goes s taken left t) : Follows op s t := by
  obtain ⟨hle, s', rfl, hd, hb, hc⟩ := h
  refine ⟨?_, ?_⟩
  · rw [moves_of_arity ha, if_pos hle]
    simp only [goOn, List.map_cons, List.map_nil, formOf, hd, hb]
  · intro w hw
    rw [goOn, List.mem_singleton] at hw
    rw [hw]
    exact hc

/-- An exit follows the table if what it takes is there. -/
theorem follows_exit {op : Op} (h : op.moves s.depth s.blocks = some []) : Follows op s [] :=
  ⟨h, fun _ hw => absurd hw List.not_mem_nil⟩

theorem follows_branch {op : Op} {target : Nat} {s₁ s₂ : AbstractState}
    (h : op.moves s.depth s.blocks
      = some [(.next, s₁.depth, s₁.blocks), (.jump target, s₂.depth, s₂.blocks)])
    (h₁ : Carries s s₁) (h₂ : Carries s s₂) : Follows op s (branch s₁ target s₂) := by
  refine ⟨h, fun w hw => ?_⟩
  simp only [branch, List.mem_cons, List.not_mem_nil, or_false] at hw
  rcases hw with rfl | rfl
  · exact h₁
  · exact h₂

theorem handlerEntry_eq_ok {s' : AbstractState} {level : Nat}
    (h : handlerEntry s level o = .ok s') :
    level ≤ s.depth ∧ s'.depth = level + 6 ∧ s'.blocks = .handling level :: s.blocks
      ∧ Carries s s' := by
  obtain ⟨cut, hc, rfl⟩ := map_eq_ok.mp h
  obtain ⟨hle, hd, hcut⟩ := AbstractState.truncate_eq_ok hc
  refine ⟨hle, ?_, ?_, ?_⟩
  · simp only [AbstractState.depth, AbstractState.enterHandler, List.length_append] at hd ⊢
    rw [hd, show exceptionSlots.length = 6 from rfl, Nat.add_comm]
  · rw [AbstractState.enterHandler, hcut]
  · rw [AbstractState.enterHandler, hcut]
    exact ⟨rfl, rfl, rfl⟩

theorem openBlock_follows {h : Nat} {k : BlockKind} {r : Nat}
    (he : openBlock h k r o s = .ok t) : Follows (.setupFinally h k r) s t := by
  unfold openBlock at he
  split at he
  · cases he
  · rename_i hr
    rw [Nat.not_lt] at hr
    obtain ⟨taken, hs', he⟩ := bind_eq_ok.mp he
    obtain ⟨-, hd, hb, hc⟩ := handlerEntry_eq_ok hs'
    cases he
    refine follows_branch ?_ ⟨rfl, rfl, rfl⟩ hc
    rw [hd, hb]
    exact if_pos hr

theorem enterWith_follows {ty : Typer} {h : Nat} (he : enterWith ty h o s = .ok t) :
    Follows (.setupWith h) s t := by
  obtain ⟨⟨manager, s₁⟩, hp, he⟩ := bind_eq_ok.mp he
  obtain ⟨taken, hs', he⟩ := bind_eq_ok.mp he
  obtain ⟨rest, hs, rfl⟩ := AbstractState.pop_eq_ok hp
  obtain ⟨-, hd, hb, hl, hc, hx⟩ := handlerEntry_eq_ok hs'
  cases he
  have hdepth : s.depth = rest.length + 1 := by simp only [AbstractState.depth, hs, List.length_cons]
  refine follows_branch ?_ ⟨rfl, rfl, rfl⟩ ⟨hl, hc, hx⟩
  rw [hd, hb, hdepth]
  rfl

theorem closeBlock_follows (h : closeBlock o s = .ok t) : Follows .popBlock s t := by
  unfold closeBlock at h
  split at h
  · rename_i hd l k rest hs
    cases h
    refine ⟨?_, ?_⟩
    · rw [hs]
      rfl
    · intro w hw
      rw [goOn, List.mem_singleton] at hw
      rw [hw]
      exact ⟨rfl, rfl, rfl⟩
  · cases h

theorem leaveHandler_follows (h : leaveHandler o s = .ok t) : Follows .popExcept s t := by
  unfold leaveHandler at h
  split at h
  · rename_i l rest hs
    obtain ⟨hle, s', rfl, hd, hb, hl, hc, hx⟩ := take_goes h
    refine ⟨?_, ?_⟩
    · simp only [hs, goOn, List.map_cons, List.map_nil, formOf, hd, hb]
      exact if_pos hle
    · intro w hw
      rw [goOn, List.mem_singleton] at hw
      rw [hw]
      exact ⟨hl, hc, hx⟩
  · cases h

/-- **The effect of an operation follows the table.** -/
theorem effect_follows {ty : Typer} {op : Op} (h : effect ty o s op = .ok t) : Follows op s t := by
  cases ha : op.arity? with
  | some a => exact (effect_goes ha h).follows ha
  | none =>
    apply Follows.of_plain
    unfold effect at h
    cases op with
    | jump target =>
      cases h
      refine ⟨rfl, fun w hw => ?_⟩
      rw [List.mem_singleton] at hw
      rw [hw]
      exact Carries.refl _
    | forIter exit =>
      obtain ⟨⟨v, s₁⟩, hp, h⟩ := bind_eq_ok.mp h
      obtain ⟨rest, hs, rfl⟩ := AbstractState.pop_eq_ok hp
      replace hs : s.stack = v :: rest := hs
      cases h
      refine follows_branch ?_ ⟨rfl, rfl, rfl⟩ ⟨rfl, rfl, rfl⟩
      simp only [AbstractState.depth, AbstractState.push, hs, List.length_cons]
      rfl
    | popJumpIf on target =>
      obtain ⟨⟨v, s₁⟩, hp, rfl⟩ := map_eq_ok.mp h
      obtain ⟨rest, hs, rfl⟩ := AbstractState.pop_eq_ok hp
      replace hs : s.stack = v :: rest := hs
      refine follows_branch ?_ ⟨rfl, rfl, rfl⟩ ⟨rfl, rfl, rfl⟩
      simp only [AbstractState.depth, hs, List.length_cons]
      rfl
    | jumpIfOrPop on target =>
      obtain ⟨⟨v, s₁⟩, hp, rfl⟩ := map_eq_ok.mp h
      obtain ⟨rest, hs, rfl⟩ := AbstractState.pop_eq_ok hp
      replace hs : s.stack = v :: rest := hs
      refine follows_branch ?_ ⟨rfl, rfl, rfl⟩ ⟨rfl, rfl, rfl⟩
      simp only [AbstractState.depth, hs, List.length_cons]
      rfl
    | jumpIfNotExcMatch target =>
      obtain ⟨s₁, hd, rfl⟩ := map_eq_ok.mp h
      obtain ⟨hle, rfl⟩ := AbstractState.dropMany_eq_ok hd
      refine follows_branch ?_ ⟨rfl, rfl, rfl⟩ ⟨rfl, rfl, rfl⟩
      simp only [AbstractState.depth, List.length_drop] at hle ⊢
      exact if_pos hle
    | returnValue =>
      obtain ⟨⟨v, s₁⟩, hp, rfl⟩ := map_eq_ok.mp h
      obtain ⟨rest, hs, rfl⟩ := AbstractState.pop_eq_ok hp
      replace hs : s.stack = v :: rest := hs
      refine follows_exit ?_
      simp only [AbstractState.depth, hs, List.length_cons]
      rfl
    | reraise lasti =>
      obtain ⟨s₁, hd, rfl⟩ := map_eq_ok.mp h
      exact follows_exit (if_pos (AbstractState.dropMany_eq_ok hd).1)
    | raiseVarargs n =>
      obtain ⟨s₁, hd, rfl⟩ := map_eq_ok.mp h
      exact follows_exit (if_pos (AbstractState.dropMany_eq_ok hd).1)
    | setupFinally hd k r => exact openBlock_follows h
    | setupWith hd => exact enterWith_follows h
    | popBlock => exact closeBlock_follows h
    | popExcept => exact leaveHandler_follows h
    | delegate state exit =>
      obtain ⟨⟨v, s₁⟩, hp, h⟩ := bind_eq_ok.mp h
      obtain ⟨⟨w, s₂⟩, hq, h⟩ := bind_eq_ok.mp h
      obtain ⟨rest, hs, rfl⟩ := AbstractState.pop_eq_ok hp
      replace hs : s.stack = v :: rest := hs
      obtain ⟨rest', hs', rfl⟩ := AbstractState.pop_eq_ok hq
      cases h
      refine follows_branch ?_ ⟨rfl, rfl, rfl⟩ ⟨rfl, rfl, rfl⟩
      have hr : rest = w :: rest' := hs'
      simp only [AbstractState.depth, AbstractState.push, hs, hr, List.length_cons]
      rfl
    | _ => cases ha

/-- **States of one form go on to states of one form.** -/
theorem effect_sameForm {ty : Typer} {op : Op} {s₁ s₂ : AbstractState} {t₁ t₂ : Transfer}
    (hf : s₁.SameForm s₂) (h₁ : effect ty o s₁ op = .ok t₁) (h₂ : effect ty o s₂ op = .ok t₂) :
    t₁.map formOf = t₂.map formOf := by
  have hm := (effect_follows h₁).1
  rw [hf.depth, hf.blocks, (effect_follows h₂).1] at hm
  exact (Option.some.inj hm).symm

/-- An operation that does not end a block goes on to the next one and nowhere else. -/
theorem effect_onward {ty : Typer} {op : Op} (he : FlowGraph.endsBlock op = false)
    (h : effect ty o s op = .ok t) : ∃ s', t = [(.next, s')] := by
  have hone : ∃ w, op.moves s.depth s.blocks = some [(.next, w)] := by
    have hm := (effect_follows h).1
    cases ha : op.arity? with
    | some a =>
      rw [moves_of_arity ha] at hm ⊢
      split at hm
      · rename_i hle
        exact ⟨_, if_pos hle⟩
      · cases hm
    | none =>
      cases op with
      | popBlock =>
        simp only [moves] at hm ⊢
        split at hm
        · exact ⟨_, rfl⟩
        · cases hm
      | popExcept =>
        simp only [moves] at hm ⊢
        split at hm
        · split at hm
          · rename_i hle
            exact ⟨_, if_pos hle⟩
          · cases hm
        · cases hm
      | forIter _ | jump _ | popJumpIf _ _ | jumpIfOrPop _ _ | jumpIfNotExcMatch _ | returnValue
      | reraise _ | raiseVarargs _ | setupFinally _ _ _ | setupWith _ | delegate _ _ => cases he
      | _ => cases ha
  obtain ⟨w, hw⟩ := hone
  have hlist := Option.some.inj (hw.symm.trans (effect_follows h).1)
  match t, hlist with
  | [(succ, s')], hlist =>
    simp only [List.map_cons, List.map_nil, formOf, List.cons.injEq, Prod.mk.injEq, and_true] at hlist
    exact ⟨s', by rw [← hlist.1]⟩

end Op

/-! ## 5. Exceptions -/

namespace AbstractState

theorem unwind?_congr {s s' : AbstractState} (h : s.blocks = s'.blocks) : s.unwind? = s'.unwind? := by
  rw [unwind?, unwind?, h]

/-- A handler starts with six slots above the level of its block, inside the blocks around it. -/
theorem exceptionState?_eq_ok {s e : AbstractState} {o h : Nat}
    (he : s.exceptionState? o = .ok (some (h, e))) :
    ∃ u, s.unwind? = some u ∧ u.handler = h ∧ u.level ≤ s.depth ∧ e.depth = u.level + 6
      ∧ e.blocks = .handling u.level :: outerBlocks s.blocks ∧ Op.Carries s e := by
  unfold exceptionState? at he
  split at he
  · cases he
  · rename_i u hu
    obtain ⟨cut, hc, he⟩ := bind_eq_ok.mp he
    cases he
    obtain ⟨hle, hd, hcut⟩ := truncate_eq_ok hc
    refine ⟨u, hu, rfl, hle, ?_, ?_, ?_⟩
    · simp only [depth, enterHandler, List.length_append] at hd ⊢
      rw [hd, show exceptionSlots.length = 6 from rfl, Nat.add_comm]
    · rw [enterHandler, hcut]
    · rw [enterHandler, hcut]
      exact ⟨rfl, rfl, rfl⟩

theorem exceptionState?_eq_none {s : AbstractState} {o : Nat}
    (he : s.exceptionState? o = .ok none) : s.unwind? = none := by
  unfold exceptionState? at he
  split at he
  · assumption
  · obtain ⟨cut, -, he⟩ := bind_eq_ok.mp he
    cases he

end AbstractState

end Stackwise
