import Stackwise.Analysis.Lowering
import Stackwise.Proofs.Analysis.Applicable
import Stackwise.Proofs.Types.Overloads

/-!
# Foretold results

The lowering of an operation and its effect on a state resolve the same names, and each finds the
operands in its own way: the lowering looks at the state, the effect takes the slots off the stack.
They tell one story.

* `Typer.resolveMethod_accepts`, `Typer.resolveCall_cases`: what a resolved method and a resolved
  call are;
* `Op.mapTop_eq_ok`, `Op.mapTwo_eq_ok`, `Op.call_eq_ok`, `Op.callMethodSlots_eq_ok`: what an effect
  leaves, said by the slots that lay on the stack;
* `Lowering.Foretells`: what a lowering says of the slots that are taken and of the one that is put;
* `Op.effect_foretold`: it is so.
-/

namespace Stackwise

/-! ## 1. Resolved methods -/

namespace Typer

variable {ty : Typer} {res : Resolved} {args : List Slot}

theorem resolveMethod_accepts {receiver : TypeId} {name : String} {keywords : List String}
    (h : ty.resolveMethod receiver name args keywords = some res) :
    res.name = name ∧ res.signature ∈ ty.model.lookupMethod receiver name
      ∧ ty.model.Accepts res.signature (args.map Slot.runtimeType) keywords := by
  unfold resolveMethod at h
  split at h
  · obtain ⟨s, hs, rfl⟩ := Option.map_eq_some_iff.mp h
    exact ⟨rfl, TypeModel.resolveOverload_accepts hs⟩
  · cases h

/-- A call makes an instance of a class, or runs a method that was looked up before. -/
theorem resolveCall_cases (ty : Typer) (callee : Slot) (args : List Slot) (keywords : List String) :
    (∃ t, callee = .classObject t ∧ ty.resolveCall callee args keywords = .construct t)
      ∨ (∃ receiver name res, callee = .method receiver name
        ∧ ty.resolveMethod receiver name args keywords = some res
        ∧ ty.resolveCall callee args keywords = .method res)
      ∨ ty.resolveCall callee args keywords = .dynamic := by
  unfold resolveCall
  split
  · cases callee with
    | value t => exact .inr (.inr rfl)
    | classObject t =>
      by_cases ht : t = TypeId.type
      · exact .inr (.inr (if_pos ht))
      · exact .inl ⟨t, rfl, if_neg ht⟩
    | method receiver name =>
      dsimp only
      cases hres : ty.resolveMethod receiver name args keywords with
      | none => exact .inr (.inr rfl)
      | some res => exact .inr (.inl ⟨receiver, name, res, rfl, hres, rfl⟩)
  · exact .inr (.inr rfl)

theorem constSlot_eq_value (ty : Typer) (i : Nat) : ∃ t, ty.constSlot i = .value t := by
  unfold constSlot
  split
  · exact ⟨_, rfl⟩
  · exact ⟨.object, rfl⟩

end Typer

/-! ## 2. What effects leave -/

namespace AbstractState

variable {s s' : AbstractState} {n o : Nat}

theorem popMany_taken {vs : List Slot} (h : s.popMany n o = .ok (vs, s')) :
    vs = (s.stack.take n).reverse := by
  unfold popMany at h
  split at h
  · cases h
    rfl
  · cases h

end AbstractState

namespace Op

variable {ty : Typer} {s : AbstractState} {t : Transfer} {o : Nat}

theorem mapTop_eq_ok {f : Slot → Slot} (h : mapTop f o s = .ok t) :
    ∃ v rest, s.stack = v :: rest ∧ t = goOn { s with stack := f v :: rest } := by
  obtain ⟨⟨v, s₁⟩, hp, rfl⟩ := map_eq_ok.mp h
  obtain ⟨rest, hs, rfl⟩ := AbstractState.pop_eq_ok hp
  exact ⟨v, rest, hs, rfl⟩

theorem mapTwo_eq_ok {f : Slot → Slot → Slot} (h : mapTwo f o s = .ok t) :
    ∃ r l rest, s.stack = r :: l :: rest ∧ t = goOn { s with stack := f l r :: rest } := by
  obtain ⟨⟨r, s₁⟩, hr, h⟩ := bind_eq_ok.mp h
  obtain ⟨⟨l, s₂⟩, hl, h⟩ := bind_eq_ok.mp h
  obtain ⟨rest₁, hs₁, rfl⟩ := AbstractState.pop_eq_ok hr
  obtain ⟨rest₂, hs₂, rfl⟩ := AbstractState.pop_eq_ok hl
  cases h
  have hs : s.stack = r :: l :: rest₂ := by rw [hs₁, show rest₁ = l :: rest₂ from hs₂]
  exact ⟨r, l, rest₂, hs, rfl⟩

theorem call_eq_ok {argc : Nat} (h : call ty argc o s = .ok t) :
    ∃ callee, s.stack[argc]? = some callee
      ∧ t = goOn ({ s with stack := s.stack.drop (argc + 1) }.push
        (ty.resolveCall callee (s.stack.take argc).reverse []).result) := by
  obtain ⟨⟨args, s₁⟩, ha, h⟩ := bind_eq_ok.mp h
  obtain ⟨⟨callee, s₂⟩, hc, h⟩ := bind_eq_ok.mp h
  obtain rfl := AbstractState.popMany_taken ha
  obtain ⟨-, rfl⟩ := AbstractState.popMany_eq_ok ha
  obtain ⟨rest, hs, rfl⟩ := AbstractState.pop_eq_ok hc
  cases h
  have hcallee : s.stack[argc]? = some callee := by
    have hhead := congrArg List.head? hs
    simpa using hhead
  have hrest : s.stack.drop (argc + 1) = rest := by
    have htail := congrArg List.tail hs
    simpa using htail
  exact ⟨callee, hcallee, by rw [hrest]⟩

theorem callMethodSlots_eq_ok {argc : Nat} (h : callMethodSlots ty argc o s = .ok t) :
    ∃ callee, s.stack[argc + 1]? = some callee
      ∧ t = goOn ({ s with stack := s.stack.drop (argc + 2) }.push
        (ty.resolveCall callee (s.stack.take argc).reverse []).result) := by
  obtain ⟨⟨args, s₁⟩, ha, h⟩ := bind_eq_ok.mp h
  obtain ⟨⟨receiver, s₂⟩, hr, h⟩ := bind_eq_ok.mp h
  obtain ⟨⟨callee, s₃⟩, hc, h⟩ := bind_eq_ok.mp h
  obtain rfl := AbstractState.popMany_taken ha
  obtain ⟨-, rfl⟩ := AbstractState.popMany_eq_ok ha
  obtain ⟨rest₁, hs₁, rfl⟩ := AbstractState.pop_eq_ok hr
  obtain ⟨rest₂, hs₂, rfl⟩ := AbstractState.pop_eq_ok hc
  cases h
  have hs : s.stack.drop argc = receiver :: callee :: rest₂ := by
    rw [show s.stack.drop argc = receiver :: rest₁ from hs₁,
      show rest₁ = callee :: rest₂ from hs₂]
  have hcallee : s.stack[argc + 1]? = some callee := by
    have hsecond := congrArg (fun l => l[1]?) hs
    simpa using hsecond
  have hrest : s.stack.drop (argc + 2) = rest₂ := by
    have hbehind := congrArg (List.drop 2) hs
    simpa using hbehind
  exact ⟨callee, hcallee, by rw [hrest]⟩

end Op

/-! ## 3. What a lowering says -/

/-- What a lowering says of the callee, of the operands or arguments, lowest first, and of the slot
that is put in their place. -/
def Lowering.Foretells (m : TypeModel) (callee? : Option Slot) (operands : List Slot)
    (pushed : Slot) : Lowering → Prop
  | .specialized types result => types = operands.map Slot.runtimeType ∧ pushed = .value result
  | .directCall owner name signature =>
    (∃ receiver, callee? = some (.method receiver name)
        ∧ signature ∈ m.lookupMethod receiver name)
      ∧ signature.owner = owner ∧ m.Accepts signature (operands.map Slot.runtimeType) []
      ∧ pushed = .value signature.returns
  | .dynamic => pushed = .object
  | _ => False

namespace Op

variable {ty : Typer} {s : AbstractState} {t : Transfer} {o : Nat} {callee? : Option Slot}

/-- How many slots are the operands of an operator, or the arguments of a call. -/
def operandCount? : Op → Option Nat
  | .loadConst _ => some 0
  | .unary _ => some 1
  | .binary _ _ | .compare _ | .binarySubscr | .isOp _ => some 2
  | .callFunction argc | .callMethod argc => some argc
  | _ => none

theorem lowerResolved_foretells (m : TypeModel) (callee? : Option Slot) (n : Nat)
    (found : Option Resolved) : (lowerResolved s n found).Foretells m callee?
      (s.stack.take n).reverse (Resolved.resultOf found) := by
  cases found with
  | none => rfl
  | some res => exact ⟨rfl, rfl⟩

/-- An operator on one slot looks at the one that its effect takes. -/
theorem mapTop_foretold {resolve : Slot → Option Resolved}
    (h : mapTop (fun v => Resolved.resultOf (resolve v)) o s = .ok t) (m : TypeModel)
    (callee? : Option Slot) :
    ∃ pushed, 1 ≤ s.depth ∧ t = goOn { s with stack := pushed :: s.stack.drop 1 }
      ∧ (match s.stack with
        | v :: _ => lowerResolved s 1 (resolve v)
        | [] => .dynamic).Foretells m callee? (s.stack.take 1).reverse pushed := by
  obtain ⟨v, rest, hs, rfl⟩ := mapTop_eq_ok h
  refine ⟨Resolved.resultOf (resolve v), by simp [AbstractState.depth, hs], by rw [hs]; rfl, ?_⟩
  have hforetells := lowerResolved_foretells (s := s) m callee? 1 (resolve v)
  rw [hs] at hforetells ⊢
  exact hforetells

/-- An operator on two slots looks at the two that its effect takes. -/
theorem mapTwo_foretold {resolve : Slot → Slot → Option Resolved}
    (h : mapTwo (fun l r => Resolved.resultOf (resolve l r)) o s = .ok t) (m : TypeModel)
    (callee? : Option Slot) :
    ∃ pushed, 2 ≤ s.depth ∧ t = goOn { s with stack := pushed :: s.stack.drop 2 }
      ∧ (lowerTwo s resolve).Foretells m callee? (s.stack.take 2).reverse pushed := by
  obtain ⟨r, l, rest, hs, rfl⟩ := mapTwo_eq_ok h
  have hlower : lowerTwo s resolve = lowerResolved s 2 (resolve l r) := by
    rw [lowerTwo, hs]
  refine ⟨Resolved.resultOf (resolve l r), by simp [AbstractState.depth, hs], by rw [hs]; rfl, ?_⟩
  rw [hlower]
  exact lowerResolved_foretells m callee? 2 _

theorem lowerCall_foretells {argc : Nat} (under : Nat) {callee : Slot}
    (hcallee : s.stack[argc + under]? = some callee) :
    (lowerCall ty s argc under).Foretells ty.model s.stack[argc + under]?
      (s.stack.take argc).reverse
      (ty.resolveCall callee (s.stack.take argc).reverse []).result := by
  rw [lowerCall, hcallee]
  dsimp only
  rcases ty.resolveCall_cases callee (s.stack.take argc).reverse [] with
    ⟨c, -, hcall⟩ | ⟨receiver, name, res, rfl, hres, hcall⟩ | hcall
  · rw [hcall]
    exact ⟨rfl, rfl⟩
  · rw [hcall]
    obtain ⟨rfl, hmem, haccepts⟩ := Typer.resolveMethod_accepts hres
    exact ⟨⟨receiver, rfl, hmem⟩, rfl, haccepts, rfl⟩
  · rw [hcall]
    rfl

/-- **Lowering and effect tell the same story.** Where an operator, a call or a constant has an
effect, what it takes off the stack is replaced by one slot. A specialised lowering names the
run-time types of the operands and of this slot; a direct call is one of the method that the callee
is, by an overload that accepts the arguments, and the slot is an instance of what this overload
returns; and nothing is known of the slot if the lowering is dynamic. No other lowering is chosen. -/
theorem effect_foretold {op : Op} {count : Nat} (hcount : op.operandCount? = some count)
    (h : op.effect ty o s = .ok t) (returns : TypeId) :
    ∃ taken pushed s', op.arity? = some (taken, 1) ∧ taken ≤ s.depth ∧ t = goOn s'
      ∧ s'.stack = pushed :: s.stack.drop taken
      ∧ (op.lowering ty s returns).Foretells ty.model s.stack[taken - 1]?
        (s.stack.take count).reverse pushed := by
  unfold effect at h
  cases op with
  | loadConst i =>
    cases hcount
    cases h
    obtain ⟨c, hc⟩ := ty.constSlot_eq_value i
    refine ⟨0, ty.constSlot i, _, rfl, Nat.zero_le _, rfl, rfl, rfl, ?_⟩
    show ty.constSlot i = .value (ty.constSlot i).runtimeType
    rw [hc]
    rfl
  | unary op =>
    cases hcount
    cases op with
    | not =>
      obtain ⟨v, rest, hs, rfl⟩ := mapTop_eq_ok h
      replace hs : s.stack = v :: rest := hs
      exact ⟨1, .value .bool, _, rfl, by simp [AbstractState.depth, hs], rfl, by rw [hs]; rfl,
        rfl, rfl⟩
    | negative | positive | invert =>
      obtain ⟨pushed, hdepth, rfl, hforetells⟩ := mapTop_foretold h ty.model s.stack[0]?
      exact ⟨1, pushed, _, rfl, hdepth, rfl, rfl, hforetells⟩
  | binary op inplace =>
    cases hcount
    obtain ⟨pushed, hdepth, rfl, hforetells⟩ := mapTwo_foretold h ty.model s.stack[1]?
    exact ⟨2, pushed, _, rfl, hdepth, rfl, rfl, hforetells⟩
  | compare op =>
    cases hcount
    obtain ⟨pushed, hdepth, rfl, hforetells⟩ := mapTwo_foretold h ty.model s.stack[1]?
    exact ⟨2, pushed, _, rfl, hdepth, rfl, rfl, hforetells⟩
  | binarySubscr =>
    cases hcount
    obtain ⟨pushed, hdepth, rfl, hforetells⟩ := mapTwo_foretold h ty.model s.stack[1]?
    exact ⟨2, pushed, _, rfl, hdepth, rfl, rfl, hforetells⟩
  | isOp _ =>
    cases hcount
    obtain ⟨s', hdrop, rfl⟩ := map_eq_ok.mp h
    obtain ⟨hdepth, rfl⟩ := AbstractState.dropMany_eq_ok hdrop
    exact ⟨2, .value .bool, _, rfl, hdepth, rfl, rfl, rfl, rfl⟩
  | callFunction argc =>
    cases hcount
    obtain ⟨callee, hcallee, rfl⟩ := call_eq_ok h
    exact ⟨_, _, _, rfl, (List.getElem?_eq_some_iff.mp hcallee).1, rfl, rfl,
      lowerCall_foretells 0 hcallee⟩
  | callMethod argc =>
    cases hcount
    obtain ⟨callee, hcallee, rfl⟩ := callMethodSlots_eq_ok h
    exact ⟨_, _, _, rfl, (List.getElem?_eq_some_iff.mp hcallee).1, rfl, rfl,
      lowerCall_foretells 1 hcallee⟩
  | _ => cases hcount

/-- A list, its method that looks for an item, and the item. -/
def searching : AbstractState :=
  { AbstractState.entry [] 0 with
    stack := [.value .int, .value .list, .method .list "index"] }

theorem effect_foretold_searching : ∃ (t : Transfer) (signature : Signature),
    operandCount? (.callMethod 1) = some 1
      ∧ effect ⟨.withBuiltins, [], {}⟩ 0 searching (.callMethod 1) = .ok t
      ∧ lowering ⟨.withBuiltins, [], {}⟩ searching .object (.callMethod 1)
        = .directCall .list "index" signature
      ∧ TypeModel.withBuiltins.Accepts signature [.int] []
      ∧ ∃ s', t = goOn s' ∧ s'.stack = [.value signature.returns] := by
  obtain ⟨t, ht⟩ : ∃ t, effect ⟨.withBuiltins, [], {}⟩ 0 searching (.callMethod 1) = .ok t :=
    exists_effect_of_arity rfl trivial (by decide)
  let signature : Signature := { owner := .list, params := [.object], returns := .int }
  have hlower : lowering ⟨.withBuiltins, [], {}⟩ searching .object (.callMethod 1)
      = .directCall .list "index" signature := by
    decide +kernel
  obtain ⟨taken, pushed, s', htaken, -, hgo, hstack, hforetells⟩ := effect_foretold rfl ht .object
  cases htaken
  rw [hlower] at hforetells
  obtain ⟨-, -, haccepts, rfl⟩ := hforetells
  exact ⟨t, signature, rfl, ht, hlower, haccepts, s', hgo, hstack⟩

end Op

end Stackwise
