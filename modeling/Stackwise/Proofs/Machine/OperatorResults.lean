import Stackwise.Proofs.Machine.Typing
import Stackwise.Proofs.Machine.Words

/-!
# Results of operators

The type of what an operator gives is known from the types of its operands, unless it is a power or a
host object answers it.

* `UnaryOp.resultType?`, `BinaryOp.resultType?`, `itemType?`, `iterType?`: these types.
* `unary_gives`, `binary_gives`, `compare_gives`, `getItem_gives`, `iter_gives`: the machine keeps to
  them.
-/

namespace Stackwise

/-! ## 1. Types of results -/

namespace Value

/-- Host objects answer operators by themselves. -/
def isHost : Value → Bool
  | .native _ _ => true
  | _ => false

/-- Host objects and exceptions can be of any type. -/
def isForeign : Value → Bool
  | .native _ _ | .exception _ _ => true
  | _ => false

/-- The types of all other values. -/
def types : List TypeId := [
  .none, .object, .bool, .int, .float, .str, .bytes, .tuple, .list, .dict, .set, .slice, .range,
  .iterator, .type, .traceback, .function, .method, .generator, .cell, .code]

theorem type_mem {v : Value} (h : v.isForeign = false) : v.type ∈ types := by
  cases v with
  | native _ _ | exception _ _ => cases h
  | _ => simp [types, type]

theorem isHost_of_isForeign {v : Value} (h : v.isForeign = false) : v.isHost = false := by
  cases v with
  | native _ _ => cases h
  | _ => rfl

end Value

namespace TypeId

/-- Integers and truth values. -/
def isInt (t : TypeId) : Bool := t == .int || t == .bool

/-- Integers, truth values and floats. -/
def isNumber (t : TypeId) : Bool := t.isInt || t == .float

/-- The sequences that can be repeated. -/
def isSequence (t : TypeId) : Bool := t == .str || t == .tuple || t == .list

end TypeId

/-- The type of a unary operator's result; nothing where there is none. Tests of truth are left out. -/
def UnaryOp.resultType? (_ : UnaryOp) (t : TypeId) : Option TypeId :=
  if t.isInt then some .int else if t == .float then some .float else none

/-- The type of a binary operator's result on numbers. Powers are left out. -/
def BinaryOp.numberType (op : BinaryOp) (l r : TypeId) : TypeId :=
  if l == .bool && r == .bool && (op == .and || op == .or || op == .xor) then .bool
  else if l.isInt && r.isInt && op != .trueDivide then .int
  else .float

/-- The type of a binary operator's result on sequences and collections. -/
def BinaryOp.collectionType? (op : BinaryOp) (inplace : Bool) (l r : TypeId) : Option TypeId :=
  match op with
  | .add =>
    if l == .list && (inplace || r == .list) then some .list
    else if l == r && (l == .str || l == .bytes || l == .tuple) then some l
    else none
  | .multiply =>
    if l.isInt && r.isSequence then some r
    else if l.isSequence && r.isInt then some l
    else none
  | .modulo => if l == .str then some .str else none
  | .or => if l == r && (l == .dict || l == .set) then some l else none
  | .and | .subtract | .xor => if l == .set && r == .set then some .set else none
  | _ => none

/-- The type of a binary operator's result; nothing where there is none. -/
def BinaryOp.resultType? (op : BinaryOp) (inplace : Bool) (l r : TypeId) : Option TypeId :=
  if l.isNumber && r.isNumber then some (op.numberType l r) else op.collectionType? inplace l r

/-- The type of the items of a container under keys of a type. -/
def itemType? (container key : TypeId) : Option TypeId :=
  if container == .str then some .str
  else if container == .bytes || container == .range then some .int
  else if container == .tuple || container == .list then
    some (if key == .slice then container else .object)
  else if container == .dict then some .object
  else none

/-- The type of the iterator over a value. -/
def iterType? (t : TypeId) : Option TypeId :=
  if t == .iterator || t == .generator then some t
  else if [.list, .tuple, .str, .bytes, .set, .dict, .range].contains t then some .iterator
  else none

namespace Machine

variable {m : TypeModel}

/-- What the action gives is of the type. -/
def Gives (m : TypeModel) (act : Action Value) (t? : Option TypeId) : Prop :=
  Yields m act fun v => ∃ t ∈ t?, m.isSubtype v.type t = true

theorem hook?_eq {v : Value} (h : v.isHost = false) (name : String) (args : List Value) :
    hook? v name args = pure none := by
  cases v with
  | native _ _ => cases h
  | _ => rfl

/-! ## 2. What the machine computes -/

theorem number_cases {v : Value} {x : Double} (h : v.asDouble? = some x) :
    (∃ b, v = .bool b) ∨ (∃ n, v = .int n) ∨ v = .float x := by
  unfold Value.asDouble? at h
  split at h
  · exact .inl ⟨_, rfl⟩
  · exact .inr (.inl ⟨_, rfl⟩)
  · cases h
    exact .inr (.inr rfl)
  · cases h

theorem integer_cases {v : Value} {n : Int64} (h : v.asInt? = some n) :
    (∃ b, v = .bool b) ∨ v = .int n := by
  unfold Value.asInt? at h
  split at h
  · exact .inl ⟨_, rfl⟩
  · cases h
    exact .inr rfl
  · cases h

theorem arith_eq_ok {α : Type} {x : Except ArithError α} {v : α} {ctx : Context} {s s' : Store}
    (h : arith x ctx s = .ok v s') : x = .ok v := by
  cases x with
  | ok w =>
    cases h
    rfl
  | error e => cases h

theorem unary_gives {op : UnaryOp} (hop : op ≠ .not) {v : Value} (hv : v.isHost = false) :
    Gives m (unary op v) (op.resultType? v.type) := by
  intro ctx _ st x st' h
  have hnegated : ∀ {n : Int64}, (do return number (← arith (Integer.negate n)) : Action Value) ctx st
      = .ok x st' → x.type = .int := by
    intro n h
    obtain ⟨number, s₁, hn, h⟩ := run_bind_eq_ok.mp h
    obtain ⟨w, rfl, -⟩ := Integer.exact_eq_ok (arith_eq_ok hn)
    cases h
    rfl
  cases v with
  | native _ _ => cases hv
  | float y =>
    refine ⟨.float, rfl, ?_⟩
    cases op with
    | not => exact absurd rfl hop
    | positive | negative =>
      cases h
      exact m.isSubtype_refl _
    | invert => cases h
  | int n | bool b =>
    refine ⟨.int, rfl, ?_⟩
    cases op with
    | not => exact absurd rfl hop
    | positive | invert =>
      cases h
      exact m.isSubtype_refl _
    | negative =>
      rw [hnegated h]
      exact m.isSubtype_refl _
  | _ =>
    cases op with
    | not => exact absurd rfl hop
    | positive | negative | invert => cases h

/-- Integers give integers, but for quotients and powers. -/
theorem integer_type {op : BinaryOp} (hop : op ≠ .power) {a b : Int64} {x : Number}
    (h : Integer.binary op a b = .ok x) :
    (number x).type = if op != .trueDivide then .int else .float := by
  have hchecked : ∀ {w? : Option Int64}, Integer.checked w? = .ok x → (number x).type = .int := by
    intro w? h
    obtain ⟨w, -, rfl⟩ := Integer.checked_eq_ok h
    rfl
  cases op with
  | power => exact absurd rfl hop
  | matrixMultiply => cases h
  | add | subtract | multiply => exact hchecked h
  | and | or | xor =>
    cases h
    rfl
  | trueDivide =>
    unfold Integer.binary at h
    dsimp only at h
    split at h
    · cases h
    · cases h
      rfl
  | floorDivide | modulo | lshift =>
    unfold Integer.binary at h
    dsimp only at h
    split at h
    · cases h
    · exact hchecked h
  | rshift =>
    unfold Integer.binary at h
    dsimp only at h
    split at h
    · cases h
    · cases h
      rfl

theorem numeric_type {op : BinaryOp} (hop : op ≠ .power) {l r x : Value}
    (h : numeric? op l r = .ok (some x)) :
    (l.type.isNumber && r.type.isNumber) = true ∧ x.type = op.numberType l.type r.type := by
  have hintegers : ∀ {a b : Int64}, (Integer.binary op a b).map (fun n => some (number n))
      = .ok (some x) → x.type = if op != .trueDivide then .int else .float := by
    intro a b h
    obtain ⟨n, hn, hx⟩ := map_eq_ok.mp h
    cases hx
    exact integer_type hop hn
  have hfloats : ∀ {a b : Double}, (Real.binary op a b).map (fun x => x.map Value.float)
      = .ok (some x) → x.type = .float := by
    intro a b h
    obtain ⟨y, -, hx⟩ := map_eq_ok.mp h
    obtain ⟨z, -, rfl⟩ := Option.map_eq_some_iff.mp hx
    rfl
  unfold numeric? at h
  extract_lets plain at h
  split at h
  · rename_i a b
    refine ⟨rfl, ?_⟩
    cases hc : boolBinary? op a b with
    | some c =>
      rw [hc] at h
      cases h
      cases op <;> first | rfl | cases hc
    | none =>
      rw [hc] at h
      rw [hintegers h]
      cases op <;> first | rfl | cases hc
  · rename_i hbools
    simp only [plain] at h
    split at h
    · rename_i a b ha hb
      rw [hintegers h]
      rcases integer_cases ha with ⟨p, rfl⟩ | rfl
      · rcases integer_cases hb with ⟨q, rfl⟩ | rfl
        · exact absurd rfl (hbools p q rfl)
        · exact ⟨rfl, rfl⟩
      · rcases integer_cases hb with ⟨q, rfl⟩ | rfl
        · exact ⟨rfl, rfl⟩
        · exact ⟨rfl, rfl⟩
    · rename_i hints
      split at h
      · rename_i a b ha hb
        rw [hfloats h]
        rcases number_cases ha with ⟨p, rfl⟩ | ⟨n, rfl⟩ | rfl
        · rcases number_cases hb with ⟨q, rfl⟩ | ⟨k, rfl⟩ | rfl
          · exact absurd rfl (hints _ _ rfl)
          · exact absurd rfl (hints _ _ rfl)
          · exact ⟨rfl, rfl⟩
        · rcases number_cases hb with ⟨q, rfl⟩ | ⟨k, rfl⟩ | rfl
          · exact absurd rfl (hints _ _ rfl)
          · exact absurd rfl (hints _ _ rfl)
          · exact ⟨rfl, rfl⟩
        · rcases number_cases hb with ⟨q, rfl⟩ | ⟨k, rfl⟩ | rfl
          · exact ⟨rfl, rfl⟩
          · exact ⟨rfl, rfl⟩
          · exact ⟨rfl, rfl⟩
      · cases h

theorem not_isNumber_of_isSequence {t : TypeId} (h : t.isSequence = true) :
    t.isNumber = false ∧ t.isInt = false := by
  simp only [TypeId.isSequence, Bool.or_eq_true, beq_iff_eq] at h
  rcases h with (rfl | rfl) | rfl
  · exact ⟨rfl, rfl⟩
  · exact ⟨rfl, rfl⟩
  · exact ⟨rfl, rfl⟩

/-- A product of a sequence and a count is such a sequence. -/
theorem sequenceProduct_type {l r x : Value} {inplace : Bool} {ctx : Context} {st st' : Store}
    (h : sequenceProduct? l r inplace ctx st = .ok (some x) st') :
    l.type.isSequence = true ∧ r.type.isInt = true ∧ x.type = l.type := by
  unfold sequenceProduct? at h
  split at h
  · cases hn : r.asInt? with
    | some n =>
      rw [hn] at h
      cases h
      rcases integer_cases hn with ⟨b, rfl⟩ | rfl
      · exact ⟨rfl, rfl, rfl⟩
      · exact ⟨rfl, rfl, rfl⟩
    | none =>
      rw [hn] at h
      cases h
  · cases h
    exact ⟨rfl, rfl, rfl⟩
  · obtain ⟨items, s₁, -, h⟩ := run_bind_eq_ok.mp h
    split at h
    · cases h
      exact ⟨rfl, rfl, rfl⟩
    · cases h
      exact ⟨rfl, rfl, rfl⟩
  · cases h

theorem sequence_type {op : BinaryOp} {l r x : Value} {inplace : Bool} {ctx : Context}
    {st st' : Store} (h : sequence? op l r inplace ctx st = .ok (some x) st') :
    op.resultType? inplace l.type r.type = some x.type := by
  unfold sequence? at h
  split at h
  · cases h
    rfl
  · cases h
    rfl
  · cases h
    rfl
  · cases inplace with
    | true =>
      obtain ⟨more, s₁, -, h⟩ := run_bind_eq_ok.mp h
      cases h
      rfl
    | false =>
      cases r with
      | list b =>
        cases h
        rfl
      | _ => cases h
  · have hproduct : sequenceProduct? r l false ctx st = .ok (some x) st'
        ∨ sequenceProduct? l r inplace ctx st = .ok (some x) st' := by
      cases hn : l.asInt? with
      | none =>
        rw [hn] at h
        exact .inr h
      | some n =>
        rw [hn] at h
        cases r with
        | str _ _ | tuple _ _ | list _ => exact .inl h
        | _ => exact .inr h
    rcases hproduct with h | h
    · obtain ⟨hr, hl, hx⟩ := sequenceProduct_type h
      obtain ⟨hr', -⟩ := not_isNumber_of_isSequence hr
      rw [BinaryOp.resultType?, hr', Bool.and_false, if_neg Bool.false_ne_true, hx]
      exact if_pos (by rw [hl, hr]; rfl)
    · obtain ⟨hl, hr, hx⟩ := sequenceProduct_type h
      obtain ⟨hl', hint⟩ := not_isNumber_of_isSequence hl
      rw [BinaryOp.resultType?, hl', Bool.false_and, if_neg Bool.false_ne_true, hx]
      exact (if_neg (by rw [hint]; exact Bool.false_ne_true)).trans (if_pos (by rw [hl, hr]; rfl))
  · obtain ⟨text, s₁, -, h⟩ := run_bind_eq_ok.mp h
    cases h
    rfl
  · cases inplace with
    | true =>
      cases h
      rfl
    | false =>
      cases h
      rfl
  · split at h
    · rename_i hop
      cases h
      cases op <;> first | rfl | cases hop
    · cases h
  · cases h

theorem nativeBinary_eq {op : BinaryOp} {l r : Value} {inplace : Bool} (hl : l.isHost = false)
    (hr : r.isHost = false) {ctx : Context} {st st' : Store} {x : Option Value}
    (h : nativeBinary? op l r inplace ctx st = .ok x st') : x = none := by
  obtain ⟨has, s₁, -, h⟩ := run_bind_eq_ok.mp h
  rw [hook?_eq hl, hook?_eq hr] at h
  cases h
  rfl

theorem binary_gives {op : BinaryOp} (hop : op ≠ .power) {l r : Value} (hl : l.isHost = false)
    (hr : r.isHost = false) (inplace : Bool) :
    Gives m (binary op l r inplace) (op.resultType? inplace l.type r.type) := by
  intro ctx _ st x st' h
  have hexact : op.resultType? inplace l.type r.type = some x.type →
      ∃ t ∈ op.resultType? inplace l.type r.type, m.isSubtype x.type t = true :=
    fun ht => ⟨x.type, ht, m.isSubtype_refl _⟩
  obtain ⟨first, s₁, hfirst, h⟩ := run_bind_eq_ok.mp h
  cases first with
  | some v =>
    cases h
    obtain ⟨hnumbers, hx⟩ := numeric_type hop (arith_eq_ok hfirst)
    exact hexact (by rw [BinaryOp.resultType?, if_pos hnumbers, hx])
  | none =>
    obtain ⟨second, s₂, hsecond, h⟩ := run_bind_eq_ok.mp h
    cases second with
    | some v =>
      cases h
      exact hexact (sequence_type hsecond)
    | none =>
      obtain ⟨third, s₃, hthird, h⟩ := run_bind_eq_ok.mp h
      obtain rfl := nativeBinary_eq hl hr hthird
      cases h

theorem compare_gives {op : Comparison} {l r : Value} (hl : l.isHost = false)
    (hr : r.isHost = false) : Gives m (compare op l r) (some .bool) := by
  intro ctx _ st x st' h
  obtain ⟨answer, s₁, hanswer, h⟩ := run_bind_eq_ok.mp h
  unfold nativeCompare? at hanswer
  rw [hook?_eq hl, hook?_eq hr] at hanswer
  cases hanswer
  suffices hx : ∃ b, x = .bool b by
    obtain ⟨b, rfl⟩ := hx
    exact ⟨.bool, rfl, m.isSubtype_refl _⟩
  cases op with
  | eq | ne =>
    cases h
    exact ⟨_, rfl⟩
  | _ =>
    obtain ⟨o, s₂, -, h⟩ := run_bind_eq_ok.mp h
    cases h
    exact ⟨_, rfl⟩

/-- Only integers are positions. -/
theorem itemAt_key {items : Array Value} {key x : Value} {kind what : String} {ctx : Context}
    {st st' : Store} (h : itemAt items key kind what ctx st = .ok x st') :
    (key.type == .slice) = false := by
  obtain ⟨n, s₁, hn, -⟩ := run_bind_eq_ok.mp h
  unfold intIndex at hn
  cases hk : key.asInt? with
  | none =>
    rw [hk] at hn
    cases hn
  | some k =>
    rcases integer_cases hk with ⟨b, rfl⟩ | rfl
    · rfl
    · rfl

theorem getItem_gives {container key : Value} (hc : container.isHost = false) :
    Gives m (getItem container key) (itemType? container.type key.type) := by
  intro ctx _ st x st' h
  have hany : ∀ {t : TypeId}, itemType? container.type key.type = some t →
      (t = .object ∨ x.type = t) → ∃ t ∈ itemType? container.type key.type,
        m.isSubtype x.type t = true := by
    intro t ht hx
    refine ⟨t, ht, ?_⟩
    rcases hx with rfl | rfl
    · exact TypeModel.isSubtype_iff.mpr (.inr (.inl rfl))
    · exact m.isSubtype_refl _
  unfold getItem at h
  split at h
  · obtain ⟨p, s₁, -, h⟩ := run_bind_eq_ok.mp h
    cases h
    exact hany rfl (.inr rfl)
  · obtain ⟨items, s₁, -, h⟩ := run_bind_eq_ok.mp h
    obtain ⟨p, s₂, -, h⟩ := run_bind_eq_ok.mp h
    cases h
    exact hany rfl (.inr rfl)
  · obtain ⟨p, s₁, -, h⟩ := run_bind_eq_ok.mp h
    cases h
    exact hany rfl (.inr rfl)
  · refine hany (t := .object) ?_ (.inl rfl)
    rw [itemType?, itemAt_key h]
    rfl
  · obtain ⟨items, s₁, -, h⟩ := run_bind_eq_ok.mp h
    refine hany (t := .object) ?_ (.inl rfl)
    rw [itemType?, itemAt_key h]
    rfl
  · obtain ⟨c, s₁, -, h⟩ := run_bind_eq_ok.mp h
    cases h
    exact hany rfl (.inr rfl)
  · obtain ⟨c, s₁, -, h⟩ := run_bind_eq_ok.mp h
    cases h
    exact hany rfl (.inr rfl)
  · rename_i p
    obtain ⟨i, s₁, -, h⟩ := run_bind_eq_ok.mp h
    cases hp : p.get? i with
    | some n =>
      rw [hp] at h
      cases h
      exact hany rfl (.inr rfl)
    | none =>
      rw [hp] at h
      cases h
  · exact hany rfl (.inl rfl)
  · rw [hook?_eq hc] at h
    cases h

theorem iter_gives {v : Value} (hv : v.isHost = false) : Gives m (iter v) (iterType? v.type) := by
  intro ctx _ st x st' h
  have hwalk : ∀ {c : Cursor} {s : Store}, make (Store.newIter c) ctx s = .ok x st' →
      m.isSubtype x.type .iterator = true := by
    intro c s h
    cases h
    exact m.isSubtype_refl _
  cases v with
  | native _ _ => cases hv
  | iter _ | generator _ =>
    cases h
    exact ⟨_, rfl, m.isSubtype_refl _⟩
  | list _ | tuple _ _ | bytes _ _ | set _ | dict _ | range _ => exact ⟨.iterator, rfl, hwalk h⟩
  | str _ t =>
    obtain ⟨chars, s₁, -, h⟩ := run_bind_eq_ok.mp h
    exact ⟨.iterator, rfl, hwalk h⟩
  | _ => cases h

end Machine

end Stackwise
