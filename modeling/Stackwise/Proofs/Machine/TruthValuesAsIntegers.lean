import Stackwise.Proofs.Machine.ImplementedMethods
import Stackwise.Proofs.Machine.KeyLists

/-!
# Truth values as integers

Truth values are integers, so a truth value is accepted wherever the table declares an integer. What
a program sees if it gives a truth value, and if it gives the integer that it equals.

* `Alike`: outcomes that a program tells apart by the class of a number or the text of an exception
  at most.
* `Usage`: the ways to give the argument of a declared method.
* `binary_truth`, `compare_truth`, `getItem_truth`, `setItem_truth`, `delItem_truth`: the operations
  that take integers.
* `Builtins.table_integers`: what the table declares with integers.
* `truth_values_work_as_integers`: outcomes are alike, but for products of tuples and lists.
* `product_refuses_truth`, `tuple_times_true`: these refuse truth values.
-/

namespace Stackwise

namespace Value

/-- A truth value as the integer that it equals. -/
def ofTruth (b : Bool) : Value := .int (if b then 1 else 0)

@[simp] theorem asInt?_truth (b : Bool) : (Value.bool b).asInt? = (ofTruth b).asInt? := rfl

theorem asDouble?_truth (b : Bool) : (Value.bool b).asDouble? = (ofTruth b).asDouble? := by
  cases b <;> rfl

theorem equal_truth (s : Store) (b : Bool) : s.equal (.bool b) (ofTruth b) = true := by
  rw [s.equal_of_hashable rfl]
  cases b <;> rfl

/-- Values that arithmetic operators know nothing but numbers of. -/
def isOperand : Value → Bool
  | .bool _ | .int _ | .float _ | .exception _ _ => true
  | _ => false

end Value

namespace Machine

open Value (ofTruth)

/-! ## 1. Outcomes -/

/-- Outcomes that differ by the class of a number or the text of an exception at most. -/
inductive Alike : EStateM.Result Fault Store Value → EStateM.Result Fault Store Value → Prop
  /-- The same outcome. -/
  | same (r : EStateM.Result Fault Store Value) : Alike r r
  /-- Equal values, and the same effects. -/
  | equal {x y : Value} {s : Store} (h : s.equal x y = true) : Alike (.ok x s) (.ok y s)
  /-- Exceptions of one class. -/
  | raised {e e' : Raised} {s s' : Store} (h : e.type = e'.type) :
    Alike (.error (.raised e) s) (.error (.raised e') s')

variable {α : Type} {ctx : Context} {s : Store} {v l r l' r' : Value}

theorem Alike.of_eq {x y : EStateM.Result Fault Store Value} (h : x = y) : Alike x y :=
  h ▸ .same x

theorem alike_bind {x : Action α} {f g : α → Action Value}
    (h : ∀ a s, Alike (f a ctx s) (g a ctx s)) : Alike ((x >>= f) ctx s) ((x >>= g) ctx s) := by
  rw [run_bind, run_bind]
  cases x ctx s with
  | ok a s => exact h a s
  | error e s => exact .same _

/-! ## 2. Operators -/

/-- The operators that truth values keep among themselves are those of the integers. -/
theorem integerBinary_truth {op : BinaryOp} {a b c : Bool} (h : boolBinary? op a b = some c) :
    (Integer.binary op (if a then 1 else 0) (if b then 1 else 0)).map (fun n => some (number n))
      = .ok (some (ofTruth c)) := by
  cases op with
  | and | or | xor =>
    cases h
    cases a <;> cases b <;> rfl
  | _ => cases h

/-- A number as the right operand: only truth values among themselves make a difference. -/
theorem numeric?_truth_right (op : BinaryOp) (l : Value) (b : Bool) :
    numeric? op l (.bool b) = numeric? op l (ofTruth b)
      ∨ ∃ c, numeric? op l (.bool b) = .ok (some (.bool c))
        ∧ numeric? op l (ofTruth b) = .ok (some (ofTruth c)) := by
  cases l with
  | bool a =>
    cases hc : boolBinary? op a b with
    | some c =>
      refine .inr ⟨c, ?_, integerBinary_truth hc⟩
      rw [numeric?, hc]
    | none =>
      left
      rw [numeric?, hc]
      rfl
  | float x =>
    left
    simp only [numeric?, Value.asDouble?_truth]
    rfl
  | _ => exact .inl rfl

/-- The same of the left operand. -/
theorem numeric?_truth_left (op : BinaryOp) (r : Value) (b : Bool) :
    numeric? op (.bool b) r = numeric? op (ofTruth b) r
      ∨ ∃ c, numeric? op (.bool b) r = .ok (some (.bool c))
        ∧ numeric? op (ofTruth b) r = .ok (some (ofTruth c)) := by
  cases r with
  | bool a =>
    cases hc : boolBinary? op b a with
    | some c =>
      refine .inr ⟨c, ?_, integerBinary_truth hc⟩
      rw [numeric?, hc]
    | none =>
      left
      rw [numeric?, hc]
      rfl
  | float x =>
    left
    simp only [numeric?, Value.asDouble?_truth]
    rfl
  | _ => exact .inl rfl

/-- Sequences and collections are no such operands. -/
theorem sequence?_of_operands (op : BinaryOp) (hl : l.isOperand = true) (hr : r.isOperand = true)
    (inplace : Bool) : sequence? op l r inplace ctx s = .ok none s := by
  cases l with
  | bool _ | int _ | float _ | exception _ _ =>
    cases r with
    | bool _ | int _ | float _ | exception _ _ => cases op <;> rfl
    | _ => cases hr
  | _ => cases hl

theorem nativeBinary?_none (op : BinaryOp) (hl : l.isHost = false) (hr : r.isHost = false)
    (inplace : Bool) : nativeBinary? op l r inplace ctx s = .ok none s := by
  unfold nativeBinary?
  simp only [hook?_eq hl, hook?_eq hr]
  rfl

/-- Operators do alike if numbers and sequences do the same. -/
theorem binary_alike {op : BinaryOp} {inplace : Bool} (hl : l.isHost = false)
    (hr : r.isHost = false) (hl' : l'.isHost = false) (hr' : r'.isHost = false)
    (hnumeric : numeric? op l r = numeric? op l' r')
    (hsequence : ∀ s, sequence? op l r inplace ctx s = sequence? op l' r' inplace ctx s) :
    Alike (binary op l r inplace ctx s) (binary op l' r' inplace ctx s) := by
  unfold binary
  rw [hnumeric]
  refine alike_bind fun first s => ?_
  cases first with
  | some x => exact .same _
  | none =>
    show Alike ((sequence? op l r inplace >>= _) ctx s) ((sequence? op l' r' inplace >>= _) ctx s)
    rw [run_bind, run_bind, hsequence]
    cases sequence? op l' r' inplace ctx s with
    | error e s => exact .same _
    | ok second s =>
      cases second with
      | some x => exact .same _
      | none =>
        show Alike ((nativeBinary? op l r inplace >>= _) ctx s)
          ((nativeBinary? op l' r' inplace >>= _) ctx s)
        rw [run_bind, run_bind, nativeBinary?_none op hl hr, nativeBinary?_none op hl' hr']
        exact .raised rfl

/-- Truth values among themselves. -/
theorem binary_alike_truth {op : BinaryOp} {inplace : Bool} {c : Bool}
    (h : numeric? op l r = .ok (some (.bool c))) (h' : numeric? op l' r' = .ok (some (ofTruth c))) :
    Alike (binary op l r inplace ctx s) (binary op l' r' inplace ctx s) := by
  unfold binary
  rw [h, h']
  exact .equal (Value.equal_truth s c)

/-- **A truth value as the right operand.** -/
theorem binary_truth_right (op : BinaryOp) (hl : l.isOperand = true) (b inplace : Bool) :
    Alike (binary op l (.bool b) inplace ctx s) (binary op l (ofTruth b) inplace ctx s) := by
  have hhost : l.isHost = false := by cases l <;> first | rfl | cases hl
  rcases numeric?_truth_right op l b with hsame | ⟨c, h, h'⟩
  · refine binary_alike hhost rfl hhost rfl hsame fun s => ?_
    rw [sequence?_of_operands op hl rfl, sequence?_of_operands op hl rfl]
  · exact binary_alike_truth h h'

/-- **A truth value as the left operand.** -/
theorem binary_truth_left (op : BinaryOp) (hr : r.isOperand = true) (b inplace : Bool) :
    Alike (binary op (.bool b) r inplace ctx s) (binary op (ofTruth b) r inplace ctx s) := by
  have hhost : r.isHost = false := by cases r <;> first | rfl | cases hr
  rcases numeric?_truth_left op r b with hsame | ⟨c, h, h'⟩
  · refine binary_alike rfl hhost rfl hhost hsame fun s => ?_
    rw [sequence?_of_operands op rfl hr, sequence?_of_operands op rfl hr]
  · exact binary_alike_truth h h'

/-- A text is repeated by a truth value as by an integer. -/
theorem sequenceProduct?_truth (id : Ident) (t : String) (b inplace : Bool) :
    sequenceProduct? (.str id t) (.bool b) inplace
      = sequenceProduct? (.str id t) (ofTruth b) inplace := by
  unfold sequenceProduct?
  simp only [Value.asInt?_truth]

theorem times_truth_right (id : Ident) (t : String) (b inplace : Bool) :
    Alike (binary .multiply (.str id t) (.bool b) inplace ctx s)
      (binary .multiply (.str id t) (ofTruth b) inplace ctx s) :=
  binary_alike rfl rfl rfl rfl rfl
    fun s => congrFun (congrFun (sequenceProduct?_truth id t b inplace) ctx) s

theorem times_truth_left (id : Ident) (t : String) (b inplace : Bool) :
    Alike (binary .multiply (.bool b) (.str id t) inplace ctx s)
      (binary .multiply (ofTruth b) (.str id t) inplace ctx s) :=
  binary_alike rfl rfl rfl rfl rfl
    fun s => congrFun (congrFun (sequenceProduct?_truth id t b false) ctx) s

/-! ## 3. Comparisons and subscripts -/

theorem orderNumbers?_truth_right (l : Value) (b : Bool) :
    l.orderNumbers? (.bool b) = l.orderNumbers? (ofTruth b) := by
  unfold Value.orderNumbers?
  rw [Value.asInt?_truth, Value.asDouble?_truth]

theorem orderNumbers?_truth_left (r : Value) (b : Bool) :
    (Value.bool b).orderNumbers? r = (ofTruth b).orderNumbers? r := by
  unfold Value.orderNumbers?
  rw [Value.asInt?_truth, Value.asDouble?_truth]

/-- Numbers are in no order with anything else. -/
theorem order_operand (s : Store) (hl : l.isOperand = true) (r : Value) :
    s.order l r = match l.orderNumbers? r with
      | some o => .ok o
      | none => .error ⟨l, r⟩ := by
  unfold Store.order
  cases s.size with
  | zero =>
    cases l with
    | bool _ | int _ | float _ | exception _ _ => cases r <;> rfl
    | _ => cases hl
  | succ n =>
    cases l with
    | bool _ | int _ | float _ | exception _ _ => cases r <;> rfl
    | _ => cases hl

theorem compare_eq {op : Comparison} (hop : op ≠ .eq ∧ op ≠ .ne) (hl : l.isHost = false)
    (hr : r.isHost = false) :
    compare op l r = (do return .bool (satisfies op (← order l r op.symbol))) := by
  unfold compare nativeCompare?
  rw [hook?_eq hl, hook?_eq hr]
  cases op with
  | eq => exact absurd rfl hop.1
  | ne => exact absurd rfl hop.2
  | _ => rfl

/-- Comparisons do alike if the numbers are in the same order. -/
theorem compare_alike {op : Comparison} (hop : op ≠ .eq ∧ op ≠ .ne) (hl : l.isOperand = true)
    (hr : r.isHost = false) (hl' : l'.isOperand = true) (hr' : r'.isHost = false)
    (hnumbers : l.orderNumbers? r = l'.orderNumbers? r') :
    Alike (compare op l r ctx s) (compare op l' r' ctx s) := by
  have hhost : ∀ {v : Value}, v.isOperand = true → v.isHost = false := by
    intro v hv
    cases v <;> first | rfl | cases hv
  rw [compare_eq hop (hhost hl) hr, compare_eq hop (hhost hl') hr', run_bind, run_bind]
  unfold order
  rw [get_bind, get_bind, order_operand s hl, order_operand s hl', hnumbers]
  cases l'.orderNumbers? r' with
  | some o => exact .same _
  | none => exact .raised rfl

/-- **A subscript that is a truth value**, of anything but mappings. -/
theorem getItem_truth (hv : v.isHost = false) (hdict : v.kind ≠ .dict) (b : Bool) :
    getItem v (.bool b) = getItem v (ofTruth b) := by
  cases v with
  | native _ _ => cases hv
  | dict r => exact absurd rfl hdict
  | _ => rfl

theorem setItem_truth (hv : v.isHost = false) (hdict : v.kind ≠ .dict) (b : Bool) (x : Value) :
    setItem v (.bool b) x = setItem v (ofTruth b) x := by
  cases v with
  | native _ _ => cases hv
  | dict r => exact absurd rfl hdict
  | _ => rfl

theorem delItem_truth (hv : v.isHost = false) (hdict : v.kind ≠ .dict) (b : Bool) :
    delItem v (.bool b) = delItem v (ofTruth b) := by
  cases v with
  | native _ _ => cases hv
  | dict r => exact absurd rfl hdict
  | _ => rfl

/-! ## 4. Ways to give an argument -/

/-- The ways to give the argument at a position of a declared method: in a call of the method, or to
the operator or the subscript that stands for it. -/
inductive Usage (name : String) (v : Value) (i : Nat) : (Value → Action Value) → Prop
  | call (args : List Value) (kwargs : List Keyword) :
    Usage name v i fun x => callTypeMethod v name (args.set i x) kwargs
  | operator (op : BinaryOp) (inplace : Bool) (h : op.method = name) :
    Usage name v i fun x => binary op v x inplace
  | reflected (op : BinaryOp) (inplace : Bool) (h : op.reflected = name) :
    Usage name v i fun x => binary op x v inplace
  /-- Products are the same in both orders. -/
  | product (inplace : Bool) (h : name = "__mul__") :
    Usage name v i fun x => binary .multiply x v inplace
  | comparison (op : Comparison) (h : op.method = name) : Usage name v i fun x => compare op v x
  | swapped (op : Comparison) (h : op.swapped.method = name) :
    Usage name v i fun x => compare op x v
  | getItem (h : name = "__getitem__") : Usage name v i fun x => getItem v x
  | setItem (content : Value) (h : name = "__setitem__") :
    Usage name v i fun x => do setItem v x content; return .none
  | delItem (h : name = "__delitem__") : Usage name v i fun x => do delItem v x; return .none

/-- The operators of numbers. -/
def isNumberMethod (name : String) : Bool :=
  BinaryOp.all.any (fun op => op.method == name || op.reflected == name)
    || [Comparison.lt, .le, .gt, .ge].any (·.method == name)

/-- The names of the methods that are declared with an integer. -/
def isIntegerName (name : String) : Bool :=
  isNumberMethod name
    || ["__getitem__", "__setitem__", "__delitem__", "insert", "pop", "abs", "chr"].contains name

/-- Whether values of a kind may have a method that is declared with an integer. Exceptions may be of
any type, and have none of these methods. -/
def takesInteger (kind : TypeId) (name : String) : Bool :=
  kind == .baseException
    || (if name == "__mul__" then kind.isNumber || kind.isSequence
      else if isNumberMethod name then kind.isNumber
      else if name == "__getitem__" || name == "__setitem__" || name == "__delitem__" then
        kind != .dict
      else kind == .list)

section Usages

variable {name : String} {args rest : List Value} {kwargs : List Keyword} {b : Bool}

theorem operand_of_kind (hv : v.isHost = false)
    (h : v.kind = .baseException ∨ v.kind.isNumber = true) : v.isOperand = true := by
  cases v with
  | bool _ | int _ | float _ | exception _ _ => rfl
  | native _ _ => cases hv
  | _ => rcases h with h | h <;> cases h

/-- What has an operator that is declared with an integer: numbers, and texts a product. -/
theorem operand_or_text (hv : v.isHost = false) (hname : isNumberMethod name = true)
    (h : takesInteger v.kind name = true)
    (hproduct : ¬(name = "__mul__" ∧ (v.kind = .tuple ∨ v.kind = .list))) :
    v.isOperand = true ∨ name = "__mul__" ∧ ∃ id t, v = .str id t := by
  rw [takesInteger, Bool.or_eq_true, beq_iff_eq] at h
  rcases h with h | h
  · exact .inl (operand_of_kind hv (.inl h))
  split at h
  · rename_i hmul
    rw [beq_iff_eq] at hmul
    rcases Bool.or_eq_true_iff.mp h with h | h
    · exact .inl (operand_of_kind hv (.inr h))
    · refine .inr ⟨hmul, ?_⟩
      cases v with
      | str id t => exact ⟨id, t, rfl⟩
      | tuple _ _ => exact absurd ⟨hmul, .inl rfl⟩ hproduct
      | list _ => exact absurd ⟨hmul, .inr rfl⟩ hproduct
      | native _ _ => cases hv
      | _ => cases h
  · exact .inl (operand_of_kind hv (.inr h))

theorem kind_ne_dict (hname : name = "__getitem__" ∨ name = "__setitem__" ∨ name = "__delitem__")
    (h : takesInteger v.kind name = true) : v.kind ≠ .dict := by
  intro hdict
  rw [hdict] at h
  rcases hname with rfl | rfl | rfl
  · exact absurd h (by decide)
  · exact absurd h (by decide)
  · exact absurd h (by decide)

/-- Names that are declared with an integer and are no methods of a kind. -/
def unownedNames : List String :=
  BinaryOp.all.map (·.method) ++ BinaryOp.all.map (·.reflected)
    ++ [Comparison.lt, .le, .gt, .ge].map (·.method)
    ++ ["__getitem__", "__setitem__", "__delitem__", "abs", "chr"]

theorem unowned_checked :
    (unownedNames.all fun n => Value.kinds.all fun k => (kindType? k n).isNone) = true := by
  decide +kernel

theorem kindType?_of_unowned (hv : v.isHost = false) (h : name ∈ unownedNames) :
    kindType? v.kind name = none :=
  Option.isNone_iff_eq_none.mp
    (List.all_eq_true.mp (List.all_eq_true.mp unowned_checked name h) v.kind (Value.kind_mem hv))

/-- Calls of a special method do alike if the operations that it stands for do. -/
theorem call_alike {act act' : Action Value} (hv : v.isHost = false)
    (hname : name ≠ "with_traceback") (hkind : kindType? v.kind name = none)
    (hact : specialMethod? v name args = some act) (hact' : specialMethod? v name rest = some act')
    (h : ∀ s, Alike (act ctx s) (act' ctx s)) :
    Alike (callTypeMethod v name args kwargs ctx s) (callTypeMethod v name rest kwargs ctx s) := by
  rw [callTypeMethod_of_unfound hkind, callTypeMethod_of_unfound hkind]
  refine alike_bind fun _ s => ?_
  rw [callPlainMethod_eq_special hv hname hkind hact,
    callPlainMethod_eq_special hv hname hkind hact']
  exact h s

theorem withOne_alike {f : Value → Action Value}
    (h : ∀ s, Alike (f (.bool b) ctx s) (f (ofTruth b) ctx s)) (s : Store) :
    Alike (withOne name (.bool b :: rest) f ctx s) (withOne name (ofTruth b :: rest) f ctx s) :=
  alike_bind (x := arity name (.bool b :: rest) 1 1) fun _ s => h s

/-- Calls that find no method do the same. -/
theorem call_unfound (hv : v.isHost = false) (hname : name ≠ "with_traceback")
    (hkind : kindType? v.kind name = none) (hspecial : isSpecial name = false) :
    Alike (callTypeMethod v name args kwargs ctx s) (callTypeMethod v name rest kwargs ctx s) := by
  rw [callTypeMethod_of_unfound hkind, callTypeMethod_of_unfound hkind]
  refine alike_bind fun _ s => .of_eq ?_
  rw [callPlainMethod_eq_refusal hv hname hkind hspecial,
    callPlainMethod_eq_refusal hv hname hkind hspecial]

theorem specialMethod?_method (op : BinaryOp) (v : Value) (args : List Value) :
    specialMethod? v op.method args
      = some (withOne op.method args fun other => binary op v other false) := by
  cases op <;> rfl

theorem specialMethod?_reflected (op : BinaryOp) (v : Value) (args : List Value) :
    specialMethod? v op.reflected args
      = some (withOne op.reflected args fun other => binary op other v false) := by
  cases op <;> rfl

theorem specialMethod?_comparison (op : Comparison) (v : Value) (args : List Value) :
    specialMethod? v op.method args
      = some (withOne op.method args fun other => compare op v other) := by
  cases op <;> rfl

/-- The methods that stand for operators of numbers. -/
theorem isNumberMethod_cases (h : isNumberMethod name = true) :
    (∃ op : BinaryOp, op.method = name) ∨ (∃ op : BinaryOp, op.reflected = name)
      ∨ ∃ op : Comparison, (op ≠ .eq ∧ op ≠ .ne) ∧ op.method = name := by
  rw [isNumberMethod, Bool.or_eq_true] at h
  rcases h with h | h
  · obtain ⟨op, -, hop⟩ := List.any_eq_true.mp h
    rw [Bool.or_eq_true, beq_iff_eq, beq_iff_eq] at hop
    exact hop.elim (fun h => .inl ⟨op, h⟩) fun h => .inr (.inl ⟨op, h⟩)
  · obtain ⟨op, hmem, hop⟩ := List.any_eq_true.mp h
    refine .inr (.inr ⟨op, ?_, beq_iff_eq.mp hop⟩)
    constructor
    · rintro rfl
      exact absurd hmem (by decide)
    · rintro rfl
      exact absurd hmem (by decide)

/-- A call of a method of numbers. -/
theorem call_number_alike (hv : v.isHost = false) (hname : isNumberMethod name = true)
    (h : takesInteger v.kind name = true)
    (hproduct : ¬(name = "__mul__" ∧ (v.kind = .tuple ∨ v.kind = .list))) :
    Alike (callTypeMethod v name (.bool b :: rest) kwargs ctx s)
      (callTypeMethod v name (ofTruth b :: rest) kwargs ctx s) := by
  have hoperand := operand_or_text hv hname h hproduct
  rcases isNumberMethod_cases hname with ⟨op, rfl⟩ | ⟨op, rfl⟩ | ⟨op, hop, rfl⟩
  · have hkind : kindType? v.kind op.method = none :=
      kindType?_of_unowned hv (by cases op <;> simp [unownedNames, BinaryOp.all])
    refine call_alike hv (by cases op <;> decide) hkind (specialMethod?_method op v _)
      (specialMethod?_method op v _) (withOne_alike fun s => ?_)
    rcases hoperand with hoperand | ⟨hmul, id, t, rfl⟩
    · exact binary_truth_right op hoperand b false
    · cases op with
      | multiply => exact times_truth_right id t b false
      | _ => exact absurd hmul (by decide)
  · have hkind : kindType? v.kind op.reflected = none :=
      kindType?_of_unowned hv (by cases op <;> simp [unownedNames, BinaryOp.all])
    refine call_alike hv (by cases op <;> decide) hkind (specialMethod?_reflected op v _)
      (specialMethod?_reflected op v _) (withOne_alike fun s => ?_)
    rcases hoperand with hoperand | ⟨hmul, -⟩
    · exact binary_truth_left op hoperand b false
    · exact absurd hmul (by cases op <;> decide)
  · have hkind : kindType? v.kind op.method = none :=
      kindType?_of_unowned hv (by cases op <;> simp_all [unownedNames])
    refine call_alike hv (by cases op <;> decide) hkind (specialMethod?_comparison op v _)
      (specialMethod?_comparison op v _) (withOne_alike fun s => ?_)
    rcases hoperand with hoperand | ⟨hmul, -⟩
    · exact compare_alike hop hoperand rfl hoperand rfl (orderNumbers?_truth_right v b)
    · exact absurd hmul (by cases op <;> decide)

theorem listMethod_truth (r : Nat) (hname : name = "insert" ∨ name = "pop") (rest : List Value)
    (b : Bool) : listMethod? r name (.bool b :: rest) = listMethod? r name (ofTruth b :: rest) := by
  have hint : ∀ name, intArg name (.bool b) = intArg name (ofTruth b) := fun _ => rfl
  have harity : ∀ name low high, arity name (.bool b :: rest) low high
      = arity name (ofTruth b :: rest) low high := fun _ _ _ => rfl
  rcases hname with rfl | rfl
  · unfold listMethod?
    simp only [List.headD_cons, hint, harity]
    rfl
  · unfold listMethod?
    simp only [hint, harity]

/-- A list takes an item in or out at the position that a truth value means. -/
theorem call_position_alike (hv : v.isHost = false) (hname : name = "insert" ∨ name = "pop")
    (h : v.kind = .baseException ∨ v.kind = .list) :
    Alike (callTypeMethod v name (.bool b :: rest) kwargs ctx s)
      (callTypeMethod v name (ofTruth b :: rest) kwargs ctx s) := by
  rcases h with h | h
  · have hkind : kindType? v.kind name = none := by rw [h]; rfl
    rcases hname with rfl | rfl
    · exact call_unfound hv (by decide) hkind (by decide)
    · exact call_unfound hv (by decide) hkind (by decide)
  · cases v with
    | list r =>
      have hcall : ∀ args, callTypeMethod (.list r) name args kwargs
          = (do noKeywords name kwargs; callPlainMethod (.list r) name args) := by
        intro args
        rcases hname with rfl | rfl <;> rfl
      have hspecial : ∀ args, specialMethod? (.list r) name args = none := by
        intro args
        rcases hname with rfl | rfl <;> rfl
      rw [hcall, hcall]
      unfold callPlainMethod
      rw [hspecial, hspecial]
      show Alike
        ((noKeywords name kwargs >>= fun _ => listMethod? r name (.bool b :: rest) >>= _) ctx s)
        ((noKeywords name kwargs >>= fun _ => listMethod? r name (ofTruth b :: rest) >>= _) ctx s)
      rw [listMethod_truth r hname]
      exact .same _
    | native _ _ => cases hv
    | _ => cases h

/-- **Calls with a truth value** in place of an integer. -/
theorem call_truth (hv : v.isHost = false) (hname : isIntegerName name = true)
    (h : takesInteger v.kind name = true)
    (hproduct : ¬(name = "__mul__" ∧ (v.kind = .tuple ∨ v.kind = .list))) :
    Alike (callTypeMethod v name (.bool b :: rest) kwargs ctx s)
      (callTypeMethod v name (ofTruth b :: rest) kwargs ctx s) := by
  rw [isIntegerName, Bool.or_eq_true] at hname
  rcases hname with hname | hname
  · exact call_number_alike hv hname h hproduct
  have hlist : (name = "insert" ∨ name = "pop") → v.kind = .baseException ∨ v.kind = .list := by
    intro hname
    have hlast : takesInteger v.kind name = (v.kind == .baseException || v.kind == .list) := by
      rcases hname with rfl | rfl <;> rfl
    rwa [hlast, Bool.or_eq_true, beq_iff_eq, beq_iff_eq] at h
  simp only [List.contains_cons, List.contains_nil, Bool.or_eq_true, beq_iff_eq, Bool.or_false]
    at hname
  rcases hname with rfl | rfl | rfl | hname | hname | rfl | rfl
  · have hdict := kind_ne_dict (.inl rfl) h
    refine call_alike hv (by decide) (kindType?_of_unowned hv (by simp [unownedNames])) rfl rfl
      (withOne_alike fun s => .of_eq ?_)
    rw [getItem_truth hv hdict]
  · have hdict := kind_ne_dict (.inr (.inl rfl)) h
    refine call_alike hv (by decide) (kindType?_of_unowned hv (by simp [unownedNames])) rfl rfl
      fun s => .of_eq ?_
    simp only [List.headD_cons, setItem_truth hv hdict]
    rfl
  · have hdict := kind_ne_dict (.inr (.inr rfl)) h
    refine call_alike hv (by decide) (kindType?_of_unowned hv (by simp [unownedNames])) rfl rfl
      (withOne_alike fun s => .of_eq ?_)
    rw [delItem_truth hv hdict]
  · exact call_position_alike hv (.inl hname) (hlist (.inl hname))
  · exact call_position_alike hv (.inr hname) (hlist (.inr hname))
  · exact call_unfound hv (by decide) (kindType?_of_unowned hv (by simp [unownedNames])) (by decide)
  · exact call_unfound hv (by decide) (kindType?_of_unowned hv (by simp [unownedNames])) (by decide)

theorem ordering_of_name {op : Comparison} (h : isIntegerName op.method = true) :
    op ≠ .eq ∧ op ≠ .ne := by
  constructor
  · rintro rfl
    exact absurd h (by decide)
  · rintro rfl
    exact absurd h (by decide)

theorem isNumberMethod_ordering {op : Comparison} (hop : op ≠ .eq ∧ op ≠ .ne) :
    isNumberMethod op.method = true := by
  cases op with
  | eq => exact absurd rfl hop.1
  | ne => exact absurd rfl hop.2
  | _ => decide

/-- **Every way to give a truth value** in place of an integer. -/
theorem usage_truth {use : Value → Action Value} (huse : Usage name v 0 use) (hv : v.isHost = false)
    (hname : isIntegerName name = true) (h : takesInteger v.kind name = true)
    (hproduct : ¬(name = "__mul__" ∧ (v.kind = .tuple ∨ v.kind = .list))) :
    Alike (use (.bool b) ctx s) (use (ofTruth b) ctx s) := by
  cases huse with
  | call args kwargs =>
    cases args with
    | nil => exact .same _
    | cons a rest => exact call_truth hv hname h hproduct
  | operator op inplace hop =>
    subst hop
    rcases operand_or_text hv (by cases op <;> decide) h hproduct with hoperand | ⟨hmul, id, t, rfl⟩
    · exact binary_truth_right op hoperand b inplace
    · cases op with
      | multiply => exact times_truth_right id t b inplace
      | _ => exact absurd hmul (by decide)
  | reflected op inplace hop =>
    subst hop
    rcases operand_or_text hv (by cases op <;> decide) h hproduct with hoperand | ⟨hmul, -⟩
    · exact binary_truth_left op hoperand b inplace
    · exact absurd hmul (by cases op <;> decide)
  | product inplace hmul =>
    subst hmul
    rcases operand_or_text hv (by decide) h hproduct with hoperand | ⟨-, id, t, rfl⟩
    · exact binary_truth_left .multiply hoperand b inplace
    · exact times_truth_left id t b inplace
  | comparison op hop =>
    subst hop
    have hop := ordering_of_name hname
    rcases operand_or_text hv (isNumberMethod_ordering hop) h hproduct with hoperand | ⟨hmul, -⟩
    · exact compare_alike hop hoperand rfl hoperand rfl (orderNumbers?_truth_right v b)
    · exact absurd hmul (by cases op <;> decide)
  | swapped op hop =>
    subst hop
    have hop := ordering_of_name hname
    rcases operand_or_text hv (isNumberMethod_ordering hop) h hproduct with hoperand | ⟨hmul, -⟩
    · have hswapped : op ≠ .eq ∧ op ≠ .ne := by cases op <;> simp_all [Comparison.swapped]
      exact compare_alike hswapped rfl hv rfl hv (orderNumbers?_truth_left v b)
    · exact absurd hmul (by cases op <;> decide)
  | getItem hget =>
    subst hget
    exact .of_eq (congrFun (congrFun (getItem_truth hv (kind_ne_dict (.inl rfl) h) b) ctx) s)
  | setItem content hset =>
    subst hset
    refine .of_eq ?_
    dsimp only
    rw [setItem_truth hv (kind_ne_dict (.inr (.inl rfl)) h)]
  | delItem hdel =>
    subst hdel
    refine .of_eq ?_
    dsimp only
    rw [delItem_truth hv (kind_ne_dict (.inr (.inr rfl)) h)]

/-- The builtin functions that are declared with an integer. -/
theorem function_truth (hname : name = "abs" ∨ name = "chr") :
    callBuiltin name (.bool b :: rest) kwargs = callBuiltin name (ofTruth b :: rest) kwargs := by
  have habs : abs (.bool b) = abs (ofTruth b) := rfl
  have hchr : chr (.bool b) = chr (ofTruth b) := rfl
  rcases hname with rfl | rfl
  · show (do noKeywords "abs" kwargs; arity "abs" (.bool b :: rest) 1 1; abs (.bool b)) = _
    rw [habs]
    rfl
  · show (do noKeywords "chr" kwargs; arity "chr" (.bool b :: rest) 1 1; chr (.bool b)) = _
    rw [hchr]
    rfl

end Usages

end Machine

/-! ## 5. The table -/

namespace Builtins

open Machine

/-- Whether integers stand first among the parameters of a method, and whether it is known what has
it. -/
def integerFirst (owner : TypeId) (name : String) (sig : Signature) : Bool :=
  !(sig.params.drop 1).contains .int
    && (sig.params.head? != some .int
      || isIntegerName name && onKindsBelow owner (takesInteger · name)
        && (owner != .builtins || name == "abs" || name == "chr"))

/-- **What the table declares with integers.** -/
theorem table_integers : table.all (fun
    | .method owner name sig => integerFirst owner name sig
    | _ => true) = true := by
  decide +kernel

/-- What the check says of one method. -/
theorem integer_declared {owner : TypeId} {name : String} {sig : Signature} {i : Nat}
    (hsig : Declaration.method owner name sig ∈ table) (hi : sig.params[i]? = some .int) :
    i = 0 ∧ isIntegerName name = true ∧ onKindsBelow owner (takesInteger · name) = true
      ∧ (owner = .builtins → name = "abs" ∨ name = "chr") := by
  have hcheck : integerFirst owner name sig = true := List.all_eq_true.mp table_integers _ hsig
  rw [integerFirst, Bool.and_eq_true, Bool.not_eq_true'] at hcheck
  obtain ⟨hrest, hfirst⟩ := hcheck
  have hzero : i = 0 := by
    cases i with
    | zero => rfl
    | succ i =>
      have hmem : TypeId.int ∈ sig.params.drop 1 := by
        refine List.mem_of_getElem? (i := i) ?_
        rwa [List.getElem?_drop, Nat.add_comm]
      rw [List.contains_iff_mem.mpr hmem] at hrest
      cases hrest
  subst hzero
  have hhead : sig.params.head? = some .int := by rwa [List.head?_eq_getElem?]
  rw [hhead, bne_self_eq_false, Bool.false_or, Bool.and_eq_true, Bool.and_eq_true, Bool.or_eq_true,
    Bool.or_eq_true, bne_iff_ne, beq_iff_eq, beq_iff_eq, or_assoc] at hfirst
  exact ⟨rfl, hfirst.1.1, hfirst.1.2, fun howner => hfirst.2.resolve_left (not_not_intro howner)⟩

end Builtins

/-! ## 6. Truth values in place of integers -/

namespace Machine

open Builtins
open Value (ofTruth)

/-- **A truth value works wherever an integer is declared:** for every method of the table with a
parameter of the type of integers, every receiver of a type below the owner that is no object of the
host, whatever the other arguments are and however the argument is given, a truth value and the
integer that it equals give equal values with the same effects, or exceptions of one class; but for
the products of tuples and lists. So do the builtin functions. -/
theorem truth_values_work_as_integers {owner : TypeId} {name : String} {sig : Signature} {i : Nat}
    (hsig : Declaration.method owner name sig ∈ table) (hi : sig.params[i]? = some .int)
    {ctx : Context} (hm : ctx.compiler.model.ExtendsBuiltins) (b : Bool) (s : Store) :
    (∀ (v : Value) (use : Value → Action Value), v.isHost = false →
        ctx.compiler.model.isSubtype v.type owner = true →
        ¬(name = "__mul__" ∧ (v.kind = .tuple ∨ v.kind = .list)) → Usage name v i use →
        Alike (use (.bool b) ctx s) (use (ofTruth b) ctx s))
      ∧ (owner = .builtins → ∀ (args : List Value) kwargs,
        Alike (callBuiltin name (args.set i (.bool b)) kwargs ctx s)
          (callBuiltin name (args.set i (ofTruth b)) kwargs ctx s)) := by
  obtain ⟨rfl, hname, hkinds, hfunction⟩ := integer_declared hsig hi
  refine ⟨fun v use hv howner hproduct huse => ?_, fun hbuiltins args kwargs => ?_⟩
  · exact usage_truth huse hv hname (of_onKindsBelow hm hkinds hv howner) hproduct
  · cases args with
    | nil => exact .same _
    | cons a rest =>
      exact .of_eq (congrFun (congrFun (function_truth (hfunction hbuiltins)) ctx) s)

/-- The conjunction of truth values is one, and that with an integer is an integer. The magnitude of a
truth value is that of the integer. -/
theorem truth_values_work_as_integers_and :
    Alike (binary .and (.bool true) (.bool true) false (plainContext 0) {})
        (binary .and (.bool true) (.int 1) false (plainContext 0) {})
      ∧ binary .and (.bool true) (.bool true) false (plainContext 0) {} = .ok (.bool true) {}
      ∧ binary .and (.bool true) (.int 1) false (plainContext 0) {} = .ok (.int 1) {}
      ∧ Alike (callBuiltin "abs" [.bool false] [] (plainContext 0) {})
        (callBuiltin "abs" [.int 0] [] (plainContext 0) {}) := by
  have hm : (plainContext 0).compiler.model.ExtendsBuiltins := .builtins
  have hand : Declaration.method .int "__and__" { params := [.int], returns := .int } ∈ table := by
    simp [table, members, numberMembers, each, bitwise, method]
  have habs : Declaration.method .builtins "abs" { params := [.int], returns := .int } ∈ table := by
    simp [table, members, functions, method]
  exact ⟨(truth_values_work_as_integers (i := 0) hand rfl hm true {}).1 (.bool true) _ rfl
      (bool_below_int true) (by decide) (.operator .and false (by decide)), rfl, rfl,
    (truth_values_work_as_integers (i := 0) habs rfl hm false {}).2 rfl [.none] []⟩

/-- Operators that nothing is known of. -/
theorem binary_unsupported {l r : Value} {op : BinaryOp} {inplace : Bool} {ctx : Context}
    {s : Store} (hl : l.isHost = false) (hr : r.isHost = false)
    (hnumeric : numeric? op l r = .ok none)
    (hsequence : sequence? op l r inplace ctx s = .ok none s) :
    ∃ e s', binary op l r inplace ctx s = .error (.raised e) s' ∧ e.type = .typeError := by
  unfold binary
  rw [hnumeric]
  show ∃ e s', (sequence? op l r inplace >>= _) ctx s = .error (.raised e) s' ∧ e.type = .typeError
  rw [run_bind, hsequence]
  show ∃ e s', (nativeBinary? op l r inplace >>= _) ctx s = .error (.raised e) s'
    ∧ e.type = .typeError
  rw [run_bind, nativeBinary?_none op hl hr]
  exact ⟨_, _, rfl, rfl⟩

/-- **Tuples and lists refuse to be repeated by a truth value.** -/
theorem product_refuses_truth {v : Value}
    (hv : (∃ id items, v = .tuple id items) ∨ ∃ r, v = .list r) (b inplace : Bool) (ctx : Context) (s : Store) :
    (∃ e s', binary .multiply v (.bool b) inplace ctx s = .error (.raised e) s'
        ∧ e.type = .typeError)
      ∧ ∃ e s', binary .multiply (.bool b) v inplace ctx s = .error (.raised e) s'
        ∧ e.type = .typeError := by
  rcases hv with ⟨id, items, rfl⟩ | ⟨r, rfl⟩
  · exact ⟨binary_unsupported rfl rfl rfl rfl, binary_unsupported rfl rfl rfl rfl⟩
  · exact ⟨binary_unsupported rfl rfl rfl rfl, binary_unsupported rfl rfl rfl rfl⟩

/-- **A tuple times one is that tuple, and a tuple times a truth value is refused.** -/
theorem tuple_times_true :
    Declaration.method .tuple "__mul__" { params := [.int], returns := .tuple } ∈ table
      ∧ (plainContext 0).compiler.model.isSubtype (Value.bool true).type .int = true
      ∧ (∃ id s', callTypeMethod (.tuple default [.int 1, .int 2]) "__mul__" [.int 1] []
          (plainContext 0) {} = .ok (.tuple id [.int 1, .int 2]) s')
      ∧ ∃ e s', callTypeMethod (.tuple default [.int 1, .int 2]) "__mul__" [.bool true] []
          (plainContext 0) {} = .error (.raised e) s' ∧ e.type = .typeError := by
  refine ⟨?_, bool_below_int true, ⟨_, _, rfl⟩, _, _, rfl, rfl⟩
  simp [table, members, sequenceMembers, method]

end Machine

end Stackwise
