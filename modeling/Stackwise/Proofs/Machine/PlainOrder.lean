import Stackwise.Proofs.Machine.KeyLists
import Stackwise.Proofs.Outcome

/-!
# The order of plain values

Plain values are built from truth values, integers, texts, byte strings and tuples. Equality and
order look at what they say, and at nothing else.

* `Value.plain`: what a plain value says. `equalWith_plain`: values are equal if they say the same.
* `Plain.order?`: the order of what values say; it is reversed with its arguments, and transitive.
* `orderWith_plain`: the order of values is that of what they say.
* `equality_order_lawful`: the laws of both together.
-/

namespace Stackwise

/-! ## 1. What plain values say -/

/-- What a plain value says: truth values are the numbers that they stand for, and no object has an
identity. -/
inductive Plain where
  | number (n : Int64)
  | text (t : String)
  | bytes (b : List UInt8)
  | tuple (items : List Plain)

namespace Value

mutual

/-- What a plain value says; other values say nothing. -/
def plain : Value → Plain
  | .bool b => .number (if b then 1 else 0)
  | .int n => .number n
  | .str _ t => .text t
  | .bytes _ b => .bytes b
  | .tuple _ items => .tuple (plains items)
  | _ => .tuple []

/-- What several values say. -/
def plains : List Value → List Plain
  | [] => []
  | v :: vs => v.plain :: plains vs

end

/-! ## 2. Equality -/

theorem beq_number {m n : Int64} : (m == n) = true ↔ Plain.number m = .number n := by
  rw [beq_iff_eq, Plain.number.injEq]

mutual

/-- **Plain values are equal** if they say the same. -/
theorem equalWith_plain (below : Value → Value → Bool) : ∀ a b : Value, a.isPlain = true →
    b.isPlain = true → (a.equalWith below b = true ↔ a.plain = b.plain)
  | .bool _, b, _, hb | .int _, b, _, hb => by
    cases b with
    | bool _ | int _ => exact beq_number
    | str _ _ | bytes _ _ | tuple _ _ => exact ⟨nofun, nofun⟩
    | _ => cases hb
  | .str _ s, b, _, hb => by
    cases b with
    | str _ t =>
      show (s == t) = true ↔ _
      rw [beq_iff_eq, plain, plain, Plain.text.injEq]
    | bool _ | int _ | bytes _ _ | tuple _ _ => exact ⟨nofun, nofun⟩
    | _ => cases hb
  | .bytes _ s, b, _, hb => by
    cases b with
    | bytes _ t =>
      show (s == t) = true ↔ _
      rw [beq_iff_eq, plain, plain, Plain.bytes.injEq]
    | bool _ | int _ | str _ _ | tuple _ _ => exact ⟨nofun, nofun⟩
    | _ => cases hb
  | .tuple _ as, b, ha, hb => by
    cases b with
    | tuple _ bs =>
      rw [equalWith, plain, plain, Plain.tuple.injEq]
      exact equalItems_plain below as bs ha hb
    | bool _ | int _ | str _ _ | bytes _ _ => exact ⟨nofun, nofun⟩
    | _ => cases hb
  | .none, _, h, _ | .ellipsis, _, h, _ | .float _, _, h, _ | .list _, _, h, _ | .dict _, _, h, _
  | .set _, _, h, _ | .slice _ _ _ _, _, h, _ | .range _, _, h, _ | .iter _, _, h, _
  | .classObject _, _, h, _ | .exception _ _, _, h, _ | .traceback _ _, _, h, _
  | .function _, _, h, _ | .method _ _ _ _, _, h, _ | .builtin _ _, _, h, _ | .generator _, _, h, _
  | .cell _, _, h, _ | .code _, _, h, _ | .native _ _, _, h, _ => by cases h

theorem equalItems_plain (below : Value → Value → Bool) : ∀ as bs : List Value,
    allPlain as = true → allPlain bs = true →
      (equalItems below as bs = true ↔ plains as = plains bs)
  | [], [], _, _ => ⟨fun _ => rfl, fun _ => rfl⟩
  | [], _ :: _, _, _ => ⟨nofun, nofun⟩
  | _ :: _, [], _, _ => ⟨nofun, nofun⟩
  | a :: as, b :: bs, ha, hb => by
    rw [allPlain, Bool.and_eq_true] at ha hb
    rw [equalItems, Bool.and_eq_true, plains, plains, List.cons.injEq,
      equalWith_plain below a b ha.1 hb.1, equalItems_plain below as bs ha.2 hb.2]

end

end Value

/-! ## 3. The order of what values say -/

namespace Plain

mutual

/-- The order of plain values that can be compared; nothing for the others. -/
def order? : Plain → Plain → Option Ordering
  | .number m, .number n => some (compare m n)
  | .text s, .text t => some (compare s t)
  | .bytes a, .bytes b => some (compare a b)
  | .tuple as, .tuple bs => orderAll? as bs
  | _, _ => none

/-- The order of two sequences: that of the first items that differ, else that of the lengths. -/
def orderAll? : List Plain → List Plain → Option Ordering
  | a :: as, b :: bs =>
    match order? a b with
    | some .eq => orderAll? as bs
    | answer => answer
  | [], [] => some .eq
  | [], _ :: _ => some .lt
  | _ :: _, [] => some .gt

end

mutual

theorem order?_eq_iff : ∀ a b : Plain, order? a b = some .eq ↔ a = b
  | .number m, .number n => by
    rw [order?, Option.some.injEq, Std.compare_eq_iff_eq, number.injEq]
  | .text s, .text t => by
    rw [order?, Option.some.injEq, Std.compare_eq_iff_eq, text.injEq]
  | .bytes s, .bytes t => by
    rw [order?, Option.some.injEq, Std.compare_eq_iff_eq, bytes.injEq]
  | .tuple as, .tuple bs => by
    rw [order?, orderAll?_eq_iff as bs, tuple.injEq]
  | .number _, .text _ | .number _, .bytes _ | .number _, .tuple _
  | .text _, .number _ | .text _, .bytes _ | .text _, .tuple _
  | .bytes _, .number _ | .bytes _, .text _ | .bytes _, .tuple _
  | .tuple _, .number _ | .tuple _, .text _ | .tuple _, .bytes _ => ⟨nofun, nofun⟩

theorem orderAll?_eq_iff : ∀ as bs : List Plain, orderAll? as bs = some .eq ↔ as = bs
  | [], [] => ⟨fun _ => rfl, fun _ => rfl⟩
  | [], _ :: _ => ⟨nofun, nofun⟩
  | _ :: _, [] => ⟨nofun, nofun⟩
  | a :: as, b :: bs => by
    have hhead := order?_eq_iff a b
    have htail := orderAll?_eq_iff as bs
    rw [orderAll?, List.cons.injEq]
    split
    · rename_i heq
      rw [htail, and_iff_right (hhead.mp heq)]
    · rename_i hne
      exact ⟨fun h => absurd h (hne ·), fun h => absurd (hhead.mpr h.1) (hne ·)⟩

end

/-- Two sequences are ordered by their rests if they begin with the same item, else by the items. -/
theorem orderAll?_cons {a b : Plain} {as bs : List Plain} {o : Ordering} :
    orderAll? (a :: as) (b :: bs) = some o
      ↔ a = b ∧ orderAll? as bs = some o ∨ o ≠ .eq ∧ order? a b = some o := by
  rw [orderAll?, ← order?_eq_iff]
  cases order? a b with
  | none => simp
  | some c => cases c <;> cases o <;> simp

mutual

theorem order?_swap : ∀ a b : Plain, order? b a = (order? a b).map Ordering.swap
  | .number _, .number _ | .text _, .text _ | .bytes _, .bytes _ =>
    congrArg some Std.OrientedOrd.eq_swap
  | .tuple as, .tuple bs => orderAll?_swap as bs
  | .number _, .text _ | .number _, .bytes _ | .number _, .tuple _
  | .text _, .number _ | .text _, .bytes _ | .text _, .tuple _
  | .bytes _, .number _ | .bytes _, .text _ | .bytes _, .tuple _
  | .tuple _, .number _ | .tuple _, .text _ | .tuple _, .bytes _ => rfl

theorem orderAll?_swap : ∀ as bs : List Plain, orderAll? bs as = (orderAll? as bs).map Ordering.swap
  | [], [] => rfl
  | [], _ :: _ => rfl
  | _ :: _, [] => rfl
  | a :: as, b :: bs => by
    rw [orderAll?, orderAll?, order?_swap a b, orderAll?_swap as bs]
    cases order? a b with
    | none => rfl
    | some o => cases o <;> rfl

end

mutual

theorem order?_trans : ∀ a b c : Plain, order? a b = some .lt → order? b c = some .lt →
    order? a c = some .lt
  | .number _, .number _, .number _, hab, hbc | .text _, .text _, .text _, hab, hbc
  | .bytes _, .bytes _, .bytes _, hab, hbc =>
    congrArg some (Std.TransCmp.lt_trans (Option.some.inj hab) (Option.some.inj hbc))
  | .tuple as, .tuple bs, .tuple cs, hab, hbc => orderAll?_trans as bs cs hab hbc

/-- The first difference between the outer sequences is the earlier of the two that are given. -/
theorem orderAll?_trans : ∀ as bs cs : List Plain, orderAll? as bs = some .lt →
    orderAll? bs cs = some .lt → orderAll? as cs = some .lt
  | [], _ :: _, _ :: _, _, _ => rfl
  | [], [], _, h, _ => by cases h
  | _, _ :: _, [], _, h => by cases h
  | _ :: _, [], _, h, _ => by cases h
  | a :: as, b :: bs, c :: cs, hab, hbc => by
    rw [orderAll?_cons] at hab hbc ⊢
    rcases hab with ⟨rfl, hab⟩ | ⟨hne, hab⟩
    · rcases hbc with ⟨rfl, hbc⟩ | ⟨hne, hbc⟩
      · exact .inl ⟨rfl, orderAll?_trans as bs cs hab hbc⟩
      · exact .inr ⟨hne, hbc⟩
    · rcases hbc with ⟨rfl, hbc⟩ | ⟨-, hbc⟩
      · exact .inr ⟨hne, hab⟩
      · exact .inr ⟨hne, order?_trans a b c hab hbc⟩

end

end Plain

/-! ## 4. The order of plain values -/

namespace Value

theorem orderBytes_eq (a b : List UInt8) : orderBytes a b = compare a b := by
  fun_induction orderBytes a b with
  | case1 => rfl
  | case2 => rfl
  | case3 => rfl
  | case4 x xs y ys ih => rw [ih, List.compare_cons_cons]

mutual

/-- **The order of plain values** is that of what they say. -/
theorem orderWith_plain {same : Value → Value → Bool} (below : Value → Value → Ordered)
    (hsame : ∀ a b : Value, a.isPlain = true → b.isPlain = true →
      (same a b = true ↔ a.plain = b.plain)) : ∀ a b : Value, a.isPlain = true → b.isPlain = true →
    (a.orderWith same below b).toOption = (a.plain.order? b.plain).map some
  | .bool _, b, _, hb | .int _, b, _, hb | .str _ _, b, _, hb => by
    cases b with
    | bool _ | int _ | str _ _ | bytes _ _ | tuple _ _ => rfl
    | _ => cases hb
  | .bytes _ s, b, _, hb => by
    cases b with
    | bytes _ t =>
      rw [orderWith, orderBytes_eq]
      rfl
    | bool _ | int _ | str _ _ | tuple _ _ => rfl
    | _ => cases hb
  | .tuple _ as, b, ha, hb => by
    cases b with
    | tuple _ bs => exact orderItems_plain below hsame as bs ha hb
    | bool _ | int _ | str _ _ | bytes _ _ => rfl
    | _ => cases hb
  | .none, _, h, _ | .ellipsis, _, h, _ | .float _, _, h, _ | .list _, _, h, _ | .dict _, _, h, _
  | .set _, _, h, _ | .slice _ _ _ _, _, h, _ | .range _, _, h, _ | .iter _, _, h, _
  | .classObject _, _, h, _ | .exception _ _, _, h, _ | .traceback _ _, _, h, _
  | .function _, _, h, _ | .method _ _ _ _, _, h, _ | .builtin _ _, _, h, _ | .generator _, _, h, _
  | .cell _, _, h, _ | .code _, _, h, _ | .native _ _, _, h, _ => by cases h

theorem orderItems_plain {same : Value → Value → Bool} (below : Value → Value → Ordered)
    (hsame : ∀ a b : Value, a.isPlain = true → b.isPlain = true →
      (same a b = true ↔ a.plain = b.plain)) : ∀ as bs : List Value, allPlain as = true →
        allPlain bs = true →
    (orderItems same below as bs).toOption
      = (Plain.orderAll? (plains as) (plains bs)).map some
  | [], [], _, _ => rfl
  | [], _ :: _, _, _ => rfl
  | _ :: _, [], _, _ => rfl
  | a :: as, b :: bs, ha, hb => by
    rw [allPlain, Bool.and_eq_true] at ha hb
    have hequal := (hsame a b ha.1 hb.1).trans (Plain.order?_eq_iff _ _).symm
    rw [orderItems, plains, plains, Plain.orderAll?]
    split
    · rename_i hs
      rw [hequal.mp hs]
      exact orderItems_plain below hsame as bs ha.2 hb.2
    · rename_i hs
      rw [hequal] at hs
      rw [orderWith_plain below hsame a b ha.1 hb.1]
      split
      · rename_i heq
        exact absurd heq hs
      · rfl

end

end Value

namespace Store

variable {a b : Value} {answer : Option Ordering}

theorem equal_plain (s : Store) (ha : a.isPlain = true) (hb : b.isPlain = true) :
    s.equal a b = true ↔ a.plain = b.plain := by
  unfold equal
  cases s.size <;> exact Value.equalWith_plain _ a b ha hb

theorem order_plain (s : Store) (ha : a.isPlain = true) (hb : b.isPlain = true) :
    (s.order a b).toOption = (a.plain.order? b.plain).map some := by
  unfold order
  cases s.size <;> exact Value.orderWith_plain _ (fun _ _ => s.equal_plain) a b ha hb

/-- The order of plain values, if there is one, is the order of what they say. -/
theorem order_eq_ok (s : Store) (ha : a.isPlain = true) (hb : b.isPlain = true) :
    s.order a b = .ok answer ↔ ∃ o, answer = some o ∧ a.plain.order? b.plain = some o := by
  rw [← toOption_eq_some, order_plain s ha hb, Option.map_eq_some_iff]
  exact ⟨fun ⟨o, ho, h⟩ => ⟨o, h.symm, ho⟩, fun ⟨o, h, ho⟩ => ⟨o, ho, h.symm⟩⟩

theorem order_eq_ok_some (s : Store) (ha : a.isPlain = true) (hb : b.isPlain = true)
    {o : Ordering} : s.order a b = .ok (some o) ↔ a.plain.order? b.plain = some o := by
  rw [order_eq_ok s ha hb]
  exact ⟨fun ⟨_, h, ho⟩ => Option.some.inj h ▸ ho, fun ho => ⟨o, rfl, ho⟩⟩

end Store

/-! ## 5. The laws -/

/-- A value built from truth values, integers, texts, byte strings and tuples alone. -/
abbrev PlainValue := {v : Value // v.isPlain = true}

/-- **Equality and order are a lawful pair** on plain values. Equality is an equivalence relation;
values that can be compared are equal exactly if neither comes first, and can be compared the other
way round; the order is transitive; and equal values can stand for each other in a comparison. -/
theorem equality_order_lawful (s : Store) :
    Equivalence (fun a b : PlainValue => s.equal a b = true)
      ∧ (∀ (a b : PlainValue) (answer : Option Ordering), s.order a b = .ok answer →
        ∃ o, answer = some o ∧ (o = .eq ↔ s.equal a b = true) ∧ s.order b a = .ok (some o.swap))
      ∧ (∀ a b c : PlainValue, s.order a b = .ok (some .lt) → s.order b c = .ok (some .lt) →
        s.order a c = .ok (some .lt))
      ∧ ∀ a a' b b' : PlainValue, s.equal a a' = true → s.equal b b' = true →
        (s.order a b).toOption = (s.order a' b').toOption := by
  have hequal (a b : PlainValue) : s.equal a b = true ↔ a.val.plain = b.val.plain :=
    s.equal_plain a.property b.property
  refine ⟨⟨fun a => ?_, fun {a b} h => ?_, fun {a b c} hab hbc => ?_⟩, fun a b answer h => ?_,
    fun a b c hab hbc => ?_, fun a a' b b' ha hb => ?_⟩
  · exact (hequal a a).mpr rfl
  · exact (hequal b a).mpr ((hequal a b).mp h).symm
  · exact (hequal a c).mpr (((hequal a b).mp hab).trans ((hequal b c).mp hbc))
  · obtain ⟨o, rfl, ho⟩ := (s.order_eq_ok a.property b.property).mp h
    refine ⟨o, rfl, ?_, (s.order_eq_ok_some b.property a.property).mpr ?_⟩
    · rw [hequal, ← Plain.order?_eq_iff, ho, Option.some.injEq]
    · rw [Plain.order?_swap, ho, Option.map_some]
  · rw [s.order_eq_ok_some a.property b.property] at hab
    rw [s.order_eq_ok_some b.property c.property] at hbc
    rw [s.order_eq_ok_some a.property c.property]
    exact Plain.order?_trans _ _ _ hab hbc
  · rw [s.order_plain a.property b.property, s.order_plain a'.property b'.property,
      (hequal a a').mp ha, (hequal b b').mp hb]

/-- The tuple `((n, t), last)`. -/
def nested (n : Value) (t : String) (last : Value) : Value :=
  .tuple default [.tuple default [n, .str default t], last]

/-- The tuple `((2,),)`. -/
def shortTuple : PlainValue := ⟨.tuple default [.tuple default [.int 2]], rfl⟩

/-- Tuples are compared by their first difference, so that `b"x"` and `5` are never compared. -/
theorem equality_order_lawful_nested :
    let a : PlainValue := ⟨nested (.bool true) "a" (.bytes default [120]), rfl⟩
    let a' : PlainValue := ⟨nested (.int 1) "a" (.bytes default [120]), rfl⟩
    let b : PlainValue := ⟨nested (.int 1) "b" (.int 5), rfl⟩
    (default : Store).order a b = .ok (some .lt)
      ∧ (default : Store).order b shortTuple = .ok (some .lt)
      ∧ (default : Store).order a shortTuple = .ok (some .lt)
      ∧ (default : Store).order shortTuple a = .ok (some .gt)
      ∧ ((default : Store).order a' shortTuple).toOption = some (some .lt) := by
  intro a a' b
  obtain ⟨-, hswap, htrans, hcongr⟩ := equality_order_lawful default
  have hab : (default : Store).order a b = .ok (some .lt) := rfl
  have hbc : (default : Store).order b shortTuple = .ok (some .lt) := rfl
  have hac := htrans a b shortTuple hab hbc
  obtain ⟨o, ho, -, hback⟩ := hswap a shortTuple _ hac
  cases ho
  exact ⟨hab, hbc, hac, hback,
    (hcongr a' a shortTuple shortTuple rfl rfl).trans (congrArg Except.toOption hac)⟩

end Stackwise
