import Stackwise.Machine.Equality

/-!
# Ordering

The order of values: numbers by value, texts and byte strings by their characters and bytes,
sequences by their first difference. Numbers that are no numbers have no order, and values of
different kinds cannot be compared at all.

* `Value.orderWith`: the order of values, given the order of lists in the store.
* `Store.order`: the order in a store. The error is the pair that cannot be compared.
* `Value.isPlain`: the values whose order is total among those that can be compared.
-/

namespace Stackwise

/-! ## 1. Values -/

/-- Two values that cannot be compared. -/
structure Incomparable where
  /-- The left value. -/
  left : Value
  /-- The right value. -/
  right : Value

/-- The outcome of a comparison: nothing stands for numbers that have no order. -/
abbrev Ordered := Except Incomparable (Option Ordering)

namespace Value

/-- The order of numbers, if both values are numbers. -/
def orderNumbers? (a b : Value) : Option (Option Ordering) :=
  match a.asInt?, b.asInt? with
  | some x, some y => some (some (compare x y))
  | _, _ =>
    match a.asDouble?, b.asDouble? with
    | some x, some y => some (x.compare? y)
    | _, _ => Option.none

/-- The order of byte strings. -/
def orderBytes : List UInt8 → List UInt8 → Ordering
  | [], [] => .eq
  | [], _ :: _ => .lt
  | _ :: _, [] => .gt
  | x :: xs, y :: ys => (compare x y).then (orderBytes xs ys)

mutual

/-- The order of values; `same` decides equality, and `below` the order of two lists. -/
def orderWith (same : Value → Value → Bool) (below : Value → Value → Ordered) :
    Value → Value → Ordered
  | .str _ a, .str _ b => .ok (some (compare a b))
  | .bytes _ a, .bytes _ b => .ok (some (orderBytes a b))
  | .tuple _ a, .tuple _ b => orderItems same below a b
  | .list a, .list b => below (.list a) (.list b)
  | a, b =>
    match a.orderNumbers? b with
    | some o => .ok o
    | Option.none => .error ⟨a, b⟩

/-- The order of sequences: that of the first items that differ, else that of the lengths. -/
def orderItems (same : Value → Value → Bool) (below : Value → Value → Ordered) :
    List Value → List Value → Ordered
  | a :: as, b :: bs => if same a b then orderItems same below as bs else orderWith same below a b
  | [], [] => .ok (some .eq)
  | [], _ :: _ => .ok (some .lt)
  | _ :: _, [] => .ok (some .gt)

end

end Value

/-! ## 2. The store -/

namespace Store

/-- The order of values, looking through at most `fuel` lists inside each other. -/
def orderWithin (s : Store) : Nat → Value → Value → Ordered
  | 0, a, b => a.orderWith s.equal (fun a b => .error ⟨a, b⟩) b
  | fuel + 1, a, b =>
    a.orderWith s.equal (fun
      | .list x, .list y =>
        let xs := (s.lists.get x).toList
        let ys := (s.lists.get y).toList
        match (xs.zip ys).find? fun (v, w) => !s.equal v w with
        | some (v, w) => s.orderWithin fuel v w
        | none => .ok (some (compare xs.length ys.length))
      | a, b => .error ⟨a, b⟩) b

/-- The order of values. -/
def order (s : Store) (a b : Value) : Ordered := s.orderWithin s.size a b

end Store

/-! ## 3. Plain values -/

namespace Value

mutual

/-- Whether a value is built from truth values, integers, texts, byte strings and tuples alone.
Plain values are in one total order, as far as they can be compared. -/
def isPlain : Value → Bool
  | .bool _ | .int _ | .str _ _ | .bytes _ _ => true
  | .tuple _ items => allPlain items
  | _ => false

/-- Whether all values are plain. -/
def allPlain : List Value → Bool
  | [] => true
  | v :: vs => v.isPlain && allPlain vs

end

end Value

end Stackwise
