import Stackwise.Sorting.Runs

/-!
# Stable sorting

If a comparison is a consistent order, there is one stable arrangement of a list, and every method
finds it. Otherwise, and for the question which comparison fails first, the method matters.

Sorting by partition parts a list at one of its items, the pivot: the items that come strictly
before it, and the others, each in their order. Blocks are sorted as such, and a list that has been
parted too often is sorted by its runs.

* `Sorting.median`: the item in the middle of three.
* `Sorting.pivot`: the median of three items, or of medians, spread over the list.
* `Sorting.quick`: sorting by partition. If no item comes before the pivot, the items equal to it
  are set apart, and only the rest is sorted.
* `Sorting.arrangement?`: the arrangement by merging, as far as it turns out to be in order.
* `Sorting.stableSort`: the method that fits the length of a list: insertion for a short one, runs
  that are sorted at once for a moderate one, and for a long one runs that stay unsorted as long as
  no sorted run is next to them, so that they are sorted together by partition.
-/

namespace Stackwise.Sorting

variable {α ε : Type} (before : α → α → Except ε Bool)

/-! ## 1. Pivots -/

/-- The item in the middle of three. -/
def median (items : Array α) (a b c : Nat) : Except ε Nat := do
  match items[a]?, items[b]?, items[c]? with
  | some x, some y, some z =>
    let belowSecond ← before x y
    let belowThird ← before x z
    if belowSecond == belowThird then
      if (← before y z) != belowSecond then return c else return b
    else return a
  | _, _, _ => return a

/-- The median of three items, each of them the median of a stretch of `n` items that begins there
if the stretch is long. -/
def medianOf (items : Array α) (a b c n : Nat) : Except ε Nat := do
  if 8 ≤ n then
    let k := n / 8
    let a ← medianOf items a (a + 4 * k) (a + 7 * k) k
    let b ← medianOf items b (b + 4 * k) (b + 7 * k) k
    let c ← medianOf items c (c + 4 * k) (c + 7 * k) k
    median before items a b c
  else median before items a b c
termination_by n

/-- The position of the pivot. -/
def pivot (items : List α) : Except ε Nat :=
  let n := items.length
  let k := n / 8
  if n < 64 then median before items.toArray 0 (4 * k) (7 * k)
  else medianOf before items.toArray 0 (4 * k) (7 * k) k

/-! ## 2. Partition -/

/-- Parts items by a test, each part in its order. -/
def part (test : α → Except ε Bool) : List α → Except ε (List α × List α)
  | [] => return ([], [])
  | a :: rest => do
    let goesLeft ← test a
    let (left, right) ← part test rest
    return if goesLeft then (a :: left, right) else (left, a :: right)

/-- Parts a list at the pivot, which goes to the given side without a test. -/
def partAround (front : List α) (p : α) (back : List α) (pivotLeft : Bool)
    (test : α → Except ε Bool) : Except ε (List α × List α) := do
  let (l₁, r₁) ← part test front
  let (l₂, r₂) ← part test back
  return if pivotLeft then (l₁ ++ p :: l₂, r₁ ++ r₂) else (l₁ ++ l₂, r₁ ++ p :: r₂)

/-! ## 3. Sorting by partition -/

/-- Sorts a list that may be parted `limit` times. If there is a `floor`, no item comes before
it. -/
def quickWithin : Nat → Option α → List α → Except ε (List α)
  | 0, _, items =>
    if items.length ≤ blockSize then sortBlock before items else sortEagerly before items
  | limit + 1, floor, items => do
    if items.length ≤ blockSize then sortBlock before items
    else
      let k ← pivot before items
      match items.take k, items.drop k with
      | front, p :: back =>
        let lowest ← match floor with
          | some f => pure !(← before f p)
          | none => pure false
        let (left, right) ←
          if lowest then pure ([], [])
          else partAround front p back false fun a => before a p
        if left.isEmpty then
          let (equal, above) ← partAround front p back true fun a => return !(← before p a)
          return equal ++ (← quickWithin limit none above)
        else
          let above ← quickWithin limit (some p) right
          return (← quickWithin limit floor left) ++ above
      | _, [] => return items

/-- Sorts a list by partition. -/
def quick (items : List α) : Except ε (List α) :=
  quickWithin before (2 * items.length.log2) none items

/-! ## 4. Consistent orders -/

/-- Whether each item can be compared with the next one, and the next one does not come before
it. -/
def inOrder : List α → Bool
  | a :: b :: rest => ((before b a).toOption == some false) && inOrder (b :: rest)
  | _ => true

/-- The stable arrangement of a list by merging, if it is in order. If `before` is a total order
among the items that it can compare, and items between two others can be compared only if those can,
it is the arrangement that every stable method finds. -/
def arrangement? (items : List α) : Option (List α) :=
  let merged := items.mergeSort fun a b => (before b a).toOption != some true
  if inOrder before merged then some merged else none

/-! ## 5. Any comparison -/

/-- The greatest length of a list that is sorted by insertion. -/
def shortLength : Nat := 20

/-- Sorts a list by runs that may stay unsorted until they are merged. -/
def sortLazily (items : List α) : Except ε (List α) :=
  let least := leastNatural items.length
  sortRuns before {
    least
    factor := stretch items.length
    make := fun rest => return ⟨rest.take least, false⟩
    sort := quick before } items

/-- Sorts a list. If the comparison is a consistent order, equal items keep their order. -/
def stableSort (items : List α) : Except ε (List α) :=
  if items.length ≤ shortLength then insertAll before [] items
  else if items.length ≤ 2 * blockSize then sortEagerly before items
  else sortLazily before items

end Stackwise.Sorting
