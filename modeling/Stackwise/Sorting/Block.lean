/-!
# Sorting blocks

Sorting here asks a comparison `before`, which tells whether one item comes strictly before another
and may fail; the first comparison that fails ends the sorting. Where comparisons contradict each
other, or fail, the outcome depends on which items are compared, and in which order, so each method
fixes that.

Two sorted lists become one by merging; of equal items, those of the left list stand first.

* `Sorting.mergeUp` takes the items from the front, `Sorting.mergeDown` from the end.
* `Sorting.merge` begins where the shorter list is used up sooner.
* `Sorting.mergeHalves` works from both ends at once, for two lists of the same length or with one
  more item in the right one.
* `Sorting.insert`: an item moves down past its predecessors as long as it comes strictly before
  them, so that equal items keep their order.
* `Sorting.insertAll`: the items of a list move into a sorted list one after the other.
* `Sorting.sortBlock`: lists of at most 32 items. Each half begins with four or eight items that a
  network of comparisons sorts; the other items of the half are inserted, and the halves are merged
  from both ends.
-/

namespace Stackwise.Sorting

variable {α ε : Type} (before : α → α → Except ε Bool)

/-! ## 1. Merging from one end -/

/-- Merges from the front. -/
def mergeUp : List α → List α → Except ε (List α)
  | [], right => return right
  | left, [] => return left
  | a :: left, b :: right => do
    if ← before b a then return b :: (← mergeUp (a :: left) right)
    else return a :: (← mergeUp left (b :: right))
termination_by left right => left.length + right.length

/-- Merges reversed lists from the end, in front of what is `done`. -/
def mergeDownFrom : List α → List α → List α → Except ε (List α)
  | [], right, done => return right.reverse ++ done
  | left, [], done => return left.reverse ++ done
  | a :: left, b :: right, done => do
    if ← before b a then mergeDownFrom left (b :: right) (a :: done)
    else mergeDownFrom (a :: left) right (b :: done)
termination_by left right => left.length + right.length

/-- Merges from the end. -/
def mergeDown (left right : List α) : Except ε (List α) :=
  mergeDownFrom before left.reverse right.reverse []

/-- Merges two sorted lists. -/
def merge (left right : List α) : Except ε (List α) :=
  if left.length ≤ right.length then mergeUp before left right else mergeDown before left right

/-! ## 2. Merging from both ends -/

/-- The state of a merge from both ends. -/
structure Pincer (α : Type) where
  /-- What is left of the left list, from its front. -/
  left : List α
  /-- What is left of the right list, from its front. -/
  right : List α
  /-- What is left of the left list, from its end. -/
  leftEnd : List α
  /-- What is left of the right list, from its end. -/
  rightEnd : List α
  /-- The first items, the latest first. -/
  low : List α
  /-- The last items. -/
  high : List α

namespace Pincer

/-- Takes the least item, from the front. -/
def takeLow (p : Pincer α) : Except ε (Pincer α) := do
  match p.left, p.right with
  | a :: left, b :: right =>
    if ← before b a then return { p with right, low := b :: p.low }
    else return { p with left, low := a :: p.low }
  | _, _ => return p

/-- Takes the greatest item, from the end. -/
def takeHigh (p : Pincer α) : Except ε (Pincer α) := do
  match p.leftEnd, p.rightEnd with
  | a :: leftEnd, b :: rightEnd =>
    if ← before b a then return { p with leftEnd, high := a :: p.high }
    else return { p with rightEnd, high := b :: p.high }
  | _, _ => return p

/-- Takes items from both ends a number of times. -/
def close : Nat → Pincer α → Except ε (Pincer α)
  | 0, p => return p
  | n + 1, p => do close n (← takeHigh before (← takeLow before p))

/-- The item between the ends, after a left list of `half` items has been worked through from both.
It is in the left list unless front and end have met there. -/
def middle (half : Nat) (p : Pincer α) : List α :=
  if half < p.left.length + p.leftEnd.length then p.left.take 1 else p.right.take 1

end Pincer

/-- Merges two sorted lists, taking the least and the greatest item in turn. -/
def mergeHalves (left right : List α) : Except ε (List α) := do
  let p ← Pincer.close before left.length ⟨left, right, left.reverse, right.reverse, [], []⟩
  let middle := if left.length < right.length then p.middle left.length else []
  return p.low.reverse ++ middle ++ p.high

/-! ## 3. Insertion -/

/-- Puts an item into a sorted list, which is kept in reverse: the item goes behind the last one
that it does not come before. -/
def insert (a : α) : List α → Except ε (List α)
  | [] => return [a]
  | b :: rest => do
    if ← before a b then return b :: (← insert a rest)
    else return a :: b :: rest

/-- Puts the items of a list into a sorted one, one after the other. -/
def insertAll (sorted items : List α) : Except ε (List α) :=
  (items.foldlM (fun done a => insert before a done) sorted.reverse).map List.reverse

/-! ## 4. Blocks -/

/-- The greatest number of items of a block. -/
def blockSize : Nat := 32

/-- Sorts four items: two pairs, then the least and the greatest of all, then the two between. -/
def sortFour (v₀ v₁ v₂ v₃ : α) : Except ε (List α) := do
  let (a, b) := if ← before v₁ v₀ then (v₁, v₀) else (v₀, v₁)
  let (c, d) := if ← before v₃ v₂ then (v₃, v₂) else (v₂, v₃)
  let low ← before c a
  let high ← before d b
  let left := if low then a else if high then c else b
  let right := if high then d else if low then b else c
  let (x, y) := if ← before right left then (right, left) else (left, right)
  return [if low then c else a, x, y, if high then b else d]

/-- Sorts the first four items of a list, and keeps only them. -/
def firstFour : List α → Except ε (List α)
  | v₀ :: v₁ :: v₂ :: v₃ :: _ => sortFour before v₀ v₁ v₂ v₃
  | items => return items

/-- Sorts the first eight items of a list, and keeps only them. -/
def firstEight (items : List α) : Except ε (List α) := do
  mergeHalves before (← firstFour before items) (← firstFour before (items.drop 4))

/-- Sorts a block. -/
def sortBlock (items : List α) : Except ε (List α) := do
  let n := items.length
  if n < 2 then return items
  else
    let left := items.take (n / 2)
    let right := items.drop (n / 2)
    let (begun, l, r) ←
      if 16 ≤ n then pure (8, ← firstEight before left, ← firstEight before right)
      else if 8 ≤ n then pure (4, ← firstFour before left, ← firstFour before right)
      else pure (1, left.take 1, right.take 1)
    let l ← insertAll before l (left.drop begun)
    let r ← insertAll before r (right.drop begun)
    mergeHalves before l r

end Stackwise.Sorting
