import Stackwise.Sorting.Block

/-!
# Sorting by runs

A list is cut into runs from the front, and neighbouring runs are merged. A long stretch that is
sorted already, or strictly falling, is a run as it stands; between such stretches runs are made.
Which neighbours are merged first is decided by where the boundary between two runs lies: the
boundaries that a binary search over the whole list would meet later are removed earlier.

* `Sorting.natural`: the stretch at the front of a list that needs no sorting.
* `Sorting.depth`: how late a binary search meets a boundary.
* `Sorting.sortRuns`: sorting, given how runs are made. A run may be left unsorted until it is
  merged with a sorted one, so that unsorted neighbours become one larger run.
* `Sorting.sortEagerly`: all runs that are made are sorted at once, as blocks.
-/

namespace Stackwise.Sorting

variable {α ε : Type} (before : α → α → Except ε Bool)

/-- A part of the list. -/
structure Run (α : Type) where
  /-- Its items. -/
  items : List α
  /-- Whether they are sorted. -/
  sorted : Bool

/-! ## 1. Natural runs -/

/-- The number of items that follow `a` and continue a stretch; in a falling stretch each comes
strictly before the one in front of it, in any other stretch none does. -/
def continues (falling : Bool) (a : α) : List α → Except ε Nat
  | [] => return 0
  | b :: rest => do
    if (← before b a) == falling then return (← continues falling b rest) + 1 else return 0

/-- The length of the stretch at the front, and whether it is falling. -/
def natural : List α → Except ε (Nat × Bool)
  | [] => return (0, false)
  | [_] => return (1, false)
  | a :: b :: rest => do
    let falling ← before b a
    return ((← continues before falling b rest) + 2, falling)

/-- The least length of a stretch that is taken as it stands: half of a short list, about the square
root of the length of a long one. -/
def leastNatural (n : Nat) : Nat :=
  if n ≤ 4096 then min (n - n / 2) 64
  else
    let shift := (1 + n.log2) / 2
    (Nat.pow 2 shift + n / Nat.pow 2 shift) / 2

/-- The run at the front of a list; `make` makes one where the front is not sorted. -/
def nextRun (least : Nat) (make : List α → Except ε (Run α)) (items : List α) :
    Except ε (Run α) := do
  if least ≤ items.length then
    let (n, falling) ← natural before items
    if least ≤ n then
      let front := items.take n
      return ⟨if falling then front.reverse else front, true⟩
  make items

/-! ## 2. The order of merges -/

/-- The factor that stretches positions in a list of `n` items to 62 bits. -/
def stretch (n : Nat) : Nat := (0x4000000000000000 + n - 1) / n

/-- How late a binary search over the list meets the boundary at `middle` between two runs from
`start` on and up to `stop`: the number of leading bits in which their centres agree. -/
def depth (factor start middle stop : Nat) : Nat :=
  let apart := (factor * (start + middle)) ^^^ (factor * (middle + stop))
  if apart == 0 then 64 else 63 - apart.log2

/-- Joins two runs. Two unsorted runs are one unsorted run; else they are sorted and merged. -/
def join (sort : List α → Except ε (List α)) (left right : Run α) : Except ε (Run α) := do
  if left.sorted || right.sorted then
    let l ← if left.sorted then pure left.items else sort left.items
    let r ← if right.sorted then pure right.items else sort right.items
    return ⟨← merge before l r, true⟩
  else return ⟨left.items ++ right.items, false⟩

/-- Joins a run with the runs before it, as long as their boundaries lie at least as deep. -/
def collapse (sort : List α → Except ε (List α)) (level : Nat) :
    List (Run α × Nat) → Run α → Except ε (Run α × List (Run α × Nat))
  | [], run => return (run, [])
  | (left, d) :: stack, run => do
    if level ≤ d then collapse sort level stack (← join before sort left run)
    else return (run, (left, d) :: stack)

/-! ## 3. Sorting -/

/-- How runs are made, and how a run that was left unsorted is sorted. -/
structure Method (α ε : Type) where
  /-- The least length of a stretch that is taken as it stands. -/
  least : Nat
  /-- The factor of `depth`. -/
  factor : Nat
  /-- Makes a run at the front of a list. -/
  make : List α → Except ε (Run α)
  /-- Sorts a run. -/
  sort : List α → Except ε (List α)

/-- Goes through the runs of what is left; `run` is the latest one and begins at `start`, and the
stack holds the runs before it with the depths of their right boundaries. -/
def sortRunsFrom (m : Method α ε) (stack : List (Run α × Nat)) (start : Nat) (run : Run α) :
    List α → Except ε (Run α)
  | [] => return (← collapse before m.sort 0 stack run).1
  | a :: rest => do
    let next ← nextRun before m.least m.make (a :: rest)
    let middle := start + run.items.length
    let level := depth m.factor start middle (middle + next.items.length)
    let (joined, stack) ← collapse before m.sort level stack run
    sortRunsFrom m ((joined, level) :: stack) middle next (rest.drop (next.items.length - 1))
termination_by rest => rest.length

/-- Sorts a list by its runs. -/
def sortRuns (m : Method α ε) (items : List α) : Except ε (List α) := do
  let first ← nextRun before m.least m.make items
  let whole ← sortRunsFrom before m [] 0 first (items.drop first.items.length)
  if whole.sorted then return whole.items else m.sort whole.items

/-- Sorts a list by runs that are sorted at once. -/
def sortEagerly (items : List α) : Except ε (List α) :=
  sortRuns before {
    least := leastNatural items.length
    factor := stretch items.length
    make := fun rest => return ⟨← sortBlock before (rest.take blockSize), true⟩
    sort := sortBlock before } items

end Stackwise.Sorting
