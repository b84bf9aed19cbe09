import Stackwise.Types.TypeId

/-!
# Linearization of a class hierarchy

The order in which a class and its ancestors are searched. It is found by merging the orders of
the bases, each already known, with the list of the bases themselves:

* `merge` takes, again and again, the first head of the remaining sequences that stands in no
  tail, and strikes it from the front of every sequence;
* `linearize` puts the class itself in front of the merged order.

The merge fails exactly when sequences remain and every head is blocked by some tail.
-/

namespace Stackwise

/-- The order in which a class and its ancestors are searched, the class itself first. -/
abbrev Linearization := List TypeId

namespace Linearization

/-- The first element of the sequences that stands in no tail of any of them. -/
def candidate? (seqs : List (List TypeId)) : Option TypeId :=
  (seqs.filterMap List.head?).find? fun h => !seqs.any fun s => s.tail.contains h

/-- Removes `c` from the front of a sequence that starts with it. -/
def strike (c : TypeId) : List TypeId → List TypeId
  | [] => []
  | x :: xs => if x = c then xs else x :: xs

/-- The total number of entries still to be merged. -/
def pending (seqs : List (List TypeId)) : Nat := seqs.flatten.length

/-- Merges the sequences with at most `fuel` choices. A choice strikes an entry of at least one
sequence, so `pending seqs` choices are always enough. -/
def mergeWith : Nat → List (List TypeId) → Option (List TypeId)
  | 0, seqs => if seqs.all List.isEmpty then some [] else none
  | fuel + 1, seqs =>
    let live := seqs.filter fun s => !s.isEmpty
    if live.isEmpty then some []
    else do
      let c ← candidate? live
      let rest ← mergeWith fuel (live.map (strike c))
      return c :: rest

/-- One order that keeps the order of every given sequence, if the greedy merge finds one. -/
def merge (seqs : List (List TypeId)) : Option (List TypeId) :=
  mergeWith (pending seqs) seqs

/-- The search order of a new class `c` with the direct `bases`, given the order of each base. -/
def linearize (c : TypeId) (bases : List TypeId) (orderOf : TypeId → Linearization) :
    Option Linearization :=
  (merge (bases.map orderOf ++ [bases])).map (c :: ·)

end Linearization

end Stackwise
