/-!
# Progressions and slices

The values of `range`: a first term, a bound that is not reached, and a step that is not zero. All
arithmetic is that of 64-bit words. A slice selects the positions of a sequence that are the terms
of a progression. Its parts are resolved against the length: absent parts take the ends that the
step asks for, negative ones count from the end, and all are held inside the sequence.

* `Progression.length`: the number of terms.
* `Progression.contains`, `Progression.get?`: membership and the term at a position, the last ones
  by negative positions.
* `Progression.next?`, `Progression.rest`: iteration; the step past the last term stops at the ends
  of the range of words.
* `Slice.resolve`: the bounds for a sequence of a given length.
* `Slice.positions`: the selected positions in order.
* `Slice.select`, `Slice.remove`, `Slice.replace`: what a slice does to a list.
-/

namespace Stackwise

/-! ## 1. Progressions -/

/-- The terms from `start` on that lie before `stop`. -/
structure Progression where
  /-- The first term. -/
  start : Int64
  /-- The bound. -/
  stop : Int64
  /-- The difference of neighbours, never zero. -/
  step : Int64
  deriving DecidableEq, Hashable, Repr

namespace Progression

/-- Number of terms. -/
def length (p : Progression) : Int64 :=
  let (low, high, step) :=
    if 0 < p.step then (p.start, p.stop, p.step) else (p.stop, p.start, -p.step)
  if high ≤ low then 0 else (high - low - 1) / step + 1

/-- Whether there is no term. -/
def isEmpty (p : Progression) : Bool := p.length == 0

/-- Whether a number lies between the first term and the bound. -/
def spans (p : Progression) (n : Int64) : Bool :=
  if 0 < p.step then p.start ≤ n && n < p.stop else p.stop < n && n ≤ p.start

/-- Whether a number is a term. -/
def contains (p : Progression) (n : Int64) : Bool :=
  p.spans n && (n - p.start) % p.step == 0

/-- The term at a position; negative positions count from the end. -/
def get? (p : Progression) (index : Int64) : Option Int64 :=
  let size := p.length
  let i := if index < 0 then index + size else index
  if 0 ≤ i && i < size then some (p.start + i * p.step) else none

/-- The terms after the first, as iteration sees them: the next term, if there is one. -/
def next? (p : Progression) : Option Int64 :=
  if (if 0 < p.step then p.start < p.stop else p.start > p.stop) then some p.start else none

/-- The sum of two words, held at the ends of their range. -/
def saturatingAdd (a b : Int64) : Int64 :=
  Int64.ofInt (max (-0x8000000000000000) (min 0x7fffffffffffffff (a.toInt + b.toInt)))

/-- What is left after one term has been yielded. -/
def rest (p : Progression) : Progression := { p with start := saturatingAdd p.start p.step }

/-- The text of a progression. -/
def text (p : Progression) : String :=
  let ends := toString p.start.toInt ++ ", " ++ toString p.stop.toInt
  if p.step == 1 then "range(" ++ ends ++ ")"
  else "range(" ++ ends ++ ", " ++ toString p.step.toInt ++ ")"

end Progression

/-! ## 2. Slices -/

namespace Slice

/-- A bound held inside a sequence of the given length; the default stands for an absent one. -/
def clamp (size step : Int64) (default : Int64) : Option Int64 → Int64
  | none => default
  | some i =>
    if i < 0 then
      let j := i + size
      if j < 0 then (if step < 0 then -1 else 0) else j
    else if size ≤ i then (if step < 0 then size - 1 else size)
    else i

/-- The bounds of a slice in a sequence of `size` items. -/
def resolve (start stop : Option Int64) (step : Int64) (size : Nat) : Progression :=
  let n := Int64.ofNat size
  let (first, last) := if step < 0 then (n - 1, -1) else (0, n)
  { start := clamp n step first start
    stop := clamp n step last stop
    step }

/-- The positions that a slice with resolved bounds selects, in its own order. -/
def positions (p : Progression) : List Nat :=
  (List.range p.length.toInt.toNat).map fun k =>
    (p.start + Int64.ofNat k * p.step).toInt.toNat

/-- The selected items. -/
def select {α : Type} (p : Progression) (items : Array α) : List α :=
  (positions p).filterMap fun i => items[i]?

/-- The items that are not selected. -/
def remove {α : Type} (p : Progression) (items : List α) : List α :=
  let gone := positions p
  (items.zipIdx.filter fun (_, i) => !gone.contains i).map (·.1)

/-- The items with a gapless selection replaced. -/
def replace {α : Type} (p : Progression) (items replacement : List α) : List α :=
  let start := p.start.toInt.toNat
  let stop := max p.stop.toInt.toNat start
  items.take start ++ replacement ++ items.drop stop

end Slice

end Stackwise
