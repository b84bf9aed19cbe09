import Std.Data.TreeMap

/-!
# Offset maps

A pass that inserts or removes instructions builds a new list together with a map from the offsets
of the old list to those of the new one. An instruction that became several maps to the first of
them, one that was removed to whatever took its place.
-/

namespace Stackwise

/-- A finite map from old offsets to new ones. -/
structure OffsetMap where
  /-- The pairs, by old offset. -/
  table : Std.TreeMap Nat Nat := {}

namespace OffsetMap

/-- The map without pairs. -/
def empty : OffsetMap := {}

instance : Inhabited OffsetMap := ⟨empty⟩

/-- Records that `old` now stands at `new`. -/
def insert (m : OffsetMap) (old new : Nat) : OffsetMap := ⟨m.table.insert old new⟩

/-- The new offset of `old`. -/
def get? (m : OffsetMap) (old : Nat) : Option Nat := m.table[old]?

/-- Number of offsets that are mapped. -/
def size (m : OffsetMap) : Nat := m.table.size

/-- Whether nothing is mapped. -/
def isEmpty (m : OffsetMap) : Bool := m.table.isEmpty

/-- The pairs in the order of the old offsets. -/
def toList (m : OffsetMap) : List (Nat × Nat) := m.table.toList

/-- The map of the given pairs, a later pair winning. -/
def ofList (pairs : List (Nat × Nat)) : OffsetMap :=
  pairs.foldl (fun m p => m.insert p.1 p.2) empty

/-- The identity on the given offsets. -/
def identity (offsets : List Nat) : OffsetMap := ofList (offsets.map fun o => (o, o))

/-- First `m`, then `next`; an offset whose image `next` does not map is dropped. -/
def andThen (m next : OffsetMap) : OffsetMap :=
  ofList (m.toList.filterMap fun p => (next.get? p.2).map fun new => (p.1, new))

end OffsetMap

end Stackwise
