/-!
# Bit sets

Finite sets of natural numbers in words of 64 bits: a number `i` is bit `i % 64` of word `i / 64`.
Words are set aside when a member needs them and are never given back; words that were not set aside
count as zero. Two sets with the same members can differ in their words, and equality of sets
compares the words.
-/

namespace Stackwise

/-- A finite set of natural numbers. -/
structure BitSet where
  /-- The words set aside. -/
  words : List UInt64
  deriving DecidableEq, Hashable, Repr

namespace BitSet

/-- Number of words that hold the numbers below `n`. -/
def wordsFor (n : Nat) : Nat := (n + 63) / 64

/-- The word in which only the bit of `i` is set. -/
def bit (i : Nat) : UInt64 := 1 <<< UInt64.ofNat (i % 64)

/-- Whether the bit of `i` is set in a word. -/
def hasBit (w : UInt64) (i : Nat) : Bool := w &&& bit i != 0

/-- The bits that are set in a word, in increasing order. -/
def bitsOf (w : UInt64) : List Nat := (List.range 64).filter (hasBit w)

/-- The empty set. -/
def empty : BitSet := ⟨[]⟩

instance : Inhabited BitSet := ⟨empty⟩

/-- The empty set with room for the numbers below `n`. -/
def withCapacity (n : Nat) : BitSet := ⟨List.replicate (wordsFor n) 0⟩

/-- Word `k` of a set; zero if it was not set aside. -/
def word (s : BitSet) (k : Nat) : UInt64 := s.words.getD k 0

/-- The set with at least `n` words set aside. -/
def reserve (s : BitSet) (n : Nat) : BitSet :=
  ⟨s.words ++ List.replicate (n - s.words.length) 0⟩

/-- Whether `i` is a member. -/
def contains (s : BitSet) (i : Nat) : Bool := hasBit (s.word (i / 64)) i

/-- Adds a member. -/
def insert (s : BitSet) (i : Nat) : BitSet :=
  ⟨(s.reserve (wordsFor (i + 1))).words.modify (i / 64) (· ||| bit i)⟩

/-- Whether adding `i` enlarges the set. -/
def isFresh (s : BitSet) (i : Nat) : Bool := s.word (i / 64) &&& bit i == 0

/-- Removes a member. -/
def erase (s : BitSet) (i : Nat) : BitSet := ⟨s.words.modify (i / 64) (· &&& ~~~bit i)⟩

/-- The members of either set. -/
def union (s t : BitSet) : BitSet :=
  ⟨(s.reserve t.words.length).words.mapIdx fun k w => w ||| t.word k⟩

/-- Whether adding the members of `t` enlarges `s`: a word of `t` changes the word beside it. -/
def growsBy (s t : BitSet) : Bool := t.words.zipIdx.any fun (w, k) => s.word k ||| w != s.word k

/-- The members of `s` that are not in `t`. -/
def subtract (s t : BitSet) : BitSet := ⟨s.words.mapIdx fun k w => w &&& ~~~t.word k⟩

/-- Whether there are no members. -/
def isEmpty (s : BitSet) : Bool := s.words.all (· == 0)

/-- The members in increasing order. -/
def toList (s : BitSet) : List Nat :=
  s.words.zipIdx.flatMap fun (w, k) => (bitsOf w).map (64 * k + ·)

/-- Number of members. -/
def size (s : BitSet) : Nat := s.words.foldl (fun n w => n + (bitsOf w).length) 0

/-- The set of the given numbers. -/
def ofList (is : List Nat) : BitSet := is.foldl insert empty

end BitSet

end Stackwise
