/-!
# Hashing words

A number for a sequence of words of 64 bits. Contents of other kinds are first written as such a
sequence: a text or a byte string by a word for all its bytes, a list by its length and its items.
Different contents can share a number, and it is fixed which ones do.

* `Hashing.ofWords`: the number of a sequence, by one multiplication for each word.
* `Hashing.ofBytes`: the word of any number of bytes.
* `Hashing.textWords`, `Hashing.bytesWords`, `Hashing.listWords`: contents as sequences.
-/

namespace Stackwise.Hashing

/-! ## 1. Sequences -/

/-- One step through a sequence. A sequence of zeros stays at zero. -/
def step (h n : UInt64) : UInt64 := (h + n) * 0xf1357aea2e62a9c5

/-- The number of a sequence: the last state, with its high bits brought to the low end. -/
def ofWords (ns : List UInt64) : UInt64 :=
  let h := ns.foldl step 0
  (h <<< 26) ||| (h >>> 38)

/-! ## 2. Bytes -/

/-- The product of two words, folded to one word. -/
def foldedProduct (x y : UInt64) : UInt64 :=
  let p := x.toNat * y.toNat
  UInt64.ofNat p ^^^ UInt64.ofNat (p / 0x10000000000000000)

/-- The word of at most eight bytes, the lowest first. -/
def word (bs : List UInt8) : UInt64 := bs.foldr (fun b n => n * 256 + b.toUInt64) 0

/-- The last `n` bytes. -/
def lastBytes (n : Nat) (bs : List UInt8) : List UInt8 := bs.drop (bs.length - n)

/-- The first state. -/
def seeds : UInt64 × UInt64 := (0x243f6a8885a308d3, 0x13198a2e03707344)

/-- Takes two words into the state. -/
def mix (s : UInt64 × UInt64) (first last : UInt64) : UInt64 × UInt64 :=
  (s.1 ^^^ first, s.2 ^^^ last)

/-- The state after all blocks of 16 bytes that have more bytes behind them. -/
def absorb (s : UInt64 × UInt64) (bs : List UInt8) : UInt64 × UInt64 :=
  if bs.length ≤ 16 then s
  else
    let x := word (bs.take 8)
    let y := word ((bs.drop 8).take 8)
    absorb (s.2, foldedProduct (s.1 ^^^ x) (0xa4093822299f31d0 ^^^ y)) (bs.drop 16)
termination_by bs.length

/-- The last state. The first and the last words of a short content may overlap; of a long one, the
last 16 bytes are taken in at the end. -/
def lastState (bs : List UInt8) : UInt64 × UInt64 :=
  let n := bs.length
  if 16 < n then
    mix (absorb seeds bs) (word ((lastBytes 16 bs).take 8)) (word (lastBytes 8 bs))
  else if 8 ≤ n then mix seeds (word (bs.take 8)) (word (lastBytes 8 bs))
  else if 4 ≤ n then mix seeds (word (bs.take 4)) (word (lastBytes 4 bs))
  else
    match bs with
    | [] => seeds
    | b :: _ => mix seeds (word [b]) (word [bs.getD (n / 2) 0, bs.getD (n - 1) 0])

/-- The word of any number of bytes. -/
def ofBytes (bs : List UInt8) : UInt64 :=
  let (x, y) := lastState bs
  foldedProduct x y ^^^ UInt64.ofNat bs.length

/-! ## 3. Contents -/

/-- A truth value. -/
def boolWord (b : Bool) : UInt64 := if b then 1 else 0

/-- A text: its bytes and an end mark. -/
def textWords (s : String) : List UInt64 := [ofBytes s.toUTF8.toList, 0xff]

/-- A byte string: its length and its bytes. -/
def bytesWords (bs : List UInt8) : List UInt64 := [UInt64.ofNat bs.length, ofBytes bs]

/-- A list: its length and the words of its items. -/
def listWords {α : Type} (words : α → List UInt64) (items : List α) : List UInt64 :=
  UInt64.ofNat items.length :: items.flatMap words

end Stackwise.Hashing
