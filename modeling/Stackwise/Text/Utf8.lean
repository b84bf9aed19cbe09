/-!
# Reading UTF-8

Splits a byte string into characters and ill-formed pieces.

* A piece that breaks off because a byte does not fit is as long as the bytes that did fit;
* a piece that breaks off because the bytes end is *cut*;
* `decode` accepts only texts without such pieces and says where the first one starts;
* `decodeLossy` puts the replacement character in the place of each of them.
-/

namespace Stackwise.Text.Utf8

/-- One piece of a byte string. -/
inductive Piece where
  /-- A character and the number of its bytes. -/
  | char (c : Char) (width : Nat)
  /-- Bytes that start no character. -/
  | bad (width : Nat)
  /-- The end of the bytes inside a character. -/
  | cut (width : Nat)
  deriving Repr

/-- Why bytes are no text. -/
structure Fault where
  /-- Position of the first byte that is not part of a character. -/
  index : Nat
  /-- Length of the ill-formed piece; none if the bytes end inside a character. -/
  width : Option Nat
  deriving DecidableEq, Repr

/-- The text of a fault. -/
def Fault.message (f : Fault) : String :=
  match f.width with
  | some n =>
    "invalid utf-8 sequence of " ++ toString n ++ " bytes from index " ++ toString f.index
  | none => "incomplete utf-8 byte sequence from index " ++ toString f.index

/-- What a leading byte announces: the number of bytes that follow, the bounds of the next one and
the bits that the leading byte contributes. -/
def lead (b : Nat) : Option (Nat × Nat × Nat × Nat) :=
  if b < 0x80 then some (0, 0, 0, b)
  else if 0xc2 ≤ b && b ≤ 0xdf then some (1, 0x80, 0xbf, b - 0xc0)
  else if b == 0xe0 then some (2, 0xa0, 0xbf, 0)
  else if b == 0xed then some (2, 0x80, 0x9f, 0xd)
  else if 0xe1 ≤ b && b ≤ 0xef then some (2, 0x80, 0xbf, b - 0xe0)
  else if b == 0xf0 then some (3, 0x90, 0xbf, 0)
  else if 0xf1 ≤ b && b ≤ 0xf3 then some (3, 0x80, 0xbf, b - 0xf0)
  else if b == 0xf4 then some (3, 0x80, 0x8f, 4)
  else none

/-- Reads the bytes that a leading byte announced; `used` bytes have been read so far. -/
def follow : Nat → Nat → Nat → Nat → Nat → List UInt8 → Piece
  | 0, _, _, acc, used, _ => .char (Char.ofNat acc) used
  | _ + 1, _, _, _, used, [] => .cut used
  | k + 1, lo, hi, acc, used, b :: bs =>
    if lo ≤ b.toNat && b.toNat ≤ hi then
      follow k 0x80 0xbf (acc * 64 + (b.toNat - 0x80)) (used + 1) bs
    else .bad used

/-- The first piece of a byte string that starts with `b`. -/
def piece (b : UInt8) (bs : List UInt8) : Piece :=
  match lead b.toNat with
  | some (k, lo, hi, acc) => follow k lo hi acc 1 bs
  | none => .bad 1

/-- Number of bytes of a piece. -/
def Piece.width : Piece → Nat
  | .char _ n | .bad n | .cut n => n

/-- The pieces of a byte string; `skip` bytes belong to the piece before. -/
def piecesAfter : Nat → List UInt8 → List Piece
  | _, [] => []
  | skip + 1, _ :: bs => piecesAfter skip bs
  | 0, b :: bs => piece b bs :: piecesAfter ((piece b bs).width - 1) bs

/-- The pieces of a byte string. -/
def pieces (bs : List UInt8) : List Piece := piecesAfter 0 bs

/-- Joins the pieces from position `i` on, or reports the first that is no character. -/
def join : Nat → List Piece → Except Fault (List Char)
  | _, [] => .ok []
  | i, .char c n :: ps => (join (i + n) ps).map (c :: ·)
  | i, .bad n :: _ => .error ⟨i, some n⟩
  | i, .cut _ :: _ => .error ⟨i, none⟩

/-- Reads a byte string as text. -/
def decode (bs : List UInt8) : Except Fault String := (join 0 (pieces bs)).map String.ofList

/-- Reads a byte string as text, a replacement character standing for each ill-formed piece. -/
def decodeLossy (bs : List UInt8) : String :=
  String.ofList ((pieces bs).map fun
    | .char c _ => c
    | .bad _ | .cut _ => '\uFFFD')

/-- The bytes of a text. -/
def encode (s : String) : List UInt8 := s.toUTF8.toList

end Stackwise.Text.Utf8
