import Stackwise.Hashing.Words
import Stackwise.Machine.Value

/-!
# Numbers for contents and places

What `hash` and `id` answer where the value is not a number itself. Programs cannot rely on these
numbers, but they can compare them, so it matters which contents share one.

* `Digest`: a number for every content and every place. Nothing else in the machine depends on
  which numbers these are.
* `Digest.standard`: the numbers of the machine, which writes every content as a sequence of words.
  So a float and the tuple of its word share a number, and so do `None` and its name.
-/

namespace Stackwise

/-- Numbers for contents and places. Programs see them only by comparing them. -/
structure Digest where
  /-- The number of a text. -/
  text : String → Int64
  /-- The number of a byte string. -/
  bytes : List UInt8 → Int64
  /-- The number of the word of a float that is not a whole number. -/
  float : UInt64 → Int64
  /-- The number of a sequence of numbers. -/
  sequence : List Int64 → Int64
  /-- The number of a place. -/
  place : Place → Int64

namespace Digest

open Hashing (ofWords textWords bytesWords boolWord)

/-- The number of a sequence of words, as programs see it. -/
def number (ns : List UInt64) : Int64 := (ofWords ns).toInt64

/-- The number of a place. What is its own place is a sequence with the name of its kind; the
numbers of other places are arbitrary. -/
def ofPlace : Place → Int64
  | .none => number (textWords "None")
  | .ellipsis => number (textWords "Ellipsis")
  | .bool b => number (textWords "bool" ++ [boolWord b])
  | .int n => number (textWords "int" ++ [n.toUInt64])
  | .float bits => number (textWords "float" ++ [bits])
  | .range p => number (textWords "range" ++ [p.start.toUInt64, p.stop.toUInt64, p.step.toUInt64])
  | .classObject t => number (textWords "type" ++ [UInt64.ofNat t.raw])
  | .builtin name => number (textWords "builtin" ++ textWords name)
  | p => (mixHash 9 (hash p)).toInt64

/-- The numbers that the machine uses. -/
def standard : Digest where
  text s := number (textWords s)
  bytes b := number (bytesWords b)
  float bits := number [bits]
  sequence ns := number (ns.map Int64.toUInt64)
  place := ofPlace

end Digest

end Stackwise
