/-!
# Searching text

Where a text occurs in another, and what can be done at those places. Occurrences are taken from
left to right and do not overlap.
-/

namespace Stackwise.Text

/-- The position of the first occurrence of `sub`. -/
def find? (sub : List Char) : List Char → Option Nat
  | [] => if sub.isEmpty then some 0 else none
  | c :: cs => if sub.isPrefixOf (c :: cs) then some 0 else (find? sub cs).map (· + 1)

/-- Whether `sub` occurs. -/
def occurs (sub s : String) : Bool := (find? sub.toList s.toList).isSome

/-- Splits characters at the occurrences of `sep`; `skip` characters of one are still to be passed
over, and `piece` holds the current piece, reversed. -/
def splitFrom (sep : List Char) : Nat → List Char → List Char → List (List Char)
  | _, piece, [] => [piece.reverse]
  | skip + 1, piece, _ :: cs => splitFrom sep skip piece cs
  | 0, piece, c :: cs =>
    if sep.isPrefixOf (c :: cs) then piece.reverse :: splitFrom sep (sep.length - 1) [] cs
    else splitFrom sep 0 (c :: piece) cs

/-- The pieces between the occurrences of a separator that is not empty. -/
def split (sep s : String) : List String := (splitFrom sep.toList 0 [] s.toList).map String.ofList

/-- A text with every occurrence of `old` replaced. The empty text occurs before every character
and at the end. -/
def replace (old new s : String) : String :=
  if old.isEmpty then new ++ String.join (s.toList.map fun c => c.toString ++ new)
  else new.intercalate (split old s)

/-- Whether a text begins with another. -/
def beginsWith (s head : String) : Bool := head.toList.isPrefixOf s.toList

/-- Whether a text ends with another. -/
def endsWith (s tail : String) : Bool := tail.toList.reverse.isPrefixOf s.toList.reverse

/-- The text `n` times over. -/
def times (n : Nat) (s : String) : String :=
  if s.isEmpty then s else String.join (List.replicate n s)

end Stackwise.Text
