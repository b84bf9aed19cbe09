/-!
# Blank characters

The characters with the Unicode property *White_Space*, and what is done with them at the ends of
a text and between its words.
-/

namespace Stackwise.Text

/-- Whether a character has the property *White_Space*. -/
def isBlank (c : Char) : Bool :=
  let n := c.val.toNat
  (0x09 ≤ n && n ≤ 0x0d) || n == 0x20 || n == 0x85 || n == 0xa0 || n == 0x1680
    || (0x2000 ≤ n && n ≤ 0x200a) || n == 0x2028 || n == 0x2029 || n == 0x202f || n == 0x205f
    || n == 0x3000

/-- Drops the characters that satisfy `p` from both ends. -/
def trimChars (p : Char → Bool) (cs : List Char) : List Char :=
  ((cs.dropWhile p).reverse.dropWhile p).reverse

/-- Drops the characters that satisfy `p` from both ends of a text. -/
def trimMatches (p : Char → Bool) (s : String) : String := String.ofList (trimChars p s.toList)

/-- Drops the blanks at both ends of a text. -/
def trim (s : String) : String := trimMatches isBlank s

/-- Splits characters at the blanks; `word` holds the current word, reversed. -/
def splitBlanks : List Char → List Char → List (List Char)
  | [], word => if word.isEmpty then [] else [word.reverse]
  | c :: cs, word =>
    if isBlank c then
      if word.isEmpty then splitBlanks cs [] else word.reverse :: splitBlanks cs []
    else splitBlanks cs (c :: word)

/-- The words of a text: the maximal runs of characters that are not blank. -/
def words (s : String) : List String := (splitBlanks s.toList []).map String.ofList

end Stackwise.Text
