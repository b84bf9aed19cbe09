import Stackwise.Text.Hidden

/-!
# Quoted text

A text between double quotes, as diagnostics show it: the quote, the backslash and four control
characters have short escapes, characters without a shape of their own are written by number, and
all else stands for itself.
-/

namespace Stackwise.Text

/-- The lower-case hexadecimal digits of a number. -/
def hex (n : Nat) : String := String.ofList (Nat.toDigits 16 n)

/-- Fills a text with `fill` on the left up to `width` characters. -/
def padLeft (width : Nat) (fill : Char) (s : String) : String :=
  "".pushn fill (width - s.length) ++ s

/-- Fills a text with blanks on the right up to `width` characters. -/
def padRight (width : Nat) (s : String) : String := s.pushn ' ' (width - s.length)

/-- How a quoted text writes one character. -/
def quotedChar (c : Char) : String :=
  if c == '\x00' then "\\0"
  else if c == '\t' then "\\t"
  else if c == '\r' then "\\r"
  else if c == '\n' then "\\n"
  else if c == '"' then "\\\""
  else if c == '\\' then "\\\\"
  else if isHidden c then "\\u\x7b" ++ hex c.val.toNat ++ "\x7d"
  else c.toString

/-- A text between double quotes. -/
def quoted (s : String) : String :=
  s.toList.foldl (fun acc c => acc ++ quotedChar c) "\"" ++ "\""

end Stackwise.Text
