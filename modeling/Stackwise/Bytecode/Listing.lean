import Stackwise.Bytecode.Stream

/-!
# Listings of code objects

A listing shows the header of a code object, its tables and its instructions. Bytes that cannot be
decoded are shown unit by unit under the reason, so a listing exists for every code object.
-/

namespace Stackwise.Listing

/-- A numbered line of a table. -/
def entry (i : Nat) (s : String) : String :=
  "  " ++ Text.padLeft 4 ' ' (toString i) ++ ": " ++ s ++ "\n"

/-- A titled table; a table without entries is not shown. -/
def table (title : String) (entries : List String) : String :=
  if entries.isEmpty then ""
  else "\n" ++ title ++ ":\n" ++ String.join (entries.zipIdx.map fun (s, i) => entry i s)

/-- A line of instructions: source line, mark of a jump target, offset and text. -/
def line (c : CodeObject) (i : Instruction) : String :=
  let source := match i.line with
    | some l => Text.padLeft 4 ' ' (toString l)
    | none => "    "
  let mark := if i.isJumpTarget then ">>" else "  "
  source ++ " " ++ mark ++ " " ++ Text.padLeft 4 ' ' (toString i.offset) ++ ": " ++ i.text c ++ "\n"

/-- The units of bytes that cannot be decoded; a last odd byte has the operand zero. -/
def rawUnits : Nat → List UInt8 → List String
  | _, [] => []
  | i, [a] => [rawUnit i a 0]
  | i, a :: b :: rest => rawUnit i a b :: rawUnits (i + 1) rest
where
  /-- One unit that was not decoded. -/
  rawUnit (i : Nat) (a b : UInt8) : String :=
    "  " ++ Text.padLeft 4 ' ' (toString i) ++ ": " ++ Text.padLeft 3 ' ' (toString a.toNat) ++ " "
      ++ Text.padLeft 3 ' ' (toString b.toNat) ++ "\n"

/-- The header of a listing. -/
def header (c : CodeObject) : String :=
  "Code object: " ++ c.qualname ++ "\n"
    ++ "  File: " ++ c.filename ++ "\n"
    ++ "  First line: " ++ toString c.firstLine ++ "\n"
    ++ "  Version: " ++ c.dialect.text ++ "\n"
    ++ "  Args: " ++ toString c.argCount ++ " (pos-only: " ++ toString c.posonlyCount
    ++ ", kw-only: " ++ toString c.kwonlyCount ++ ")\n"
    ++ "  Flags: " ++ Text.padLeft 8 '0' (Text.hex c.flags.bits) ++ "\n"

/-- The instructions of a listing. -/
def instructions (c : CodeObject) : String :=
  match InstructionStream.decode c with
  | .ok s => String.join (s.instructions.map (line c))
  | .error e => "  <undecodable: " ++ e.message ++ ">\n" ++ String.join (rawUnits 0 c.code)

/-- The listing of a code object. -/
def text (c : CodeObject) : String :=
  header c ++ table "Constants" (c.constants.map Constant.text) ++ table "Names" c.names
    ++ table "Locals" c.varnames ++ table "Cells" (c.cellvars ++ c.freevars)
    ++ "\nDisassembly:\n" ++ instructions c

end Stackwise.Listing
