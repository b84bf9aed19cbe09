import Stackwise.Bytecode.Error
import Stackwise.Decimal.Double
import Stackwise.Text.Quoted

/-!
# Written forms

A form is a plain tree of numbers, texts, lists and named fields. Code objects, operations, types
and states are read from forms and shown as forms, so that a host can exchange them with any format
that has such trees. An absent field is the same as a null one.
-/

namespace Stackwise

/-- A tree of plain data. -/
inductive Form where
  | null
  | bool (b : Bool)
  | int (n : Int)
  | text (s : String)
  | list (items : List Form)
  | fields (entries : List (String × Form))
  deriving Inhabited, Repr

/-- Why a form cannot be read. -/
inductive ReadError where
  /-- Something else was expected. -/
  | malformed (expected : String)
  /-- The instructions cannot be laid out. -/
  | bytecode (cause : BytecodeError)
  /-- There is no such dialect. -/
  | dialect (text : String)
  deriving DecidableEq, Repr

/-- The text of a form that cannot be read. -/
def ReadError.message : ReadError → String
  | .malformed expected => expected ++ " expected"
  | .bytecode e => e.message
  | .dialect s => Dialect.unsupportedMessage s

namespace Form

/-! ## 1. Shape -/

mutual

/-- The length of the longest path into a form. -/
def depth : Form → Nat
  | .list items => depthItems items + 1
  | .fields entries => depthEntries entries + 1
  | _ => 1

/-- The greatest depth in a list. -/
def depthItems : List Form → Nat
  | [] => 0
  | f :: fs => max f.depth (depthItems fs)

/-- The greatest depth among named fields. -/
def depthEntries : List (String × Form) → Nat
  | [] => 0
  | (_, f) :: fs => max f.depth (depthEntries fs)

end

/-- Whether nothing is there. -/
def isNull : Form → Bool
  | .null => true
  | _ => false

/-- Whether something is there. -/
def isPresent (f : Form) : Bool := !f.isNull

/-- The field with a name. -/
def field (f : Form) (name : String) : Form :=
  match f with
  | .fields entries => (entries.lookup name).getD .null
  | _ => .null

/-- Whether a field is there. -/
def has (f : Form) (name : String) : Bool := (f.field name).isPresent

/-- The item at a position. -/
def item (f : Form) (i : Nat) : Form :=
  match f with
  | .list items => items.getD i .null
  | _ => .null

/-- The form with one more field. -/
def addField (f : Form) (name : String) (value : Form) : Form :=
  match f with
  | .fields entries => .fields ((name, value) :: entries.filter (·.1 != name))
  | _ => .fields [(name, value)]

/-! ## 2. Reading -/

/-- The fault of a form that should be something else. -/
def expected {α : Type} (what : String) : Except ReadError α := .error (.malformed what)

/-- Reads an integer. -/
def toInt : Form → Except ReadError Int
  | .int n => .ok n
  | _ => expected "integer"

/-- Reads a natural number. -/
def toNat : Form → Except ReadError Nat
  | .int (.ofNat n) => .ok n
  | _ => expected "natural number"

/-- Reads a text. -/
def toText : Form → Except ReadError String
  | .text s => .ok s
  | _ => expected "text"

/-- Reads a truth value; nothing stands for falsehood. -/
def toBool : Form → Except ReadError Bool
  | .bool b => .ok b
  | .null => .ok false
  | _ => expected "truth value"

/-- Reads a list; nothing stands for the empty one. -/
def toList : Form → Except ReadError (List Form)
  | .list items => .ok items
  | .null => .ok []
  | _ => expected "list"

/-- Reads the named fields; nothing stands for none. -/
def toFields : Form → Except ReadError (List (String × Form))
  | .fields entries => .ok entries
  | .null => .ok []
  | _ => expected "fields"

/-- Reads a list of natural numbers. -/
def toNats (f : Form) : Except ReadError (List Nat) := do (← f.toList).mapM toNat

/-- Reads a list of texts. -/
def toTexts (f : Form) : Except ReadError (List String) := do (← f.toList).mapM toText

/-- Reads something that may be absent. -/
def optional {α : Type} (f : Form) (read : Form → Except ReadError α) :
    Except ReadError (Option α) :=
  if f.isNull then .ok none else (read f).map some

/-- Reads a field, or takes a default where it is absent. -/
def fieldOr {α : Type} (f : Form) (name : String) (default : α) (read : Form → Except ReadError α) :
    Except ReadError α :=
  if f.has name then read (f.field name) else .ok default

/-- Reads a pair of natural numbers. -/
def toNatPair (f : Form) : Except ReadError (Nat × Nat) :=
  return (← (f.item 0).toNat, ← (f.item 1).toNat)

/-- The value of a hexadecimal digit in lower case. -/
def hexDigit (c : Char) : Nat := if c.isDigit then c.toNat - 48 else c.toNat - 87

/-- The bytes of pairs of hexadecimal digits. -/
def hexBytes : List Char → List UInt8
  | a :: b :: rest => UInt8.ofNat (hexDigit a * 16 + hexDigit b) :: hexBytes rest
  | _ => []

/-- Reads bytes from pairs of hexadecimal digits. -/
def toBytes (f : Form) : Except ReadError (List UInt8) := return hexBytes (← f.toText).toList

/-- Reads a float from the hexadecimal digits of its word. -/
def toDouble (f : Form) : Except ReadError Double := do
  let bits := (← f.toText).toList.foldl (fun n c => n * 16 + hexDigit c) 0
  return ⟨UInt64.ofNat bits⟩

/-! ## 3. Writing -/

/-- A natural number. -/
def nat (n : Nat) : Form := .int n

/-- Nothing, or a value. -/
def opt {α : Type} (write : α → Form) : Option α → Form
  | some a => write a
  | none => .null

/-- A list of values. -/
def listOf {α : Type} (write : α → Form) (xs : List α) : Form := .list (xs.map write)

/-- A list of texts. -/
def texts (xs : List String) : Form := listOf .text xs

/-- A list of natural numbers. -/
def nats (xs : List Nat) : Form := listOf nat xs

/-- A list of pairs of natural numbers. -/
def natPairs (xs : List (Nat × Nat)) : Form := listOf (fun p => nats [p.1, p.2]) xs

/-- Pairs of hexadecimal digits. -/
def hexText (bs : List UInt8) : String :=
  String.join (bs.map fun b => Text.padLeft 2 '0' (Text.hex b.toNat))

/-- Bytes. -/
def bytes (bs : List UInt8) : Form := .fields [("bytes", .text (hexText bs))]

/-- A float, by its word; all that are not numbers look alike. -/
def float (x : Double) : Form :=
  .fields [("f", .text (if x.isNaN then "nan" else Text.padLeft 16 '0' (Text.hex x.bits.toNat)))]

end Form

end Stackwise
