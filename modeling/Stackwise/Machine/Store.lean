import Stackwise.Compile.Compiler
import Stackwise.Machine.Object

/-!
# The store

Everything that a running program can change, and the programs compiled so far. Objects live in
tables, one for each kind, and are named by their position; nothing is ever removed.
-/

namespace Stackwise

/-! ## 1. Tables -/

/-- Objects of one kind by position. -/
structure Table (α : Type) where
  /-- The objects. -/
  rows : Array α := #[]
  deriving Inhabited

namespace Table

variable {α : Type}

/-- Number of objects. -/
def size (t : Table α) : Nat := t.rows.size

/-- The object at a position; a default stands in for one that does not exist. -/
def get [Inhabited α] (t : Table α) (i : Nat) : α := t.rows.getD i default

/-- Adds an object and gives its position. -/
def add (t : Table α) (a : α) : Nat × Table α := (t.rows.size, ⟨t.rows.push a⟩)

/-- Puts an object in place of another. -/
def put (t : Table α) (i : Nat) (a : α) : Table α := ⟨t.rows.setIfInBounds i a⟩

/-- Changes an object. -/
def update (t : Table α) (i : Nat) (f : α → α) : Table α := ⟨t.rows.modify i f⟩

end Table

/-! ## 2. The store -/

/-- The state of the machine. -/
structure Store where
  /-- Lists. -/
  lists : Table (Array Value) := {}
  /-- Mappings, in insertion order. -/
  dicts : Table (List (Value × Value)) := {}
  /-- Sets, in insertion order. -/
  sets : Table (List Value) := {}
  /-- Iterators. -/
  iters : Table Cursor := {}
  /-- Closure cells. -/
  cells : Table (Option Value) := {}
  /-- Functions. -/
  functions : Table Function := {}
  /-- Exceptions. -/
  exceptions : Table ExceptionObject := {}
  /-- Generators. -/
  generators : Table Generator := {}
  /-- Objects of the host. -/
  natives : Table Native := {}
  /-- How often each scripted sequence was asked. -/
  counters : Table Nat := {}
  /-- Number of identities given out. -/
  idents : Nat := 0
  /-- The global variables. -/
  globals : List (String × Value) := []
  /-- Text printed, the latest piece first. -/
  output : List String := []
  /-- Calls into the host, the latest first. -/
  log : List String := []
  /-- The programs compiled so far. -/
  programs : Cache Program := .empty
  /-- Number of frames that are being run. -/
  depth : Nat := 0

namespace Store

instance : Inhabited Store := ⟨{}⟩

/-- A bound on the length of a path through the store that visits no collection twice. Between two
collections it may pass every exception. -/
def size (s : Store) : Nat :=
  (s.lists.size + s.dicts.size + s.sets.size + 1) * (s.exceptions.size + 1)

/-! ## 3. New objects -/

/-- An identity that no object has. -/
def newIdent (s : Store) : Ident × Store := (.made s.idents, { s with idents := s.idents + 1 })

/-- A new text. -/
def newStr (text : String) (s : Store) : Value × Store :=
  let (id, s) := s.newIdent
  (.str id text, s)

/-- New texts. -/
def newStrs (texts : List String) (s : Store) : List Value × Store :=
  (texts.zipIdx.map fun (t, i) => .str (.made (s.idents + i)) t,
    { s with idents := s.idents + texts.length })

/-- A new byte string. -/
def newBytes (content : List UInt8) (s : Store) : Value × Store :=
  let (id, s) := s.newIdent
  (.bytes id content, s)

/-- A new tuple. -/
def newTuple (items : List Value) (s : Store) : Value × Store :=
  let (id, s) := s.newIdent
  (.tuple id items, s)

/-- A new slice. -/
def newSlice (start stop step : Value) (s : Store) : Value × Store :=
  let (id, s) := s.newIdent
  (.slice id start stop step, s)

/-- A new traceback. -/
def newTraceback (entries : List TraceEntry) (s : Store) : Value × Store :=
  let (id, s) := s.newIdent
  (.traceback id entries, s)

/-- A new bound method. -/
def newMethod (receiver : Value) (name : String) (s : Store) : Value × Store :=
  let (id, s) := s.newIdent
  let (nameId, s) := s.newIdent
  (.method id receiver nameId name, s)

/-- A new list. -/
def newList (items : Array Value) (s : Store) : Value × Store :=
  let (r, lists) := s.lists.add items
  (.list r, { s with lists })

/-- A new mapping. -/
def newDict (pairs : List (Value × Value)) (s : Store) : Value × Store :=
  let (r, dicts) := s.dicts.add pairs
  (.dict r, { s with dicts })

/-- A new set. -/
def newSet (members : List Value) (s : Store) : Value × Store :=
  let (r, sets) := s.sets.add members
  (.set r, { s with sets })

/-- A new iterator. -/
def newIter (cursor : Cursor) (s : Store) : Value × Store :=
  let (r, iters) := s.iters.add cursor
  (.iter r, { s with iters })

/-- A new cell. -/
def newCell (content : Option Value) (s : Store) : Nat × Store :=
  let (r, cells) := s.cells.add content
  (r, { s with cells })

/-- A new function. -/
def newFunction (f : Function) (s : Store) : Value × Store :=
  let (r, functions) := s.functions.add f
  (.function r, { s with functions })

/-- A new generator over a frame that has not run. -/
def newGenerator (g : Generator) (s : Store) : Value × Store :=
  let (r, generators) := s.generators.add g
  (.generator r, { s with generators })

/-- A new object of the host. -/
def newNative (n : Native) (s : Store) : Value × Store :=
  let (r, natives) := s.natives.add n
  (.native r n.runtimeType, { s with natives })

/-- A new exception. -/
def newException (type : TypeId) (typeName : String) (args : List Value) (s : Store) :
    Raised × Store :=
  let (argsId, s) := s.newIdent
  let (ref, exceptions) := s.exceptions.add { type, typeName, args, argsId, traceback := [] }
  ({ ref, type }, { s with exceptions })

/-! ## 4. Constants -/

mutual

/-- The value of a constant: scalars and texts are the constant itself, a tuple is a new one. -/
def ofConstant (code : Nat) (path : List Nat) (s : Store) : Constant → Value × Store
  | .none => (.none, s)
  | .bool b => (.bool b, s)
  | .int n => (.int n, s)
  | .float x => (.float x, s)
  | .str t => (.str (.constant code path) t, s)
  | .bytes b => (.bytes (.constant code path) b, s)
  | .tuple items =>
    let (values, s) := ofConstants code path 0 s items
    s.newTuple values
  | .ellipsis => (.ellipsis, s)
  | .code c => (.code c, s)

/-- The values of constants inside a tuple. -/
def ofConstants (code : Nat) (path : List Nat) (i : Nat) (s : Store) :
    List Constant → List Value × Store
  | [] => ([], s)
  | c :: cs =>
    let (v, s) := ofConstant code (i :: path) s c
    let (vs, s) := ofConstants code path (i + 1) s cs
    (v :: vs, s)

end

/-! ## 5. Looking at values -/

/-- The name of the class of a value. -/
def typeName (m : TypeModel) (s : Store) : Value → String
  | .native r _ => (s.natives.get r).typeName
  | .ellipsis => "ellipsis"
  | .builtin _ _ => "builtin_function_or_method"
  | v => m.name v.type

/-- The truth value of a value, host objects by what they declare. -/
def truthy (s : Store) : Value → Bool
  | .none => false
  | .bool b => b
  | .int n => n != 0
  | .float x => !x.isZero
  | .str _ t => !t.isEmpty
  | .bytes _ b => !b.isEmpty
  | .tuple _ items => !items.isEmpty
  | .list r => !(s.lists.get r).isEmpty
  | .dict r => !(s.dicts.get r).isEmpty
  | .set r => !(s.sets.get r).isEmpty
  | .range p => !p.isEmpty
  | .native r _ => (s.natives.get r).truthy
  | _ => true

/-- The next item of an iterator, and what is left. -/
def advance (s : Store) : Cursor → Option (Value × Cursor)
  | .items [] => none
  | .items (v :: rest) => some (v, .items rest)
  | .list r i => (s.lists.get r)[i]?.map fun v => (v, .list r (i + 1))
  | .range p => p.next?.map fun n => (.int n, .range p.rest)

/-- Whether a value is a host object with the given method. -/
def nativeHas (s : Store) (v : Value) (name : String) : Bool :=
  match v with
  | .native r _ => (s.natives.get r).hasMethod name
  | _ => false

end Store

end Stackwise
