import Stackwise.Form.Code
import Stackwise.Form.Fault
import Stackwise.Form.Types
import Stackwise.Machine.Run

/-!
# Values in forms

Values are read into a store, because reading makes objects: a written list is a new list. Values
that were given a name before can be referred to by it. They are shown with their content, to a
limited depth; what has no content to show is shown by its class and its text.
-/

namespace Stackwise

/-- What values are read into. -/
structure Workspace where
  /-- Code objects. -/
  codes : CodeTable := {}
  /-- Named values, the latest first. -/
  vars : List (String × Value) := []
  /-- The store. -/
  store : Store := {}
  deriving Inhabited

/-- Reading that may make objects. -/
abbrev Building := ReaderT TypeModel (StateT Workspace (Except ReadError))

namespace Form

/-! ## 1. Making objects -/

/-- Makes an object in the store. -/
def build {α : Type} (f : Store → α × Store) : Building α :=
  modifyGet fun w =>
    let (a, store) := f w.store
    (a, { w with store })

/-- Reads what needs code objects only. -/
def withCodes {α : Type} (r : Reading α) : Building α := do
  let w ← get
  match r.run w.codes with
  | .ok (a, codes) =>
    set { w with codes }
    return a
  | .error e => throw e

/-- Reads a type. -/
def namedType (f : Form) : Building TypeId := do toType (← read) f

/-- Reads an integer of 64 bits. -/
def toWord (f : Form) : Except ReadError Int64 := return Int64.ofInt (← f.toInt)

/-- Something that is there, as a list of one item, or nothing, as an empty list. -/
def maybe (f : Form) : Except ReadError (Option Form) := return (← f.toList).head?

/-! ## 2. Values -/

mutual

/-- Reads a value. -/
def readValue : Nat → Form → Building Value
  | 0, _ => expected "value"
  | fuel + 1, f =>
    match f with
    | .null => return .none
    | .bool b => return .bool b
    | .int n => return .int (Int64.ofInt n)
    | .text s => build (Store.newStr s)
    | .list _ => expected "value"
    | .fields entries => do
      let all (f : Form) : Building (List Value) := do (← f.toList).mapM (readValue fuel)
      match entries.find? (·.2.isPresent) with
      | none => expected "value"
      | some (kind, content) =>
        match kind with
        | "f" => return .float (← content.toDouble)
        | "bytes" => build (Store.newBytes (← content.toBytes))
        | "t" => build (Store.newTuple (← all content))
        | "l" => build (Store.newList (← all content).toArray)
        | "set" => build (Store.newSet (← all content))
        | "d" =>
          let pairs ← (← content.toList).mapM fun p => do
            return (← readValue fuel (p.item 0), ← readValue fuel (p.item 1))
          build (Store.newDict pairs)
        | "slice" =>
          build (Store.newSlice (← readValue fuel (content.item 0))
            (← readValue fuel (content.item 1)) (← readValue fuel (content.item 2)))
        | "range" =>
          return .range ⟨← (content.item 0).toWord, ← (content.item 1).toWord,
            ← (content.item 2).toWord⟩
        | "class" => return .classObject (← content.namedType)
        | "exc" =>
          let t ← (content.item 0).namedType
          let args ← all (content.item 1)
          let name := (← read).name t
          return (← build (Store.newException t name args)).value
        | "builtin" =>
          let id ← build Store.newIdent
          return .builtin id (← content.toText)
        | "ellipsis" => return .ellipsis
        | "bound" =>
          build (Store.newMethod (← readValue fuel (content.item 0)) (← (content.item 1).toText))
        | "cell" =>
          let held ← (← content.maybe).mapM (readValue fuel)
          return .cell (← build (Store.newCell held))
        | "code" => return .code (← withCodes content.toCode)
        | "var" =>
          match (← get).vars.lookup (← content.toText) with
          | some v => return v
          | none => expected "name of a value"
        | "func" => build (Store.newFunction (← readFunction fuel content))
        | "native" => build (Store.newNative (← readNative fuel content))
        | "bare" => build (Store.newNative (.bare (← content.toText)))
        | "nfunc" =>
          let name ← (content.item 0).toText
          build (Store.newNative (.function name (← readScript fuel (content.item 1))))
        | _ => expected "value"

/-- Reads a function. -/
def readFunction : Nat → Form → Building Function
  | 0, _ => expected "function"
  | fuel + 1, f => do
    let code ← withCodes (f.field "code").toCode
    let defaults ← (← (f.field "defaults").toList).mapM (readValue fuel)
    let kwdefaults ← (← (f.field "kwdefaults").toList).mapM fun p => do
      return (← readValue fuel (p.item 0), ← readValue fuel (p.item 1))
    let closure ← (← (f.field "closure").toList).mapM fun c => do
      let held ← (← c.maybe).mapM (readValue fuel)
      build (Store.newCell held)
    let annotations ← (← (f.field "annotations").toList).mapM (readValue fuel)
    let declared :=
      if f.has "annotations" then Function.signatureOf code annotations else .dynamic
    let signature ← if f.has "sig" then (f.field "sig").toSignature (← read) else pure declared
    let defaultsId ← build Store.newIdent
    return { Function.ofCode code code.qualnameId defaultsId with
      defaults, kwdefaults, closure, signature }

/-- Reads an object of the host. -/
def readNative : Nat → Form → Building Native
  | 0, _ => expected "host object"
  | fuel + 1, f => do
    let name ← f.fieldOr "type" "Native" toText
    let methods ← (← (f.field "methods").toFields).mapM fun (k, a) => do
      return (k, ← readScript fuel a)
    let attributes ← (← (f.field "attrs").toFields).mapM fun (k, v) => do
      return (k, ← readValue fuel v)
    let call ← if f.has "call" then some <$> readScript fuel (f.field "call") else pure none
    return { Native.bare name with
      runtimeType := ← f.fieldOr "runtime_type" TypeId.object (toType (← read))
      repr := ← f.fieldOr "repr" ("<" ++ name ++ " native>") toText
      truthy := ← f.fieldOr "truthy" true toBool
      slots := ← (f.field "slots").toTexts
      methods, attributes, call }

/-- Reads a script. -/
def readScript : Nat → Form → Building Script
  | 0, _ => expected "script"
  | fuel + 1, f => do
    if f.has "raise" then
      let t ← ((f.field "raise").item 0).namedType
      let args ← (← ((f.field "raise").item 1).toList).mapM (readValue fuel)
      return .raise t args
    else if f.has "stop" then return .stop (← (← (f.field "stop").maybe).mapM (readValue fuel))
    else if f.has "arg" then return .argument (← (f.field "arg").toNat)
    else if f.has "self" then return .self
    else if f.has "call" then return .call (← readValue fuel (f.field "call"))
    else if f.has "seq" then
      let scripts ← (← (f.field "seq").toList).mapM (readScript fuel)
      let counter ← build fun s =>
        let (r, counters) := s.counters.add 0
        (r, { s with counters })
      return .sequence counter scripts
    else return .give (← readValue fuel (f.field "return"))

end

/-- Reads a value. -/
def toValue (f : Form) : Building Value := readValue (2 * f.depth + 2) f

/-- Reads a list of values. -/
def toValues (f : Form) : Building (List Value) := do (← f.toList).mapM toValue

/-- Reads a function. -/
def toFunction (f : Form) : Building Function := readFunction (2 * f.depth + 2) f

/-- Reads keyword arguments: pairs of a name and a value. -/
def toKeywords (f : Form) : Building (List Keyword) := do
  (← f.toList).mapM fun p => do
    let name ← (p.item 0).toText
    let value ← (p.item 1).toValue
    return { id := ← build Store.newIdent, name, value }

/-! ## 3. Showing values -/

/-- The form of a traceback. -/
def traceback (entries : List TraceEntry) : Form :=
  .listOf (fun e => .list [.text e.function, .nat e.offset, .opt .nat e.line]) entries

/-- The form of a value, to a number of levels. -/
def valueWithin (m : TypeModel) (s : Store) : Nat → Value → Form
  | 0, _ => .fields [("deep", .bool true)]
  | levels + 1, v =>
    let one (kind : String) (content : Form) : Form := .fields [(kind, content)]
    let items (vs : List Value) : Form := .list (vs.map (valueWithin m s levels))
    match v with
    | .none => .null
    | .ellipsis => one "ellipsis" (.bool true)
    | .bool b => .bool b
    | .int n => .int n.toInt
    | .float x => .float x
    | .str _ t => .text t
    | .bytes _ b => .bytes b
    | .tuple _ vs => one "t" (items vs)
    | .list r => one "l" (items (s.lists.get r).toList)
    | .dict r => one "d" (.list ((s.dicts.get r).map fun (k, v) => items [k, v]))
    | .set r => one "set" (items (s.sets.get r))
    | .slice _ a b c => one "slice" (items [a, b, c])
    | .range p => one "range" (.list [.int p.start.toInt, .int p.stop.toInt, .int p.step.toInt])
    | .classObject t => one "class" (.text (m.name t))
    | .exception r _ =>
      let e := s.exceptions.get r
      one "exc" (.list [.text e.typeName, items e.args])
    | .traceback _ entries => one "traceback" (.traceback entries)
    | .cell r => one "cell" (items (s.cells.get r).toList)
    | v => .fields [("object", .text (s.typeName m v)), ("repr", .text (s.repr m v))]

/-- The number of levels to which values are shown. -/
def shownLevels : Nat := 13

/-- The form of a value. -/
def value (m : TypeModel) (s : Store) (v : Value) : Form := valueWithin m s shownLevels v

/-- The form of values inside something else. -/
def values (m : TypeModel) (s : Store) (vs : List Value) : Form := .list (vs.map (value m s))

end Form

/-! ## 4. Faults -/

/-- The text of a fault. -/
def Fault.message (s : Store) : Fault → String
  | .raised e => s.describe e.value
  | .stopIteration _ => "StopIteration"
  | .alreadyRunning => "generator already executing"
  | .compile e => e.message
  | .broken function offset cause =>
    "internal error in `" ++ function ++ "` at offset " ++ toString offset ++ ": " ++ cause.message
  | .outOfFuel => "out of fuel"

/-- The form of a fault. -/
def Fault.form (m : TypeModel) (s : Store) (e : Fault) : Form :=
  match e with
  | .raised x =>
    let o := s.exceptions.get x.ref
    (((Form.fault "Exception" (e.message s)).addField "type" (.text o.typeName)).addField "args"
      (.values m s o.args)).addField "traceback" (.traceback o.traceback)
  | .stopIteration v => (Form.fault "StopIteration" (e.message s)).addField "value"
      (.values m s v.toList)
  | .alreadyRunning => .fault "AlreadyRunning" (e.message s)
  | .compile c => c.form.addField "error" (.text ("Translate:" ++ c.kind))
  | .broken _ _ _ => .fault "Internal" (e.message s)
  | .outOfFuel => .fault "OutOfFuel" (e.message s)

end Stackwise
