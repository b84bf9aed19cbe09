import Stackwise.Machine.Arguments
import Stackwise.Machine.Arithmetic
import Stackwise.Machine.Attribute
import Stackwise.Machine.Comparing
import Stackwise.Machine.Construct
import Stackwise.Machine.Subscript
import Stackwise.Text.CaseMap
import Stackwise.Text.Letter

/-!
# Methods of builtin values

Each kind of value has its own methods; the special methods of all of them are the operators. A
method that the type model declares but that has no implementation raises `NotImplementedError`.
-/

namespace Stackwise.Machine

/-! ## 1. Texts and byte strings -/

/-- A text with the first letter of each word in upper case and the others in lower case. -/
def titleFrom (inWord : Bool) : List Char → List Char
  | [] => []
  | c :: cs =>
    if Text.isLetter c then (if inWord then Text.lower c else Text.upper c) ++ titleFrom true cs
    else c :: titleFrom false cs

/-- Texts put together with a separator between them. -/
def joinTexts (sep : String) (items : List Value) : Action String := do
  let pieces ← items.zipIdx.mapM fun (v, i) => do
    match v with
    | .str _ t => return t
    | other =>
      typeError ("sequence item " ++ toString i ++ ": expected str instance, " ++ (← typeName other)
        ++ " found")
  return sep.intercalate pieces

/-- The candidates of a test at the ends of a text: one value, or the items of a tuple. -/
def candidates : Value → List Value
  | .tuple _ items => items
  | v => [v]

/-- The methods of texts. -/
def strMethod? (t name : String) (args : List Value) : Action (Option Value) := do
  match name with
  | "upper" => return some (← newStr (Text.upperText t))
  | "lower" => return some (← newStr (Text.lowerText t))
  | "title" => return some (← newStr (String.ofList (titleFrom false t.toList)))
  | "strip" =>
    arity name args 0 1
    match args with
    | [] | [.none] => return some (← newStr (Text.trim t))
    | chars :: _ =>
      let set := (← textArg name chars).toList
      return some (← newStr (Text.trimMatches set.contains t))
  | "join" =>
    arity name args 1 1
    return some (← newStr (← joinTexts t (← collect (args.headD .none))))
  | "split" =>
    arity name args 0 1
    let parts ← match args with
      | [] | [.none] => pure (Text.words t)
      | sep :: _ => do
        let sep ← textArg name sep
        if sep.isEmpty then valueError "empty separator" else pure (Text.split sep t)
    let values ← make (Store.newStrs parts)
    return some (← newList values)
  | "startswith" | "endswith" =>
    arity name args 1 1
    let ends ← (candidates (args.headD .none)).mapM (textArg name)
    let test := if name == "startswith" then Text.beginsWith t else Text.endsWith t
    return some (.bool (ends.any test))
  | "replace" =>
    arity name args 2 2
    let old ← textArg name (args.headD .none)
    let new ← textArg name (args.getD 1 .none)
    return some (← newStr (Text.replace old new t))
  | "find" =>
    arity name args 1 1
    let sub ← textArg name (args.headD .none)
    match Text.find? sub.toList t.toList with
    | some i => return some (.int (Int64.ofNat i))
    | none => return some (.int (-1))
  | _ => return none

/-- The methods of byte strings. -/
def bytesMethod? (b : List UInt8) (name : String) (args : List Value) : Action (Option Value) := do
  match name with
  | "decode" =>
    arity name args 0 0
    match Text.Utf8.decode b with
    | .ok t => return some (← newStr t)
    | .error e => valueError ("'utf-8' codec can't decode bytes: " ++ e.message)
  | _ => return none

/-! ## 2. Sequences -/

/-- The methods that all sequences have; `missing` is the message for an item that is not there. -/
def sequenceMethod? (items : List Value) (name : String) (args : List Value)
    (missing : Value → Action String) : Action (Option Value) := do
  match name with
  | "count" =>
    arity name args 1 1
    let item := args.headD .none
    let n ← look fun s => items.countP fun v => s.equal v item
    return some (.int (Int64.ofNat n))
  | "index" =>
    arity name args 1 1
    let item := args.headD .none
    match ← look fun s => items.findIdx? fun v => s.equal v item with
    | some i => return some (.int (Int64.ofNat i))
    | none => valueError (← missing item)
  | _ => return none

/-- Where an item is inserted into a list of `size` items. -/
def insertPosition (index : Int64) (size : Nat) : Nat :=
  if index < 0 then (index.toInt + size).toNat else min index.toInt.toNat size

/-- Puts new items into a list. -/
def putList (r : Nat) (items : Array Value) : Action Unit :=
  modify fun s => { s with lists := s.lists.put r items }

/-- The methods of lists. -/
def listMethod? (r : Nat) (name : String) (args : List Value) : Action (Option Value) := do
  let items : Action (Array Value) := look fun s => s.lists.get r
  match name with
  | "append" =>
    arity name args 1 1
    modify fun s => { s with lists := s.lists.update r (·.push (args.headD .none)) }
    return some .none
  | "extend" =>
    arity name args 1 1
    let more ← collect (args.headD .none)
    modify fun s => { s with lists := s.lists.update r (· ++ more.toArray) }
    return some .none
  | "insert" =>
    arity name args 2 2
    let index ← intArg name (args.headD .none)
    let old ← items
    putList r (old.insertIdxIfInBounds (insertPosition index old.size) (args.getD 1 .none))
    return some .none
  | "pop" =>
    arity name args 0 1
    let old ← items
    if old.isEmpty then raiseText TypeId.indexError "pop from empty list"
    else
      let index ← match args with
        | [] => pure (-1)
        | v :: _ => intArg name v
      match position? index old.size with
      | some i =>
        putList r (old.eraseIdxIfInBounds i)
        return old[i]?
      | none => raiseText TypeId.indexError "pop index out of range"
  | "copy" =>
    arity name args 0 0
    return some (← newList (← items).toList)
  | "reverse" =>
    arity name args 0 0
    modify fun s => { s with lists := s.lists.update r Array.reverse }
    return some .none
  | name =>
    sequenceMethod? (← items).toList name args fun v => return (← repr v) ++ " is not in list"

/-- The sort method of lists, the only one that takes keyword arguments. -/
def sortList (r : Nat) (args : List Value) (kwargs : List Keyword) : Action Value := do
  onlyKeywords "sort" kwargs ["key", "reverse"]
  arity "sort" args 0 0
  let items ← look fun s => (s.lists.get r).toList
  let reverse ← match keyword? kwargs "reverse" with
    | some v => truthy v
    | none => pure false
  putList r (← sortValues items (keyword? kwargs "key") reverse).toArray
  return .none

/-! ## 3. Mappings and sets -/

/-- The methods of mappings. -/
def dictMethod? (r : Nat) (name : String) (args : List Value) : Action (Option Value) := do
  let pairs : Action (List (Value × Value)) := look fun s => s.dicts.get r
  match name with
  | "get" =>
    arity name args 1 2
    let found ← look fun s => s.lookup? (s.dicts.get r) (args.headD .none)
    return some (found.getD (args.getD 1 .none))
  | "keys" => return some (← newList ((← pairs).map (·.1)))
  | "values" => return some (← newList ((← pairs).map (·.2)))
  | "items" =>
    let items ← (← pairs).mapM fun (k, v) => newTuple [k, v]
    return some (← newList items)
  | "pop" =>
    arity name args 1 2
    match ← look fun s => s.erase? (s.dicts.get r) (args.headD .none), args[1]? with
    | some (v, rest), _ =>
      modify fun s => { s with dicts := s.dicts.put r rest }
      return some v
    | none, some default => return some default
    | none, none => keyError (args.headD .none)
  | "copy" =>
    arity name args 0 0
    return some (← make (Store.newDict (← pairs)))
  | _ => return none

/-- The methods of sets. -/
def setMethod? (r : Nat) (name : String) (args : List Value) : Action (Option Value) := do
  match name with
  | "add" =>
    arity name args 1 1
    let members ← addMember (← look fun s => s.sets.get r) (args.headD .none)
    modify fun s => { s with sets := s.sets.put r members }
    return some .none
  | "discard" =>
    arity name args 1 1
    let members ← look fun s => (s.sets.get r).eraseP fun m => s.equal m (args.headD .none)
    modify fun s => { s with sets := s.sets.put r members }
    return some .none
  | _ => return none

/-! ## 4. Generators, exceptions, numbers -/

/-- The methods of generators. -/
def generatorMethod? (g : Nat) (name : String) (args : List Value) : Action (Option Value) := do
  match name with
  | "send" =>
    arity name args 1 1
    return some (← send g (args.headD .none))
  | "throw" =>
    arity name args 1 1
    return some (← throwInto g (args.headD .none))
  | "close" =>
    arity name args 0 0
    close g
    return some .none
  | "__next__" => return some (← nextOf g)
  | _ => return none

/-- The methods of exceptions. -/
def exceptionMethod? (v : Value) (ref : Nat) (name : String) (args : List Value) :
    Action (Option Value) := do
  match name with
  | "with_traceback" =>
    arity name args 1 1
    let replace (entries : List TraceEntry) : Action (Option Value) := do
      modify fun s => { s with exceptions := s.exceptions.update ref fun e =>
        { e with traceback := entries } }
      return some v
    match args.headD .none with
    | .traceback _ entries => replace entries
    | .none => replace []
    | _ => typeError "__traceback__ must be a traceback or None"
  | _ => return none

/-- Number of bits of a magnitude. -/
def bitLength (n : Nat) : Nat := if n == 0 then 0 else n.log2 + 1

/-- The methods that a value has by its kind. -/
def kindMethod? (v : Value) (name : String) (args : List Value) : Action (Option Value) := do
  match v with
  | .str _ t => strMethod? t name args
  | .bytes _ b => bytesMethod? b name args
  | .tuple _ items =>
    sequenceMethod? items name args fun _ => return "tuple.index(x): x not in tuple"
  | .list r => listMethod? r name args
  | .dict r => dictMethod? r name args
  | .set r => setMethod? r name args
  | .generator g => generatorMethod? g name args
  | .exception ref _ => exceptionMethod? v ref name args
  | .float x =>
    if name == "is_integer" then return some (.bool (Binary64.isWhole x)) else return none
  | .int n =>
    if name == "bit_length" then return some (.int (Int64.ofNat (bitLength n.toInt.natAbs)))
    else return none
  | _ => return none

/-! ## 5. Special methods -/

/-- The magnitude of a value. -/
def abs (v : Value) : Action Value := do
  match v, v.asInt? with
  | _, some n => return number (← arith (Integer.magnitude n))
  | .float x, _ => return .float x.abs
  | v, _ =>
    match ← hook? v "__abs__" [] with
    | some answer => return answer
    | none => typeError ("bad operand type for abs(): '" ++ (← typeName v) ++ "'")

/-- Runs an action on the one argument of a method. -/
def withOne {α : Type} (name : String) (args : List Value) (act : Value → Action α) : Action α := do
  arity name args 1 1
  act (args.headD .none)

/-- The operator that a special method stands for. -/
def operatorMethod? (v : Value) (name : String) (args : List Value) : Option (Action Value) :=
  match Comparison.all.find? (·.method == name) with
  | some op => some (withOne name args fun other => compare op v other)
  | none =>
    match BinaryOp.all.find? (·.method == name) with
    | some op => some (withOne name args fun other => binary op v other false)
    | none =>
      match BinaryOp.all.find? (·.reflected == name) with
      | some op => some (withOne name args fun other => binary op other v false)
      | none =>
        (BinaryOp.all.find? (·.inplace == name)).map fun op =>
          withOne name args fun other => binary op v other true

/-- What a special method that is no binary operator does. -/
def protocolMethod? (v : Value) (name : String) (args : List Value) : Option (Action Value) :=
  match name with
  | "__neg__" => some (unary .negative v)
  | "__pos__" => some (unary .positive v)
  | "__invert__" => some (unary .invert v)
  | "__abs__" => some (abs v)
  | "__bool__" => some (return .bool (← truthy v))
  | "__len__" => some (return .int (← length v))
  | "__contains__" => some (withOne name args fun item => return .bool (← contains v item))
  | "__getitem__" => some (withOne name args (getItem v))
  | "__setitem__" => some do
    arity name args 2 2
    setItem v (args.headD .none) (args.getD 1 .none)
    return .none
  | "__delitem__" => some (withOne name args fun key => do
    delItem v key
    return .none)
  | "__iter__" => some (iter v)
  | "__next__" => some do
    match ← next v with
    | some item => return item
    | none => raise TypeId.stopIteration []
  | "__repr__" => some do newStr (← repr v)
  | "__str__" => some do newStr (← display v)
  | "__hash__" => some (return .int (← hash v))
  | "__float__" => some (match v.asDouble? with
    | some x => return .float x
    | none => typeError "must be real number")
  | "__int__" => some (match v.asInt? with
    | some n => return .int n
    | none => typeError "an integer is required")
  | _ => none

/-- What a special method does. -/
def specialMethod? (v : Value) (name : String) (args : List Value) : Option (Action Value) :=
  if Text.beginsWith name "__" then (operatorMethod? v name args).or (protocolMethod? v name args)
  else none

/-! ## 6. Calls -/

/-- Calls a method of a builtin value without keyword arguments. -/
def callPlainMethod (v : Value) (name : String) (args : List Value) : Action Value := do
  match ← kindMethod? v name args with
  | some result => return result
  | none =>
    match specialMethod? v name args with
    | some act => act
    | none =>
      if (← model).hasMethod v.type name then
        raiseText TypeId.notImplementedError
          ("'" ++ (← typeName v) ++ "." ++ name ++ "' is not implemented")
      else attributeError (← typeName v) name

/-- Calls a method of a builtin value. -/
def callTypeMethod (v : Value) (name : String) (args : List Value) (kwargs : List Keyword) :
    Action Value := do
  match v, name with
  | .list r, "sort" => sortList r args kwargs
  | v, name =>
    noKeywords name kwargs
    callPlainMethod v name args

/-- Calls a method of any value: one of a host object, one that the type declares, else whatever
attribute has the name. -/
def callMethod (v : Value) (name : String) (args : List Value) : Action Value := do
  match ← hook? v name args with
  | some answer => return answer
  | none =>
    if hasTypeMethod (← model) v name then callTypeMethod v name args []
    else call (← getAttr v name) args

end Stackwise.Machine
