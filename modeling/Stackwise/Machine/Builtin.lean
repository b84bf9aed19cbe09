import Stackwise.Machine.Method

/-!
# Builtin functions

What a call of each builtin function does.
-/

namespace Stackwise.Machine

/-! ## 1. Printing -/

/-- The text of an option of `print`. -/
def printOption (v : Option Value) (default : String) : Action String := do
  match v with
  | none | some .none => return default
  | some (.str _ t) => return t
  | some other =>
    typeError ("sep and end must be None or a string, not " ++ (← typeName other))

/-- Prints the texts of values. -/
def print (args : List Value) (kwargs : List Keyword) : Action Value := do
  onlyKeywords "print" kwargs ["sep", "end"]
  let sep ← printOption (keyword? kwargs "sep") " "
  let stop ← printOption (keyword? kwargs "end") "\n"
  let texts ← args.mapM display
  write (sep.intercalate texts ++ stop)
  return .none

/-! ## 2. Inspecting -/

/-- The next item of an iterator, or a default at its end. -/
def nextOr (it : Value) (default : Option Value) : Action Value := do
  let outcome ← match it with
    | .generator g => attempt (nextOf g)
    | .iter _ | .native _ _ => do
      match ← next it with
      | some v => pure (.ok v)
      | none => pure (.error (.stopIteration none))
    | other => typeError ("'" ++ (← typeName other) ++ "' object is not an iterator")
  match outcome, default with
  | .ok v, _ => return v
  | .error (.stopIteration _), some v => return v
  | .error e, _ => throw e

mutual

/-- Whether a type is below a class or below one of a tuple; nothing if it is given something
else. -/
def isInstance? (m : TypeModel) (t : TypeId) : Value → Option Bool
  | .classObject c => some (m.isSubtype t c)
  | .tuple _ classes => isInstanceAny? m t classes
  | _ => none

/-- Whether a type is below one of several classes; later ones are looked at only if the first is
none above it. -/
def isInstanceAny? (m : TypeModel) (t : TypeId) : List Value → Option Bool
  | [] => some false
  | c :: cs =>
    match isInstance? m t c with
    | some false => isInstanceAny? m t cs
    | answer => answer

end

/-- Whether a value can be called. -/
def isCallable (s : Store) : Value → Bool
  | .function _ | .method _ _ _ _ | .builtin _ _ | .classObject _ => true
  | .native r t => t == TypeId.function || (s.natives.get r).hasMethod "__call__"
  | _ => false

/-- The attribute of a value, or nothing if it has no such attribute. -/
def findAttr? (v : Value) (name : String) : Action (Option Value) := do
  match ← attempt (getAttr v name) with
  | .ok a => return some a
  | .error e =>
    match e with
    | .raised x =>
      if (← model).isSubtype x.type TypeId.attributeError then return none else throw e
    | _ => throw e

/-! ## 3. Reducing -/

/-- The first item with the least or the greatest key; `best` holds the best so far. -/
def bestOf (key : Option Value) (want : Ordering) (symbol : String) :
    List Value → Option (Value × Value) → Action (Option Value)
  | [], best => return best.map (·.2)
  | item :: items, best => do
    let k ← match key with
      | none | some .none => pure item
      | some f => call f [item]
    let better ← match best with
      | none => pure true
      | some (bestKey, _) => do pure ((← order k bestKey symbol) == some want)
    bestOf key want symbol items (if better then some (k, item) else best)

/-- The functions `min` and `max`. -/
def extremum (name : String) (args : List Value) (kwargs : List Keyword) (want : Ordering) :
    Action Value := do
  onlyKeywords name kwargs ["key", "default"]
  let default := keyword? kwargs "default"
  let items ← match args with
    | [] => typeError (name ++ " expected at least 1 argument, got 0")
    | [v] => collect v
    | args => do
      if default.isSome then
        typeError ("Cannot specify a default for " ++ name ++ "() with multiple positional arguments")
      else pure args
  let symbol := if want == .lt then "<" else ">"
  match ← bestOf (keyword? kwargs "key") want symbol items none, default with
  | some v, _ => return v
  | none, some v => return v
  | none, none => valueError (name ++ "() arg is an empty sequence")

/-- The function `sum`. -/
def sum (args : List Value) (kwargs : List Keyword) : Action Value := do
  onlyKeywords "sum" kwargs ["start"]
  arity "sum" args 1 2
  let start := (args[1]?.or (keyword? kwargs "start")).getD (.int 0)
  if start.asText?.isSome then typeError "sum() can't sum strings [use ''.join(seq) instead]"
  else (← collect (args.headD .none)).foldlM (fun total v => binary .add total v false) start

/-- The function `sorted`. -/
def sorted (args : List Value) (kwargs : List Keyword) : Action Value := do
  onlyKeywords "sorted" kwargs ["key", "reverse"]
  arity "sorted" args 1 1
  let items ← collect (args.headD .none)
  let reverse ← match keyword? kwargs "reverse" with
    | some v => truthy v
    | none => pure false
  newList (← sortValues items (keyword? kwargs "key") reverse)

/-! ## 4. Characters -/

/-- The number of the one character of a text. -/
def ord (v : Value) : Action Value := do
  let t ← textArg "ord" v
  match t.toList with
  | [c] => return .int (Int64.ofNat c.toNat)
  | cs =>
    typeError ("ord() expected a character, but string of length " ++ toString cs.length ++ " found")

/-- The character with a number. -/
def chr (v : Value) : Action Value := do
  let n ← intArg "chr" v
  if 0 ≤ n && n.toInt.toNat.isValidChar then newStr (Char.ofNat n.toInt.toNat).toString
  else valueError "chr() arg not in range(0x110000)"

/-! ## 5. Calls -/

/-- A call of a builtin function that takes no keyword arguments. -/
def callPlainBuiltin (name : String) (args : List Value) : Action Value := do
  let first := args.headD .none
  match name with
  | "len" =>
    arity name args 1 1
    return .int (← length first)
  | "abs" =>
    arity name args 1 1
    abs first
  | "iter" =>
    arity name args 1 1
    iter first
  | "next" =>
    arity name args 1 2
    nextOr first args[1]?
  | "repr" =>
    arity name args 1 1
    newStr (← repr first)
  | "hash" =>
    arity name args 1 1
    return .int (← hash first)
  | "id" =>
    arity name args 1 1
    return .int (← identity first)
  | "isinstance" =>
    arity name args 2 2
    match isInstance? (← model) first.type (args.getD 1 .none) with
    | some b => return .bool b
    | none => typeError "isinstance() arg 2 must be a type or tuple of types"
  | "callable" =>
    arity name args 1 1
    return .bool (isCallable (← get) first)
  | "hasattr" =>
    arity name args 2 2
    let attr ← textArg name (args.getD 1 .none)
    return .bool (← findAttr? first attr).isSome
  | "getattr" =>
    arity name args 2 3
    let attr ← textArg name (args.getD 1 .none)
    match args[2]? with
    | some default => return (← findAttr? first attr).getD default
    | none => getAttr first attr
  | "ord" =>
    arity name args 1 1
    ord first
  | "chr" =>
    arity name args 1 1
    chr first
  | other =>
    raiseText TypeId.notImplementedError ("builtin '" ++ other ++ "' is not implemented")

/-- A call of a builtin function. -/
def callBuiltin (name : String) (args : List Value) (kwargs : List Keyword) : Action Value := do
  match name with
  | "print" => print args kwargs
  | "min" => extremum name args kwargs .lt
  | "max" => extremum name args kwargs .gt
  | "sum" => sum args kwargs
  | "sorted" => sorted args kwargs
  | name =>
    noKeywords name kwargs
    callPlainBuiltin name args

end Stackwise.Machine
