import Stackwise.Machine.Action

/-!
# Arguments of builtin functions

The checks that builtin functions, classes and methods make of what they are given.
-/

namespace Stackwise.Machine

/-- How many arguments a function says that it takes. -/
def arityText (given low high : Nat) : String :=
  let count :=
    if low == high then "exactly " ++ toString low
    else if given < low then "at least " ++ toString low
    else "at most " ++ toString high
  count ++ (if low == high && low == 1 then " argument" else " arguments")

/-- Raises unless the number of arguments lies between two bounds. -/
def arity (name : String) (args : List Value) (low high : Nat) : Action Unit := do
  let given := args.length
  unless low ≤ given && given ≤ high do
    typeError (name ++ "() takes " ++ arityText given low high ++ " (" ++ toString given ++ " given)")

/-- Raises if there are keyword arguments. -/
def noKeywords (name : String) (kwargs : List Keyword) : Action Unit := do
  unless kwargs.isEmpty do typeError (name ++ "() takes no keyword arguments")

/-- Raises unless all keyword arguments have one of the given names. -/
def onlyKeywords (name : String) (kwargs : List Keyword) (names : List String) : Action Unit := do
  match kwargs.find? fun k => !names.contains k.name with
  | some k => typeError (name ++ "() got an unexpected keyword argument '" ++ k.name ++ "'")
  | none => return

/-- The keyword argument with a name; of several the last. -/
def keyword? (kwargs : List Keyword) (name : String) : Option Value :=
  (kwargs.reverse.find? (·.name == name)).map (·.value)

/-- An integer argument. -/
def intArg (name : String) (v : Value) : Action Int64 := do
  match v.asInt? with
  | some n => return n
  | none => typeError (name ++ "() argument must be int, not " ++ (← typeName v))

/-- A text argument. -/
def textArg (name : String) (v : Value) : Action String := do
  match v.asText? with
  | some t => return t
  | none => typeError (name ++ "() argument must be str, not " ++ (← typeName v))

end Stackwise.Machine
