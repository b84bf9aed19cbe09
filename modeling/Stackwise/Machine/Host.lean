import Stackwise.Machine.Action

/-!
# Objects of the host

How the scripts of host objects run, and how their attributes are read and set. Every run of a
script is logged with the arguments that it was given.
-/

namespace Stackwise.Machine

mutual

/-- Runs a script for the object `self` with the given arguments. -/
def runScript (self : Value) (args : List Value) : Script → Action Value
  | .give v => return v
  | .raise t values => raise t values
  | .stop v => throw (.stopIteration v)
  | .argument i => return args.getD i .none
  | .self => return self
  | .call v => call v args
  | .sequence counter scripts => do
    let n ← make fun s => (s.counters.get counter,
      { s with counters := s.counters.update counter (· + 1) })
    runTurn self args n scripts

/-- Runs the script whose turn it is; the last one stays. -/
def runTurn (self : Value) (args : List Value) : Nat → List Script → Action Value
  | _, [] => return .none
  | _, [script] => runScript self args script
  | 0, script :: _ => runScript self args script
  | n + 1, _ :: rest => runTurn self args n rest

end

/-- Runs a script of a host object and logs the call. -/
def runLogged (ref : Nat) (n : Native) (what : String) (script : Script) (args : List Value) :
    Action Value := do
  let m ← model
  modify fun s => { s with
    log := (n.label ++ "." ++ what ++ "(" ++ s.reprs m args ++ ")") :: s.log }
  runScript (if n.hasSelf then .native ref n.runtimeType else .none) args script

/-- Calls a method of a host object. -/
def callNativeMethod (ref : Nat) (name : String) (args : List Value) : Action Value := do
  let n := (← get).natives.get ref
  match n.methods.lookup name with
  | some script => runLogged ref n name script args
  | none => attributeError n.typeName name

/-- Calls a host object. -/
def callNative (ref : Nat) (args : List Value) : Action Value := do
  let n := (← get).natives.get ref
  match n.call with
  | some script => runLogged ref n "()" script args
  | none => typeError ("'" ++ n.typeName ++ "' object is not callable")

/-- Sets an attribute of a host object; false if it has no such slot. -/
def setNativeAttribute (ref : Nat) (name : String) (v : Value) : Action Bool := do
  let n := (← get).natives.get ref
  if n.slots.contains name then
    modify fun s => { s with natives := s.natives.update ref fun n =>
      { n with attributes := (name, v) :: n.attributes } }
    return true
  else return false

/-- The outcome of a method that a value may have as a host object: nothing if it does not. -/
def hook? (v : Value) (name : String) (args : List Value) : Action (Option Value) := do
  match v with
  | .native ref _ =>
    if ((← get).natives.get ref).hasMethod name then
      return some (← callNativeMethod ref name args)
    else return none
  | _ => return none

end Stackwise.Machine
