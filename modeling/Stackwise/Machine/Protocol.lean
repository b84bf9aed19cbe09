import Stackwise.Machine.Generator
import Stackwise.Machine.Host

/-!
# Protocols

What every value answers: its truth, its length, its text, and its items one after the other. Host
objects answer through their special methods.
-/

namespace Stackwise.Machine

/-! ## 1. Length and truth -/

/-- The length of a value. -/
def length (v : Value) : Action Int64 := do
  let s ← get
  match v with
  | .str _ t => return Int64.ofNat t.length
  | .bytes _ b => return Int64.ofNat b.length
  | .tuple _ items => return Int64.ofNat items.length
  | .list r => return Int64.ofNat (s.lists.get r).size
  | .set r => return Int64.ofNat (s.sets.get r).length
  | .dict r => return Int64.ofNat (s.dicts.get r).length
  | .range p => return p.length
  | v =>
    match ← hook? v "__len__" [] with
    | some answer =>
      match answer.asInt? with
      | some n => return n
      | none => typeError "__len__() should return an integer"
    | none => typeError ("object of type '" ++ (← typeName v) ++ "' has no len()")

/-- The truth value of a value. A host object is asked by `__bool__`, then by `__len__`. -/
def truthy (v : Value) : Action Bool := do
  match ← hook? v "__bool__" [] with
  | some (.bool b) => return b
  | some other => typeError ("__bool__ should return bool, returned " ++ (← typeName other))
  | none => if ← nativeHas v "__len__" then return (← length v) != 0 else look fun s => s.truthy v

/-! ## 2. Text -/

/-- The text that a special method returned. -/
def textOf (hook : String) (v : Value) : Action String := do
  match v with
  | .str _ t => return t
  | other => typeError (hook ++ " returned non-string (type " ++ (← typeName other) ++ ")")

/-- How a value is written. -/
def repr (v : Value) : Action String := do
  match ← hook? v "__repr__" [] with
  | some answer => textOf "__repr__" answer
  | none => return (← get).repr (← model) v

/-- The text of a value. -/
def display (v : Value) : Action String := do
  match ← hook? v "__str__" [] with
  | some answer => textOf "__str__" answer
  | none =>
    match v with
    | .native _ _ => repr v
    | v => return (← get).display (← model) v

/-! ## 3. Iteration -/

/-- An iterator over a value. Lists are looked at live, all other collections as they are now. -/
def iter (v : Value) : Action Value := do
  let s ← get
  let walk (c : Cursor) : Action Value := make (Store.newIter c)
  match v with
  | .iter _ | .generator _ => return v
  | .list r => walk (.list r 0)
  | .tuple _ items => walk (.items items)
  | .str _ t =>
    let chars ← make (Store.newStrs (t.toList.map Char.toString))
    walk (.items chars)
  | .bytes _ b => walk (.items (b.map fun x => .int (Int64.ofNat x.toNat)))
  | .set r => walk (.items (s.sets.get r))
  | .dict r => walk (.items ((s.dicts.get r).map (·.1)))
  | .range p => walk (.range p)
  | v =>
    match ← hook? v "__iter__" [] with
    | some it => return it
    | none =>
      if ← nativeHas v "__next__" then return v
      else typeError ("'" ++ (← typeName v) ++ "' object is not iterable")

/-- The next item of an iterator; nothing at the end. -/
def next (it : Value) : Action (Option Value) := do
  match it with
  | .iter r =>
    let s ← get
    match s.advance (s.iters.get r) with
    | some (v, rest) =>
      modify fun s => { s with iters := s.iters.put r rest }
      return some v
    | none => return none
  | .generator g =>
    match ← attempt (nextOf g) with
    | .ok v => return some v
    | .error (.stopIteration _) => return none
    | .error e => throw e
  | .native _ _ =>
    match ← attempt (hook? it "__next__" []) with
    | .ok (some v) => return some v
    | .ok none => refuse
    | .error e => if isStopIteration (← model) e then return none else throw e
  | _ => refuse
where
  /-- The exception of something that is no iterator. -/
  refuse : Action (Option Value) := do
    typeError ("'" ++ (← typeName it) ++ "' object is not an iterator")

/-- The items of an iterator; `items` holds those so far, reversed. -/
def drain (it : Value) : Nat → List Value → Action (List Value)
  | 0, _ => outOfFuel
  | fuel + 1, items => do
    match ← next it with
    | some v => drain it fuel (v :: items)
    | none => return items.reverse

/-- The items of a value. -/
def collect (v : Value) : Action (List Value) := do
  match v with
  | .tuple _ items => return items
  | .list r => look fun s => (s.lists.get r).toList
  | v =>
    let it ← iter v
    drain it (← read).fuel []

end Stackwise.Machine
