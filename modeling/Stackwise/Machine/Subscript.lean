import Stackwise.Machine.Protocol
import Stackwise.Machine.Progression

/-!
# Subscripts

Reading, assigning and deleting the items of containers, by position, by slice and by key.
-/

namespace Stackwise.Machine

/-! ## 1. Positions -/

/-- The integer that a subscript is. -/
def intIndex (key : Value) (what : String) : Action Int64 := do
  match key.asInt? with
  | some n => return n
  | none =>
    typeError (what ++ " indices must be integers or slices, not " ++ (← typeName key))

/-- The position that an index means in a sequence of `size` items. -/
def position? (index : Int64) (size : Nat) : Option Nat :=
  let i := if index < 0 then index.toInt + size else index.toInt
  if 0 ≤ i && i < size then some i.toNat else none

/-- The position that an index means, or an exception. -/
def indexOf (index : Int64) (size : Nat) (what : String) : Action Nat := do
  match position? index size with
  | some i => return i
  | none => raiseText TypeId.indexError (what ++ " index out of range")

/-- The item at the position that a subscript means. -/
def itemAt {α : Type} (items : Array α) (key : Value) (kind what : String) : Action α := do
  let i ← indexOf (← intIndex key kind) items.size what
  match items[i]? with
  | some a => return a
  | none => raiseText TypeId.indexError (what ++ " index out of range")

/-- A part of a slice. -/
def sliceBound (v : Value) : Action (Option Int64) := do
  match v with
  | .none => return none
  | v =>
    match v.asInt? with
    | some n => return some n
    | none => typeError "slice indices must be integers or None"

/-- The bounds of a slice in a sequence of `size` items. -/
def sliceIndices (start stop step : Value) (size : Nat) : Action Progression := do
  let by_ := (← sliceBound step).getD 1
  if by_ == 0 then valueError "slice step cannot be zero"
  else return Slice.resolve (← sliceBound start) (← sliceBound stop) by_ size

/-! ## 2. Reading -/

/-- Raises the exception of a key that is not there. -/
def keyError {α : Type} (key : Value) : Action α := raise TypeId.keyError [key]

/-- The item of a container under a key. -/
def getItem (container key : Value) : Action Value := do
  match container, key with
  | .tuple _ items, .slice _ a b c =>
    let p ← sliceIndices a b c items.length
    newTuple (Slice.select p items.toArray)
  | .list r, .slice _ a b c =>
    let items ← look fun s => s.lists.get r
    newList (Slice.select (← sliceIndices a b c items.size) items)
  | .str _ t, .slice _ a b c =>
    let chars := t.toList.toArray
    let p ← sliceIndices a b c chars.size
    newStr (String.ofList (Slice.select p chars))
  | .tuple _ items, key => itemAt items.toArray key "tuple" "tuple"
  | .list r, key => itemAt (← look fun s => s.lists.get r) key "list" "list"
  | .str _ t, key =>
    let c ← itemAt t.toList.toArray key "string" "string"
    newStr c.toString
  | .bytes _ b, key =>
    let x ← itemAt b.toArray key "bytes" "index"
    return .int (Int64.ofNat x.toNat)
  | .range p, key =>
    match p.get? (← intIndex key "range object") with
    | some n => return .int n
    | none => raiseText TypeId.indexError "range object index out of range"
  | .dict r, key =>
    checkHashable key
    match ← look fun s => s.lookup? (s.dicts.get r) key with
    | some v => return v
    | none => keyError key
  | container, key =>
    match ← hook? container "__getitem__" [key] with
    | some v => return v
    | none => typeError ("'" ++ (← typeName container) ++ "' object is not subscriptable")

/-! ## 3. Assigning and deleting -/

/-- Assigns the item of a container under a key. -/
def setItem (container key value : Value) : Action Unit := do
  match container, key with
  | .list r, .slice _ a b c =>
    let replacement ← collect value
    let items ← look fun s => (s.lists.get r).toList
    let p ← sliceIndices a b c items.length
    if p.step != 1 then valueError "extended slice assignment is not supported"
    else modify fun s =>
      { s with lists := s.lists.put r (Slice.replace p items replacement).toArray }
  | .list r, key =>
    let index ← intIndex key "list"
    let i ← indexOf index (← look fun s => (s.lists.get r).size) "list assignment"
    modify fun s => { s with lists := s.lists.update r fun items => items.setIfInBounds i value }
  | .dict r, key =>
    checkHashable key
    modify fun s => { s with dicts := s.dicts.put r (s.insert (s.dicts.get r) key value) }
  | container, key =>
    match ← hook? container "__setitem__" [key, value] with
    | some _ => return
    | none => typeError ("'" ++ (← typeName container) ++ "' object does not support item assignment")

/-- Deletes the item of a container under a key. -/
def delItem (container key : Value) : Action Unit := do
  match container, key with
  | .list r, .slice _ a b c =>
    let items ← look fun s => (s.lists.get r).toList
    let p ← sliceIndices a b c items.length
    modify fun s => { s with lists := s.lists.put r (Slice.remove p items).toArray }
  | .list r, key =>
    let index ← intIndex key "list"
    let i ← indexOf index (← look fun s => (s.lists.get r).size) "list assignment"
    modify fun s => { s with lists := s.lists.update r fun items => items.eraseIdxIfInBounds i }
  | .dict r, key =>
    match ← look fun s => s.erase? (s.dicts.get r) key with
    | some (_, pairs) => modify fun s => { s with dicts := s.dicts.put r pairs }
    | none => keyError key
  | container, key =>
    match ← hook? container "__delitem__" [key] with
    | some _ => return
    | none => typeError ("'" ++ (← typeName container) ++ "' object does not support item deletion")

end Stackwise.Machine
