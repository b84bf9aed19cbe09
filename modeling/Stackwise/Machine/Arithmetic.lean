import Stackwise.Machine.Formatting
import Stackwise.Text.Search

/-!
# Operators

The unary and binary operators. Numbers come first, then sequences and collections, and host objects
last, through their special methods.
-/

namespace Stackwise.Machine

/-! ## 1. Unary operators -/

/-- A unary operator. -/
def unary (op : UnaryOp) (v : Value) : Action Value := do
  match op, v with
  | .not, v => return .bool !(← truthy v)
  | .positive, .float x => return .float x
  | .negative, .float x => return .float x.negate
  | op, v =>
    match op, v.asInt? with
    | .positive, some n => return .int n
    | .negative, some n => return number (← arith (Integer.negate n))
    | .invert, some n => return .int (Integer.invert n)
    | op, _ =>
      match ← hook? v (op.method?.getD "") [] with
      | some answer => return answer
      | none =>
        typeError ("bad operand type for unary " ++ op.symbol ++ ": '" ++ (← typeName v) ++ "'")

/-! ## 2. Numbers -/

/-- The operators that truth values keep among themselves. -/
def boolBinary? (op : BinaryOp) (a b : Bool) : Option Bool :=
  match op with
  | .and => some (a && b)
  | .or => some (a || b)
  | .xor => some (a != b)
  | _ => none

/-- A binary operator on numbers; nothing if an operand is no number, or floats do not have the
operator. -/
def numeric? (op : BinaryOp) (l r : Value) : Except ArithError (Option Value) :=
  let plain : Except ArithError (Option Value) :=
    match l.asInt?, r.asInt? with
    | some a, some b => (Integer.binary op a b).map fun n => some (number n)
    | _, _ =>
      match l.asDouble?, r.asDouble? with
      | some a, some b => (Real.binary op a b).map fun x => x.map .float
      | _, _ => .ok none
  match l, r with
  | .bool a, .bool b =>
    match boolBinary? op a b with
    | some c => .ok (some (.bool c))
    | none => plain
  | _, _ => plain

/-! ## 3. Sequences and collections -/

/-- How often a sequence is repeated: not at all for a negative count. -/
def repeatCount (n : Int64) : Nat := n.toInt.toNat

/-- A sequence repeated. -/
def repeated {α : Type} (n : Nat) (items : List α) : List α :=
  if items.isEmpty then [] else (List.replicate n items).flatten

/-- The members of a set operator. -/
def setMembers (s : Store) (op : BinaryOp) (x y : List Value) : List Value :=
  let onlyX := x.filter fun v => !s.elem v y
  let onlyY := y.filter fun v => !s.elem v x
  match op with
  | .or => x ++ onlyY
  | .and => x.filter fun v => s.elem v y
  | .subtract => onlyX
  | _ => onlyX ++ onlyY

/-- A product of a sequence and a count; nothing for other operands. -/
def sequenceProduct? (l r : Value) (inplace : Bool) : Action (Option Value) := do
  match l, r with
  | .str _ t, r =>
    match r.asInt? with
    | some n => return some (← newStr (Text.times (repeatCount n) t))
    | none => return none
  | .tuple _ items, .int n => return some (← newTuple (repeated (repeatCount n) items))
  | .list x, .int n =>
    let items := repeated (repeatCount n) (← look fun s => (s.lists.get x).toList)
    if inplace then
      modify fun s => { s with lists := s.lists.put x items.toArray }
      return some l
    else return some (← newList items)
  | _, _ => return none

/-- A binary operator on sequences and collections; nothing for other operands. -/
def sequence? (op : BinaryOp) (l r : Value) (inplace : Bool) : Action (Option Value) := do
  match op, l, r with
  | .add, .str _ a, .str _ b => return some (← newStr (a ++ b))
  | .add, .bytes _ a, .bytes _ b => return some (← make (Store.newBytes (a ++ b)))
  | .add, .tuple _ a, .tuple _ b => return some (← newTuple (a ++ b))
  | .add, .list a, r =>
    if inplace then
      let more ← collect r
      modify fun s => { s with lists := s.lists.update a (· ++ more.toArray) }
      return some l
    else
      match r with
      | .list b =>
        let items ← look fun s => s.lists.get a ++ s.lists.get b
        return some (← make (Store.newList items))
      | _ => return none
  | .multiply, l, r =>
    match l.asInt?, r with
    | some _, .str _ _ | some _, .tuple _ _ | some _, .list _ => sequenceProduct? r l false
    | _, _ => sequenceProduct? l r inplace
  | .modulo, .str _ template, r => return some (← newStr (← percentFormat template r))
  | .or, .dict a, .dict b =>
    let pairs ← look fun s => s.insertAll (s.dicts.get a) (s.dicts.get b)
    if inplace then
      modify fun s => { s with dicts := s.dicts.put a pairs }
      return some l
    else return some (← make (Store.newDict pairs))
  | op, .set a, .set b =>
    if op == .or || op == .and || op == .subtract || op == .xor then
      let members ← look fun s => setMembers s op (s.sets.get a) (s.sets.get b)
      return some (← make (Store.newSet members))
    else return none
  | _, _, _ => return none

/-! ## 4. Binary operators -/

/-- The answer of a host object to a binary operator: the left one by its own method, else the
right one by the reflected method. -/
def nativeBinary? (op : BinaryOp) (l r : Value) (inplace : Bool) : Action (Option Value) := do
  let own := if inplace && (← nativeHas l op.inplace) then op.inplace else op.method
  match ← hook? l own [r] with
  | some v => return some v
  | none => hook? r op.reflected [l]

/-- A binary operator, or its form that changes the left operand in place. -/
def binary (op : BinaryOp) (l r : Value) (inplace : Bool) : Action Value := do
  if let some v ← arith (numeric? op l r) then return v
  if let some v ← sequence? op l r inplace then return v
  if let some v ← nativeBinary? op l r inplace then return v
  typeError ("unsupported operand type(s) for " ++ op.symbol ++ (if inplace then "=" else "")
    ++ ": '" ++ (← typeName l) ++ "' and '" ++ (← typeName r) ++ "'")

end Stackwise.Machine
