import Stackwise.Machine.Arguments
import Stackwise.Machine.NumberText
import Stackwise.Machine.Protocol
import Stackwise.Text.Utf8

/-!
# Classes

What a call of a class makes.
-/

namespace Stackwise.Machine

/-! ## 1. Numbers -/

/-- The least magnitude of a float that `int` takes for infinite. -/
def integerLimit : Double := Double.ofInt 9300000000000000000

/-- What `int` makes of a float. A float of moderate size that has more than 64 bits gives the word
nearest to it. -/
def intOfFloat (x : Double) : Action Value := do
  if x.isNaN then valueError "cannot convert float NaN to integer"
  else if x.isInfinite || !x.abs.less integerLimit then
    raiseText TypeId.arithmeticError "cannot convert float infinity to integer"
  else return .int (Integer.ofDouble x)

/-- What `int` makes of a text in a base. -/
def intOfText (t : String) (base : Int64) : Action Value := do
  match NumberText.readInteger? t base.toInt with
  | some n => return .int n
  | none =>
    valueError ("invalid literal for int() with base " ++ toString base.toInt ++ ": "
      ++ Text.literal t)

/-- A call of `int`. -/
def makeInt (args : List Value) : Action Value := do
  match args with
  | [] => return .int 0
  | [.str _ t] => intOfText t 10
  | .str _ t :: base :: _ => intOfText t (← intArg "int" base)
  | _ :: _ :: _ => typeError "int() can't convert non-string with explicit base"
  | [.float x] => intOfFloat x
  | [v] =>
    match v.asInt? with
    | some n => return .int n
    | none =>
      match ← hook? v "__int__" [] with
      | some answer => return answer
      | none =>
        typeError ("int() argument must be a string or a number, not '" ++ (← typeName v) ++ "'")

/-- A call of `float`. -/
def makeFloat (args : List Value) : Action Value := do
  match args with
  | [] => return .float .zero
  | .str _ t :: _ =>
    match NumberText.readFloat? t with
    | some x => return .float x
    | none => valueError ("could not convert string to float: " ++ Text.literal t)
  | v :: _ =>
    match v.asDouble? with
    | some x => return .float x
    | none =>
      typeError ("float() argument must be a string or a number, not '" ++ (← typeName v) ++ "'")

/-- A call of `range`. -/
def makeRange (args : List Value) : Action Value := do
  let ints ← args.mapM fun v => do
    match v.asInt? with
    | some n => return n
    | none => typeError ("'" ++ (← typeName v) ++ "' object cannot be interpreted as an integer")
  let p : Progression := match ints with
    | [stop] => ⟨0, stop, 1⟩
    | [start, stop] => ⟨start, stop, 1⟩
    | [start, stop, step] => ⟨start, stop, step⟩
    | _ => ⟨0, 0, 1⟩
  if p.step == 0 then valueError "range() arg 3 must not be zero" else return .range p

/-! ## 2. Collections -/

/-- The byte that a value stands for. -/
def byteOf (v : Value) : Action UInt8 := do
  match v.asInt? with
  | some n =>
    if 0 ≤ n && n < 256 then return UInt8.ofNat n.toInt.toNat
    else valueError "bytes must be in range(0, 256)"
  | none => valueError "bytes must be in range(0, 256)"

/-- A call of `bytes`. -/
def makeBytes (args : List Value) : Action Value := do
  let content ← match args with
    | [] => pure []
    | .str _ t :: _ :: _ => pure (Text.Utf8.encode t)
    | [.str _ _] => typeError "string argument without an encoding"
    | v :: _ => do (← collect v).mapM byteOf
  make (Store.newBytes content)

/-- Adds a member to a set that is being built. -/
def addMember (members : List Value) (v : Value) : Action (List Value) := do
  checkHashable v
  look fun s => s.addMember members v

/-- A call of `set`. -/
def makeSet (args : List Value) : Action Value := do
  let items ← match args with
    | [] => pure []
    | v :: _ => collect v
  let members ← items.foldlM addMember []
  make (Store.newSet members)

/-- Adds the two items of a value to pairs that are being built. -/
def addPair (pairs : List (Value × Value)) (item : Value) : Action (List (Value × Value)) := do
  match ← collect item with
  | [k, v] =>
    checkHashable k
    look fun s => s.insert pairs k v
  | items =>
    valueError ("dictionary update sequence element has length " ++ toString items.length
      ++ "; 2 is required")

/-- A call of `dict`. -/
def makeDict (args : List Value) (kwargs : List Keyword) : Action Value := do
  let pairs ← match args with
    | [] => pure []
    | .dict r :: _ => look fun s => s.dicts.get r
    | v :: _ => do (← collect v).foldlM addPair []
  let named := kwargs.map fun k => (Value.str k.id k.name, k.value)
  make fun s => s.newDict (s.insertAll pairs named)

/-- A call of `slice`. -/
def makeSlice (args : List Value) : Action Value :=
  make (match args with
    | [stop] => Store.newSlice .none stop .none
    | [start, stop] => Store.newSlice start stop .none
    | [start, stop, step] => Store.newSlice start stop step
    | _ => Store.newSlice .none .none .none)

/-! ## 3. Calls -/

/-- How many arguments the classes that can be called take. -/
def constructorArity? (t : TypeId) : Option (Nat × Nat) :=
  if t == TypeId.int || t == TypeId.bytes then some (0, 2)
  else if t == TypeId.range || t == TypeId.slice then some (1, 3)
  else if t == TypeId.type then some (1, 1)
  else if [TypeId.float, TypeId.str, TypeId.bool, TypeId.tuple, TypeId.list, TypeId.set,
    TypeId.dict].contains t then some (0, 1)
  else none

/-- A call of a class with arguments that were counted. -/
def constructWith (t : TypeId) (args : List Value) (kwargs : List Keyword) : Action Value := do
  if t == TypeId.int then makeInt args
  else if t == TypeId.float then makeFloat args
  else if t == TypeId.str then
    match args with
    | [] => newStr ""
    | v :: _ => newStr (← display v)
  else if t == TypeId.bool then
    match args with
    | [] => return .bool false
    | v :: _ => return .bool (← truthy v)
  else if t == TypeId.bytes then makeBytes args
  else if t == TypeId.tuple then
    match args with
    | [] => newTuple []
    | .tuple id items :: _ => return .tuple id items
    | v :: _ => newTuple (← collect v)
  else if t == TypeId.list then
    match args with
    | [] => newList []
    | v :: _ => newList (← collect v)
  else if t == TypeId.set then makeSet args
  else if t == TypeId.dict then makeDict args kwargs
  else if t == TypeId.range then makeRange args
  else if t == TypeId.slice then makeSlice args
  else return .classObject (args.headD .none).type

/-- A call of a class. -/
def construct (t : TypeId) (args : List Value) (kwargs : List Keyword) : Action Value := do
  let m ← model
  let name := m.name t
  if m.isException t then
    noKeywords name kwargs
    return (← newException t args).value
  if t != TypeId.dict then noKeywords name kwargs
  match constructorArity? t with
  | some (low, high) =>
    arity name args low high
    constructWith t args kwargs
  | none =>
    if t == TypeId.object then
      raiseText TypeId.notImplementedError "plain object instances are not supported"
    else typeError ("cannot create '" ++ name ++ "' instances")

end Stackwise.Machine
