import Stackwise.Machine.Protocol
import Stackwise.Sorting.Stable
import Stackwise.Text.Search

/-!
# Comparing values

The comparison operators, membership, sorting and hashes. Host objects take part through their
special methods.
-/

namespace Stackwise.Machine

/-! ## 1. Comparisons -/

/-- The order of two values; values that have none raise an exception that names the operator. -/
def order (l r : Value) (symbol : String) : Action (Option Ordering) := do
  match (← get).order l r with
  | .ok o => return o
  | .error pair =>
    typeError ("'" ++ symbol ++ "' not supported between instances of '" ++ (← typeName pair.left)
      ++ "' and '" ++ (← typeName pair.right) ++ "'")

/-- Whether an order satisfies a comparison; numbers without order satisfy none. -/
def satisfies (op : Comparison) : Option Ordering → Bool
  | none => false
  | some o =>
    match op with
    | .lt => o == .lt
    | .le => o != .gt
    | .gt => o == .gt
    | .ge => o != .lt
    | .eq => o == .eq
    | .ne => o != .eq

/-- The answer of a host object to a comparison: the left one by its own method, else the right one
by the method of the swapped comparison. -/
def nativeCompare? (op : Comparison) (l r : Value) : Action (Option Value) := do
  match ← hook? l op.method [r] with
  | some v => return some v
  | none => hook? r op.swapped.method [l]

/-- A comparison. -/
def compare (op : Comparison) (l r : Value) : Action Value := do
  match ← nativeCompare? op l r with
  | some v => return v
  | none =>
    match op with
    | .eq => return .bool (← equal l r)
    | .ne => return .bool !(← equal l r)
    | op => return .bool (satisfies op (← order l r op.symbol))

/-! ## 2. Membership -/

/-- Whether an item comes out of an iterator. -/
def search (it item : Value) : Nat → Action Bool
  | 0 => outOfFuel
  | fuel + 1 => do
    match ← next it with
    | some v => if ← equal v item then return true else search it item fuel
    | none => return false

/-- Whether bytes occur in other bytes. -/
def bytesOccur (sub : List UInt8) : List UInt8 → Bool
  | [] => sub.isEmpty
  | b :: bs => sub.isPrefixOf (b :: bs) || bytesOccur sub bs

/-- Whether an item is in a container. -/
def contains (container item : Value) : Action Bool := do
  let s ← get
  match container with
  | .str _ t =>
    match item with
    | .str _ sub => return Text.occurs sub t
    | other =>
      typeError ("'in <string>' requires string as left operand, not " ++ (← typeName other))
  | .bytes _ b =>
    match item with
    | .int n => return 0 ≤ n && n < 256 && b.contains (UInt8.ofNat n.toInt.toNat)
    | .bytes _ sub => return bytesOccur sub b
    | _ => typeError "a bytes-like object is required"
  | .tuple _ items => return s.elem item items
  | .list r => return s.elem item (s.lists.get r).toList
  | .set r => return s.elem item (s.sets.get r)
  | .dict r => return (s.position? (s.dicts.get r) item).isSome
  | .range p => return item.asInt?.any p.contains
  | .iter _ | .generator _ => search (← iter container) item (← read).fuel
  | .native _ _ =>
    match ← hook? container "__contains__" [item] with
    | some answer => truthy answer
    | none => search (← iter container) item (← read).fuel
  | other => typeError ("argument of type '" ++ (← typeName other) ++ "' is not iterable")

/-! ## 3. Sorting -/

/-- The keys of items: the items themselves, or what a function makes of them. -/
def keysOf (key : Option Value) (items : List Value) : Action (List Value) :=
  match key with
  | none | some .none => return items
  | some f => items.mapM fun v => call f [v]

/-- Whether an item with one key comes strictly before an item with another. -/
def comesBefore (s : Store) (reverse : Bool) (a b : Value × Value) : Except Incomparable Bool :=
  (s.order a.1 b.1).map fun o => o == some (if reverse then .gt else .lt)

/-- Items with their keys in the order of the keys. Plain keys are arranged by merging, unless some
of them cannot be compared: then the method of sorting decides which pair is reported. -/
def arrange (s : Store) (reverse : Bool) (pairs : List (Value × Value)) :
    Except Incomparable (List (Value × Value)) :=
  let before := comesBefore s reverse
  let merged := if Value.allPlain (pairs.map (·.1)) then Sorting.arrangement? before pairs else none
  match merged with
  | some sorted => .ok sorted
  | none => Sorting.stableSort before pairs

/-- The items in the order of their keys, or in the opposite order; equal keys keep the order of the
items in both. -/
def sortValues (items : List Value) (key : Option Value) (reverse : Bool) :
    Action (List Value) := do
  let keys ← keysOf key items
  match arrange (← get) reverse (keys.zip items) with
  | .ok sorted => return sorted.map (·.2)
  | .error pair =>
    typeError ("'<' not supported between instances of '" ++ (← typeName pair.left) ++ "' and '"
      ++ (← typeName pair.right) ++ "'")

/-! ## 4. Hashes -/

/-- The least magnitude of a float that is hashed by its word even if it is whole. -/
def wholeLimit : Double := Double.ofInt 9000000000000000000

/-- The hash of a float: that of the integer if it is a whole number of moderate size. -/
def hashFloat (d : Digest) (x : Double) : Int64 :=
  if Binary64.isWhole x && x.abs.less wholeLimit then Integer.ofDouble x else d.float x.bits

mutual

/-- The hash of a value that can be a key. Equal numbers have equal hashes. -/
def hashKey : Value → Action Int64
  | .bool b => return if b then 1 else 0
  | .int n => return n
  | .float x => return hashFloat (← read).digest x
  | .str _ t => return (← read).digest.text t
  | .bytes _ b => return (← read).digest.bytes b
  | .tuple _ items => return (← read).digest.sequence (← hashKeys items)
  | v => do
    match ← hook? v "__hash__" [] with
    | some answer =>
      match answer.asInt? with
      | some n => return n
      | none => typeError "__hash__ method should return an integer"
    | none => return (← read).digest.place v.place

/-- The hashes of values. -/
def hashKeys : List Value → Action (List Int64)
  | [] => return []
  | v :: vs => return (← hashKey v) :: (← hashKeys vs)

end

/-- The hash of a value. -/
def hash (v : Value) : Action Int64 := do
  checkHashable v
  hashKey v

/-- The number of the place of a value. -/
def identity (v : Value) : Action Int64 := return (← read).digest.place v.place

end Stackwise.Machine
