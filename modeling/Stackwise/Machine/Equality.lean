import Stackwise.Machine.Store

/-!
# Equality

When the operator `==` holds of two values. Numbers compare by value across their classes, texts,
byte strings, tuples and slices by content, collections by the content that they have now, and
everything else by identity.

* `Value.equalWith`: equality of values, given the equality of collections in the store. It follows
  the structure of the first value.
* `Store.equal`: equality in a store. Collections are looked through to a depth that no acyclic
  nesting exceeds.
* `Store.position?`, `Store.lookup?`, `Store.insert`, `Store.erase`: mappings as lists of pairs in
  insertion order, keyed by equality. A key keeps its place.
-/

namespace Stackwise

/-! ## 1. Values -/

namespace Value

/-- Equality of numbers, if both values are numbers. -/
def equalNumbers? (a b : Value) : Option Bool :=
  match a.asInt?, b.asInt? with
  | some x, some y => some (x == y)
  | _, _ =>
    match a.asDouble?, b.asDouble? with
    | some x, some y => some (x.equals y)
    | _, _ => Option.none

mutual

/-- Equality of values; `below` decides it for two collections of the store. -/
def equalWith (below : Value → Value → Bool) : Value → Value → Bool
  | .str _ a, .str _ b => a == b
  | .bytes _ a, .bytes _ b => a == b
  | .tuple _ a, .tuple _ b => equalItems below a b
  | .list a, .list b => a == b || below (.list a) (.list b)
  | .set a, .set b => a == b || below (.set a) (.set b)
  | .dict a, .dict b => a == b || below (.dict a) (.dict b)
  | .slice _ a b c, .slice _ x y z =>
    equalWith below a x && equalWith below b y && equalWith below c z
  | .method _ a _ n, .method _ b _ o => n == o && a.same b
  | a, b => (a.equalNumbers? b).getD (a.same b)

/-- Equality of sequences. -/
def equalItems (below : Value → Value → Bool) : List Value → List Value → Bool
  | [], [] => true
  | a :: as, b :: bs => equalWith below a b && equalItems below as bs
  | _, _ => false

end

end Value

/-! ## 2. The store -/

namespace Store

/-- Equality of values, looking through at most `fuel` collections inside each other. -/
def equalWithin (s : Store) : Nat → Value → Value → Bool
  | 0, a, b => a.equalWith (fun _ _ => false) b
  | fuel + 1, a, b =>
    a.equalWith (fun
      | .list x, .list y =>
        let xs := (s.lists.get x).toList
        let ys := (s.lists.get y).toList
        xs.length == ys.length && (xs.zip ys).all fun (v, w) => s.equalWithin fuel v w
      | .set x, .set y =>
        let xs := s.sets.get x
        let ys := s.sets.get y
        xs.length == ys.length && xs.all fun v => ys.any fun w => s.equalWithin fuel v w
      | .dict x, .dict y =>
        let xs := s.dicts.get x
        let ys := s.dicts.get y
        xs.length == ys.length && xs.all fun (k, v) =>
          match ys.find? fun (l, _) => s.equalWithin fuel l k with
          | some (_, w) => s.equalWithin fuel v w
          | none => false
      | _, _ => false) b

/-- Equality of values. -/
def equal (s : Store) (a b : Value) : Bool := s.equalWithin s.size a b

/-- Whether a value is among others. -/
def elem (s : Store) (v : Value) (members : List Value) : Bool := members.any fun m => s.equal m v

/-! ## 3. Pairs -/

/-- The position of a key. -/
def position? (s : Store) (pairs : List (Value × Value)) (key : Value) : Option Nat :=
  pairs.findIdx? fun (k, _) => s.equal k key

/-- The value under a key. -/
def lookup? (s : Store) (pairs : List (Value × Value)) (key : Value) : Option Value :=
  (pairs.find? fun (k, _) => s.equal k key).map (·.2)

/-- The pairs with a value under a key; a key that is there keeps its place and its form. -/
def insert (s : Store) (pairs : List (Value × Value)) (key value : Value) :
    List (Value × Value) :=
  match s.position? pairs key with
  | some i => pairs.modify i fun (k, _) => (k, value)
  | none => pairs ++ [(key, value)]

/-- The pairs with all of `more`, later values in place of earlier ones. -/
def insertAll (s : Store) (pairs more : List (Value × Value)) : List (Value × Value) :=
  more.foldl (fun ps (k, v) => s.insert ps k v) pairs

/-- The value under a key, and the pairs without it. -/
def erase? (s : Store) (pairs : List (Value × Value)) (key : Value) :
    Option (Value × List (Value × Value)) :=
  match s.position? pairs key with
  | some i => pairs[i]?.map fun (_, v) => (v, pairs.eraseIdx i)
  | none => none

/-- The members with one more, unless an equal one is there. -/
def addMember (s : Store) (members : List Value) (v : Value) : List Value :=
  if s.elem v members then members else members ++ [v]

end Store

end Stackwise
