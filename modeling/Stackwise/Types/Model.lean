import Stackwise.Types.Linearization
import Stackwise.Types.Signature

/-!
# The type model

A table of types with their bases, search orders, methods and attributes, and the questions that
the analysis asks of it.

* **Building.** `register`, `addMethod`, `addAttribute` and `addGlobalClass` extend a model; each
  either succeeds or names the reason and leaves the model as it was.
* **Subtyping.** `isSubtype` is membership in the stored search order; `commonSupertype` is the
  deepest type in both orders, the lowest position winning a tie.
* **Overloads.** `lookupMethod` lists the overloads along the search order; `resolveOverload`
  picks the only one that accepts the arguments in the first declaring type that has one.
-/

namespace Stackwise

/-! ## 1. Descriptors -/

/-- Everything a model knows about one type. -/
structure TypeDef where
  /-- The name of the type. -/
  name : String
  /-- Direct bases in order of declaration. -/
  bases : List TypeId
  /-- The search order, the type itself first. -/
  order : Linearization
  /-- Length of the longest path of bases to the universal type. -/
  depth : Nat
  /-- Overloads declared here, by method name and in order of declaration. -/
  methods : List (String × List Signature) := []
  /-- Attribute types declared here. -/
  attributes : List (String × TypeId) := []
  deriving Inhabited, Repr

/-- What a builtin global name stands for. -/
inductive GlobalBinding where
  /-- A class object. -/
  | classObject (type : TypeId)
  /-- A builtin function. -/
  | function
  deriving DecidableEq, Repr

/-- Reasons why a model cannot be extended. -/
inductive TypeModelError where
  /-- The name is taken. -/
  | duplicateType (name : String)
  /-- The id names no type of the model. -/
  | unknownType (type : TypeId)
  /-- The bases admit no common search order. -/
  | inconsistentOrder (name : String)
  deriving DecidableEq, Repr

/-- The text of a failed extension. -/
def TypeModelError.message : TypeModelError → String
  | .duplicateType n => "type `" ++ n ++ "` is already registered"
  | .unknownType t => "unknown base type " ++ t.label
  | .inconsistentOrder n =>
    "cannot create a consistent method resolution order for `" ++ n ++ "`"

/-- A table of types and the builtin global names bound to classes. -/
structure TypeModel where
  /-- The types; the position of a type is its id. -/
  types : Array TypeDef
  /-- Global names bound to classes, the latest binding first. -/
  globalClasses : List (String × TypeId) := []
  deriving Repr

namespace TypeModel

/-- The model that holds only the universal type. -/
def empty : TypeModel :=
  { types := #[{ name := "object", bases := [], order := [TypeId.object], depth := 0 }] }

instance : Inhabited TypeModel := ⟨empty⟩

/-! ## 2. Descriptors by id and by name -/

/-- Number of types. -/
def size (m : TypeModel) : Nat := m.types.size

/-- The descriptor of a type. -/
def get? (m : TypeModel) (t : TypeId) : Option TypeDef := m.types[t.raw]?

/-- The type called `name`. -/
def byName? (m : TypeModel) (name : String) : Option TypeId :=
  (m.types.findIdx? (·.name == name)).map TypeId.mk

/-- The name of a type, or `?` for an unknown id. -/
def name (m : TypeModel) (t : TypeId) : String :=
  match m.get? t with
  | some d => d.name
  | none => "?"

/-- The search order of a type; an unknown id is searched as the universal type. -/
def order (m : TypeModel) (t : TypeId) : Linearization :=
  match m.get? t with
  | some d => d.order
  | none => [TypeId.object]

/-- The depth of a type, zero for an unknown id. -/
def depth (m : TypeModel) (t : TypeId) : Nat :=
  match m.get? t with
  | some d => d.depth
  | none => 0

/-- The greatest depth in the model: the height of the hierarchy. -/
def maxDepth (m : TypeModel) : Nat := m.types.foldl (fun n d => max n d.depth) 0

/-! ## 3. Building -/

/-- Registers a type with the given bases; no bases stand for the universal type. -/
def register (m : TypeModel) (name : String) (bases : List TypeId) :
    Except TypeModelError (TypeId × TypeModel) := do
  if (m.byName? name).isSome then throw (.duplicateType name)
  let bases := if bases.isEmpty then [TypeId.object] else bases
  match bases.find? fun b => m.size ≤ b.raw with
  | some b => throw (.unknownType b)
  | none =>
    let id : TypeId := ⟨m.size⟩
    match Linearization.linearize id bases m.order with
    | none => throw (.inconsistentOrder name)
    | some order =>
      let depth := 1 + (bases.map m.depth).foldl max 0
      return (id, { m with types := m.types.push { name, bases, order, depth } })

/-- Adds an overload to the overloads of `name`, after those already there. -/
def declare (name : String) (s : Signature) :
    List (String × List Signature) → List (String × List Signature)
  | [] => [(name, [s])]
  | (n, ss) :: rest => if n = name then (n, ss ++ [s]) :: rest else (n, ss) :: declare name s rest

/-- Declares an overload of the method `name` on `owner`. -/
def addMethod (m : TypeModel) (owner : TypeId) (name : String) (s : Signature) :
    Except TypeModelError TypeModel :=
  if owner.raw < m.size then
    .ok { m with types := m.types.modify owner.raw fun d =>
      { d with methods := declare name { s with owner } d.methods } }
  else .error (.unknownType owner)

/-- Declares the type of the attribute `name` on `owner`; a later declaration wins. -/
def addAttribute (m : TypeModel) (owner : TypeId) (name : String) (t : TypeId) :
    Except TypeModelError TypeModel :=
  if owner.raw < m.size then
    .ok { m with types := m.types.modify owner.raw fun d =>
      { d with attributes := (name, t) :: d.attributes } }
  else .error (.unknownType owner)

/-- Binds a builtin global name to a class. -/
def addGlobalClass (m : TypeModel) (name : String) (t : TypeId) :
    Except TypeModelError TypeModel :=
  if t.raw < m.size then .ok { m with globalClasses := (name, t) :: m.globalClasses }
  else .error (.unknownType t)

/-! ## 4. Subtyping -/

/-- Whether `a` is `b` or inherits from it. -/
def isSubtype (m : TypeModel) (a b : TypeId) : Bool :=
  a == b || b == TypeId.object || (m.order a).contains b

/-- Whether a type is an exception class. -/
def isException (m : TypeModel) (t : TypeId) : Bool := m.isSubtype t TypeId.baseException

/-- The better of two common supertypes: the deeper one, then the one with the lower id. -/
def deeper (m : TypeModel) (a b : TypeId) : TypeId :=
  if m.depth a < m.depth b then b
  else if m.depth b < m.depth a then a
  else if b.raw < a.raw then b
  else a

/-- The nearest common supertype of two types. -/
def commonSupertype (m : TypeModel) (a b : TypeId) : TypeId :=
  if a = b then a
  else if m.isSubtype a b then b
  else if m.isSubtype b a then a
  else
    match (m.order a).filter fun t => (m.order b).contains t with
    | [] => TypeId.object
    | t :: ts => ts.foldl m.deeper t

/-! ## 5. Members -/

/-- The overloads of `name` that `t` declares itself. -/
def declared? (m : TypeModel) (t : TypeId) (name : String) : Option (List Signature) :=
  (m.get? t).bind fun d => d.methods.lookup name

/-- All overloads of `name` visible on `t`, the most derived owner first. -/
def lookupMethod (m : TypeModel) (t : TypeId) (name : String) : List Signature :=
  (m.order t).flatMap fun owner => (m.declared? owner name).getD []

/-- Whether some type in the search order of `t` declares `name`. -/
def hasMethod (m : TypeModel) (t : TypeId) (name : String) : Bool :=
  (m.order t).any fun owner => (m.declared? owner name).isSome

/-- The declared type of attribute `name`, searched along the order of `t`. -/
def lookupAttribute (m : TypeModel) (t : TypeId) (name : String) : Option TypeId :=
  (m.order t).findSome? fun owner => (m.get? owner).bind fun d => d.attributes.lookup name

/-- What a builtin global name stands for: a class, else a builtin function. -/
def lookupGlobal (m : TypeModel) (name : String) : Option GlobalBinding :=
  match m.globalClasses.lookup name with
  | some t => some (.classObject t)
  | none => if m.hasMethod TypeId.builtins name then some .function else none

/-! ## 6. Overload resolution -/

/-- Whether the keyword arguments fill distinct parameters that are still free, each with a
subtype of the parameter, and leave none free. -/
def acceptsKeywords (m : TypeModel) (s : Signature) :
    List Bool → List (String × TypeId) → Bool
  | filled, [] => filled.all id
  | filled, (name, arg) :: rest =>
    match s.paramIndex? name with
    | none => false
    | some i =>
      match filled[i]?, s.params[i]? with
      | some false, some p => m.isSubtype arg p && m.acceptsKeywords s (filled.set i true) rest
      | _, _ => false

/-- Whether an overload accepts arguments of the given types, the last ones by keyword. -/
def accepts (m : TypeModel) (s : Signature) (args : List TypeId) (keywords : List String) : Bool :=
  let positional := args.length - keywords.length
  s.arity == args.length
    && ((args.take positional).zip s.params).all (fun (a, p) => m.isSubtype a p)
    && m.acceptsKeywords s
      (List.replicate positional true ++ List.replicate (s.arity - positional) false)
      (keywords.zip (args.drop positional))

/-- The overload that accepts the arguments, if exactly one does among the overloads of the first
owner that has one. -/
def resolveOverload (m : TypeModel) (overloads : List Signature) (args : List TypeId)
    (keywords : List String) : Option Signature :=
  if args.length < keywords.length then none
  else
    match overloads.dropWhile fun s => !m.accepts s args keywords with
    | [] => none
    | s :: rest =>
      if (rest.takeWhile (·.owner == s.owner)).any (m.accepts · args keywords) then none
      else some s

end TypeModel

end Stackwise
