import Stackwise.Types.Model

/-!
# Slots

What the analysis knows of one value: an upper bound of its type, or that it is one particular
class object, or a method found on a receiver of a known type.

* `join` forgets until both slots agree: equal slots stay, all others become the nearest common
  supertype of their run-time types.
* `isWithin` is the order that the join defines.
-/

namespace Stackwise

/-- What is known of one value. -/
inductive Slot where
  /-- A value of the type or of a subtype. -/
  | value (type : TypeId)
  /-- The class object of the type. -/
  | classObject (type : TypeId)
  /-- A method of a receiver, or a builtin function when the receiver is the pseudo type. -/
  | method (receiver : TypeId) (name : String)
  deriving DecidableEq, Repr

namespace Slot

/-- Nothing is known. -/
def object : Slot := .value TypeId.object

instance : Inhabited Slot := ⟨object⟩

/-- The type that the value has at run time. -/
def runtimeType : Slot → TypeId
  | .value t => t
  | .classObject _ => TypeId.type
  | .method _ _ => TypeId.method

/-- Whether nothing is known. -/
def isObject (s : Slot) : Bool := s == object

/-- What two slots have in common. -/
def join (m : TypeModel) (a b : Slot) : Slot :=
  if a = b then a else .value (m.commonSupertype a.runtimeType b.runtimeType)

/-- Whether `a` says at least as much as `b`. -/
def isWithin (m : TypeModel) (a b : Slot) : Bool := join m a b == b

/-- What two variables have in common; one that may be unbound stays so. -/
def joinVar (m : TypeModel) : Option Slot → Option Slot → Option Slot
  | some a, some b => some (join m a b)
  | _, _ => none

/-- The text of a slot with the names of a model. -/
def describe (m : TypeModel) : Slot → String
  | .value t => m.name t
  | .classObject t => "type[" ++ m.name t ++ "]"
  | .method r n => m.name r ++ "." ++ n

/-- The text of a slot with type numbers. -/
def text : Slot → String
  | .value t => t.label
  | .classObject t => "type[" ++ t.label ++ "]"
  | .method r n => r.label ++ "." ++ n

end Slot

end Stackwise
