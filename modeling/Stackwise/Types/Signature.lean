import Stackwise.Types.TypeId

/-!
# Method signatures

One overload of a method: the types of its parameters without the receiver, their names when the
overload may be called by keyword, the type it returns and the type that declares it.
-/

namespace Stackwise

/-- One overload of a method. -/
structure Signature where
  /-- The type whose method table declares the overload. -/
  owner : TypeId := TypeId.object
  /-- Parameter types in order, without the receiver. -/
  params : List TypeId
  /-- Parameter names, when arguments may be given by keyword. -/
  names : Option (List String) := none
  /-- The declared return type. -/
  returns : TypeId
  deriving DecidableEq, Inhabited, Repr

namespace Signature

/-- Number of parameters. -/
def arity (s : Signature) : Nat := s.params.length

/-- Position of the first parameter called `name`. -/
def paramIndex? (s : Signature) (name : String) : Option Nat :=
  s.names.bind fun ns => ns.findIdx? (· == name)

/-- The text of parameter `i` of type `t`: its name, if it has one, and its type. -/
def paramText (s : Signature) (i : Nat) (t : TypeId) : String :=
  match s.names.bind (·[i]?) with
  | some n => n ++ ": " ++ t.label
  | none => t.label

/-- The text of a signature: parameters, return type and owner. -/
def text (s : Signature) : String :=
  let params := s.params.zipIdx.map fun (t, i) => s.paramText i t
  "(" ++ ", ".intercalate params ++ ") -> " ++ s.returns.label ++ " [" ++ s.owner.label ++ "]"

end Signature

end Stackwise
