/-!
# Type identifiers

A type is named by its position in the table of a type model. The first forty positions belong to
the builtin types, in a fixed order, so that the analysis and the machine can speak of `int` or
`StopIteration` without asking a model. Every later position is handed out in order of
registration.
-/

namespace Stackwise

/-- The name of a type: its position in the type table. -/
structure TypeId where
  /-- Position in the table. -/
  raw : Nat
  deriving DecidableEq, Hashable, Inhabited, Repr

namespace TypeId

/-! ## 1. The builtin types -/

/-- The universal type, above every other. -/
def object : TypeId := ⟨0⟩
/-- The type of the absent value. -/
def none : TypeId := ⟨1⟩
/-- Signed 64-bit integers. -/
def int : TypeId := ⟨2⟩
/-- Truth values, a subtype of the integers. -/
def bool : TypeId := ⟨3⟩
/-- Double precision numbers. -/
def float : TypeId := ⟨4⟩
/-- Text. -/
def str : TypeId := ⟨5⟩
/-- Byte strings. -/
def bytes : TypeId := ⟨6⟩
/-- Immutable sequences. -/
def tuple : TypeId := ⟨7⟩
/-- Mutable sequences. -/
def list : TypeId := ⟨8⟩
/-- Mappings in insertion order. -/
def dict : TypeId := ⟨9⟩
/-- Sets in insertion order. -/
def set : TypeId := ⟨10⟩
/-- Subscripts of the form `start:stop:step`. -/
def slice : TypeId := ⟨11⟩
/-- Arithmetic progressions. -/
def range : TypeId := ⟨12⟩
/-- The type of every class object. -/
def type : TypeId := ⟨13⟩
/-- Functions. -/
def function : TypeId := ⟨14⟩
/-- Methods bound to a receiver. -/
def method : TypeId := ⟨15⟩
/-- Code objects. -/
def code : TypeId := ⟨16⟩
/-- Closure cells. -/
def cell : TypeId := ⟨17⟩
/-- Imported modules. -/
def module : TypeId := ⟨18⟩
/-- Iterators. -/
def iterator : TypeId := ⟨19⟩
/-- Generators, which are iterators. -/
def generator : TypeId := ⟨20⟩
/-- Tracebacks. -/
def traceback : TypeId := ⟨21⟩
/-- A pseudo type whose methods are the builtin functions. -/
def builtins : TypeId := ⟨22⟩
/-- The root of the exception classes. -/
def baseException : TypeId := ⟨23⟩
/-- The root of the ordinary exceptions. -/
def exception : TypeId := ⟨24⟩
/-- Raised by an exhausted iterator. -/
def stopIteration : TypeId := ⟨25⟩
/-- Raised inside a generator that is being closed. -/
def generatorExit : TypeId := ⟨26⟩
/-- Failures of arithmetic. -/
def arithmeticError : TypeId := ⟨27⟩
/-- Division by zero. -/
def zeroDivisionError : TypeId := ⟨28⟩
/-- Failures of a lookup. -/
def lookupError : TypeId := ⟨29⟩
/-- A key that a mapping does not hold. -/
def keyError : TypeId := ⟨30⟩
/-- A position outside a sequence. -/
def indexError : TypeId := ⟨31⟩
/-- A value of the right type that cannot be used. -/
def valueError : TypeId := ⟨32⟩
/-- A value of the wrong type. -/
def typeError : TypeId := ⟨33⟩
/-- Failures of execution. -/
def runtimeError : TypeId := ⟨34⟩
/-- A name that is not bound. -/
def nameError : TypeId := ⟨35⟩
/-- A local name that is not bound yet. -/
def unboundLocalError : TypeId := ⟨36⟩
/-- An attribute that an object does not have. -/
def attributeError : TypeId := ⟨37⟩
/-- A failed assertion. -/
def assertionError : TypeId := ⟨38⟩
/-- A declared operation that has no implementation. -/
def notImplementedError : TypeId := ⟨39⟩

/-- The first position given to a type registered after the builtins. -/
def firstUser : Nat := 40

/-! ## 2. Queries -/

/-- Whether the id lies in the builtin range. -/
def isBuiltin (t : TypeId) : Bool := t.raw < firstUser

/-- The text of an id in signatures and slots: `#` and the position. -/
def label (t : TypeId) : String := "#" ++ toString t.raw

end TypeId

end Stackwise
