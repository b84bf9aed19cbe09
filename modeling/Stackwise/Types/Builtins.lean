import Stackwise.Types.Model

/-!
# The builtin types

The hierarchy, the methods and the global names that every program can rely on, written as one
table of declarations:

* `Declaration` is one extension of a model, `TypeModel.call` asks a model for it, and
  `TypeModel.extend` applies a list of them;
* `Builtins.table` is the whole table, classes first and in the order of the fixed ids;
* `TypeModel.withBuiltins` is the model that the table builds from the empty one.
-/

namespace Stackwise

/-! ## 1. Declarations -/

/-- One extension of a type model. -/
inductive Declaration where
  /-- A new type. -/
  | type (name : String) (bases : List TypeId)
  /-- An overload of a method. -/
  | method (owner : TypeId) (name : String) (signature : Signature)
  /-- The type of an attribute. -/
  | attribute (owner : TypeId) (name : String) (type : TypeId)
  /-- A global name for a class. -/
  | globalClass (name : String) (type : TypeId)
  deriving Repr

namespace TypeModel

/-- Applies one declaration. -/
def declareOne (m : TypeModel) : Declaration → Except TypeModelError TypeModel
  | .type name bases => (m.register name bases).map (·.2)
  | .method owner name s => m.addMethod owner name s
  | .attribute owner name t => m.addAttribute owner name t
  | .globalClass name t => m.addGlobalClass name t

/-- Asks a model for a declaration: the answer, which for a new type is its id, and the model after
the call. A refused call leaves the model as it was. -/
def call (m : TypeModel) (d : Declaration) : Except TypeModelError (Option TypeId) × TypeModel :=
  match d with
  | .type name bases =>
    match m.register name bases with
    | .ok (id, m') => (.ok (some id), m')
    | .error e => (.error e, m)
  | d =>
    match m.declareOne d with
    | .ok m' => (.ok none, m')
    | .error e => (.error e, m)

/-- Applies declarations in order and stops at the first that fails. -/
def extend (m : TypeModel) : List Declaration → Except TypeModelError TypeModel
  | [] => .ok m
  | d :: ds =>
    match m.declareOne d with
    | .ok m' => m'.extend ds
    | .error e => .error e

end TypeModel

namespace Builtins

/-! ## 2. Classes and their global names -/

/-- The builtin classes after the universal type, in the order of their ids. -/
def classes : List (String × List TypeId) := [
  ("NoneType", []), ("int", []), ("bool", [.int]), ("float", []), ("str", []), ("bytes", []),
  ("tuple", []), ("list", []), ("dict", []), ("set", []), ("slice", []), ("range", []),
  ("type", []), ("function", []), ("method", []), ("code", []), ("cell", []), ("module", []),
  ("iterator", []), ("generator", [.iterator]), ("traceback", []), ("builtins", []),
  ("BaseException", []), ("Exception", [.baseException]), ("StopIteration", [.exception]),
  ("GeneratorExit", [.baseException]), ("ArithmeticError", [.exception]),
  ("ZeroDivisionError", [.arithmeticError]), ("LookupError", [.exception]),
  ("KeyError", [.lookupError]), ("IndexError", [.lookupError]), ("ValueError", [.exception]),
  ("TypeError", [.exception]), ("RuntimeError", [.exception]), ("NameError", [.exception]),
  ("UnboundLocalError", [.nameError]), ("AttributeError", [.exception]),
  ("AssertionError", [.exception]), ("NotImplementedError", [.runtimeError])]

/-- The classes other than exceptions that have a global name. -/
def globalTypes : List (String × TypeId) := [
  ("object", .object), ("int", .int), ("bool", .bool), ("float", .float), ("str", .str),
  ("bytes", .bytes), ("tuple", .tuple), ("list", .list), ("dict", .dict), ("set", .set),
  ("slice", .slice), ("range", .range), ("type", .type)]

/-- Every exception class has a global name: the classes from the root of exceptions on. -/
def globalExceptions : List (String × TypeId) :=
  ((classes.drop (TypeId.baseException.raw - 1)).zipIdx TypeId.baseException.raw).map
    fun (c, i) => (c.1, ⟨i⟩)

/-! ## 3. Methods -/

/-- An overload with positional parameters only. -/
def method (owner : TypeId) (name : String) (params : List TypeId) (returns : TypeId) :
    Declaration :=
  .method owner name { params, returns }

/-- An overload whose parameters have names. -/
def named (owner : TypeId) (name : String) (params : List TypeId) (names : List String)
    (returns : TypeId) : Declaration :=
  .method owner name { params, names := some names, returns }

/-- One overload with one parameter for each of the names. -/
def each (owner : TypeId) (names : List String) (param returns : TypeId) : List Declaration :=
  names.map fun n => method owner n [param] returns

/-- One overload without parameters for each of the names. -/
def plain (owner : TypeId) (names : List String) (returns : TypeId) : List Declaration :=
  names.map fun n => method owner n [] returns

/-- The arithmetic operators that integers and floats share. -/
def arithmetic : List String :=
  ["__add__", "__sub__", "__mul__", "__floordiv__", "__mod__", "__pow__"]

/-- The same operators with the operands exchanged. -/
def reflected : List String :=
  ["__radd__", "__rsub__", "__rmul__", "__rfloordiv__", "__rmod__", "__rpow__"]

/-- The bitwise operators. -/
def bitwise : List String := ["__and__", "__or__", "__xor__", "__lshift__", "__rshift__"]

/-- The order comparisons. -/
def ordering : List String := ["__lt__", "__le__", "__gt__", "__ge__"]

/-- What every object has. -/
def objectMembers : List Declaration := [
  method .object "__eq__" [.object] .bool,
  method .object "__ne__" [.object] .bool,
  method .object "__repr__" [] .str,
  method .object "__str__" [] .str,
  method .object "__hash__" [] .int,
  .attribute .object "__class__" .type,
  .attribute .type "__name__" .str,
  .attribute .slice "start" .object,
  .attribute .slice "stop" .object,
  .attribute .slice "step" .object]

/-- Integers, truth values and floats. -/
def numberMembers : List Declaration :=
  each .int arithmetic .int .int
  ++ each .int bitwise .int .int
  ++ each .int ordering .int .bool
  ++ [method .int "__truediv__" [.int] .float]
  ++ plain .int ["__neg__", "__pos__", "__invert__", "__abs__"] .int
  ++ [method .int "__bool__" [] .bool,
      method .int "__float__" [] .float,
      method .int "bit_length" [] .int]
  ++ each .bool ["__and__", "__or__", "__xor__"] .bool .bool
  ++ each .float arithmetic .float .float
  ++ each .float arithmetic .int .float
  ++ each .float reflected .int .float
  ++ each .float ordering .float .bool
  ++ each .float ordering .int .bool
  ++ [method .float "__truediv__" [.float] .float,
      method .float "__truediv__" [.int] .float,
      method .float "__rtruediv__" [.int] .float]
  ++ plain .float ["__neg__", "__pos__", "__abs__"] .float
  ++ [method .float "__bool__" [] .bool,
      method .float "is_integer" [] .bool]

/-- Text and byte strings. -/
def textMembers : List Declaration :=
  [method .str "__add__" [.str] .str,
   method .str "__mul__" [.int] .str,
   method .str "__mod__" [.object] .str,
   method .str "__getitem__" [.int] .str,
   method .str "__getitem__" [.slice] .str,
   method .str "__contains__" [.str] .bool]
  ++ each .str ordering .str .bool
  ++ [method .str "__len__" [] .int,
      method .str "__iter__" [] .iterator]
  ++ plain .str ["upper", "lower", "strip", "title"] .str
  ++ [method .str "join" [.object] .str,
      method .str "split" [] .list,
      named .str "split" [.str] ["sep"] .list,
      method .str "startswith" [.str] .bool,
      method .str "endswith" [.str] .bool,
      named .str "replace" [.str, .str] ["old", "new"] .str,
      method .str "find" [.str] .int,
      method .bytes "__len__" [] .int,
      method .bytes "__getitem__" [.int] .int,
      method .bytes "decode" [] .str]

/-- Tuples and lists. -/
def sequenceMembers : List Declaration := [
  method .tuple "__getitem__" [.int] .object,
  method .tuple "__getitem__" [.slice] .tuple,
  method .tuple "__add__" [.tuple] .tuple,
  method .tuple "__mul__" [.int] .tuple,
  method .tuple "__contains__" [.object] .bool,
  method .tuple "__len__" [] .int,
  method .tuple "__iter__" [] .iterator,
  method .tuple "count" [.object] .int,
  method .tuple "index" [.object] .int,
  method .list "__getitem__" [.int] .object,
  method .list "__getitem__" [.slice] .list,
  method .list "__setitem__" [.int, .object] .none,
  method .list "__delitem__" [.int] .none,
  method .list "__add__" [.list] .list,
  method .list "__iadd__" [.object] .list,
  method .list "__mul__" [.int] .list,
  method .list "__contains__" [.object] .bool,
  method .list "__len__" [] .int,
  method .list "__iter__" [] .iterator,
  method .list "append" [.object] .none,
  method .list "extend" [.object] .none,
  method .list "insert" [.int, .object] .none,
  method .list "pop" [] .object,
  method .list "pop" [.int] .object,
  method .list "index" [.object] .int,
  method .list "copy" [] .list,
  method .list "reverse" [] .none,
  method .list "sort" [] .none]

/-- Mappings, sets and ranges. -/
def collectionMembers : List Declaration :=
  [method .dict "__getitem__" [.object] .object,
   method .dict "__setitem__" [.object, .object] .none,
   method .dict "__delitem__" [.object] .none,
   method .dict "__contains__" [.object] .bool,
   method .dict "__len__" [] .int,
   method .dict "__iter__" [] .iterator,
   method .dict "get" [.object] .object,
   named .dict "get" [.object, .object] ["key", "default"] .object]
  ++ plain .dict ["keys", "values", "items"] .iterator
  ++ [method .dict "pop" [.object] .object,
      method .dict "copy" [] .dict,
      method .set "__contains__" [.object] .bool,
      method .set "__len__" [] .int,
      method .set "__iter__" [] .iterator]
  ++ each .set ["__or__", "__and__", "__sub__", "__xor__"] .set .set
  ++ [method .set "add" [.object] .none,
      method .set "discard" [.object] .none,
      method .range "__iter__" [] .iterator,
      method .range "__len__" [] .int,
      method .range "__contains__" [.object] .bool,
      method .range "__getitem__" [.int] .int]

/-- Iterators and generators. -/
def iterationMembers : List Declaration := [
  method .iterator "__iter__" [] .iterator,
  method .iterator "__next__" [] .object,
  method .generator "__iter__" [] .generator,
  method .generator "send" [.object] .object,
  method .generator "throw" [.object] .object,
  method .generator "close" [] .none]

/-- Exceptions. -/
def exceptionMembers : List Declaration := [
  .attribute .baseException "args" .tuple,
  .attribute .baseException "__traceback__" .traceback,
  method .baseException "with_traceback" [.traceback] .baseException,
  .attribute .stopIteration "value" .object]

/-- The builtin functions, declared as methods of the pseudo type `builtins`. -/
def functions : List Declaration := [
  method .builtins "len" [.object] .int,
  method .builtins "abs" [.int] .int,
  method .builtins "abs" [.float] .float,
  method .builtins "iter" [.object] .iterator,
  method .builtins "next" [.object] .object,
  method .builtins "next" [.object, .object] .object,
  method .builtins "repr" [.object] .str,
  method .builtins "hash" [.object] .int,
  method .builtins "id" [.object] .int,
  method .builtins "print" [.object] .none,
  method .builtins "isinstance" [.object, .object] .bool,
  method .builtins "callable" [.object] .bool,
  method .builtins "hasattr" [.object, .str] .bool,
  method .builtins "getattr" [.object, .str] .object,
  method .builtins "min" [.object, .object] .object,
  method .builtins "max" [.object, .object] .object,
  method .builtins "sum" [.object] .object,
  method .builtins "sorted" [.object] .list,
  method .builtins "ord" [.str] .int,
  method .builtins "chr" [.int] .str]

/-! ## 4. The table -/

/-- Every member of every builtin type. -/
def members : List Declaration :=
  objectMembers ++ numberMembers ++ textMembers ++ sequenceMembers ++ collectionMembers
  ++ iterationMembers ++ exceptionMembers ++ functions

/-- The whole table: the classes, their members and their global names. -/
def table : List Declaration :=
  classes.map (fun c => .type c.1 c.2) ++ members
  ++ (globalTypes ++ globalExceptions).map fun g => .globalClass g.1 g.2

end Builtins

/-- The model of the builtin types. The table only refers to types that stand before their use, so
no declaration of it fails. -/
def TypeModel.withBuiltins : TypeModel :=
  match TypeModel.empty.extend Builtins.table with
  | .ok m => m
  | .error _ => TypeModel.empty

end Stackwise
