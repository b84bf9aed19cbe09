import Stackwise.Compile.Program
import Stackwise.Machine.Fault

/-!
# Objects

What the tables of the store hold: functions, exceptions, iterators, generators with their frames,
and the objects of the host.

* A `Frame` is one activation of a program. Its stack is kept with the top first.
* A `SavedFrame` is what outlives a suspension: the state, the live locals, the stack, the cells and
  the exception being handled.
* A `Native` answers by script: the host says beforehand what each of its methods will do.
-/

namespace Stackwise

/-! ## 1. Functions, exceptions, iterators -/

/-- A function: a code object with what its definition captured. -/
structure Function where
  /-- The body. -/
  code : CodeObject
  /-- The qualified name. -/
  qualname : String
  /-- The identity of the qualified name. -/
  qualnameId : Ident
  /-- Defaults of the last positional parameters. -/
  defaults : List Value
  /-- The identity of the defaults. -/
  defaultsId : Ident
  /-- Defaults of parameters that are given by name only. -/
  kwdefaults : List (Value × Value)
  /-- The captured cells. -/
  closure : List Nat
  /-- The types that the body is compiled for. -/
  signature : CallSignature
  deriving Inhabited

/-- An exception. -/
structure ExceptionObject where
  /-- The class. -/
  type : TypeId
  /-- The name of the class. -/
  typeName : String
  /-- The arguments. -/
  args : List Value
  /-- The identity of the arguments. -/
  argsId : Ident
  /-- The frames passed so far, innermost first. -/
  traceback : List TraceEntry
  deriving Inhabited

/-- What an iterator still has to yield. -/
inductive Cursor where
  /-- Items that are fixed. -/
  | items (rest : List Value)
  /-- A list from a position on, as it is when it is asked. -/
  | list (ref index : Nat)
  /-- The terms of a progression. -/
  | range (terms : Progression)
  deriving Inhabited

/-! ## 2. Frames and generators -/

/-- What a generator is resumed with. -/
inductive Resumption where
  /-- The value of the pending `yield`. -/
  | send (v : Value)
  /-- An exception raised at the pending `yield`. -/
  | throw (e : Raised)

/-- One activation of a program. -/
structure Frame where
  /-- The program. -/
  program : Program
  /-- The local variables; `none` for one that is not bound. -/
  locals : Array (Option Value)
  /-- The closure cells: own ones, then captured ones. -/
  cells : Array Nat
  /-- The operand stack, top first. -/
  stack : List Value
  /-- Offset of the next instruction. -/
  pc : Nat
  /-- The state of a generator; 0 before the first suspension. -/
  state : Nat
  /-- The exception that is being handled. -/
  handled : Option Raised
  /-- What a resumed generator was given. -/
  resumption : Option Resumption
  deriving Inhabited

/-- What outlives the suspension of a frame. -/
structure SavedFrame where
  /-- The program. -/
  program : Program
  /-- The state. -/
  state : Nat
  /-- The live locals. -/
  locals : List (Nat × Value)
  /-- The operand stack, top first. -/
  stack : List Value
  /-- The closure cells. -/
  cells : Array Nat
  /-- The exception that is being handled. -/
  handled : Option Raised

/-- How far a generator has come. -/
inductive Progress where
  /-- It has not been started. -/
  | created (frame : Frame)
  | suspended (saved : SavedFrame)
  | exhausted
  deriving Inhabited

/-- A generator. -/
structure Generator where
  /-- The qualified name of its function. -/
  name : String
  /-- The identity of the name. -/
  nameId : Ident
  /-- How far it has come. -/
  progress : Progress
  /-- The next outcome, if it was computed ahead. -/
  lookahead : Option (Except Fault Value)
  /-- Whether its frame is being run. -/
  running : Bool
  deriving Inhabited

/-! ## 3. Objects of the host -/

/-- What a call into the host will do. -/
inductive Script where
  | give (v : Value)
  | raise (t : TypeId) (args : List Value)
  /-- Reports the end of an iteration. -/
  | stop (v : Option Value)
  /-- Gives an argument back. -/
  | argument (i : Nat)
  /-- Gives the object itself. -/
  | self
  /-- Calls a value with the arguments. -/
  | call (v : Value)
  /-- One script after the other, call by call; the last one stays. The counter is in the store. -/
  | sequence (counter : Nat) (scripts : List Script)

instance : Inhabited Script := ⟨.give .none⟩

/-- An object of the host. -/
structure Native where
  /-- The name of its class. -/
  typeName : String
  /-- The nearest class of the type model. -/
  runtimeType : TypeId
  /-- How it is shown. -/
  repr : String
  /-- Its truth value. -/
  truthy : Bool
  /-- Its methods. -/
  methods : List (String × Script)
  /-- Its data attributes. -/
  attributes : List (String × Value)
  /-- The attributes that can be set. -/
  slots : List String
  /-- What a call of the object itself does. -/
  call : Option Script
  /-- The name under which calls are logged. -/
  label : String
  /-- Whether scripts can refer to the object itself. -/
  hasSelf : Bool
  deriving Inhabited

namespace Native

/-- An object with nothing but the name of its class. -/
def bare (typeName : String) : Native where
  typeName := typeName
  runtimeType := TypeId.object
  repr := "<" ++ typeName ++ " object>"
  truthy := true
  methods := []
  attributes := []
  slots := []
  call := none
  label := typeName
  hasSelf := true

/-- A function of the host. -/
def function (name : String) (script : Script) : Native where
  typeName := "builtin_function_or_method"
  runtimeType := TypeId.function
  repr := "<native function " ++ name ++ ">"
  truthy := true
  methods := []
  attributes := []
  slots := []
  call := some script
  label := name
  hasSelf := false

/-- Whether the object has a method. -/
def hasMethod (n : Native) (name : String) : Bool := (n.methods.lookup name).isSome

end Native

end Stackwise
