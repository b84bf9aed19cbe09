import Stackwise.Machine.Digest
import Stackwise.Machine.Number
import Stackwise.Machine.Ordering
import Stackwise.Machine.Rendering

/-!
# Actions

What an operation of the machine is: a function of the store that gives a value or a fault, and
keeps what it did to the store in both cases. Operations read a `Context`, which holds the compiler
and the two ways back into the machine: calling a value, and resuming the frame of a generator.
Keeping these abstract makes every operation an ordinary definition; the machine itself closes the
loop with a bound on the nesting.
-/

namespace Stackwise

/-! ## 1. Actions -/

/-- What changes the store and gives a value or a fault. -/
abbrev Effect := EStateM Fault Store

/-- What operations read. -/
structure Context where
  /-- The compiler. -/
  compiler : Compiler
  /-- Numbers for contents and places. -/
  digest : Digest
  /-- A bound on the number of rounds of a loop. -/
  fuel : Nat
  /-- Calls a value with arguments and keyword arguments. -/
  call : Value → List Value → List Keyword → Effect Value
  /-- Resumes the frame of a generator and gives what it yields. -/
  resume : Nat → Resumption → Effect Value

/-- An operation of the machine. -/
abbrev Action := ReaderT Context Effect

namespace Machine

/-- The types of the machine. -/
def model : Action TypeModel := return (← read).compiler.model

/-- Calls a value. -/
def call (callee : Value) (args : List Value) : Action Value := fun ctx => ctx.call callee args []

/-- Calls a value with keyword arguments. -/
def callWith (callee : Value) (args : List Value) (kwargs : List Keyword) : Action Value :=
  fun ctx => ctx.call callee args kwargs

/-- Makes an object. -/
def make {α : Type} (f : Store → α × Store) : Action α := modifyGet f

/-- Looks at the store. -/
def look {α : Type} (f : Store → α) : Action α := return f (← get)

/-- Runs an action and gives its fault as a value. -/
def attempt {α : Type} (act : Action α) : Action (Except Fault α) :=
  tryCatch (return .ok (← act)) fun e => return .error e

/-! ## 2. New values -/

/-- A new text. -/
def newStr (text : String) : Action Value := make (Store.newStr text)

/-- A new tuple. -/
def newTuple (items : List Value) : Action Value := make (Store.newTuple items)

/-- A new list. -/
def newList (items : List Value) : Action Value := make (Store.newList items.toArray)

/-- A new method of a receiver. -/
def newMethod (receiver : Value) (name : String) : Action Value :=
  make (Store.newMethod receiver name)

/-- A new exception. -/
def newException (t : TypeId) (args : List Value) : Action Raised := do
  make (Store.newException t ((← model).name t) args)

/-! ## 3. Raising -/

/-- Raises a new exception with the given arguments. -/
def raise {α : Type} (t : TypeId) (args : List Value) : Action α := do
  throw (.raised (← newException t args))

/-- Raises a new exception with a message. -/
def raiseText {α : Type} (t : TypeId) (message : String) : Action α := do
  raise t [← newStr message]

/-- Raises a `TypeError`. -/
def typeError {α : Type} (message : String) : Action α := raiseText TypeId.typeError message

/-- Raises a `ValueError`. -/
def valueError {α : Type} (message : String) : Action α := raiseText TypeId.valueError message

/-- Raises the exception of an attribute that is not there. -/
def attributeError {α : Type} (typeName name : String) : Action α :=
  raiseText TypeId.attributeError ("'" ++ typeName ++ "' object has no attribute '" ++ name ++ "'")

/-- The result of arithmetic, or the exception of its refusal. -/
def arith {α : Type} : Except ArithError α → Action α
  | .ok a => return a
  | .error e => raiseText e.type e.message

/-- A number as a value. -/
def number : Number → Value
  | .int n => .int n
  | .float x => .float x

/-- Ends because a bound was reached. -/
def outOfFuel {α : Type} : Action α := throw .outOfFuel

/-! ## 4. Types of values -/

/-- The name of the class of a value. -/
def typeName (v : Value) : Action String := return (← get).typeName (← model) v

/-- Whether a value is a host object with the given method. -/
def nativeHas (v : Value) (name : String) : Action Bool := look fun s => s.nativeHas v name

/-- Equality of values. -/
def equal (a b : Value) : Action Bool := look fun s => s.equal a b

/-- A value of a declared type; integers and truth values become floats where one is declared. -/
def coerce? (m : TypeModel) (v : Value) (declared : TypeId) : Option Value :=
  if m.isSubtype v.type declared then some v
  else if declared == TypeId.float then v.asInt?.bind fun _ => v.asDouble?.map .float
  else none

/-- A value of a declared type, or an exception. -/
def coerce (v : Value) (declared : TypeId) : Action Value := do
  let m ← model
  match coerce? m v declared with
  | some w => return w
  | none => typeError ("expected " ++ m.name declared ++ ", got " ++ (← typeName v))

/-- Raises unless a value can be a key. -/
def checkHashable (v : Value) : Action Unit := do
  unless v.isHashable do typeError ("unhashable type: '" ++ (← typeName v) ++ "'")

/-! ## 5. Faults as exceptions -/

/-- Whether a fault ends an iteration, as the outcome of a generator or as an exception. -/
def isStopIteration (m : TypeModel) : Fault → Bool
  | .stopIteration _ => true
  | .raised e => m.isSubtype e.type TypeId.stopIteration
  | _ => false

/-- The exception that a program sees; what it cannot catch stays a fault. -/
def catchable : Fault → Action Raised
  | .raised e => return e
  | .stopIteration v => newException TypeId.stopIteration v.toList
  | .alreadyRunning => do
    newException TypeId.valueError [← newStr "generator already executing"]
  | fatal => throw fatal

/-- The exception of `raise v`: an exception, or a class called without arguments. -/
def makeException (v : Value) : Action Raised := do
  match v with
  | .exception ref type => return { ref, type }
  | .classObject t =>
    if (← model).isException t then newException t [] else refuse
  | _ => refuse
where
  /-- The exception of something that cannot be raised. -/
  refuse : Action Raised := typeError "exceptions must derive from BaseException"

mutual

/-- Whether an exception of class `raised` is caught by a class or by one of a tuple; nothing if the
handler is something else. -/
def matches? (m : TypeModel) (raised : TypeId) : Value → Option Bool
  | .classObject t => if m.isException t then some (m.isSubtype raised t) else none
  | .tuple _ handlers => matchesAny? m raised handlers
  | _ => none

/-- Whether one of several handlers catches; later ones are looked at only if the first does not. -/
def matchesAny? (m : TypeModel) (raised : TypeId) : List Value → Option Bool
  | [] => some false
  | h :: hs =>
    match matches? m raised h with
    | some false => matchesAny? m raised hs
    | answer => answer

end

/-- Whether a handler catches an exception, which is given as an instance or as a class. -/
def exceptionMatches (raised handler : Value) : Action Bool := do
  let t := match raised with
    | .classObject t => t
    | v => v.type
  match matches? (← model) t handler with
  | some b => return b
  | none => typeError "catching classes that do not inherit from BaseException is not allowed"

/-! ## 6. Output and globals -/

/-- Adds text to the output. -/
def write (text : String) : Action Unit := modify fun s => { s with output := text :: s.output }

/-- Binds a global variable. -/
def setGlobal (name : String) (v : Value) : Action Unit :=
  modify fun s => { s with globals := (name, v) :: s.globals.filter (·.1 != name) }

/-- Raises the exception of a name that is not bound. -/
def nameError {α : Type} (name : String) : Action α :=
  raiseText TypeId.nameError ("name '" ++ name ++ "' is not defined")

/-- The value of a global name: a variable, else a builtin. A builtin function takes the identity
of the name by which it is found. -/
def loadGlobal (nameId : Ident) (name : String) : Action Value := do
  match (← get).globals.lookup name with
  | some v => return v
  | none =>
    match (← model).lookupGlobal name with
    | some (.classObject t) => return .classObject t
    | some .function => return .builtin nameId name
    | none => nameError name

/-- Removes a global variable. -/
def deleteGlobal (name : String) : Action Unit := do
  match (← get).globals.lookup name with
  | some _ => modify fun s => { s with globals := s.globals.filter (·.1 != name) }
  | none => nameError name

end Machine

end Stackwise
