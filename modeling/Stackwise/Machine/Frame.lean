import Stackwise.Machine.Binding

/-!
# Frames

The operand stack and the variables of an activation, suspension and resumption, and the way of an
exception to its handler.

* `FrameAction`: what an instruction is: it changes its frame and the store, and keeps what it did
  to both if it ends in a fault.
* `Stack`: the stack as a list with the top first. Each operation is a function on lists, and
  nothing if the stack is too short.
* `Frame.suspend?`, `SavedFrame.resume`: only what is live outlives a suspension.
* `unwind`: cuts the stack for the handler of the current offset, and puts on it the exception that
  was being handled and the one that was raised, each as traceback, value and class.
-/

namespace Stackwise

/-! ## 1. Stacks -/

namespace Stack

variable {α : Type}

/-- Takes the top `n` values; the one that lay lowest comes first. -/
def popMany? (stack : List α) (n : Nat) : Option (List α × List α) :=
  if n ≤ stack.length then some ((stack.take n).reverse, stack.drop n) else none

/-- Moves the top value down so that it becomes the `n`-th from the top. -/
def rotate? (n : Nat) : List α → Option (List α)
  | [] => if n < 2 then some [] else none
  | v :: rest =>
    if n < 2 then some (v :: rest)
    else if rest.length < n - 1 then none
    else some (rest.take (n - 1) ++ v :: rest.drop (n - 1))

/-- The value at a height above the bottom. -/
def fromBottom? (stack : List α) (height : Nat) : Option α :=
  if height < stack.length then stack[stack.length - 1 - height]? else none

/-- The lowest `level` values. -/
def cut (stack : List α) (level : Nat) : List α := stack.drop (stack.length - level)

end Stack

/-! ## 2. Suspension -/

namespace Frame

/-- The fault of a rule that the program of a frame broke. -/
def broken (f : Frame) (cause : Broken) : Fault := .broken f.program.name f.pc cause

/-- The live locals of the current state, if the stack is as the layout says. -/
def layout? (f : Frame) : Except Broken (List Nat) :=
  match f.program.generator with
  | none => .error .notGenerator
  | some g =>
    match g.state? f.state with
    | none => .error (.unknownState f.state)
    | some s =>
      if s.saved.length == f.stack.length then .ok s.live
      else .error (.suspendedStack f.stack.length f.state s.saved.length)

/-- What outlives the suspension of a frame. -/
def suspend? (f : Frame) : Except Fault SavedFrame :=
  match f.layout? with
  | .error cause => .error (f.broken cause)
  | .ok live => .ok {
      program := f.program
      state := f.state
      locals := live.filterMap fun slot => (f.locals[slot]?.join).map fun v => (slot, v)
      stack := f.stack
      cells := f.cells
      handled := f.handled }

end Frame

/-- The frame of a suspended generator; it starts again at the dispatcher. -/
def SavedFrame.resume (s : SavedFrame) (r : Resumption) : Frame where
  program := s.program
  locals := s.locals.foldl (fun locals (slot, v) => locals.setIfInBounds slot (some v))
    (Array.replicate s.program.code.localCount none)
  cells := s.cells
  stack := s.stack
  pc := 0
  state := s.state
  handled := s.handled
  resumption := some r

/-! ## 3. Instructions as actions -/

/-- A frame that is being run, and the store. -/
structure Activation where
  /-- The frame. -/
  frame : Frame
  /-- The store. -/
  store : Store
  deriving Inhabited

/-- What changes a frame and the store. -/
abbrev FrameAction := ReaderT Context (EStateM Fault Activation)

namespace Machine

/-- An operation of the machine leaves the frame alone. -/
def inFrame {α : Type} (act : Action α) : FrameAction α := fun ctx a =>
  match act ctx a.store with
  | .ok v store => .ok v { a with store }
  | .error e store => .error e { a with store }

/-- The frame. -/
def frame : FrameAction Frame := return (← get).frame

/-- Changes the frame. -/
def updateFrame (f : Frame → Frame) : FrameAction Unit :=
  modify fun a => { a with frame := f a.frame }

instance : MonadLift Action FrameAction := ⟨inFrame⟩

/-- Ends because the program broke a rule. -/
def broken {α : Type} (cause : Broken) : FrameAction α := do throw ((← frame).broken cause)

/-- Changes the stack, unless it is too short. -/
def onStack {α : Type} (f : List Value → Option (α × List Value)) : FrameAction α := do
  match f (← frame).stack with
  | some (a, stack) =>
    updateFrame fun fr => { fr with stack }
    return a
  | none => broken .stackUnderflow

/-- Puts a value on the stack. -/
def push (v : Value) : FrameAction Unit := updateFrame fun f => { f with stack := v :: f.stack }

/-- Puts values on the stack; the first comes to lie on top. -/
def pushAll (vs : List Value) : FrameAction Unit :=
  updateFrame fun f => { f with stack := vs ++ f.stack }

/-- Takes the top value. -/
def pop : FrameAction Value :=
  onStack fun
    | v :: rest => some (v, rest)
    | [] => none

/-- Takes the top `n` values; the one that lay lowest comes first. -/
def popMany (n : Nat) : FrameAction (List Value) := onStack fun stack => Stack.popMany? stack n

/-- The value `n` below the top. -/
def peek (n : Nat) : FrameAction Value :=
  onStack fun stack => stack[n]?.map fun v => (v, stack)

/-- Moves the top value down. -/
def rotate (n : Nat) : FrameAction Unit :=
  onStack fun stack => (Stack.rotate? n stack).map fun stack => ((), stack)

/-- The collection that an update means, its operands already taken: the `depth`-th from the top. -/
def target (depth : Nat) : FrameAction Value := do
  match depth with
  | 0 => broken .outsideStack
  | n + 1 => peek n

/-! ## 4. Variables -/

/-- Raises the exception of a local variable that is not bound. -/
def unboundLocal {α : Type} (name : String) : Action α :=
  raiseText TypeId.unboundLocalError
    ("local variable '" ++ name ++ "' referenced before assignment")

/-- The value of a local variable. -/
def getLocal (slot : Nat) : FrameAction Value := do
  let f ← frame
  match f.locals[slot]? with
  | some (some v) => return v
  | some none => unboundLocal (f.program.code.varnames.getD slot "")
  | none => broken (.localOutOfRange slot)

/-- Binds or unbinds a local variable. -/
def setLocal (slot : Nat) (v : Option Value) : FrameAction Unit := do
  if slot < (← frame).locals.size then
    updateFrame fun f => { f with locals := f.locals.setIfInBounds slot v }
  else broken (.localOutOfRange slot)

/-- The cell of a closure variable. -/
def cellAt (slot : Nat) : FrameAction Nat := do
  match (← frame).cells[slot]? with
  | some r => return r
  | none => broken (.cellOutOfRange slot)

/-- Raises the exception of a closure variable that is not bound. -/
def unboundCell {α : Type} (c : CodeObject) (slot : Nat) : Action α :=
  let name := (c.closureName? slot).getD "?"
  if slot < c.cellvars.length then unboundLocal name
  else raiseText TypeId.nameError
    ("free variable '" ++ name ++ "' referenced before assignment in enclosing scope")

/-- The value of a closure variable. -/
def getCell (slot : Nat) : FrameAction Value := do
  let r ← cellAt slot
  match ← look fun s => s.cells.get r with
  | some v => return v
  | none => unboundCell (← frame).program.code slot

/-- Binds or unbinds the cell with a number. -/
def setCell (r : Nat) (v : Option Value) : Action Unit :=
  modify fun s => { s with cells := s.cells.put r v }

/-! ## 5. Exceptions -/

/-- The exception that a triple on the stack stands for: class, value and traceback, top first. -/
def handledOf : List Value → Option Raised
  | [_, .exception ref type, _] => some { ref, type }
  | _ => none

/-- The triple of an exception, top first; absent values stand for none. -/
def triple (e : Option Raised) : Action (List Value) := do
  match e with
  | none => return [.none, .none, .none]
  | some e =>
    let entries ← look fun s => (s.exceptions.get e.ref).traceback
    let traceback ← make (Store.newTraceback entries)
    return [.classObject e.type, e.value, traceback]

/-- Records that an exception passed through a frame. -/
def record (e : Raised) (entry : TraceEntry) : Action Unit :=
  modify fun s => { s with exceptions := s.exceptions.update e.ref fun x =>
    { x with traceback := x.traceback ++ [entry] } }

/-- The exception that the triple from `height` on stands for, if the stack holds it. -/
def restored? (stack : List Value) (height : Nat) : Option (Option Raised) :=
  if height + 3 ≤ stack.length then
    some (handledOf ((Stack.cut stack (height + 3)).take 3))
  else none

/-- Routes an exception to the handler of the current offset; without one it leaves the frame. -/
def unwind (e : Raised) : FrameAction Unit := do
  let f ← frame
  match Region.find? f.program.regions f.pc with
  | none => throw (.raised e)
  | some region =>
    let handled := ((region.restoreAt.bind (restored? f.stack)).getD f.handled)
    if f.stack.length < region.level then
      updateFrame fun f => { f with handled }
      broken (.handlerLevel f.stack.length region.level)
    else
      let before ← triple handled
      let now ← triple (some e)
      updateFrame fun f => { f with
        stack := now ++ before ++ Stack.cut f.stack region.level
        handled := some e
        pc := region.handler }

end Machine

end Stackwise
