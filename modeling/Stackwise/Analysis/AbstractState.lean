import Stackwise.Analysis.Slot
import Stackwise.Body.Error
import Stackwise.Body.Op

/-!
# Abstract states

What the analysis knows before an instruction: the slots on the operand stack, the variables, the
open blocks, and the keyword names that the last instruction loaded.

* **Stack and blocks** are kept with the top and the innermost block first.
* **Exceptions.** `unwind?` says where an exception goes; `exceptionState?` is the state that the
  handler starts in: the stack cut to the level of the block, then six slots for the exception that
  was being handled and the one that was raised.
* **Joins.** `join` meets two paths slot by slot. Paths must agree in depth, in the number of
  variables and in their open blocks. `joinFrom` joins into a state and says whether that changed it.
-/

namespace Stackwise

/-! ## 1. Blocks -/

/-- An open block. -/
inductive Block where
  /-- A protected region: an exception cuts the stack to `level` and goes to `handler`. -/
  | protect (handler level : Nat) (kind : BlockKind)
  /-- A running handler; what was handled before lies on the stack from `level` on. -/
  | handling (level : Nat)
  deriving DecidableEq, Repr

namespace Block

/-- The stack level of a block. -/
def level : Block → Nat
  | .protect _ l _ => l
  | .handling l => l

/-- The text of a block. -/
def text : Block → String
  | .protect h l k =>
    "Finally \x7b handler: " ++ toString h ++ ", level: " ++ toString l ++ ", kind: " ++ k.text
      ++ " \x7d"
  | .handling l => "ExceptHandler \x7b level: " ++ toString l ++ " \x7d"

end Block

/-- Where an exception goes. -/
structure Unwind where
  /-- Offset of the handler. -/
  handler : Nat
  /-- The level to which the stack is cut. -/
  level : Nat
  /-- The kind of the block that catches. -/
  kind : BlockKind
  /-- Level of the outermost handler that is left on the way. -/
  restoreAt : Option Nat
  deriving DecidableEq, Repr

/-! ## 2. States -/

/-- What is known before an instruction. -/
structure AbstractState where
  /-- The operand stack, top first. -/
  stack : List Slot
  /-- The local variables; `none` for one that may be unbound. -/
  locals : List (Option Slot)
  /-- The closure variables. -/
  cells : List (Option Slot)
  /-- The open blocks, innermost first. -/
  blocks : List Block
  /-- Whether no execution comes here. -/
  dead : Bool
  /-- The keyword names that the instruction before loaded. -/
  keywords : Option (List String)
  deriving DecidableEq, Repr

/-- The six slots on top of the stack of a starting handler: traceback, value and type of the
exception that was handled before, then of the one that is handled now. -/
def exceptionSlots : List Slot :=
  let triple := [Slot.value TypeId.type, Slot.value TypeId.baseException, Slot.value TypeId.traceback]
  triple ++ triple

namespace AbstractState

/-- The state of an offset that no execution reaches. -/
def unreached (locals cells : Nat) : AbstractState where
  stack := []
  locals := List.replicate locals none
  cells := List.replicate cells none
  blocks := []
  dead := true
  keywords := none

/-- The state at the entry of a function. -/
def entry (locals : List (Option Slot)) (cells : Nat) : AbstractState where
  stack := []
  locals := locals
  cells := List.replicate cells none
  blocks := []
  dead := false
  keywords := none

instance : Inhabited AbstractState := ⟨unreached 0 0⟩

/-- Number of slots on the stack. -/
def depth (s : AbstractState) : Nat := s.stack.length

/-! ## 3. The stack -/

/-- Puts a slot on the stack. -/
def push (s : AbstractState) (v : Slot) : AbstractState := { s with stack := v :: s.stack }

/-- Puts the same slot on the stack `n` times. -/
def pushMany (s : AbstractState) (n : Nat) (v : Slot) : AbstractState :=
  { s with stack := List.replicate n v ++ s.stack }

/-- Takes the top slot. -/
def pop (s : AbstractState) (offset : Nat) : Except BodyError (Slot × AbstractState) :=
  match s.stack with
  | v :: rest => .ok (v, { s with stack := rest })
  | [] => .error (.stackUnderflow offset)

/-- Takes the top `n` slots; the one that lay lowest comes first. -/
def popMany (s : AbstractState) (n offset : Nat) :
    Except BodyError (List Slot × AbstractState) :=
  if n ≤ s.depth then .ok ((s.stack.take n).reverse, { s with stack := s.stack.drop n })
  else .error (.stackUnderflow offset)

/-- Removes the top `n` slots. -/
def dropMany (s : AbstractState) (n offset : Nat) : Except BodyError AbstractState :=
  (s.popMany n offset).map (·.2)

/-- The slot `n` below the top. -/
def peek (s : AbstractState) (n offset : Nat) : Except BodyError Slot :=
  match s.stack[n]? with
  | some v => .ok v
  | none => .error (.stackUnderflow offset)

/-- Moves the top slot down so that it becomes the `n`-th from the top. -/
def rotate (s : AbstractState) (n offset : Nat) : Except BodyError AbstractState :=
  if n = 0 ∨ s.depth < n then .error (.stackUnderflow offset)
  else
    match s.stack with
    | [] => .error (.stackUnderflow offset)
    | v :: rest => .ok { s with stack := rest.take (n - 1) ++ v :: rest.drop (n - 1) }

/-- Cuts the stack to its lowest `level` slots. -/
def truncate (s : AbstractState) (level offset : Nat) : Except BodyError AbstractState :=
  if level ≤ s.depth then .ok { s with stack := s.stack.drop (s.depth - level) }
  else .error (.stackUnderflow offset)

/-! ## 4. Variables -/

/-- The slot of variable `i`. -/
def variable_ (vars : List (Option Slot)) (i offset : Nat) : Except BodyError (Option Slot) :=
  match vars[i]? with
  | some v => .ok v
  | none => .error (.localsMismatch offset)

/-- The variables with variable `i` changed. -/
def setVariable (vars : List (Option Slot)) (i offset : Nat) (v : Option Slot) :
    Except BodyError (List (Option Slot)) :=
  if i < vars.length then .ok (vars.set i v) else .error (.localsMismatch offset)

/-! ## 5. Exceptions -/

/-- Where an exception goes from inside the given blocks; `restoreAt` is the level of the outermost
handler passed so far. -/
def unwindFrom (restoreAt : Option Nat) : List Block → Option Unwind
  | [] => none
  | .handling l :: rest => unwindFrom (some l) rest
  | .protect handler level kind :: _ => some { handler, level, kind, restoreAt }

/-- Where an exception raised in this state goes, if it stays in the function. -/
def unwind? (s : AbstractState) : Option Unwind := unwindFrom none s.blocks

/-- The blocks around the innermost protected region. -/
def outerBlocks : List Block → List Block
  | [] => []
  | .handling _ :: rest => outerBlocks rest
  | .protect _ _ _ :: rest => rest

/-- The state at the start of a handler whose block had the given level. -/
def enterHandler (s : AbstractState) (level : Nat) : AbstractState :=
  { s with
    blocks := .handling level :: s.blocks
    stack := exceptionSlots ++ s.stack
    keywords := none }

/-- The handler of an exception raised in this state, and the state that it starts in. -/
def exceptionState? (s : AbstractState) (offset : Nat) :
    Except BodyError (Option (Nat × AbstractState)) :=
  match s.unwind? with
  | none => .ok none
  | some u => do
    let cut ← { s with blocks := outerBlocks s.blocks }.truncate u.level offset
    return some (u.handler, cut.enterHandler u.level)

/-! ## 6. Joins -/

/-- What two states at the same offset have in common. -/
def join (m : TypeModel) (offset : Nat) (a b : AbstractState) : Except BodyError AbstractState :=
  if a.dead then .ok b
  else if b.dead then .ok a
  else if a.depth ≠ b.depth then .error (.depthMismatch offset a.depth b.depth)
  else if a.locals.length ≠ b.locals.length ∨ a.cells.length ≠ b.cells.length then
    .error (.localsMismatch offset)
  else if a.blocks ≠ b.blocks then .error (.blockMismatch offset)
  else .ok {
    stack := List.zipWith (Slot.join m) a.stack b.stack
    locals := List.zipWith (Slot.joinVar m) a.locals b.locals
    cells := List.zipWith (Slot.joinVar m) a.cells b.cells
    blocks := a.blocks
    dead := false
    keywords := if a.keywords = b.keywords then a.keywords else none }

/-- Joins `b` into `a`: whether that changed `a`, and what `a` is then. -/
def joinFrom (m : TypeModel) (offset : Nat) (a b : AbstractState) :
    Except BodyError (Bool × AbstractState) := do
  let joined ← join m offset a b
  return (joined != a, joined)

/-- Whether `a` says at least as much as `b`. -/
def isWithin (m : TypeModel) (a b : AbstractState) : Bool :=
  match join m 0 a b with
  | .ok j => j == b
  | .error _ => false

/-! ## 7. Text -/

/-- The stack with the names of a model, lowest slot first. -/
def describeStack (m : TypeModel) (s : AbstractState) : String :=
  "[" ++ ", ".intercalate (s.stack.reverse.map (Slot.describe m)) ++ "]"

/-- The text of a variable. -/
def variableText : Option Slot → String
  | some v => "Some(" ++ v.text ++ ")"
  | none => "None"

/-- The stack with type numbers, lowest slot first. -/
def stackText (s : AbstractState) : String :=
  "[" ++ ", ".intercalate (s.stack.reverse.map Slot.text) ++ "]"

/-- The text of a state with type numbers. -/
def text (s : AbstractState) : String :=
  if s.dead then "<dead>"
  else
    "StackMetadata \x7b stack: " ++ s.stackText
      ++ ", locals: [" ++ ", ".intercalate (s.locals.map variableText)
      ++ "], blocks: [" ++ ", ".intercalate (s.blocks.reverse.map Block.text) ++ "] \x7d"

end AbstractState

end Stackwise
