import Stackwise.Machine.Execute

/-!
# Running

The machine closes the loop: frames run, values are called, generators are resumed.

* `stepOnce`: one instruction, and the way of the exception that it may raise.
* `runSteps`: instructions until the frame is left, at most as many as the fuel says.
* `runFrame`: a whole run of a frame. Frames inside each other are limited.
* `callValue`, `resumeFrame`: the two ways back into the machine.
* `Machine.context`: the context in which these are used, with a bound on how deep they nest. More
  fuel never changes an answer that was reached.
-/

namespace Stackwise

/-- How a frame was left. -/
inductive Exit where
  | returns (v : Value)
  | yields (v : Value)

/-- The store with one more frame being run. -/
def Store.enter (s : Store) : Store := { s with depth := s.depth + 1 }

/-- The store with one frame less being run. -/
def Store.leave (s : Store) : Store := { s with depth := s.depth - 1 }

namespace Machine

/-! ## 1. Frames -/

/-- The number of frames that may be run inside each other. -/
def maxDepth : Nat := 500

/-- Runs an instruction and gives its fault as a value. -/
def attemptStep (step : Step) : FrameAction (Except Fault Flow) :=
  tryCatch (return .ok (← execute step)) fun e => return .error e

/-- Goes on at an offset. -/
def goTo (pc : Nat) : FrameAction (Option Exit) := do
  updateFrame fun f => { f with pc }
  return none

/-- Routes the fault of an instruction at an offset. A raise of an exception that was caught keeps
the traceback that it has. -/
def routeFault (step : Step) (pc : Nat) (fault : Fault) : FrameAction (Option Exit) := do
  let e ← catchable fault
  let name := (← frame).program.name
  match step.op with
  | .reraise _ => unwind e
  | _ =>
    record e { function := name, offset := pc, line := step.line }
    unwind e
  return none

/-- Carries out the instruction at the current offset; an exit if it leaves the frame. -/
def stepOnce : FrameAction (Option Exit) := do
  let pc := (← frame).pc
  match (← frame).program.step? pc with
  | none => broken .noInstruction
  | some step =>
    match ← attemptStep step with
    | .ok .next => goTo (pc + 1)
    | .ok (.jump target) => goTo target
    | .ok (.leave v) => return some (.returns v)
    | .ok (.yields v) => return some (.yields v)
    | .error e => routeFault step pc e

/-- Carries out instructions until the frame is left. -/
def runSteps (ctx : Context) : Nat → Activation → EStateM.Result Fault Activation Exit
  | 0, a => .error .outOfFuel a
  | fuel + 1, a =>
    match stepOnce ctx a with
    | .ok none a => runSteps ctx fuel a
    | .ok (some exit) a => .ok exit a
    | .error e a => .error e a

/-- Runs a frame; gives how it was left, and the frame as it was then. -/
def runFrame (f : Frame) : Action (Exit × Frame) := fun ctx s =>
  if maxDepth ≤ s.depth then
    raiseText TypeId.runtimeError "maximum recursion depth exceeded" ctx s
  else
    match runSteps ctx ctx.fuel { frame := f, store := s.enter } with
    | .ok exit a => .ok (exit, a.frame) a.store.leave
    | .error e a => .error e a.store.leave

/-! ## 2. Functions -/

/-- Compiles a function. -/
def compile (c : Compiler) (code : CodeObject) (signature : CallSignature) :
    Except CompileError Program := do
  let body ← c.analyze code signature
  c.emit body Program.emitter none

/-- The program of a function, compiled at the first call. -/
def programFor (code : CodeObject) (signature : CallSignature) : Action Program := do
  let c := (← read).compiler
  let kept ← look fun s => s.programs
  match kept.fetch (c.number code signature) code fun _ => compile c code signature with
  | .ok (found, programs) =>
    if found.fresh then modify fun s => { s with programs }
    return found.result
  | .error e => throw (.compile e)

/-- The cells of a new frame. A parameter that an inner function captures starts in its cell. -/
def ownCells (c : CodeObject) (locals : Array (Option Value)) : Action (List Nat) :=
  let params := c.varnames.take c.totalParams
  c.cellvars.mapM fun name =>
    let content : Option Value := (params.idxOf? name).bind fun slot => locals[slot]?.join
    make (Store.newCell content)

/-- The frame of a call. -/
def newFrame (program : Program) (f : Function) (locals : Array (Option Value)) :
    Action Frame := do
  let c := program.code
  if f.closure.length != c.freevars.length then
    throw (.broken program.name 0 (.closureSize c.freevars.length f.closure.length))
  let cells ← ownCells c locals
  return {
    program, locals
    cells := (cells ++ f.closure).toArray
    stack := []
    pc := 0
    state := 0
    handled := none
    resumption := none }

/-- Calls a function: runs its body, or makes a generator of it. -/
def callFunction (f : Function) (args : List Value) (kwargs : List Keyword) : Action Value := do
  let program ← programFor f.code f.signature
  let locals ← bind f args kwargs
  let frame ← newFrame program f locals
  if program.isGenerator then
    make (Store.newGenerator {
      name := program.name
      nameId := program.code.qualnameId
      progress := .created frame
      lookahead := none
      running := false })
  else
    match ← runFrame frame with
    | (.returns v, _) => return v
    | (.yields _, _) => throw (.broken f.qualname 0 .plainYield)

/-! ## 3. Calls -/

/-- Calls a value. -/
def callValue (callee : Value) (args : List Value) (kwargs : List Keyword) : Action Value := do
  match callee with
  | .function r => callFunction (← look fun s => s.functions.get r) args kwargs
  | .classObject t => construct t args kwargs
  | .builtin _ name => callBuiltin name args kwargs
  | .method _ receiver _ name =>
    match receiver with
    | .native ref _ =>
      noKeywords name kwargs
      callNativeMethod ref name args
    | receiver => callTypeMethod receiver name args kwargs
  | .native ref _ =>
    noKeywords (← typeName callee) kwargs
    callNative ref args
  | other => typeError ("'" ++ (← typeName other) ++ "' object is not callable")

/-! ## 4. Generators -/

/-- Runs the frame of a generator to its next suspension. A generator that returns ends its
iteration with the value; one that lets `StopIteration` escape has failed. -/
def runGenerator (g : Nat) (f : Frame) : Action Value := do
  match ← attempt (runFrame f) with
  | .ok (.yields v, f) =>
    match f.suspend? with
    | .ok saved =>
      updateGenerator g fun x => { x with progress := .suspended saved }
      return v
    | .error e => throw e
  | .ok (.returns v, _) => throw (.stopIteration (some v))
  | .error e =>
    if isStopIteration (← model) e then
      raiseText TypeId.runtimeError "generator raised StopIteration"
    else throw e

/-- Resumes a generator. It counts as exhausted until it is suspended again. -/
def resumeFrame (g : Nat) (r : Resumption) : Action Value := do
  let progress := (← generator g).progress
  exhaust g
  match progress, r with
  | .created f, .send _ => runGenerator g f
  | .suspended saved, r => runGenerator g (saved.resume r)
  | .exhausted, .send _ => throw (.stopIteration none)
  | _, .throw e => throw (.raised e)

/-! ## 5. The machine -/

/-- The context in which actions run: calls and resumptions may nest as deep as the fuel says. -/
def context (compiler : Compiler) (digest : Digest) : Nat → Context
  | 0 => {
      compiler, digest
      fuel := 0
      call := fun _ _ _ => throw .outOfFuel
      resume := fun _ _ => throw .outOfFuel }
  | fuel + 1 => {
      compiler, digest
      fuel
      call := fun callee args kwargs => callValue callee args kwargs (context compiler digest fuel)
      resume := fun g r => resumeFrame g r (context compiler digest fuel) }

/-- A function over a code object, and nothing else. -/
def functionOf (code : CodeObject) : Action Value :=
  make (Store.newFunction (Function.ofCode code code.qualnameId default))

/-- Runs the body of a module. -/
def runModule (code : CodeObject) : Action Value := do call (← functionOf code) []

end Machine

end Stackwise
