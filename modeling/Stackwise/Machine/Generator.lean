import Stackwise.Machine.Action

/-!
# Generators

The protocol of generators: `hasNext`, `next`, `send`, `throwInto` and `close`.

* A generator is not reentrant: while its frame runs, every entry is refused.
* `hasNext` runs the generator ahead and keeps the outcome, which the next resumption delivers.
* A generator that returned, or that an exception left, is exhausted for good.

How a frame is resumed is a matter of the machine: here it is one of the ways back into it.
-/

namespace Stackwise.Machine

/-- The generator with a number. -/
def generator (g : Nat) : Action Generator := look fun s => s.generators.get g

/-- Changes a generator. -/
def updateGenerator (g : Nat) (f : Generator → Generator) : Action Unit :=
  modify fun s => { s with generators := s.generators.update g f }

/-- Runs an action that has a generator to itself. -/
def guarded {α : Type} (g : Nat) (act : Action α) : Action α := do
  if (← generator g).running then throw .alreadyRunning
  updateGenerator g fun x => { x with running := true }
  let outcome ← attempt act
  updateGenerator g fun x => { x with running := false }
  match outcome with
  | .ok a => return a
  | .error e => throw e

/-- Resumes the frame of a generator. -/
def resume (g : Nat) (r : Resumption) : Action Value := fun ctx => ctx.resume g r

/-- Drops an outcome that was computed ahead. -/
def dropLookahead (g : Nat) : Action Unit :=
  updateGenerator g fun x => { x with lookahead := none }

/-- Makes a generator exhausted. -/
def exhaust (g : Nat) : Action Unit := updateGenerator g fun x => { x with progress := .exhausted }

/-- Whether an outcome is a value or an exception, and not the end. -/
def isOutcome : Except Fault Value → Bool
  | .error (.stopIteration _) => false
  | _ => true

/-- Whether the next resumption will deliver something other than the end. -/
def hasNext (g : Nat) : Action Bool :=
  guarded g do
    match (← generator g).lookahead with
    | some outcome => return isOutcome outcome
    | none =>
      let outcome ← attempt (resume g (.send .none))
      updateGenerator g fun x => { x with lookahead := some outcome }
      return isOutcome outcome

/-- Resumes a generator; the value is that of the pending `yield`. An outcome that was computed
ahead is delivered instead, and the value is dropped. -/
def send (g : Nat) (v : Value) : Action Value :=
  guarded g do
    match (← generator g).lookahead with
    | some outcome =>
      dropLookahead g
      match outcome with
      | .ok v => return v
      | .error e => throw e
    | none => resume g (.send v)

/-- Resumes a generator without a value. -/
def nextOf (g : Nat) : Action Value := send g .none

/-- Raises an exception at the pending `yield`. -/
def throwInto (g : Nat) (v : Value) : Action Value := do
  let e ← makeException v
  guarded g do
    dropLookahead g
    resume g (.throw e)

/-- Ends a suspended generator by raising `GeneratorExit` in it. -/
def close (g : Nat) : Action Unit :=
  guarded g do
    dropLookahead g
    match (← generator g).progress with
    | .suspended _ =>
      let exit ← newException TypeId.generatorExit []
      match ← attempt (resume g (.throw exit)) with
      | .ok _ =>
        exhaust g
        raiseText TypeId.runtimeError "generator ignored GeneratorExit"
      | .error (.stopIteration _) => return
      | .error e =>
        match e with
        | .raised x => if x.type == TypeId.generatorExit then return else throw e
        | _ => throw e
    | _ => exhaust g

/-- Whether a generator has finished; one that runs, or whose next outcome is known, has not. -/
def isExhausted (g : Generator) : Bool :=
  !g.running && g.lookahead.isNone
    && match g.progress with
      | .exhausted => true
      | _ => false

end Stackwise.Machine
