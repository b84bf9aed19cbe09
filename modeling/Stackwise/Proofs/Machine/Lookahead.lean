import Stackwise.Proofs.Bytecode.Streams
import Stackwise.Proofs.Machine.RunningGenerators

/-!
# Looking ahead

Asking a generator whether it has a next value runs it ahead and keeps what came of it. A consumer
sees no difference, apart from the value that it sends: that one comes too late.

* `hasNext_kept`, `hasNext_fresh`, `send_kept`, `send_fresh`: the two operations, by whether an
  outcome is kept.
* `hasNext_answers`: the question is answered by what the next resumption gives, which is the same
  after it as before.
* `hasNext_transparent`: so it may be asked any number of times.
-/

namespace Stackwise.Machine

variable {ctx : Context} {g : Nat} {s : Store} {x : Generator}

/-! ## 1. The operations -/

/-- The generator with an outcome kept for its next resumption. -/
def keep (lookahead : Option (Except Fault Value)) (x : Generator) : Generator :=
  { x with lookahead }

theorem generator_bind {α : Type} (hrow : s.generators.rows[g]? = some x)
    (k : Generator → Action α) : (generator g >>= k) ctx s = k x ctx s := by
  show k (s.generators.get g) ctx s = k x ctx s
  rw [Table.get_of_row hrow]

theorem resume_run (g : Nat) (r : Resumption) : resume g r ctx s = ctx.resume g r s := rfl

/-- A generator that does not run is marked, and the mark is taken away. -/
theorem guarded_idle {α : Type} (hrow : s.generators.rows[g]? = some x) (hidle : x.running = false)
    (act : Action α) : guarded g act ctx s = match act ctx (s.onGenerator g (mark true)) with
      | .ok a s => .ok a (s.onGenerator g (mark false))
      | .error e s => .error e (s.onGenerator g (mark false)) := by
  rw [guarded_run, Table.get_of_row hrow, hidle]
  rfl

theorem hasNext_kept (hrow : s.generators.rows[g]? = some x) (hidle : x.running = false)
    {outcome : Except Fault Value} (hkept : x.lookahead = some outcome) :
    hasNext g ctx s = .ok (isOutcome outcome) s := by
  have hback : (s.onGenerator g (mark true)).onGenerator g (mark false) = s := by
    rw [Store.onGenerator_onGenerator]
    refine Store.onGenerator_same hrow ?_
    show { x with running := false } = x
    rw [← hidle]
  have hmarked : (mark true x).lookahead = some outcome := hkept
  rw [hasNext, guarded_idle hrow hidle, generator_bind (Store.onGenerator_row hrow _), hmarked]
  show EStateM.Result.ok _ ((s.onGenerator g (mark true)).onGenerator g (mark false)) = _
  rw [hback]

theorem hasNext_fresh (hrow : s.generators.rows[g]? = some x) (hidle : x.running = false)
    (hfresh : x.lookahead = none) :
    hasNext g ctx s = match ctx.resume g (.send .none) (s.onGenerator g (mark true)) with
      | .ok v s => .ok true (s.onGenerator g (mark false ∘ keep (some (.ok v))))
      | .error e s => .ok (isOutcome (.error e))
          (s.onGenerator g (mark false ∘ keep (some (.error e)))) := by
  have hmarked : (mark true x).lookahead = none := hfresh
  rw [hasNext, guarded_idle hrow hidle, generator_bind (Store.onGenerator_row hrow _), hmarked]
  dsimp only
  rw [run_bind, attempt_run, resume_run]
  cases ctx.resume g (.send .none) (s.onGenerator g (mark true)) with
  | ok v s' =>
    show EStateM.Result.ok true ((s'.onGenerator g (keep (some (.ok v)))).onGenerator g _) = _
    rw [Store.onGenerator_onGenerator]
  | error e s' =>
    show EStateM.Result.ok _ ((s'.onGenerator g (keep (some (.error e)))).onGenerator g _) = _
    rw [Store.onGenerator_onGenerator]

theorem send_kept (hrow : s.generators.rows[g]? = some x) (hidle : x.running = false)
    {outcome : Except Fault Value} (hkept : x.lookahead = some outcome) (v : Value) :
    send g v ctx s = match outcome with
      | .ok w => .ok w (s.onGenerator g (keep none))
      | .error e => .error e (s.onGenerator g (keep none)) := by
  have hback : ((s.onGenerator g (mark true)).onGenerator g (keep none)).onGenerator g (mark false)
      = s.onGenerator g (keep none) := by
    rw [Store.onGenerator_onGenerator, Store.onGenerator_onGenerator]
    refine Store.onGenerator_congr hrow ?_
    show { x with lookahead := none, running := false } = { x with lookahead := none }
    rw [← hidle]
  have hmarked : (mark true x).lookahead = some outcome := hkept
  rw [send, guarded_idle hrow hidle, generator_bind (Store.onGenerator_row hrow _), hmarked, ← hback]
  cases outcome <;> rfl

theorem send_fresh (hrow : s.generators.rows[g]? = some x) (hidle : x.running = false)
    (hfresh : x.lookahead = none) (v : Value) :
    send g v ctx s = match ctx.resume g (.send v) (s.onGenerator g (mark true)) with
      | .ok w s => .ok w (s.onGenerator g (mark false))
      | .error e s => .error e (s.onGenerator g (mark false)) := by
  have hmarked : (mark true x).lookahead = none := hfresh
  rw [send, guarded_idle hrow hidle, generator_bind (Store.onGenerator_row hrow _), hmarked]
  dsimp only
  rw [resume_run]
  cases ctx.resume g (.send v) (s.onGenerator g (mark true)) <;> rfl

/-! ## 2. The question -/

/-- What the answer `b` to the question for a next value says, and the store that it leaves. -/
structure Asked (ctx : Context) (g : Nat) (s s' : Store) (b : Bool) : Prop where
  kept : ∃ x outcome, s'.generators.rows[g]? = some x ∧ x.running = false
    ∧ x.lookahead = some outcome ∧ isOutcome outcome = b
  send : ∀ v, send g v ctx s' = nextOf g ctx s
  ends : b = false ↔ ∃ r t, nextOf g ctx s = .error (.stopIteration r) t

theorem isOutcome_error {e : Fault} :
    isOutcome (.error e) = false ↔ ∃ r, e = .stopIteration r := by
  cases e <;> simp [isOutcome]

/-- **A generator that is asked for a next value** gives the same at the next resumption as if it had
not been asked. -/
theorem hasNext_answers (c : Compiler) (d : Digest) (n : Nat)
    (hrow : s.generators.rows[g]? = some x) (hidle : x.running = false) :
    ∃ b s', hasNext g (context c d n) s = .ok b s' ∧ Asked (context c d n) g s s' b := by
  cases hlook : x.lookahead with
  | some outcome =>
    refine ⟨_, s, hasNext_kept hrow hidle hlook, ⟨x, outcome, hrow, hidle, hlook, rfl⟩,
      fun v => ?_, ?_⟩
    · rw [nextOf, send_kept hrow hidle hlook, send_kept hrow hidle hlook]
    · rw [nextOf, send_kept hrow hidle hlook]
      cases outcome with
      | ok v => simp [isOutcome]
      | error e => simp [isOutcome_error]
  | none =>
    have hmarked := Store.onGenerator_row hrow (mark true)
    obtain ⟨progress, hrow'⟩ := context_resume_row c d n hmarked rfl (.send .none)
    -- the mark is gone, and the outcome is kept where there was none
    have hkeep : ∀ {s' : Store} {outcome : Except Fault Value},
        s'.generators.rows[g]? = some { mark true x with progress } →
        (s'.onGenerator g (mark false ∘ keep (some outcome))).onGenerator g (keep none)
          = s'.onGenerator g (mark false) := by
      intro s' outcome h
      rw [Store.onGenerator_onGenerator]
      refine Store.onGenerator_congr h ?_
      show { x with progress, lookahead := none, running := false } = _
      rw [← hlook]
      rfl
    rw [hasNext_fresh hrow hidle hlook]
    cases hres : (context c d n).resume g (.send .none) (s.onGenerator g (mark true)) with
    | ok v s' =>
      rw [hres, endState_ok] at hrow'
      have hasked := Store.onGenerator_row hrow' (mark false ∘ keep (some (.ok v)))
      refine ⟨true, _, rfl, ⟨_, _, hasked, rfl, rfl, rfl⟩, fun w => ?_, ?_⟩
      · rw [send_kept hasked rfl rfl, nextOf, send_fresh hrow hidle hlook, hres]
        exact congrArg _ (hkeep hrow')
      · rw [nextOf, send_fresh hrow hidle hlook, hres]
        simp
    | error e s' =>
      rw [hres, endState_error] at hrow'
      have hasked := Store.onGenerator_row hrow' (mark false ∘ keep (some (.error e)))
      refine ⟨_, _, rfl, ⟨_, _, hasked, rfl, rfl, rfl⟩, fun w => ?_, ?_⟩
      · rw [send_kept hasked rfl rfl, nextOf, send_fresh hrow hidle hlook, hres]
        exact congrArg _ (hkeep hrow')
      · rw [nextOf, send_fresh hrow hidle hlook, hres]
        simp [isOutcome_error]

/-- Asked again, it gives the same answer and does nothing. -/
theorem Asked.again {s' : Store} {b : Bool} (h : Asked ctx g s s' b) (k : Nat) :
    (List.replicate k g).mapM hasNext ctx s' = .ok (List.replicate k b) s' := by
  obtain ⟨x, outcome, hrow, hidle, hkept, hb⟩ := h.kept
  induction k with
  | zero => rfl
  | succ k ih =>
    rw [List.replicate_succ, List.mapM_cons, run_bind, hasNext_kept hrow hidle hkept]
    dsimp only
    rw [run_bind, ih, hb]
    rfl

/-- The store in which a generator over a program is the only object. -/
def storeWith (p : Program) : Store where
  generators := ⟨#[{
    name := p.name
    nameId := default
    progress := .created {
      program := p
      locals := Array.replicate p.code.localCount none
      cells := #[]
      stack := []
      pc := 0
      state := 0
      handled := none
      resumption := none }
    lookahead := none
    running := false }]⟩

/-- A generator that yields 1 and returns 2. -/
def yieldOne : CodeObject :=
  { CodeObject.blank 0 "g" "g.py" with
    code := [129, 0, 100, 0, 86, 0, 1, 0, 100, 1, 83, 0]
    constants := [.int 1, .int 2]
    flags := ⟨0x63⟩ }

end Stackwise.Machine
