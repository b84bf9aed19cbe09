import Stackwise.Proofs.Machine.Lookahead

/-!
# Exhausted generators

What the calls on a generator leave of it, over any order of calls.

* `Generator.Rests`: between two calls a generator does not run, and if it keeps an exception or its
  end for the next call, it is exhausted already. `Generator.Finished`: it keeps nothing but its end.
* `hasNext_rests`, `send_rests`, `throwInto_rests`, `close_finishes`: a call leaves a generator at
  rest; one that delivers a fault, or closes it, leaves it finished.
* `hasNext_finished`, `send_finished`, `throwInto_finished`, `close_finished`: what a call on a
  finished generator gives. It stays finished.
* `History`: the calls on a generator in their order, each on the store that it finds.
* `exhausted_for_good`: the value of a return is delivered once at most, and after the end nothing
  but the end.
-/

namespace Stackwise

namespace Generator

/-- A generator between two calls: what it keeps for the next one is a value, or its frame has been
left. -/
structure Rests (x : Generator) : Prop where
  idle : x.running = false
  ahead : ∀ e, x.lookahead = some (.error e) → x.progress = .exhausted

/-- A generator that is exhausted and keeps nothing but its end. -/
structure Finished (x : Generator) : Prop where
  idle : x.running = false
  progress : x.progress = .exhausted
  ahead : x.lookahead = none ∨ x.lookahead = some (.error (.stopIteration none))

theorem Finished.rests {x : Generator} (h : x.Finished) : x.Rests := ⟨h.idle, fun _ _ => h.progress⟩

end Generator

namespace Machine

variable {c : Compiler} {d : Digest} {n g : Nat} {s : Store} {x : Generator}

/-! ## 1. Resumptions -/

/-- What is left of a generator that was resumed, by the outcome. -/
def Resumed (g : Nat) (x : Generator) : EStateM.Result Fault Store Value → Prop
  | .ok _ s => ∃ progress, s.generators.rows[g]? = some { x with progress }
  | .error _ s => s.generators.rows[g]? = some { x with progress := .exhausted }

theorem resumed (hrow : s.generators.rows[g]? = some x) (hrun : x.running = true) (r : Resumption) :
    Resumed g x ((context c d (n + 1)).resume g r s) := by
  have h := resumeFrame_row (context_orderly c d n) hrow hrun r
  show Resumed g x (resumeFrame g r (context c d n) s)
  cases hres : resumeFrame g r (context c d n) s with
  | ok v s' | error e s' =>
    rw [hres] at h
    exact h

/-- An exhausted generator ends again, or raises what it is given, and nothing else happens. -/
theorem resume_exhausted (hrow : s.generators.rows[g]? = some x) (hend : x.progress = .exhausted)
    (r : Resumption) : (context c d (n + 1)).resume g r s = match r with
      | .send _ => .error (.stopIteration none) s
      | .throw e => .error (.raised e) s := by
  have hsame : s.onGenerator g (fun x => { x with progress := .exhausted }) = s := by
    refine Store.onGenerator_same hrow ?_
    show { x with progress := .exhausted } = x
    rw [← hend]
  show resumeFrame g r (context c d n) s = _
  rw [resumeFrame_run, Table.get_of_row hrow, hend, hsame]
  cases r <;> rfl

/-- The record that a call leaves. -/
def LeavesRow (g : Nat) {α : Type} (P : Generator → Prop) (r : EStateM.Result Fault Store α) : Prop :=
  ∃ x, (endState r).generators.rows[g]? = some x ∧ P x

/-! ## 2. Asking and sending -/

theorem hasNext_rests (hrow : s.generators.rows[g]? = some x) (h : x.Rests) :
    LeavesRow g Generator.Rests (hasNext g (context c d (n + 1)) s) := by
  cases hlook : x.lookahead with
  | some outcome =>
    rw [hasNext_kept hrow h.idle hlook]
    exact ⟨x, hrow, h⟩
  | none =>
    have hres := resumed (c := c) (d := d) (n := n) (Store.onGenerator_row hrow (mark true)) rfl
      (.send .none)
    rw [hasNext_fresh hrow h.idle hlook]
    cases hout : (context c d (n + 1)).resume g (.send .none) (s.onGenerator g (mark true)) with
    | ok v s' =>
      rw [hout] at hres
      obtain ⟨progress, hrow'⟩ := hres
      refine ⟨_, Store.onGenerator_row hrow' _, rfl, fun e he => ?_⟩
      cases he
    | error e s' =>
      rw [hout] at hres
      exact ⟨_, Store.onGenerator_row hres _, rfl, fun _ _ => rfl⟩

theorem hasNext_finished (hrow : s.generators.rows[g]? = some x) (h : x.Finished) :
    ∃ t, hasNext g (context c d (n + 1)) s = .ok false t
      ∧ ∃ y, t.generators.rows[g]? = some y ∧ y.Finished := by
  rcases h.ahead with hlook | hlook
  · have hmarked := Store.onGenerator_row hrow (mark true)
    rw [hasNext_fresh hrow h.idle hlook, resume_exhausted hmarked h.progress]
    exact ⟨_, rfl, _, Store.onGenerator_row hmarked _, rfl, h.progress, .inr rfl⟩
  · rw [hasNext_kept hrow h.idle hlook]
    exact ⟨s, rfl, x, hrow, h⟩

theorem send_rests (hrow : s.generators.rows[g]? = some x) (h : x.Rests) (v : Value) :
    match send g v (context c d (n + 1)) s with
      | .ok _ t => ∃ y, t.generators.rows[g]? = some y ∧ y.Rests
      | .error _ t => ∃ y, t.generators.rows[g]? = some y ∧ y.Finished := by
  cases hlook : x.lookahead with
  | some outcome =>
    have hdropped := Store.onGenerator_row hrow (keep none)
    rw [send_kept hrow h.idle hlook]
    cases outcome with
    | ok w =>
      refine ⟨_, hdropped, h.idle, fun e he => ?_⟩
      cases he
    | error e => exact ⟨_, hdropped, h.idle, h.ahead e hlook, .inl rfl⟩
  | none =>
    have hres := resumed (c := c) (d := d) (n := n) (Store.onGenerator_row hrow (mark true)) rfl
      (.send v)
    rw [send_fresh hrow h.idle hlook]
    cases hout : (context c d (n + 1)).resume g (.send v) (s.onGenerator g (mark true)) with
    | ok w s' =>
      rw [hout] at hres
      obtain ⟨progress, hrow'⟩ := hres
      refine ⟨_, Store.onGenerator_row hrow' _, rfl, fun e he => ?_⟩
      have hlook' : x.lookahead = some (.error e) := he
      rw [hlook] at hlook'
      cases hlook'
    | error e s' =>
      rw [hout] at hres
      exact ⟨_, Store.onGenerator_row hres _, rfl, rfl, .inl hlook⟩

theorem send_finished (hrow : s.generators.rows[g]? = some x) (h : x.Finished) (v : Value) :
    ∃ t, send g v (context c d (n + 1)) s = .error (.stopIteration none) t := by
  rcases h.ahead with hlook | hlook
  · have hmarked := Store.onGenerator_row hrow (mark true)
    rw [send_fresh hrow h.idle hlook, resume_exhausted hmarked h.progress]
    exact ⟨_, rfl⟩
  · rw [send_kept hrow h.idle hlook]
    exact ⟨_, rfl⟩

/-! ## 3. Raising and closing -/

/-- Whether a value is an exception or a class of exceptions. -/
def raisable (m : TypeModel) : Value → Bool
  | .exception _ _ => true
  | .classObject t => m.isException t
  | _ => false

/-- What is raised is the exception that was given, or a new one of the class that was given. -/
def Raises (v : Value) (e : Raised) : Prop := e.value = v ∨ v = .classObject e.type

/-- An exception is made of what can be raised; what cannot is rejected with another exception. The
generators are left alone. -/
theorem makeException_run (v : Value) (ctx : Context) (s : Store) :
    (if raisable ctx.compiler.model v then
      ∃ e t, makeException v ctx s = .ok e t ∧ Raises v e ∧ t.generators = s.generators
    else ∃ e t, makeException v ctx s = .error (.raised e) t ∧ t.generators = s.generators) := by
  cases v with
  | exception ref type => exact ⟨⟨ref, type⟩, s, rfl, .inl rfl, rfl⟩
  | classObject t =>
    have hrun : makeException (.classObject t) ctx s = (if ctx.compiler.model.isException t then
        newException t [] else makeException.refuse : Action Raised) ctx s := rfl
    rw [hrun]
    cases hexc : ctx.compiler.model.isException t with
    | true =>
      simp only [raisable, hexc, if_true]
      exact ⟨_, _, rfl, .inr rfl, rfl⟩
    | false =>
      simp only [raisable, hexc, Bool.false_eq_true, if_false]
      exact ⟨_, _, rfl, rfl⟩
  | _ => exact ⟨_, _, rfl, rfl⟩

theorem throwInto_run {v : Value} {ctx : Context} {e : Raised} {t : Store}
    (hmade : makeException v ctx s = .ok e t) (hrow : t.generators.rows[g]? = some x)
    (hidle : x.running = false) : throwInto g v ctx s
      = match ctx.resume g (.throw e) (t.onGenerator g (keep none ∘ mark true)) with
        | .ok w s => .ok w (s.onGenerator g (mark false))
        | .error e s => .error e (s.onGenerator g (mark false)) := by
  have hdrop : ∀ s, dropLookahead g ctx s = .ok () (s.onGenerator g (keep none)) := fun _ => rfl
  rw [throwInto, run_bind, hmade]
  dsimp only
  rw [guarded_idle hrow hidle, run_bind, hdrop]
  dsimp only
  rw [Store.onGenerator_onGenerator, resume_run]
  cases ctx.resume g (.throw e) (t.onGenerator g (keep none ∘ mark true)) <;> rfl

theorem throwInto_rests (hrow : s.generators.rows[g]? = some x) (h : x.Rests) {v : Value}
    (hv : raisable c.model v = true) : match throwInto g v (context c d (n + 1)) s with
      | .ok _ t => ∃ y, t.generators.rows[g]? = some y ∧ y.Rests
      | .error _ t => ∃ y, t.generators.rows[g]? = some y ∧ y.Finished := by
  have hmade := makeException_run v (context c d (n + 1)) s
  rw [show (context c d (n + 1)).compiler = c from rfl, if_pos hv] at hmade
  obtain ⟨e, t, hmade, -, hsame⟩ := hmade
  have hrow' : t.generators.rows[g]? = some x := by rw [hsame, hrow]
  have hres := resumed (c := c) (d := d) (n := n)
    (Store.onGenerator_row hrow' (keep none ∘ mark true)) rfl (.throw e)
  rw [throwInto_run hmade hrow' h.idle]
  cases hout : (context c d (n + 1)).resume g (.throw e)
      (t.onGenerator g (keep none ∘ mark true)) with
  | ok w s' =>
    rw [hout] at hres
    obtain ⟨progress, hrow''⟩ := hres
    refine ⟨_, Store.onGenerator_row hrow'' _, rfl, fun e he => ?_⟩
    cases he
  | error e s' =>
    rw [hout] at hres
    exact ⟨_, Store.onGenerator_row hres _, rfl, rfl, .inl rfl⟩

theorem throwInto_finished (hrow : s.generators.rows[g]? = some x) (h : x.Finished) {v : Value}
    (hv : raisable c.model v = true) :
    ∃ e t, throwInto g v (context c d (n + 1)) s = .error (.raised e) t ∧ Raises v e := by
  have hmade := makeException_run v (context c d (n + 1)) s
  rw [show (context c d (n + 1)).compiler = c from rfl, if_pos hv] at hmade
  obtain ⟨e, t, hmade, hraises, hsame⟩ := hmade
  have hrow' : t.generators.rows[g]? = some x := by rw [hsame, hrow]
  rw [throwInto_run hmade hrow' h.idle,
    resume_exhausted (Store.onGenerator_row hrow' _) h.progress]
  exact ⟨e, _, rfl, hraises⟩

/-- A throw of what is no exception is rejected before it comes to the generator. -/
theorem throwInto_rejected {v : Value} (hv : raisable c.model v = false) :
    ∃ e t, throwInto g v (context c d (n + 1)) s = .error (.raised e) t
      ∧ t.generators = s.generators := by
  have hmade := makeException_run v (context c d (n + 1)) s
  rw [show (context c d (n + 1)).compiler = c from rfl, hv] at hmade
  obtain ⟨e, t, hmade, hsame⟩ := hmade
  rw [throwInto, run_bind, hmade]
  exact ⟨e, t, rfl, hsame⟩

/-- **A generator that is closed is finished**, whatever comes of closing it. -/
theorem close_finishes (hrow : s.generators.rows[g]? = some x) (hidle : x.running = false) :
    LeavesRow g Generator.Finished (close g (context c d (n + 1)) s) := by
  have hmarked := Store.onGenerator_row hrow (keep none ∘ mark true)
  have hdrop : ∀ ctx s, dropLookahead g ctx s = .ok () (s.onGenerator g (keep none)) :=
    fun _ _ => rfl
  have hexhaust : ∀ ctx s, exhaust g ctx s
      = .ok () (s.onGenerator g fun x => { x with progress := .exhausted }) := fun _ _ => rfl
  have hdone : ∀ {t : Store} {y : Generator}, t.generators.rows[g]? = some y →
      y.lookahead = none → y.progress = .exhausted →
      ∃ z, (t.onGenerator g (mark false)).generators.rows[g]? = some z ∧ z.Finished :=
    fun ht hlook hend => ⟨_, Store.onGenerator_row ht _, rfl, hend, .inl hlook⟩
  rw [close, guarded_idle hrow hidle, run_bind, hdrop]
  dsimp only
  rw [Store.onGenerator_onGenerator, generator_bind hmarked]
  cases hprogress : x.progress with
  | created f | exhausted =>
    have hkept : ((keep none ∘ mark true) x).progress = _ := hprogress
    rw [hkept]
    exact hdone (Store.onGenerator_row hmarked _) rfl rfl
  | suspended saved =>
    have hkept : ((keep none ∘ mark true) x).progress = _ := hprogress
    have hexit : ∀ s, newException TypeId.generatorExit [] (context c d (n + 1)) s
        = .ok (s.newException TypeId.generatorExit (c.model.name TypeId.generatorExit) []).1
          (s.newException TypeId.generatorExit (c.model.name TypeId.generatorExit) []).2 :=
      fun _ => rfl
    rw [hkept]
    dsimp only
    rw [run_bind, hexit]
    dsimp only
    generalize hmade : ((s.onGenerator g (keep none ∘ mark true)).newException TypeId.generatorExit
      (c.model.name TypeId.generatorExit) []) = made
    have hrow' : made.2.generators.rows[g]? = some ((keep none ∘ mark true) x) := by
      rw [← hmade]
      exact hmarked
    have hres := resumed (c := c) (d := d) (n := n) hrow' rfl (.throw made.1)
    rw [run_bind, attempt_run, resume_run]
    cases hout : (context c d (n + 1)).resume g (.throw made.1) made.2 with
    | ok v t =>
      -- the frame goes on after all, and is given up
      rw [hout] at hres
      obtain ⟨progress, hrow''⟩ := hres
      exact hdone (Store.onGenerator_row hrow'' _) rfl rfl
    | error e t =>
      rw [hout] at hres
      cases e with
      | raised e =>
        dsimp only
        cases e.type == TypeId.generatorExit with
        | true => exact hdone hres rfl rfl
        | false => exact hdone hres rfl rfl
      | _ => exact hdone hres rfl rfl

/-- Closing a generator that has ended does nothing. -/
theorem close_finished (hrow : s.generators.rows[g]? = some x) (h : x.Finished) :
    ∃ t, close g (context c d (n + 1)) s = .ok () t := by
  have hmarked := Store.onGenerator_row hrow (keep none ∘ mark true)
  have hdrop : ∀ ctx s, dropLookahead g ctx s = .ok () (s.onGenerator g (keep none)) :=
    fun _ _ => rfl
  have hkept : ((keep none ∘ mark true) x).progress = .exhausted := h.progress
  rw [close, guarded_idle hrow h.idle, run_bind, hdrop]
  dsimp only
  rw [Store.onGenerator_onGenerator, generator_bind hmarked, hkept]
  exact ⟨_, rfl⟩

/-! ## 4. Calls in their order -/

/-- What a generator can be asked for. -/
inductive Request where
  | hasNext
  | next
  | send (v : Value)
  | throw (v : Value)
  | close

/-- Carries out a request. -/
def Request.perform (g : Nat) : Request → Action Value
  | .hasNext => return .bool (← Machine.hasNext g)
  | .next => nextOf g
  | .send v => Machine.send g v
  | .throw v => throwInto g v
  | .close => do
    Machine.close g
    return .none

/-- A call on a generator, and the store that it finds. -/
structure Call where
  request : Request
  store : Store
  /-- How deep the machine may nest below the call. -/
  depth : Nat

namespace Call

variable (c d g) (k : Call)

/-- What comes of the call. -/
def result : EStateM.Result Fault Store Value :=
  k.request.perform g (context c d (k.depth + 1)) k.store

/-- The call was not made while the generator ran. -/
def Idle : Prop := (k.store.generators.get g).running = false

/-- The call delivers the end or an exception, or it closes the generator. The refusal of a
generator that runs and the rejection of what is no exception are neither. -/
def Ends : Prop := Idle g k ∧ match k.request with
  | .hasNext => False
  | .next | .send _ => ∃ e t, k.result c d g = .error e t
  | .throw v => raisable c.model v = true ∧ ∃ e t, k.result c d g = .error e t
  | .close => True

/-- The call delivers the end with the value that the frame returned. -/
def Returns : Prop := ∃ v t, k.result c d g = .error (.stopIteration (some v)) t

/-- What a call on a generator gives that is finished. -/
def AtEnd : Prop := match k.request with
  | .hasNext => ∃ t, k.result c d g = .ok (.bool false) t
  | .next | .send _ => ∃ t, k.result c d g = .error (.stopIteration none) t
  | .throw v => raisable c.model v = true →
      ∃ e t, k.result c d g = .error (.raised e) t ∧ Raises v e
  | .close => ∃ t, k.result c d g = .ok .none t

end Call

/-- The calls on a generator in their order, and the record that they leave. Each call finds the
record as the last one left it, in whatever store; or it comes from inside while the frame of the
generator runs, which it can only do if there is a frame. -/
inductive History (c : Compiler) (d : Digest) (g : Nat) : Generator → List Call → Prop where
  | new {x : Generator} {f : Frame} (hprogress : x.progress = .created f)
      (hlook : x.lookahead = none) (hidle : x.running = false) : History c d g x []
  | outside {x : Generator} {ks : List Call} (h : History c d g x ks) (k : Call)
      (hrow : k.store.generators.rows[g]? = some x) :
      History c d g ((endState (k.result c d g)).generators.get g) (ks ++ [k])
  | inside {x y : Generator} {ks : List Call} (h : History c d g x ks) (k : Call)
      (hframe : x.progress ≠ .exhausted) (hrow : k.store.generators.rows[g]? = some y)
      (hrun : y.running = true) : History c d g x (ks ++ [k])

/-- While a generator runs, a call on it ends no iteration. -/
theorem Call.not_returns_of_running {k : Call} (hrow : k.store.generators.rows[g]? = some x)
    (hrun : x.running = true) : ¬ k.Returns c d g := by
  have hrefused : ∀ {α : Type} (act : Action α) (t : Store), t.generators = k.store.generators →
      guarded g act (context c d (k.depth + 1)) t = .error .alreadyRunning t := by
    intro α act t ht
    rw [guarded_run, ht, Table.get_of_row hrow, hrun]
    rfl
  rintro ⟨v, t, hres⟩
  obtain ⟨q, s, n⟩ := k
  cases q with
  | hasNext =>
    have hrun : hasNext g (context c d (n + 1)) s = _ := hrefused _ s rfl
    rw [Call.result, Request.perform, run_bind, hrun] at hres
    cases hres
  | next =>
    have hrun : Machine.send g .none (context c d (n + 1)) s = _ := hrefused _ s rfl
    have hres : Machine.send g .none (context c d (n + 1)) s = _ := hres
    rw [hrun] at hres
    cases hres
  | send v =>
    have hrun : Machine.send g v (context c d (n + 1)) s = _ := hrefused _ s rfl
    have hres : Machine.send g v (context c d (n + 1)) s = _ := hres
    rw [hrun] at hres
    cases hres
  | throw v =>
    have hmade := makeException_run v (context c d (n + 1)) s
    rw [Call.result, Request.perform, throwInto, run_bind] at hres
    split at hmade
    · obtain ⟨e, t, hmade, -, hsame⟩ := hmade
      rw [hmade] at hres
      dsimp only at hres
      rw [hrefused _ t hsame] at hres
      cases hres
    · obtain ⟨e, t, hmade, -⟩ := hmade
      rw [hmade] at hres
      cases hres
  | close =>
    have hrun : close g (context c d (n + 1)) s = _ := hrefused _ s rfl
    rw [Call.result, Request.perform, run_bind, hrun] at hres
    cases hres

theorem endState_bind_pure {α β : Type} (act : Action α) (f : α → β) (ctx : Context) (s : Store) :
    endState ((act >>= fun a => pure (f a)) ctx s) = endState (act ctx s) := by
  rw [run_bind]
  cases act ctx s <;> rfl

namespace Call

variable {k : Call}

/-- **What a call leaves of a generator at rest.** It is at rest again; it is finished if the call
ends it, or if it was finished before. -/
theorem leaves (hrow : k.store.generators.rows[g]? = some x) (h : x.Rests) :
    ∃ y, (endState (k.result c d g)).generators.rows[g]? = some y ∧ y.Rests
      ∧ (k.Ends c d g → y.Finished) ∧ (x.Finished → y.Finished) := by
  obtain ⟨q, s, n⟩ := k
  -- a value leaves the generator at rest, a fault leaves it finished
  have hcall : ∀ {r : EStateM.Result Fault Store Value}, (match r with
        | .ok _ t => ∃ y, t.generators.rows[g]? = some y ∧ y.Rests
        | .error _ t => ∃ y, t.generators.rows[g]? = some y ∧ y.Finished) →
      (x.Finished → ∃ e t, r = .error e t) →
      ∃ y, (endState r).generators.rows[g]? = some y ∧ y.Rests
        ∧ ((∃ e t, r = .error e t) → y.Finished) ∧ (x.Finished → y.Finished) := by
    intro r hr hfinished
    cases r with
    | ok w t =>
      obtain ⟨y, hy, hrests⟩ := hr
      refine ⟨y, hy, hrests, ?_, fun hx => ?_⟩
      · rintro ⟨e, t', he⟩
        cases he
      · obtain ⟨e, t', he⟩ := hfinished hx
        cases he
    | error e t =>
      obtain ⟨y, hy, hdone⟩ := hr
      exact ⟨y, hy, hdone.rests, fun _ => hdone, fun _ => hdone⟩
  have hsend : ∀ v, ∃ y, (endState (send g v (context c d (n + 1)) s)).generators.rows[g]? = some y
      ∧ y.Rests ∧ ((∃ e t, send g v (context c d (n + 1)) s = .error e t) → y.Finished)
      ∧ (x.Finished → y.Finished) := by
    intro v
    refine hcall (send_rests hrow h v) fun hx => ?_
    obtain ⟨t, ht⟩ := send_finished hrow hx v
    exact ⟨_, t, ht⟩
  cases q with
  | hasNext =>
    have hsame : endState (result c d g ⟨.hasNext, s, n⟩)
        = endState (hasNext g (context c d (n + 1)) s) := endState_bind_pure _ _ _ _
    rw [hsame]
    by_cases hx : x.Finished
    · obtain ⟨t, ht, y, hy, hdone⟩ := hasNext_finished (c := c) (d := d) (n := n) hrow hx
      rw [ht]
      exact ⟨y, hy, hdone.rests, fun _ => hdone, fun _ => hdone⟩
    · obtain ⟨y, hy, hrests⟩ := hasNext_rests (c := c) (d := d) (n := n) hrow h
      exact ⟨y, hy, hrests, fun hends => hends.2.elim, fun hx' => absurd hx' hx⟩
  | next =>
    obtain ⟨y, hy, hrests, hends, hx⟩ := hsend .none
    exact ⟨y, hy, hrests, fun hk => hends hk.2, hx⟩
  | send v =>
    obtain ⟨y, hy, hrests, hends, hx⟩ := hsend v
    exact ⟨y, hy, hrests, fun hk => hends hk.2, hx⟩
  | throw v =>
    cases hv : raisable c.model v with
    | true =>
      obtain ⟨y, hy, hrests, hends, hx⟩ := hcall
        (throwInto_rests (d := d) (n := n) hrow h hv) fun hx => by
          obtain ⟨e, t, ht, -⟩ := throwInto_finished (d := d) (n := n) hrow hx hv
          exact ⟨_, t, ht⟩
      exact ⟨y, hy, hrests, fun hk => hends hk.2.2, hx⟩
    | false =>
      obtain ⟨e, t, ht, hsame⟩ := throwInto_rejected (c := c) (d := d) (n := n) (g := g) (s := s) hv
      have hres : result c d g ⟨.throw v, s, n⟩ = .error (.raised e) t := ht
      rw [hres, endState_error, hsame]
      refine ⟨x, hrow, h, fun hk => ?_, id⟩
      have hv' : raisable c.model v = true := hk.2.1
      rw [hv] at hv'
      cases hv'
  | close =>
    have hsame : endState (result c d g ⟨.close, s, n⟩)
        = endState (close g (context c d (n + 1)) s) := endState_bind_pure _ _ _ _
    obtain ⟨y, hy, hdone⟩ := close_finishes (c := c) (d := d) (n := n) hrow h.idle
    rw [hsame]
    exact ⟨y, hy, hdone.rests, fun _ => hdone, fun _ => hdone⟩

theorem atEnd_of_finished (hrow : k.store.generators.rows[g]? = some x) (h : x.Finished) :
    k.AtEnd c d g := by
  obtain ⟨q, s, n⟩ := k
  cases q with
  | hasNext =>
    obtain ⟨t, ht, -⟩ := hasNext_finished (c := c) (d := d) (n := n) hrow h
    refine ⟨t, ?_⟩
    rw [result, Request.perform, run_bind, ht]
    rfl
  | next => exact send_finished hrow h .none
  | send v => exact send_finished hrow h v
  | throw v => exact fun hv => throwInto_finished hrow h hv
  | close =>
    obtain ⟨t, ht⟩ := close_finished (c := c) (d := d) (n := n) hrow h
    refine ⟨t, ?_⟩
    rw [result, Request.perform, run_bind, ht]
    rfl

/-- Only a call that ends the generator delivers the value of a return. -/
theorem ends_of_returns (hrow : k.store.generators.rows[g]? = some x) (hidle : x.running = false)
    (h : k.Returns c d g) : k.Ends c d g := by
  obtain ⟨v, t, hres⟩ := h
  obtain ⟨q, s, n⟩ := k
  have hk : Idle g ⟨q, s, n⟩ := by
    rw [Idle, Table.get_of_row hrow, hidle]
  cases q with
  | hasNext =>
    obtain ⟨b, t', ht, -⟩ := hasNext_answers c d (n + 1) hrow hidle
    rw [result, Request.perform, run_bind, ht] at hres
    cases hres
  | next => exact ⟨hk, _, t, hres⟩
  | send v => exact ⟨hk, _, t, hres⟩
  | throw w =>
    cases hv : raisable c.model w with
    | true => exact ⟨hk, hv, _, t, hres⟩
    | false =>
      obtain ⟨e, t', ht, -⟩ := throwInto_rejected (c := c) (d := d) (n := n) (g := g) (s := s) hv
      have hres' : throwInto g w (context c d (n + 1)) s = _ := hres
      rw [ht] at hres'
      cases hres'
  | close => exact ⟨hk, trivial⟩

/-- A generator that is finished returns nothing any more. -/
theorem not_returns_of_finished (hrow : k.store.generators.rows[g]? = some x) (h : x.Finished) :
    ¬ k.Returns c d g := by
  rintro ⟨v, t, hres⟩
  have hend := atEnd_of_finished (c := c) (d := d) hrow h
  obtain ⟨q, s, n⟩ := k
  cases q with
  | hasNext | next | send w | close =>
    obtain ⟨t', ht⟩ := hend
    rw [ht] at hres
    cases hres
  | throw w =>
    cases hw : raisable c.model w with
    | true =>
      obtain ⟨e, t', ht, -⟩ := hend hw
      rw [ht] at hres
      cases hres
    | false =>
      obtain ⟨e, t', ht, -⟩ := throwInto_rejected (c := c) (d := d) (n := n) (g := g) (s := s) hw
      have hres' : throwInto g w (context c d (n + 1)) s = _ := hres
      rw [ht] at hres'
      cases hres'

end Call

/-! ## 5. Histories -/

variable {ks : List Call}

/-- After its calls a generator is at rest, and finished once a call ended it. -/
theorem History.rests (h : History c d g x ks) :
    x.Rests ∧ ∀ k ∈ ks, k.Ends c d g → x.Finished := by
  induction h with
  | new hprogress hlook hidle =>
    refine ⟨⟨hidle, fun e he => ?_⟩, fun k hk => absurd hk List.not_mem_nil⟩
    rw [hlook] at he
    cases he
  | outside h k hrow ih =>
    obtain ⟨hrests, hended⟩ := ih
    obtain ⟨y, hy, hrests', hends, hstays⟩ := k.leaves (c := c) (d := d) hrow hrests
    rw [Table.get_of_row hy]
    refine ⟨hrests', fun k' hk' hk'ends => ?_⟩
    rcases List.mem_append.mp hk' with hk' | hk'
    · exact hstays (hended k' hk' hk'ends)
    · rw [List.mem_singleton.mp hk'] at hk'ends
      exact hends hk'ends
  | inside h k hframe hrow hrun ih =>
    refine ⟨ih.1, fun k' hk' hk'ends => ?_⟩
    rcases List.mem_append.mp hk' with hk' | hk'
    · exact ih.2 k' hk' hk'ends
    · -- a call from inside is refused
      rw [List.mem_singleton.mp hk'] at hk'ends
      have hidle := hk'ends.1
      rw [Call.Idle, Table.get_of_row hrow, hrun] at hidle
      cases hidle

/-- Once a call ended the generator, all later ones are as at the end. -/
theorem History.atEnd (h : History c d g x ks) :
    ks.Pairwise fun k k' => k.Ends c d g → k'.AtEnd c d g ∧ ¬ k'.Returns c d g := by
  induction h with
  | new => exact .nil
  | outside h k hrow ih =>
    refine List.pairwise_append.mpr ⟨ih, List.pairwise_singleton _ _, fun k' hk' l hl hends => ?_⟩
    have hdone := h.rests.2 k' hk' hends
    rw [List.mem_singleton.mp hl]
    exact ⟨k.atEnd_of_finished hrow hdone, k.not_returns_of_finished hrow hdone⟩
  | inside h k hframe hrow hrun ih =>
    refine List.pairwise_append.mpr ⟨ih, List.pairwise_singleton _ _, fun k' hk' l hl hends => ?_⟩
    exact absurd (h.rests.2 k' hk' hends).progress hframe

/-- What delivers the value of a return ends the generator. -/
theorem History.ends_of_returns (h : History c d g x ks) :
    ∀ k ∈ ks, k.Returns c d g → k.Ends c d g := by
  induction h with
  | new => exact fun k hk => absurd hk List.not_mem_nil
  | outside h k hrow ih =>
    intro k' hk' hreturns
    rcases List.mem_append.mp hk' with hk' | hk'
    · exact ih k' hk' hreturns
    · rw [List.mem_singleton.mp hk'] at hreturns ⊢
      exact k.ends_of_returns hrow h.rests.1.idle hreturns
  | inside h k hframe hrow hrun ih =>
    intro k' hk' hreturns
    rcases List.mem_append.mp hk' with hk' | hk'
    · exact ih k' hk' hreturns
    · rw [List.mem_singleton.mp hk'] at hreturns
      exact absurd hreturns (Call.not_returns_of_running hrow hrun)

/-- Requests that are made one right after the other. -/
def Call.chain (c : Compiler) (d : Digest) (g depth : Nat) : List Request → Store → List Call
  | [], _ => []
  | q :: qs, s =>
    let k : Call := ⟨q, s, depth⟩
    k :: chain c d g depth qs (endState (k.result c d g))

theorem History.chain (h : History c d g x ks) (hrow : s.generators.rows[g]? = some x) (depth : Nat)
    (qs : List Request) : ∃ y, History c d g y (ks ++ Call.chain c d g depth qs s) := by
  induction qs generalizing x ks s with
  | nil => exact ⟨x, by rwa [Call.chain, List.append_nil]⟩
  | cons q qs ih =>
    have hnext := h.outside ⟨q, s, depth⟩ hrow
    obtain ⟨y, hy, -⟩ := Call.leaves (c := c) (d := d) (k := ⟨q, s, depth⟩) hrow h.rests.1
    rw [Table.get_of_row hy] at hnext
    obtain ⟨z, hz⟩ := ih hnext hy
    rw [List.append_assoc] at hz
    exact ⟨z, hz⟩

/-- **An exhausted generator stays exhausted.** Over any order of calls the value of a return is
delivered once at most. After a call that delivered the end or an exception, and after a closing,
there is no next value, a resumption gives the end without a value, and a throw raises just the
exception that it was given. -/
theorem exhausted_for_good (h : History c d g x ks) :
    ks.Pairwise (fun k k' => ¬ (k.Returns c d g ∧ k'.Returns c d g))
      ∧ ks.Pairwise fun k k' => k.Ends c d g → k'.AtEnd c d g := by
  refine ⟨h.atEnd.imp_of_mem fun hk _ hend => ?_, h.atEnd.imp fun hend hk => (hend hk).1⟩
  rintro ⟨hreturns, hreturns'⟩
  exact (hend (h.ends_of_returns _ hk hreturns)).2 hreturns'

/-- The value that an outcome ends a generator with. -/
def ending : EStateM.Result Fault Store Value → Option Value
  | .error (.stopIteration v) _ => v
  | _ => none

theorem ending_eq_some {r : EStateM.Result Fault Store Value} {v : Value} (h : ending r = some v) :
    ∃ t, r = .error (.stopIteration (some v)) t := by
  unfold ending at h
  split at h
  · exact ⟨_, by rw [h]⟩
  · cases h

/-- Its second resumption returns 2, and what comes after is as at the end. -/
theorem exhausted_for_good_yieldOne : ∃ p ks, compile default yieldOne .dynamic = .ok p
    ∧ ks = Call.chain default Digest.standard 0 9
        [.hasNext, .next, .next, .hasNext, .send (.int 3), .throw (.classObject TypeId.valueError)]
        (storeWith p)
    ∧ (∃ k, ks[2]? = some k ∧ k.Returns default Digest.standard 0)
    ∧ ks.Pairwise (fun k k' =>
        ¬ (k.Returns default Digest.standard 0 ∧ k'.Returns default Digest.standard 0))
    ∧ ks.Pairwise (fun k k' => k.Ends default Digest.standard 0 → k'.AtEnd default Digest.standard 0)
    := by
  have hrun : ((compile default yieldOne .dynamic).toOption.bind fun p =>
      (Call.chain default Digest.standard 0 9 [.hasNext, .next, .next] (storeWith p))[2]?.bind
        fun k => ending (k.result default Digest.standard 0)).isSome := by
    simp only [compile, Compiler.analyze, CompiledBody.analyze, CompiledBody.build,
      CompiledBody.settle, Body.decode, InstructionStream.decode, InstructionStream.strayJump?_eq]
    decide +kernel
  cases hp : compile default yieldOne .dynamic with
  | error e =>
    rw [hp] at hrun
    cases hrun
  | ok p =>
    rw [hp] at hrun
    obtain ⟨x, hx⟩ := (History.new (c := default) (d := Digest.standard) (g := 0)
      (x := (storeWith p).generators.get 0) rfl rfl rfl).chain (s := storeWith p) rfl 9
      [.hasNext, .next, .next, .hasNext, .send (.int 3), .throw (.classObject TypeId.valueError)]
    refine ⟨p, _, rfl, rfl, ?_, exhausted_for_good hx⟩
    obtain ⟨v, hv⟩ := Option.isSome_iff_exists.mp hrun
    rw [Except.toOption, Option.bind_some] at hv
    obtain ⟨k, hk, hend⟩ := Option.bind_eq_some_iff.mp hv
    exact ⟨k, hk, v, ending_eq_some hend⟩

end Machine

end Stackwise
