import Stackwise.Machine.Generator

/-!
# Calm operations

Some faults say that a frame lost its footing: no instruction at its offset, a stack that is too
short, a variable or constant that does not exist, a resumption that does not fit
(`Fault.ofFrame`). The operations on values never cause them. What can bring them in is a call, a
resumption, or an outcome that a generator computed ahead and keeps.

* `Tolerance`: a set of faults that holds at least all others.
* `Calm`: an action that ends in a tolerated fault only and keeps only tolerated ones in the store,
  as long as calls and resumptions do the same.
* The rules from `Calm.bind` on take an action apart along its definition.
* The protocol of generators is calm: what a generator keeps for later came of a resumption.
-/

namespace Stackwise

/-! ## 1. Faults of a frame -/

/-- Whether a broken rule means that a frame and its program do not fit together. -/
def Broken.ofFrame : Broken → Bool
  | .noInstruction | .stackUnderflow | .localOutOfRange _ | .cellOutOfRange _
  | .constantOutOfRange _ | .noResumePoint _ | .noResumption | .notGenerator | .unknownState _
  | .suspendedStack _ _ _ => true
  | _ => false

/-- Whether a fault means that a frame and its program do not fit together. -/
def Fault.ofFrame : Fault → Bool
  | .broken _ _ cause => cause.ofFrame
  | _ => false

/-- Faults that may end an operation, all but those of a frame among them. -/
structure Tolerance where
  /-- The faults. -/
  fault : Fault → Prop
  other : ∀ e, e.ofFrame = false → fault e

namespace Tolerance

variable (W : Tolerance)

/-- Every fault that a generator keeps for its next resumption is tolerated. -/
def generator (x : Generator) : Prop := ∀ e, x.lookahead = some (.error e) → W.fault e

/-- Every fault that is kept in the store is tolerated. -/
def store (s : Store) : Prop := ∀ x ∈ s.generators.rows, W.generator x

/-- A tolerated outcome. -/
def result {α : Type} : EStateM.Result Fault Store α → Prop
  | .ok _ s => W.store s
  | .error e s => W.store s ∧ W.fault e

/-- Calls and resumptions end in tolerated outcomes. -/
structure context (ctx : Context) : Prop where
  call : ∀ v args kwargs s, W.store s → W.result (ctx.call v args kwargs s)
  resume : ∀ g r s, W.store s → W.result (ctx.resume g r s)

/-- The tolerance of everything. -/
def all : Tolerance := ⟨fun _ => True, fun _ _ => trivial⟩

theorem all_store (s : Store) : all.store s := fun _ _ _ _ => trivial

theorem all_result {α : Type} (r : EStateM.Result Fault Store α) : all.result r := by
  cases r with
  | ok a s => exact all_store s
  | error e s => exact ⟨all_store s, trivial⟩

theorem all_context (ctx : Context) : all.context ctx :=
  ⟨fun _ _ _ _ _ => all_result _, fun _ _ _ _ => all_result _⟩

end Tolerance

/-- A way back into the machine, with the store on which it is taken. -/
inductive Entry where
  | call (v : Value) (args : List Value) (kwargs : List Keyword) (s : Store)
  | resume (g : Nat) (r : Resumption) (s : Store)

/-- The store on which the machine is entered. -/
def Entry.store : Entry → Store
  | .call _ _ _ s | .resume _ _ s => s

namespace Context

/-- What comes of entering the machine. -/
def answer (ctx : Context) : Entry → EStateM.Result Fault Store Value
  | .call v args kwargs s => ctx.call v args kwargs s
  | .resume g r s => ctx.resume g r s

open Classical in
/-- The context that refuses all other entries. -/
noncomputable def restrict (ctx : Context) (asked : Entry → Prop) : Context where
  compiler := ctx.compiler
  digest := ctx.digest
  fuel := ctx.fuel
  call v args kwargs s :=
    if asked (.call v args kwargs s) then ctx.call v args kwargs s else .error .outOfFuel s
  resume g r s := if asked (.resume g r s) then ctx.resume g r s else .error .outOfFuel s

end Context

namespace Machine

/-! ## 2. Calm actions -/

/-- An action that ends in tolerated outcomes only. -/
def Calm {α : Type} (W : Tolerance) (act : Action α) : Prop :=
  ∀ ctx, W.context ctx → ∀ s, W.store s → W.result (act ctx s)

variable {W : Tolerance} {α β : Type}

theorem Calm.bind {x : Action β} {f : β → Action α} (hx : Calm W x) (hf : ∀ a, Calm W (f a)) :
    Calm W (x >>= f) := by
  intro ctx hc s hs
  have h := hx ctx hc s hs
  simp only [Bind.bind, ReaderT.bind, EStateM.bind]
  cases hr : x ctx s with
  | ok a s' =>
    rw [hr] at h
    exact hf a ctx hc s' h
  | error e s' =>
    rw [hr] at h
    exact h

theorem calm_pure (a : α) : Calm W (pure a : Action α) := fun _ _ _ hs => hs

theorem calm_throw {e : Fault} (he : W.fault e) : Calm W (throw e : Action α) :=
  fun _ _ _ hs => ⟨hs, he⟩

theorem calm_get : Calm W (get : Action Store) := fun _ _ _ hs => hs

theorem calm_read : Calm W (read : Action Context) := fun _ _ _ hs => hs

theorem calm_model : Calm W model := fun _ _ _ hs => hs

theorem calm_make {f : Store → α × Store} (hf : ∀ s, (f s).2.generators = s.generators) :
    Calm W (make f) := by
  intro ctx hc s hs x hx
  have hx' : x ∈ (f s).2.generators.rows := hx
  rw [hf] at hx'
  exact hs x hx'

theorem calm_callWith (callee : Value) (args : List Value) (kwargs : List Keyword) :
    Calm W (callWith callee args kwargs) :=
  fun _ hc s hs => hc.call _ _ _ s hs

theorem calm_resume (g : Nat) (r : Resumption) : Calm W (resume g r) :=
  fun _ hc s hs => hc.resume _ _ s hs

theorem run_bind {σ : Type} (x : ReaderT Context (EStateM Fault σ) β)
    (k : β → ReaderT Context (EStateM Fault σ) α) (ctx : Context) (a : σ) :
    (x >>= k) ctx a = match x ctx a with
      | .ok v a => k v ctx a
      | .error e a => .error e a := by
  simp only [Bind.bind, ReaderT.bind, EStateM.bind]
  cases x ctx a <;> rfl

/-- An attempt keeps the store as its action left it. -/
theorem attempt_run (act : Action α) (ctx : Context) (s : Store) :
    attempt act ctx s = match act ctx s with
      | .ok a s => .ok (.ok a) s
      | .error e s => .ok (.error e) s := by
  have hunfold : attempt act ctx s = EStateM.tryCatch
      (EStateM.bind (act ctx) fun a => EStateM.pure (Except.ok a))
      (fun e => EStateM.pure (Except.error e)) s := rfl
  rw [hunfold]
  delta EStateM.tryCatch EStateM.bind
  dsimp only
  cases act ctx s <;> rfl

/-- What goes on after a fault as a value may rely on the fault being tolerated. -/
theorem Calm.attempt_bind {act : Action β} {f : Except Fault β → Action α} (hact : Calm W act)
    (hok : ∀ a, Calm W (f (.ok a))) (herror : ∀ e, W.fault e → Calm W (f (.error e))) :
    Calm W (attempt act >>= f) := by
  intro ctx hc s hs
  have h := hact ctx hc s hs
  simp only [Bind.bind, ReaderT.bind, EStateM.bind, attempt_run]
  cases hr : act ctx s with
  | ok a s' =>
    rw [hr] at h
    exact hok a ctx hc s' h
  | error e s' =>
    rw [hr] at h
    exact herror e h.2 ctx hc s' h.1

/-! ## 3. Generators -/

/-- A generator that is read has tolerated outcomes only. -/
theorem Calm.generator_bind {g : Nat} {f : Generator → Action α}
    (hf : ∀ x, W.generator x → Calm W (f x)) : Calm W (generator g >>= f) := by
  intro ctx hc s hs
  refine hf (s.generators.get g) ?_ ctx hc s hs
  unfold Table.get
  by_cases hg : g < s.generators.rows.size
  · have hmem : s.generators.rows.getD g default ∈ s.generators.rows := by
      simp only [Array.getD_eq_getD_getElem?, Array.getElem?_eq_getElem hg, Option.getD_some]
      exact Array.getElem_mem hg
    exact hs _ hmem
  · simp only [Array.getD_eq_getD_getElem?, Array.getElem?_eq_none (Nat.not_lt.mp hg),
      Option.getD_none]
    intro e he
    cases he

theorem calm_updateGenerator {g : Nat} {f : Generator → Generator}
    (hf : ∀ x, W.generator x → W.generator (f x)) : Calm W (updateGenerator g f) := by
  intro ctx hc s hs x hx
  have hx' : x ∈ s.generators.rows.modify g f := hx
  obtain ⟨i, hi, rfl⟩ := Array.mem_iff_getElem.mp hx'
  rw [Array.getElem_modify]
  rw [Array.size_modify] at hi
  split
  · exact hf _ (hs _ (Array.getElem_mem hi))
  · exact hs _ (Array.getElem_mem hi)

/-- A change that touches no outcome, or drops it, is calm. -/
theorem calm_updateGenerator_keep {g : Nat} {f : Generator → Generator}
    (hf : ∀ x, (f x).lookahead = x.lookahead) : Calm W (updateGenerator g f) :=
  calm_updateGenerator fun x hx e he => hx e (hf x ▸ he)

theorem calm_updateGenerator_drop {g : Nat} {f : Generator → Generator}
    (hf : ∀ x, (f x).lookahead = none) : Calm W (updateGenerator g f) :=
  calm_updateGenerator fun x _ e he => by rw [hf x] at he; cases he

theorem calm_marked (g : Nat) {act : Action α} (h : Calm W act) : Calm W (do
    updateGenerator g fun x => { x with running := true }
    let outcome ← attempt act
    updateGenerator g fun x => { x with running := false }
    match outcome with
    | .ok a => return a
    | .error e => throw e) := by
  refine .bind (calm_updateGenerator_keep fun _ => rfl) fun _ =>
    .attempt_bind h (fun a => ?_) fun e he => ?_
  · exact .bind (calm_updateGenerator_keep fun _ => rfl) fun _ => calm_pure a
  · exact .bind (calm_updateGenerator_keep fun _ => rfl) fun _ => calm_throw he

theorem calm_guarded (g : Nat) {act : Action α} (h : Calm W act) : Calm W (guarded g act) := by
  unfold guarded
  refine .generator_bind fun x _ => ?_
  dsimp only
  split
  · exact .bind (calm_throw (W.other _ rfl)) fun _ => calm_marked g h
  · exact calm_marked g h

theorem calm_dropLookahead (g : Nat) : Calm W (dropLookahead g) :=
  calm_updateGenerator_drop fun _ => rfl

theorem calm_exhaust (g : Nat) : Calm W (exhaust g) :=
  calm_updateGenerator_keep fun _ => rfl

theorem calm_hasNext (g : Nat) : Calm W (hasNext g) := by
  unfold hasNext
  refine calm_guarded g (.generator_bind fun x hx => ?_)
  split
  · exact calm_pure _
  · refine .attempt_bind (calm_resume _ _) (fun a => ?_) fun e he => ?_
    · exact .bind (calm_updateGenerator fun x _ e h => by cases h) fun _ => calm_pure _
    · exact .bind (calm_updateGenerator fun x _ e' h => by cases h; exact he) fun _ => calm_pure _

theorem calm_send (g : Nat) (v : Value) : Calm W (send g v) := by
  unfold send
  refine calm_guarded g (.generator_bind fun x hx => ?_)
  split
  · rename_i outcome hkept
    refine .bind (calm_dropLookahead g) fun _ => ?_
    cases outcome with
    | ok v => exact calm_pure v
    | error e => exact calm_throw (hx e hkept)
  · exact calm_resume g _

/-- An exception that is raised at the pending `yield`. -/
theorem calm_resumeThrow (g : Nat) (e : Raised) : Calm W (guarded g do
    dropLookahead g
    resume g (.throw e)) :=
  calm_guarded g (.bind (calm_dropLookahead g) fun _ => calm_resume g _)

theorem calm_newException (t : TypeId) (vs : List Value) : Calm W (newException t vs) :=
  calm_model.bind fun _ => calm_make fun _ => rfl

theorem calm_raiseText (t : TypeId) (m : String) : Calm W (raiseText t m : Action α) :=
  .bind (calm_make fun _ => rfl) fun _ => (calm_newException t _).bind fun _ =>
    calm_throw (W.other _ rfl)

theorem calm_close (g : Nat) : Calm W (close g) := by
  unfold close
  refine calm_guarded g (.bind (calm_dropLookahead g) fun _ => .generator_bind fun x _ => ?_)
  split
  · refine .bind (calm_newException _ _) fun exit =>
      .attempt_bind (calm_resume _ _) (fun a => ?_) fun e he => ?_
    · exact .bind (calm_exhaust g) fun _ => calm_raiseText _ _
    · cases e with
      | stopIteration v => exact calm_pure ()
      | raised x =>
        dsimp only
        split
        · exact calm_pure ()
        · exact calm_throw he
      | _ => exact calm_throw he
  · exact calm_exhaust g

end Machine

end Stackwise
