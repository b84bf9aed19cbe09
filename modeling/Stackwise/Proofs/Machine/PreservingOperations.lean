import Stackwise.Proofs.Machine.TidyOperations

/-!
# Operations that preserve a container

A container is a list, a mapping or a set of the store. Most of what an operation on it does leaves
its content alone: it takes operands, iterates, asks host objects, checks keys, makes exceptions.

* `Store.Holds`: a container of the store, and what it holds.
* `Context.Preserves`: calls and resumptions leave the content of a container alone.
* `Commits`: an action that fails leaves the content alone, and one that ends may have changed it if
  it gives a value with a property.
* `Preserves`: no value has it. `AllOrNothing`: every value has it.
* `Commits.bind`: nothing can fail any more after a change.
* `Gentle.preserves`, `Steady.preserves`: gentle and steady actions preserve every container.
* The rules are tagged for `grind`: an action made of preserving ones is preserving by unfolding it.
-/

namespace Stackwise

/-! ## 1. Containers and their contents -/

/-- A list, a mapping or a set. -/
inductive Container where
  | list (r : Nat)
  | dict (r : Nat)
  | set (r : Nat)

/-- A container as a value. -/
def Container.value : Container → Value
  | list r => .list r
  | dict r => .dict r
  | set r => .set r

/-- What a container holds. -/
inductive Content where
  | items (items : Array Value)
  | pairs (pairs : List (Value × Value))
  | members (members : List Value)

namespace Store

/-- The content of a container, if it exists. -/
def content? (s : Store) : Container → Option Content
  | .list r => s.lists.rows[r]?.map .items
  | .dict r => s.dicts.rows[r]?.map .pairs
  | .set r => s.sets.rows[r]?.map .members

/-- A container exists and holds this. -/
def Holds (s : Store) (c : Container) (x : Content) : Prop := s.content? c = some x

/-- The lists, mappings and sets of a store. -/
def containers (s : Store) :
    Table (Array Value) × Table (List (Value × Value)) × Table (List Value) :=
  (s.lists, s.dicts, s.sets)

@[grind =] theorem containers_eq (s : Store) : s.containers = (s.lists, s.dicts, s.sets) := rfl

variable {s s' : Store} {c : Container} {x : Content}

theorem holds_containers (h : s.Holds c x) (hs : s'.containers = s.containers) : s'.Holds c x := by
  obtain ⟨hlists, hrest⟩ := Prod.mk.inj hs
  obtain ⟨hdicts, hsets⟩ := Prod.mk.inj hrest
  unfold Holds content? at *
  rwa [hlists, hdicts, hsets]

end Store

namespace Table

/-- New objects take the place of no other. -/
theorem rows_add {α : Type} {t : Table α} {i : Nat} {a b : α} (h : t.rows[i]? = some a) :
    (t.add b).2.rows[i]? = some a := by
  obtain ⟨hi, -⟩ := Array.getElem?_eq_some_iff.mp h
  rw [add, Array.getElem?_push, if_neg (Nat.ne_of_lt hi), h]

end Table

namespace Store

variable {s : Store} {c : Container} {x : Content}

theorem Holds.newList (h : s.Holds c x) (items : Array Value) :
    (s.newList items).2.Holds c x := by
  cases c with
  | list r =>
    obtain ⟨a, ha, rfl⟩ := Option.map_eq_some_iff.mp h
    exact Option.map_eq_some_iff.mpr ⟨a, Table.rows_add ha, rfl⟩
  | dict r | set r => exact h

theorem Holds.newDict (h : s.Holds c x) (pairs : List (Value × Value)) :
    (s.newDict pairs).2.Holds c x := by
  cases c with
  | dict r =>
    obtain ⟨a, ha, rfl⟩ := Option.map_eq_some_iff.mp h
    exact Option.map_eq_some_iff.mpr ⟨a, Table.rows_add ha, rfl⟩
  | list r | set r => exact h

theorem Holds.newSet (h : s.Holds c x) (members : List Value) :
    (s.newSet members).2.Holds c x := by
  cases c with
  | set r =>
    obtain ⟨a, ha, rfl⟩ := Option.map_eq_some_iff.mp h
    exact Option.map_eq_some_iff.mpr ⟨a, Table.rows_add ha, rfl⟩
  | list r | dict r => exact h

theorem Holds.getDict {r : Nat} {pairs : List (Value × Value)}
    (h : s.Holds (.dict r) (.pairs pairs)) : s.dicts.get r = pairs := by
  obtain ⟨row, hrow, hpairs⟩ := Option.map_eq_some_iff.mp h
  cases hpairs
  exact Table.get_of_row hrow

theorem Holds.exists_pairs {r : Nat} (h : s.Holds (.dict r) x) : ∃ pairs, x = .pairs pairs := by
  obtain ⟨row, -, rfl⟩ := Option.map_eq_some_iff.mp h
  exact ⟨row, rfl⟩

/-- A mapping that is put in place of another one. -/
theorem Holds.putDict {r : Nat} (h : s.Holds (.dict r) x) (pairs : List (Value × Value)) :
    Holds { s with dicts := s.dicts.put r pairs } (.dict r) (.pairs pairs) := by
  obtain ⟨row, hrow, -⟩ := Option.map_eq_some_iff.mp h
  obtain ⟨hr, -⟩ := Array.getElem?_eq_some_iff.mp hrow
  refine Option.map_eq_some_iff.mpr ⟨pairs, ?_, rfl⟩
  rw [Table.put, Array.getElem?_setIfInBounds_self_of_lt hr]

end Store

/-- Entering the machine does not change the content of a container. -/
def Entry.Preserves (ctx : Context) (c : Container) (q : Entry) : Prop :=
  ∀ x, q.store.Holds c x → (endState (ctx.answer q)).Holds c x

/-- No way back into the machine changes the content of a container. -/
def Context.Preserves (ctx : Context) (c : Container) : Prop := ∀ q : Entry, q.Preserves ctx c

/-- A context that refuses the entries that change the content of a container. -/
theorem Context.restrict_preserves (ctx : Context) (c : Container) :
    (ctx.restrict (Entry.Preserves ctx c)).Preserves c := by
  intro q x hx
  cases q with
  | call v args kwargs s =>
    simp only [answer, restrict]
    split
    · exact ‹Entry.Preserves ctx c (.call v args kwargs s)› x hx
    · exact hx
  | resume g r s =>
    simp only [answer, restrict]
    split
    · exact ‹Entry.Preserves ctx c (.resume g r s)› x hx
    · exact hx

namespace Machine

/-! ## 2. Actions that commit at their end -/

/-- As long as no way back into the machine changes the content of a container, the action does not
change it but when it ends with a value that has the property. -/
def Commits {σ α : Type} [HasStore σ] (c : Container)
    (act : ReaderT Context (EStateM Fault σ) α) (Q : α → Prop) : Prop :=
  ∀ ctx, ctx.Preserves c → ∀ a x, (HasStore.store a).Holds c x → match act ctx a with
    | .ok v a' => (HasStore.store a').Holds c x ∨ Q v
    | .error _ a' => (HasStore.store a').Holds c x

/-- The action never changes the content of a container. -/
def Preserves {σ α : Type} [HasStore σ] (c : Container)
    (act : ReaderT Context (EStateM Fault σ) α) : Prop := Commits c act fun _ => False

/-- The action does not change the content of a container if it fails. -/
def AllOrNothing {σ α : Type} [HasStore σ] (c : Container)
    (act : ReaderT Context (EStateM Fault σ) α) : Prop := Commits c act fun _ => True

/-- The action does not change the content of a container if it fails or finds nothing. -/
def CommitsFound {σ α : Type} [HasStore σ] (c : Container)
    (act : ReaderT Context (EStateM Fault σ) (Option α)) : Prop :=
  Commits c act fun v => v.isSome = true

section Rules

variable {σ α β : Type} [HasStore σ] {c : Container} {Q : α → Prop} {P : β → Prop}
  {x : ReaderT Context (EStateM Fault σ) α} {k : α → ReaderT Context (EStateM Fault σ) β}

/-- What follows a change gives its value at once. -/
theorem Commits.bind (hx : Commits c x Q) (hk : ∀ v, Commits c (k v) P)
    (hdone : ∀ v, Q v → ∃ w, P w ∧ k v = pure w) : Commits c (x >>= k) P := by
  intro ctx hc a y hy
  have h := hx ctx hc a y hy
  rw [run_bind]
  cases hres : x ctx a with
  | ok v a' =>
    rw [hres] at h
    rcases h with hheld | hv
    · exact hk v ctx hc a' y hheld
    · obtain ⟨w, hw, hkv⟩ := hdone v hv
      dsimp only
      rw [hkv]
      exact .inr hw
  | error e a' =>
    rw [hres] at h
    exact h

theorem Commits.mono {P : α → Prop} (hx : Commits c x Q) (h : ∀ v, Q v → P v) : Commits c x P := by
  intro ctx hc a y hy
  have hx := hx ctx hc a y hy
  cases hres : x ctx a with
  | ok v a' =>
    rw [hres] at hx
    exact hx.imp_right (h v)
  | error e a' =>
    rw [hres] at hx
    exact hx

/-- What is left of a failure. -/
theorem Commits.holds_of_error (hx : Commits c x Q) {ctx : Context} (hc : ctx.Preserves c)
    {a a' : σ} {y : Content} {e : Fault} (hheld : (HasStore.store a).Holds c y)
    (hfail : x ctx a = .error e a') : (HasStore.store a').Holds c y := by
  have h := hx ctx hc a y hheld
  rwa [hfail] at h

theorem Preserves.commits (hx : Preserves c x) : Commits c x Q := hx.mono fun _ h => h.elim

theorem Preserves.allOrNothing (hx : Preserves c x) : AllOrNothing c x := hx.commits

theorem Preserves.commits_bind (hx : Preserves c x) (hk : ∀ v, Commits c (k v) P) :
    Commits c (x >>= k) P :=
  Commits.bind hx hk fun _ h => h.elim

theorem Preserves.bind (hx : Preserves c x) (hk : ∀ v, Preserves c (k v)) : Preserves c (x >>= k) :=
  hx.commits_bind hk

theorem Preserves.allOrNothing_bind (hx : Preserves c x) (hk : ∀ v, AllOrNothing c (k v)) :
    AllOrNothing c (x >>= k) :=
  hx.commits_bind hk

theorem AllOrNothing.commits_bind (hx : AllOrNothing c x) (hk : ∀ v, ∃ w, P w ∧ k v = pure w) :
    Commits c (x >>= k) P := by
  refine Commits.bind hx (fun v => ?_) fun v _ => hk v
  obtain ⟨w, -, hw⟩ := hk v
  rw [hw]
  exact fun _ _ _ _ h => .inl h

theorem Preserves.commitsFound {x : ReaderT Context (EStateM Fault σ) (Option α)}
    (hx : Preserves c x) : CommitsFound c x :=
  hx.commits

theorem Preserves.commitsFound_bind {k : α → ReaderT Context (EStateM Fault σ) (Option β)}
    (hx : Preserves c x) (hk : ∀ v, CommitsFound c (k v)) : CommitsFound c (x >>= k) :=
  hx.commits_bind hk

/-- A value that is given after a change. -/
theorem AllOrNothing.bind_pure {x : ReaderT Context (EStateM Fault σ) PUnit}
    {k : PUnit → ReaderT Context (EStateM Fault σ) β} (hx : AllOrNothing c x)
    (hk : ∃ w, k ⟨⟩ = pure w) : AllOrNothing c (x >>= k) :=
  hx.commits_bind fun _ => hk.imp fun _ h => ⟨trivial, h⟩

/-- A value that is found with a change. -/
theorem AllOrNothing.bind_some {x : ReaderT Context (EStateM Fault σ) PUnit}
    {k : PUnit → ReaderT Context (EStateM Fault σ) (Option β)} (hx : AllOrNothing c x)
    (hk : ∃ w, k ⟨⟩ = pure (some w)) : CommitsFound c (x >>= k) :=
  hx.commits_bind fun _ => hk.elim fun w h => ⟨some w, rfl, h⟩

theorem preserves_pure (v : α) : Preserves c (pure v : ReaderT Context (EStateM Fault σ) α) :=
  fun _ _ _ _ h => .inl h

theorem preserves_throw (e : Fault) : Preserves c (throw e : ReaderT Context (EStateM Fault σ) α) :=
  fun _ _ _ _ h => h

theorem preserves_mapM {xs : List β} {f : β → ReaderT Context (EStateM Fault σ) α}
    (hf : ∀ y, Preserves c (f y)) : Preserves c (xs.mapM f) := by
  induction xs with
  | nil => exact preserves_pure _
  | cons y ys ih =>
    rw [List.mapM_cons]
    exact (hf y).bind fun _ => ih.bind fun _ => preserves_pure _

theorem preserves_foldlM {xs : List β} {f : α → β → ReaderT Context (EStateM Fault σ) α} {v : α}
    (hf : ∀ v y, Preserves c (f v y)) : Preserves c (xs.foldlM f v) := by
  induction xs generalizing v with
  | nil => exact preserves_pure _
  | cons y ys ih =>
    rw [List.foldlM_cons]
    exact (hf v y).bind fun _ => ih

end Rules

section StoreActions

variable {α β : Type} {c : Container} {Q : α → Prop}

theorem preserves_get : Preserves c (get : Action Store) := fun _ _ _ _ h => .inl h

theorem preserves_read : Preserves c (read : Action Context) := fun _ _ _ _ h => .inl h

theorem preserves_model : Preserves c model := fun _ _ _ _ h => .inl h

theorem preserves_look (f : Store → α) : Preserves c (look f) := fun _ _ _ _ h => .inl h

/-- New objects change no container. -/
theorem preserves_make_of {f : Store → α × Store}
    (hf : ∀ (s : Store) x, s.Holds c x → (f s).2.Holds c x) : Preserves c (make f) :=
  fun _ _ s x h => .inl (hf s x h)

theorem preserves_make {f : Store → α × Store} (hf : ∀ s, (f s).2.containers = s.containers) :
    Preserves c (make f) :=
  preserves_make_of fun s _ h => s.holds_containers h (hf s)

/-- A change of the store that leaves the containers alone. -/
theorem preserves_modify {f : Store → Store} (hf : ∀ s, (f s).containers = s.containers) :
    Preserves c (modify f : Action Unit) :=
  fun _ _ s _ h => .inl (s.holds_containers h (hf s))

/-- In the form in which a change of the store stands before what follows. -/
theorem Preserves.modify_bind {f : Store → Store} {k : PUnit → Action α}
    (hf : ∀ s, (f s).containers = s.containers) (hk : Preserves c (k ⟨⟩)) :
    Preserves c (modify f >>= k) :=
  (preserves_modify hf).bind fun _ => hk

/-- Any change of the store succeeds. -/
theorem allOrNothing_modify (f : Store → Store) : AllOrNothing c (modify f : Action Unit) :=
  fun _ _ _ _ _ => .inr trivial

/-- An action ends in the state in which it was answered. -/
theorem preserves_of_endState {act : Action α}
    (h : ∀ ctx, ctx.Preserves c → ∀ (s : Store) x, s.Holds c x → (endState (act ctx s)).Holds c x) :
    Preserves c act := by
  intro ctx hc s x hx
  have h := h ctx hc s x hx
  cases hres : act ctx s with
  | ok v s' =>
    rw [hres] at h
    exact .inl h
  | error e s' =>
    rw [hres] at h
    exact h

theorem preserves_callWith (callee : Value) (args : List Value) (kwargs : List Keyword) :
    Preserves c (callWith callee args kwargs) :=
  preserves_of_endState fun _ hc s x hx => hc (.call callee args kwargs s) x hx

theorem preserves_call (callee : Value) (args : List Value) : Preserves c (call callee args) :=
  preserves_callWith callee args []

theorem preserves_resume (g : Nat) (r : Resumption) : Preserves c (resume g r) :=
  preserves_of_endState fun _ hc s x hx => hc (.resume g r s) x hx

theorem Preserves.attempt {act : Action α} (h : Preserves c act) : Preserves c (attempt act) := by
  refine preserves_of_endState fun ctx hc s x hx => ?_
  have h := h ctx hc s x hx
  rw [attempt_run]
  cases hres : act ctx s with
  | ok v s' =>
    rw [hres] at h
    exact h.resolve_right id
  | error e s' =>
    rw [hres] at h
    exact h

/-- An operation on the store does nothing else to a frame. -/
theorem Commits.inFrame {act : Action α} (h : Commits c act Q) : Commits c (inFrame act) Q := by
  intro ctx hc a x hx
  have h := h ctx hc a.store x hx
  unfold Machine.inFrame
  cases hres : act ctx a.store with
  | ok v s =>
    rw [hres] at h
    exact h
  | error e s =>
    rw [hres] at h
    exact h

theorem Preserves.lift {act : Action α} (h : Preserves c act) :
    Preserves c (liftM act : FrameAction α) :=
  h.inFrame

theorem AllOrNothing.lift {act : Action α} (h : AllOrNothing c act) :
    AllOrNothing c (liftM act : FrameAction α) :=
  h.inFrame

theorem preserves_frame : Preserves c frame := fun _ _ _ _ h => .inl h

theorem preserves_updateFrame (g : Frame → Frame) : Preserves c (updateFrame g) :=
  fun _ _ _ _ h => .inl h

end StoreActions

attribute [grind ←] Preserves.allOrNothing Preserves.bind Preserves.allOrNothing_bind
  Preserves.commitsFound Preserves.commitsFound_bind preserves_pure preserves_throw preserves_mapM
  preserves_foldlM preserves_get preserves_read preserves_model preserves_look preserves_make
  preserves_modify Preserves.modify_bind allOrNothing_modify AllOrNothing.bind_pure
  AllOrNothing.bind_some
  preserves_callWith preserves_call preserves_resume Preserves.attempt Preserves.lift
  AllOrNothing.lift preserves_frame preserves_updateFrame

section Operations

variable {α : Type} {c : Container}

/-! ## 3. New containers and generators -/

@[grind ←] theorem preserves_makeList (vs : Array Value) : Preserves c (make (Store.newList vs)) :=
  preserves_make_of fun _ _ h => h.newList vs

@[grind ←] theorem preserves_makeDict (ps : List (Value × Value)) :
    Preserves c (make (Store.newDict ps)) :=
  preserves_make_of fun _ _ h => h.newDict ps

@[grind ←] theorem preserves_makeSet (ms : List Value) : Preserves c (make (Store.newSet ms)) :=
  preserves_make_of fun _ _ h => h.newSet ms

@[grind ←] theorem preserves_newStr (t : String) :
    Preserves c (newStr t) :=
  preserves_make fun _ => rfl

@[grind ←] theorem preserves_newException (t : TypeId) (vs : List Value) :
    Preserves c (newException t vs) :=
  preserves_model.bind fun _ => preserves_make fun _ => rfl

@[grind ←] theorem preserves_raise (t : TypeId) (vs : List Value) :
    Preserves c (raise t vs : Action α) :=
  (preserves_newException t vs).bind fun _ => preserves_throw _

@[grind ←] theorem preserves_generator (g : Nat) : Preserves c (generator g) := preserves_look _

@[grind ←] theorem preserves_updateGenerator (g : Nat) (f : Generator → Generator) :
    Preserves c (updateGenerator g f) :=
  preserves_modify fun _ => rfl

@[grind ←] theorem preserves_dropLookahead (g : Nat) : Preserves c (dropLookahead g) :=
  preserves_updateGenerator g _

@[grind ←] theorem Preserves.guarded {act : Action α} (g : Nat) (h : Preserves c act) :
    Preserves c (guarded g act) := by
  unfold Machine.guarded
  grind

theorem preserves_hasNext (g : Nat) : Preserves c (hasNext g) := by
  unfold hasNext
  grind

theorem preserves_send (g : Nat) (v : Value) : Preserves c (send g v) := by
  unfold send
  grind

theorem preserves_close (g : Nat) : Preserves c (close g) := by
  unfold close
  refine .guarded g (.bind (preserves_dropLookahead g) fun _ =>
    .bind (preserves_generator g) fun x => ?_)
  split
  · refine .bind (preserves_newException _ _) fun exit =>
      .bind (preserves_resume g _).attempt fun outcome => ?_
    split
    · exact (preserves_updateGenerator g _).bind fun _ => (preserves_newStr _).bind fun _ =>
        preserves_raise _ _
    all_goals grind
  · exact (preserves_updateGenerator g _).bind fun _ => preserves_pure _

/-! ## 4. Gentle and steady actions -/

theorem GentleUnder.preserves {act : Action α} (h : GentleUnder .all act) : Preserves c act := by
  induction h with
  | pure v => exact preserves_pure v
  | throw _ => exact preserves_throw _
  | get => exact preserves_get
  | read => exact preserves_read
  | make hf =>
    refine preserves_make fun s => ?_
    obtain ⟨-, hrest⟩ := Prod.mk.inj (hf s)
    exact (Prod.mk.inj hrest).2
  | makeList items => exact preserves_makeList items
  | callWith callee args kwargs => exact preserves_callWith callee args kwargs
  | hasNext g => exact preserves_hasNext g
  | send g v => exact preserves_send g v
  | resumeThrow g e =>
    exact .guarded g ((preserves_dropLookahead g).bind fun _ => preserves_resume g _)
  | close g => exact preserves_close g
  | bind _ _ ihx ihf => exact ihx.bind ihf
  | attempt_bind _ _ _ ihx ihok iherror =>
    refine ihx.attempt.bind fun outcome => ?_
    cases outcome with
    | ok v => exact ihok v
    | error e => exact iherror e trivial

theorem Gentle.preserves {act : Action α} (h : Gentle act) : Preserves c act := (h .all).preserves

theorem Steady.preserves {act : FrameAction α} (h : Steady act) : Preserves c act := by
  induction h with
  | pure v => exact preserves_pure v
  | throw e => exact preserves_throw e
  | frame => exact preserves_frame
  | updateFrame g => exact preserves_updateFrame g
  | inFrame h => exact h.preserves.inFrame
  | bind _ _ ihx ihk => exact ihx.bind ihk

@[grind ←] theorem preserves_pop : Preserves c pop := steady_pop.preserves

/-- New objects that are no list, mapping or set. -/
theorem preserves_make_settled {f : Store → α × Store} (hf : ∀ s, (f s).2.settled = s.settled) :
    Preserves c (make f) :=
  (gentle_make hf).preserves

attribute [grind ←] preserves_make_settled

-- what is known to be gentle or steady preserves containers
grind_pattern Gentle.preserves => Gentle act, Preserves c act
grind_pattern Steady.preserves => Steady act, Preserves c act

end Operations

end Machine

end Stackwise
