import Stackwise.Proofs.Machine.KeyLists
import Stackwise.Proofs.Machine.RunningGenerators

/-!
# Tidy operations

In a tidy store the keys of every mapping are apart, and the members of every set. What it takes for
an action to keep a store tidy, for actions on the store and for those on a frame, and that the
operations on values do.

* `Store.Tidy`: such stores. `Store.tidy_collections`: no other part of a store matters.
* `Tidy`, `Supplies`: actions that keep a store tidy as long as calls and resumptions do so, and those
  that give a value with a property besides.
* The rules for them are tagged for `grind`: an action made of tidy ones is tidy by unfolding it.
* `Gentle.tidy`, `Steady.tidy`: gentle and steady actions are tidy. The operations from section 6 on
  are those that are not gentle.
* `tidy_setItem`, `tidy_mergeInto`, `supplies_buildPairs`: pairs are added under a key that is looked
  for first. `tidy_delItem`, `supplies_erase`: pairs are taken out.
* `supplies_addMember`, `tidy_sequence`: members are added one by one, or as an operator on sets
  gives them.
* `tidy_dictMethod`, `tidy_setMethod`: the methods of mappings and sets.
-/

namespace Stackwise

/-! ## 1. Tidy stores -/

/-- No two members of a set are equal, and no two keys of a mapping but for those that are
tolerated. -/
structure Store.Tidy (T : Value → Value → Prop) (s : Store) : Prop where
  dicts : ∀ pairs ∈ s.dicts.rows, Apart T (pairs.map (·.1))
  sets : ∀ members ∈ s.sets.rows, Apart (fun _ _ => False) members

/-- The mappings and the sets of a store. -/
def Store.collections (s : Store) : Table (List (Value × Value)) × Table (List Value) :=
  (s.dicts, s.sets)

namespace Table

variable {α : Type} {t : Table α} {i : Nat} {a x : α}

theorem mem_get [Inhabited α] (i : Nat) : t.get i ∈ t.rows ∨ t.get i = default := by
  unfold get
  rw [Array.getD_eq_getD_getElem?]
  cases h : t.rows[i]? with
  | none => exact .inr rfl
  | some a => exact .inl (Array.mem_of_getElem? h)

theorem mem_add (h : x ∈ (t.add a).2.rows) : x ∈ t.rows ∨ x = a := Array.mem_push.mp h

theorem mem_put (h : x ∈ (t.put i a).rows) : x ∈ t.rows ∨ x = a := by
  obtain ⟨j, hj⟩ := Array.mem_iff_getElem?.mp h
  rw [put, Array.getElem?_setIfInBounds] at hj
  split at hj
  · split at hj
    · cases hj
      exact .inr rfl
    · cases hj
  · exact .inl (Array.mem_of_getElem? hj)

end Table

namespace Store

variable {T : Value → Value → Prop} {s s' : Store} {r : Nat}
  {pairs : List (Value × Value)} {members : List Value}

theorem tidy_empty : Tidy T {} :=
  ⟨fun _ h => absurd h (Array.not_mem_empty _), fun _ h => absurd h (Array.not_mem_empty _)⟩

theorem tidy_collections (h : s.Tidy T) (hs : s'.collections = s.collections) : s'.Tidy T := by
  obtain ⟨hdicts, hsets⟩ := Prod.mk.inj hs
  exact ⟨hdicts ▸ h.dicts, hsets ▸ h.sets⟩

theorem Tidy.getDict (h : s.Tidy T) (r : Nat) : Apart T ((s.dicts.get r).map (·.1)) := by
  rcases s.dicts.mem_get r with hr | hr
  · exact h.dicts _ hr
  · rw [hr]
    exact .nil

theorem Tidy.getSet (h : s.Tidy T) (r : Nat) : Apart (fun _ _ => False) (s.sets.get r) := by
  rcases s.sets.mem_get r with hr | hr
  · exact h.sets _ hr
  · rw [hr]
    exact .nil

theorem Tidy.newDict (h : s.Tidy T) (hp : Apart T (pairs.map (·.1))) :
    (s.newDict pairs).2.Tidy T := by
  refine ⟨fun ps hps => ?_, h.sets⟩
  rcases Table.mem_add hps with hps | rfl
  · exact h.dicts ps hps
  · exact hp

theorem Tidy.newSet (h : s.Tidy T) (hm : Apart (fun _ _ => False) members) :
    (s.newSet members).2.Tidy T := by
  refine ⟨h.dicts, fun ms hms => ?_⟩
  rcases Table.mem_add hms with hms | rfl
  · exact h.sets ms hms
  · exact hm

theorem Tidy.putDict (h : s.Tidy T) (hp : Apart T (pairs.map (·.1))) :
    Tidy T { s with dicts := s.dicts.put r pairs } := by
  refine ⟨fun ps hps => ?_, h.sets⟩
  rcases Table.mem_put hps with hps | rfl
  · exact h.dicts ps hps
  · exact hp

theorem Tidy.putSet (h : s.Tidy T) (hm : Apart (fun _ _ => False) members) :
    Tidy T { s with sets := s.sets.put r members } := by
  refine ⟨h.dicts, fun ms hms => ?_⟩
  rcases Table.mem_put hms with hms | rfl
  · exact h.sets ms hms
  · exact hm

end Store

/-- Calls and resumptions leave a tidy store tidy. -/
structure Context.Tidy (T : Value → Value → Prop) (ctx : Context) : Prop where
  call : ∀ v args kwargs (s : Store), s.Tidy T → (endState (ctx.call v args kwargs s)).Tidy T
  resume : ∀ g r (s : Store), s.Tidy T → (endState (ctx.resume g r s)).Tidy T

/-! ## 2. Tidy actions -/

/-- States of actions that hold a store. -/
class HasStore (σ : Type) where
  /-- The store. -/
  store : σ → Store

instance : HasStore Store := ⟨id⟩

instance : HasStore Activation := ⟨Activation.store⟩

namespace Machine

/-- From a tidy store the action ends in a tidy one, and what it gives has the property. -/
def Supplies {σ α : Type} [HasStore σ] (T : Value → Value → Prop)
    (act : ReaderT Context (EStateM Fault σ) α) (Q : α → Prop) : Prop :=
  ∀ ctx, ctx.Tidy T → ∀ a, (HasStore.store a).Tidy T → match act ctx a with
    | .ok v a' => (HasStore.store a').Tidy T ∧ Q v
    | .error _ a' => (HasStore.store a').Tidy T

/-- From a tidy store the action ends in a tidy one. -/
def Tidy {σ α : Type} [HasStore σ] (T : Value → Value → Prop)
    (act : ReaderT Context (EStateM Fault σ) α) : Prop := Supplies T act fun _ => True

section Rules

variable {σ α β : Type} [HasStore σ] {T : Value → Value → Prop} {Q : α → Prop}
  {x : ReaderT Context (EStateM Fault σ) α} {k : α → ReaderT Context (EStateM Fault σ) β}

theorem Supplies.bind {P : β → Prop} (hx : Supplies T x Q) (hk : ∀ v, Q v → Supplies T (k v) P) :
    Supplies T (x >>= k) P := by
  intro ctx hc a ha
  have h := hx ctx hc a ha
  rw [run_bind]
  cases hres : x ctx a with
  | ok v a' =>
    rw [hres] at h
    exact hk v h.2 ctx hc a' h.1
  | error e a' =>
    rw [hres] at h
    exact h

theorem Supplies.mono {P : α → Prop} (hx : Supplies T x Q) (h : ∀ v, Q v → P v) : Supplies T x P := by
  intro ctx hc a ha
  have hx := hx ctx hc a ha
  cases hres : x ctx a with
  | ok v a' =>
    rw [hres] at hx
    exact ⟨hx.1, h v hx.2⟩
  | error e a' =>
    rw [hres] at hx
    exact hx

theorem Supplies.tidy (hx : Supplies T x Q) : Tidy T x := hx.mono fun _ _ => trivial

theorem supplies_pure {v : α} (hv : Q v) :
    Supplies T (pure v : ReaderT Context (EStateM Fault σ) α) Q :=
  fun _ _ _ ha => ⟨ha, hv⟩

theorem supplies_throw (e : Fault) : Supplies T (throw e : ReaderT Context (EStateM Fault σ) α) Q :=
  fun _ _ _ ha => ha

/-- What is done with a value of a known property. -/
theorem Supplies.tidy_bind (hx : Supplies T x Q) (hk : ∀ v, Q v → Tidy T (k v)) :
    Tidy T (x >>= k) :=
  hx.bind hk

theorem tidy_pure (v : α) : Tidy T (pure v : ReaderT Context (EStateM Fault σ) α) :=
  supplies_pure trivial

theorem tidy_throw (e : Fault) : Tidy T (throw e : ReaderT Context (EStateM Fault σ) α) :=
  supplies_throw e

theorem Tidy.bind (hx : Tidy T x) (hk : ∀ v, Tidy T (k v)) : Tidy T (x >>= k) :=
  hx.tidy_bind fun v _ => hk v

theorem Tidy.supplies_bind {P : β → Prop} (hx : Tidy T x) (hk : ∀ v, Supplies T (k v) P) :
    Supplies T (x >>= k) P :=
  Supplies.bind hx fun v _ => hk v

theorem tidy_ite {p : Prop} [Decidable p] {y : ReaderT Context (EStateM Fault σ) α}
    (hx : Tidy T x) (hy : Tidy T y) : Tidy T (if p then x else y) := by
  split
  · exact hx
  · exact hy

theorem tidy_mapM {xs : List β} {f : β → ReaderT Context (EStateM Fault σ) α}
    (hf : ∀ y, Tidy T (f y)) : Tidy T (xs.mapM f) := by
  induction xs with
  | nil => exact tidy_pure _
  | cons y ys ih =>
    rw [List.mapM_cons]
    exact (hf y).bind fun _ => ih.bind fun _ => tidy_pure _

theorem tidy_foldlM {xs : List β} {f : α → β → ReaderT Context (EStateM Fault σ) α} {v : α}
    (hf : ∀ v y, Tidy T (f v y)) : Tidy T (xs.foldlM f v) := by
  induction xs generalizing v with
  | nil => exact tidy_pure _
  | cons y ys ih =>
    rw [List.foldlM_cons]
    exact (hf v y).bind fun _ => ih

/-- A loop that keeps a property of what it builds. -/
theorem supplies_foldlM {xs : List β} {f : α → β → ReaderT Context (EStateM Fault σ) α} {v : α}
    (hv : Q v) (hf : ∀ v y, Q v → Supplies T (f v y) Q) : Supplies T (xs.foldlM f v) Q := by
  induction xs generalizing v with
  | nil => exact supplies_pure hv
  | cons y ys ih =>
    rw [List.foldlM_cons]
    exact (hf v y hv).bind fun _ hw => ih hw

end Rules

/-! ## 3. Actions on the store -/

variable {α β : Type} {T : Value → Value → Prop} {Q : α → Prop}

theorem tidy_get : Tidy T (get : Action Store) := fun _ _ _ hs => ⟨hs, trivial⟩

theorem tidy_read : Tidy T (read : Action Context) := fun _ _ _ hs => ⟨hs, trivial⟩

theorem tidy_model : Tidy T model := fun _ _ _ hs => ⟨hs, trivial⟩

/-- What is looked up in a tidy store. -/
theorem supplies_look {f : Store → α} (hf : ∀ s : Store, s.Tidy T → Q (f s)) :
    Supplies T (look f) Q :=
  fun _ _ s hs => ⟨hs, hf s hs⟩

theorem tidy_look (f : Store → α) : Tidy T (look f) := supplies_look fun _ _ => trivial

theorem tidy_make_of {f : Store → α × Store} (hf : ∀ s : Store, s.Tidy T → (f s).2.Tidy T) :
    Tidy T (make f) :=
  fun _ _ s hs => ⟨hf s hs, trivial⟩

/-- A change of the store that leaves the collections alone. -/
theorem tidy_make {f : Store → α × Store} (hf : ∀ s, (f s).2.collections = s.collections) :
    Tidy T (make f) :=
  tidy_make_of fun s hs => s.tidy_collections hs (hf s)

theorem tidy_modify_of {f : Store → Store} (hf : ∀ s : Store, s.Tidy T → (f s).Tidy T) :
    Tidy T (modify f : Action Unit) :=
  fun _ _ s hs => ⟨hf s hs, trivial⟩

theorem tidy_modify {f : Store → Store} (hf : ∀ s, (f s).collections = s.collections) :
    Tidy T (modify f : Action Unit) :=
  tidy_modify_of fun s hs => s.tidy_collections hs (hf s)

/-- In the form in which a change of the store stands before what follows. -/
theorem Tidy.modify_bind {f : Store → Store} {k : PUnit → Action α}
    (hf : ∀ s, (f s).collections = s.collections) (hk : Tidy T (k ⟨⟩)) :
    Tidy T (modify f >>= k) :=
  (tidy_modify hf).bind fun _ => hk

/-- An action ends in the state in which it was answered. -/
theorem tidy_of_endState {act : Action α}
    (h : ∀ ctx, ctx.Tidy T → ∀ s : Store, s.Tidy T → (endState (act ctx s)).Tidy T) :
    Tidy T act := by
  intro ctx hc s hs
  have h := h ctx hc s hs
  cases hres : act ctx s with
  | ok v s' =>
    rw [hres] at h
    exact ⟨h, trivial⟩
  | error e s' =>
    rw [hres] at h
    exact h

theorem Tidy.ends {act : Action α} (h : Tidy T act) {ctx : Context} (hc : ctx.Tidy T)
    {s : Store} (hs : s.Tidy T) : (endState (act ctx s)).Tidy T := by
  have h := h ctx hc s hs
  cases hres : act ctx s with
  | ok v s' =>
    rw [hres] at h
    exact h.1
  | error e s' =>
    rw [hres] at h
    exact h

theorem tidy_callWith (callee : Value) (args : List Value) (kwargs : List Keyword) :
    Tidy T (callWith callee args kwargs) :=
  tidy_of_endState fun _ hc s hs => hc.call callee args kwargs s hs

theorem tidy_call (callee : Value) (args : List Value) : Tidy T (call callee args) :=
  tidy_callWith callee args []

theorem tidy_resume (g : Nat) (r : Resumption) : Tidy T (resume g r) :=
  tidy_of_endState fun _ hc s hs => hc.resume g r s hs

theorem Tidy.attempt {act : Action α} (h : Tidy T act) : Tidy T (attempt act) := by
  refine tidy_of_endState fun ctx hc s hs => ?_
  have h := h.ends hc hs
  rw [attempt_run]
  cases hres : act ctx s with
  | ok v s' | error e s' =>
    rw [hres] at h
    exact h

/-! ## 4. Actions on a frame -/

/-- An operation on the store does nothing else to a frame. -/
theorem Supplies.inFrame {act : Action α} (h : Supplies T act Q) : Supplies T (inFrame act) Q := by
  intro ctx hc a ha
  have h := h ctx hc a.store ha
  unfold Machine.inFrame
  cases hres : act ctx a.store with
  | ok v s =>
    rw [hres] at h
    exact h
  | error e s =>
    rw [hres] at h
    exact h

theorem Supplies.lift {act : Action α} (h : Supplies T act Q) :
    Supplies T (liftM act : FrameAction α) Q :=
  h.inFrame

theorem Tidy.inFrame {act : Action α} (h : Tidy T act) : Tidy T (inFrame act) := Supplies.inFrame h

theorem Tidy.lift {act : Action α} (h : Tidy T act) : Tidy T (liftM act : FrameAction α) :=
  h.inFrame

theorem tidy_frame : Tidy T frame := fun _ _ _ ha => ⟨ha, trivial⟩

theorem tidy_updateFrame (g : Frame → Frame) : Tidy T (updateFrame g) :=
  fun _ _ _ ha => ⟨ha, trivial⟩

@[grind =] theorem collections_eq (s : Store) : s.collections = (s.dicts, s.sets) := rfl

attribute [grind ←] tidy_pure tidy_throw Tidy.bind tidy_mapM tidy_foldlM tidy_get tidy_read
  tidy_model tidy_look tidy_make tidy_modify Tidy.modify_bind tidy_callWith tidy_call
  tidy_resume Tidy.attempt Tidy.inFrame Tidy.lift tidy_frame tidy_updateFrame

/-! ## 5. Generators and gentle actions -/

@[grind ←] theorem tidy_generator (g : Nat) : Tidy T (generator g) := tidy_look _

@[grind ←] theorem tidy_updateGenerator (g : Nat) (f : Generator → Generator) :
    Tidy T (updateGenerator g f) :=
  tidy_modify fun _ => rfl

@[grind ←] theorem tidy_exhaust (g : Nat) : Tidy T (exhaust g) := tidy_updateGenerator g _

@[grind ←] theorem tidy_dropLookahead (g : Nat) : Tidy T (dropLookahead g) :=
  tidy_updateGenerator g _

@[grind ←] theorem Tidy.guarded {act : Action α} (g : Nat) (h : Tidy T act) :
    Tidy T (guarded g act) := by
  unfold Machine.guarded
  grind

@[grind ←] theorem tidy_hasNext (g : Nat) : Tidy T (hasNext g) := by
  unfold hasNext
  grind

@[grind ←] theorem tidy_send (g : Nat) (v : Value) : Tidy T (send g v) := by
  unfold send
  grind

@[grind ←] theorem tidy_newException (t : TypeId) (vs : List Value) : Tidy T (newException t vs) :=
  tidy_model.bind fun _ => tidy_make fun _ => rfl

@[grind ←] theorem tidy_newStr (t : String) : Tidy T (newStr t) :=
  tidy_make fun _ => rfl

@[grind ←] theorem tidy_raise (t : TypeId) (vs : List Value) : Tidy T (raise t vs : Action α) :=
  (tidy_newException t vs).bind fun _ => tidy_throw _

@[grind ←] theorem tidy_close (g : Nat) : Tidy T (close g) := by
  unfold close
  refine Tidy.guarded g (.bind (tidy_dropLookahead g) fun _ => .bind (tidy_generator g) fun x => ?_)
  split
  · refine .bind (tidy_newException _ _) fun exit =>
      .bind (tidy_resume g _).attempt fun outcome => ?_
    split
    · exact (tidy_exhaust g).bind fun _ => (tidy_newStr _).bind fun _ => tidy_raise _ _
    all_goals grind
  · grind

theorem GentleUnder.tidy {act : Action α} (h : GentleUnder .all act) : Tidy T act := by
  induction h with
  | pure v => exact tidy_pure v
  | throw _ => exact tidy_throw _
  | get => exact tidy_get
  | read => exact tidy_read
  | make hf =>
    refine tidy_make fun s => ?_
    obtain ⟨-, hrest⟩ := Prod.mk.inj (hf s)
    exact (Prod.mk.inj (Prod.mk.inj hrest).2).2
  | makeList items => exact tidy_make fun _ => rfl
  | callWith callee args kwargs => exact tidy_callWith callee args kwargs
  | hasNext g => exact tidy_hasNext g
  | send g v => exact tidy_send g v
  | resumeThrow g e => exact .guarded g ((tidy_dropLookahead g).bind fun _ => tidy_resume g _)
  | close g => exact tidy_close g
  | bind _ _ ihx ihf => exact ihx.bind ihf
  | attempt_bind _ _ _ ihx ihok iherror =>
    refine ihx.attempt.bind fun outcome => ?_
    cases outcome with
    | ok v => exact ihok v
    | error e => exact iherror e trivial

theorem Gentle.tidy {act : Action α} (h : Gentle act) : Tidy T act := (h .all).tidy

theorem Steady.tidy {act : FrameAction α} (h : Steady act) : Tidy T act := by
  induction h with
  | pure v => exact tidy_pure v
  | throw e => exact tidy_throw e
  | frame => exact tidy_frame
  | updateFrame g => exact tidy_updateFrame g
  | inFrame h => exact h.tidy.inFrame
  | bind _ _ ihx ihk => exact ihx.bind ihk

/-- New objects that are no list, mapping or set. -/
theorem tidy_make_settled {f : Store → α × Store} (hf : ∀ s, (f s).2.settled = s.settled) :
    Tidy T (make f) :=
  (gentle_make hf).tidy

attribute [grind ←] tidy_make_settled

-- what is known to be gentle or steady is tidy
grind_pattern Gentle.tidy => Gentle act, Tidy T act
grind_pattern Steady.tidy => Steady act, Tidy T act

/-! ## 6. Checks of values -/

/-- What is never answered has every property. -/
theorem supplies_raiseText {Q : α → Prop} (t : TypeId) (m : String) :
    Supplies T (raiseText t m : Action α) Q :=
  (gentle_newStr m).tidy.supplies_bind fun _ => (tidy_newException _ _).supplies_bind fun _ =>
    supplies_throw _

/-- What passes the check can be a key. -/
theorem supplies_checkHashable (v : Value) :
    Supplies T (checkHashable v) fun _ => v.isHashable = true := by
  unfold checkHashable
  cases hv : v.isHashable with
  | true => exact supplies_pure rfl
  | false => exact (gentle_typeName v).tidy.supplies_bind fun _ => supplies_raiseText _ _

theorem supplies_addMember {ms : List Value} (h : Apart (fun _ _ => False) ms) (v : Value) :
    Supplies T (addMember ms v) (Apart fun _ _ => False) := by
  unfold addMember
  exact (supplies_checkHashable v).bind fun _ hv => supplies_look fun s _ => h.addMember hv

/-! ## 7. Subscripts -/

/-- The pairs of a mapping. -/
theorem supplies_getDict (r : Nat) :
    Supplies T (look fun s => s.dicts.get r) fun ps => Apart T (ps.map (·.1)) :=
  supplies_look fun _ hs => hs.getDict r

/-- The members of a set. -/
theorem supplies_getSet (r : Nat) :
    Supplies T (look fun s => s.sets.get r) (Apart fun _ _ => False) :=
  supplies_look fun _ hs => hs.getSet r

/-- What is left of a mapping without a key. -/
theorem supplies_erase (r : Nat) (k : Value) : Supplies T (look fun s => s.erase? (s.dicts.get r) k)
    fun found => ∀ p ∈ found, Apart T (p.2.map (·.1)) :=
  supplies_look fun _ hs _ hp => (hs.getDict r).erase hp

@[grind ←] theorem tidy_setItem (c k v : Value) : Tidy T (setItem c k v) := by
  unfold setItem
  split
  case h_3 r =>
    refine (supplies_checkHashable k).tidy_bind fun _ hk => tidy_modify_of fun s hs => ?_
    exact hs.putDict ((hs.getDict r).insert hk)
  all_goals grind

@[grind ←] theorem tidy_delItem (c k : Value) : Tidy T (delItem c k) := by
  unfold delItem
  split
  case h_3 r =>
    refine (supplies_erase r k).tidy_bind fun found hfound => ?_
    split
    · exact tidy_modify_of fun s hs => hs.putDict (hfound _ rfl)
    · exact (gentle_keyError k).tidy
  all_goals grind

/-! ## 8. Formatting and operators -/

@[grind ←] theorem tidy_sequenceProduct (l r : Value) (b : Bool) :
    Tidy T (sequenceProduct? l r b) := by
  unfold sequenceProduct?
  grind

@[grind ←] theorem tidy_sequence (op : BinaryOp) (l r : Value) (b : Bool) :
    Tidy T (sequence? op l r b) := by
  unfold sequence?
  split
  case h_7 x y =>
    refine (supplies_look (Q := fun ps => Apart T (ps.map (·.1))) fun s hs => ?_).tidy_bind
      fun ps hps => ?_
    · exact (hs.getDict x).insertAll fun p hp => (hs.getDict y).hashable _ (List.mem_map_of_mem hp)
    · split
      · exact (tidy_modify_of fun s hs => hs.putDict hps).bind fun _ => tidy_pure _
      · exact (tidy_make_of fun s hs => hs.newDict hps).bind fun _ => tidy_pure _
  case h_8 x y _ =>
    split
    · refine (supplies_look (Q := Apart fun _ _ => False) fun s hs => ?_).tidy_bind fun ms hms => ?_
      · exact (hs.getSet x).setMembers (hs.getSet y) op
      · exact (tidy_make_of fun s hs => hs.newSet hms).bind fun _ => tidy_pure _
    · exact tidy_pure _
  all_goals grind

@[grind ←] theorem tidy_binary (op : BinaryOp) (l r : Value) (b : Bool) :
    Tidy T (binary op l r b) := by
  unfold binary
  refine (gentle_arith _).tidy.bind fun found => ?_
  split
  · grind
  · refine (tidy_sequence op l r b).bind fun found => ?_
    grind

/-! ## 9. Methods -/

@[grind ←] theorem tidy_putList (r : Nat) (vs : Array Value) : Tidy T (putList r vs) := by
  unfold putList
  grind

@[grind ←] theorem tidy_listMethod (r : Nat) (n : String) (args : List Value) :
    Tidy T (listMethod? r n args) := by
  unfold listMethod?
  dsimp only
  split
  case h_4 =>
    refine (gentle_arity _ _ _ _).tidy.bind fun _ => (tidy_look _).bind fun old => ?_
    split
    · grind
    · split <;> grind
  all_goals grind

@[grind ←] theorem tidy_sortList (r : Nat) (args : List Value) (ks : List Keyword) :
    Tidy T (sortList r args ks) := by
  unfold sortList
  refine (gentle_onlyKeywords _ _ _).tidy.bind fun _ => (gentle_arity _ _ _ _).tidy.bind fun _ =>
    (tidy_look _).bind fun items => ?_
  split <;> grind

@[grind ←] theorem tidy_dictMethod (r : Nat) (n : String) (args : List Value) :
    Tidy T (dictMethod? r n args) := by
  unfold dictMethod?
  dsimp only
  split
  case h_5 =>
    refine (gentle_arity _ _ _ _).tidy.bind fun _ =>
      (supplies_erase r _).tidy_bind fun found hfound => ?_
    split
    · exact (tidy_modify_of fun s hs => hs.putDict (hfound _ rfl)).bind fun _ => tidy_pure _
    · exact tidy_pure _
    · exact (gentle_keyError _).tidy
  case h_6 =>
    refine (gentle_arity _ _ _ _).tidy.bind fun _ => (supplies_getDict r).tidy_bind fun ps hps => ?_
    exact (tidy_make_of fun s hs => hs.newDict hps).bind fun _ => tidy_pure _
  all_goals grind

@[grind ←] theorem tidy_setMethod (r : Nat) (n : String) (args : List Value) :
    Tidy T (setMethod? r n args) := by
  unfold setMethod?
  split
  · refine (gentle_arity _ _ _ _).tidy.bind fun _ => (supplies_getSet r).tidy_bind fun ms hms => ?_
    refine (supplies_addMember hms _).tidy_bind fun ms' hms' => ?_
    exact (tidy_modify_of fun s hs => hs.putSet hms').bind fun _ => tidy_pure _
  · refine (gentle_arity _ _ _ _).tidy.bind fun _ => ?_
    refine (supplies_look (Q := Apart fun _ _ => False) fun s hs => ?_).tidy_bind fun ms hms => ?_
    · exact (hs.getSet r).sublist List.eraseP_sublist
    · exact (tidy_modify_of fun s hs => hs.putSet hms).bind fun _ => tidy_pure _
  · exact tidy_pure _

@[grind ←] theorem tidy_kindMethod (v : Value) (n : String) (args : List Value) :
    Tidy T (kindMethod? v n args) := by
  unfold kindMethod?
  grind

@[grind ←] theorem tidy_withOne (n : String) (args : List Value) {act : Value → Action α}
    (h : ∀ v, Tidy T (act v)) : Tidy T (withOne n args act) := by
  unfold withOne
  grind

theorem tidy_operatorMethod {v : Value} {n : String} {args : List Value} {act : Action Value}
    (h : operatorMethod? v n args = some act) : Tidy T act := by
  unfold operatorMethod? at h
  split at h
  · cases h
    grind
  · split at h
    · cases h
      grind
    · split at h
      · cases h
        grind
      · obtain ⟨op, -, rfl⟩ := Option.map_eq_some_iff.mp h
        grind

theorem tidy_protocolMethod {v : Value} {n : String} {args : List Value} {act : Action Value}
    (h : protocolMethod? v n args = some act) : Tidy T act := by
  unfold protocolMethod? at h
  grind

theorem tidy_specialMethod {v : Value} {n : String} {args : List Value} {act : Action Value}
    (h : specialMethod? v n args = some act) : Tidy T act := by
  unfold specialMethod? at h
  split at h
  · rcases Option.or_eq_some_iff.mp h with h | ⟨-, h⟩
    · exact tidy_operatorMethod h
    · exact tidy_protocolMethod h
  · cases h

@[grind ←] theorem tidy_callPlainMethod (v : Value) (n : String) (args : List Value) :
    Tidy T (callPlainMethod v n args) := by
  unfold callPlainMethod
  refine .bind (tidy_kindMethod v n args) fun found => ?_
  split
  · grind
  · split
    · exact tidy_specialMethod ‹_›
    · grind

@[grind ←] theorem tidy_callTypeMethod (v : Value) (n : String) (args : List Value)
    (ks : List Keyword) : Tidy T (callTypeMethod v n args ks) := by
  unfold callTypeMethod
  grind

@[grind ←] theorem tidy_callMethod (v : Value) (n : String) (args : List Value) :
    Tidy T (callMethod v n args) := by
  unfold callMethod
  grind

/-! ## 10. Builtin functions -/

@[grind ←] theorem tidy_sum (args : List Value) (ks : List Keyword) : Tidy T (sum args ks) := by
  unfold sum
  grind

@[grind ←] theorem tidy_callPlainBuiltin (n : String) (args : List Value) :
    Tidy T (callPlainBuiltin n args) := by
  unfold callPlainBuiltin
  grind

@[grind ←] theorem tidy_callBuiltin (n : String) (args : List Value) (ks : List Keyword) :
    Tidy T (callBuiltin n args ks) := by
  unfold callBuiltin
  grind

/-! ## 11. Parts of instructions -/

theorem supplies_buildPairs (ps : List (Value × Value)) :
    Supplies T (buildPairs ps) fun ps => Apart T (ps.map (·.1)) := by
  unfold buildPairs
  refine supplies_foldlM .nil fun ps p hps => ?_
  exact (supplies_checkHashable p.1).bind fun _ hk => supplies_look fun s _ => hps.insert hk

theorem tidy_mergeInto (r : Nat) (b : Bool) {ps : List (Value × Value)}
    (h : ∀ p ∈ ps, p.1.isHashable = true) : Tidy T (mergeInto r b ps) := by
  induction ps with
  | nil => exact tidy_pure _
  | cons p ps ih =>
    have hrest : Tidy T (do
        modify fun s => { s with dicts := s.dicts.put r (s.insert (s.dicts.get r) p.1 p.2) }
        mergeInto r b ps : Action Unit) := by
      refine (tidy_modify_of fun s hs => ?_).bind fun _ =>
        ih fun q hq => h q (List.mem_cons_of_mem _ hq)
      exact hs.putDict ((hs.getDict r).insert (h p List.mem_cons_self))
    unfold mergeInto
    grind

@[grind ←] theorem tidy_update_appendTo (r : Nat) (vs : Array Value) :
    Tidy T (update.appendTo r vs) := by
  unfold update.appendTo
  grind

@[grind ←] theorem tidy_update_addTo (r : Nat) (vs : List Value) : Tidy T (update.addTo r vs) := by
  unfold update.addTo
  refine (supplies_getSet r).tidy_bind fun ms hms => ?_
  refine (supplies_foldlM hms fun ms v hms => supplies_addMember hms v).tidy_bind fun ms' hms' => ?_
  exact tidy_modify_of fun s hs => hs.putSet hms'

end Machine

end Stackwise
