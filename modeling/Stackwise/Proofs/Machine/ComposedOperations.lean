import Stackwise.Proofs.Machine.GentleOperations

/-!
# Composed operations

An operation on values is put together from a few steps: it looks at the store, changes what is no
generator, calls a value, or takes part in the protocol of generators.

* `Composed`: the actions that are put together in this way, with the faults that they may raise of
  their own accord. The rules are tagged for `grind`, so that an action made of composed ones is
  composed by unfolding it.
* `Gentle.composed`: gentle actions are composed. `Composed.calm`: composed actions are calm.
* One statement for each operation that an instruction can come to and that is not gentle: those that
  change a list, a mapping or a set, or make a mapping or a set. Each follows from the rules along
  the definition.
-/

namespace Stackwise

namespace Store

/-- What a store says about the machine itself: the generators, and how deep frames are nested. -/
@[grind =] def machinery (s : Store) : Table Generator × Nat := (s.generators, s.depth)

@[grind =] theorem machinery_newDict (s : Store) (ps : List (Value × Value)) :
    (s.newDict ps).2.machinery = s.machinery := rfl

@[grind =] theorem machinery_newSet (s : Store) (vs : List Value) :
    (s.newSet vs).2.machinery = s.machinery := rfl

end Store

namespace Machine

/-! ## 1. Rules -/

/-- The actions that touch generators by their protocol only, and raise tolerated faults of their
own accord. What a fault as a value goes on with may rely on it being tolerated. -/
inductive Composed (W : Tolerance) : {α : Type} → Action α → Prop where
  | pure {α : Type} (a : α) : Composed W (pure a : Action α)
  | throw {α : Type} {e : Fault} (he : W.fault e) : Composed W (throw e : Action α)
  | get : Composed W (get : Action Store)
  | read : Composed W (read : Action Context)
  | make {α : Type} {f : Store → α × Store} (hf : ∀ s, (f s).2.machinery = s.machinery) :
      Composed W (make f)
  | callWith (callee : Value) (args : List Value) (kwargs : List Keyword) :
      Composed W (callWith callee args kwargs)
  | hasNext (g : Nat) : Composed W (hasNext g)
  | send (g : Nat) (v : Value) : Composed W (send g v)
  | resumeThrow (g : Nat) (e : Raised) : Composed W (guarded g do
      dropLookahead g
      resume g (.throw e))
  | close (g : Nat) : Composed W (close g)
  | bind {α β : Type} {x : Action β} {f : β → Action α} (hx : Composed W x)
      (hf : ∀ a, Composed W (f a)) : Composed W (x >>= f)
  | attempt_bind {α β : Type} {x : Action β} {f : Except Fault β → Action α} (hx : Composed W x)
      (hok : ∀ a, Composed W (f (.ok a))) (herror : ∀ e, W.fault e → Composed W (f (.error e))) :
      Composed W (attempt x >>= f)

variable {W : Tolerance} {α β : Type}

theorem Composed.calm {act : Action α} (h : Composed W act) : Calm W act := by
  induction h with
  | pure a => exact calm_pure a
  | throw he => exact calm_throw he
  | get => exact calm_get
  | read => exact calm_read
  | make hf => exact calm_make fun s => congrArg Prod.fst (hf s)
  | callWith callee args kwargs => exact calm_callWith callee args kwargs
  | hasNext g => exact calm_hasNext g
  | send g v => exact calm_send g v
  | resumeThrow g e => exact calm_resumeThrow g e
  | close g => exact calm_close g
  | bind _ _ ihx ihf => exact ihx.bind ihf
  | attempt_bind _ _ _ ihx ihok iherror => exact ihx.attempt_bind ihok iherror

theorem GentleUnder.composed {act : Action α} (h : GentleUnder W act) : Composed W act := by
  induction h with
  | pure a => exact .pure a
  | throw he => exact .throw he
  | get => exact .get
  | read => exact .read
  | make hf =>
    refine .make fun s => ?_
    obtain ⟨hgenerators, hrest⟩ := Prod.mk.inj (hf s)
    exact Prod.ext hgenerators (Prod.mk.inj hrest).1
  | makeList items => exact .make fun _ => rfl
  | callWith callee args kwargs => exact .callWith callee args kwargs
  | hasNext g => exact .hasNext g
  | send g v => exact .send g v
  | resumeThrow g e => exact .resumeThrow g e
  | close g => exact .close g
  | bind _ _ ihx ihf => exact ihx.bind ihf
  | attempt_bind _ _ _ ihx ihok iherror => exact ihx.attempt_bind ihok iherror

theorem Gentle.composed {act : Action α} (h : Gentle act) : Composed W act := (h W).composed

/-- New objects that are no list, mapping or set. -/
theorem composed_make {f : Store → α × Store} (hf : ∀ s, (f s).2.settled = s.settled) :
    Composed W (make f) :=
  (gentle_make hf).composed

theorem composed_model : Composed W model := gentle_model.composed

/-- A change of the store that leaves the generators alone. -/
theorem composed_modify {f : Store → Store} (hf : ∀ s, (f s).machinery = s.machinery) :
    Composed W (modify f : Action Unit) :=
  .make hf

theorem Composed.modify_bind {f : Store → Store} {k : PUnit → Action α}
    (hf : ∀ s, (f s).machinery = s.machinery) (hk : Composed W (k ⟨⟩)) :
    Composed W (modify f >>= k) :=
  (composed_modify hf).bind fun _ => hk

/-- What comes after a fault is not reached. -/
theorem composed_throw_bind {e : Fault} {k : β → Action α} (he : W.fault e) :
    Composed W (throw e >>= k) :=
  .throw he

theorem Composed.attempt {act : Action α} (h : Composed W act) : Composed W (attempt act) := by
  rw [← bind_pure (Machine.attempt act)]
  exact h.attempt_bind (fun _ => .pure _) fun _ _ => .pure _

theorem composed_mapM {xs : List β} {f : β → Action α} (hf : ∀ x, Composed W (f x)) :
    Composed W (xs.mapM f) := by
  induction xs with
  | nil => exact .pure _
  | cons x xs ih =>
    rw [List.mapM_cons]
    exact (hf x).bind fun _ => ih.bind fun _ => .pure _

theorem composed_foldlM {xs : List β} {f : α → β → Action α} {a : α}
    (hf : ∀ a x, Composed W (f a x)) : Composed W (xs.foldlM f a) := by
  induction xs generalizing a with
  | nil => exact .pure _
  | cons x xs ih =>
    rw [List.foldlM_cons]
    exact (hf a x).bind fun _ => ih

theorem composed_ite {c : Prop} [Decidable c] {x y : Action α} (hx : Composed W x)
    (hy : Composed W y) : Composed W (if c then x else y) := by
  split
  · exact hx
  · exact hy

attribute [grind ←] Composed.pure Composed.throw Composed.get Composed.read Composed.make
  Composed.callWith Composed.send Composed.bind Composed.modify_bind composed_make composed_model
  composed_modify composed_throw_bind Composed.attempt composed_mapM
  composed_foldlM

-- an operation that is known to be gentle is composed
grind_pattern Gentle.composed => Gentle act, Composed W act

/-! ## 2. Subscripts -/

@[grind ←] theorem composed_setItem (c k v : Value) : Composed W (setItem c k v) := by
  unfold setItem
  grind

@[grind ←] theorem composed_delItem (c k : Value) : Composed W (delItem c k) := by
  unfold delItem
  grind

/-! ## 3. Formatting and operators -/

@[grind ←] theorem composed_sequenceProduct (l r : Value) (b : Bool) :
    Composed W (sequenceProduct? l r b) := by
  unfold sequenceProduct?
  grind

@[grind ←] theorem composed_sequence (op : BinaryOp) (l r : Value) (b : Bool) :
    Composed W (sequence? op l r b) := by
  unfold sequence?
  split <;> grind

@[grind ←] theorem composed_binary (op : BinaryOp) (l r : Value) (b : Bool) :
    Composed W (binary op l r b) := by
  unfold binary
  refine (gentle_arith _).composed.bind fun found => ?_
  split
  · grind
  · refine (composed_sequence op l r b).bind fun found => ?_
    grind

/-! ## 4. Methods -/

@[grind ←] theorem composed_putList (r : Nat) (vs : Array Value) : Composed W (putList r vs) := by
  unfold putList
  grind

@[grind ←] theorem composed_listMethod (r : Nat) (n : String) (args : List Value) :
    Composed W (listMethod? r n args) := by
  unfold listMethod?
  dsimp only
  split
  case h_4 =>
    refine (gentle_arity _ _ _ _).composed.bind fun _ => (gentle_look _).composed.bind fun old => ?_
    split
    · grind
    · split <;> grind
  all_goals grind

@[grind ←] theorem composed_sortList (r : Nat) (args : List Value) (ks : List Keyword) :
    Composed W (sortList r args ks) := by
  unfold sortList
  refine (gentle_onlyKeywords _ _ _).composed.bind fun _ =>
    (gentle_arity _ _ _ _).composed.bind fun _ => (gentle_look _).composed.bind fun items => ?_
  split <;> grind

@[grind ←] theorem composed_dictMethod (r : Nat) (n : String) (args : List Value) :
    Composed W (dictMethod? r n args) := by
  unfold dictMethod?
  dsimp only
  split <;> grind

@[grind ←] theorem composed_setMethod (r : Nat) (n : String) (args : List Value) :
    Composed W (setMethod? r n args) := by
  unfold setMethod?
  grind

@[grind ←] theorem composed_kindMethod (v : Value) (n : String) (args : List Value) :
    Composed W (kindMethod? v n args) := by
  unfold kindMethod?
  grind

@[grind ←] theorem composed_withOne (n : String) (args : List Value) {act : Value → Action α}
    (h : ∀ v, Composed W (act v)) : Composed W (withOne n args act) := by
  unfold withOne
  grind

theorem composed_operatorMethod {v : Value} {n : String} {args : List Value} {act : Action Value}
    (h : operatorMethod? v n args = some act) : Composed W act := by
  unfold operatorMethod? at h
  split at h
  · cases h
    grind
  · split at h
    · cases h
      grind
    · split at h
      · cases h
        grind
      · obtain ⟨op, -, rfl⟩ := Option.map_eq_some_iff.mp h
        grind

theorem composed_protocolMethod {v : Value} {n : String} {args : List Value} {act : Action Value}
    (h : protocolMethod? v n args = some act) : Composed W act := by
  unfold protocolMethod? at h
  grind

theorem composed_specialMethod {v : Value} {n : String} {args : List Value} {act : Action Value}
    (h : specialMethod? v n args = some act) : Composed W act := by
  unfold specialMethod? at h
  split at h
  · rcases Option.or_eq_some_iff.mp h with h | ⟨-, h⟩
    · exact composed_operatorMethod h
    · exact composed_protocolMethod h
  · cases h

@[grind ←] theorem composed_callPlainMethod (v : Value) (n : String) (args : List Value) :
    Composed W (callPlainMethod v n args) := by
  unfold callPlainMethod
  refine .bind (composed_kindMethod v n args) fun found => ?_
  split
  · grind
  · split
    · exact composed_specialMethod ‹_›
    · grind

@[grind ←] theorem composed_callTypeMethod (v : Value) (n : String) (args : List Value)
    (ks : List Keyword) : Composed W (callTypeMethod v n args ks) := by
  unfold callTypeMethod
  grind

@[grind ←] theorem composed_callMethod (v : Value) (n : String) (args : List Value) :
    Composed W (callMethod v n args) := by
  unfold callMethod
  grind

/-! ## 5. Builtin functions -/

@[grind ←] theorem composed_sum (args : List Value) (ks : List Keyword) :
    Composed W (sum args ks) := by
  unfold sum
  grind

@[grind ←] theorem composed_callPlainBuiltin (n : String) (args : List Value) :
    Composed W (callPlainBuiltin n args) := by
  unfold callPlainBuiltin
  grind

@[grind ←] theorem composed_callBuiltin (n : String) (args : List Value) (ks : List Keyword) :
    Composed W (callBuiltin n args ks) := by
  unfold callBuiltin
  grind

/-! ## 6. Parts of instructions -/

@[grind ←] theorem composed_mergeInto (r : Nat) (b : Bool) (ps : List (Value × Value)) :
    Composed W (mergeInto r b ps) := by
  induction ps with
  | nil => exact .pure _
  | cons p ps ih =>
    unfold mergeInto
    grind

@[grind ←] theorem composed_update_appendTo (r : Nat) (vs : Array Value) :
    Composed W (update.appendTo r vs) := by
  unfold update.appendTo
  grind

@[grind ←] theorem composed_update_addTo (r : Nat) (vs : List Value) :
    Composed W (update.addTo r vs) := by
  unfold update.addTo
  grind

end Machine

end Stackwise
