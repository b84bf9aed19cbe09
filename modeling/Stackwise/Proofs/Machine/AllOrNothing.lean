import Stackwise.Proofs.Machine.ImplementedMethods
import Stackwise.Proofs.Machine.PreservingOperations

/-!
# Mutations are all or nothing

An operation that changes a list, a mapping or a set in place finishes its checks before it writes.
So a container holds what it held before if the operation fails, whatever fails, as long as no code
that runs in between changes the container.

* `Mutation`: the operations. `Mutation.run`: what they do.
* `mergeInto_partly`: the one that writes between its checks. Merged keyword arguments stay up to a
  key that is there already.
* `mutations_all_or_nothing`: all others change nothing when they fail.
-/

namespace Stackwise.Machine

variable {α : Type} {c : Container} {x : Content}

/-! ## 1. Items, slices and operators -/

@[grind ←] theorem allOrNothing_setItem (v key value : Value) :
    AllOrNothing c (setItem v key value) := by
  unfold setItem
  grind

@[grind ←] theorem allOrNothing_delItem (v key : Value) : AllOrNothing c (delItem v key) := by
  unfold delItem
  grind

@[grind ←] theorem commits_sequenceProduct (l r : Value) (inplace : Bool) :
    CommitsFound c (sequenceProduct? l r inplace) := by
  unfold sequenceProduct?
  grind

@[grind ←] theorem commits_sequence (op : BinaryOp) (l r : Value) (inplace : Bool) :
    CommitsFound c (sequence? op l r inplace) := by
  unfold sequence?
  grind

/-- What was found is given at once. -/
theorem CommitsFound.allOrNothing_bind {β : Type} {act : Action (Option β)}
    {k : Option β → Action α} (h : CommitsFound c act) (hnone : AllOrNothing c (k none))
    (hsome : ∀ v, ∃ w, k (some v) = pure w) : AllOrNothing c (act >>= k) := by
  refine Commits.bind h (fun found => ?_) fun found hfound => ?_
  · cases found with
    | none => exact hnone
    | some v =>
      obtain ⟨w, hw⟩ := hsome v
      rw [hw]
      exact (preserves_pure w).allOrNothing
  · obtain ⟨v, rfl⟩ := Option.isSome_iff_exists.mp hfound
    obtain ⟨w, hw⟩ := hsome v
    exact ⟨w, trivial, hw⟩

@[grind ←] theorem allOrNothing_binary (op : BinaryOp) (l r : Value) (inplace : Bool) :
    AllOrNothing c (binary op l r inplace) := by
  unfold binary
  refine (gentle_arith _).preserves.allOrNothing_bind fun found => ?_
  split
  · exact (preserves_pure _).allOrNothing
  · refine (commits_sequence op l r inplace).allOrNothing_bind ?_ fun v => ⟨v, rfl⟩
    exact Preserves.allOrNothing (by grind)

/-! ## 2. Methods -/

@[grind ←] theorem allOrNothing_putList (r : Nat) (items : Array Value) :
    AllOrNothing c (putList r items) :=
  allOrNothing_modify _

theorem commits_popAt (r : Nat) (old : Array Value) (index : Int64) :
    CommitsFound c (match position? index old.size with
      | some i => do
        putList r (old.eraseIdxIfInBounds i)
        return old[i]?
      | none => raiseText TypeId.indexError "pop index out of range") := by
  split
  · rename_i i hi
    rw [Array.getElem?_eq_getElem (position?_lt hi)]
    exact (allOrNothing_putList r _).bind_some ⟨_, rfl⟩
  · exact (gentle_raiseText _ _).preserves.commitsFound

theorem commits_listMethod (r : Nat) (name : String) (args : List Value) :
    CommitsFound c (listMethod? r name args) := by
  unfold listMethod?
  dsimp only
  split
  case h_4 =>
    refine (gentle_arity _ _ _ _).preserves.commitsFound_bind fun _ =>
      (preserves_look _).commitsFound_bind fun old => ?_
    split
    · exact (gentle_raiseText _ _).preserves.commitsFound
    · split
      · exact (preserves_pure _).commitsFound_bind fun index => commits_popAt r old index
      · exact (gentle_intArg _ _).preserves.commitsFound_bind fun index => commits_popAt r old index
  all_goals grind

theorem allOrNothing_sortList (r : Nat) (args : List Value) (kwargs : List Keyword) :
    AllOrNothing c (sortList r args kwargs) := by
  unfold sortList
  refine (gentle_onlyKeywords _ _ _).preserves.allOrNothing_bind fun _ =>
    (gentle_arity _ _ _ _).preserves.allOrNothing_bind fun _ =>
    (preserves_look _).allOrNothing_bind fun items => ?_
  split <;> grind

theorem commits_dictMethod (r : Nat) (name : String) (args : List Value) :
    CommitsFound c (dictMethod? r name args) := by
  unfold dictMethod?
  dsimp only
  split <;> grind

theorem commits_setMethod (r : Nat) (name : String) (args : List Value) :
    CommitsFound c (setMethod? r name args) := by
  unfold setMethod?
  split <;> grind

theorem commits_kindMethod (l : Container) (name : String) (args : List Value) :
    CommitsFound c (kindMethod? l.value name args) := by
  cases l with
  | list r => exact commits_listMethod r name args
  | dict r => exact commits_dictMethod r name args
  | set r => exact commits_setMethod r name args

theorem allOrNothing_operatorMethod {v : Value} {name : String} {args : List Value}
    {act : Action Value} (h : operatorMethod? v name args = some act) : AllOrNothing c act := by
  have hone : ∀ {f : Value → Action Value}, (∀ w, AllOrNothing c (f w)) →
      AllOrNothing c (withOne name args f) := fun hf =>
    (gentle_arity _ _ _ _).preserves.allOrNothing_bind fun _ => hf _
  unfold operatorMethod? at h
  split at h
  · cases h
    grind
  · split at h
    · cases h
      grind
    · split at h
      · cases h
        grind
      · obtain ⟨op, -, rfl⟩ := Option.map_eq_some_iff.mp h
        grind

theorem allOrNothing_protocolMethod {v : Value} {name : String} {args : List Value}
    {act : Action Value} (h : protocolMethod? v name args = some act) : AllOrNothing c act := by
  unfold protocolMethod? at h
  grind [withOne]

theorem allOrNothing_specialMethod {v : Value} {name : String} {args : List Value}
    {act : Action Value} (h : specialMethod? v name args = some act) : AllOrNothing c act := by
  unfold specialMethod? at h
  split at h
  · rcases Option.or_eq_some_iff.mp h with h | ⟨-, h⟩
    · exact allOrNothing_operatorMethod h
    · exact allOrNothing_protocolMethod h
  · cases h

theorem allOrNothing_callPlainMethod (l : Container) (name : String) (args : List Value) :
    AllOrNothing c (callPlainMethod l.value name args) := by
  unfold callPlainMethod
  refine (commits_kindMethod l name args).allOrNothing_bind ?_ fun v => ⟨v, rfl⟩
  dsimp only
  split
  · exact allOrNothing_specialMethod ‹_›
  · exact Preserves.allOrNothing (by grind)

theorem allOrNothing_callTypeMethod (l : Container) (name : String) (args : List Value)
    (kwargs : List Keyword) : AllOrNothing c (callTypeMethod l.value name args kwargs) := by
  unfold callTypeMethod
  split
  · exact allOrNothing_sortList _ args kwargs
  · exact (gentle_noKeywords _ kwargs).preserves.allOrNothing_bind fun _ =>
      allOrNothing_callPlainMethod l _ args

/-! ## 3. Instructions that add to a collection -/

/-- Pairs that are not refused are all added. -/
theorem mergeInto_update (r : Nat) (ps : List (Value × Value)) (ctx : Context) (s : Store) :
    ∃ s', mergeInto r false ps ctx s = .ok () s' := by
  induction ps generalizing s with
  | nil => exact ⟨s, rfl⟩
  | cons p ps ih => exact ih _

@[grind ←] theorem allOrNothing_mergeInto (r : Nat) (ps : List (Value × Value)) :
    AllOrNothing c (mergeInto r false ps) := by
  intro ctx hc s x hx
  obtain ⟨s', hs'⟩ := mergeInto_update r ps ctx s
  rw [hs']
  exact .inr trivial

/-- A mapping that is put in place of another one changes that one only. -/
theorem preserves_putDict {r : Nat} (h : c ≠ .dict r) (f : Store → List (Value × Value)) :
    Preserves c (modify fun s => { s with dicts := s.dicts.put r (f s) } : Action Unit) := by
  intro ctx hc s x hx
  refine .inl ?_
  cases c with
  | list _ | set _ => exact hx
  | dict r' =>
    have hne : r ≠ r' := fun he => h (congrArg Container.dict he.symm)
    show ((s.dicts.put r (f s)).rows[r']?).map Content.pairs = some x
    rw [Table.put, Array.getElem?_setIfInBounds_ne hne]
    exact hx

theorem preserves_mergeInto {r : Nat} (h : c ≠ .dict r) (merge : Bool)
    (ps : List (Value × Value)) : Preserves c (mergeInto r merge ps) := by
  induction ps with
  | nil => exact preserves_pure _
  | cons p ps ih =>
    have hput := preserves_putDict h fun s => s.insert (s.dicts.get r) p.1 p.2
    unfold mergeInto
    grind

@[grind ←] theorem allOrNothing_appendTo (r : Nat) (items : Array Value) :
    AllOrNothing c (update.appendTo r items) :=
  allOrNothing_modify _

@[grind ←] theorem allOrNothing_addTo (r : Nat) (items : List Value) :
    AllOrNothing c (update.addTo r items) := by
  unfold update.addTo
  grind

/-- Pairs are added to the mapping at a depth of the stack. -/
theorem allOrNothing_mergeTarget (depth : Nat) (cause : Broken) (incoming : List (Value × Value)) :
    AllOrNothing c (do
      match ← target depth with
      | .dict r => mergeInto r false incoming
      | _ => broken cause : FrameAction Unit) := by
  refine (steady_target depth).preserves.allOrNothing_bind fun t => ?_
  split
  · exact (allOrNothing_mergeInto _ incoming).lift
  · exact (steady_broken cause).preserves.allOrNothing

theorem allOrNothing_update {kind : Update} (h : kind ≠ .dictMerge) (depth : Nat) :
    AllOrNothing c (update kind depth) := by
  unfold update
  cases kind with
  | dictMerge => exact absurd rfl h
  | dictUpdate =>
    refine preserves_pop.allOrNothing_bind fun other => ?_
    split
    · exact (preserves_look _).lift.allOrNothing_bind fun incoming =>
        allOrNothing_mergeTarget depth _ incoming
    · exact (gentle_typeName _).preserves.lift.allOrNothing_bind fun n =>
        (gentle_typeError _).preserves.lift.allOrNothing_bind fun incoming =>
          allOrNothing_mergeTarget depth _ incoming
  | _ => grind

/-! ## 4. Merged keyword arguments -/

/-- The exception of a keyword argument that is given twice. -/
def refuseKey (key : Value) : Action Unit := do
  typeError ("got multiple values for keyword argument '" ++ (← display key) ++ "'")

theorem preserves_refuseKey (key : Value) : Preserves c (refuseKey key) := by
  unfold refuseKey
  grind

/-- What a merge does with the first pair. -/
theorem mergeInto_cons (r : Nat) (p : Value × Value) (ps : List (Value × Value)) (ctx : Context)
    (s : Store) : mergeInto r true (p :: ps) ctx s =
      if (s.position? (s.dicts.get r) p.1).isSome then refuseKey p.1 ctx s
      else mergeInto r true ps ctx
        { s with dicts := s.dicts.put r (s.insert (s.dicts.get r) p.1 p.2) } := by
  rw [mergeInto, run_bind]
  show (if (s.position? (s.dicts.get r) p.1).isSome = true then _ else _ : Action Unit) ctx s = _
  split <;> rfl

/-- A key that is not there comes last. -/
theorem insert_of_position?_none {s : Store} {pairs : List (Value × Value)} {key : Value}
    (h : s.position? pairs key = none) (v : Value) :
    s.insert pairs key v = pairs ++ [(key, v)] := by
  rw [Store.insert, h]

/-- **A merge that fails keeps its first pairs:** those before the key that is there already. -/
theorem mergeInto_partly {ctx : Context} {r : Nat} {ps pairs : List (Value × Value)} {s s' : Store}
    {e : Fault} (hc : ctx.Preserves (.dict r)) (hheld : s.Holds (.dict r) (.pairs pairs))
    (hfail : mergeInto r true ps ctx s = .error e s') :
    ∃ before p after, ps = before ++ p :: after
      ∧ s'.Holds (.dict r) (.pairs (pairs ++ before)) := by
  induction ps generalizing s pairs with
  | nil => cases hfail
  | cons p ps ih =>
    have hget := hheld.getDict
    rw [mergeInto_cons, hget] at hfail
    cases hpos : s.position? pairs p.1 with
    | some i =>
      rw [hpos, if_pos Option.isSome_some] at hfail
      refine ⟨[], p, ps, rfl, ?_⟩
      rw [List.append_nil]
      exact (preserves_refuseKey p.1).holds_of_error hc hheld hfail
    | none =>
      rw [hpos, Option.isSome_none, if_neg Bool.false_ne_true,
        insert_of_position?_none hpos] at hfail
      obtain ⟨before, q, after, rfl, hrest⟩ := ih (hheld.putDict _) hfail
      exact ⟨p :: before, q, after, rfl, by rwa [List.append_cons]⟩

theorem target_eq_ok {depth : Nat} {ctx : Context} {a a' : Activation} {v : Value}
    (h : target depth ctx a = .ok v a') : a' = a ∧ a.frame.stack[depth - 1]? = some v := by
  cases depth with
  | zero => cases h
  | succ n =>
    change peek n ctx ⟨a.frame, a.store⟩ = _ at h
    rw [peek, onStack_run] at h
    rw [Nat.add_sub_cancel]
    cases hv : a.frame.stack[n]? with
    | none =>
      rw [hv] at h
      cases h
    | some w =>
      rw [hv] at h
      cases h
      exact ⟨rfl, rfl⟩

theorem inFrame_eq_error {act : Action α} {ctx : Context} {a a' : Activation} {e : Fault}
    (h : inFrame act ctx a = .error e a') : act ctx a.store = .error e a'.store := by
  unfold inFrame at h
  cases hres : act ctx a.store with
  | ok v s =>
    rw [hres] at h
    cases h
  | error e' s =>
    rw [hres] at h
    cases h
    rfl

/-- Pairs were added to the container at a depth of a stack, up to one whose key it had already. -/
def PartlyMerged (depth : Nat) (stack : List Value) (incoming : List (Value × Value))
    (c : Container) (x : Content) (s : Store) : Prop :=
  ∃ r pairs before p after, stack[depth - 1]? = some (.dict r) ∧ c = .dict r ∧ x = .pairs pairs
    ∧ incoming = before ++ p :: after ∧ before ≠ [] ∧ s.Holds c (.pairs (pairs ++ before))

theorem mergeTarget_partly {depth : Nat} {cause : Broken} {incoming : List (Value × Value)}
    {ctx : Context} {a a' : Activation} {e : Fault} (hc : ctx.Preserves c)
    (hheld : a.store.Holds c x)
    (hfail : (do
      match ← target depth with
      | .dict r => mergeInto r true incoming
      | _ => broken cause : FrameAction Unit) ctx a = .error e a') :
    a'.store.Holds c x ∨ PartlyMerged depth a.frame.stack incoming c x a'.store := by
  rw [run_bind] at hfail
  cases ht : target depth ctx a with
  | error e' a₁ =>
    rw [ht] at hfail
    cases hfail
    exact .inl ((steady_target depth).preserves.holds_of_error hc hheld ht)
  | ok t a₁ =>
    obtain ⟨rfl, hdepth⟩ := target_eq_ok ht
    rw [ht] at hfail
    dsimp only at hfail
    split at hfail
    · rename_i r
      by_cases hr : c = .dict r
      · subst hr
        obtain ⟨pairs, rfl⟩ := hheld.exists_pairs
        obtain ⟨before, p, after, hincoming, hleft⟩ :=
          mergeInto_partly hc hheld (inFrame_eq_error hfail)
        cases before with
        | nil => exact .inl (by rwa [List.append_nil] at hleft)
        | cons q before =>
          exact .inr ⟨r, pairs, q :: before, p, after, hdepth, rfl, rfl, hincoming,
            List.cons_ne_nil q before, hleft⟩
      · exact .inl ((preserves_mergeInto hr true incoming).lift.holds_of_error hc hheld hfail)
    · exact .inl ((steady_broken cause).preserves.holds_of_error hc hheld hfail)

/-- Nothing follows an exception. -/
theorem preserves_typeError_bind {β : Type} (m : String) (k : β → FrameAction α) :
    Preserves c (liftM (typeError m : Action β) >>= k) := by
  intro ctx hc a x hx
  obtain ⟨e, a', h⟩ : ∃ e a',
      (liftM (typeError m : Action β) : FrameAction β) ctx a = .error e a' := ⟨_, _, rfl⟩
  rw [run_bind, h]
  exact (gentle_typeError m).preserves.lift.holds_of_error hc hx h

theorem dictMerge_partly {depth : Nat} {ctx : Context} {a a' : Activation} {e : Fault}
    (hc : ctx.Preserves c) (hheld : a.store.Holds c x)
    (hfail : update .dictMerge depth ctx a = .error e a') :
    a'.store.Holds c x ∨ ∃ other rest, a.frame.stack = .dict other :: rest
      ∧ PartlyMerged depth rest (a.store.dicts.get other) c x a'.store := by
  obtain ⟨f, s⟩ := a
  rw [update, run_bind] at hfail
  cases hstack : f.stack with
  | nil =>
    rw [pop, onStack_run, hstack] at hfail
    cases hfail
    exact .inl hheld
  | cons other rest =>
    rw [pop_run hstack] at hfail
    dsimp only at hfail
    split at hfail
    · rename_i o
      exact (mergeTarget_partly hc (a := ⟨{ f with stack := rest }, s⟩) hheld hfail).imp_right
        fun h => ⟨o, rest, rfl, h⟩
    · refine .inl (Commits.holds_of_error (Q := fun _ => False) ?_ hc
        (a := Activation.mk { f with stack := rest } s) hheld hfail)
      exact (gentle_typeName other).preserves.lift.bind fun n => preserves_typeError_bind _ _

/-! ## 5. All mutations -/

/-- An operation that changes a container in place. -/
inductive Mutation where
  /-- An instruction that adds to the collection at a depth of the stack. -/
  | update (kind : Update) (depth : Nat)
  /-- An item or a slice is assigned. -/
  | setItem (l : Container) (key value : Value)
  /-- An item or a slice is deleted. -/
  | delItem (l : Container) (key : Value)
  /-- An operator in its form that changes the left operand. -/
  | inplace (op : BinaryOp) (l : Container) (r : Value)
  /-- A method is called. -/
  | method (l : Container) (name : String) (args : List Value) (kwargs : List Keyword)

/-- What a mutation does. -/
def Mutation.run : Mutation → FrameAction Unit
  | update kind depth => Machine.update kind depth
  | setItem l key value => Machine.setItem l.value key value
  | delItem l key => Machine.delItem l.value key
  | inplace op l r => do let _ ← binary op l.value r true
  | method l name args kwargs => do let _ ← callTypeMethod l.value name args kwargs

theorem allOrNothing_run {m : Mutation} (h : ∀ depth, m ≠ .update .dictMerge depth) :
    AllOrNothing c m.run := by
  cases m with
  | update kind depth =>
    refine allOrNothing_update (fun hkind => ?_) depth
    exact h depth (congrArg (Mutation.update · depth) hkind)
  | setItem l key value => exact (allOrNothing_setItem l.value key value).lift
  | delItem l key => exact (allOrNothing_delItem l.value key).lift
  | inplace op l r =>
    exact (allOrNothing_binary op l.value r true).lift.commits_bind fun _ => ⟨(), trivial, rfl⟩
  | method l name args kwargs =>
    exact (allOrNothing_callTypeMethod l name args kwargs).lift.commits_bind
      fun _ => ⟨(), trivial, rfl⟩

/-- **Mutations are all or nothing.** Take a container of the store and an operation that changes
containers in place. If the operation fails, and refusing all calls and resumptions that change the
container makes no difference to it, then the container holds what it held before. Keyword arguments
that are merged are the exception: they stay up to a key that is there already. -/
theorem mutations_all_or_nothing {m : Mutation} {ctx : Context} {a a' : Activation} {e : Fault}
    (hheld : a.store.Holds c x)
    (hcode : m.run (ctx.restrict (Entry.Preserves ctx c)) a = m.run ctx a)
    (hfail : m.run ctx a = .error e a') :
    a'.store.Holds c x ∨ ∃ depth other rest, m = .update .dictMerge depth
      ∧ a.frame.stack = .dict other :: rest
      ∧ PartlyMerged depth rest (a.store.dicts.get other) c x a'.store := by
  have hc := ctx.restrict_preserves c
  rw [← hcode] at hfail
  by_cases hm : ∃ depth, m = .update .dictMerge depth
  · obtain ⟨depth, rfl⟩ := hm
    refine (dictMerge_partly hc hheld hfail).imp_right fun ⟨other, rest, h⟩ => ?_
    exact ⟨depth, other, rest, rfl, h⟩
  · exact .inl ((allOrNothing_run fun depth h => hm ⟨depth, h⟩).holds_of_error hc hheld hfail)

/-- A set of one member, and a tuple whose second item cannot be a member, on a stack. -/
def updatesSet : Activation where
  frame := { (default : Frame) with stack := [.tuple default [.int 2, .list 0], .set 0] }
  store := { lists := ⟨#[#[]]⟩, sets := ⟨#[[.int 1]]⟩ }

/-- The first item is not added, as the second one cannot be. -/
theorem mutations_all_or_nothing_set :
    let ctx := plainContext 0
    let m : Mutation := .update .setUpdate 1
    ∃ e a', m.run ctx updatesSet = .error e a'
      ∧ updatesSet.store.Holds (.set 0) (.members [.int 1])
      ∧ m.run (ctx.restrict (Entry.Preserves ctx (.set 0))) updatesSet = m.run ctx updatesSet
      ∧ a'.store.Holds (.set 0) (.members [.int 1]) := by
  intro ctx m
  have hheld : updatesSet.store.Holds (.set 0) (.members [.int 1]) := rfl
  have hcode : m.run (ctx.restrict (Entry.Preserves ctx (.set 0))) updatesSet
      = m.run ctx updatesSet := rfl
  obtain ⟨e, a', hfail⟩ : ∃ e a', m.run ctx updatesSet = .error e a' := ⟨_, _, rfl⟩
  refine ⟨e, a', hfail, hheld, hcode, ?_⟩
  refine (mutations_all_or_nothing hheld hcode hfail).resolve_right ?_
  rintro ⟨depth, other, rest, hm, -⟩
  change Mutation.update .setUpdate 1 = .update .dictMerge depth at hm
  cases hm

/-- Two mappings on a stack, with a key that is in both of them. -/
def mergesKeywords : Activation where
  frame := { (default : Frame) with stack := [.dict 1, .dict 0] }
  store := { dicts := ⟨#[[(.str default "a", .int 1)],
    [(.str default "b", .int 2), (.str default "a", .int 3)]]⟩ }

/-- **A merge of keyword arguments is not all or nothing:** the first one was added when the second
one is refused. -/
theorem merge_keeps_first_keyword :
    let ctx := plainContext 0
    let m : Mutation := .update .dictMerge 1
    let before : Content := .pairs [(.str default "a", .int 1)]
    mergesKeywords.store.Holds (.dict 0) before
      ∧ m.run (ctx.restrict (Entry.Preserves ctx (.dict 0))) mergesKeywords
        = m.run ctx mergesKeywords
      ∧ ∃ e a', m.run ctx mergesKeywords = .error e a' ∧ ¬ a'.store.Holds (.dict 0) before := by
  refine ⟨rfl, rfl, _, _, rfl, fun h => ?_⟩
  cases h

end Stackwise.Machine
