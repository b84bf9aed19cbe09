import Stackwise.Proofs.Outcome
import Stackwise.Proofs.Types.SearchOrders

/-!
# Overloads

The overloads of a method are looked up as one list, in which those of one type stand together. The
list is searched for the first that accepts the arguments, and then on to the end of its group.

* `Signature.FirstNamed`: the parameter that a keyword names;
* `TypeModel.Accepts`, `TypeModel.accepts_iff`: what it takes to accept arguments. The parameters
  that are still free are counted along the keywords (`TypeModel.acceptsKeywords_iff`);
* `TypeModel.Built.owner_eq`, `TypeModel.Built.nodup_order`: the groups of the list are those of the
  search order;
* `TypeModel.Selects`, `TypeModel.reached_resolveOverload`: the overload that is found.
-/

namespace Stackwise

/-! ## 1. Parameters and declarations -/

/-- The first parameter called `name` is the one at position `i`. -/
def Signature.FirstNamed (s : Signature) (name : String) (i : Nat) : Prop :=
  ∃ names, s.names = some names ∧ names[i]? = some name ∧ ∀ j < i, names[j]? ≠ some name

theorem Signature.paramIndex?_eq_some {s : Signature} {name : String} {i : Nat} :
    s.paramIndex? name = some i ↔ s.FirstNamed name i := by
  rw [paramIndex?, Option.bind_eq_some_iff]
  refine exists_congr fun names => and_congr_right fun _ => ?_
  rw [List.findIdx?_eq_some_iff_getElem]
  constructor
  · rintro ⟨hi, hname, hfirst⟩
    refine ⟨List.getElem?_eq_some_iff.mpr ⟨hi, eq_of_beq hname⟩, fun j hj hname => ?_⟩
    obtain ⟨_, hname⟩ := List.getElem?_eq_some_iff.mp hname
    exact hfirst j hj (beq_iff_eq.mpr hname)
  · rintro ⟨hname, hfirst⟩
    obtain ⟨hi, hname⟩ := List.getElem?_eq_some_iff.mp hname
    refine ⟨hi, beq_iff_eq.mpr hname, fun j hj hname => hfirst j hj ?_⟩
    exact List.getElem?_eq_some_iff.mpr ⟨Nat.lt_trans hj hi, eq_of_beq hname⟩

theorem Signature.FirstNamed.unique {s : Signature} {name : String} {i j : Nat}
    (hi : s.FirstNamed name i) (hj : s.FirstNamed name j) : i = j :=
  Option.some.inj ((paramIndex?_eq_some.mpr hi).symm.trans (paramIndex?_eq_some.mpr hj))

/-- The overload of a method that a declaration adds to those of a type. -/
def Declaration.added (t : TypeId) (name : String) : Declaration → List Signature
  | .method owner n s => if t = owner ∧ name = n then [{ s with owner }] else []
  | .type _ _ | .attribute _ _ _ | .globalClass _ _ => []

namespace TypeModel

variable {m m' : TypeModel} {s : Signature} {t : TypeId} {name : String} {args : List TypeId}
  {keywords : List String}

/-! ## 2. Acceptance -/

/-- What it takes for an overload to accept arguments, the last ones by keyword. -/
structure Accepts (m : TypeModel) (s : Signature) (args : List TypeId) (keywords : List String) :
    Prop where
  arity : s.arity = args.length
  enough : keywords.length ≤ args.length
  /-- A positional argument has the type of the parameter at its position. -/
  positional : ∀ i a p, i < args.length - keywords.length → args[i]? = some a →
    s.params[i]? = some p → m.isSubtype a p = true
  /-- A keyword names a parameter behind the positional ones, and its argument has the type of that.
  -/
  named : ∀ j name a, keywords[j]? = some name →
    args[args.length - keywords.length + j]? = some a →
    ∃ i p, s.FirstNamed name i ∧ args.length - keywords.length ≤ i ∧ s.params[i]? = some p
      ∧ m.isSubtype a p = true
  /-- No two keywords name one parameter. -/
  distinct : keywords.Pairwise fun name name' => ∀ i, s.FirstNamed name i → ¬s.FirstNamed name' i

/-- Keyword arguments that fill distinct parameters, each one that is free. -/
structure Fills (m : TypeModel) (s : Signature) (filled : List Bool)
    (kws : List (String × TypeId)) : Prop where
  free : ∀ kw ∈ kws, ∃ i p, s.FirstNamed kw.1 i ∧ filled[i]? = some false ∧ s.params[i]? = some p
    ∧ m.isSubtype kw.2 p = true
  distinct : kws.Pairwise fun kw kw' => ∀ i, s.FirstNamed kw.1 i → ¬s.FirstNamed kw'.1 i

section Keywords

variable {filled : List Bool} {kws : List (String × TypeId)} {arg p : TypeId} {i : Nat}

theorem free_set {k : Nat} :
    (filled.set i true)[k]? = some false ↔ i ≠ k ∧ filled[k]? = some false := by
  rw [List.getElem?_set]
  by_cases hik : i = k
  · rw [if_pos hik]
    split <;> simp [hik]
  · rw [if_neg hik, and_iff_right hik]

theorem count_free_set (h : filled[i]? = some false) :
    (filled.set i true).count false + 1 = filled.count false := by
  obtain ⟨hi, hfree⟩ := List.getElem?_eq_some_iff.mp h
  have hpos : 0 < filled.count false := List.count_pos_iff.mpr (hfree ▸ List.getElem_mem hi)
  rw [List.count_set hi, hfree]
  exact Nat.sub_add_cancel hpos

theorem fills_cons (hname : s.FirstNamed name i) (hfree : filled[i]? = some false)
    (hp : s.params[i]? = some p) : Fills m s filled ((name, arg) :: kws)
      ↔ m.isSubtype arg p = true ∧ Fills m s (filled.set i true) kws := by
  constructor
  · rintro ⟨hall, hdistinct⟩
    obtain ⟨hhead, hrest⟩ := List.forall_mem_cons.mp hall
    obtain ⟨hne, hdistinct⟩ := List.pairwise_cons.mp hdistinct
    obtain ⟨i', p', hname', -, hp', harg⟩ := hhead
    obtain rfl := hname.unique hname'
    obtain rfl := Option.some.inj (hp.symm.trans hp')
    refine ⟨harg, fun kw hkw => ?_, hdistinct⟩
    obtain ⟨k, q, hk, hkfree, hrest⟩ := hrest kw hkw
    refine ⟨k, q, hk, free_set.mpr ⟨?_, hkfree⟩, hrest⟩
    rintro rfl
    exact hne kw hkw i hname hk
  · rintro ⟨harg, hall, hdistinct⟩
    refine ⟨List.forall_mem_cons.mpr ⟨⟨i, p, hname, hfree, hp, harg⟩, fun kw hkw => ?_⟩,
      List.pairwise_cons.mpr ⟨fun kw hkw k hk hk' => ?_, hdistinct⟩⟩
    · obtain ⟨k, q, hk, hkfree, hrest⟩ := hall kw hkw
      exact ⟨k, q, hk, (free_set.mp hkfree).2, hrest⟩
    · obtain rfl := hname.unique hk
      obtain ⟨k, q, hk, hkfree, -⟩ := hall kw hkw
      exact (free_set.mp hkfree).1 (hk'.unique hk)

/-- **Keywords are accepted if they fill as many parameters as are free.** -/
theorem acceptsKeywords_iff : m.acceptsKeywords s filled kws = true
    ↔ Fills m s filled kws ∧ filled.count false = kws.length := by
  induction kws generalizing filled with
  | nil =>
    rw [acceptsKeywords, List.length_nil, List.count_eq_zero, List.all_eq_true]
    constructor
    · exact fun h => ⟨⟨List.forall_mem_nil _, .nil⟩, fun hmem => Bool.false_ne_true (h false hmem)⟩
    · rintro ⟨-, hmem⟩ b hb
      cases b with
      | true => rfl
      | false => exact absurd hb hmem
  | cons kw kws ih =>
    obtain ⟨name, arg⟩ := kw
    -- a step is possible exactly if the keyword names a parameter that is free
    by_cases hstep : ∃ i p, s.FirstNamed name i ∧ filled[i]? = some false ∧ s.params[i]? = some p
    · obtain ⟨i, p, hname, hfree, hp⟩ := hstep
      have hcount := count_free_set hfree
      rw [fills_cons hname hfree hp, acceptsKeywords, Signature.paramIndex?_eq_some.mpr hname]
      simp only [hfree, hp]
      rw [Bool.and_eq_true, ih, List.length_cons, ← hcount, Nat.add_right_cancel_iff, and_assoc]
    · refine iff_of_false (fun h => hstep ?_) fun h => hstep ?_
      · rw [acceptsKeywords] at h
        split at h
        · cases h
        · rename_i i hname
          split at h
          · exact ⟨i, _, Signature.paramIndex?_eq_some.mp hname, ‹_›, ‹_›⟩
          · cases h
      · obtain ⟨i, p, hname, hfree, hp, -⟩ := h.1.free _ List.mem_cons_self
        exact ⟨i, p, hname, hfree, hp⟩

end Keywords

/-- Pairs of two lists, position by position. -/
theorem forall_mem_zip {α β : Type} {R : α → β → Prop} {xs : List α} {ys : List β} :
    (∀ q ∈ xs.zip ys, R q.1 q.2)
      ↔ ∀ (i : Nat) (x : α) (y : β), xs[i]? = some x → ys[i]? = some y → R x y := by
  constructor
  · exact fun h i x y hx hy =>
      h (x, y) (List.mem_of_getElem? (List.getElem?_zip_eq_some.mpr ⟨hx, hy⟩))
  · intro h q hq
    obtain ⟨i, hi⟩ := List.mem_iff_getElem?.mp hq
    obtain ⟨hx, hy⟩ := List.getElem?_zip_eq_some.mp hi
    exact h i q.1 q.2 hx hy

/-- Before the first keyword the positional parameters are filled, and no other. -/
theorem free_start {n k i : Nat} :
    (List.replicate n true ++ List.replicate k false)[i]? = some false ↔ n ≤ i ∧ i < n + k := by
  rw [List.getElem?_append, List.length_replicate]
  split
  · rw [List.getElem?_replicate]
    split <;> simp <;> omega
  · rw [List.getElem?_replicate]
    split <;> simp <;> omega

theorem count_free_start (n k : Nat) :
    (List.replicate n true ++ List.replicate k false).count false = k := by
  rw [List.count_append, List.count_replicate_self, List.count_replicate]
  exact Nat.zero_add k

theorem fills_start {n : Nat} (hn : n + keywords.length = args.length)
    (harity : s.arity = args.length) :
    Fills m s (List.replicate n true ++ List.replicate (s.arity - n) false)
        (keywords.zip (args.drop n))
      ↔ (∀ (j : Nat) name a, keywords[j]? = some name → args[n + j]? = some a →
          ∃ i p, s.FirstNamed name i ∧ n ≤ i ∧ s.params[i]? = some p ∧ m.isSubtype a p = true)
        ∧ keywords.Pairwise fun name name' => ∀ i, s.FirstNamed name i → ¬s.FirstNamed name' i := by
  have hlength : keywords.length ≤ (args.drop n).length := by
    rw [List.length_drop]
    omega
  have hnames : ∀ R : String → String → Prop, keywords.Pairwise R
      ↔ (keywords.zip (args.drop n)).Pairwise fun kw kw' => R kw.1 kw'.1 := by
    intro R
    have hmap := List.pairwise_map (R := R) (f := Prod.fst) (l := keywords.zip (args.drop n))
    rwa [List.map_fst_zip hlength] at hmap
  have hfree : ∀ {i p},
      (List.replicate n true ++ List.replicate (s.arity - n) false)[i]? = some false
        ∧ s.params[i]? = some p ↔ n ≤ i ∧ s.params[i]? = some p := by
    intro i p
    rw [free_start]
    refine and_congr_left fun hp => and_iff_left ?_
    have hi : i < s.arity := (List.getElem?_eq_some_iff.mp hp).1
    omega
  rw [hnames]
  constructor
  · rintro ⟨hall, hdistinct⟩
    refine ⟨fun j name a hname ha => ?_, hdistinct⟩
    rw [← List.getElem?_drop] at ha
    obtain ⟨i, p, hi, hf, hp, harg⟩ :=
      hall (name, a) (List.mem_of_getElem? (List.getElem?_zip_eq_some.mpr ⟨hname, ha⟩))
    exact ⟨i, p, hi, (hfree.mp ⟨hf, hp⟩).1, hp, harg⟩
  · rintro ⟨hall, hdistinct⟩
    refine ⟨fun kw hkw => ?_, hdistinct⟩
    obtain ⟨j, hj⟩ := List.mem_iff_getElem?.mp hkw
    obtain ⟨hname, ha⟩ := List.getElem?_zip_eq_some.mp hj
    rw [List.getElem?_drop] at ha
    obtain ⟨i, p, hi, hle, hp, harg⟩ := hall j kw.1 kw.2 hname ha
    exact ⟨i, p, hi, (hfree.mpr ⟨hle, hp⟩).1, hp, harg⟩

/-- **What an overload accepts.** -/
theorem accepts_iff (h : keywords.length ≤ args.length) :
    m.accepts s args keywords = true ↔ m.Accepts s args keywords := by
  have hn : args.length - keywords.length + keywords.length = args.length := Nat.sub_add_cancel h
  have hpositional : (∀ q ∈ (args.take (args.length - keywords.length)).zip s.params,
      m.isSubtype q.1 q.2 = true) ↔ ∀ i a p, i < args.length - keywords.length →
        args[i]? = some a → s.params[i]? = some p → m.isSubtype a p = true := by
    rw [forall_mem_zip (R := fun a p => m.isSubtype a p = true)]
    refine forall_congr' fun i => forall_congr' fun a => forall_congr' fun p => ?_
    rw [List.getElem?_take, Option.ite_none_right_eq_some, and_imp]
  unfold accepts
  rw [Bool.and_eq_true, Bool.and_eq_true, beq_iff_eq, List.all_eq_true, hpositional,
    acceptsKeywords_iff, count_free_start]
  constructor
  · rintro ⟨⟨harity, hpositional⟩, hfills, -⟩
    obtain ⟨hnamed, hdistinct⟩ := (fills_start hn harity).mp hfills
    exact ⟨harity, h, hpositional, hnamed, hdistinct⟩
  · intro haccepts
    refine ⟨⟨haccepts.arity, haccepts.positional⟩,
      (fills_start hn haccepts.arity).mpr ⟨haccepts.named, haccepts.distinct⟩, ?_⟩
    -- as many parameters are free as there are keywords
    rw [List.length_zip, List.length_drop, haccepts.arity]
    omega

/-- The overload that is found is one of the list, and accepts the arguments. -/
theorem resolveOverload_accepts {overloads : List Signature}
    (h : m.resolveOverload overloads args keywords = some s) :
    s ∈ overloads ∧ m.Accepts s args keywords := by
  unfold resolveOverload at h
  split at h
  · cases h
  · rename_i hlength
    split at h
    · cases h
    · rename_i s' rest hdrop
      split at h
      · cases h
      · cases h
        have hmem : s ∈ overloads := by
          have hhead : s ∈ s :: rest := List.mem_cons_self
          rw [← hdrop] at hhead
          exact (List.dropWhile_sublist _).subset hhead
        have haccepts : m.accepts s args keywords = true := by
          have hhead := List.head?_dropWhile_not (fun s => !m.accepts s args keywords) overloads
          rw [hdrop] at hhead
          simpa using hhead
        exact ⟨hmem, (accepts_iff (Nat.not_lt.mp hlength)).mp haccepts⟩

/-! ## 3. Groups -/

/-- The overloads of a method that a type declares itself, in order. -/
def overloads (m : TypeModel) (t : TypeId) (name : String) : List Signature :=
  (m.declared? t name).getD []

theorem lookup_declare (name n : String) (s : Signature) (ms : List (String × List Signature)) :
    ((declare name s ms).lookup n).getD []
      = (ms.lookup n).getD [] ++ if n = name then [s] else [] := by
  induction ms with
  | nil =>
    by_cases hn : n = name
    · simp [declare, hn]
    · simp [declare, List.lookup_cons, beq_false_of_ne hn, hn]
  | cons entry ms ih =>
    obtain ⟨k, ss⟩ := entry
    rw [declare]
    by_cases hk : k = name
    · rw [if_pos hk]
      by_cases hn : n = name
      · simp [hk, hn]
      · simp [hk, List.lookup_cons, beq_false_of_ne hn, hn]
    · rw [if_neg hk, List.lookup_cons, List.lookup_cons]
      by_cases hn : n = k
      · simp [hn, hk]
      · simpa [beq_false_of_ne hn] using ih

/-- A change to the overloads of one type. -/
theorem overloads_modify {owner : TypeId} (howner : owner.raw < m.size) {f : TypeDef → TypeDef}
    {added : List Signature} (hf : ∀ d, ((f d).methods.lookup name).getD []
      = (d.methods.lookup name).getD [] ++ added) (t : TypeId) :
    ({ m with types := m.types.modify owner.raw f } : TypeModel).overloads t name
      = m.overloads t name ++ if t = owner then added else [] := by
  have hget : ({ m with types := m.types.modify owner.raw f } : TypeModel).get? t
      = if owner.raw = t.raw then (m.get? t).map f else m.get? t := Array.getElem?_modify
  rw [overloads, declared?, hget, overloads, declared?]
  by_cases ht : t = owner
  · obtain ⟨d, hd⟩ := Option.isSome_iff_exists.mp (get?_isSome_iff.mpr howner)
    rw [ht, if_pos rfl, if_pos rfl, hd]
    exact hf d
  · rw [if_neg fun h => ht (congrArg TypeId.mk h.symm), if_neg ht, List.append_nil]

/-- **What a declaration does to the overloads of a method.** -/
theorem overloads_declareOne {d : Declaration} (hd : m.declareOne d = .ok m') (t : TypeId)
    (name : String) : m'.overloads t name = m.overloads t name ++ d.added t name := by
  cases d with
  | type n bs =>
    obtain ⟨⟨id, m''⟩, hr, rfl⟩ := map_eq_ok.mp hd
    obtain ⟨-, -, -, order, -, rfl⟩ := register_ok hr
    rw [Declaration.added, List.append_nil]
    by_cases ht : t = ⟨m.size⟩
    · have hnone : m.get? t = none :=
        Option.not_isSome_iff_eq_none.mp fun h => ne_new_of_lt (get?_isSome_iff.mp h) ht
      rw [overloads, declared?, overloads, declared?, hnone, ht, get?_adding_new]
      rfl
    · rw [overloads, declared?, get?_adding_old ht, overloads, declared?]
  | method owner n s =>
    rw [declareOne, addMethod] at hd
    split at hd
    · rename_i howner
      cases hd
      rw [overloads_modify howner fun d => lookup_declare n name _ d.methods, Declaration.added,
        ite_and]
    · cases hd
  | «attribute» owner n a =>
    rw [declareOne, addAttribute] at hd
    split at hd
    · rename_i howner
      cases hd
      rw [overloads_modify howner (f := fun d => { d with attributes := (n, a) :: d.attributes })
        fun _ => (List.append_nil _).symm, ite_self, Declaration.added]
    · cases hd
  | globalClass n c =>
    rw [declareOne, addGlobalClass] at hd
    split at hd
    · cases hd
      exact (List.append_nil _).symm
    · cases hd

/-- **The overloads of a type belong to it.** -/
theorem Built.owner_eq (hm : m.Built) (h : s ∈ m.overloads t name) : s.owner = t := by
  induction hm with
  | empty =>
    have hnone : TypeModel.empty.overloads t name = [] := by
      obtain ⟨n⟩ := t
      cases n <;> rfl
    rw [hnone] at h
    cases h
  | @declare m m' d _ hd ih =>
    rw [overloads_declareOne hd, List.mem_append] at h
    rcases h with h | h
    · exact ih h
    · cases d with
      | method owner n s' =>
        rw [Declaration.added] at h
        split at h
        · rename_i heq
          rw [List.mem_singleton.mp h, heq.1]
        · cases h
      | _ => cases h

/-- No search order names a type twice. -/
theorem Built.nodup_order (hm : m.Built) (t : TypeId) : (m.order t).Nodup := by
  induction hm generalizing t with
  | empty =>
    rw [order_empty]
    exact List.pairwise_singleton _ _
  | @declare m m' d hm hd ih =>
    rcases declareOne_cases hd with ⟨name, bs, id, rfl, hr⟩ | hbare
    · obtain ⟨-, hknown, -, order, hlin, rfl⟩ := register_ok hr
      by_cases ht : t = ⟨m.size⟩
      · rw [ht, order_adding_new]
        exact (hm.respects_linearize hknown hlin).nodup
      · rw [order_adding_old ht]
        exact ih t
    · rw [← order_bare, hbare, order_bare]
      exact ih t

/-! ## 4. The search -/

/-- The only overload of a list that accepts the arguments; one that is declared twice is two. -/
def SoleAccepting (m : TypeModel) (args : List TypeId) (keywords : List String)
    (declared : List Signature) (s : Signature) : Prop :=
  ∃ before after, declared = before ++ s :: after ∧ m.Accepts s args keywords
    ∧ ∀ s' ∈ before ++ after, ¬m.Accepts s' args keywords

/-- The overload that a call selects among those that the types of a list declare: the only
accepting one of the first type that declares an accepting one. -/
def Selects (m : TypeModel) (name : String) (args : List TypeId) (keywords : List String)
    (owners : List TypeId) (s : Signature) : Prop :=
  ∃ before owner after, owners = before ++ owner :: after
    ∧ (∀ o ∈ before, ∀ s' ∈ m.overloads o name, ¬m.Accepts s' args keywords)
    ∧ m.SoleAccepting args keywords (m.overloads owner name) s

theorem SoleAccepting.mem {declared : List Signature}
    (h : m.SoleAccepting args keywords declared s) : s ∈ declared ∧ m.Accepts s args keywords := by
  obtain ⟨before, after, rfl, hs, -⟩ := h
  exact ⟨List.mem_append_right _ List.mem_cons_self, hs⟩

theorem not_selects_nil : ¬m.Selects name args keywords [] s := by
  rintro ⟨before, owner, after, hsplit, -⟩
  cases before <;> cases hsplit

theorem selects_cons {o : TypeId} {owners : List TypeId} :
    m.Selects name args keywords (o :: owners) s
      ↔ m.SoleAccepting args keywords (m.overloads o name) s
        ∨ ((∀ x ∈ m.overloads o name, ¬m.Accepts x args keywords)
          ∧ m.Selects name args keywords owners s) := by
  constructor
  · rintro ⟨before, owner, after, hsplit, hnone, hsole⟩
    cases before with
    | nil =>
      cases hsplit
      exact .inl hsole
    | cons o' before =>
      cases hsplit
      obtain ⟨hgroup, hnone⟩ := List.forall_mem_cons.mp hnone
      exact .inr ⟨hgroup, before, owner, after, rfl, hnone, hsole⟩
  · rintro (hsole | ⟨hgroup, before, owner, after, rfl, hnone, hsole⟩)
    · exact ⟨[], o, owners, rfl, List.forall_mem_nil _, hsole⟩
    · exact ⟨o :: before, owner, after, rfl, List.forall_mem_cons.mpr ⟨hgroup, hnone⟩, hsole⟩

section Search

variable (h : keywords.length ≤ args.length) {group rest : List Signature} {o : TypeId}
  {owners : List TypeId}

theorem resolveOverload_skip (hgroup : ∀ x ∈ group, ¬m.accepts x args keywords = true) :
    m.resolveOverload (group ++ rest) args keywords = m.resolveOverload rest args keywords := by
  have hpassed : ∀ x ∈ group, (!m.accepts x args keywords) = true := fun x hx => by
    rw [Bool.eq_false_iff.mpr (hgroup x hx), Bool.not_false]
  rw [resolveOverload, List.dropWhile_append_of_pos hpassed, resolveOverload]

/-- Behind an overload that accepts, the search stays inside the group. -/
theorem takeWhile_owner (hgroup : ∀ x ∈ group, x.owner = o) (hrest : ∀ x ∈ rest, x.owner ≠ o) :
    (group ++ rest).takeWhile (·.owner == o) = group := by
  rw [List.takeWhile_append_of_pos fun x hx => beq_iff_eq.mpr (hgroup x hx)]
  cases rest with
  | nil => exact List.append_nil _
  | cons y rest =>
    have hy : ¬(y.owner == o) = true := fun hy => hrest y List.mem_cons_self (eq_of_beq hy)
    rw [List.takeWhile_cons, if_neg hy, List.append_nil]

include h

theorem soleAccepting_iff : m.SoleAccepting args keywords group s
    ↔ group.filter (m.accepts · args keywords) = [s] := by
  rw [List.filter_eq_cons_iff]
  refine exists_congr fun before => exists_congr fun after => and_congr_right fun _ => ?_
  simp only [accepts_iff h, List.filter_eq_nil_iff, List.forall_mem_append]
  exact and_left_comm

/-- A group in which something accepts decides the search. -/
theorem resolveOverload_group (hgroup : ∀ x ∈ group, x.owner = o) (hrest : ∀ x ∈ rest, x.owner ≠ o)
    (hsome : ∃ x ∈ group, m.accepts x args keywords = true) :
    m.resolveOverload (group ++ rest) args keywords = some s
      ↔ group.filter (m.accepts · args keywords) = [s] := by
  obtain ⟨x, hx, hxa⟩ := hsome
  obtain ⟨first, found, hfound⟩ := List.exists_cons_of_ne_nil (List.ne_nil_of_mem
    (List.mem_filter.mpr ⟨hx, hxa⟩ : x ∈ group.filter (m.accepts · args keywords)))
  obtain ⟨before, after, rfl, hbefore, hfirst, hafter⟩ := List.filter_eq_cons_iff.mp hfound
  obtain ⟨hfirstOwner, hafterOwner⟩ :=
    List.forall_mem_cons.mp (List.forall_mem_append.mp hgroup).2
  rw [hfound, List.append_assoc, resolveOverload_skip hbefore, List.cons_append, resolveOverload,
    if_neg (Nat.not_lt.mpr h), List.dropWhile_cons_of_neg (by simp [hfirst])]
  dsimp only
  rw [hfirstOwner, takeWhile_owner hafterOwner hrest, List.cons.injEq, ← hafter,
    List.filter_eq_nil_iff]
  by_cases hany : after.any (m.accepts · args keywords) = true
  · obtain ⟨y, hy, hya⟩ := List.any_eq_true.mp hany
    rw [if_pos hany]
    exact iff_of_false nofun fun hnone => hnone.2 y hy hya
  · rw [if_neg hany, Option.some_inj]
    refine (and_iff_left fun y hy hya => hany ?_).symm
    exact List.any_eq_true.mpr ⟨y, hy, hya⟩

/-- **The search through the groups of owners.** -/
theorem resolveOverload_flatMap (hnodup : owners.Nodup)
    (howner : ∀ o ∈ owners, ∀ x ∈ m.overloads o name, x.owner = o) :
    m.resolveOverload (owners.flatMap (m.overloads · name)) args keywords = some s
      ↔ m.Selects name args keywords owners s := by
  induction owners with
  | nil =>
    rw [List.flatMap_nil, resolveOverload, if_neg (Nat.not_lt.mpr h)]
    exact iff_of_false nofun not_selects_nil
  | cons o owners ih =>
    obtain ⟨ho, hnodup⟩ := List.nodup_cons.mp hnodup
    obtain ⟨hgroup, howners⟩ := List.forall_mem_cons.mp howner
    rw [List.flatMap_cons, selects_cons]
    by_cases hsome : ∃ x ∈ m.overloads o name, m.accepts x args keywords = true
    · have hrest : ∀ x ∈ owners.flatMap (m.overloads · name), x.owner ≠ o := by
        intro x hx
        obtain ⟨o', ho', hx⟩ := List.mem_flatMap.mp hx
        rw [howners o' ho' x hx]
        rintro rfl
        exact ho ho'
      rw [resolveOverload_group h hgroup hrest hsome, ← soleAccepting_iff h]
      obtain ⟨x, hx, hxa⟩ := hsome
      exact (or_iff_left fun hnone => hnone.1 x hx ((accepts_iff h).mp hxa)).symm
    · have hpassed : ∀ x ∈ m.overloads o name, ¬m.accepts x args keywords = true :=
        fun x hx hxa => hsome ⟨x, hx, hxa⟩
      rw [resolveOverload_skip hpassed, ih hnodup howners, and_iff_right fun x hx hxa =>
        hpassed x hx ((accepts_iff h).mpr hxa)]
      refine (or_iff_right fun hsole => ?_).symm
      obtain ⟨hs, hsa⟩ := hsole.mem
      exact hpassed s hs ((accepts_iff h).mpr hsa)

end Search

/-- **Overloads are resolved by owner.** In every model that calls lead to, whatever the receiver,
the name and the arguments: what is found is the only accepting overload of the first type in the
search order of the receiver that declares an accepting one, and where there is no such overload
nothing is. -/
theorem reached_resolveOverload (hreached : m.Reached) (t : TypeId) (name : String)
    (args : List TypeId) (keywords : List String) (s : Signature) :
    m.resolveOverload (m.lookupMethod t name) args keywords = some s
      ↔ m.Selects name args keywords (m.order t) s := by
  have hm := hreached.built
  by_cases h : keywords.length ≤ args.length
  · exact resolveOverload_flatMap h (hm.nodup_order t) fun o _ x hx => hm.owner_eq hx
  · rw [resolveOverload, if_pos (Nat.not_le.mp h)]
    refine iff_of_false nofun ?_
    rintro ⟨before, owner, after, -, -, hsole⟩
    exact h hsole.mem.2.enough

/-- The diamond with overloads of one method: for one argument on the one side, in two ways, and for
two arguments on the other side and on top, with names. -/
def overloaded : TypeModel :=
  [.method ⟨2⟩ "f" { params := [⟨1⟩], returns := .int },
    .method ⟨2⟩ "f" { params := [⟨3⟩], returns := .str },
    .method ⟨3⟩ "f" { params := [⟨3⟩, ⟨1⟩], names := some ["x", "y"], returns := .int },
    .method ⟨1⟩ "f" { params := [⟨1⟩, ⟨1⟩], names := some ["x", "y"], returns := .str }].foldl
    (fun m d => (m.call d).2) diamond

/-- Two arguments pass the side that takes one and are taken before the top; one argument is taken
twice by the first side, and so not at all. -/
theorem reached_resolveOverload_overloaded : overloaded.Reached
    ∧ overloaded.Selects "f" [⟨4⟩, ⟨2⟩] ["y"] (overloaded.order ⟨4⟩)
      { owner := ⟨3⟩, params := [⟨3⟩, ⟨1⟩], names := some ["x", "y"], returns := .int }
    ∧ ∀ s, ¬overloaded.Selects "f" [⟨4⟩] [] (overloaded.order ⟨4⟩) s := by
  have hreached : overloaded.Reached := (Reached.empty.calls _).calls _
  refine ⟨hreached, (reached_resolveOverload hreached _ _ _ _ _).mp (by decide +kernel),
    fun s hs => ?_⟩
  have hnone : overloaded.resolveOverload (overloaded.lookupMethod ⟨4⟩ "f") [⟨4⟩] [] = none := by
    decide +kernel
  rw [← reached_resolveOverload hreached, hnone] at hs
  cases hs

end TypeModel

end Stackwise
