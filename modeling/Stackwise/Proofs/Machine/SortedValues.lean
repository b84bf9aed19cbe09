import Stackwise.Machine.Run
import Stackwise.Proofs.Machine.PlainOrder
import Stackwise.Proofs.Machine.Stepping

/-!
# Sorting and extrema

If keys are plain and can be compared, sorting finds the stable arrangement of the items, and `min`
and `max` find its first item, although they scan the items and never sort them.

* `filter_mergeSort`: merging keeps the order of items that may stand on either side.
* `FirstOf`: the earliest of the items with the least key, or with the greatest. There is one at
  most.
* `Keys`: a key that is computed without an effect that later computations notice.
* `sortValues_run`, `bestOf_run`: what sorting and scanning give.
* `sorting_extrema_agree`: `sorted`, `min` and `max` on the same items.
-/

namespace Stackwise

open Machine

variable {α : Type}

/-! ## 1. Merging -/

section Merging

variable {le : α → α → Bool} {items : List α}

/-- An order among the items only is one of all members of their list. -/
theorem map_mergeSort_attach :
    (items.attach.mergeSort fun a b : {a // a ∈ items} => le a b).map Subtype.val
      = items.mergeSort le := by
  rw [List.map_mergeSort (s := le) fun _ _ _ _ => rfl, List.attach_map_subtype_val]

variable (htrans : ∀ a ∈ items, ∀ b ∈ items, ∀ c ∈ items,
    le a b = true → le b c = true → le a c = true)
  (htotal : ∀ a ∈ items, ∀ b ∈ items, (le a b || le b a) = true)

include htrans htotal

theorem pairwise_mergeSort_of_mem : (items.mergeSort le).Pairwise fun a b => le a b = true := by
  rw [← map_mergeSort_attach, List.pairwise_map]
  exact List.pairwise_mergeSort
    (fun a b c : {a // a ∈ items} => htrans a a.2 b b.2 c c.2)
    (fun a b => htotal a a.2 b b.2) items.attach

/-- Merging keeps the order of the items that satisfy a test if none of them has to stand before
another. -/
theorem filter_mergeSort {p : α → Bool}
    (hequal : ∀ a ∈ items, ∀ b ∈ items, p a = true → p b = true → le a b = true) :
    (items.mergeSort le).filter p = items.filter p := by
  have hattach : (items.attach.filter (p ∘ Subtype.val)).Sublist
      (items.attach.mergeSort fun a b : {a // a ∈ items} => le a b) :=
    List.sublist_mergeSort
      (fun a b c : {a // a ∈ items} => htrans a a.2 b b.2 c c.2)
      (fun a b => htotal a a.2 b b.2)
      (List.pairwise_of_forall_mem_list fun a ha b hb =>
        hequal a a.2 b b.2 (List.mem_filter.mp ha).2 (List.mem_filter.mp hb).2)
      List.filter_sublist
  have hsub := (hattach.map Subtype.val).filter p
  rw [map_mergeSort_attach, ← List.filter_map, List.attach_map_subtype_val,
    List.filter_filter] at hsub
  simp only [Bool.and_self] at hsub
  exact (hsub.eq_of_length ((List.mergeSort_perm items le).filter p).length_eq.symm).symm

end Merging

/-! ## 2. Keys -/

namespace Plain

theorem order?_trans_same {a b c : Plain} {o : Ordering} (hab : a.order? b = some o)
    (hbc : b.order? c = some o) : a.order? c = some o := by
  cases o with
  | lt => exact order?_trans a b c hab hbc
  | eq => rwa [(order?_eq_iff a b).mp hab]
  | gt =>
    have hcb : c.order? b = some .lt := by rw [order?_swap, hbc]; rfl
    have hba : b.order? a = some .lt := by rw [order?_swap, hab]; rfl
    rw [order?_swap, order?_trans c b a hcb hba]
    rfl

end Plain

variable {κ : α → Plain} {want : Ordering} {items : List α} {a b c : α}

/-- Keys that can be compared with each other. -/
def Comparable (κ : α → Plain) (items : List α) : Prop :=
  ∀ a ∈ items, ∀ b ∈ items, ∃ o, (κ a).order? (κ b) = some o

/-- Whether an item may stand before another: the other one does not have to come first. -/
def mayPrecede (κ : α → Plain) (want : Ordering) (a b : α) : Bool :=
  (κ b).order? (κ a) != some want

theorem mayPrecede_iff : mayPrecede κ want a b = true ↔ (κ b).order? (κ a) ≠ some want := bne_iff_ne

theorem mayPrecede_of_same (hne : want ≠ .eq) (h : κ a = κ b) : mayPrecede κ want a b = true := by
  rw [mayPrecede_iff, (Plain.order?_eq_iff _ _).mpr h.symm]
  exact fun hw => hne (Option.some.inj hw).symm

/-- Of items that differ one has to come first, so what may precede is transitive. -/
theorem mayPrecede_trans (hne : want ≠ .eq) (hab : ∃ o, (κ b).order? (κ a) = some o)
    (hbc : ∃ o, (κ c).order? (κ b) = some o) (h₁ : mayPrecede κ want a b = true)
    (h₂ : mayPrecede κ want b c = true) : mayPrecede κ want a c = true := by
  rw [mayPrecede_iff] at h₁ h₂ ⊢
  obtain ⟨o₁, hab⟩ := hab
  obtain ⟨o₂, hbc⟩ := hbc
  intro hca
  by_cases h₁eq : o₁ = .eq
  · subst h₁eq
    rw [(Plain.order?_eq_iff _ _).mp hab] at h₂
    exact h₂ hca
  by_cases h₂eq : o₂ = .eq
  · subst h₂eq
    rw [← (Plain.order?_eq_iff _ _).mp hbc] at h₁
    exact h₁ hca
  -- Both differ from `want` and are no equality, so they are the same.
  have hsame : o₂ = o₁ := by
    rw [hab] at h₁
    rw [hbc] at h₂
    revert h₁ h₂ h₁eq h₂eq hne
    cases o₁ <;> cases o₂ <;> cases want <;> decide
  subst hsame
  exact h₁ (hab.trans ((Plain.order?_trans_same hbc hab).symm.trans hca))

theorem mayPrecede_total (hne : want ≠ .eq) :
    (mayPrecede κ want a b || mayPrecede κ want b a) = true := by
  rw [Bool.or_eq_true, mayPrecede_iff, mayPrecede_iff, Plain.order?_swap (κ b) (κ a)]
  cases h : (κ b).order? (κ a) with
  | none => exact .inl nofun
  | some o =>
    revert hne
    cases o <;> cases want <;> decide

/-- Whether an item has a key. -/
def hasKey (κ : α → Plain) (key : Plain) (a : α) : Bool := (κ a).order? key == some .eq

theorem hasKey_iff {key : Plain} : hasKey κ key a = true ↔ κ a = key :=
  beq_iff_eq.trans (Plain.order?_eq_iff _ _)

section Arranged

variable (hcmp : Comparable κ items) (hne : want ≠ .eq)

include hcmp hne

theorem pairwise_arranged :
    (items.mergeSort (mayPrecede κ want)).Pairwise fun a b => mayPrecede κ want a b = true :=
  pairwise_mergeSort_of_mem
    (fun a ha b hb c hc => mayPrecede_trans hne (hcmp b hb a ha) (hcmp c hc b hb))
    fun _ _ _ _ => mayPrecede_total hne

theorem filter_arranged (key : Plain) :
    (items.mergeSort (mayPrecede κ want)).filter (hasKey κ key) = items.filter (hasKey κ key) :=
  filter_mergeSort
    (fun a ha b hb c hc => mayPrecede_trans hne (hcmp b hb a ha) (hcmp c hc b hb))
    (fun _ _ _ _ => mayPrecede_total hne) fun _ _ _ _ ha hb =>
      mayPrecede_of_same hne ((hasKey_iff.mp ha).trans (hasKey_iff.mp hb).symm)

end Arranged

/-- The earliest of the items that no other item has to precede. -/
structure FirstOf (κ : α → Plain) (want : Ordering) (items : List α) (a : α) : Prop where
  foremost : ∀ b ∈ items, mayPrecede κ want a b = true
  earliest : (items.filter (hasKey κ (κ a))).head? = some a

namespace FirstOf

theorem mem (h : FirstOf κ want items a) : a ∈ items :=
  (List.mem_filter.mp (List.mem_of_head? h.earliest)).1

/-- There is one at most. -/
theorem unique (hne : want ≠ .eq) (hcmp : Comparable κ items) (ha : FirstOf κ want items a)
    (hb : FirstOf κ want items b) : a = b := by
  have hab := mayPrecede_iff.mp (ha.foremost b hb.mem)
  have hba := mayPrecede_iff.mp (hb.foremost a ha.mem)
  obtain ⟨o, ho⟩ := hcmp a ha.mem b hb.mem
  have hsame : κ a = κ b := by
    rw [Plain.order?_swap, ho] at hab
    rw [ho] at hba
    rw [← Plain.order?_eq_iff, ho]
    revert hab hba hne
    cases o <;> cases want <;> decide
  have hearliest := ha.earliest
  rw [hsame, hb.earliest] at hearliest
  exact (Option.some.inj hearliest).symm

theorem single (hne : want ≠ .eq) : FirstOf κ want [a] a where
  foremost b hb := mayPrecede_of_same hne (congrArg κ (List.mem_singleton.mp hb)).symm
  earliest := by
    rw [List.filter_cons_of_pos (hasKey_iff.mpr rfl)]
    rfl

/-- A later item takes the place of the first one only if it has to precede it. -/
theorem concat (hne : want ≠ .eq) (h : FirstOf κ want items a) :
    FirstOf κ want (items ++ [c]) (if (κ c).order? (κ a) == some want then c else a) := by
  split
  · rename_i hca
    rw [beq_iff_eq] at hca
    have hdiffer : ∀ b ∈ items, ¬hasKey κ (κ c) b = true := by
      intro b hb hkey
      rw [← hasKey_iff.mp hkey] at hca
      exact mayPrecede_iff.mp (h.foremost b hb) hca
    refine ⟨fun b hb => ?_, ?_⟩
    · rcases List.mem_append.mp hb with hb | hb
      · rw [mayPrecede_iff]
        exact fun hbc =>
          mayPrecede_iff.mp (h.foremost b hb) (Plain.order?_trans_same hbc hca)
      · exact (single hne).foremost b hb
    · rw [List.filter_append, List.filter_eq_nil_iff.mpr hdiffer, List.nil_append]
      exact (single hne).earliest
  · rename_i hca
    refine ⟨fun b hb => ?_, ?_⟩
    · rcases List.mem_append.mp hb with hb | hb
      · exact h.foremost b hb
      · rw [List.mem_singleton.mp hb]
        simpa [mayPrecede_iff] using hca
    · rw [List.filter_append, List.head?_append, h.earliest]
      rfl

/-- The first of the arranged items. -/
theorem of_arranged (hne : want ≠ .eq) (hcmp : Comparable κ items) {rest : List α}
    (h : items.mergeSort (mayPrecede κ want) = a :: rest) : FirstOf κ want items a where
  foremost b hb := by
    have hpairwise := pairwise_arranged hcmp hne
    have hmem : b ∈ items.mergeSort (mayPrecede κ want) := List.mem_mergeSort.mpr hb
    rw [h] at hpairwise hmem
    rcases List.mem_cons.mp hmem with rfl | hmem
    · exact mayPrecede_of_same hne rfl
    · exact List.rel_of_pairwise_cons hpairwise hmem
  earliest := by
    rw [← filter_arranged hcmp hne, h, List.filter_cons_of_pos (hasKey_iff.mpr rfl)]
    rfl

/-- It is the first of the arranged items. -/
theorem head?_arranged (h : FirstOf κ want items a) (hcmp : Comparable κ items) (hne : want ≠ .eq) :
    (items.mergeSort (mayPrecede κ want)).head? = some a := by
  have hmem : a ∈ items.mergeSort (mayPrecede κ want) := List.mem_mergeSort.mpr h.mem
  obtain ⟨b, rest, hsorted⟩ := List.exists_cons_of_ne_nil (List.ne_nil_of_mem hmem)
  rw [hsorted, List.head?_cons, (of_arranged hne hcmp hsorted).unique hne hcmp h]

end FirstOf

/-! ## 3. What sorting gives -/

theorem inOrder_of_pairwise {ε : Type} {before : α → α → Except ε Bool} : ∀ {items : List α},
    items.Pairwise (fun a b => (before b a).toOption = some false) →
      Sorting.inOrder before items = true
  | [], _ | [_], _ => rfl
  | a :: b :: rest, h => by
    rw [Sorting.inOrder, List.rel_of_pairwise_cons h (.head _), inOrder_of_pairwise h.of_cons]
    rfl

/-- The order that `reverse` makes of two keys of which one has to come first. -/
def firstWith (reverse : Bool) : Ordering := if reverse then .gt else .lt

theorem firstWith_ne (reverse : Bool) : firstWith reverse ≠ .eq := by cases reverse <;> decide

theorem allPlain_iff {vs : List Value} :
    Value.allPlain vs = true ↔ ∀ v ∈ vs, v.isPlain = true := by
  induction vs with
  | nil => exact ⟨fun _ _ h => absurd h List.not_mem_nil, fun _ => rfl⟩
  | cons v vs ih => rw [Value.allPlain, Bool.and_eq_true, ih, List.forall_mem_cons]

theorem comesBefore_plain {s : Store} {reverse : Bool} {p q : Value × Value}
    (hp : p.1.isPlain = true) (hq : q.1.isPlain = true) :
    (comesBefore s reverse p q).toOption
      = (p.1.plain.order? q.1.plain).map (· == firstWith reverse) := by
  have h := s.order_plain hp hq
  unfold comesBefore
  cases hs : s.order p.1 q.1 with
  | error e =>
    rw [hs] at h
    rw [Option.map_eq_none_iff.mp h.symm]
    rfl
  | ok answer =>
    rw [hs] at h
    obtain ⟨o, ho, rfl⟩ := Option.map_eq_some_iff.mp h.symm
    rw [ho]
    rfl

/-- Plain keys that can be compared are arranged by merging, whatever stands in the store. -/
theorem arrange_plain (s : Store) (reverse : Bool) {κ : Value → Plain}
    {pairs : List (Value × Value)} (hkeys : ∀ p ∈ pairs, p.1.isPlain = true ∧ p.1.plain = κ p.2)
    (hcmp : Comparable κ (pairs.map (·.2))) :
    ∃ out, arrange s reverse pairs = .ok out
      ∧ out.map (·.2) = (pairs.map (·.2)).mergeSort (mayPrecede κ (firstWith reverse)) := by
  have hbefore : ∀ p ∈ pairs, ∀ q ∈ pairs, (comesBefore s reverse q p).toOption
      = ((κ q.2).order? (κ p.2)).map (· == firstWith reverse) := by
    intro p hp q hq
    rw [comesBefore_plain (hkeys q hq).1 (hkeys p hp).1, (hkeys q hq).2, (hkeys p hp).2]
  have hle : ∀ p ∈ pairs, ∀ q ∈ pairs, ((comesBefore s reverse q p).toOption != some true)
      = mayPrecede κ (firstWith reverse) p.2 q.2 := by
    intro p hp q hq
    rw [hbefore p hp q hq, mayPrecede]
    cases (κ q.2).order? (κ p.2) with
    | none => rfl
    | some o => cases o <;> cases reverse <;> rfl
  have hmerged := List.map_mergeSort (s := mayPrecede κ (firstWith reverse)) hle
  have hplain : Value.allPlain (pairs.map (·.1)) = true :=
    allPlain_iff.mpr (List.forall_mem_map.mpr fun p hp => (hkeys p hp).1)
  have hordered : Sorting.inOrder (comesBefore s reverse)
      (pairs.mergeSort fun p q => (comesBefore s reverse q p).toOption != some true) = true := by
    have hpairwise := pairwise_arranged hcmp (firstWith_ne reverse)
    rw [← hmerged, List.pairwise_map] at hpairwise
    refine inOrder_of_pairwise (hpairwise.imp_of_mem fun {p q} hp hq h => ?_)
    have hp := List.mem_mergeSort.mp hp
    have hq := List.mem_mergeSort.mp hq
    obtain ⟨o, ho⟩ := hcmp q.2 (List.mem_map_of_mem hq) p.2 (List.mem_map_of_mem hp)
    rw [mayPrecede_iff, ho] at h
    rw [hbefore p hp q hq, ho, Option.map_some, beq_false_of_ne fun hw => h (congrArg some hw)]
  refine ⟨_, ?_, hmerged⟩
  unfold arrange Sorting.arrangement?
  dsimp only
  rw [if_pos hplain, if_pos hordered]

/-! ## 4. Computed keys -/

/-- The key of an item: the item itself, or what a function makes of it. -/
def keyOf (key : Option Value) (v : Value) : Action Value :=
  match key with
  | none | some .none => return v
  | some f => call f [v]

theorem keysOf_eq (key : Option Value) (items : List Value) :
    keysOf key items = items.mapM (keyOf key) := by
  have hself : items.mapM (fun v => (return v : Action Value)) = (return items : Action _) := by
    rw [List.mapM_pure, List.map_id']
  cases key with
  | none => exact hself.symm
  | some f =>
    cases f with
    | none => exact hself.symm
    | _ => rfl

/-- Keys that are computed without an effect that a later computation notices: on every store that
is kept, an item has the same key, up to equality. The keys can be compared with each other. -/
structure Keys (ctx : Context) (kept : Store → Prop) (key : Option Value) (items : List Value)
    (k : Value → PlainValue) : Prop where
  computed : ∀ v ∈ items, ∀ s, kept s → ∃ (w : PlainValue) (s' : Store),
    keyOf key v ctx s = .ok w s' ∧ s'.equal w (k v) = true ∧ kept s'
  comparable : ∀ v ∈ items, ∀ w ∈ items, ∀ s, kept s → ∃ o, s.order (k v) (k w) = .ok (some o)

/-- What the key of an item says. -/
def saidBy (k : Value → PlainValue) (v : Value) : Plain := (k v).val.plain

section Runs

variable {ctx : Context} {kept : Store → Prop} {key : Option Value} {items : List Value}
  {k : Value → PlainValue} {s : Store} {want : Ordering}

theorem Keys.of_subset (h : Keys ctx kept key items k) {some : List Value} (hsub : some ⊆ items) :
    Keys ctx kept key some k where
  computed v hv := h.computed v (hsub hv)
  comparable v hv w hw := h.comparable v (hsub hv) w (hsub hw)

theorem Keys.said_comparable (h : Keys ctx kept key items k) (hs : kept s) :
    Comparable (saidBy k) items := by
  intro v hv w hw
  obtain ⟨o, ho⟩ := h.comparable v hv w hw s hs
  exact ⟨o, (s.order_eq_ok_some (k v).property (k w).property).mp ho⟩

theorem keysOf_run (h : Keys ctx kept key items k) (hs : kept s) :
    ∃ (keys : List Value) (s' : Store), keysOf key items ctx s = .ok keys s' ∧ kept s'
      ∧ List.Forall₂ (fun w v => w.isPlain = true ∧ w.plain = saidBy k v) keys items := by
  rw [keysOf_eq]
  induction items generalizing s with
  | nil => exact ⟨[], s, rfl, hs, .nil⟩
  | cons v items ih =>
    obtain ⟨w, s₁, hw, hequal, hs₁⟩ := h.computed v (.head _) s hs
    obtain ⟨keys, s₂, hrun, hs₂, hkeys⟩ := ih (h.of_subset (List.subset_cons_self _ _)) hs₁
    refine ⟨w :: keys, s₂, ?_, hs₂, .cons ⟨w.property, ?_⟩ hkeys⟩
    · rw [List.mapM_cons]
      exact run_bind_eq_ok.mpr ⟨_, _, hw, run_bind_eq_ok.mpr ⟨_, _, hrun, rfl⟩⟩
    · exact (s₁.equal_plain w.property (k v).property).mp hequal

/-- **Sorting** gives the stable arrangement of the items. -/
theorem sortValues_run (h : Keys ctx kept key items k) (hs : kept s) (reverse : Bool) :
    ∃ s', sortValues items key reverse ctx s
      = .ok (items.mergeSort (mayPrecede (saidBy k) (firstWith reverse))) s' := by
  obtain ⟨keys, s₁, hkeys, hs₁, hall⟩ := keysOf_run h hs
  obtain ⟨hlength, hsaid⟩ := List.forall₂_iff_zip.mp hall
  have hitems : (keys.zip items).map (·.2) = items := List.map_snd_zip hlength.symm.le
  have hcmp : Comparable (saidBy k) ((keys.zip items).map (·.2)) := by
    rw [hitems]
    exact h.said_comparable hs
  obtain ⟨out, hout, hsorted⟩ := arrange_plain s₁ reverse (fun p hp => hsaid hp) hcmp
  rw [hitems] at hsorted
  refine ⟨s₁, run_bind_eq_ok.mpr ⟨_, _, hkeys, run_bind_eq_ok.mpr ⟨_, _, rfl, ?_⟩⟩⟩
  rw [hout, ← hsorted]
  rfl

theorem order_run {l r : Value} (symbol : String) (hl : l.isPlain = true) (hr : r.isPlain = true)
    {o : Ordering} (h : l.plain.order? r.plain = some o) :
    order l r symbol ctx s = .ok (some o) s := by
  refine run_bind_eq_ok.mpr ⟨_, _, rfl, ?_⟩
  rw [(s.order_eq_ok_some hl hr).mpr h]
  rfl

/-- One round of scanning: an item takes the place of the best one so far if there is none, or if
the item has to precede it. -/
theorem bestOf_cons (symbol : String) (item : Value) (rest : List Value)
    (best : Option (Value × Value)) :
    bestOf key want symbol (item :: rest) best = (do
      let k ← keyOf key item
      let better ← match best with
        | .none => pure true
        | .some (bestKey, _) => do pure ((← order k bestKey symbol) == .some want)
      bestOf key want symbol rest (if better then .some (k, item) else best)) := by
  cases key with
  | none => rfl
  | some f => cases f <;> rfl

/-- **Scanning** gives the first of the items: those that were seen, whose first one is the best so
far, and the rest. -/
theorem bestOf_run (hne : want ≠ .eq) (symbol : String) : ∀ {rest seen : List Value} {s : Store}
    {best bestKey : Value}, Keys ctx kept key (seen ++ rest) k → kept s →
    FirstOf (saidBy k) want seen best → bestKey.isPlain = true → bestKey.plain = saidBy k best →
    ∃ (v : Value) (s' : Store),
      bestOf key want symbol rest (some (bestKey, best)) ctx s = .ok (some v) s'
        ∧ FirstOf (saidBy k) want (seen ++ rest) v
  | [], seen, s, best, _, _, _, hfirst, _, _ =>
    ⟨best, s, rfl, by rwa [List.append_nil]⟩
  | item :: rest, seen, s, best, bestKey, h, hs, hfirst, hplain, hsaid => by
    have hitem : item ∈ seen ++ item :: rest := List.mem_append_right _ (.head _)
    obtain ⟨w, s₁, hw, hequal, hs₁⟩ := h.computed item hitem s hs
    have hw' : w.val.plain = saidBy k item :=
      (s₁.equal_plain w.property (k item).property).mp hequal
    obtain ⟨o, ho⟩ := h.said_comparable hs item hitem best
      (List.mem_append_left _ hfirst.mem)
    have horder : order w.val bestKey symbol ctx s₁ = .ok (some o) s₁ :=
      order_run symbol w.property hplain (by rw [hw', hsaid]; exact ho)
    have hnext := hfirst.concat (c := item) hne
    rw [ho] at hnext
    have happend : seen ++ item :: rest = (seen ++ [item]) ++ rest := by
      rw [List.append_assoc, List.singleton_append]
    rw [happend] at h ⊢
    have hround : bestOf key want symbol (item :: rest) (some (bestKey, best)) ctx s
        = bestOf key want symbol rest
          (if some o == some want then some (w.val, item) else some (bestKey, best)) ctx s₁ := by
      rw [bestOf_cons, run_bind, hw]
      dsimp only
      rw [run_bind, horder]
      rfl
    rw [hround]
    split
    · rename_i hbetter
      rw [if_pos hbetter] at hnext
      exact bestOf_run hne symbol h hs₁ hnext w.property hw'
    · rename_i hbetter
      rw [if_neg hbetter] at hnext
      exact bestOf_run hne symbol h hs₁ hnext hplain hsaid

/-- Scanning items of which none was seen gives nothing exactly if there are none. -/
theorem bestOf_run_cons (hne : want ≠ .eq) (symbol : String) {item : Value} {rest : List Value}
    (h : Keys ctx kept key (item :: rest) k) (hs : kept s) :
    ∃ (v : Value) (s' : Store), bestOf key want symbol (item :: rest) none ctx s = .ok (some v) s'
      ∧ FirstOf (saidBy k) want (item :: rest) v := by
  obtain ⟨w, s₁, hw, hequal, hs₁⟩ := h.computed item (.head _) s hs
  have hround : bestOf key want symbol (item :: rest) none ctx s
      = bestOf key want symbol rest (some (w.val, item)) ctx s₁ := by
    rw [bestOf_cons, run_bind, hw]
    rfl
  have hseen : Keys ctx kept key ([item] ++ rest) k := h
  rw [hround]
  exact bestOf_run hne symbol hseen hs₁ (.single hne) w.property
    ((s₁.equal_plain w.property (k item).property).mp hequal)

/-! ## 5. The builtin functions -/

theorem onlyKeywords_run {name : String} {kwargs : List Keyword} {names : List String}
    (h : ∀ a ∈ kwargs, a.name ∈ names) : onlyKeywords name kwargs names ctx s = .ok () s := by
  have hfind : kwargs.find? (fun a => !names.contains a.name) = none :=
    List.find?_eq_none.mpr fun a ha => by simpa using h a ha
  unfold onlyKeywords
  rw [hfind]
  rfl

theorem newList_run (vs : List Value) (ctx : Context) (s : Store) :
    ∃ (r : Nat) (s' : Store), newList vs ctx s = .ok (.list r) s'
      ∧ (s'.lists.get r).toList = vs := by
  refine ⟨_, _, rfl, ?_⟩
  have hnew : ((s.lists.rows.push vs.toArray).getD s.lists.rows.size default).toList = vs := by simp
  exact hnew

/-- A call of `sorted`. -/
theorem sorted_run {xs : Value} {s₁ : Store} {kwargs : List Keyword} {reverse : Option Bool}
    (hxs : collect xs ctx s = .ok items s₁) (h : Keys ctx kept key items k) (hs₁ : kept s₁)
    (hnames : ∀ a ∈ kwargs, a.name ∈ ["key", "reverse"]) (hkey : keyword? kwargs "key" = key)
    (hreverse : keyword? kwargs "reverse" = reverse.map .bool) :
    ∃ (r : Nat) (s' : Store), callBuiltin "sorted" [xs] kwargs ctx s = .ok (.list r) s'
      ∧ (s'.lists.get r).toList
        = items.mergeSort (mayPrecede (saidBy k) (firstWith (reverse.getD false))) := by
  obtain ⟨s₂, hsorted⟩ := sortValues_run h hs₁ (reverse.getD false)
  obtain ⟨r, s', hnew, hr⟩ := newList_run
    (items.mergeSort (mayPrecede (saidBy k) (firstWith (reverse.getD false)))) ctx s₂
  refine ⟨r, s', ?_, hr⟩
  show sorted [xs] kwargs ctx s = _
  unfold sorted
  rw [hkey, hreverse, run_bind, onlyKeywords_run hnames]
  refine run_bind_eq_ok.mpr ⟨(), s, rfl, run_bind_eq_ok.mpr ⟨_, _, hxs, ?_⟩⟩
  cases reverse with
  | none | some flag =>
    exact run_bind_eq_ok.mpr ⟨_, _, rfl, run_bind_eq_ok.mpr ⟨_, _, hsorted, hnew⟩⟩

/-- A call of `min` or of `max`. -/
theorem extremum_run {xs : Value} {s₁ : Store} {kwargs : List Keyword} (name : String)
    (hne : want ≠ .eq) (hitems : items ≠ []) (hxs : collect xs ctx s = .ok items s₁)
    (h : Keys ctx kept key items k) (hs₁ : kept s₁)
    (hnames : ∀ a ∈ kwargs, a.name ∈ ["key", "default"]) (hkey : keyword? kwargs "key" = key) :
    ∃ (v : Value) (s' : Store), extremum name [xs] kwargs want ctx s = .ok v s'
      ∧ FirstOf (saidBy k) want items v := by
  obtain ⟨item, rest, rfl⟩ := List.exists_cons_of_ne_nil hitems
  obtain ⟨v, s', hbest, hfirst⟩ := bestOf_run_cons hne (if want == .lt then "<" else ">") h hs₁
  refine ⟨v, s', ?_, hfirst⟩
  unfold extremum
  rw [hkey, run_bind, onlyKeywords_run hnames]
  exact run_bind_eq_ok.mpr ⟨_, _, hxs, run_bind_eq_ok.mpr ⟨_, _, hbest, rfl⟩⟩

/-! ## 6. Sorting and extrema -/

/-- A stable arrangement of items by their keys, from the least key on or from the greatest. -/
structure Arranged (s : Store) (k : Value → PlainValue) (reverse : Bool) (items out : List Value) :
    Prop where
  perm : out.Perm items
  ordered : out.Pairwise fun v w =>
    ∃ o, s.order (k v) (k w) = .ok (some o) ∧ (o = firstWith reverse ∨ o = .eq)
  stable : ∀ key : PlainValue,
    out.filter (fun v => s.equal (k v) key) = items.filter fun v => s.equal (k v) key

theorem hasKey_eq (s : Store) (key : PlainValue) :
    hasKey (saidBy k) key.val.plain = fun v => s.equal (k v) key := by
  funext v
  rw [Bool.eq_iff_iff, hasKey_iff, s.equal_plain (k v).property key.property]
  rfl

theorem arranged_mergeSort (s : Store) (hcmp : Comparable (saidBy k) items) (reverse : Bool) :
    Arranged s k reverse items
      (items.mergeSort (mayPrecede (saidBy k) (firstWith reverse))) where
  perm := List.mergeSort_perm _ _
  ordered := by
    refine (pairwise_arranged hcmp (firstWith_ne reverse)).imp_of_mem fun {v w} hv hw h => ?_
    obtain ⟨o, ho⟩ := hcmp v (List.mem_mergeSort.mp hv) w (List.mem_mergeSort.mp hw)
    refine ⟨o, (s.order_eq_ok_some (k v).property (k w).property).mpr ho, ?_⟩
    rw [mayPrecede_iff, Plain.order?_swap, ho] at h
    revert h
    cases o <;> cases reverse <;> decide
  stable key := by
    rw [← hasKey_eq]
    exact filter_arranged hcmp (firstWith_ne reverse) _

/-- **Sorting and extrema agree.** Of items whose keys are plain, can be compared and are computed
without an effect, `sorted` makes a stable arrangement in either direction, `min` gives the first
item of the one that ascends, and `max` the first item of the one that descends. -/
theorem sorting_extrema_agree {xs : Value} {s₁ : Store} (hxs : collect xs ctx s = .ok items s₁)
    (h : Keys ctx kept key items k) (hs₁ : kept s₁) :
    ∃ up down : List Value,
      Arranged s₁ k false items up ∧ Arranged s₁ k true items down
        ∧ (∀ (kwargs : List Keyword) (reverse : Option Bool),
          (∀ a ∈ kwargs, a.name ∈ ["key", "reverse"]) → keyword? kwargs "key" = key →
          keyword? kwargs "reverse" = reverse.map .bool →
          ∃ (r : Nat) (s' : Store), callBuiltin "sorted" [xs] kwargs ctx s = .ok (.list r) s'
            ∧ (s'.lists.get r).toList = if reverse.getD false then down else up)
        ∧ (items ≠ [] → ∀ kwargs : List Keyword,
          (∀ a ∈ kwargs, a.name ∈ ["key", "default"]) → keyword? kwargs "key" = key →
          ∃ (low high : Value) (s' s'' : Store),
            callBuiltin "min" [xs] kwargs ctx s = .ok low s' ∧ up.head? = some low
              ∧ callBuiltin "max" [xs] kwargs ctx s = .ok high s'' ∧ down.head? = some high) := by
  have hcmp := h.said_comparable hs₁
  refine ⟨_, _, arranged_mergeSort s₁ hcmp false, arranged_mergeSort s₁ hcmp true,
    fun kwargs reverse hnames hkey hreverse => ?_, fun hitems kwargs hnames hkey => ?_⟩
  · obtain ⟨r, s', hcall, hr⟩ := sorted_run hxs h hs₁ hnames hkey hreverse
    refine ⟨r, s', hcall, hr.trans ?_⟩
    rcases reverse with _ | _ | _ <;> rfl
  · obtain ⟨low, s', hmin, hlow⟩ :=
      extremum_run "min" (firstWith_ne false) hitems hxs h hs₁ hnames hkey
    obtain ⟨high, s'', hmax, hhigh⟩ :=
      extremum_run "max" (firstWith_ne true) hitems hxs h hs₁ hnames hkey
    exact ⟨low, high, s', s'', hmin, hlow.head?_arranged hcmp (firstWith_ne false), hmax,
      hhigh.head?_arranged hcmp (firstWith_ne true)⟩

end Runs

/-- The number of items of a tuple. -/
def lengthKey : Value → PlainValue
  | .tuple _ items => ⟨.int (Int64.ofNat items.length), rfl⟩
  | _ => ⟨.int 0, rfl⟩

/-- Tuples of two lengths. -/
def ties : List Value :=
  [[.int 5, .int 6], [.int 4], [.bool true, .int 1], [.int 3]].map (.tuple default)

theorem keys_length :
    Keys (plainContext 1) (fun _ => True) (some (.builtin default "len")) ties lengthKey where
  computed v hv s _ := by
    obtain ⟨items, -, rfl⟩ := List.mem_map.mp hv
    exact ⟨⟨.int (Int64.ofNat items.length), rfl⟩, s, rfl, (s.equal_plain rfl rfl).mpr rfl, trivial⟩
  comparable v _ w _ s _ := by
    have hkey : ∀ v, ∃ n, (lengthKey v).val = .int n := fun v => by cases v <;> exact ⟨_, rfl⟩
    obtain ⟨m, hm⟩ := hkey v
    obtain ⟨n, hn⟩ := hkey w
    rw [hm, hn]
    exact ⟨_, (s.order_eq_ok_some rfl rfl).mpr rfl⟩

/-- Of the tuples of one length the earliest is chosen, from either end. -/
theorem sorting_extrema_agree_ties : ∃ up down : List Value,
    Arranged default lengthKey false ties up ∧ Arranged default lengthKey true ties down
      ∧ up.head? = ties[1]? ∧ down.head? = ties[0]? := by
  have hxs : collect (.tuple default ties) (plainContext 1) default = .ok ties default := rfl
  obtain ⟨up, down, hup, hdown, -, hextrema⟩ := sorting_extrema_agree hxs keys_length trivial
  obtain ⟨low, high, s', s'', hmin, hlow, hmax, hhigh⟩ := hextrema (by decide)
    [⟨default, "key", .builtin default "len"⟩] (by decide) rfl
  have hlow' : callBuiltin "min" [.tuple default ties] [⟨default, "key", .builtin default "len"⟩]
    (plainContext 1) default = .ok (.tuple default [.int 4]) default := rfl
  have hhigh' : callBuiltin "max" [.tuple default ties] [⟨default, "key", .builtin default "len"⟩]
    (plainContext 1) default = .ok (.tuple default [.int 5, .int 6]) default := rfl
  rw [hlow'] at hmin
  rw [hhigh'] at hmax
  cases hmin
  cases hmax
  exact ⟨up, down, hup, hdown, hlow, hhigh⟩

end Stackwise
