import Mathlib.Data.List.Basic
import Stackwise.Proofs.Types.Declarations
import Stackwise.Types.Linearization

/-!
# Subtyping in a model that was built

A type model starts empty and grows by declarations. A search order is merged from those of the bases.
The merge is greedy: it takes the first head that stands in no tail and never takes a choice back. A
merge that ends has kept every sequence, and one that is blocked could not have ended in any way.

* `Linearization.Merges`: the choices of a merge, one after the other;
* `Linearization.merges_of_merge`: a merge that ends has made such choices;
* `Linearization.Merges.sublist`, `Linearization.Merges.mem`, `Linearization.Merges.nodup`: what the
  choices lead to;
* `Linearization.exists_free_head`: sequences that one order keeps have a head that is not blocked;
* `Linearization.exists_merge`: so a merge ends whenever there is such an order.

Each declaration keeps the table of search orders in shape, and from that shape alone follows what the
analysis needs of subtyping:

* `TypeModel.Ordered`: every search order stays inside the model and holds, with a type, the whole
  search order of that type;
* `TypeModel.Built.ordered`: every model that declarations build is ordered;
* `TypeModel.isSubtype_trans`: in an ordered model subtyping is transitive;
* `TypeModel.isSubtype_commonSupertype`: a common supertype is above both sides, in any model;
* `TypeModel.Built.descends`: a search order names no type that was declared after its own, so no two
  types are above each other (`TypeModel.isSubtype_antisymm`);
* `TypeModel.commonSupertype_comm`: of several minimal common supertypes one is chosen, whatever the
  order of the two types.
-/

namespace Stackwise

namespace Linearization

variable {seqs : List (List TypeId)} {s r : List TypeId} {c x : TypeId}

/-! ## 1. One choice -/

/-- The sequences that are left. -/
def live (seqs : List (List TypeId)) : List (List TypeId) := seqs.filter fun s => !s.isEmpty

theorem mem_live : s ∈ live seqs ↔ s ∈ seqs ∧ s ≠ [] := by
  simp [live]

/-- A head that stands in no tail. -/
def Free (seqs : List (List TypeId)) (c : TypeId) : Prop :=
  (∃ s ∈ seqs, s.head? = some c) ∧ ∀ s ∈ seqs, c ∉ s.tail

theorem free_of_candidate? (h : candidate? seqs = some c) : Free seqs c := by
  refine ⟨List.mem_filterMap.mp (List.mem_of_find?_eq_some h), fun s hs hc => ?_⟩
  have hfree := List.find?_some h
  rw [Bool.not_eq_true', List.any_eq_false] at hfree
  exact hfree s hs (List.contains_iff_mem.mpr hc)

theorem exists_candidate? (h : Free seqs c) : ∃ c', candidate? seqs = some c' := by
  refine Option.isSome_iff_exists.mp (List.find?_isSome.mpr ⟨c, List.mem_filterMap.mpr h.1, ?_⟩)
  rw [Bool.not_eq_true', List.any_eq_false]
  exact fun s hs hc => h.2 s hs (List.contains_iff_mem.mp hc)

theorem strike_sublist (c : TypeId) (s : List TypeId) : (strike c s).Sublist s := by
  cases s with
  | nil => exact .refl _
  | cons x xs =>
    rw [strike]
    split
    · exact List.sublist_cons_self x xs
    · exact .refl _

theorem not_mem_strike (h : c ∉ s.tail) : c ∉ strike c s := by
  cases s with
  | nil => exact List.not_mem_nil
  | cons y ys =>
    rw [strike]
    split
    · exact h
    · rename_i hy
      rw [List.mem_cons, not_or]
      exact ⟨fun hc => hy hc.symm, h⟩

/-- What is left of a sequence, with the choice in front, still holds the sequence. -/
theorem sublist_of_strike (h : (strike c s).Sublist r) : s.Sublist (c :: r) := by
  cases s with
  | nil => exact List.nil_sublist _
  | cons y ys =>
    rw [strike] at h
    split at h
    · rename_i hy
      rw [hy]
      exact h.cons_cons c
    · exact h.cons c

/-! ## 2. The choices of a merge -/

/-- Merging the sequences choice by choice gives the order. -/
inductive Merges : List (List TypeId) → List TypeId → Prop where
  | done {seqs : List (List TypeId)} : live seqs = [] → Merges seqs []
  | choose {seqs : List (List TypeId)} {c : TypeId} {r : List TypeId} :
    Free (live seqs) c → Merges ((live seqs).map (strike c)) r → Merges seqs (c :: r)

theorem merges_of_mergeWith {fuel : Nat} (h : mergeWith fuel seqs = some r) : Merges seqs r := by
  induction fuel generalizing seqs r with
  | zero =>
    unfold mergeWith at h
    split at h
    · rename_i hall
      cases h
      refine .done (List.filter_eq_nil_iff.mpr fun s hs => ?_)
      rw [List.all_eq_true.mp hall s hs]
      exact Bool.false_ne_true
    · cases h
  | succ fuel ih =>
    simp only [mergeWith] at h
    split at h
    · rename_i hempty
      cases h
      exact .done (List.isEmpty_iff.mp hempty)
    · obtain ⟨c, hc, h⟩ := Option.bind_eq_some_iff.mp h
      obtain ⟨rest, hrest, h⟩ := Option.bind_eq_some_iff.mp h
      cases h
      exact .choose (free_of_candidate? hc) (ih hrest)

theorem merges_of_merge (h : merge seqs = some r) : Merges seqs r := merges_of_mergeWith h

/-- An order keeps every sequence that it was merged from. -/
theorem Merges.sublist (h : Merges seqs r) : ∀ s ∈ seqs, s.Sublist r := by
  induction h with
  | @done seqs hlive =>
    intro s hs
    by_cases hne : s = []
    · exact hne ▸ .refl _
    · have hmem := mem_live.mpr ⟨hs, hne⟩
      rw [hlive] at hmem
      cases hmem
  | @choose seqs c r _ _ ih =>
    intro s hs
    by_cases hne : s = []
    · rw [hne]
      exact List.nil_sublist _
    · exact sublist_of_strike (ih _ (List.mem_map_of_mem (mem_live.mpr ⟨hs, hne⟩)))

theorem Merges.mem (h : Merges seqs r) : x ∈ r ↔ ∃ s ∈ seqs, x ∈ s := by
  refine ⟨fun hx => ?_, ?_⟩
  · induction h with
    | done => cases hx
    | @choose seqs c r hfree _ ih =>
      rcases List.mem_cons.mp hx with rfl | hx
      · obtain ⟨s, hs, hhead⟩ := hfree.1
        exact ⟨s, (mem_live.mp hs).1, List.mem_of_head? hhead⟩
      · obtain ⟨t, ht, hxt⟩ := ih hx
        obtain ⟨s, hs, rfl⟩ := List.mem_map.mp ht
        exact ⟨s, (mem_live.mp hs).1, (strike_sublist c s).subset hxt⟩
  · rintro ⟨s, hs, hx⟩
    exact (h.sublist s hs).subset hx

/-- A choice comes never again. -/
theorem Merges.nodup (h : Merges seqs r) : r.Nodup := by
  induction h with
  | done => exact List.nodup_nil
  | @choose seqs c r hfree hrest ih =>
    refine List.nodup_cons.mpr ⟨fun hc => ?_, ih⟩
    obtain ⟨t, ht, hct⟩ := hrest.mem.mp hc
    obtain ⟨s, hs, rfl⟩ := List.mem_map.mp ht
    exact not_mem_strike (hfree.2 s hs) hct

/-- **A merge loses nothing and invents nothing.** -/
theorem mem_merge (h : merge seqs = some r) (x : TypeId) : x ∈ r ↔ ∃ s ∈ seqs, x ∈ s :=
  (merges_of_merge h).mem

/-! ## 3. Merges that end -/

/-- **Sequences that one order keeps have a head that no tail blocks**: the first entry of the order
that is a head. -/
theorem exists_free_head {order : List TypeId} (horder : order.Nodup) (hne : seqs ≠ [])
    (h : ∀ s ∈ seqs, s ≠ [] ∧ s.Sublist order) : ∃ c, Free seqs c := by
  induction order with
  | nil =>
    obtain ⟨s, hs⟩ := List.exists_mem_of_ne_nil seqs hne
    exact absurd (List.sublist_nil.mp (h s hs).2) (h s hs).1
  | cons y order ih =>
    obtain ⟨hy, horder⟩ := List.nodup_cons.mp horder
    by_cases hhead : ∃ s ∈ seqs, s.head? = some y
    · exact ⟨y, hhead, fun s hs hys => hy ((h s hs).2.tail.subset hys)⟩
    · -- no sequence starts with the first entry, so the rest of the order keeps them all
      refine ih horder fun s hs => ⟨(h s hs).1, ?_⟩
      cases (h s hs).2 with
      | cons _ hsub => exact hsub
      | cons_cons _ hsub => exact absurd ⟨_, hs, rfl⟩ hhead

theorem pending_live (seqs : List (List TypeId)) : pending (live seqs) = pending seqs := by
  rw [pending, live, List.flatten_filter_not_isEmpty, pending]

theorem pending_strike_lt (h : ∃ s ∈ seqs, s.head? = some c) :
    pending (seqs.map (strike c)) < pending seqs := by
  have hle : ∀ seqs : List (List TypeId), pending (seqs.map (strike c)) ≤ pending seqs := by
    intro seqs
    induction seqs with
    | nil => exact Nat.le_refl _
    | cons s seqs ih =>
      have hs := (strike_sublist c s).length_le
      simp only [pending, List.map_cons, List.flatten_cons, List.length_append] at ih ⊢
      omega
  induction seqs with
  | nil =>
    obtain ⟨s, hs, -⟩ := h
    cases hs
  | cons t seqs ih =>
    obtain ⟨s, hs, hhead⟩ := h
    have ht := (strike_sublist c t).length_le
    simp only [pending, List.map_cons, List.flatten_cons, List.length_append] at ih hle ⊢
    rcases List.mem_cons.mp hs with rfl | hs
    · obtain ⟨ys, rfl⟩ := List.head?_eq_some_iff.mp hhead
      have := hle seqs
      rw [strike, if_pos rfl, List.length_cons]
      omega
    · have := ih ⟨s, hs, hhead⟩
      omega

/-- **A merge ends whenever some order keeps all sequences.** -/
theorem exists_mergeWith {fuel : Nat} {order : List TypeId} (horder : order.Nodup)
    (h : ∀ s ∈ seqs, s.Sublist order) (hfuel : pending seqs ≤ fuel) :
    ∃ r, mergeWith fuel seqs = some r := by
  induction fuel generalizing seqs with
  | zero =>
    refine ⟨[], if_pos (List.all_eq_true.mpr fun s hs => ?_)⟩
    have hnil := List.flatten_eq_nil_iff.mp (List.length_eq_zero_iff.mp (Nat.le_zero.mp hfuel))
    exact List.isEmpty_iff.mpr (hnil s hs)
  | succ fuel ih =>
    simp only [mergeWith]
    split
    · exact ⟨[], rfl⟩
    · rename_i hne
      have hne : live seqs ≠ [] := fun h' => hne (List.isEmpty_iff.mpr h')
      obtain ⟨c, hfree⟩ := exists_free_head horder hne
        fun s hs => ⟨(mem_live.mp hs).2, h s (mem_live.mp hs).1⟩
      obtain ⟨c, hc⟩ := exists_candidate? hfree
      have hlt := pending_strike_lt (free_of_candidate? hc).1
      rw [pending_live] at hlt
      have hstruck : ∀ t ∈ (live seqs).map (strike c), t.Sublist order := by
        intro t ht
        obtain ⟨s, hs, rfl⟩ := List.mem_map.mp ht
        exact (strike_sublist c s).trans (h s (mem_live.mp hs).1)
      obtain ⟨r, hr⟩ := ih hstruck (by omega)
      exact ⟨c :: r, Option.bind_eq_some_iff.mpr ⟨c, hc, Option.bind_eq_some_iff.mpr ⟨r, hr, rfl⟩⟩⟩

theorem exists_merge {order : List TypeId} (horder : order.Nodup)
    (h : ∀ s ∈ seqs, s.Sublist order) : ∃ r, merge seqs = some r :=
  exists_mergeWith horder h (Nat.le_refl _)

end Linearization

/-! ## 4. Ordered models -/

namespace TypeModel

/-- The shape of the search orders that declarations keep. -/
structure Ordered (m : TypeModel) : Prop where
  /-- The universal type is there, and nothing is above it. -/
  top : m.order TypeId.object = [TypeId.object]
  nonempty : 0 < m.size
  /-- Search orders name types of the model only. -/
  known : ∀ a b, b ∈ m.order a → b.raw < m.size
  /-- A search order holds the search orders of its members. -/
  closed : ∀ a b c, b ∈ m.order a → c ∈ m.order b → c ∈ m.order a

/-- A model that declarations build from the empty one. -/
inductive Built : TypeModel → Prop where
  | empty : Built empty
  | declare {m m' : TypeModel} (d : Declaration) : Built m → m.declareOne d = .ok m' → Built m'

theorem order_empty (a : TypeId) : empty.order a = [TypeId.object] := by
  obtain ⟨n⟩ := a
  cases n <;> rfl

theorem ordered_empty : empty.Ordered where
  top := order_empty _
  nonempty := Nat.zero_lt_one
  known a b h := by
    rw [order_empty] at h
    rw [List.mem_singleton.mp h]
    exact Nat.zero_lt_one
  closed a b c _ hc := by
    rw [order_empty] at hc ⊢
    exact hc

/-- Orders and size are all that `Ordered` looks at. -/
theorem Ordered.congr {m m' : TypeModel} (h : m.Ordered) (hb : m'.bare = m.bare) : m'.Ordered := by
  have hsize : m'.size = m.size := by rw [← size_bare, hb, size_bare]
  have horder : m'.order = m.order := funext fun a => by rw [← order_bare, hb, order_bare]
  refine ⟨?_, ?_, ?_, ?_⟩
  · rw [horder]
    exact h.top
  · rw [hsize]
    exact h.nonempty
  · rw [hsize, horder]
    exact h.known
  · rw [horder]
    exact h.closed

/-- A merged order stays inside the model and is closed like the orders that it is merged from. -/
theorem Ordered.merged {m : TypeModel} (h : m.Ordered) {bs merged : List TypeId}
    (hknown : ∀ b ∈ bs, b.raw < m.size)
    (hmerge : Linearization.merge (bs.map m.order ++ [bs]) = some merged) :
    ∀ b ∈ merged, b.raw < m.size ∧ ∀ c ∈ m.order b, c ∈ merged := by
  have hbase : ∀ base ∈ bs, ∀ c ∈ m.order base, c ∈ merged := by
    intro base hbase c hc
    refine (Linearization.mem_merge hmerge c).mpr ⟨_, List.mem_append_left _ ?_, hc⟩
    exact List.mem_map_of_mem hbase
  intro b hb
  -- a member is a base, or comes out of the order of one
  obtain ⟨s, hs, hbs⟩ := (Linearization.mem_merge hmerge b).mp hb
  rcases List.mem_append.mp hs with hs | hs
  · obtain ⟨base, hmem, rfl⟩ := List.mem_map.mp hs
    exact ⟨h.known base b hbs, fun c hc => hbase base hmem c (h.closed base b c hbs hc)⟩
  · rw [List.mem_singleton.mp hs] at hbs
    exact ⟨hknown b hbs, hbase b hbs⟩

theorem Ordered.adding {m : TypeModel} (h : m.Ordered) {name : String} {bs : List TypeId}
    {order : Linearization} (hknown : ∀ b ∈ bs, b.raw < m.size)
    (hlin : Linearization.linearize ⟨m.size⟩ bs m.order = some order) :
    (m.adding name bs order).Ordered := by
  obtain ⟨merged, hmerge, rfl⟩ := Option.map_eq_some_iff.mp hlin
  have hmerged := h.merged hknown hmerge
  refine ⟨?_, ?_, fun a b hb => ?_, fun a b c hb hc => ?_⟩
  · have hobject : TypeId.object ≠ ⟨m.size⟩ := ne_new_of_lt h.nonempty
    rw [order_adding_old hobject]
    exact h.top
  · rw [size_adding]
    exact Nat.succ_pos _
  · rw [size_adding]
    by_cases ha : a = ⟨m.size⟩
    · rw [ha, order_adding_new] at hb
      rcases List.mem_cons.mp hb with rfl | hb
      · exact Nat.lt_succ_self _
      · exact Nat.lt_succ_of_lt (hmerged b hb).1
    · rw [order_adding_old ha] at hb
      exact Nat.lt_succ_of_lt (h.known a b hb)
  · by_cases ha : a = ⟨m.size⟩
    · rw [ha, order_adding_new] at hb ⊢
      rcases List.mem_cons.mp hb with rfl | hb
      · rw [order_adding_new] at hc
        exact hc
      · rw [order_adding_old (ne_new_of_lt (hmerged b hb).1)] at hc
        exact List.mem_cons_of_mem _ ((hmerged b hb).2 c hc)
    · rw [order_adding_old ha] at hb ⊢
      rw [order_adding_old (ne_new_of_lt (h.known a b hb))] at hc
      exact h.closed a b c hb hc

/-- **One declaration keeps a model ordered.** -/
theorem Ordered.declareOne {m m' : TypeModel} (h : m.Ordered) {d : Declaration}
    (hd : m.declareOne d = .ok m') : m'.Ordered := by
  rcases declareOne_cases hd with ⟨name, bases, id, rfl, hr⟩ | hbare
  · obtain ⟨-, hknown, -, order, hlin, rfl⟩ := register_ok hr
    exact h.adding hknown hlin
  · exact h.congr hbare

/-- **Every model that declarations build is ordered.** -/
theorem Built.ordered {m : TypeModel} (h : m.Built) : m.Ordered := by
  induction h with
  | empty => exact ordered_empty
  | declare d _ hd ih => exact ih.declareOne hd

/-! ## 5. Subtyping -/

theorem isSubtype_iff {m : TypeModel} {a b : TypeId} :
    m.isSubtype a b = true ↔ a = b ∨ b = TypeId.object ∨ b ∈ m.order a := by
  simp [isSubtype, or_assoc]

theorem isSubtype_refl (m : TypeModel) (a : TypeId) : m.isSubtype a a = true :=
  isSubtype_iff.mpr (Or.inl rfl)

/-- **Subtyping is transitive** in an ordered model. -/
theorem isSubtype_trans {m : TypeModel} (h : m.Ordered) {a b c : TypeId}
    (hab : m.isSubtype a b = true) (hbc : m.isSubtype b c = true) : m.isSubtype a c = true := by
  rw [isSubtype_iff] at hab hbc ⊢
  rcases hab with rfl | rfl | hab
  · exact hbc
  · rcases hbc with rfl | rfl | hbc
    · exact Or.inr (Or.inl rfl)
    · exact Or.inr (Or.inl rfl)
    · rw [h.top] at hbc
      exact Or.inr (Or.inl (List.mem_singleton.mp hbc))
  · rcases hbc with rfl | rfl | hbc
    · exact Or.inr (Or.inr hab)
    · exact Or.inr (Or.inl rfl)
    · exact Or.inr (Or.inr (h.closed a b c hab hbc))

theorem deeper_eq_or (m : TypeModel) (a b : TypeId) : m.deeper a b = a ∨ m.deeper a b = b := by
  unfold deeper
  split
  · exact Or.inr rfl
  · split
    · exact Or.inl rfl
    · split
      · exact Or.inr rfl
      · exact Or.inl rfl

theorem foldl_deeper_mem (m : TypeModel) (t : TypeId) (ts : List TypeId) :
    ts.foldl m.deeper t ∈ t :: ts := by
  induction ts generalizing t with
  | nil => exact List.mem_singleton.mpr rfl
  | cons u us ih =>
    rcases List.mem_cons.mp (ih (m.deeper t u)) with h | h
    · rw [List.foldl_cons, h]
      rcases deeper_eq_or m t u with h' | h' <;> rw [h'] <;> simp
    · exact List.mem_cons_of_mem _ (List.mem_cons_of_mem _ h)

/-- **A common supertype is above both types**, whatever the model. -/
theorem isSubtype_commonSupertype (m : TypeModel) (a b : TypeId) :
    m.isSubtype a (m.commonSupertype a b) = true ∧ m.isSubtype b (m.commonSupertype a b) = true := by
  unfold commonSupertype
  split
  · rename_i hab
    exact ⟨m.isSubtype_refl a, hab ▸ m.isSubtype_refl a⟩
  · split
    · rename_i hab
      exact ⟨hab, m.isSubtype_refl b⟩
    · split
      · rename_i hba
        exact ⟨m.isSubtype_refl a, hba⟩
      · split
        · exact ⟨isSubtype_iff.mpr (Or.inr (Or.inl rfl)), isSubtype_iff.mpr (Or.inr (Or.inl rfl))⟩
        · rename_i t ts hshared
          have hmem := foldl_deeper_mem m t ts
          rw [← hshared] at hmem
          obtain ⟨ha, hb⟩ := List.mem_filter.mp hmem
          exact ⟨isSubtype_iff.mpr (Or.inr (Or.inr ha)),
            isSubtype_iff.mpr (Or.inr (Or.inr (by simpa using hb)))⟩

/-- A common supertype of a type and one above it is the one above. -/
theorem commonSupertype_of_isSubtype {m : TypeModel} {a b : TypeId} (h : m.isSubtype a b = true) :
    m.commonSupertype a b = b := by
  by_cases hab : a = b
  · rw [commonSupertype, if_pos hab, hab]
  · rw [commonSupertype, if_neg hab, if_pos h]

/-! ## 6. No two types are above each other -/

/-- A declaration leaves the search orders of the types that are there alone, and brings one type at
most. -/
theorem declareOne_order {m m' : TypeModel} {d : Declaration} (hd : m.declareOne d = .ok m') :
    m'.size ≤ m.size + 1 ∧ ∀ a : TypeId, a.raw < m.size → m'.order a = m.order a := by
  rcases declareOne_cases hd with ⟨name, bases, id, rfl, hr⟩ | hbare
  · obtain ⟨-, -, -, order, -, rfl⟩ := register_ok hr
    exact ⟨Nat.le_of_eq size_adding, fun a ha => order_adding_old (ne_new_of_lt ha)⟩
  · rw [← size_bare, hbare, size_bare]
    exact ⟨Nat.le_succ _, fun a _ => by rw [← order_bare, hbare, order_bare]⟩

/-- A search order names no type that was declared after its own. -/
theorem Built.descends {m : TypeModel} (h : m.Built) {a b : TypeId} (hb : b ∈ m.order a) :
    b.raw ≤ a.raw := by
  induction h with
  | empty =>
    rw [order_empty] at hb
    rw [List.mem_singleton.mp hb]
    exact Nat.zero_le _
  | @declare m m' d hm hd ih =>
    obtain ⟨hsize, hold⟩ := declareOne_order hd
    by_cases ha : a.raw < m.size
    · rw [hold a ha] at hb
      exact ih hb
    · -- the type is the new one or unknown, and whatever is known was declared before
      have hlt := (Built.declare d hm hd).ordered.known a b hb
      omega

/-- **No two types are above each other** in a model that declarations build. -/
theorem isSubtype_antisymm {m : TypeModel} (h : m.Built) {a b : TypeId}
    (hab : m.isSubtype a b = true) (hba : m.isSubtype b a = true) : a = b := by
  have hle : ∀ {a b : TypeId}, m.isSubtype a b = true → b.raw ≤ a.raw := by
    intro a b hab
    rcases isSubtype_iff.mp hab with rfl | rfl | hab
    · exact Nat.le_refl _
    · exact Nat.zero_le _
    · exact h.descends hab
  obtain ⟨n⟩ := a
  obtain ⟨k⟩ := b
  exact congrArg TypeId.mk (Nat.le_antisymm (hle hba) (hle hab))

/-- A common supertype of a type and one below it is the type itself. -/
theorem commonSupertype_of_isSubtype_right {m : TypeModel} (hm : m.Built) {a b : TypeId}
    (h : m.isSubtype b a = true) : m.commonSupertype a b = a := by
  by_cases hab : a = b
  · rw [commonSupertype, if_pos hab]
  · have hnot : ¬m.isSubtype a b = true := fun h' => hab (isSubtype_antisymm hm h' h)
    rw [commonSupertype, if_neg hab, if_neg hnot, if_pos h]

/-! ## 7. One nearest common supertype -/

/-- Which of two common supertypes is preferred. No two types are preferred to each other, so a choice
by preference does not depend on the order in which types are offered. -/
def Preferred (m : TypeModel) (a b : TypeId) : Prop :=
  m.depth b < m.depth a ∨ (m.depth a = m.depth b ∧ a.raw ≤ b.raw)

theorem Preferred.refl (m : TypeModel) (a : TypeId) : m.Preferred a a := .inr ⟨rfl, Nat.le_refl _⟩

theorem Preferred.trans {m : TypeModel} {a b c : TypeId} (hab : m.Preferred a b)
    (hbc : m.Preferred b c) : m.Preferred a c := by
  unfold Preferred at *
  omega

theorem Preferred.antisymm {m : TypeModel} {a b : TypeId} (hab : m.Preferred a b)
    (hba : m.Preferred b a) : a = b := by
  have hraw : a.raw = b.raw := by
    unfold Preferred at *
    omega
  exact congrArg TypeId.mk hraw

theorem preferred_deeper (m : TypeModel) (a b : TypeId) :
    m.Preferred (m.deeper a b) a ∧ m.Preferred (m.deeper a b) b := by
  unfold deeper Preferred
  split
  · omega
  · split
    · omega
    · split <;> omega

theorem preferred_foldl_deeper (m : TypeModel) (t : TypeId) (ts : List TypeId) :
    ∀ x ∈ t :: ts, m.Preferred (ts.foldl m.deeper t) x := by
  induction ts generalizing t with
  | nil =>
    intro x hx
    rw [List.mem_singleton.mp hx]
    exact .refl m t
  | cons u us ih =>
    have hbest := ih (m.deeper t u) _ List.mem_cons_self
    intro x hx
    rcases List.mem_cons.mp hx with rfl | hx
    · exact hbest.trans (m.preferred_deeper x u).1
    · rcases List.mem_cons.mp hx with rfl | hx
      · exact hbest.trans (m.preferred_deeper t x).2
      · exact ih _ x (List.mem_cons_of_mem _ hx)

/-- Two folds over the same types choose the same one. -/
theorem foldl_deeper_congr (m : TypeModel) {t u : TypeId} {ts us : List TypeId}
    (h : ∀ x, x ∈ t :: ts ↔ x ∈ u :: us) : ts.foldl m.deeper t = us.foldl m.deeper u :=
  (m.preferred_foldl_deeper t ts _ ((h _).mpr (m.foldl_deeper_mem u us))).antisymm
    (m.preferred_foldl_deeper u us _ ((h _).mp (m.foldl_deeper_mem t ts)))

/-- **The nearest common supertype does not depend on the order of the two types.** -/
theorem commonSupertype_comm {m : TypeModel} (hm : m.Built) (a b : TypeId) :
    m.commonSupertype a b = m.commonSupertype b a := by
  by_cases hab : m.isSubtype a b = true
  · rw [commonSupertype_of_isSubtype hab, commonSupertype_of_isSubtype_right hm hab]
  by_cases hba : m.isSubtype b a = true
  · rw [commonSupertype_of_isSubtype hba, commonSupertype_of_isSubtype_right hm hba]
  -- neither is above the other, so the choice is among the types that both orders hold
  have hne : a ≠ b := fun h => hab (h ▸ m.isSubtype_refl a)
  have hshared : ∀ x, x ∈ (m.order a).filter (fun t => (m.order b).contains t)
      ↔ x ∈ (m.order b).filter fun t => (m.order a).contains t := by
    intro x
    simp only [List.mem_filter, List.contains_iff_mem]
    exact And.comm
  rw [commonSupertype, if_neg hne, if_neg hab, if_neg hba,
    commonSupertype, if_neg (Ne.symm hne), if_neg hba, if_neg hab]
  generalize (m.order a).filter (fun t => (m.order b).contains t) = left at hshared ⊢
  generalize (m.order b).filter (fun t => (m.order a).contains t) = right at hshared ⊢
  cases left with
  | nil =>
    cases right with
    | nil => rfl
    | cons u us => cases (hshared u).mpr List.mem_cons_self
  | cons t ts =>
    cases right with
    | nil => cases (hshared t).mp List.mem_cons_self
    | cons u us => exact m.foldl_deeper_congr hshared

end TypeModel

end Stackwise
