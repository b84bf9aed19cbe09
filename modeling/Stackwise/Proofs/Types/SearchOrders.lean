import Stackwise.Proofs.Types.Hierarchy

/-!
# Search orders and common supertypes

The search order of a new type has to respect the list of its bases and the search order of each of
them. A registration finds such an order, or there is none.

* `TypeModel.Respects`: the demands on an order, said without the merge;
* `TypeModel.Built.respects_linearize`: a linearization meets them;
* `TypeModel.exists_linearize`: there is a linearization as soon as any order meets them;
* `TypeModel.Built.getLast?_order`: search orders end with the universal type;
* `TypeModel.register_linearizes`: what a registration with known bases does.

Two types of a hierarchy with several bases may have more than one minimal common supertype. The
model takes the deepest, and of those that are equally deep the one that was declared first.

* `TypeModel.Rooted.preferred_of_isSubtype`: a type is preferred to all types above it;
* `TypeModel.preferred_of_unrelated`: of two unrelated types the choice is preferred to everything
  that both search orders hold;
* `TypeModel.Built.preferred_commonSupertype`: so it is preferred to every common supertype;
* `TypeModel.NearestAbove`, `TypeModel.reached_nearestAbove`: what that says of the hierarchy.

Where every type has one base, the types above a type form a chain.

* `TypeModel.SingleBased`: such hierarchies;
* `TypeModel.SingleBased.comparable`: two types above a third one are related;
* `TypeModel.SingleBased.commonSupertype_least`: the nearest common supertype is below all others.
-/

namespace Stackwise

/-- A list ends where its parts end, if each entry is in a part and none comes twice. -/
theorem getLast?_of_sublists {α : Type} {r : List α} {z : α} (hnodup : r.Nodup) (hne : r ≠ [])
    (h : ∀ x ∈ r, ∃ s : List α, s.Sublist r ∧ x ∈ s ∧ s.getLast? = some z) :
    r.getLast? = some z := by
  obtain ⟨y, hy⟩ := Option.isSome_iff_exists.mp (List.getLast?_isSome.mpr hne)
  obtain ⟨front, rfl⟩ := List.getLast?_eq_some_iff.mp hy
  obtain ⟨s, hsub, hys, hlast⟩ := h y (List.mem_append_right _ (List.mem_singleton.mpr rfl))
  obtain ⟨s₁, s₂, rfl, hfront, hend⟩ := List.sublist_append_iff.mp hsub
  rcases List.sublist_singleton.mp hend with rfl | rfl
  · -- then the last entry would stand in front of itself as well
    rw [List.append_nil] at hys
    exact absurd rfl ((List.nodup_append.mp hnodup).2.2 y (hfront.subset hys) y List.mem_cons_self)
  · rw [hy, ← hlast, List.getLast?_concat]

namespace TypeModel

variable {m : TypeModel} {name : String} {bs order : List TypeId}

/-! ## 1. Orders that respect the bases -/

/-- An order without repetition that keeps the bases in their order, and the search order of each of
them in its own. -/
structure Respects (m : TypeModel) (bs order : List TypeId) : Prop where
  nodup : order.Nodup
  bases : bs.Sublist order
  orders : ∀ b ∈ bs, (m.order b).Sublist order

theorem sublist_merged {merged : List TypeId}
    (h : Linearization.merge (bs.map m.order ++ [bs]) = some merged) :
    bs.Sublist merged ∧ ∀ b ∈ bs, (m.order b).Sublist merged := by
  have hkept := (Linearization.merges_of_merge h).sublist
  exact ⟨hkept bs (List.mem_append_right _ (List.mem_singleton.mpr rfl)),
    fun b hb => hkept _ (List.mem_append_left _ (List.mem_map_of_mem hb))⟩

/-- **A linearization respects the bases.** -/
theorem Built.respects_linearize (hm : m.Built) (hknown : ∀ b ∈ bs, b.raw < m.size)
    (h : Linearization.linearize ⟨m.size⟩ bs m.order = some order) : m.Respects bs order := by
  obtain ⟨merged, hmerge, rfl⟩ := Option.map_eq_some_iff.mp h
  obtain ⟨hbases, horders⟩ := sublist_merged hmerge
  have hfresh : (⟨m.size⟩ : TypeId) ∉ merged := by
    intro hnew
    obtain ⟨b, -, hb⟩ := (hm.rooted.mem_merged hknown hmerge _).mp hnew
    exact absurd (hm.ordered.known b _ hb) (Nat.lt_irrefl _)
  exact ⟨List.nodup_cons.mpr ⟨hfresh, (Linearization.merges_of_merge hmerge).nodup⟩,
    hbases.cons _, fun b hb => (horders b hb).cons _⟩

/-- **Where any order respects the bases, there is a linearization.** -/
theorem exists_linearize (c : TypeId) (h : m.Respects bs order) :
    ∃ found, Linearization.linearize c bs m.order = some found := by
  have hkept : ∀ s ∈ bs.map m.order ++ [bs], s.Sublist order := by
    intro s hs
    rcases List.mem_append.mp hs with hs | hs
    · obtain ⟨b, hb, rfl⟩ := List.mem_map.mp hs
      exact h.orders b hb
    · rw [List.mem_singleton.mp hs]
      exact h.bases
  obtain ⟨merged, hmerge⟩ := Linearization.exists_merge h.nodup hkept
  exact ⟨c :: merged, Option.map_eq_some_iff.mpr ⟨merged, hmerge, rfl⟩⟩

/-! ## 2. The universal type comes last -/

theorem Built.getLast?_merged (hm : m.Built) (hne : bs ≠ []) (hknown : ∀ b ∈ bs, b.raw < m.size)
    (hends : ∀ a, (m.order a).getLast? = some TypeId.object) {merged : List TypeId}
    (hmerge : Linearization.merge (bs.map m.order ++ [bs]) = some merged) :
    merged.getLast? = some TypeId.object := by
  obtain ⟨hbases, horders⟩ := sublist_merged hmerge
  refine getLast?_of_sublists (Linearization.merges_of_merge hmerge).nodup ?_ fun x hx => ?_
  · exact fun hnil => hne (List.sublist_nil.mp (hnil ▸ hbases))
  · obtain ⟨b, hb, hxb⟩ := (hm.rooted.mem_merged hknown hmerge x).mp hx
    exact ⟨m.order b, horders b hb, hxb, hends b⟩

/-- **Every search order ends with the universal type.** -/
theorem Built.getLast?_order (h : m.Built) (a : TypeId) :
    (m.order a).getLast? = some TypeId.object := by
  induction h generalizing a with
  | empty =>
    rw [order_empty]
    rfl
  | @declare m _ d hm hd ih =>
    rcases declareOne_cases hd with ⟨name, bs, id, rfl, hr⟩ | hbare
    · obtain ⟨-, hknown, -, order, hlin, rfl⟩ := register_ok hr
      by_cases ha : a = ⟨m.size⟩
      · obtain ⟨merged, hmerge, rfl⟩ := Option.map_eq_some_iff.mp hlin
        rw [ha, order_adding_new, List.getLast?_cons,
          hm.getLast?_merged (basesOf_ne_nil bs) hknown ih hmerge]
        rfl
      · rw [order_adding_old ha]
        exact ih a
    · rw [← order_bare, hbare, order_bare]
      exact ih a

/-! ## 3. Registrations with known bases -/

/-- **A registration finds a search order, or there is none.** With a fresh name and known bases it
either adds the type, with an order that respects the bases, starts with the type, ends with the
universal one and holds what the type inherits from and nothing else; or it is refused because of the
order, and then no order at all respects the bases. -/
theorem register_linearizes (hm : m.Reached) (hname : m.byName? name = none) (hne : bs ≠ [])
    (hknown : ∀ b ∈ bs, b.raw < m.size) :
    (∃ m', m.register name bs = .ok (⟨m.size⟩, m')
      ∧ m.Respects bs (m'.order ⟨m.size⟩)
      ∧ (m'.order ⟨m.size⟩).head? = some ⟨m.size⟩
      ∧ (m'.order ⟨m.size⟩).getLast? = some TypeId.object
      ∧ m'.bases ⟨m.size⟩ = bs ∧ ∀ x, x ∈ m'.order ⟨m.size⟩ ↔ m'.Inherits ⟨m.size⟩ x)
    ∨ (m.register name bs = .error (.inconsistentOrder name) ∧ ¬∃ order, m.Respects bs order) := by
  have hbuilt := hm.built
  have hcases := m.register_cases name bs
  rw [basesOf_of_ne_nil hne, hname] at hcases
  rcases hcases with ⟨hfound, -⟩ | ⟨b, hb, hle, -⟩ | ⟨-, -, ⟨hlin, hr⟩ | ⟨order, hlin, hr⟩⟩
  · cases hfound
  · exact absurd (hknown b hb) (Nat.not_lt.mpr hle)
  · refine .inr ⟨hr, ?_⟩
    rintro ⟨order, horder⟩
    obtain ⟨found, hfound⟩ := exists_linearize ⟨m.size⟩ horder
    rw [hlin] at hfound
    cases hfound
  · have hbuilt' : (m.adding name bs order).Built :=
      hbuilt.declare (.type name bs) (by rw [declareOne, hr]; rfl)
    refine .inl ⟨_, hr, ?_, ?_, hbuilt'.getLast?_order _, bases_adding_new,
      fun x => hbuilt'.rooted.mem_order ?_⟩
    · rw [order_adding_new]
      exact hbuilt.respects_linearize hknown hlin
    · obtain ⟨merged, -, rfl⟩ := Option.map_eq_some_iff.mp hlin
      rw [order_adding_new]
      rfl
    · rw [size_adding]
      exact Nat.lt_succ_self _

/-- The diamond, and one more class over its sides, in the other order. -/
def crossing : TypeModel := (diamond.call (.type "G" [⟨3⟩, ⟨2⟩])).2

/-- No order respects both classes over the sides; either of them has an heir. -/
theorem register_linearizes_crossing :
    (crossing.register "H" [⟨4⟩, ⟨5⟩] = .error (.inconsistentOrder "H")
      ∧ ¬∃ order, crossing.Respects [⟨4⟩, ⟨5⟩] order)
    ∧ ∃ m', crossing.register "H" [⟨5⟩, ⟨1⟩] = .ok (⟨6⟩, m')
      ∧ crossing.Respects [⟨5⟩, ⟨1⟩] (m'.order ⟨6⟩) := by
  have hreached : crossing.Reached := (Reached.empty.calls _).call _
  have hname : crossing.byName? "H" = none := by decide +kernel
  have hknown : ∀ b ∈ [TypeId.mk 4, ⟨5⟩, ⟨1⟩], b.raw < crossing.size := by decide +kernel
  constructor
  · refine (register_linearizes hreached hname (List.cons_ne_nil _ _) ?_).resolve_left ?_
    · exact fun b hb => hknown b (List.mem_of_mem_take (i := 2) hb)
    · rintro ⟨m', hr, -⟩
      have hrefused : (crossing.register "H" [⟨4⟩, ⟨5⟩]).isOk = false := by decide +kernel
      rw [hr] at hrefused
      cases hrefused
  · have hsize : crossing.size = 6 := by decide +kernel
    rcases register_linearizes hreached hname (List.cons_ne_nil _ _)
      (fun b hb => hknown b (List.mem_cons_of_mem _ hb)) with ⟨m', hr, hrespects, -⟩ | ⟨hr, -⟩
    · rw [hsize] at hr hrespects
      exact ⟨m', hr, hrespects⟩
    · have hok : (crossing.register "H" [⟨5⟩, ⟨1⟩]).isOk = true := by decide +kernel
      rw [hr] at hok
      cases hok

end TypeModel

namespace TypeModel

variable {m : TypeModel} {a b c d : TypeId}

/-! ## 4. What is above a known type -/

theorem Rooted.isSubtype_iff_mem (h : m.Rooted) (ha : a.raw < m.size) :
    m.isSubtype a c = true ↔ c ∈ m.order a := by
  rw [h.isSubtype_iff_inherits ha, h.mem_order ha]

theorem Built.known_of_isSubtype (hm : m.Built) (ha : a.raw < m.size)
    (h : m.isSubtype a c = true) : c.raw < m.size :=
  hm.ordered.known a c ((hm.rooted.isSubtype_iff_mem ha).mp h)

/-- A type is preferred to the types above it, which are less deep. -/
theorem Rooted.preferred_of_isSubtype (h : m.Rooted) (ha : a.raw < m.size)
    (hac : m.isSubtype a c = true) : m.Preferred a c := by
  rcases h.depth_of_inherits ((h.isSubtype_iff_inherits ha).mp hac) with rfl | hlt
  · exact .refl m a
  · exact .inl hlt

/-! ## 5. The choice -/

/-- The nearest common supertype of two unrelated types stands in the search order of the first, and
is preferred to everything that both search orders hold. -/
theorem preferred_of_unrelated (hab : ¬m.isSubtype a b = true) (hba : ¬m.isSubtype b a = true)
    (ha : c ∈ m.order a) (hb : c ∈ m.order b) :
    m.commonSupertype a b ∈ m.order a ∧ m.Preferred (m.commonSupertype a b) c := by
  have hne : a ≠ b := fun h => hab (h ▸ m.isSubtype_refl a)
  have hc : c ∈ (m.order a).filter fun t => (m.order b).contains t :=
    List.mem_filter.mpr ⟨ha, List.contains_iff_mem.mpr hb⟩
  rw [commonSupertype, if_neg hne, if_neg hab, if_neg hba]
  split
  · rename_i hnone
    rw [hnone] at hc
    cases hc
  · rename_i t ts hshared
    rw [hshared] at hc
    refine ⟨?_, m.preferred_foldl_deeper t ts c hc⟩
    have hmem := m.foldl_deeper_mem t ts
    rw [← hshared] at hmem
    exact (List.mem_filter.mp hmem).1

/-- **The nearest common supertype is preferred to every common supertype.** -/
theorem Built.preferred_commonSupertype (hm : m.Built) (ha : a.raw < m.size) (hb : b.raw < m.size)
    (hac : m.isSubtype a c = true) (hbc : m.isSubtype b c = true) :
    m.Preferred (m.commonSupertype a b) c := by
  by_cases hab : m.isSubtype a b = true
  · rw [commonSupertype_of_isSubtype hab]
    exact hm.rooted.preferred_of_isSubtype hb hbc
  by_cases hba : m.isSubtype b a = true
  · rw [commonSupertype_of_isSubtype_right hm hba]
    exact hm.rooted.preferred_of_isSubtype ha hac
  · exact (preferred_of_unrelated hab hba ((hm.rooted.isSubtype_iff_mem ha).mp hac)
      ((hm.rooted.isSubtype_iff_mem hb).mp hbc)).2

/-- A type above two others that no common supertype of them is nearer than. -/
structure NearestAbove (m : TypeModel) (a b c : TypeId) : Prop where
  left : m.isSubtype a c = true
  right : m.isSubtype b c = true
  /-- No other common supertype lies below. -/
  minimal : ∀ d, m.isSubtype a d = true → m.isSubtype b d = true → m.isSubtype d c = true → d = c
  /-- None is deeper. -/
  deepest : ∀ d, m.isSubtype a d = true → m.isSubtype b d = true → m.depth d ≤ m.depth c
  /-- None that is as deep was declared before. -/
  first : ∀ d, m.isSubtype a d = true → m.isSubtype b d = true → m.depth d = m.depth c →
    c.raw ≤ d.raw

/-- **What a nearest common supertype is**, in every model that calls lead to: nearest above both
types, the same from either side, the type itself for twice the same, and one of the two exactly if
that one is above the other. -/
theorem reached_nearestAbove (h : m.Reached) (ha : a.raw < m.size) (hb : b.raw < m.size) :
    m.NearestAbove a b (m.commonSupertype a b)
    ∧ m.commonSupertype a b = m.commonSupertype b a ∧ m.commonSupertype a a = a
    ∧ (m.commonSupertype a b = b ↔ m.isSubtype a b = true) := by
  have hm := h.built
  obtain ⟨hleft, hright⟩ := m.isSubtype_commonSupertype a b
  have hpreferred := fun d hd hd' => hm.preferred_commonSupertype (c := d) ha hb hd hd'
  refine ⟨⟨hleft, hright, fun d hd hd' hbelow => ?_, fun d hd hd' => ?_, fun d hd hd' heq => ?_⟩,
    commonSupertype_comm hm a b, if_pos rfl, fun heq => heq ▸ hleft, commonSupertype_of_isSubtype⟩
  · -- what lies below is preferred as well
    exact (hm.rooted.preferred_of_isSubtype (hm.known_of_isSubtype ha hd) hbelow).antisymm
      (hpreferred d hd hd')
  · rcases hpreferred d hd hd' with hlt | ⟨heq, -⟩
    · exact Nat.le_of_lt hlt
    · exact Nat.le_of_eq heq.symm
  · rcases hpreferred d hd hd' with hlt | ⟨-, hle⟩
    · exact absurd hlt (Nat.not_lt.mpr (Nat.le_of_eq heq.symm))
    · exact hle

/-- Both sides of the diamond are minimal above the two classes over them. They are equally deep,
and the one that was declared first is taken. -/
theorem reached_nearestAbove_crossing :
    crossing.NearestAbove ⟨4⟩ ⟨5⟩ ⟨2⟩ ∧ crossing.depth ⟨3⟩ = crossing.depth ⟨2⟩
    ∧ crossing.isSubtype ⟨4⟩ ⟨3⟩ = true ∧ crossing.isSubtype ⟨5⟩ ⟨3⟩ = true := by
  have hreached : crossing.Reached := (Reached.empty.calls _).call _
  have hnearest := (reached_nearestAbove (a := ⟨4⟩) (b := ⟨5⟩) hreached (by decide +kernel)
    (by decide +kernel)).1
  have htaken : crossing.commonSupertype ⟨4⟩ ⟨5⟩ = ⟨2⟩ := by decide +kernel
  exact ⟨htaken ▸ hnearest, by decide +kernel, by decide +kernel, by decide +kernel⟩

/-! ## 6. Hierarchies with one base for each type -/

/-- Every type but the universal one has exactly one base. -/
def SingleBased (m : TypeModel) : Prop :=
  ∀ a : TypeId, a.raw < m.size → a ≠ TypeId.object → (m.bases a).length = 1

instance (m : TypeModel) : Decidable m.SingleBased :=
  decidable_of_iff (∀ i < m.size, TypeId.mk i ≠ TypeId.object → (m.bases ⟨i⟩).length = 1)
    ⟨fun h a => h a.raw, fun h i => h ⟨i⟩⟩

namespace SingleBased

theorem base_unique (hs : m.SingleBased) (hm : m.Rooted) : Relator.RightUnique m.Base := by
  intro a b c hb hc
  have ha := lt_of_base hb
  have hne : a ≠ TypeId.object := by
    intro h
    rw [Base, (hm.bases a ha).mpr h] at hb
    cases hb
  obtain ⟨x, hx⟩ := List.length_eq_one_iff.mp (hs a ha hne)
  rw [Base, hx, List.mem_singleton] at hb hc
  rw [hb, hc]

/-- **The types above a type form a chain.** -/
theorem comparable (hs : m.SingleBased) (hm : m.Built) (hb : m.isSubtype a b = true)
    (hc : m.isSubtype a c = true) : m.isSubtype b c = true ∨ m.isSubtype c b = true := by
  by_cases ha : a.raw < m.size
  · rw [hm.rooted.isSubtype_iff_inherits (hm.known_of_isSubtype ha hb),
      hm.rooted.isSubtype_iff_inherits (hm.known_of_isSubtype ha hc)]
    exact Relation.ReflTransGen.total_of_right_unique (hs.base_unique hm.rooted)
      ((hm.rooted.isSubtype_iff_inherits ha).mp hb) ((hm.rooted.isSubtype_iff_inherits ha).mp hc)
  · -- above an unknown id there is only the universal type
    have horder : m.order a = [TypeId.object] := by
      have hnone : m.get? a = none :=
        Option.not_isSome_iff_eq_none.mp fun h => ha (get?_isSome_iff.mp h)
      rw [TypeModel.order, hnone]
    rw [isSubtype_iff, horder, List.mem_singleton, or_self] at hb hc
    rcases hb with rfl | rfl
    · exact .inl (isSubtype_iff.mpr (by rwa [horder, List.mem_singleton, or_self]))
    · exact .inr (isSubtype_iff.mpr (.inr (.inl rfl)))

/-- **The nearest common supertype is below all others.** -/
theorem commonSupertype_least (hs : m.SingleBased) (hm : m.Built) (hac : m.isSubtype a c = true)
    (hbc : m.isSubtype b c = true) : m.isSubtype (m.commonSupertype a b) c = true := by
  by_cases hab : m.isSubtype a b = true
  · rw [commonSupertype_of_isSubtype hab]
    exact hbc
  by_cases hba : m.isSubtype b a = true
  · rw [commonSupertype_of_isSubtype_right hm hba]
    exact hac
  rcases isSubtype_iff.mp hac with rfl | rfl | ha
  · exact absurd hbc hba
  · exact isSubtype_iff.mpr (.inr (.inl rfl))
  rcases isSubtype_iff.mp hbc with rfl | rfl | hb
  · exact absurd hac hab
  · exact isSubtype_iff.mpr (.inr (.inl rfl))
  -- the choice and the other one stand in one chain, and the choice is not the less deep of them
  obtain ⟨hchosen, hpreferred⟩ := preferred_of_unrelated hab hba ha hb
  rcases hs.comparable hm (isSubtype_iff.mpr (.inr (.inr hchosen))) hac with h | h
  · exact h
  · have hc := hm.rooted.preferred_of_isSubtype (hm.ordered.known a c ha) h
    rw [hpreferred.antisymm hc]
    exact m.isSubtype_refl c

end SingleBased

end TypeModel

end Stackwise
