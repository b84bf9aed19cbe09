import Mathlib.Logic.Relation
import Stackwise.Proofs.Types.Subtyping

/-!
# The declared hierarchy

A model stores a search order and a depth with every type. Both are computed once, at registration,
from what the model then holds of the bases. Here they are tied to the bases themselves: whatever
calls a model went through, its answers are those of the hierarchy that was declared.

* `TypeModel.Inherits`: one type is reached from another by declared bases;
* `TypeModel.Rooted`: the order and the depth of a type in terms of its bases, kept by every
  declaration (`TypeModel.Built.rooted`);
* `TypeModel.Rooted.mem_order`: a search order holds exactly what the type inherits from;
* `TypeModel.Reached`: the models that calls lead to, refused ones included;
* `TypeModel.reached_declares`: what every such model answers.
-/

namespace Stackwise

namespace TypeModel

/-! ## 1. Inheritance -/

/-- One step up the hierarchy, from a type to one of its declared bases. -/
def Base (m : TypeModel) (a b : TypeId) : Prop := b ∈ m.bases a

/-- Any number of steps up the hierarchy. -/
def Inherits (m : TypeModel) : TypeId → TypeId → Prop := Relation.ReflTransGen m.Base

theorem lt_of_base {m : TypeModel} {a b : TypeId} (h : m.Base a b) : a.raw < m.size := by
  refine get?_isSome_iff.mp ?_
  rw [Base, bases] at h
  cases hd : m.get? a with
  | none => rw [hd] at h; cases h
  | some d => rfl

/-! ## 2. Orders and depths in terms of the bases -/

/-- The hierarchy of a model, type by type. -/
structure Rooted (m : TypeModel) : Prop where
  nonempty : 0 < m.size
  /-- The universal type alone has no bases. -/
  bases : ∀ a : TypeId, a.raw < m.size → (m.bases a = [] ↔ a = TypeId.object)
  /-- Bases are declared before the type. -/
  earlier : ∀ a b, m.Base a b → b.raw < a.raw
  /-- A search order holds the type and the search orders of its bases. -/
  order : ∀ a : TypeId, a.raw < m.size →
    ∀ x, x ∈ m.order a ↔ x = a ∨ ∃ b, m.Base a b ∧ x ∈ m.order b
  /-- A type is deeper than its bases. -/
  depth : ∀ a b, m.Base a b → m.depth b < m.depth a
  /-- No two types have one name. -/
  names : ∀ a b : TypeId, a.raw < m.size → b.raw < m.size → m.name a = m.name b → a = b

theorem le_foldl_max {x : Nat} {xs : List Nat} (h : x ∈ xs) (n : Nat) : x ≤ xs.foldl max n := by
  rw [List.foldl_max]
  cases hmax : xs.max? with
  | none =>
    rw [List.max?_eq_none_iff.mp hmax] at h
    cases h
  | some k =>
    have hxk : x ≤ k := (List.max?_le_iff hmax).mp (Nat.le_refl k) x h
    exact Nat.le_trans hxk (Nat.le_max_right n k)

theorem rooted_empty : empty.Rooted where
  nonempty := Nat.zero_lt_one
  bases a ha := by
    obtain rfl : a = TypeId.object := congrArg TypeId.mk (Nat.lt_one_iff.mp ha)
    exact ⟨fun _ => rfl, fun _ => rfl⟩
  earlier a b h := by
    obtain ⟨n⟩ := a
    cases n <;> cases h
  order a ha x := by
    obtain rfl : a = TypeId.object := congrArg TypeId.mk (Nat.lt_one_iff.mp ha)
    rw [order_empty, List.mem_singleton]
    refine ⟨.inl, ?_⟩
    rintro (h | ⟨b, h, -⟩)
    · exact h
    · cases h
  depth a b h := by
    obtain ⟨n⟩ := a
    cases n <;> cases h
  names a b ha hb _ := by
    obtain rfl : a = TypeId.object := congrArg TypeId.mk (Nat.lt_one_iff.mp ha)
    exact (congrArg TypeId.mk (Nat.lt_one_iff.mp hb)).symm

theorem Rooted.congr {m m' : TypeModel} (h : m.Rooted) (hb : m'.bare = m.bare) : m'.Rooted := by
  have hsize : m'.size = m.size := by rw [← size_bare, hb, size_bare]
  have hbases : m'.bases = m.bases := funext fun a => by rw [← bases_bare, hb, bases_bare]
  have hbase : m'.Base = m.Base := by
    funext a b
    rw [Base, Base, hbases]
  have horder : m'.order = m.order := funext fun a => by rw [← order_bare, hb, order_bare]
  have hdepth : m'.depth = m.depth := funext fun a => by rw [← depth_bare, hb, depth_bare]
  have hname : m'.name = m.name := funext fun a => by rw [← name_bare, hb, name_bare]
  refine ⟨?_, ?_, ?_, ?_, ?_, ?_⟩
  · rw [hsize]
    exact h.nonempty
  · rw [hsize, hbases]
    exact h.bases
  · rw [hbase]
    exact h.earlier
  · rw [hsize, horder, hbase]
    exact h.order
  · rw [hdepth, hbase]
    exact h.depth
  · rw [hsize, hname]
    exact h.names

/-- A merged order holds what the orders of the bases hold. -/
theorem Rooted.mem_merged {m : TypeModel} (h : m.Rooted) {bs merged : List TypeId}
    (hknown : ∀ b ∈ bs, b.raw < m.size)
    (hmerge : Linearization.merge (bs.map m.order ++ [bs]) = some merged) (x : TypeId) :
    x ∈ merged ↔ ∃ b ∈ bs, x ∈ m.order b := by
  rw [Linearization.mem_merge hmerge]
  constructor
  · rintro ⟨s, hs, hx⟩
    rcases List.mem_append.mp hs with hs | hs
    · obtain ⟨b, hb, rfl⟩ := List.mem_map.mp hs
      exact ⟨b, hb, hx⟩
    · rw [List.mem_singleton.mp hs] at hx
      exact ⟨x, hx, (h.order x (hknown x hx) x).mpr (.inl rfl)⟩
  · rintro ⟨b, hb, hx⟩
    exact ⟨_, List.mem_append_left _ (List.mem_map_of_mem hb), hx⟩

section Adding

-- each of these is asked of the new type and of the types that were there

variable {m : TypeModel} {name : String} {bs : List TypeId} {order : Linearization}
  {a b x : TypeId}

theorem base_adding_new : (m.adding name bs order).Base ⟨m.size⟩ b ↔ b ∈ bs := by
  rw [Base, bases_adding_new]

theorem base_adding_old (ha : a ≠ ⟨m.size⟩) :
    (m.adding name bs order).Base a b ↔ m.Base a b := by
  rw [Base, bases_adding_old ha, Base]

theorem Rooted.bases_adding (h : m.Rooted) (hne : bs ≠ [])
    (ha : a.raw < (m.adding name bs order).size) :
    (m.adding name bs order).bases a = [] ↔ a = TypeId.object := by
  by_cases hn : a = ⟨m.size⟩
  · rw [hn, bases_adding_new]
    refine ⟨fun h' => absurd h' hne, fun h' => absurd (congrArg TypeId.raw h') ?_⟩
    exact Nat.ne_of_gt h.nonempty
  · rw [bases_adding_old hn]
    exact h.bases a (lt_of_ne_new ha hn)

theorem Rooted.earlier_adding (h : m.Rooted) (hknown : ∀ b ∈ bs, b.raw < m.size)
    (hab : (m.adding name bs order).Base a b) : b.raw < a.raw := by
  by_cases hn : a = ⟨m.size⟩
  · subst hn
    exact hknown b (base_adding_new.mp hab)
  · exact h.earlier a b ((base_adding_old hn).mp hab)

theorem Rooted.order_adding (h : m.Rooted) (hknown : ∀ b ∈ bs, b.raw < m.size)
    (hlin : Linearization.linearize ⟨m.size⟩ bs m.order = some order)
    (ha : a.raw < (m.adding name bs order).size) :
    x ∈ (m.adding name bs order).order a
      ↔ x = a ∨ ∃ b, (m.adding name bs order).Base a b ∧ x ∈ (m.adding name bs order).order b := by
  obtain ⟨merged, hmerge, rfl⟩ := Option.map_eq_some_iff.mp hlin
  by_cases hn : a = ⟨m.size⟩
  · subst hn
    rw [order_adding_new, List.mem_cons, h.mem_merged hknown hmerge]
    refine or_congr_right (exists_congr fun b => ?_)
    rw [base_adding_new]
    refine and_congr_right fun hb => ?_
    rw [order_adding_old (ne_new_of_lt (hknown b hb))]
  · have ha := lt_of_ne_new ha hn
    rw [order_adding_old hn, h.order a ha]
    refine or_congr_right (exists_congr fun b => ?_)
    rw [base_adding_old hn]
    refine and_congr_right fun hb => ?_
    rw [order_adding_old (ne_new_of_lt (Nat.lt_trans (h.earlier a b hb) ha))]

theorem Rooted.depth_adding (h : m.Rooted) (hknown : ∀ b ∈ bs, b.raw < m.size)
    (hab : (m.adding name bs order).Base a b) :
    (m.adding name bs order).depth b < (m.adding name bs order).depth a := by
  by_cases hn : a = ⟨m.size⟩
  · subst hn
    have hb := base_adding_new.mp hab
    have hle := le_foldl_max (List.mem_map_of_mem (f := m.depth) hb) 0
    rw [depth_adding_old (ne_new_of_lt (hknown b hb)), depth_adding_new]
    omega
  · have hb := (base_adding_old hn).mp hab
    have hlt := Nat.lt_trans (h.earlier a b hb) (lt_of_base hb)
    rw [depth_adding_old hn, depth_adding_old (ne_new_of_lt hlt)]
    exact h.depth a b hb

theorem name_adding_ne (hname : m.byName? name = none)
    (ha : a.raw < (m.adding name bs order).size) (hn : a ≠ ⟨m.size⟩) :
    (m.adding name bs order).name a ≠ name := by
  rw [name_adding_old hn]
  exact name_ne_of_byName? hname (lt_of_ne_new ha hn)

theorem Rooted.names_adding (h : m.Rooted) (hname : m.byName? name = none)
    (ha : a.raw < (m.adding name bs order).size) (hb : b.raw < (m.adding name bs order).size)
    (hab : (m.adding name bs order).name a = (m.adding name bs order).name b) : a = b := by
  by_cases hna : a = ⟨m.size⟩
  · by_cases hnb : b = ⟨m.size⟩
    · rw [hna, hnb]
    · rw [hna, name_adding_new] at hab
      exact absurd hab.symm (name_adding_ne hname hb hnb)
  · by_cases hnb : b = ⟨m.size⟩
    · rw [hnb, name_adding_new] at hab
      exact absurd hab (name_adding_ne hname ha hna)
    · rw [name_adding_old hna, name_adding_old hnb] at hab
      exact h.names a b (lt_of_ne_new ha hna) (lt_of_ne_new hb hnb) hab

/-- **A registration keeps the hierarchy rooted.** -/
theorem Rooted.adding (h : m.Rooted) (hname : m.byName? name = none) (hne : bs ≠ [])
    (hknown : ∀ b ∈ bs, b.raw < m.size)
    (hlin : Linearization.linearize ⟨m.size⟩ bs m.order = some order) :
    (m.adding name bs order).Rooted where
  nonempty := by
    rw [size_adding]
    exact Nat.succ_pos _
  bases _ := h.bases_adding hne
  earlier _ _ := h.earlier_adding hknown
  order _ ha _ := h.order_adding hknown hlin ha
  depth _ _ := h.depth_adding hknown
  names _ _ := h.names_adding hname

end Adding

/-- **Every model that declarations build is rooted.** -/
theorem Built.rooted {m : TypeModel} (h : m.Built) : m.Rooted := by
  induction h with
  | empty => exact rooted_empty
  | declare d _ hd ih =>
    rcases declareOne_cases hd with ⟨name, bases, id, rfl, hr⟩ | hbare
    · obtain ⟨hname, hknown, -, order, hlin, rfl⟩ := register_ok hr
      exact ih.adding hname (basesOf_ne_nil bases) hknown hlin
    · exact ih.congr hbare

/-! ## 3. What a type inherits from -/

namespace Rooted

variable {m : TypeModel} {a b x : TypeId}

/-- Bases come before their type, so a property that passes from the bases of each type to the type
holds of all types. -/
theorem induction_on_bases (h : m.Rooted) {P : TypeId → Prop}
    (step : ∀ a, a.raw < m.size → (∀ b, m.Base a b → P b) → P a) (ha : a.raw < m.size) : P a := by
  induction hn : a.raw using Nat.strongRecOn generalizing a with
  | ind n ih =>
    refine step a ha fun b hb => ?_
    have hlt := h.earlier a b hb
    exact ih b.raw (hn ▸ hlt) (Nat.lt_trans hlt ha) rfl

theorem mem_order_self (h : m.Rooted) (ha : a.raw < m.size) : a ∈ m.order a :=
  (h.order a ha a).mpr (.inl rfl)

/-- **A search order holds exactly what the type inherits from.** -/
theorem mem_order (h : m.Rooted) (ha : a.raw < m.size) : x ∈ m.order a ↔ m.Inherits a x := by
  constructor
  · refine h.induction_on_bases (P := fun a => x ∈ m.order a → m.Inherits a x) ?_ ha
    intro a ha ih hx
    rcases (h.order a ha x).mp hx with rfl | ⟨b, hb, hxb⟩
    · exact .refl
    · exact .head hb (ih b hb hxb)
  · intro hx
    induction hx using Relation.ReflTransGen.head_induction_on with
    | refl => exact h.mem_order_self ha
    | @head a b hab _ ih =>
      exact (h.order a ha x).mpr (.inr ⟨b, hab, ih (Nat.lt_trans (h.earlier a b hab) ha)⟩)

/-- Every type inherits from the universal one. -/
theorem inherits_object (h : m.Rooted) (ha : a.raw < m.size) : m.Inherits a TypeId.object := by
  refine h.induction_on_bases (P := fun a => m.Inherits a TypeId.object) ?_ ha
  intro a ha ih
  by_cases hobject : a = TypeId.object
  · rw [hobject]
    exact .refl
  · obtain ⟨b, hb⟩ := List.exists_mem_of_ne_nil _ (mt (h.bases a ha).mp hobject)
    exact .head hb (ih b hb)

/-- What a type inherits from is less deep, or the type itself. -/
theorem depth_of_inherits (h : m.Rooted) (hab : m.Inherits a b) :
    a = b ∨ m.depth b < m.depth a := by
  induction hab with
  | refl => exact .inl rfl
  | tail _ hstep ih =>
    have hlt := h.depth _ _ hstep
    rcases ih with rfl | ih
    · exact .inr hlt
    · exact .inr (Nat.lt_trans hlt ih)

/-- **Subtyping is inheritance.** -/
theorem isSubtype_iff_inherits (h : m.Rooted) (ha : a.raw < m.size) :
    m.isSubtype a b = true ↔ m.Inherits a b := by
  rw [isSubtype_iff, h.mem_order ha]
  constructor
  · rintro (rfl | rfl | hab)
    · exact .refl
    · exact h.inherits_object ha
    · exact hab
  · exact fun hab => .inr (.inr hab)

end Rooted

theorem depth_le_maxDepth (m : TypeModel) (t : TypeId) : m.depth t ≤ m.maxDepth := by
  rw [depth]
  cases hd : m.get? t with
  | none => exact Nat.zero_le _
  | some d =>
    have hmem : d.depth ∈ m.types.toList.map TypeDef.depth :=
      List.mem_map_of_mem (Array.mem_toList_iff.mpr (Array.mem_of_getElem? hd))
    rw [maxDepth, ← Array.foldl_toList, ← List.foldl_map]
    exact le_foldl_max hmem 0

/-! ## 4. Models after calls -/

/-- **What a call can do**: it makes its declaration, or it is refused and changes nothing. -/
theorem call_cases (m : TypeModel) (d : Declaration) :
    (∃ answer, (m.call d).1 = .ok answer ∧ m.declareOne d = .ok (m.call d).2)
      ∨ ∃ e, (m.call d).1 = .error e ∧ m.declareOne d = .error e ∧ (m.call d).2 = m := by
  cases d with
  | type name bases =>
    simp only [call, declareOne]
    cases m.register name bases with
    | ok p => exact .inl ⟨some p.1, rfl, rfl⟩
    | error e => exact .inr ⟨e, rfl, rfl, rfl⟩
  | _ =>
    simp only [call]
    split
    · rename_i m' hd
      exact .inl ⟨none, rfl, hd⟩
    · rename_i e hd
      exact .inr ⟨e, rfl, hd, rfl⟩

/-- A model that calls lead to from the empty model or from the builtin types, whether they are
refused or not. -/
inductive Reached : TypeModel → Prop where
  | empty : Reached empty
  | withBuiltins : Reached withBuiltins
  | call {m : TypeModel} (d : Declaration) : Reached m → Reached (m.call d).2

theorem Built.extend {m m' : TypeModel} (h : m.Built) {ds : List Declaration}
    (hds : m.extend ds = .ok m') : m'.Built := by
  induction ds generalizing m with
  | nil =>
    cases hds
    exact h
  | cons d ds ih =>
    rw [TypeModel.extend] at hds
    split at hds
    · rename_i hd
      exact ih (h.declare d hd) hds
    · cases hds

theorem built_withBuiltins : withBuiltins.Built := by
  unfold withBuiltins
  split
  · rename_i h
    exact Built.empty.extend h
  · exact .empty

theorem Built.call {m : TypeModel} (h : m.Built) (d : Declaration) : (m.call d).2.Built := by
  rcases m.call_cases d with ⟨answer, -, hd⟩ | ⟨e, -, -, hm⟩
  · exact h.declare d hd
  · rw [hm]
    exact h

theorem Reached.built {m : TypeModel} (h : m.Reached) : m.Built := by
  induction h with
  | empty => exact .empty
  | withBuiltins => exact built_withBuiltins
  | call d _ ih => exact ih.call d

/-- A model that calls lead to from the builtin types. -/
inductive ExtendsBuiltins : TypeModel → Prop where
  | builtins : ExtendsBuiltins withBuiltins
  | call {m : TypeModel} (d : Declaration) : ExtendsBuiltins m → ExtendsBuiltins (m.call d).2

theorem ExtendsBuiltins.built {m : TypeModel} (h : m.ExtendsBuiltins) : m.Built := by
  induction h with
  | builtins => exact built_withBuiltins
  | call d _ ih => exact ih.call d

theorem size_le_call (m : TypeModel) (d : Declaration) : m.size ≤ (m.call d).2.size := by
  rcases m.call_cases d with ⟨answer, -, hd⟩ | ⟨e, -, -, hm⟩
  · rcases declareOne_cases hd with ⟨name, bs, id, rfl, hr⟩ | hbare
    · obtain ⟨-, -, -, order, -, hadding⟩ := register_ok hr
      rw [hadding, size_adding]
      exact Nat.le_succ _
    · exact Nat.le_of_eq (by rw [← size_bare, ← hbare, size_bare])
  · exact Nat.le_of_eq (by rw [hm])

theorem ExtendsBuiltins.size {m : TypeModel} (h : m.ExtendsBuiltins) : 1 < m.size := by
  induction h with
  | builtins => decide +kernel
  | @call m d _ ih => exact Nat.lt_of_lt_of_le ih (m.size_le_call d)

/-- Declarations leave the builtin types what they are. -/
theorem ExtendsBuiltins.order_eq {m : TypeModel} (h : m.ExtendsBuiltins) {t : TypeId}
    (ht : t.raw < withBuiltins.size) : t.raw < m.size ∧ m.order t = withBuiltins.order t := by
  induction h with
  | builtins => exact ⟨ht, rfl⟩
  | @call m d _ ih =>
    obtain ⟨hlt, horder⟩ := ih
    refine ⟨Nat.lt_of_lt_of_le hlt (m.size_le_call d), ?_⟩
    rcases m.call_cases d with ⟨answer, -, hd⟩ | ⟨e, -, -, hm⟩
    · rw [(declareOne_order hd).2 t hlt, horder]
    · rw [hm, horder]

theorem ExtendsBuiltins.isSubtype_eq {m : TypeModel} (h : m.ExtendsBuiltins) {t : TypeId}
    (ht : t.raw < withBuiltins.size) (u : TypeId) :
    m.isSubtype t u = withBuiltins.isSubtype t u := by
  rw [Bool.eq_iff_iff, isSubtype_iff, isSubtype_iff, (h.order_eq ht).2]

theorem ExtendsBuiltins.isSubtype_mono {m : TypeModel} (h : m.ExtendsBuiltins) {t u : TypeId}
    (hu : withBuiltins.isSubtype t u = true) : m.isSubtype t u = true := by
  rcases isSubtype_iff.mp hu with rfl | rfl | hmem
  · exact m.isSubtype_refl t
  · exact isSubtype_iff.mpr (.inr (.inl rfl))
  · by_cases ht : t.raw < withBuiltins.size
    · rw [h.isSubtype_eq ht, hu]
    · have hunknown : withBuiltins.get? t = none := Array.getElem?_eq_none (Nat.le_of_not_lt ht)
      rw [order, hunknown] at hmem
      exact isSubtype_iff.mpr (.inr (.inl (List.mem_singleton.mp hmem)))

/-- A type besides the universal one lies below it. -/
theorem Built.maxDepth_pos {m : TypeModel} (hm : m.Built) (h : 1 < m.size) : 1 ≤ m.maxDepth := by
  have hinh := hm.rooted.inherits_object (a := ⟨1⟩) h
  have hlt := (hm.rooted.depth_of_inherits hinh).resolve_left (by decide)
  have hle := m.depth_le_maxDepth ⟨1⟩
  omega

theorem Reached.calls {m : TypeModel} (h : m.Reached) (ds : List Declaration) :
    (ds.foldl (fun m d => (m.call d).2) m).Reached := by
  induction ds generalizing m with
  | nil => exact h
  | cons d ds ih => exact ih (h.call d)

/-- Four classes in a diamond, then a class with crossing bases, one with a name that is taken, and
one with a base that is not there. -/
def diamond : TypeModel :=
  [.type "A" [], .type "B" [⟨1⟩], .type "C" [⟨1⟩], .type "D" [⟨2⟩, ⟨3⟩], .type "E" [⟨1⟩, ⟨2⟩],
    .type "A" [], .type "F" [⟨9⟩]].foldl (fun m d => (m.call d).2) empty

end TypeModel

end Stackwise
