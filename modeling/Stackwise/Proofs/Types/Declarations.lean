import Stackwise.Types.Builtins

/-!
# Declarations

A model grows by one declaration after the other. What each can do to the types of a model is said
here once, and every fact about models that declarations build goes back to it:

* `TypeModel.register_cases`: all that a registration can do, the three refusals included;
* `TypeModel.adding`: the model with one more type, and what it answers about the new type and about
  the types that were there;
* `TypeModel.bare`: the part of a model that members and global names do not touch;
* `TypeModel.declareOne_cases`: a declaration registers a type or leaves the bare model alone.
-/

namespace Stackwise

namespace TypeModel

/-! ## 1. Bases -/

/-- The declared bases of a type, none for an unknown id. -/
def bases (m : TypeModel) (t : TypeId) : List TypeId :=
  match m.get? t with
  | some d => d.bases
  | none => []

/-- The bases that a registration declares: no bases stand for the universal type. -/
def basesOf (bases : List TypeId) : List TypeId := if bases.isEmpty then [TypeId.object] else bases

theorem basesOf_of_ne_nil {bases : List TypeId} (h : bases ≠ []) : basesOf bases = bases :=
  if_neg fun h' => h (List.isEmpty_iff.mp h')

theorem basesOf_ne_nil (bases : List TypeId) : basesOf bases ≠ [] := by
  by_cases h : bases = []
  · rw [h]
    exact List.cons_ne_nil _ _
  · rw [basesOf_of_ne_nil h]
    exact h

/-! ## 2. Names -/

theorem get?_isSome_iff {m : TypeModel} {t : TypeId} :
    (m.get? t).isSome = true ↔ t.raw < m.size := by
  simp [get?, size]

theorem name_of_get? {m : TypeModel} {t : TypeId} {d : TypeDef} (h : m.get? t = some d) :
    m.name t = d.name := by
  rw [name, h]

/-- A name that is found nowhere is the name of no type. -/
theorem name_ne_of_byName? {m : TypeModel} {n : String} (h : m.byName? n = none) {t : TypeId}
    (ht : t.raw < m.size) : m.name t ≠ n := by
  obtain ⟨d, hd⟩ := Option.isSome_iff_exists.mp (get?_isSome_iff.mpr ht)
  rw [name_of_get? hd]
  have hnone := Array.findIdx?_eq_none_iff.mp (Option.map_eq_none_iff.mp h)
  exact ne_of_beq_false (hnone d (Array.mem_of_getElem? hd))

/-! ## 3. Registrations -/

/-- The model with one more type. -/
def adding (m : TypeModel) (name : String) (bases : List TypeId) (order : Linearization) :
    TypeModel :=
  { m with types := m.types.push {
      name, bases, order, depth := 1 + (bases.map m.depth).foldl max 0 } }

theorem register_fresh {m : TypeModel} {name : String} (h : m.byName? name = none)
    (bases : List TypeId) : m.register name bases
      = match (basesOf bases).find? fun b => m.size ≤ b.raw with
        | some b => .error (.unknownType b)
        | none => match Linearization.linearize ⟨m.size⟩ (basesOf bases) m.order with
          | none => .error (.inconsistentOrder name)
          | some order => .ok (⟨m.size⟩, m.adding name (basesOf bases) order) := by
  unfold register
  rw [h]
  rfl

/-- **What a registration can do.** It is refused because of the name, a base or the orders of the
bases, and adds the type otherwise. -/
theorem register_cases (m : TypeModel) (name : String) (bases : List TypeId) :
    ((m.byName? name).isSome = true ∧ m.register name bases = .error (.duplicateType name))
    ∨ (∃ b ∈ basesOf bases, m.size ≤ b.raw ∧ m.register name bases = .error (.unknownType b))
    ∨ (m.byName? name = none ∧ (∀ b ∈ basesOf bases, b.raw < m.size)
      ∧ ((Linearization.linearize ⟨m.size⟩ (basesOf bases) m.order = none
          ∧ m.register name bases = .error (.inconsistentOrder name))
        ∨ ∃ order, Linearization.linearize ⟨m.size⟩ (basesOf bases) m.order = some order
          ∧ m.register name bases = .ok (⟨m.size⟩, m.adding name (basesOf bases) order))) := by
  cases hname : m.byName? name with
  | some t =>
    refine .inl ⟨rfl, ?_⟩
    unfold register
    rw [hname]
    rfl
  | none =>
    rw [register_fresh hname]
    refine .inr ?_
    cases hfind : (basesOf bases).find? fun b => m.size ≤ b.raw with
    | some b =>
      exact .inl ⟨b, List.mem_of_find?_eq_some hfind, by simpa using List.find?_some hfind, rfl⟩
    | none =>
      refine .inr ⟨rfl, fun b hb => by simpa using List.find?_eq_none.mp hfind b hb, ?_⟩
      cases hlin : Linearization.linearize ⟨m.size⟩ (basesOf bases) m.order with
      | none => exact .inl ⟨rfl, rfl⟩
      | some order => exact .inr ⟨order, rfl, rfl⟩

/-- What a registration that succeeds has found and done. -/
theorem register_ok {m m' : TypeModel} {name : String} {bases : List TypeId} {id : TypeId}
    (h : m.register name bases = .ok (id, m')) :
    m.byName? name = none ∧ (∀ b ∈ basesOf bases, b.raw < m.size) ∧ id = ⟨m.size⟩
      ∧ ∃ order, Linearization.linearize ⟨m.size⟩ (basesOf bases) m.order = some order
        ∧ m' = m.adding name (basesOf bases) order := by
  rcases register_cases m name bases with ⟨-, hr⟩ | ⟨b, -, -, hr⟩ | ⟨hname, hknown, hrest⟩
  · rw [hr] at h
    cases h
  · rw [hr] at h
    cases h
  · rcases hrest with ⟨-, hr⟩ | ⟨order, hlin, hr⟩
    · rw [hr] at h
      cases h
    · rw [hr] at h
      cases h
      exact ⟨hname, hknown, rfl, order, hlin, rfl⟩

section Adding

variable {m : TypeModel} {name : String} {bs : List TypeId} {order : Linearization} {a : TypeId}

theorem size_adding : (m.adding name bs order).size = m.size + 1 := by
  simp [adding, size]

theorem get?_adding_new : (m.adding name bs order).get? ⟨m.size⟩
    = some { name, bases := bs, order, depth := 1 + (bs.map m.depth).foldl max 0 } := by
  rw [get?, adding, Array.getElem?_push]
  exact if_pos rfl

theorem get?_adding_old (h : a ≠ ⟨m.size⟩) : (m.adding name bs order).get? a = m.get? a := by
  rw [get?, adding, Array.getElem?_push]
  exact if_neg fun h' => h (congrArg TypeId.mk h')

theorem ne_new_of_lt (h : a.raw < m.size) : a ≠ ⟨m.size⟩ := by
  rintro rfl
  exact absurd h (Nat.lt_irrefl _)

theorem lt_of_ne_new (h : a.raw < (m.adding name bs order).size) (hne : a ≠ ⟨m.size⟩) :
    a.raw < m.size := by
  rw [size_adding] at h
  exact Nat.lt_of_le_of_ne (Nat.le_of_lt_succ h) fun h' => hne (congrArg TypeId.mk h')

theorem bases_adding_new : (m.adding name bs order).bases ⟨m.size⟩ = bs := by
  rw [bases, get?_adding_new]

theorem bases_adding_old (h : a ≠ ⟨m.size⟩) : (m.adding name bs order).bases a = m.bases a := by
  rw [bases, bases, get?_adding_old h]

theorem order_adding_new : (m.adding name bs order).order ⟨m.size⟩ = order := by
  rw [TypeModel.order, get?_adding_new]

theorem order_adding_old (h : a ≠ ⟨m.size⟩) : (m.adding name bs order).order a = m.order a := by
  rw [TypeModel.order, TypeModel.order, get?_adding_old h]

theorem depth_adding_new :
    (m.adding name bs order).depth ⟨m.size⟩ = 1 + (bs.map m.depth).foldl max 0 := by
  rw [depth, get?_adding_new]

theorem depth_adding_old (h : a ≠ ⟨m.size⟩) : (m.adding name bs order).depth a = m.depth a := by
  rw [depth, depth, get?_adding_old h]

theorem name_adding_new : (m.adding name bs order).name ⟨m.size⟩ = name := by
  rw [TypeModel.name, get?_adding_new]

theorem name_adding_old (h : a ≠ ⟨m.size⟩) : (m.adding name bs order).name a = m.name a := by
  rw [TypeModel.name, TypeModel.name, get?_adding_old h]

end Adding

/-! ## 4. The other declarations -/

/-- A model without members and global names: what its hierarchy is made of. -/
def bare (m : TypeModel) : TypeModel :=
  { types := m.types.map fun d => { d with methods := [], attributes := [] } }

theorem size_bare (m : TypeModel) : m.bare.size = m.size := by
  simp [bare, size]

theorem get?_bare (m : TypeModel) (a : TypeId) :
    m.bare.get? a = (m.get? a).map fun d => { d with methods := [], attributes := [] } :=
  Array.getElem?_map

theorem bases_bare (m : TypeModel) (a : TypeId) : m.bare.bases a = m.bases a := by
  rw [bases, bases, get?_bare]
  cases m.get? a <;> rfl

theorem order_bare (m : TypeModel) (a : TypeId) : m.bare.order a = m.order a := by
  rw [TypeModel.order, TypeModel.order, get?_bare]
  cases m.get? a <;> rfl

theorem depth_bare (m : TypeModel) (a : TypeId) : m.bare.depth a = m.depth a := by
  rw [depth, depth, get?_bare]
  cases m.get? a <;> rfl

theorem name_bare (m : TypeModel) (a : TypeId) : m.bare.name a = m.name a := by
  rw [name, name, get?_bare]
  cases m.get? a <;> rfl

/-- A change to the members of one type leaves the bare model alone. -/
theorem bare_modify (m : TypeModel) (i : Nat) {f : TypeDef → TypeDef}
    (hf : ∀ d, { f d with methods := [], attributes := [] }
      = ({ d with methods := [], attributes := [] } : TypeDef)) :
    ({ m with types := m.types.modify i f } : TypeModel).bare = m.bare := by
  refine congrArg (TypeModel.mk · []) (Array.ext_getElem? fun j => ?_)
  rw [Array.getElem?_map, Array.getElem?_map, Array.getElem?_modify]
  split
  · rw [Option.map_map]
    exact congrArg (fun g => Option.map g m.types[j]?) (funext hf)
  · rfl

/-- **What a declaration can do**: it registers a type, or leaves the bare model alone. -/
theorem declareOne_cases {m m' : TypeModel} {d : Declaration} (h : m.declareOne d = .ok m') :
    (∃ name bases id, d = .type name bases ∧ m.register name bases = .ok (id, m'))
      ∨ m'.bare = m.bare := by
  cases d with
  | type name bases =>
    simp only [declareOne] at h
    cases hr : m.register name bases with
    | error e => rw [hr] at h; cases h
    | ok p =>
      rw [hr] at h
      cases h
      exact .inl ⟨name, bases, p.1, rfl, hr⟩
  | method owner name s =>
    simp only [declareOne, addMethod] at h
    split at h
    · cases h
      exact .inr (bare_modify m _ fun _ => rfl)
    · cases h
  | «attribute» owner name t =>
    simp only [declareOne, addAttribute] at h
    split at h
    · cases h
      exact .inr (bare_modify m _ fun _ => rfl)
    · cases h
  | globalClass name t =>
    simp only [declareOne, addGlobalClass] at h
    split at h
    · cases h
      exact .inr rfl
    · cases h

end TypeModel

end Stackwise
