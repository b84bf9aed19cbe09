import Mathlib.Data.List.Forall2
import Stackwise.Analysis.AbstractState
import Stackwise.Proofs.Outcome
import Stackwise.Proofs.Types.Subtyping

/-!
# The order of abstract states

`AbstractState.isWithin` is defined through the join. Here it is taken apart: one state is within
another exactly if both agree in what no join changes and every slot is within its counterpart.

* `Slot.Within`, `Slot.VarWithin`: the order on slots and on variables;
* `AbstractState.isWithin_iff`: the order on live states, field by field;
* `AbstractState.isWithin_trans`: the order is transitive in an ordered model;
* `AbstractState.isWithin_join`: a join is above both of its sides;
* `AbstractState.join_of_isWithin`: what is within a state adds nothing to it, in a built model;
* `AbstractState.SameForm`: what every join keeps, in any model: the depth of the stack, the numbers
  of variables and the open blocks.
-/

namespace Stackwise

/-! ## 1. Slots -/

namespace Slot

/-- The order on slots as a proposition. -/
def Within (m : TypeModel) (a b : Slot) : Prop := join m a b = b

theorem join_self (m : TypeModel) (a : Slot) : join m a a = a := if_pos rfl

theorem within_refl (m : TypeModel) (a : Slot) : Within m a a := join_self m a

/-- A slot is within another one if they are equal, or if the other is a type above its own. -/
theorem within_iff {m : TypeModel} {a b : Slot} :
    Within m a b ↔ a = b ∨ ∃ t, b = .value t ∧ m.isSubtype a.runtimeType t = true := by
  unfold Within join
  constructor
  · intro h
    split at h
    · exact Or.inl h
    · refine Or.inr ⟨_, h.symm, ?_⟩
      exact (m.isSubtype_commonSupertype _ _).1
  · rintro (rfl | ⟨t, rfl, ht⟩)
    · exact if_pos rfl
    · split
      · assumption
      · rw [show (Slot.value t).runtimeType = t from rfl, TypeModel.commonSupertype_of_isSubtype ht]

theorem within_trans {m : TypeModel} (hm : m.Ordered) {a b c : Slot} (hab : Within m a b)
    (hbc : Within m b c) : Within m a c := by
  rw [within_iff] at hab hbc ⊢
  rcases hab with rfl | ⟨t, rfl, ht⟩
  · exact hbc
  · rcases hbc with rfl | ⟨u, rfl, hu⟩
    · exact Or.inr ⟨t, rfl, ht⟩
    · exact Or.inr ⟨u, rfl, TypeModel.isSubtype_trans hm ht hu⟩

theorem within_join_left (m : TypeModel) (a b : Slot) : Within m a (join m a b) := by
  rw [within_iff]
  unfold join
  split
  · exact Or.inl rfl
  · exact Or.inr ⟨_, rfl, (m.isSubtype_commonSupertype _ _).1⟩

theorem within_join_right (m : TypeModel) (a b : Slot) : Within m b (join m a b) := by
  rw [within_iff]
  unfold join
  split
  · exact Or.inl (Eq.symm ‹a = b›)
  · exact Or.inr ⟨_, rfl, (m.isSubtype_commonSupertype _ _).2⟩

/-- What is within a slot adds nothing to it. -/
theorem join_of_within {m : TypeModel} (hm : m.Built) {a b : Slot} (h : Within m a b) :
    join m b a = b := by
  rcases within_iff.mp h with rfl | ⟨t, rfl, ht⟩
  · exact join_self m a
  · unfold join
    split
    · rfl
    · exact congrArg Slot.value (TypeModel.commonSupertype_of_isSubtype_right hm ht)

/-- The order on variables: one that may be unbound is above all. -/
def VarWithin (m : TypeModel) (a b : Option Slot) : Prop := joinVar m a b = b

theorem varWithin_none (m : TypeModel) (a : Option Slot) : VarWithin m a none := by
  cases a <;> rfl

theorem varWithin_some {m : TypeModel} {a b : Slot} :
    VarWithin m (some a) (some b) ↔ Within m a b := by
  unfold VarWithin Within joinVar
  exact Option.some_inj

theorem not_varWithin_none_some {m : TypeModel} {b : Slot} : ¬ VarWithin m none (some b) := by
  intro h
  cases h

theorem varWithin_refl (m : TypeModel) (a : Option Slot) : VarWithin m a a := by
  cases a with
  | none => rfl
  | some a => exact varWithin_some.mpr (within_refl m a)

theorem joinVar_of_varWithin {m : TypeModel} (hm : m.Built) {a b : Option Slot}
    (h : VarWithin m a b) : joinVar m b a = b := by
  cases b with
  | none => rfl
  | some b =>
    cases a with
    | none => exact absurd h not_varWithin_none_some
    | some a => exact congrArg some (join_of_within hm (varWithin_some.mp h))

theorem varWithin_trans {m : TypeModel} (hm : m.Ordered) {a b c : Option Slot}
    (hab : VarWithin m a b) (hbc : VarWithin m b c) : VarWithin m a c := by
  cases c with
  | none => exact varWithin_none m a
  | some c =>
    cases b with
    | none => exact absurd hbc not_varWithin_none_some
    | some b =>
      cases a with
      | none => exact absurd hab not_varWithin_none_some
      | some a =>
        exact varWithin_some.mpr (within_trans hm (varWithin_some.mp hab) (varWithin_some.mp hbc))

theorem varWithin_join (m : TypeModel) (a b : Option Slot) :
    VarWithin m a (joinVar m a b) ∧ VarWithin m b (joinVar m a b) := by
  cases a with
  | none => exact ⟨rfl, varWithin_none m b⟩
  | some a =>
    cases b with
    | none => exact ⟨rfl, rfl⟩
    | some b =>
      exact ⟨varWithin_some.mpr (within_join_left m a b),
        varWithin_some.mpr (within_join_right m a b)⟩

end Slot

/-! ## 2. Lists that are joined entry by entry -/

section Pointwise

variable {α : Type} {f : α → α → α}

/-- A list that absorbs another one of the same length absorbs it entry by entry. -/
theorem zipWith_eq_right_iff {as bs : List α} (h : as.length = bs.length) :
    List.zipWith f as bs = bs ↔ List.Forall₂ (fun a b => f a b = b) as bs := by
  induction as generalizing bs with
  | nil =>
    cases bs with
    | nil => exact ⟨fun _ => .nil, fun _ => rfl⟩
    | cons b bs => cases h
  | cons a as ih =>
    cases bs with
    | nil => cases h
    | cons b bs =>
      rw [List.zipWith_cons_cons, List.cons.injEq, ih (Nat.succ.inj h), List.forall₂_cons]

/-- A list that is absorbed by another one entry by entry leaves it as it is. -/
theorem zipWith_eq_left {as bs : List α} (h : List.Forall₂ (fun a b => f b a = b) as bs) :
    List.zipWith f bs as = bs := by
  rw [List.zipWith_comm]
  exact (zipWith_eq_right_iff h.length_eq).mpr h

theorem forall₂_zipWith_left {R : α → α → Prop} (hR : ∀ a b, R a (f a b)) {as bs : List α}
    (h : as.length = bs.length) : List.Forall₂ R as (List.zipWith f as bs) := by
  induction as generalizing bs with
  | nil => exact .nil
  | cons a as ih =>
    cases bs with
    | nil => cases h
    | cons b bs => exact .cons (hR a b) (ih (Nat.succ.inj h))

theorem forall₂_zipWith_right {R : α → α → Prop} (hR : ∀ a b, R b (f a b)) {as bs : List α}
    (h : as.length = bs.length) : List.Forall₂ R bs (List.zipWith f as bs) := by
  induction as generalizing bs with
  | nil =>
    cases bs with
    | nil => exact .nil
    | cons b bs => cases h
  | cons a as ih =>
    cases bs with
    | nil => cases h
    | cons b bs => exact .cons (hR a b) (ih (Nat.succ.inj h))

end Pointwise

/-! ## 3. States -/

namespace AbstractState

/-- What no join changes. -/
structure SameForm (a b : AbstractState) : Prop where
  depth : a.depth = b.depth
  locals : a.locals.length = b.locals.length
  cells : a.cells.length = b.cells.length
  blocks : a.blocks = b.blocks

theorem SameForm.refl (a : AbstractState) : SameForm a a := ⟨rfl, rfl, rfl, rfl⟩

theorem SameForm.symm {a b : AbstractState} (h : SameForm a b) : SameForm b a :=
  ⟨h.depth.symm, h.locals.symm, h.cells.symm, h.blocks.symm⟩

theorem SameForm.trans {a b c : AbstractState} (hab : SameForm a b) (hbc : SameForm b c) :
    SameForm a c :=
  ⟨hab.depth.trans hbc.depth, hab.locals.trans hbc.locals, hab.cells.trans hbc.cells,
    hab.blocks.trans hbc.blocks⟩

/-- The join of two states of one form. -/
def merged (m : TypeModel) (a b : AbstractState) : AbstractState where
  stack := List.zipWith (Slot.join m) a.stack b.stack
  locals := List.zipWith (Slot.joinVar m) a.locals b.locals
  cells := List.zipWith (Slot.joinVar m) a.cells b.cells
  blocks := a.blocks
  dead := false
  keywords := if a.keywords = b.keywords then a.keywords else none

theorem join_dead {m : TypeModel} {o : Nat} {a b : AbstractState} (ha : a.dead = true) :
    join m o a b = .ok b := by
  rw [join, if_pos ha]

/-- Live states have a join exactly if they are of one form. -/
theorem join_live {m : TypeModel} {o : Nat} {a b j : AbstractState} (ha : a.dead = false)
    (hb : b.dead = false) : join m o a b = .ok j ↔ SameForm a b ∧ j = merged m a b := by
  unfold join
  rw [if_neg (by simp [ha]), if_neg (by simp [hb])]
  constructor
  · intro h
    split at h
    · cases h
    · split at h
      · cases h
      · split at h
        · cases h
        · rename_i hd hl hbl
          rw [not_or, not_not, not_not] at hl
          cases h
          exact ⟨⟨not_not.mp hd, hl.1, hl.2, not_not.mp hbl⟩, rfl⟩
  · rintro ⟨⟨hd, hl, hc, hbl⟩, rfl⟩
    rw [if_neg (not_not.mpr hd), if_neg (by simp [hl, hc]), if_neg (not_not.mpr hbl)]
    rfl

theorem joinFrom_eq_ok {m : TypeModel} {o : Nat} {a b j : AbstractState} {changed : Bool} :
    joinFrom m o a b = .ok (changed, j) ↔ join m o a b = .ok j ∧ changed = (j != a) := by
  rw [joinFrom, bind_eq_ok]
  constructor
  · rintro ⟨j', hj, h⟩
    cases h
    exact ⟨hj, rfl⟩
  · rintro ⟨hj, rfl⟩
    exact ⟨j, hj, rfl⟩

theorem sameForm_merged {m : TypeModel} {a b : AbstractState} (h : SameForm a b) :
    SameForm a (merged m a b) where
  depth := by
    have hd := h.depth
    simp only [depth] at hd
    simp [depth, merged, hd]
  locals := by simp [merged, h.locals]
  cells := by simp [merged, h.cells]
  blocks := rfl

/-- The order on live states, field by field. -/
structure Within (m : TypeModel) (a b : AbstractState) : Prop where
  live : b.dead = false
  stack : List.Forall₂ (Slot.Within m) a.stack b.stack
  locals : List.Forall₂ (Slot.VarWithin m) a.locals b.locals
  cells : List.Forall₂ (Slot.VarWithin m) a.cells b.cells
  blocks : a.blocks = b.blocks
  keywords : a.keywords = b.keywords ∨ b.keywords = none

theorem Within.sameForm {m : TypeModel} {a b : AbstractState} (h : Within m a b) : SameForm a b :=
  ⟨h.stack.length_eq, h.locals.length_eq, h.cells.length_eq, h.blocks⟩

theorem isWithin_of_dead {m : TypeModel} {a b : AbstractState} (ha : a.dead = true) :
    isWithin m a b = true := by
  rw [isWithin, join_dead ha]
  exact beq_self_eq_true b

/-- **The order that the join defines, field by field.** -/
theorem isWithin_iff {m : TypeModel} {a b : AbstractState} (ha : a.dead = false) :
    isWithin m a b = true ↔ Within m a b := by
  cases hb : b.dead with
  | true =>
    have hj : join m 0 a b = .ok a := by rw [join, if_neg (by simp [ha]), if_pos hb]
    rw [isWithin, hj]
    refine ⟨fun h => ?_, fun h => absurd h.live (by simp [hb])⟩
    have hab : a = b := eq_of_beq h
    rw [hab, hb] at ha
    cases ha
  | false =>
    constructor
    · intro h
      unfold isWithin at h
      cases hj : join m 0 a b with
      | error e => rw [hj] at h; cases h
      | ok j =>
        rw [hj] at h
        obtain ⟨hf, hmerged⟩ := (join_live ha hb).mp hj
        have hb' : merged m a b = b := by rw [← hmerged]; exact eq_of_beq h
        refine ⟨hb, ?_, ?_, ?_, hf.blocks, ?_⟩
        · exact (zipWith_eq_right_iff hf.depth).mp (congrArg AbstractState.stack hb')
        · exact (zipWith_eq_right_iff hf.locals).mp (congrArg AbstractState.locals hb')
        · exact (zipWith_eq_right_iff hf.cells).mp (congrArg AbstractState.cells hb')
        · have hk : (if a.keywords = b.keywords then a.keywords else none) = b.keywords :=
            congrArg AbstractState.keywords hb'
          split at hk
          · exact Or.inl ‹_›
          · exact Or.inr hk.symm
    · intro h
      have hj : join m 0 a b = .ok (merged m a b) := (join_live ha hb).mpr ⟨h.sameForm, rfl⟩
      have hb' : merged m a b = b := by
        have hs := (zipWith_eq_right_iff h.stack.length_eq).mpr h.stack
        have hl := (zipWith_eq_right_iff h.locals.length_eq).mpr h.locals
        have hc := (zipWith_eq_right_iff h.cells.length_eq).mpr h.cells
        unfold merged
        rw [hs, hl, hc, h.blocks]
        have hk : (if a.keywords = b.keywords then a.keywords else none) = b.keywords := by
          rcases h.keywords with hk | hk
          · rw [if_pos hk, hk]
          · split
            · assumption
            · exact hk.symm
        rw [hk, ← hb]
      rw [isWithin, hj, hb']
      exact beq_self_eq_true b

theorem isWithin_refl (m : TypeModel) (a : AbstractState) : isWithin m a a = true := by
  cases ha : a.dead with
  | true => exact isWithin_of_dead ha
  | false =>
    exact (isWithin_iff ha).mpr ⟨ha, List.forall₂_same.mpr fun v _ => Slot.within_refl m v,
      List.forall₂_same.mpr fun v _ => Slot.varWithin_refl m v,
      List.forall₂_same.mpr fun v _ => Slot.varWithin_refl m v, rfl, Or.inl rfl⟩

theorem forall₂_trans {α : Type} {R : α → α → Prop} (hR : ∀ a b c, R a b → R b c → R a c)
    {as bs cs : List α} (hab : List.Forall₂ R as bs) (hbc : List.Forall₂ R bs cs) :
    List.Forall₂ R as cs := by
  induction hab generalizing cs with
  | nil => exact hbc
  | cons h _ ih =>
    cases hbc with
    | cons h' hrest => exact .cons (hR _ _ _ h h') (ih hrest)

theorem Within.trans {m : TypeModel} (hm : m.Ordered) {a b c : AbstractState} (hab : Within m a b)
    (hbc : Within m b c) : Within m a c where
  live := hbc.live
  stack := forall₂_trans (R := Slot.Within m) (fun _ _ _ => Slot.within_trans hm) hab.stack hbc.stack
  locals := forall₂_trans (R := Slot.VarWithin m) (fun _ _ _ => Slot.varWithin_trans hm) hab.locals hbc.locals
  cells := forall₂_trans (R := Slot.VarWithin m) (fun _ _ _ => Slot.varWithin_trans hm) hab.cells hbc.cells
  blocks := hab.blocks.trans hbc.blocks
  keywords := by
    rcases hbc.keywords with h | h
    · rw [← h]; exact hab.keywords
    · exact Or.inr h

/-- **The order is transitive** in an ordered model. -/
theorem isWithin_trans {m : TypeModel} (hm : m.Ordered) {a b c : AbstractState}
    (hab : isWithin m a b = true) (hbc : isWithin m b c = true) : isWithin m a c = true := by
  cases ha : a.dead with
  | true => exact isWithin_of_dead ha
  | false =>
    have hab' := (isWithin_iff ha).mp hab
    exact (isWithin_iff ha).mpr (hab'.trans hm ((isWithin_iff hab'.live).mp hbc))

theorem within_merged {m : TypeModel} {a b : AbstractState} (h : SameForm a b) :
    Within m a (merged m a b) ∧ Within m b (merged m a b) := by
  refine ⟨⟨rfl, ?_, ?_, ?_, rfl, ?_⟩, ⟨rfl, ?_, ?_, ?_, h.blocks.symm, ?_⟩⟩
  · exact forall₂_zipWith_left (Slot.within_join_left m) h.depth
  · exact forall₂_zipWith_left (fun a b => (Slot.varWithin_join m a b).1) h.locals
  · exact forall₂_zipWith_left (fun a b => (Slot.varWithin_join m a b).1) h.cells
  · unfold merged
    split
    · exact Or.inl rfl
    · exact Or.inr rfl
  · exact forall₂_zipWith_right (Slot.within_join_right m) h.depth
  · exact forall₂_zipWith_right (fun a b => (Slot.varWithin_join m a b).2) h.locals
  · exact forall₂_zipWith_right (fun a b => (Slot.varWithin_join m a b).2) h.cells
  · unfold merged
    split
    · exact Or.inl (Eq.symm ‹_›)
    · exact Or.inr rfl

/-- **A join is above both of its sides.** -/
theorem isWithin_join {m : TypeModel} {o : Nat} {a b j : AbstractState} (hb : b.dead = false)
    (h : join m o a b = .ok j) : isWithin m a j = true ∧ isWithin m b j = true := by
  cases ha : a.dead with
  | true =>
    rw [join_dead ha] at h
    cases h
    exact ⟨isWithin_of_dead ha, isWithin_refl m b⟩
  | false =>
    obtain ⟨hf, rfl⟩ := (join_live ha hb).mp h
    exact ⟨(isWithin_iff ha).mpr (within_merged hf).1, (isWithin_iff hb).mpr (within_merged hf).2⟩

/-- **What is within a state adds nothing to it.** -/
theorem join_of_isWithin {m : TypeModel} (hm : m.Built) {o : Nat} {a b : AbstractState}
    (ha : a.dead = false) (h : isWithin m a b = true) : join m o b a = .ok b := by
  have hw := (isWithin_iff ha).mp h
  refine (join_live hw.live ha).mpr ⟨hw.sameForm.symm, ?_⟩
  have hs : List.zipWith (Slot.join m) b.stack a.stack = b.stack :=
    zipWith_eq_left (hw.stack.imp fun _ _ => Slot.join_of_within hm)
  have hl : List.zipWith (Slot.joinVar m) b.locals a.locals = b.locals :=
    zipWith_eq_left (hw.locals.imp fun _ _ => Slot.joinVar_of_varWithin hm)
  have hc : List.zipWith (Slot.joinVar m) b.cells a.cells = b.cells :=
    zipWith_eq_left (hw.cells.imp fun _ _ => Slot.joinVar_of_varWithin hm)
  have hk : (if b.keywords = a.keywords then b.keywords else none) = b.keywords := by
    split
    · rfl
    · rename_i hne
      rcases hw.keywords with hk | hk
      · exact absurd hk.symm hne
      · exact hk.symm
  unfold merged
  rw [hs, hl, hc, hk, ← hw.live]

/-! ## 4. Relations that joins ascend -/

/-- A preorder on states that every join of live states ascends, and that keeps their form. The
iteration is sound for each of them. -/
structure Ascending (m : TypeModel) (R : AbstractState → AbstractState → Prop) : Prop where
  refl : ∀ a, R a a
  trans : ∀ {a b c}, R a b → R b c → R a c
  join : ∀ {o a b j}, b.dead = false → AbstractState.join m o a b = .ok j → R a j ∧ R b j
  live : ∀ {a b}, a.dead = false → R a b → b.dead = false
  form : ∀ {a b}, a.dead = false → R a b → SameForm a b

/-- The order that the join defines is one, in an ordered model. -/
theorem ascending_isWithin {m : TypeModel} (hm : m.Ordered) :
    Ascending m fun a b => isWithin m a b = true where
  refl := isWithin_refl m
  trans := isWithin_trans hm
  join := isWithin_join
  live ha h := ((isWithin_iff ha).mp h).live
  form ha h := ((isWithin_iff ha).mp h).sameForm

/-- To stay live and of one form is another, in any model. -/
def KeepsForm (a b : AbstractState) : Prop := a.dead = false → b.dead = false ∧ SameForm a b

theorem ascending_keepsForm (m : TypeModel) : Ascending m KeepsForm where
  refl a ha := ⟨ha, .refl a⟩
  trans hab hbc ha := by
    obtain ⟨hb, hab⟩ := hab ha
    obtain ⟨hc, hbc⟩ := hbc hb
    exact ⟨hc, hab.trans hbc⟩
  join {o a b j} hb h := by
    cases ha : a.dead with
    | true =>
      rw [join_dead ha] at h
      cases h
      exact ⟨fun ha' => absurd ha (by simp [ha']), fun _ => ⟨hb, .refl b⟩⟩
    | false =>
      obtain ⟨hf, rfl⟩ := (join_live ha hb).mp h
      exact ⟨fun _ => ⟨rfl, sameForm_merged hf⟩, fun _ => ⟨rfl, hf.symm.trans (sameForm_merged hf)⟩⟩
  live ha h := (h ha).1
  form ha h := (h ha).2

end AbstractState

end Stackwise
