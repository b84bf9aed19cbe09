import Stackwise.Proofs.Analysis.StateOrder
import Stackwise.Proofs.Types.SearchOrders

/-!
# The laws of the join

The iteration meets the paths to an offset in whatever order it comes upon them. That its answer means
anything rests on the join of abstract states being a join: defined on states of one form, above both
sides, and the same from either side.

* `Slot.join_comm`, `Slot.joinVar_comm`: slots and variables, in a built model;
* `AbstractState.merged_comm`: live states of one form;
* `AbstractState.join_comm`: any two states that are not both dead;
* `AbstractState.isWithin_antisymm`: no two live states are within each other;
* `AbstractState.isWithin_iff_join_eq`: the change that a join reports;
* `AbstractState.JoinLaws`, `AbstractState.reached_joinLaws`: all laws at once.

Where a type may have several bases, a join of slots takes one of several minimal upper bounds, and
what many slots come to may depend on the order in which they are met. Where each type has one base
there is nothing to choose: the join is the least upper bound.

* `Slot.within_antisymm`: no two slots are within each other;
* `Slot.within_join_iff`: a join is within what both of its sides are within;
* `Slot.within_foldl_iff`: the same for any number of slots;
* `Slot.LeastJoins`, `Slot.reached_leastJoins`: the laws that follow.
-/

namespace Stackwise

/-! ## 1. Slots -/

namespace Slot

theorem join_comm {m : TypeModel} (hm : m.Built) (a b : Slot) : join m a b = join m b a := by
  by_cases hab : a = b
  · rw [hab]
  · rw [join, if_neg hab, join, if_neg (Ne.symm hab), TypeModel.commonSupertype_comm hm]

theorem joinVar_comm {m : TypeModel} (hm : m.Built) (a b : Option Slot) :
    joinVar m a b = joinVar m b a := by
  cases a with
  | none => cases b <;> rfl
  | some a =>
    cases b with
    | none => rfl
    | some b => exact congrArg some (join_comm hm a b)

end Slot

/-! ## 2. States -/

namespace AbstractState

variable {m : TypeModel} {o : Nat} {a b j : AbstractState}

theorem join_dead_right (ha : a.dead = false) (hb : b.dead = true) : join m o a b = .ok a := by
  rw [join, if_neg (Bool.eq_false_iff.mp ha), if_pos hb]

theorem merged_comm (hm : m.Built) (h : SameForm a b) : merged m a b = merged m b a := by
  have hstack : List.zipWith (Slot.join m) a.stack b.stack
      = List.zipWith (Slot.join m) b.stack a.stack :=
    List.zipWith_comm_of_comm fun x y => Slot.join_comm hm x y
  have hvars : ∀ xs ys : List (Option Slot), List.zipWith (Slot.joinVar m) xs ys
      = List.zipWith (Slot.joinVar m) ys xs :=
    fun _ _ => List.zipWith_comm_of_comm fun x y => Slot.joinVar_comm hm x y
  have hkeywords : (if a.keywords = b.keywords then a.keywords else none)
      = if b.keywords = a.keywords then b.keywords else none := by
    by_cases hk : a.keywords = b.keywords
    · rw [if_pos hk, if_pos hk.symm, hk]
    · rw [if_neg hk, if_neg (Ne.symm hk)]
  rw [merged, merged, hstack, hvars a.locals, hvars a.cells, h.blocks, hkeywords]

/-- Two states have a join exactly if one is dead or both are of one form. -/
theorem exists_join_iff :
    (∃ j, join m o a b = .ok j) ↔ a.dead = true ∨ b.dead = true ∨ SameForm a b := by
  cases ha : a.dead with
  | true => exact ⟨fun _ => .inl rfl, fun _ => ⟨b, join_dead ha⟩⟩
  | false =>
    cases hb : b.dead with
    | true => exact ⟨fun _ => .inr (.inl rfl), fun _ => ⟨a, join_dead_right ha hb⟩⟩
    | false =>
      constructor
      · rintro ⟨j, hj⟩
        exact .inr (.inr ((join_live ha hb).mp hj).1)
      · rintro (h | h | hform)
        · cases h
        · cases h
        · exact ⟨merged m a b, (join_live ha hb).mpr ⟨hform, rfl⟩⟩

/-- **The join is the same from either side**, but for two dead states. -/
theorem join_comm (hm : m.Built) (hlive : a.dead = false ∨ b.dead = false) :
    join m o a b = .ok j ↔ join m o b a = .ok j := by
  cases ha : a.dead with
  | true =>
    have hb : b.dead = false := hlive.resolve_left (ne_of_eq_of_ne ha Bool.noConfusion)
    rw [join_dead ha, join_dead_right hb ha]
  | false =>
    cases hb : b.dead with
    | true => rw [join_dead_right ha hb, join_dead hb]
    | false =>
      rw [join_live ha hb, join_live hb ha]
      constructor
      · rintro ⟨hform, rfl⟩
        exact ⟨hform.symm, merged_comm hm hform⟩
      · rintro ⟨hform, rfl⟩
        exact ⟨hform.symm, merged_comm hm hform⟩

/-- The offset is only told in errors. -/
theorem join_offset (o o' : Nat) : join m o a b = .ok j ↔ join m o' a b = .ok j := by
  cases ha : a.dead with
  | true => rw [join_dead ha, join_dead ha]
  | false =>
    cases hb : b.dead with
    | true => rw [join_dead_right ha hb, join_dead_right ha hb]
    | false => rw [join_live ha hb, join_live ha hb]

theorem isWithin_iff_join : isWithin m a b = true ↔ join m o a b = .ok b := by
  rw [join_offset o 0, isWithin]
  cases join m 0 a b with
  | error e => exact ⟨fun h => absurd h Bool.false_ne_true, fun h => by cases h⟩
  | ok j =>
    constructor
    · exact fun h => congrArg Except.ok (eq_of_beq h)
    · rintro ⟨⟩
      exact beq_self_eq_true b

/-- A state is an upper bound of another exactly if joining that one into it changes nothing. -/
theorem isWithin_iff_join_eq (hm : m.Built) (hlive : a.dead = false ∨ b.dead = false)
    (h : join m o a b = .ok j) : isWithin m b a = true ↔ j = a := by
  rw [isWithin_iff_join (o := o), ← join_comm hm hlive, h]
  exact ⟨Except.ok.inj, congrArg Except.ok⟩

theorem isWithin_join_of_live (hlive : a.dead = false ∨ b.dead = false)
    (h : join m o a b = .ok j) : isWithin m a j = true ∧ isWithin m b j = true := by
  cases hb : b.dead with
  | false => exact isWithin_join hb h
  | true =>
    have ha : a.dead = false := hlive.resolve_right (ne_of_eq_of_ne hb Bool.noConfusion)
    rw [join_dead_right ha hb] at h
    cases h
    exact ⟨isWithin_refl m a, isWithin_of_dead hb⟩

/-- **No two live states are within each other.** -/
theorem isWithin_antisymm (hm : m.Built) (hlive : a.dead = false ∨ b.dead = false)
    (hab : isWithin m a b = true) (hba : isWithin m b a = true) : a = b :=
  ((isWithin_iff_join_eq hm hlive (isWithin_iff_join (o := 0).mp hab)).mp hba).symm

/-! ## 3. All laws -/

/-- What a join of abstract states owes to the iteration. -/
structure JoinLaws (m : TypeModel) : Prop where
  /-- There is a join exactly of states one of which is dead, and of states of one form. -/
  defined : ∀ o a b, (∃ j, join m o a b = .ok j) ↔ a.dead = true ∨ b.dead = true
    ∨ (a.depth = b.depth ∧ a.locals.length = b.locals.length ∧ a.cells.length = b.cells.length
      ∧ a.blocks = b.blocks)
  upper : ∀ o a b j, a.dead = false ∨ b.dead = false → join m o a b = .ok j →
    isWithin m a j = true ∧ isWithin m b j = true
  idem : ∀ o a, join m o a a = .ok a
  comm : ∀ o a b j, a.dead = false ∨ b.dead = false →
    (join m o a b = .ok j ↔ join m o b a = .ok j)
  /-- A dead state adds nothing. -/
  dead : ∀ o a d, a.dead = false → d.dead = true →
    join m o a d = .ok a ∧ join m o d a = .ok a
  /-- Joining into a state succeeds with the join, and reports a change exactly if the state was no
  upper bound. -/
  change : ∀ o a b, a.dead = false ∨ b.dead = false →
    joinFrom m o a b = (join m o a b).map fun j => (!isWithin m b a, j)
  /-- The order on live states, of whatever form. -/
  refl : ∀ a, isWithin m a a = true
  trans : ∀ a b c, isWithin m a b = true → isWithin m b c = true → isWithin m a c = true
  antisymm : ∀ a b, a.dead = false → b.dead = false → isWithin m a b = true →
    isWithin m b a = true → a = b

/-- **The join of abstract states is a join**, in every model that calls lead to. -/
theorem reached_joinLaws (hreached : m.Reached) : JoinLaws m := by
  have hm := hreached.built
  refine ⟨fun o a b => ?_, fun o a b j => isWithin_join_of_live,
    fun o a => isWithin_iff_join.mp (isWithin_refl m a), fun o a b j => join_comm hm,
    fun o a d ha hd => ⟨join_dead_right ha hd, join_dead hd⟩, fun o a b hlive => ?_,
    isWithin_refl m, fun a b c => isWithin_trans hm.ordered,
    fun a b ha _ => isWithin_antisymm hm (.inl ha)⟩
  · rw [exists_join_iff]
    refine or_congr_right (or_congr_right ⟨fun h => ?_, fun h => ?_⟩)
    · exact ⟨h.depth, h.locals, h.cells, h.blocks⟩
    · exact ⟨h.1, h.2.1, h.2.2.1, h.2.2.2⟩
  · cases hj : join m o a b with
    | error e =>
      rw [joinFrom, hj]
      rfl
    | ok j =>
      refine joinFrom_eq_ok.mpr ⟨hj, ?_⟩
      rw [Bool.eq_iff_iff, Bool.not_eq_true', ← Bool.not_eq_true, isWithin_iff_join_eq hm hlive hj,
        bne_iff_ne]

/-- Two classes over the sides of a diamond have two minimal common supertypes. The join takes one of
them; a variable that is unbound on one side may be unbound. -/
theorem reached_joinLaws_crossing :
    TypeModel.crossing.Reached ∧ JoinLaws TypeModel.crossing
    ∧ join TypeModel.crossing 0
        { entry [some (.value ⟨4⟩), none] 0 with stack := [.value ⟨4⟩] }
        { entry [some (.value ⟨4⟩), some (.value ⟨5⟩)] 0 with stack := [.value ⟨5⟩] }
      = .ok { entry [some (.value ⟨4⟩), none] 0 with stack := [.value ⟨2⟩] } :=
  have hreached : TypeModel.crossing.Reached := (TypeModel.Reached.empty.calls _).call _
  ⟨hreached, reached_joinLaws hreached, by decide +kernel⟩

end AbstractState

namespace Slot

variable {m : TypeModel} {a b c : Slot}

/-! ## 4. The order -/

theorem isWithin_eq_true : isWithin m a b = true ↔ Within m a b := beq_iff_eq

theorem within_value {t : TypeId} (h : m.isSubtype a.runtimeType t = true) :
    Within m a (.value t) :=
  within_iff.mpr (.inr ⟨t, rfl, h⟩)

/-- **No two slots are within each other.** -/
theorem within_antisymm (hm : m.Built) (hab : Within m a b) (hba : Within m b a) : a = b :=
  hba.symm.trans (join_of_within hm hab)

/-- A slot that two different ones are within is a type above both of theirs. -/
theorem eq_value_of_ne (hne : a ≠ b) (ha : Within m a c) (hb : Within m b c) :
    ∃ t, c = .value t ∧ m.isSubtype a.runtimeType t = true
      ∧ m.isSubtype b.runtimeType t = true := by
  rcases within_iff.mp ha with rfl | ⟨t, rfl, hat⟩
  · -- the one slot is the bound itself, and then the other is strictly within it
    rcases within_iff.mp hb with rfl | ⟨t, rfl, hbt⟩
    · exact absurd rfl hne
    · exact ⟨t, rfl, m.isSubtype_refl t, hbt⟩
  · rcases within_iff.mp hb with rfl | ⟨u, hu, hbu⟩
    · exact ⟨t, rfl, hat, m.isSubtype_refl t⟩
    · cases hu
      exact ⟨t, rfl, hat, hbu⟩

/-- Slots that are within the same slots are equal. -/
theorem eq_of_within_iff (hm : m.Built) (h : ∀ c, Within m a c ↔ Within m b c) : a = b :=
  within_antisymm hm ((h b).mpr (within_refl m b)) ((h a).mp (within_refl m a))

/-! ## 5. Least upper bounds -/

section Least

variable (hs : m.SingleBased) (hm : m.Built)
include hs hm

/-- **A join is within every upper bound.** -/
theorem join_within (ha : Within m a c) (hb : Within m b c) : Within m (join m a b) c := by
  by_cases hne : a = b
  · rw [join, if_pos hne]
    exact ha
  · obtain ⟨t, rfl, hat, hbt⟩ := eq_value_of_ne hne ha hb
    rw [join, if_neg hne]
    exact within_value (hs.commonSupertype_least hm hat hbt)

theorem within_join_iff : Within m (join m a b) c ↔ Within m a c ∧ Within m b c := by
  constructor
  · intro h
    exact ⟨within_trans hm.ordered (within_join_left m a b) h,
      within_trans hm.ordered (within_join_right m a b) h⟩
  · rintro ⟨ha, hb⟩
    exact join_within hs hm ha hb

/-- What slots come to is within exactly what each of them is within. -/
theorem within_foldl_iff (a : Slot) (as : List Slot) :
    Within m (as.foldl (join m) a) c ↔ ∀ x ∈ a :: as, Within m x c := by
  induction as generalizing a with
  | nil => rw [List.foldl_nil, List.forall_mem_singleton]
  | cons b as ih =>
    rw [List.foldl_cons, ih, List.forall_mem_cons, within_join_iff hs hm, List.forall_mem_cons,
      List.forall_mem_cons, and_assoc]

theorem join_assoc (a b c : Slot) : join m (join m a b) c = join m a (join m b c) :=
  eq_of_within_iff hm fun d => by
    rw [within_join_iff hs hm, within_join_iff hs hm, within_join_iff hs hm, within_join_iff hs hm,
      and_assoc]

/-- **Slots come to the same in every order**, and however often each of them is met. -/
theorem foldl_join_congr {a b : Slot} {as bs : List Slot} (h : ∀ x, x ∈ a :: as ↔ x ∈ b :: bs) :
    as.foldl (join m) a = bs.foldl (join m) b :=
  eq_of_within_iff hm fun c => by
    rw [within_foldl_iff hs hm, within_foldl_iff hs hm]
    exact forall_congr' fun x => imp_congr_left (h x)

end Least

/-! ## 6. All laws -/

/-- What a least join of slots owes to the analysis. -/
structure LeastJoins (m : TypeModel) : Prop where
  /-- The join is above both sides, and within whatever else is above both. -/
  upper : ∀ a b, isWithin m a (join m a b) = true ∧ isWithin m b (join m a b) = true
  least : ∀ a b c, isWithin m a c = true → isWithin m b c = true →
    isWithin m (join m a b) c = true
  /-- So it is the only such slot. -/
  antisymm : ∀ a b, isWithin m a b = true → isWithin m b a = true → a = b
  assoc : ∀ a b c, join m (join m a b) c = join m a (join m b c)
  comm : ∀ a b, join m a b = join m b a
  idem : ∀ a, join m a a = a
  /-- The order in which slots are joined does not matter. -/
  order : ∀ a as b bs, (a :: as).Perm (b :: bs) → as.foldl (join m) a = bs.foldl (join m) b

/-- **The join of slots is the least upper bound**, in every model that calls lead to where each
type has one base. -/
theorem reached_leastJoins (h : m.Reached) (hs : m.SingleBased) : LeastJoins m := by
  have hm := h.built
  refine ⟨fun a b => ?_, fun a b c ha hb => ?_, fun a b hab hba => ?_, join_assoc hs hm,
    join_comm hm, join_self m, fun a as b bs hperm => ?_⟩
  · exact ⟨isWithin_eq_true.mpr (within_join_left m a b),
      isWithin_eq_true.mpr (within_join_right m a b)⟩
  · exact isWithin_eq_true.mpr
      (join_within hs hm (isWithin_eq_true.mp ha) (isWithin_eq_true.mp hb))
  · exact within_antisymm hm (isWithin_eq_true.mp hab) (isWithin_eq_true.mp hba)
  · exact foldl_join_congr hs hm fun x => hperm.mem_iff

/-- The builtin types have one base each. Class objects and methods meet in the type of all classes,
or of all methods, and those with values in the universal type. -/
theorem reached_leastJoins_builtins :
    TypeModel.withBuiltins.Reached ∧ TypeModel.withBuiltins.SingleBased
    ∧ LeastJoins TypeModel.withBuiltins
    ∧ join TypeModel.withBuiltins (.classObject .int) (.classObject .str) = .value .type
    ∧ [.classObject .int, .value .type].foldl (join TypeModel.withBuiltins) (.classObject .int)
      = .value .type
    ∧ [.value .int, .method .str "upper"].foldl (join TypeModel.withBuiltins) (.value .bool)
      = .value .object := by
  -- one evaluation of the builtin table for all of it
  have hall : TypeModel.withBuiltins.SingleBased
      ∧ join TypeModel.withBuiltins (.classObject .int) (.classObject .str) = .value .type
      ∧ [.classObject .int, .value .type].foldl (join TypeModel.withBuiltins) (.classObject .int)
        = .value .type
      ∧ [.value .int, .method .str "upper"].foldl (join TypeModel.withBuiltins) (.value .bool)
        = .value .object := by
    decide +kernel
  exact ⟨.withBuiltins, hall.1, reached_leastJoins .withBuiltins hall.1, hall.2⟩

/-- With two minimal upper bounds to choose from, the order matters. -/
example : join TypeModel.crossing (join TypeModel.crossing (.value ⟨4⟩) (.value ⟨5⟩)) (.value ⟨3⟩)
    ≠ join TypeModel.crossing (.value ⟨4⟩) (join TypeModel.crossing (.value ⟨5⟩) (.value ⟨3⟩)) := by
  decide +kernel

end Slot

end Stackwise
