import Mathlib.Data.Int.Bitwise
import Stackwise.Machine.Number

/-!
# Words as integers

A word stands for an integer, and its operations for those on integers: exactly, as long as the
result is in the range of words.

* `Integer.ofInt?_eq_some`, `Integer.fits_iff`: the word of an integer, and when there is one.
  `Integer.exact_of_fits`, `Integer.exact_of_not_fits`: what becomes of an exact result.
* `toInt_add_word`, `toInt_sub_word`, `toInt_mul_word`, `toInt_div_word`: sums, differences,
  products and quotients.
* `toInt_shiftLeft_word`, `toInt_shiftRight_word`: shifts by fewer places than a word has.
* `testBit_toInt`: the bits of the integer in two's complement; from them `toInt_and_word`,
  `toInt_or_word`, `toInt_xor_word`, `toInt_not_word`.
-/

namespace Stackwise

variable {a b count w : Int64} {n : Int}

/-! ## 1. The range -/

/-- An integer in the range of words is not changed by the reduction to it. -/
theorem bmod_word (hlo : -2 ^ 63 ≤ n) (hhi : n < 2 ^ 63) : n.bmod (2 ^ 64) = n :=
  Int.bmod_eq_of_le (by omega) (by omega)

namespace Integer

theorem fits_iff : fits n = true ↔ -2 ^ 63 ≤ n ∧ n < 2 ^ 63 := by
  unfold fits
  rw [Bool.and_eq_true, decide_eq_true_iff, decide_eq_true_iff]
  omega

theorem fits_toInt (w : Int64) : fits w.toInt = true := fits_iff.mpr ⟨w.le_toInt, w.toInt_lt⟩

theorem ofInt?_of_fits (h : fits n = true) : ∃ w, ofInt? n = some w ∧ w.toInt = n := by
  obtain ⟨hlo, hhi⟩ := fits_iff.mp h
  exact ⟨_, if_pos h, Int64.toInt_ofInt_of_le hlo hhi⟩

theorem ofInt?_toInt (w : Int64) : ofInt? w.toInt = some w := by
  obtain ⟨v, hv, hw⟩ := ofInt?_of_fits (fits_toInt w)
  rw [hv, Int64.toInt_inj.mp hw]

theorem ofInt?_eq_some : ofInt? n = some w ↔ w.toInt = n := by
  refine ⟨fun h => ?_, fun h => h ▸ ofInt?_toInt w⟩
  by_cases hn : fits n = true
  · obtain ⟨v, hv, hw⟩ := ofInt?_of_fits hn
    rw [h, Option.some.injEq] at hv
    rwa [hv]
  · rw [ofInt?, if_neg hn] at h
    cases h

theorem checked_eq_ok {w? : Option Int64} {x : Number} (h : checked w? = .ok x) :
    ∃ w, w? = some w ∧ x = .int w := by
  cases w? with
  | some w =>
    cases h
    exact ⟨w, rfl, rfl⟩
  | none => cases h

theorem exact_toInt (w : Int64) : exact w.toInt = .ok (.int w) := by
  rw [exact, ofInt?_toInt]
  rfl

theorem exact_eq_ok {x : Number} (h : exact n = .ok x) : ∃ w, x = .int w ∧ w.toInt = n := by
  obtain ⟨w, hw, rfl⟩ := checked_eq_ok h
  exact ⟨w, rfl, ofInt?_eq_some.mp hw⟩

theorem exact_of_fits (h : fits n = true) : ∃ w, w.toInt = n ∧ exact n = .ok (.int w) := by
  obtain ⟨w, -, rfl⟩ := ofInt?_of_fits h
  exact ⟨w, rfl, exact_toInt w⟩

theorem exact_of_not_fits (h : ¬fits n = true) : exact n = .error .overflow := by
  rw [exact, ofInt?, if_neg h]
  rfl

theorem divisible_iff : divisible a b = true
    ↔ b.toInt ≠ 0 ∧ ¬(a.toInt = -2 ^ 63 ∧ b.toInt = -1) := by
  have hzero : b = 0 ↔ b.toInt = 0 := (Int64.toInt_inj (y := 0)).symm
  have hleast : a = Int64.minValue ↔ a.toInt = -2 ^ 63 :=
    (Int64.toInt_inj (y := Int64.minValue)).symm
  have hback : b = -1 ↔ b.toInt = -1 := (Int64.toInt_inj (y := -1)).symm
  unfold divisible
  rw [Bool.and_eq_true, bne_iff_ne, Bool.not_eq_true', Bool.and_eq_false_iff,
    beq_eq_false_iff_ne, beq_eq_false_iff_ne, Ne, Ne, Ne, hzero, hleast, hback, not_and_or]

end Integer

/-! ## 2. Arithmetic -/

theorem toInt_add_word (hlo : -2 ^ 63 ≤ a.toInt + b.toInt)
    (hhi : a.toInt + b.toInt < 2 ^ 63) : (a + b).toInt = a.toInt + b.toInt := by
  rw [Int64.toInt_add, bmod_word hlo hhi]

theorem toInt_sub_word (hlo : -2 ^ 63 ≤ a.toInt - b.toInt)
    (hhi : a.toInt - b.toInt < 2 ^ 63) : (a - b).toInt = a.toInt - b.toInt := by
  rw [Int64.toInt_sub, bmod_word hlo hhi]

/-- A quotient by another divisor than plus or minus one has at most half the magnitude. -/
theorem natAbs_tdiv_le {x y : Int} (h : 2 ≤ y.natAbs) : (x.tdiv y).natAbs ≤ x.natAbs / 2 := by
  rw [Int.natAbs_tdiv]
  exact Nat.div_le_div_left h (by decide)

theorem toInt_div_word (h : Integer.divisible a b = true) :
    (a / b).toInt = a.toInt.tdiv b.toInt := by
  obtain ⟨hzero, hleast⟩ := Integer.divisible_iff.mp h
  have hlo := a.le_toInt
  have hhi := a.toInt_lt
  have hfits : -2 ^ 63 ≤ a.toInt.tdiv b.toInt ∧ a.toInt.tdiv b.toInt < 2 ^ 63 := by
    obtain hone | hback | hlarge : b.toInt = 1 ∨ b.toInt = -1 ∨ 2 ≤ b.toInt.natAbs := by omega
    · rw [hone, Int.tdiv_one]
      exact ⟨hlo, hhi⟩
    · rw [hback, Int.tdiv_neg, Int.tdiv_one]
      omega
    · have hhalf := natAbs_tdiv_le (x := a.toInt) hlarge
      omega
  rw [Int64.toInt_div, bmod_word hfits.1 hfits.2]

/-! ## 3. Shifts -/

/-- A shift takes a count of fewer places than a word has as it is. -/
theorem places_word (hlo : 0 ≤ count.toInt) (hhi : count.toInt < 64) :
    (count.toBitVec.smod 64).toNat = count.toInt.toNat := by
  have hsame : count.toBitVec.smod 64 = count.toBitVec := by
    have hwidth : (64 : BitVec 64).toInt = 64 := rfl
    refine BitVec.eq_of_toInt_eq ?_
    rw [BitVec.toInt_smod, hwidth, Int.fmod_eq_emod_of_nonneg _ (by decide)]
    exact Int.emod_eq_of_lt hlo hhi
  have hmsb : count.toBitVec.msb = false := by
    rw [BitVec.msb_eq_toInt]
    exact decide_eq_false (Int.not_lt.mpr hlo)
  rw [hsame, ← BitVec.toNat_toInt_of_msb _ hmsb]
  rfl

theorem toInt_shiftLeft_word (hlo : 0 ≤ count.toInt) (hhi : count.toInt < 64) :
    (a <<< count).toInt = (a.toInt * 2 ^ count.toInt.toNat).bmod (2 ^ 64) := by
  rw [← Int64.toInt_toBitVec (a <<< count), Int64.toBitVec_shiftLeft, BitVec.shiftLeft_eq',
    places_word hlo hhi, BitVec.toInt_shiftLeft, ← Int64.toInt_toBitVec a,
    BitVec.toInt_eq_toNat_bmod, Int.bmod_mul_bmod, Nat.shiftLeft_eq, Int.natCast_mul,
    Int.natCast_pow]
  rfl

theorem toInt_shiftRight_word (hlo : 0 ≤ count.toInt) (hhi : count.toInt < 64) :
    (a >>> count).toInt = a.toInt / 2 ^ count.toInt.toNat := by
  rw [← Int64.toInt_toBitVec (a >>> count), Int64.toBitVec_shiftRight, BitVec.toInt_sshiftRight',
    places_word hlo hhi, Int.shiftRight_eq_div_pow, Int64.toInt_toBitVec, Int.natCast_pow]
  rfl

/-! ## 4. Bits -/

/-- Behind the last place of a word stands its sign. -/
theorem testBit_toInt (a : Int64) (i : Nat) :
    a.toInt.testBit i = a.toBitVec.getLsbD (min i 63) := by
  have hlt := a.toBitVec.isLt
  have hsign : a.toBitVec.msb = a.toBitVec.getLsbD 63 := BitVec.msb_eq_getLsbD_last _
  have hpast : ¬i < 64 → a.toBitVec.toNat.testBit i = false := fun hi =>
    Nat.testBit_lt_two_pow (Nat.lt_of_lt_of_le hlt (Nat.pow_le_pow_right (by decide) (by omega)))
  rw [← Int64.toInt_toBitVec, BitVec.toInt_eq_msb_cond]
  cases hmsb : a.toBitVec.msb with
  | false =>
    rw [if_neg Bool.false_ne_true]
    change a.toBitVec.toNat.testBit i = _
    by_cases hi : i < 64
    · rw [Nat.min_eq_left (by omega), BitVec.testBit_toNat]
    · rw [Nat.min_eq_right (by omega), hpast hi, ← hsign, hmsb]
  | true =>
    have hneg : (a.toBitVec.toNat : Int) - (2 ^ 64 : Nat)
        = Int.negSucc (2 ^ 64 - (a.toBitVec.toNat + 1)) := by omega
    rw [if_pos rfl, hneg]
    change (!(2 ^ 64 - (a.toBitVec.toNat + 1)).testBit i) = _
    rw [Nat.testBit_two_pow_sub_succ hlt]
    by_cases hi : i < 64
    · rw [Nat.min_eq_left (by omega), BitVec.testBit_toNat, decide_eq_true hi, Bool.true_and,
        Bool.not_not]
    · rw [Nat.min_eq_right (by omega), ← hsign, hmsb, decide_eq_false hi]
      rfl

/-- Integers with the same bits in two's complement are equal. -/
theorem eq_of_testBit {m n : Int} (h : ∀ i, m.testBit i = n.testBit i) : m = n := by
  -- high bits tell the signs apart
  have hsign : ∀ m n : Nat, ¬∀ i, (Int.ofNat m).testBit i = (Int.negSucc n).testBit i := by
    intro m n h
    have hm : m.testBit (m + n) = false :=
      Nat.testBit_lt_two_pow (Nat.lt_of_lt_of_le Nat.lt_two_pow_self
        (Nat.pow_le_pow_right (by decide) (Nat.le_add_right m n)))
    have hn : n.testBit (m + n) = false :=
      Nat.testBit_lt_two_pow (Nat.lt_of_lt_of_le Nat.lt_two_pow_self
        (Nat.pow_le_pow_right (by decide) (Nat.le_add_left n m)))
    have hbit : m.testBit (m + n) = !n.testBit (m + n) := h (m + n)
    rw [hm, hn] at hbit
    cases hbit
  cases m with
  | ofNat m =>
    cases n with
    | ofNat n => exact congrArg Int.ofNat (Nat.eq_of_testBit_eq h)
    | negSucc n => exact absurd h (hsign m n)
  | negSucc m =>
    cases n with
    | ofNat n => exact absurd (fun i => (h i).symm) (hsign n m)
    | negSucc n =>
      refine congrArg Int.negSucc (Nat.eq_of_testBit_eq fun i => ?_)
      exact Bool.not_inj (h i)

theorem toInt_and_word (a b : Int64) : (a &&& b).toInt = Int.land a.toInt b.toInt := by
  refine eq_of_testBit fun i => ?_
  rw [Int.testBit_land, testBit_toInt, testBit_toInt, testBit_toInt, Int64.toBitVec_and,
    BitVec.getLsbD_and]

theorem toInt_or_word (a b : Int64) : (a ||| b).toInt = Int.lor a.toInt b.toInt := by
  refine eq_of_testBit fun i => ?_
  rw [Int.testBit_lor, testBit_toInt, testBit_toInt, testBit_toInt, Int64.toBitVec_or,
    BitVec.getLsbD_or]

theorem toInt_xor_word (a b : Int64) : (a ^^^ b).toInt = Int.xor a.toInt b.toInt := by
  refine eq_of_testBit fun i => ?_
  rw [Int.testBit_lxor, testBit_toInt, testBit_toInt, testBit_toInt, Int64.toBitVec_xor,
    BitVec.getLsbD_xor]

theorem toInt_not_word (a : Int64) : (~~~a).toInt = Int.lnot a.toInt := by
  refine eq_of_testBit fun i => ?_
  rw [Int.testBit_lnot, testBit_toInt, testBit_toInt, Int64.toBitVec_not,
    BitVec.getLsbD_not, decide_eq_true (by omega), Bool.true_and]

end Stackwise
