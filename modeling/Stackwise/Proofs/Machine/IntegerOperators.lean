import Mathlib.Algebra.Order.Field.Rat
import Mathlib.Data.Rat.Floor
import Mathlib.Tactic.Linarith
import Stackwise.Machine.Arithmetic
import Stackwise.Proofs.Machine.Stepping
import Stackwise.Proofs.Machine.Words

/-!
# Operators on integers

What the operators on words give, and what they refuse, against the exact results on integers of any
size. Each operator has a test of its own: a quotient is corrected from the one toward zero, a shift
is taken back, a power is cut off by its exponent. Each test is exact but for two lapses: a
remainder is refused if its quotient does not fit, and so is any exponent of more than 32 bits.

* `Integer.result?`, `Integer.unaryResult?`: the exact results.
* `Integer.floorDiv_eq_tdiv`, `Integer.checked_floorQuotient`, `Integer.checked_floorRemainder`,
  `Integer.checked_shiftLeft`, `Integer.toInt_shiftRight`, `Integer.power_eq`: one test each.
* `Integer.binary_of_result`, `Integer.binary_of_lapses`, `Integer.binary_of_none`: every operator.
* `Machine.integers_exact`: an integer that the machine gives is the exact result.
* `Machine.overflow_exact`: the operands that the machine refuses.
-/

namespace Stackwise

namespace Integer

variable {a b w : Int64} {n : Int} {op : BinaryOp}

/-! ## 1. Quotients to the floor -/

/-- The greatest integer that is not above a quotient. -/
def floorDiv (x y : Int) : Int := ⌊(x : ℚ) / y⌋

/-- A remainder to the floor is smaller than the divisor, and not on the other side of zero. -/
def Beside (y r : Int) : Prop := 0 ≤ r ∧ r < y ∨ y < r ∧ r ≤ 0

/-- A quotient is the one to the floor if it leaves such a remainder. -/
theorem floorDiv_eq {x y q : Int} (h : Beside y (x - y * q)) : floorDiv x y = q := by
  unfold floorDiv
  rw [Int.floor_eq_iff]
  rcases h with ⟨hlo, hhi⟩ | ⟨hlo, hhi⟩
  · have hy : (0 : ℚ) < y := by exact_mod_cast Int.lt_of_le_of_lt hlo hhi
    rw [le_div_iff₀ hy, div_lt_iff₀ hy]
    constructor
    · exact_mod_cast (by linarith : q * y ≤ x)
    · exact_mod_cast (by linarith : x < (q + 1) * y)
  · have hy : (y : ℚ) < 0 := by exact_mod_cast Int.lt_of_lt_of_le hlo hhi
    rw [le_div_iff_of_neg hy, div_lt_iff_of_neg hy]
    constructor
    · exact_mod_cast (by linarith : x ≤ q * y)
    · exact_mod_cast (by linarith : (q + 1) * y < x)

/-- What is left over toward zero is smaller than the divisor, and has the sign of the dividend. -/
theorem tmod_small {x y : Int} (hy : y ≠ 0) : (x.tmod y).natAbs < y.natAbs
    ∧ (0 ≤ x → 0 ≤ x.tmod y) ∧ (x ≤ 0 → x.tmod y ≤ 0) := by
  refine ⟨?_, Int.tmod_nonneg y, fun hx => ?_⟩
  · rw [Int.natAbs_tmod]
    exact Nat.mod_lt _ (Int.natAbs_pos.mpr hy)
  · have hopposite := Int.tmod_nonneg y (Int.neg_nonneg_of_nonpos hx)
    rw [Int.neg_tmod] at hopposite
    omega

/-- The quotient toward zero is corrected if something is left over and the signs differ. -/
theorem beside_tdiv {x y : Int} (hy : y ≠ 0) : Beside y (x - y *
    if x.tmod y ≠ 0 ∧ ¬(x < 0 ↔ y < 0) then x.tdiv y - 1 else x.tdiv y) := by
  have hsum := Int.tmod_add_mul_tdiv x y
  obtain ⟨hsmall, hpos, hneg⟩ := tmod_small (x := x) hy
  unfold Beside
  split
  · rw [Int.mul_sub, Int.mul_one]
    omega
  · omega

theorem floorDiv_eq_tdiv {x y : Int} (hy : y ≠ 0) : floorDiv x y
    = if x.tmod y ≠ 0 ∧ ¬(x < 0 ↔ y < 0) then x.tdiv y - 1 else x.tdiv y :=
  floorDiv_eq (beside_tdiv hy)

theorem beside_floorDiv {x y : Int} (hy : y ≠ 0) : Beside y (x - y * floorDiv x y) := by
  rw [floorDiv_eq_tdiv hy]
  exact beside_tdiv hy

theorem floorDiv_two_pow (x : Int) (k : Nat) : floorDiv x (2 ^ k) = x / 2 ^ k := by
  have hpos : (0 : Int) < 2 ^ k := Int.pow_pos (by decide)
  refine floorDiv_eq (.inl ?_)
  rw [← Int.emod_def]
  exact ⟨Int.emod_nonneg _ (Int.ne_of_gt hpos), Int.emod_lt_of_pos _ hpos⟩

/-- The test on words for a result toward zero that is not yet the one to the floor. -/
theorem beyond_iff {r s : Int64} : (r != 0 && (s < 0) != (b < 0)) = true
    ↔ r.toInt ≠ 0 ∧ ¬(s.toInt < 0 ↔ b.toInt < 0) := by
  have hzero : r = 0 ↔ r.toInt = 0 := (Int64.toInt_inj (y := 0)).symm
  have hneg : ∀ v : Int64, v < 0 ↔ v.toInt < 0 := fun v => Int64.lt_iff_toInt_lt
  rw [Bool.and_eq_true, bne_iff_ne, bne_iff_ne, Ne, Ne, hzero, decide_eq_decide, hneg, hneg]

theorem toInt_floorQuotient (h : divisible a b = true) :
    ∃ w, floorQuotient? a b = some w ∧ w.toInt = floorDiv a.toInt b.toInt := by
  have hdiv := toInt_div_word h
  have hmod : (a % b).toInt = a.toInt.tmod b.toInt := Int64.toInt_mod ..
  have hzero := (divisible_iff.mp h).1
  obtain ⟨hsmall, -, -⟩ := tmod_small (x := a.toInt) hzero
  refine ⟨_, if_pos h, ?_⟩
  rw [floorDiv_eq_tdiv hzero, apply_ite Int64.toInt, hdiv]
  simp only [beyond_iff, hmod]
  split
  · -- something is left over, so that the divisor is not plus or minus one
    have hhalf := natAbs_tdiv_le (x := a.toInt) (y := b.toInt) (by omega)
    have hlo := a.le_toInt
    have hhi := a.toInt_lt
    have hone : (1 : Int64).toInt = 1 := rfl
    rw [toInt_sub_word (by omega) (by omega), hdiv, hone]
  · rfl

theorem toInt_floorRemainder (h : divisible a b = true) :
    ∃ w, floorRemainder? a b = some w
      ∧ w.toInt = a.toInt - b.toInt * floorDiv a.toInt b.toInt := by
  have hmod : (a % b).toInt = a.toInt.tmod b.toInt := Int64.toInt_mod ..
  have hzero := (divisible_iff.mp h).1
  obtain ⟨hsmall, hpos, hneg⟩ := tmod_small (x := a.toInt) hzero
  have hsum := Int.tmod_add_mul_tdiv a.toInt b.toInt
  have hsame : (a.toInt.tmod b.toInt ≠ 0 ∧ ¬(a.toInt.tmod b.toInt < 0 ↔ b.toInt < 0))
      ↔ (a.toInt.tmod b.toInt ≠ 0 ∧ ¬(a.toInt < 0 ↔ b.toInt < 0)) := by omega
  refine ⟨_, if_pos h, ?_⟩
  rw [floorDiv_eq_tdiv hzero, apply_ite Int64.toInt]
  simp only [beyond_iff, hmod, hsame]
  have hlo := b.le_toInt
  have hhi := b.toInt_lt
  split
  · rw [toInt_add_word (by omega) (by omega), hmod, Int.mul_sub, Int.mul_one]
    omega
  · omega

/-- A quotient that has no word is refused, and no other. -/
theorem checked_floorQuotient (hb : b.toInt ≠ 0) :
    checked (floorQuotient? a b) = exact (floorDiv a.toInt b.toInt) := by
  by_cases h : divisible a b = true
  · obtain ⟨w, hw, hexact⟩ := toInt_floorQuotient h
    rw [exact, hw, ofInt?_eq_some.mpr hexact]
  · obtain ⟨hleast, hback⟩ : a.toInt = -2 ^ 63 ∧ b.toInt = -1 := by
      rw [divisible_iff] at h
      omega
    have hfloor : floorDiv a.toInt b.toInt = 2 ^ 63 := floorDiv_eq (.inr (by omega))
    rw [floorQuotient?, if_neg h, hfloor]
    rfl

theorem checked_floorRemainder (h : divisible a b = true) :
    checked (floorRemainder? a b) = exact (a.toInt - b.toInt * floorDiv a.toInt b.toInt) := by
  obtain ⟨w, hw, hexact⟩ := toInt_floorRemainder h
  rw [exact, hw, ofInt?_eq_some.mpr hexact]

/-! ## 2. Shifts and powers -/

/-- A multiple by a power that has more places than a word is no word. -/
theorem not_fits_of_places {x : Int} (hx : x ≠ 0) {k : Nat} (hk : 64 ≤ k) :
    ¬fits (x * 2 ^ k) = true := by
  have hpow : (2 : Nat) ^ 64 ≤ 2 ^ k := Nat.pow_le_pow_right (by decide) hk
  have hsize : (x * 2 ^ k).natAbs = x.natAbs * 2 ^ k := by
    rw [Int.natAbs_mul, Int.natAbs_pow]
    rfl
  have hle : 2 ^ k ≤ x.natAbs * 2 ^ k := Nat.le_mul_of_pos_left _ (Int.natAbs_pos.mpr hx)
  rw [fits_iff]
  omega

/-- A shift to the left comes back exactly if nothing was lost. -/
theorem shiftBack_iff (hlo : 0 ≤ b.toInt) (hhi : b.toInt < 64) :
    (a <<< b) >>> b = a ↔ (a <<< b).toInt = a.toInt * 2 ^ b.toInt.toNat := by
  have hpow : (2 : Int) ^ b.toInt.toNat ≠ 0 := Int.pow_ne_zero (by decide)
  have hdvd : (2 : Int) ^ b.toInt.toNat ∣ (a <<< b).toInt := by
    have hwidth : (2 : Int) ^ b.toInt.toNat ∣ ((2 ^ 64 : Nat) : Int) :=
      pow_dvd_pow 2 (by omega)
    have hoff := hwidth.trans (Int.dvd_bmod_sub_self (x := a.toInt * 2 ^ b.toInt.toNat))
    rw [toInt_shiftLeft_word hlo hhi]
    exact (Int.dvd_iff_dvd_of_dvd_sub hoff).mpr (Int.dvd_mul_left ..)
  rw [← Int64.toInt_inj, toInt_shiftRight_word hlo hhi, Int.ediv_eq_iff_eq_mul_left hpow hdvd]

theorem checked_shiftLeft (hlo : 0 ≤ b.toInt) :
    checked (shiftLeft? a b) = exact (a.toInt * 2 ^ b.toInt.toNat) := by
  have hplaces : b < 64 ↔ b.toInt < 64 := Int64.lt_iff_toInt_lt
  have hzero : a = 0 ↔ a.toInt = 0 := (Int64.toInt_inj (y := 0)).symm
  unfold shiftLeft?
  simp only [Bool.and_eq_true, decide_eq_true_iff, beq_iff_eq, hplaces]
  by_cases ha : a = 0
  · rw [if_pos ha, hzero.mp ha, Int.zero_mul]
    rfl
  · rw [if_neg ha]
    by_cases hhi : b.toInt < 64
    · by_cases hback : (a <<< b) >>> b = a
      · rw [if_pos ⟨hhi, hback⟩, ← (shiftBack_iff hlo hhi).mp hback, exact_toInt]
        rfl
      · rw [if_neg fun h => hback h.2, exact_of_not_fits fun hfits => ?_]
        · rfl
        · obtain ⟨hfits, hfits'⟩ := fits_iff.mp hfits
          exact hback ((shiftBack_iff hlo hhi).mpr (by
            rw [toInt_shiftLeft_word hlo hhi, bmod_word hfits hfits']))
    · rw [if_neg fun h => hhi h.1,
        exact_of_not_fits (not_fits_of_places (mt hzero.mpr ha) (by omega))]
      rfl

theorem toInt_shiftRight (hlo : 0 ≤ b.toInt) :
    (shiftRight a b).toInt = floorDiv a.toInt (2 ^ b.toInt.toNat) := by
  have hplaces : 64 ≤ b ↔ 64 ≤ b.toInt := Int64.le_iff_toInt_le
  have hneg : a < 0 ↔ a.toInt < 0 := Int64.lt_iff_toInt_lt
  unfold shiftRight
  by_cases hhi : 64 ≤ b.toInt
  · have hpow : (2 : Int) ^ 64 ≤ 2 ^ b.toInt.toNat := by
      exact_mod_cast Nat.pow_le_pow_right (by decide) (by omega : 64 ≤ b.toInt.toNat)
    have hmin := a.le_toInt
    have hmax := a.toInt_lt
    rw [if_pos (hplaces.mpr hhi)]
    symm
    split
    · rename_i hsign
      have := hneg.mp hsign
      refine floorDiv_eq (.inl ?_)
      change 0 ≤ a.toInt - _ * (-1) ∧ a.toInt - _ * (-1) < _
      omega
    · rename_i hsign
      have := mt hneg.mpr hsign
      refine floorDiv_eq (.inl ?_)
      change 0 ≤ a.toInt - _ * 0 ∧ a.toInt - _ * 0 < _
      omega
  · rw [if_neg (mt hplaces.mp hhi), toInt_shiftRight_word hlo (by omega), floorDiv_two_pow]

/-- The powers of the integers whose powers stay small. -/
theorem pow_of_unit {x : Int} (h : x.natAbs ≤ 1) (e : Nat) :
    (if x < 0 && e % 2 == 0 then -x else if e == 0 then 1 else x) = x ^ e := by
  obtain rfl | rfl | rfl : x = -1 ∨ x = 0 ∨ x = 1 := by omega
  · rcases Nat.even_or_odd e with heven | hodd
    · rw [heven.neg_one_pow, Nat.even_iff.mp heven]
      rfl
    · have hne : (e == 0) = false := beq_eq_false_iff_ne.mpr hodd.pos.ne'
      rw [hodd.neg_one_pow, Nat.odd_iff.mp hodd, hne]
      rfl
  · cases e with
    | zero => rfl
    | succ e =>
      rw [Int.pow_succ, Int.mul_zero]
      rfl
  · rw [Int.one_pow, ite_self]
    rfl

/-- All other powers leave the range with the 64th. -/
theorem not_fits_pow {x : Int} (hx : 2 ≤ x.natAbs) {e : Nat} (he : 64 ≤ e) :
    ¬fits (x ^ e) = true := by
  have hpow : (2 : Nat) ^ 64 ≤ x.natAbs ^ e :=
    (Nat.pow_le_pow_right (by decide) he).trans (Nat.pow_le_pow_left hx e)
  have hsize : (x ^ e).natAbs = x.natAbs ^ e := Int.natAbs_pow ..
  rw [fits_iff]
  omega

theorem power_eq {x : Int} {e : Nat} (h : e ≤ maxExponent ∨ 2 ≤ x.natAbs) :
    power x e = exact (x ^ e) := by
  unfold power
  by_cases hlarge : maxExponent < e
  · have hplaces : 64 ≤ e := Nat.le_of_lt (Nat.lt_trans (by decide) hlarge)
    rw [if_pos hlarge, exact_of_not_fits (not_fits_pow (by omega) hplaces)]
  · rw [if_neg hlarge]
    by_cases hunit : x.natAbs ≤ 1
    · rw [if_pos hunit, pow_of_unit hunit]
    · rw [if_neg hunit]
      split
      · rename_i hplaces
        rw [exact_of_not_fits (not_fits_pow (by omega) hplaces)]
      · rfl

/-! ## 3. Exact results -/

/-- The exact result of a binary operator on integers of any size, where there is one and it is an
integer. Bits are those of two's complement. -/
def result? (op : BinaryOp) (x y : Int) : Option Int :=
  match op with
  | .add => some (x + y)
  | .subtract => some (x - y)
  | .multiply => some (x * y)
  | .floorDivide => if y = 0 then none else some (floorDiv x y)
  | .modulo => if y = 0 then none else some (x - y * floorDiv x y)
  | .power => if y < 0 then none else some (x ^ y.toNat)
  | .lshift => if y < 0 then none else some (x * 2 ^ y.toNat)
  | .rshift => if y < 0 then none else some (floorDiv x (2 ^ y.toNat))
  | .and => some (Int.land x y)
  | .or => some (Int.lor x y)
  | .xor => some (Int.xor x y)
  | .trueDivide | .matrixMultiply => none

/-- The exact result of a unary operator, other than a truth value. -/
def unaryResult? (op : UnaryOp) (x : Int) : Option Int :=
  match op with
  | .positive => some x
  | .negative => some (-x)
  | .invert => some (Int.lnot x)
  | .not => none

/-- The operands whose result is refused although it fits: the remainder of a division whose
quotient does not fit, and a large exponent of a number whose powers stay small. -/
def Lapses (op : BinaryOp) (a b : Int64) : Prop :=
  op = .modulo ∧ a = Int64.minValue ∧ b = -1
    ∨ op = .power ∧ a.toInt.natAbs ≤ 1 ∧ 2 ^ 32 ≤ b.toInt

theorem exact_of_toInt (h : w.toInt = n) : exact n = .ok (.int w) := h ▸ exact_toInt w

/-- **What fits is given exactly, and what does not fit is refused.** -/
theorem binary_of_result (h : result? op a.toInt b.toInt = some n) (hkept : ¬Lapses op a b) :
    binary op a b = exact n := by
  have hzero : (b == 0) = true ↔ b.toInt = 0 := beq_iff_eq.trans (Int64.toInt_inj (y := 0)).symm
  have hneg : b < 0 ↔ b.toInt < 0 := Int64.lt_iff_toInt_lt
  unfold result? at h
  unfold binary
  cases op with
  | add | subtract | multiply =>
    cases h
    rfl
  | trueDivide | matrixMultiply => cases h
  | and =>
    cases h
    exact (exact_of_toInt (toInt_and_word a b)).symm
  | or =>
    cases h
    exact (exact_of_toInt (toInt_or_word a b)).symm
  | xor =>
    cases h
    exact (exact_of_toInt (toInt_xor_word a b)).symm
  | floorDivide =>
    obtain ⟨hb, h⟩ := Option.ite_none_left_eq_some.mp h
    cases h
    exact (if_neg (mt hzero.mp hb)).trans (checked_floorQuotient hb)
  | modulo =>
    obtain ⟨hb, h⟩ := Option.ite_none_left_eq_some.mp h
    cases h
    have hdivisible : divisible a b = true := divisible_iff.mpr ⟨hb, fun hleast =>
      hkept (.inl ⟨rfl, Int64.toInt_inj.mp hleast.1, Int64.toInt_inj.mp hleast.2⟩)⟩
    exact (if_neg (mt hzero.mp hb)).trans (checked_floorRemainder hdivisible)
  | power =>
    obtain ⟨hb, h⟩ := Option.ite_none_left_eq_some.mp h
    cases h
    refine (if_neg (mt hneg.mp hb)).trans (power_eq ?_)
    by_cases hunit : a.toInt.natAbs ≤ 1
    · have hsmall : ¬2 ^ 32 ≤ b.toInt := fun hlarge => hkept (.inr ⟨rfl, hunit, hlarge⟩)
      exact .inl (by unfold maxExponent; omega)
    · exact .inr (by omega)
  | lshift =>
    obtain ⟨hb, h⟩ := Option.ite_none_left_eq_some.mp h
    cases h
    exact (if_neg (mt hneg.mp hb)).trans (checked_shiftLeft (Int.not_lt.mp hb))
  | rshift =>
    obtain ⟨hb, h⟩ := Option.ite_none_left_eq_some.mp h
    cases h
    exact (if_neg (mt hneg.mp hb)).trans
      (exact_of_toInt (toInt_shiftRight (Int.not_lt.mp hb))).symm

theorem binary_of_lapses (h : Lapses op a b) : binary op a b = .error .overflow := by
  rcases h with ⟨rfl, rfl, rfl⟩ | ⟨rfl, hunit, hlarge⟩
  · rfl
  · have hneg : ¬b < 0 := mt Int64.lt_iff_toInt_lt.mp (by
      rw [Int64.toInt_zero]
      omega)
    refine (if_neg hneg).trans (if_pos ?_)
    unfold maxExponent
    omega

/-- Without a result that is an integer there is another one, or another fault. -/
theorem binary_of_none (h : result? op a.toInt b.toInt = none) :
    (∀ w, binary op a b ≠ .ok (.int w)) ∧ binary op a b ≠ .error .overflow := by
  have hzero : (b == 0) = true ↔ b.toInt = 0 := beq_iff_eq.trans (Int64.toInt_inj (y := 0)).symm
  have hneg : b < 0 ↔ b.toInt < 0 := Int64.lt_iff_toInt_lt
  have hfault : ∀ {x : Except ArithError Number} {e : ArithError}, x = .error e → e ≠ .overflow →
      (∀ w, x ≠ .ok (.int w)) ∧ x ≠ .error .overflow := by
    rintro _ e rfl he
    exact ⟨nofun, fun h => he (Except.error.inj h)⟩
  have hfloat : ∀ {x : Except ArithError Number} {y : Double}, x = .ok (.float y) →
      (∀ w, x ≠ .ok (.int w)) ∧ x ≠ .error .overflow := by
    rintro _ y rfl
    exact ⟨nofun, nofun⟩
  have hguard : ∀ {p : Prop} [Decidable p] {x : Int}, (if p then none else some x) = none → p :=
    fun h => Decidable.of_not_not fun hp => Option.some_ne_none _ ((if_neg hp).symm.trans h)
  unfold result? at h
  unfold binary
  cases op with
  | add | subtract | multiply | and | or | xor => cases h
  | matrixMultiply => exact hfault rfl nofun
  | trueDivide =>
    dsimp only
    split
    · exact hfault rfl nofun
    · exact hfloat rfl
  | floorDivide | modulo => exact hfault (if_pos (hzero.mpr (hguard h))) nofun
  | power =>
    have hback : b < 0 := hneg.mpr (hguard h)
    dsimp only
    rw [if_pos hback]
    split
    · exact hfault rfl nofun
    · exact hfloat rfl
  | lshift | rshift => exact hfault (if_pos (hneg.mpr (hguard h))) nofun

/-- **An integer that an operator gives is its exact result.** -/
theorem result_of_binary (h : binary op a b = .ok (.int w)) :
    result? op a.toInt b.toInt = some w.toInt := by
  cases hresult : result? op a.toInt b.toInt with
  | none => exact absurd h ((binary_of_none hresult).1 w)
  | some n =>
    by_cases hlapse : Lapses op a b
    · rw [binary_of_lapses hlapse] at h
      cases h
    · rw [binary_of_result hresult hlapse] at h
      obtain ⟨v, hv, rfl⟩ := exact_eq_ok h
      cases hv
      rfl

/-- **The refused operands** are those whose exact result does not fit, and the lapses. -/
theorem binary_overflow_iff : binary op a b = .error .overflow
    ↔ (∃ n, result? op a.toInt b.toInt = some n ∧ ¬fits n = true) ∨ Lapses op a b := by
  constructor
  · intro h
    by_cases hlapse : Lapses op a b
    · exact .inr hlapse
    · cases hresult : result? op a.toInt b.toInt with
      | none => exact absurd h (binary_of_none hresult).2
      | some n =>
        refine .inl ⟨n, rfl, fun hfits => ?_⟩
        obtain ⟨w, -, hw⟩ := exact_of_fits hfits
        rw [binary_of_result hresult hlapse, hw] at h
        cases h
  · rintro (⟨n, hresult, hfits⟩ | hlapse)
    · by_cases hlapse : Lapses op a b
      · exact binary_of_lapses hlapse
      · rw [binary_of_result hresult hlapse, exact_of_not_fits hfits]
    · exact binary_of_lapses hlapse

end Integer

/-! ## 4. The machine -/

namespace Machine

open Integer (result? unaryResult? Lapses)

variable {op : BinaryOp} {l r v : Value} {a b n : Int64} {ctx : Context} {s s' : Store}
  {x : Except ArithError Number}

/-- What the machine makes of arithmetic: a number, or the exception of the refusal. -/
def computed (x : Except ArithError Number) : Action Value := do return number (← arith x)

theorem computed_eq_ok (h : computed x ctx s = .ok v s') : ∃ y, x = .ok y ∧ v = number y := by
  cases x with
  | ok y =>
    cases h
    exact ⟨y, rfl, rfl⟩
  | error e => cases h

theorem integer_of_computed (h : computed x ctx s = .ok v s') (hv : v.asInt? = some n) :
    x = .ok (.int n) := by
  obtain ⟨y, rfl, rfl⟩ := computed_eq_ok h
  cases y with
  | int m =>
    cases hv
    rfl
  | float y => cases hv

/-- Texts are raised as exceptions of the given class. -/
theorem raiseText_run {α : Type} (t : TypeId) (m : String) (ctx : Context) (s : Store) :
    ∃ ref s', (raiseText t m : Action α) ctx s = .error (.raised ⟨ref, t⟩) s' := ⟨_, _, rfl⟩

/-- No other refusal has the class of an overflow. -/
theorem overflow_of_type {e : ArithError} (h : e.type = TypeId.arithmeticError) :
    e = .overflow := by
  cases e with
  | overflow => rfl
  | _ => exact absurd h (by decide)

/-- An action raises the exception of an integer that does not fit. -/
def RaisesOverflow (x : Action Value) (ctx : Context) (s : Store) : Prop :=
  x ctx s = raiseText TypeId.arithmeticError "integer overflow" ctx s

theorem computed_overflow_iff : RaisesOverflow (computed x) ctx s ↔ x = .error .overflow := by
  refine ⟨fun h => ?_, fun h => h ▸ rfl⟩
  obtain ⟨ref, s', hrun⟩ :=
    raiseText_run (α := Value) TypeId.arithmeticError "integer overflow" ctx s
  rw [RaisesOverflow, hrun] at h
  cases x with
  | ok y => cases h
  | error e =>
    have htype : e.type = TypeId.arithmeticError := by
      injection h with hfault
      injection hfault with hraised
      exact congrArg Raised.type hraised
    rw [overflow_of_type htype]

theorem numeric_of_integers (op : BinaryOp) (hl : l.asInt? = some a) (hr : r.asInt? = some b) :
    (∃ c, Integer.binary op a b = .ok (.int (if c then 1 else 0))
      ∧ numeric? op l r = .ok (some (.bool c)))
    ∨ numeric? op l r = (Integer.binary op a b).map fun x => some (number x) := by
  cases l with
  | bool p =>
    cases r with
    | bool q =>
      cases hl
      cases hr
      unfold numeric?
      dsimp only
      cases hc : boolBinary? op p q with
      | none => exact .inr rfl
      | some c =>
        refine .inl ⟨c, ?_, rfl⟩
        cases op with
        | and | or | xor =>
          cases hc
          cases p <;> cases q <;> rfl
        | _ => cases hc
    | int b =>
      cases hl
      cases hr
      exact .inr rfl
    | _ => cases hr
  | int a =>
    cases r with
    | bool q | int b =>
      cases hl
      cases hr
      exact .inr rfl
    | _ => cases hr
  | _ => cases hl

/-- A binary operator on integers answers with what arithmetic gives. Truth values stay truth values
under the operators that they have among themselves. -/
theorem binary_run (op : BinaryOp) (hl : l.asInt? = some a) (hr : r.asInt? = some b)
    (inplace : Bool) (ctx : Context) (s : Store) :
    (∃ c, Integer.binary op a b = .ok (.int (if c then 1 else 0))
      ∧ binary op l r inplace ctx s = .ok (.bool c) s)
    ∨ binary op l r inplace ctx s = computed (Integer.binary op a b) ctx s := by
  unfold binary
  rcases numeric_of_integers op hl hr with ⟨c, hc, h⟩ | h
  · refine .inl ⟨c, hc, ?_⟩
    rw [h]
    rfl
  · right
    rw [h]
    cases Integer.binary op a b <;> rfl

theorem unary_run {op : UnaryOp} {m : Int} (hv : v.asInt? = some a)
    (h : unaryResult? op a.toInt = some m) :
    unary op v ctx s = computed (Integer.exact m) ctx s := by
  cases v with
  | bool p | int n =>
    cases hv
    cases op with
    | positive =>
      cases h
      rw [Integer.exact_toInt]
      rfl
    | negative =>
      cases h
      rfl
    | invert =>
      cases h
      rw [Integer.exact_of_toInt (toInt_not_word _)]
      rfl
    | not => cases h
  | _ => cases hv

/-- A quotient or a remainder of integers is an integer. -/
theorem integer_of_division (hl : l.asInt? = some a) (hr : r.asInt? = some b) {inplace : Bool}
    (hop : op = .floorDivide ∨ op = .modulo) (h : binary op l r inplace ctx s = .ok v s') :
    ∃ n, v.asInt? = some n := by
  rcases binary_run op hl hr inplace ctx s with ⟨c, -, hrun⟩ | hrun
  · rw [hrun] at h
    cases h
    exact ⟨_, rfl⟩
  · obtain ⟨y, hy, rfl⟩ := computed_eq_ok (hrun.symm.trans h)
    rcases hop with rfl | rfl
    all_goals
      dsimp only [Integer.binary] at hy
      split at hy
      · cases hy
      · obtain ⟨n, -, rfl⟩ := Integer.checked_eq_ok hy
        exact ⟨n, rfl⟩

theorem result_of_run (hl : l.asInt? = some a) (hr : r.asInt? = some b) {inplace : Bool}
    (h : binary op l r inplace ctx s = .ok v s') (hv : v.asInt? = some n) :
    result? op a.toInt b.toInt = some n.toInt := by
  rcases binary_run op hl hr inplace ctx s with ⟨c, hc, hrun⟩ | hrun
  · rw [hrun] at h
    cases h
    cases hv
    exact Integer.result_of_binary hc
  · exact Integer.result_of_binary (integer_of_computed (hrun.symm.trans h) hv)

/-- **An integer that an operator gives is the exact result.** A quotient and a remainder belong
together: they make up the dividend, and the remainder is smaller than the divisor and on its side
of zero. -/
theorem integers_exact (hl : l.asInt? = some a) (hr : r.asInt? = some b) :
    (∀ op inplace ctx s v s' n, binary op l r inplace ctx s = .ok v s' → v.asInt? = some n →
      result? op a.toInt b.toInt = some n.toInt)
    ∧ (∀ op ctx s v s' n, op ≠ .not → unary op l ctx s = .ok v s' → v.asInt? = some n →
      unaryResult? op a.toInt = some n.toInt)
    ∧ ∀ inplace inplace' ctx ctx' s t v w s' t',
      binary .floorDivide l r inplace ctx s = .ok v s' →
      binary .modulo l r inplace' ctx' t = .ok w t' →
      ∃ q m, v.asInt? = some q ∧ w.asInt? = some m ∧ a.toInt = q.toInt * b.toInt + m.toInt
        ∧ (m.toInt = 0 ∨ m.toInt.sign = b.toInt.sign) ∧ m.toInt.natAbs < b.toInt.natAbs := by
  refine ⟨fun op inplace ctx s v s' n => result_of_run hl hr, ?_, ?_⟩
  · intro op ctx s v s' n hop h hv
    have hresult : ∃ m, unaryResult? op a.toInt = some m := by
      cases op with
      | not => exact absurd rfl hop
      | _ => exact ⟨_, rfl⟩
    obtain ⟨m, hm⟩ := hresult
    obtain ⟨w, hw, rfl⟩ :=
      Integer.exact_eq_ok (integer_of_computed ((unary_run hl hm).symm.trans h) hv)
    cases hw
    exact hm
  · intro inplace inplace' ctx ctx' s t v w s' t' hquotient hremainder
    obtain ⟨q, hq⟩ := integer_of_division hl hr (.inl rfl) hquotient
    obtain ⟨m, hm⟩ := integer_of_division hl hr (.inr rfl) hremainder
    obtain ⟨hb, hfloor⟩ := Option.ite_none_left_eq_some.mp (result_of_run hl hr hquotient hq)
    obtain ⟨-, hrest⟩ := Option.ite_none_left_eq_some.mp (result_of_run hl hr hremainder hm)
    rw [Option.some.injEq] at hfloor hrest
    have hbeside := Integer.beside_floorDiv (x := a.toInt) hb
    rw [hrest] at hbeside
    rw [hfloor, Int.mul_comm] at hrest
    refine ⟨q, m, hq, hm, by omega, ?_, ?_⟩
    · rcases hbeside with ⟨hlo, hhi⟩ | ⟨hlo, hhi⟩
      · rcases Int.lt_or_eq_of_le hlo with hpos | hzero
        · exact .inr (by rw [Int.sign_eq_one_of_pos hpos, Int.sign_eq_one_of_pos (by omega)])
        · exact .inl hzero.symm
      · rcases Int.lt_or_eq_of_le hhi with hneg | hzero
        · exact .inr (by rw [Int.sign_eq_neg_one_of_neg hneg,
            Int.sign_eq_neg_one_of_neg (by omega)])
        · exact .inl hzero
    · unfold Integer.Beside at hbeside
      omega

/-- Minus seven and two. -/
theorem integers_exact_halved :
    result? .floorDivide (-7) 2 = some (-4) ∧ result? .modulo (-7) 2 = some 1
      ∧ unaryResult? .invert (-7) = some 6
      ∧ ∃ q m : Int64, -7 = q.toInt * 2 + m.toInt ∧ (m.toInt = 0 ∨ m.toInt.sign = 1)
        ∧ m.toInt.natAbs < 2 := by
  obtain ⟨hbinary, hunary, hdivision⟩ :=
    integers_exact (l := .int (-7)) (r := .int 2) (a := -7) (b := 2) rfl rfl
  obtain ⟨q, m, -, -, h⟩ := hdivision false true (plainContext 0) (plainContext 0) default default
    (.int (-4)) (.int 1) default default rfl rfl
  exact ⟨hbinary .floorDivide false (plainContext 0) default (.int (-4)) default (-4) rfl rfl,
    hbinary .modulo false (plainContext 0) default (.int 1) default 1 rfl rfl,
    hunary .invert (plainContext 0) default (.int 6) default 6 nofun rfl rfl, q, m, h⟩

/-- **The refused operands.** An operator raises the exception of an overflow exactly if the exact
result is out of range, or the operands are one of the two lapses. -/
theorem overflow_exact (hl : l.asInt? = some a) (hr : r.asInt? = some b) (ctx : Context)
    (s : Store) :
    (∀ op inplace, RaisesOverflow (binary op l r inplace) ctx s
      ↔ (∃ n, result? op a.toInt b.toInt = some n ∧ ¬(-2 ^ 63 ≤ n ∧ n < 2 ^ 63)) ∨ Lapses op a b)
    ∧ (RaisesOverflow (unary .negative l) ctx s ↔ ¬(-2 ^ 63 ≤ -a.toInt ∧ -a.toInt < 2 ^ 63)) := by
  constructor
  · intro op inplace
    simp only [← Integer.fits_iff]
    rw [← Integer.binary_overflow_iff]
    rcases binary_run op hl hr inplace ctx s with ⟨c, hc, hrun⟩ | hrun
    · rw [hc, RaisesOverflow, hrun]
      exact iff_of_false nofun nofun
    · rw [RaisesOverflow, hrun]
      exact computed_overflow_iff
  · rw [RaisesOverflow, unary_run hl rfl, ← Integer.fits_iff]
    refine computed_overflow_iff.trans ⟨fun h hfits => ?_, Integer.exact_of_not_fits⟩
    obtain ⟨w, -, hw⟩ := Integer.exact_of_fits hfits
    rw [hw] at h
    cases h

/-- The greatest word and one. -/
theorem overflow_exact_greatest :
    RaisesOverflow (binary .add (.int Int64.maxValue) (.int 1) false) (plainContext 0) default
      ∧ ¬RaisesOverflow (binary .subtract (.int Int64.maxValue) (.int 1) false) (plainContext 0)
        default
      ∧ ¬RaisesOverflow (unary .negative (.int Int64.maxValue)) (plainContext 0) default := by
  obtain ⟨hbinary, hunary⟩ := overflow_exact (l := .int Int64.maxValue) (r := .int 1)
    (a := Int64.maxValue) (b := 1) rfl rfl (plainContext 0) default
  refine ⟨(hbinary .add false).mpr (.inl ⟨2 ^ 63, by decide, by decide⟩), fun h => ?_,
    fun h => hunary.mp h (by decide)⟩
  rcases (hbinary .subtract false).mp h with ⟨n, hresult, hout⟩ | ⟨hop, -⟩ | ⟨hop, -⟩
  · cases hresult
    exact hout (by decide)
  · cases hop
  · cases hop

/-- **Results that fit are refused.** The least word leaves nothing over when it is divided by minus
one, and every power of one is one. -/
theorem overflow_refuses_fitting :
    result? .modulo Int64.minValue.toInt (-1) = some 0
      ∧ RaisesOverflow (binary .modulo (.int Int64.minValue) (.int (-1)) false) (plainContext 0)
        default
      ∧ result? .power 1 (2 ^ 32) = some 1
      ∧ RaisesOverflow (binary .power (.int 1) (.int 4294967296) false) (plainContext 0)
        default := by
  refine ⟨?_, rfl, congrArg some (Int.one_pow ..), rfl⟩
  have hfloor : Integer.floorDiv Int64.minValue.toInt (-1) = 2 ^ 63 :=
    Integer.floorDiv_eq (.inr (by decide))
  refine congrArg some ?_
  rw [hfloor]
  rfl

end Machine

end Stackwise
