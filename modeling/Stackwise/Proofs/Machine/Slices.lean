import Mathlib.Data.List.Nodup
import Stackwise.Machine.Subscript
import Stackwise.Proofs.Machine.Progressions
import Stackwise.Proofs.Machine.Stepping

/-!
# Slices of sequences

Slices are computed with words; what they mean is said with integers. The two agree for every
sequence whose length is a word.

* `Slice.first`, `Slice.last`, `Slice.term?`: the bounds of a slice in a sequence and the positions
  between them. `Slice.Selects`: the positions of a slice, all of them and in its order.
* `positions_selects`: the positions that are computed are those of the slice.
* `slices_exact`: reading gives the items at these positions, deleting leaves the others, and
  assigning puts other items in place of a gapless selection.
-/

namespace Stackwise

/-! ## 1. Positions -/

namespace Slice

/-- The lowest bound that a slice can have: one before the sequence if it goes backwards. -/
def lowest (step : Int) : Int := if step < 0 then -1 else 0

/-- The highest bound: the last item if the slice goes backwards, else the end. -/
def highest (step : Int) (size : Nat) : Int := if step < 0 then size - 1 else size

/-- Where a part of a slice lies in a sequence. Negative parts count from the end once, and what
lies outside comes to the nearest bound. -/
def bound (step : Int) (size : Nat) (absent : Int) : Option Int → Int
  | none => absent
  | some i => if i < 0 then max (i + size) (lowest step) else min i (highest step size)

/-- Where a slice starts in a sequence. -/
def first (start : Option Int) (step : Int) (size : Nat) : Int :=
  bound step size (if step < 0 then highest step size else lowest step) start

/-- Where it stops, before this bound. -/
def last (stop : Option Int) (step : Int) (size : Nat) : Int :=
  bound step size (if step < 0 then lowest step else highest step size) stop

/-- The position that a slice selects as its `k`-th one. -/
def term? (start stop : Option Int) (step : Int) (size k : Nat) : Option Int :=
  let i := first start step size + k * step
  if Progression.Before step (last stop step size) i then some i else none

/-- The positions that a slice selects in a sequence, in its order. -/
structure Selects (start stop : Option Int) (step : Int) (size : Nat) (ps : List Nat) : Prop where
  term : ∀ k, ps[k]?.map Int.ofNat = term? start stop step size k
  inside : ∀ i ∈ ps, i < size
  distinct : ps.Nodup

section Bounds

variable {size : Nat} {step : Int64} {start stop part : Option Int64}

theorem highest_sub_lowest (step : Int) (size : Nat) : highest step size - lowest step = size := by
  unfold highest lowest
  split <;> omega

theorem bound_mem {step absent : Int} (habsent : lowest step ≤ absent ∧ absent ≤ highest step size)
    (part : Option Int) : lowest step ≤ bound step size absent part
      ∧ bound step size absent part ≤ highest step size := by
  cases part with
  | none => exact habsent
  | some i =>
    unfold bound lowest highest
    dsimp only
    split <;> split <;> omega

theorem first_mem (start : Option Int) (step : Int) (size : Nat) :
    lowest step ≤ first start step size ∧ first start step size ≤ highest step size := by
  have hwidth := highest_sub_lowest step size
  refine bound_mem ?_ start
  split <;> omega

theorem last_mem (stop : Option Int) (step : Int) (size : Nat) :
    lowest step ≤ last stop step size ∧ last stop step size ≤ highest step size := by
  have hwidth := highest_sub_lowest step size
  refine bound_mem ?_ stop
  split <;> omega

theorem toInt_ofNat_pred (hsize : size < 2 ^ 63) : (Int64.ofNat size - 1).toInt = size - 1 := by
  have hn : (Int64.ofNat size).toInt = size := Int64.toInt_ofNat_of_lt hsize
  have hone : (1 : Int64).toInt = 1 := rfl
  rw [toInt_sub_word (by omega) (by omega), hn, hone]

/-- Bounds are computed with words as with integers. -/
theorem toInt_clamp (hsize : size < 2 ^ 63) (step absent : Int64) (part : Option Int64) :
    (clamp (Int64.ofNat size) step absent part).toInt
      = bound step.toInt size absent.toInt (part.map Int64.toInt) := by
  cases part with
  | none => rfl
  | some i =>
    have hn : (Int64.ofNat size).toInt = size := Int64.toInt_ofNat_of_lt hsize
    have hback : (-1 : Int64).toInt = -1 := rfl
    have hfits := i.le_toInt
    unfold clamp bound lowest highest
    simp only [Option.map_some, Int64.lt_iff_toInt_lt, Int64.le_iff_toInt_le, Int64.toInt_zero, hn,
      apply_ite Int64.toInt, hback, toInt_ofNat_pred hsize]
    by_cases hneg : i.toInt < 0
    · have hsum : (i + Int64.ofNat size).toInt = i.toInt + size := by
        rw [toInt_add_word (by omega) (by omega), hn]
      rw [if_pos hneg, if_pos hneg, hsum]
      split <;> split <;> omega
    · rw [if_neg hneg, if_neg hneg]
      split <;> split <;> omega

/-- The bounds are computed as those of the slice. -/
theorem resolve_toInt (hsize : size < 2 ^ 63) (start stop : Option Int64) (step : Int64) :
    (resolve start stop step size).start.toInt = first (start.map Int64.toInt) step.toInt size
      ∧ (resolve start stop step size).stop.toInt
        = last (stop.map Int64.toInt) step.toInt size := by
  have hn : (Int64.ofNat size).toInt = size := Int64.toInt_ofNat_of_lt hsize
  have hsign : step < 0 ↔ step.toInt < 0 := Int64.lt_iff_toInt_lt
  unfold resolve first last lowest highest
  by_cases hneg : step.toInt < 0
  · simp only [if_pos hneg, if_pos (hsign.mpr hneg), toInt_clamp hsize,
      toInt_ofNat_pred hsize, true_and]
    rfl
  · simp only [if_neg hneg, if_neg (mt hsign.mp hneg), toInt_clamp hsize, hn, and_true]
    rfl

/-- A position before the bound lies in the sequence. -/
theorem before_mem {step : Int} (hzero : step ≠ 0) {start stop : Option Int} {k : Nat} {i : Int}
    (hi : i = first start step size + k * step)
    (h : Progression.Before step (last stop step size) i) : 0 ≤ i ∧ i < size := by
  obtain ⟨hfirst, hfirst'⟩ := first_mem start step size
  obtain ⟨hlast, hlast'⟩ := last_mem stop step size
  unfold Progression.Before at h
  by_cases hpos : 0 < step
  · have hterm : 0 ≤ k * step := Int.mul_nonneg (Int.natCast_nonneg k) (Int.le_of_lt hpos)
    rw [if_pos hpos] at h
    rw [lowest, if_neg (by omega)] at hfirst
    rw [highest, if_neg (by omega)] at hlast'
    omega
  · have hterm : k * step ≤ 0 :=
      Int.mul_nonpos_of_nonneg_of_nonpos (Int.natCast_nonneg k) (Int.not_lt.mp hpos)
    rw [if_neg hpos] at h
    rw [lowest, if_pos (by omega)] at hlast
    rw [highest, if_pos (by omega)] at hfirst'
    omega

/-- A term that is a word is computed with words. -/
theorem toInt_term {p : Progression} {k : Nat}
    (hlo : -2 ^ 63 ≤ p.start.toInt + k * p.step.toInt)
    (hhi : p.start.toInt + k * p.step.toInt < 2 ^ 63) :
    (p.start + Int64.ofNat k * p.step).toInt = p.start.toInt + k * p.step.toInt := by
  have hk : (Int64.ofNat k).toInt = (k : Int).bmod (2 ^ 64) := Int64.toInt_ofNat'
  rw [Int64.toInt_add, Int64.toInt_mul, hk, Int.add_bmod_bmod, ← Int.add_bmod_bmod,
    Int.bmod_mul_bmod, Int.add_bmod_bmod, bmod_word hlo hhi]

theorem positions_term (hsize : size < 2 ^ 63) (start stop : Option Int64) (hzero : step ≠ 0)
    (hleast : step ≠ Int64.minValue) (k : Nat) :
    (positions (resolve start stop step size))[k]?.map Int.ofNat
      = term? (start.map Int64.toInt) (stop.map Int64.toInt) step.toInt size k := by
  have hne : step.toInt ≠ 0 := fun h => hzero (Int64.toInt_inj.mp h)
  obtain ⟨hstart, hstop⟩ := resolve_toInt hsize start stop step
  obtain ⟨hfirst, hfirst'⟩ := first_mem (start.map Int64.toInt) step.toInt size
  obtain ⟨hlast, hlast'⟩ := last_mem (stop.map Int64.toInt) step.toInt size
  have hstep : (resolve start stop step size).step = step := rfl
  have hnarrow : (resolve start stop step size).Narrow := by
    have hwidth := highest_sub_lowest step.toInt size
    have hcases := (resolve start stop step size).span_cases
    rw [hstart, hstop] at hcases
    exact ⟨hleast, by omega⟩
  have hlen := Progression.lt_length_iff (p := resolve start stop step size) hzero hnarrow k
  generalize resolve start stop step size = p at hstart hstop hlen hstep ⊢
  rw [hstart, hstop, hstep] at hlen
  unfold term? positions
  rw [List.getElem?_map]
  dsimp only
  split
  · rename_i hbefore
    obtain ⟨hlo, hhi⟩ := before_mem hne rfl hbefore
    rw [← hstart, ← hstep] at hlo hhi ⊢
    have hlt := hlen.mpr hbefore
    rw [List.getElem?_range (by omega), Option.map_some, Option.map_some,
      toInt_term (by omega) (by omega), Int.ofNat_eq_natCast, Int.toNat_of_nonneg hlo]
  · rename_i hbeyond
    rw [List.getElem?_eq_none]
    · rfl
    · have hle := mt hlen.mp hbeyond
      rw [List.length_range]
      omega

/-- **The positions that are computed are those of the slice.** -/
theorem positions_selects (hsize : size < 2 ^ 63) (start stop : Option Int64)
    (hzero : step ≠ 0) (hleast : step ≠ Int64.minValue) :
    Selects (start.map Int64.toInt) (stop.map Int64.toInt) step.toInt size
      (positions (resolve start stop step size)) := by
  have hne : step.toInt ≠ 0 := fun h => hzero (Int64.toInt_inj.mp h)
  have hterm := positions_term hsize start stop hzero hleast
  -- a position that is selected lies before the bound
  have hat : ∀ {k i : Nat}, (positions (resolve start stop step size))[k]? = some i →
      (i : Int) = first (start.map Int64.toInt) step.toInt size + k * step.toInt
        ∧ (i : Int) < size := by
    intro k i hi
    have hk := hterm k
    rw [hi, Option.map_some] at hk
    unfold term? at hk
    dsimp only at hk
    split at hk
    · rename_i hbefore
      have heq : (i : Int) = _ := Option.some.inj hk
      exact ⟨heq, heq ▸ (before_mem hne rfl hbefore).2⟩
    · cases hk
  refine ⟨hterm, fun i hi => ?_, List.nodup_iff_injective_getElem.mpr fun j k hjk => ?_⟩
  · obtain ⟨k, hk⟩ := List.mem_iff_getElem?.mp hi
    exact Int.ofNat_lt.mp (hat hk).2
  · have hj := (hat (List.getElem?_eq_getElem j.isLt)).1
    have hk := (hat (List.getElem?_eq_getElem k.isLt)).1
    have hmul : (j : Int) * step.toInt = k * step.toInt :=
      Int.add_left_cancel (hj.symm.trans ((congrArg Int.ofNat hjk).trans hk))
    exact Fin.ext (Int.ofNat_inj.mp (Int.eq_of_mul_eq_mul_right hne hmul))

end Bounds

/-! ## 2. Items -/

section Items

variable {α : Type} {p : Progression}

/-- The items at some positions of a sequence, one after the other. -/
def Picks (items : List α) (ps : List Nat) (picked : List α) : Prop :=
  picked.map some = ps.map (items[·]?)

theorem picks_select (items : Array α) (h : ∀ i ∈ positions p, i < items.size) :
    Picks items.toList (positions p) (select p items) := by
  unfold Picks select
  generalize positions p = ps at h
  induction ps with
  | nil => rfl
  | cons i ps ih =>
    obtain ⟨hi, hps⟩ := List.forall_mem_cons.mp h
    rw [List.filterMap_cons, Array.getElem?_eq_getElem hi, List.map_cons, List.map_cons, ih hps,
      Array.getElem?_toList, Array.getElem?_eq_getElem hi]

/-- What is left is what lies at the other positions, in their order. -/
theorem picks_remove (items : List α) : Picks items
    ((List.range items.length).filter fun i => i ∉ positions p) (remove p items) := by
  have hat : ∀ {xs : List (α × Nat)}, (∀ q ∈ xs, items[q.2]? = some q.1) →
      (xs.map (·.1)).map some = (xs.map (·.2)).map (items[·]?) := by
    intro xs hxs
    rw [List.map_map, List.map_map]
    exact List.map_congr_left fun q hq => (hxs q hq).symm
  have hpositions : (items.zipIdx.filter fun q => !(positions p).contains q.2).map (·.2)
      = (List.range items.length).filter fun i => i ∉ positions p := by
    rw [List.range_eq_range', ← List.zipIdx_map_snd 0 items, List.filter_map]
    exact congrArg (List.map _) (List.filter_congr fun q _ => by simp)
  unfold Picks remove
  rw [← hpositions]
  refine hat fun q hq => ?_
  exact List.mk_mem_zipIdx_iff_getElem?.mp (List.mem_of_mem_filter hq)

/-- A gapless selection is replaced between its bounds. -/
theorem replace_eq {size : Nat} (hsize : size < 2 ^ 63) (start stop : Option Int64)
    (items replacement : List α) : replace (resolve start stop 1 size) items replacement
      = items.take (first (start.map Int64.toInt) 1 size).toNat ++ replacement
        ++ items.drop (max (first (start.map Int64.toInt) 1 size)
          (last (stop.map Int64.toInt) 1 size)).toNat := by
  have hbounds := resolve_toInt hsize start stop 1
  have hone : (1 : Int64).toInt = 1 := rfl
  rw [hone] at hbounds
  have hmax : ∀ f l : Int, max l.toNat f.toNat = (max f l).toNat := by omega
  unfold replace
  dsimp only
  rw [hbounds.1, hbounds.2, hmax]

end Items

end Slice

namespace Machine

/-! ## 3. Subscripts -/

section Subscripts

variable {a b c : Value} {start stop step : Option Int64} {ctx : Context} {s : Store}

/-- A part of a slice: it is absent, or an integer. -/
def part? : Value → Option (Option Int64)
  | .none => some none
  | v => v.asInt?.map some

theorem sliceBound_run {v : Value} {part : Option Int64} (h : part? v = some part) (ctx : Context)
    (s : Store) : sliceBound v ctx s = .ok part s := by
  cases v with
  | none =>
    cases h
    rfl
  | _ =>
    unfold part? at h
    obtain ⟨n, hn, rfl⟩ := Option.map_eq_some_iff.mp h
    unfold sliceBound
    dsimp only
    rw [hn]
    rfl

theorem sliceIndices_run (ha : part? a = some start) (hb : part? b = some stop)
    (hc : part? c = some step) (hzero : step.getD 1 ≠ 0) (size : Nat) (ctx : Context) (s : Store) :
    sliceIndices a b c size ctx s = .ok (Slice.resolve start stop (step.getD 1) size) s := by
  unfold sliceIndices
  rw [run_bind, sliceBound_run hc]
  dsimp only
  rw [if_neg (by simpa using hzero), run_bind, sliceBound_run ha]
  dsimp only
  rw [run_bind, sliceBound_run hb]
  rfl

/-- What an action on a slice goes on with once its bounds are known. -/
theorem sliceIndices_bind (ha : part? a = some start) (hb : part? b = some stop)
    (hc : part? c = some step) (hzero : step.getD 1 ≠ 0) {β : Type} (size : Nat)
    (k : Progression → Action β) (ctx : Context) (s : Store) :
    (sliceIndices a b c size >>= k) ctx s
      = k (Slice.resolve start stop (step.getD 1) size) ctx s := by
  rw [run_bind, sliceIndices_run ha hb hc hzero]

/-- **Slices select, delete and replace exactly the right items.** The positions of a slice are
those that it selects in a sequence of this size. Reading gives the items at these positions in
their order; deleting leaves the items at all others in theirs; assigning, by steps of one, puts the
new items between those before the start and those from the stop on, or from the start if that comes
later. -/
theorem slices_exact (ha : part? a = some start) (hb : part? b = some stop)
    (hc : part? c = some step) (hzero : step.getD 1 ≠ 0) (hleast : step.getD 1 ≠ Int64.minValue)
    {size : Nat} (hsize : size < 2 ^ 63) (id : Ident) (ctx : Context) (s : Store) :
    ∃ ps, Slice.Selects (start.map Int64.toInt) (stop.map Int64.toInt) (step.getD 1).toInt size ps
      ∧ (∀ own items, items.length = size → ∃ picked, Slice.Picks items ps picked
        ∧ getItem (.tuple own items) (.slice id a b c) ctx s = newTuple picked ctx s)
      ∧ (∀ r, (s.lists.get r).size = size → ∃ picked, Slice.Picks (s.lists.get r).toList ps picked
        ∧ getItem (.list r) (.slice id a b c) ctx s = newList picked ctx s)
      ∧ (∀ own text, text.toList.length = size → ∃ picked, Slice.Picks text.toList ps picked
        ∧ getItem (.str own text) (.slice id a b c) ctx s = newStr (String.ofList picked) ctx s)
      ∧ (∀ r, (s.lists.get r).size = size → ∃ kept,
        Slice.Picks (s.lists.get r).toList ((List.range size).filter fun i => i ∉ ps) kept
          ∧ delItem (.list r) (.slice id a b c) ctx s
            = .ok () { s with lists := s.lists.put r kept.toArray })
      ∧ (step.getD 1 = 1 → ∀ r value replacement s',
        collect value ctx s = .ok replacement s' → (s'.lists.get r).size = size →
        setItem (.list r) (.slice id a b c) value ctx s = .ok () { s' with
          lists := s'.lists.put r
            ((s'.lists.get r).toList.take (Slice.first (start.map Int64.toInt) 1 size).toNat
              ++ replacement
              ++ (s'.lists.get r).toList.drop (max (Slice.first (start.map Int64.toInt) 1 size)
                (Slice.last (stop.map Int64.toInt) 1 size)).toNat).toArray }) := by
  have hselects := Slice.positions_selects hsize start stop hzero hleast
  have hinside := hselects.inside
  refine ⟨_, hselects, fun own items hitems => ?_, fun r hr => ?_, fun own text htext => ?_,
    fun r hr => ?_, fun hone r value replacement s' hcollect hr => ?_⟩
  · refine ⟨_, Slice.picks_select items.toArray ?_, ?_⟩
    · rwa [List.size_toArray, hitems]
    · rw [← hitems]
      exact sliceIndices_bind ha hb hc hzero _ _ ctx s
  · refine ⟨_, Slice.picks_select (s.lists.get r) ?_, ?_⟩
    · rwa [hr]
    · rw [← hr]
      exact sliceIndices_bind ha hb hc hzero _ _ ctx s
  · refine ⟨_, Slice.picks_select text.toList.toArray ?_, ?_⟩
    · rwa [List.size_toArray, htext]
    · rw [← htext]
      exact sliceIndices_bind ha hb hc hzero _ _ ctx s
  · have hr' : (s.lists.get r).toList.length = size := by rw [Array.length_toList, hr]
    refine ⟨_, hr' ▸ Slice.picks_remove _, ?_⟩
    rw [← hr']
    exact sliceIndices_bind ha hb hc hzero _ _ ctx s
  · have hr' : (s'.lists.get r).toList.length = size := by rw [Array.length_toList, hr]
    refine (run_bind (collect value) _ ctx s).trans ?_
    rw [hcollect]
    refine (sliceIndices_bind ha hb hc hzero _ _ ctx s').trans ?_
    rw [hone, hr', ← Slice.replace_eq hsize]
    rfl

/-- Five numbers. -/
def numbers : List Value := [.int 10, .int 20, .int 30, .int 40, .int 50]

/-- A store that has them as its only list. -/
def oneList : Store := { lists := ⟨#[numbers.toArray]⟩ }

/-- Every second number, backwards and without the first. -/
theorem slices_exact_backwards : (List.range 3).map (Slice.term? none (some (-5)) (-2) 5)
      = [some 4, some 2, none]
    ∧ ∃ ps, Slice.Selects none (some (-5)) (-2) 5 ps
      ∧ (∃ picked, Slice.Picks numbers ps picked
        ∧ getItem (.list 0) (.slice default .none (.int (-5)) (.int (-2))) (plainContext 1) oneList
          = newList picked (plainContext 1) oneList)
      ∧ ∃ kept, Slice.Picks numbers ((List.range 5).filter fun i => i ∉ ps) kept
        ∧ delItem (.list 0) (.slice default .none (.int (-5)) (.int (-2))) (plainContext 1) oneList
          = .ok () { oneList with lists := oneList.lists.put 0 kept.toArray } := by
  have hstart : part? .none = some none := rfl
  have hstop : part? (.int (-5)) = some (some (-5)) := rfl
  have hstep : part? (.int (-2)) = some (some (-2)) := rfl
  have hsize : 5 < 2 ^ 63 := by decide
  obtain ⟨ps, hselects, -, hread, -, hdelete, -⟩ := slices_exact hstart hstop hstep (by decide)
    (by decide) hsize default (plainContext 1) oneList
  exact ⟨by decide, ps, hselects, hread 0 rfl, hdelete 0 rfl⟩

end Subscripts

end Machine

end Stackwise
