import Stackwise.Bytecode.Stream
import Stackwise.Proofs.Outcome

/-!
# Decoded streams

What every decoded instruction stream is like.

* `InstructionStream.decode_eq_ok`: decoding folds the units, checks the jumps and marks their
  targets.
* `InstructionStream.Ascending`: instructions come in the order of their offsets, a jump has a target
  and nothing else has, and every target is an instruction.
* `InstructionStream.decode_ascending`: so does every decoded stream.
-/

namespace Stackwise

namespace InstructionStream

/-! ## 1. Folding -/

/-- An instruction that can be compiled, with a target exactly if it is a jump. -/
structure Aimed (i : Instruction) : Prop where
  supported : i.opcode.isSupported = true
  target : i.target.isSome = i.opcode.jumpKind?.isSome

theorem complete_eq_ok {c : CodeObject} {x : Extension} {unit : Nat} {op : Opcode} {b : UInt8}
    {i : Instruction} (h : complete c x unit op b = .ok i) : i.offset = x.start.getD unit ∧ Aimed i := by
  unfold complete at h
  split at h
  · cases h
  · rename_i hsupported
    rw [Bool.not_eq_true, Bool.not_eq_false'] at hsupported
    dsimp only at h
    split at h
    · rename_i hkind
      cases h
      exact ⟨rfl, hsupported, by rw [hkind]; rfl⟩
    · rename_i kind hkind
      split at h
      · cases h
        exact ⟨rfl, hsupported, by rw [hkind]; rfl⟩
      · cases h

/-- **Folding keeps the order of the units.** -/
theorem fold_ascending {c : CodeObject} {us : List (UInt8 × UInt8)} {unit : Nat} {x : Extension}
    {done is : List Instruction} (h : fold c unit x done us = .ok is) (hx : x.start.getD unit ≤ unit)
    (hdone : done.reverse.Pairwise (·.offset < ·.offset))
    (hbefore : ∀ i ∈ done, i.offset < x.start.getD unit) (haimed : ∀ i ∈ done, Aimed i) :
    is.Pairwise (·.offset < ·.offset) ∧ ∀ i ∈ is, Aimed i := by
  induction us generalizing unit x done with
  | nil =>
    rw [fold] at h
    split at h
    · cases h
    · cases h
      exact ⟨hdone, fun i hi => haimed i (List.mem_reverse.mp hi)⟩
  | cons u us ih =>
    obtain ⟨a, b⟩ := u
    rw [fold] at h
    split at h
    · cases h
    · exact ih h (Nat.le_succ_of_le hx) hdone hbefore haimed
    · split at h
      · cases h
      · rename_i i hcomplete
        obtain ⟨hoffset, hi⟩ := complete_eq_ok hcomplete
        refine ih h (Nat.le_refl _) ?_ ?_ ?_
        · rw [List.reverse_cons, List.pairwise_append]
          refine ⟨hdone, List.pairwise_singleton _ _, fun j hj k hk => ?_⟩
          rw [List.mem_singleton.mp hk, hoffset]
          exact hbefore j (List.mem_reverse.mp hj)
        · intro j hj
          change j.offset < unit + 1
          rcases List.mem_cons.mp hj with rfl | hj
          · omega
          · have := hbefore j hj
            omega
        · intro j hj
          rcases List.mem_cons.mp hj with rfl | hj
          · exact hi
          · exact haimed j hj

/-! ## 2. Decoding -/

/-- A stream in order, whose jumps land on instructions. -/
structure Ascending (is : List Instruction) : Prop where
  order : is.Pairwise (·.offset < ·.offset)
  aimed : ∀ i ∈ is, Aimed i
  lands : ∀ i ∈ is, ∀ t, i.target = some t → ∃ j ∈ is, j.offset = t

theorem decode_eq_ok {c : CodeObject} {s : InstructionStream} : decode c = .ok s
    ↔ c.code.length % 2 = 0 ∧ c.code ≠ [] ∧ ∃ is, fold c 0 {} [] (unitsOf c.code) = .ok is
      ∧ strayJump? is = none ∧ s = ⟨c.dialect, markTargets is⟩ := by
  unfold decode
  by_cases hodd : c.code.length % 2 = 0
  · by_cases hempty : c.code = []
    · simp only [hempty, List.length_nil, Nat.zero_mod, bne_self_eq_false, Bool.false_eq_true, if_false,
        List.isEmpty_nil, if_true]
      exact ⟨fun h => (by cases h), fun h => absurd rfl h.2.1⟩
    · have hne : c.code.isEmpty = false := by simpa using hempty
      simp only [hodd, hne, bne_self_eq_false, Bool.false_eq_true, if_false, bind_eq_ok,
        true_and, ne_eq, hempty, not_false_eq_true]
      refine exists_congr fun is => and_congr_right fun _ => ?_
      cases strayJump? is with
      | none => simp [pure, Except.pure, eq_comm]
      | some p => simp [throw, throwThe, MonadExceptOf.throw]
  · rw [if_pos (bne_iff_ne.mpr hodd)]
    exact ⟨fun h => (by cases h), fun h => absurd h.1 hodd⟩

/-- Whether jumps stray, by a list in place of a hash table. -/
theorem strayJump?_eq (is : List Instruction) : strayJump? is
    = is.findSome? fun i => i.target.bind fun t =>
      if (is.map (·.offset)).contains t then none else some (i.offset, t) := by
  unfold strayJump? starts
  simp only [Std.HashSet.contains_ofList]
  refine congrArg (List.findSome? · is) (funext fun i => ?_)
  cases i.target <;> rfl

theorem strayJump?_eq_none {is : List Instruction} : strayJump? is = none
    ↔ ∀ i ∈ is, ∀ t, i.target = some t → ∃ j ∈ is, j.offset = t := by
  unfold strayJump? starts
  rw [List.findSome?_eq_none_iff]
  refine forall₂_congr fun i _ => ?_
  cases i.target with
  | none => simp
  | some t => simp

/-- Marks change nothing else, and stand where some jump lands. -/
theorem getElem?_markTargets {is : List Instruction} {k : Nat} {j : Instruction}
    (hk : is[k]? = some j) : ∃ marked, (markTargets is)[k]? = some { j with isJumpTarget := marked }
      ∧ (marked = true ↔ ∃ i ∈ is, i.target = some j.offset) := by
  refine ⟨_, by rw [markTargets, List.getElem?_map, hk]; rfl, ?_⟩
  rw [Std.HashSet.contains_ofList, List.contains_iff_mem, List.mem_filterMap]

theorem decode_ascending {c : CodeObject} {s : InstructionStream} (h : decode c = .ok s) :
    Ascending s.instructions := by
  obtain ⟨-, -, is, hfold, hstray, rfl⟩ := decode_eq_ok.mp h
  obtain ⟨horder, haimed⟩ := fold_ascending hfold (Nat.le_refl 0) .nil (List.forall_mem_nil _)
    (List.forall_mem_nil _)
  have hmem : ∀ {i}, i ∈ markTargets is → ∃ j ∈ is, i.offset = j.offset ∧ i.opcode = j.opcode
      ∧ i.target = j.target := by
    intro i hi
    obtain ⟨j, hj, rfl⟩ := List.mem_map.mp hi
    exact ⟨j, hj, rfl, rfl, rfl⟩
  refine ⟨?_, fun i hi => ?_, fun i hi t ht => ?_⟩
  · exact List.pairwise_map.mpr horder
  · obtain ⟨j, hj, -, hop, htarget⟩ := hmem hi
    exact ⟨hop ▸ (haimed j hj).supported, hop ▸ htarget ▸ (haimed j hj).target⟩
  · obtain ⟨j, hj, -, -, htarget⟩ := hmem hi
    obtain ⟨k, hk, hoffset⟩ := strayJump?_eq_none.mp hstray j hj t (htarget ▸ ht)
    exact ⟨_, List.mem_map.mpr ⟨k, hk, rfl⟩, hoffset⟩

theorem Ascending.offset_lt {is : List Instruction} (h : Ascending is) {k k' : Nat}
    {i i' : Instruction} (hlt : k < k') (hk : is[k]? = some i) (hk' : is[k']? = some i') :
    i.offset < i'.offset := by
  obtain ⟨hbound, rfl⟩ := List.getElem?_eq_some_iff.mp hk
  obtain ⟨hbound', rfl⟩ := List.getElem?_eq_some_iff.mp hk'
  exact List.pairwise_iff_getElem.mp h.order k k' hbound hbound' hlt

end InstructionStream

end Stackwise
