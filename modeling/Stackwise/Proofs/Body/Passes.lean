import Stackwise.Proofs.Body.Layout

/-!
# Passes over a body

What the passes do to the operations of a body, told in one way for a pass that runs and for one
that is not called for.

* `OffsetMap.get?_andThen`: maps one after the other.
* `Body.enteredChunk`: what the pass over `with` statements writes; nothing disappears.
* `Body.Suspended`: what the pass over generators writes; only the start of a generator disappears.
* `Body.plain_laid`: a body that no pass touches is laid out as it is.
-/

namespace Stackwise

/-! ## 1. Maps one after the other -/

namespace OffsetMap

/-- The pairs of a list without repeated keys are the pairs of its map. -/
theorem get?_foldl_pairs {pairs : List (Nat × Nat)} (hd : pairs.Pairwise (·.1 ≠ ·.1))
    (m : OffsetMap) {k v : Nat} : (pairs.foldl (fun m p => m.insert p.1 p.2) m).get? k = some v
      ↔ (k, v) ∈ pairs ∨ (∀ p ∈ pairs, p.1 ≠ k) ∧ m.get? k = some v := by
  induction pairs generalizing m with
  | nil => simp
  | cons p pairs ih =>
    obtain ⟨hp, hd⟩ := List.pairwise_cons.mp hd
    rw [List.foldl_cons, ih hd, get?_insert, List.mem_cons, List.forall_mem_cons]
    by_cases hk : p.1 = k
    · have hnot : ∀ q ∈ pairs, q.1 ≠ k := fun q hq h => hp q hq (hk.trans h.symm)
      have hnotin : (k, v) ∉ pairs := fun h => hnot _ h rfl
      rw [if_pos hk]
      constructor
      · rintro (h | ⟨-, h⟩)
        · exact absurd h hnotin
        · exact .inl (.inl (Prod.ext hk.symm (Option.some.inj h).symm))
      · rintro ((h | h) | ⟨⟨h, -⟩, -⟩)
        · exact .inr ⟨hnot, by rw [← h]⟩
        · exact absurd h hnotin
        · exact absurd hk h
    · rw [if_neg hk]
      have hne : (k, v) ≠ p := fun h => hk (by rw [← h])
      simp only [hne, false_or, ne_eq, hk, not_false_eq_true, true_and]

theorem mem_toList {m : OffsetMap} {k v : Nat} : (k, v) ∈ m.toList ↔ m.get? k = some v :=
  Std.TreeMap.mem_toList_iff_getElem?_eq_some

theorem pairwise_toList (m : OffsetMap) : m.toList.Pairwise (·.1 ≠ ·.1) := by
  refine (Std.TreeMap.distinct_keys_toList (t := m.table)).imp fun h heq => h ?_
  exact Nat.compare_eq_eq.mpr heq

/-- **One map after the other.** -/
theorem get?_andThen (m next : OffsetMap) (o : Nat) :
    (m.andThen next).get? o = (m.get? o).bind next.get? := by
  have hd : (m.toList.filterMap fun p => (next.get? p.2).map fun new => (p.1, new)).Pairwise
      (·.1 ≠ ·.1) := by
    refine (pairwise_toList m).filterMap _ fun p q hpq p' hp' q' hq' => ?_
    obtain ⟨v, -, rfl⟩ := Option.map_eq_some_iff.mp hp'
    obtain ⟨w, -, rfl⟩ := Option.map_eq_some_iff.mp hq'
    exact hpq
  refine Option.ext fun v => ?_
  rw [andThen, ofList, get?_foldl_pairs hd, Option.bind_eq_some_iff]
  constructor
  · rintro (h | ⟨-, h⟩)
    · obtain ⟨p, hp, h⟩ := List.mem_filterMap.mp h
      obtain ⟨w, hw, h⟩ := Option.map_eq_some_iff.mp h
      cases h
      exact ⟨p.2, mem_toList.mp hp, hw⟩
    · cases h
  · rintro ⟨t, ht, hv⟩
    refine .inl (List.mem_filterMap.mpr ⟨(o, t), mem_toList.mpr ht, ?_⟩)
    rw [hv]
    rfl

theorem get?_identity {offsets : List Nat} (hd : offsets.Nodup) {o : Nat} :
    (identity offsets).get? o = if o ∈ offsets then some o else none := by
  have hd' : (offsets.map fun o => (o, o)).Pairwise (·.1 ≠ ·.1) := List.pairwise_map.mpr hd
  refine Option.ext fun v => ?_
  rw [identity, ofList, get?_foldl_pairs hd']
  constructor
  · rintro (h | ⟨-, h⟩)
    · obtain ⟨o', ho', h⟩ := List.mem_map.mp h
      cases h
      rw [if_pos ho']
    · cases h
  · intro h
    split at h
    · cases h
      exact .inl (List.mem_map.mpr ⟨o, ‹_›, rfl⟩)
    · cases h

end OffsetMap

/-! ## 2. Operations through the passes -/

namespace Op

/-- Whether the operation hands a value to the caller of a generator. -/
def isYield : Op → Bool
  | .yieldValue | .yieldFrom => true
  | _ => false

/-- What moving targets leaves of an operation. -/
theorem retarget_kind (f : Nat → Nat) (op : Op) : (op.retarget f).isGenStart = op.isGenStart
    ∧ (op.retarget f).isWith = op.isWith ∧ (op.retarget f).isYield = op.isYield
    ∧ (op.retarget f).isSwitch = op.isSwitch := by
  cases op <;> exact ⟨rfl, rfl, rfl, rfl⟩

theorem isYield_of_target {op : Op} {t : Nat} (h : op.targets = [t]) :
    op.isYield = false ∧ op.isGenStart = false := by
  cases op <;> first | exact ⟨rfl, rfl⟩ | cases h

theorem eq_setupWith {op : Op} {t : Nat} (h : op.isWith = true) (ht : op.targets = [t]) :
    op = .setupWith t := by
  cases op with
  | setupWith h' =>
    cases ht
    rfl
  | _ => cases h

/-- A decoded jump has its target. -/
theorem decode_target {i : Instruction} {c : CodeObject} {op : Op} {t : Nat}
    (hi : InstructionStream.Aimed i) (h : decode i c = .ok op) (ht : i.target = some t) :
    op.targets = [t] := by
  have hjump : i.opcode.jumpOp?.isSome = true := by
    rw [Opcode.jumpOp?_isSome, hi.supported, ← hi.target, ht]
    rfl
  obtain ⟨f, hf⟩ := Option.isSome_iff_exists.mp hjump
  have htarget : targetOf i = .ok t := by rw [targetOf, ht]
  rw [decode_jump c hf, htarget] at h
  cases h
  revert hf
  cases i.opcode <;> intro hf <;> cases hf <;> rfl

end Op

namespace Body

/-- What a pass over `with` statements writes for an instruction, if it is called for. -/
def enteredOps (expands : Bool) (op : Op) : List Op := if expands then expandOp op else [op]

theorem enteredOps_eq (expands : Bool) {op : Op} (h : (expands && op.isWith) = false) :
    enteredOps expands op = [op] := by
  unfold enteredOps
  split
  · rename_i he
    rw [he, Bool.true_and] at h
    cases op <;> first | rfl | cases h
  · rfl

theorem enteredOps_pos (expands : Bool) (op : Op) : 0 < (enteredOps expands op).length := by
  unfold enteredOps
  split
  · cases op <;> exact Nat.succ_pos _
  · exact Nat.one_pos

/-- The chunk of an instruction in the pass over `with` statements. -/
def enteredChunk (expands : Bool) (i : Instr) : Chunk :=
  ⟨i.offset, enteredOps expands i.op, i.line, i.origin⟩

/-- Nothing disappears in the pass over `with` statements. -/
theorem image_entered {expands : Bool} {is mid : List Instr} {map : OffsetMap} {k : Nat} {j : Instr}
    (hd : Dense is) (h : Laid 0 (is.map (enteredChunk expands)) mid map) (hk : is[k]? = some j) :
    Chunk.start (is.map (enteredChunk expands)) k < mid.length
      ∧ map.get? k = some (Chunk.start (is.map (enteredChunk expands)) k) := by
  have hchunk : (is.map (enteredChunk expands))[k]? = some (enteredChunk expands j) := by
    rw [List.getElem?_map, hk]
    rfl
  have hlt : Chunk.start (is.map (enteredChunk expands)) k < mid.length := by
    rw [h.length, Nat.zero_add]
    exact Chunk.start_lt hchunk (enteredOps_pos expands j.op)
  have hmap := h.map hchunk
  rw [Nat.zero_add, if_pos hlt] at hmap
  refine ⟨hlt, ?_⟩
  rw [← hmap]
  exact congrArg map.get? (hd k j hk).symm

theorem expandOp_plain {t : Nat} {op : Op} (h : op ∈ expandOp (.setupWith t)) :
    op.isDispatch = false ∧ op.isGenStart = false ∧ op.isYield = false := by
  simp only [expandOp, List.mem_cons, List.not_mem_nil, or_false] at h
  rcases h with rfl | rfl | rfl | rfl | rfl | rfl <;> exact ⟨rfl, rfl, rfl⟩

theorem isWith_eq_false {is : List Instr} {expands : Bool} (h : (expands && hasWith is) = false)
    {i : Instr} (hi : i ∈ is) : (expands && i.op.isWith) = false := by
  rcases Bool.and_eq_false_iff.mp h with h | h
  · rw [h]
    rfl
  · have hop := List.any_eq_false.mp h i hi
    rw [Bool.and_eq_false_iff]
    refine .inr ?_
    revert hop
    cases i.op <;> intro hop <;> first | rfl | exact absurd rfl hop

/-- What a pass over generators writes for an instruction. -/
structure Suspended (drops : Bool) (i : Instr) (d : Chunk) : Prop where
  old : d.old = i.offset
  origin : d.origin = i.origin
  dropped : (drops && i.op.isGenStart) = true → d.ops = []
  kept : (drops && i.op.isGenStart) = false → 0 < d.ops.length
  plain : (drops && i.op.isGenStart) = false → i.op.isYield = false → d.ops = [i.op]

theorem suspended_stateChunk (state : Nat) (i : Instr) :
    Suspended true i ⟨i.offset, (stateChunk state i).1, i.line, i.origin⟩ := by
  obtain ⟨offset, op, line, origin, mark⟩ := i
  cases op with
  | genStart _ => exact ⟨rfl, rfl, fun _ => rfl, fun h => (nomatch h), fun h => (nomatch h)⟩
  | yieldValue | yieldFrom =>
    exact ⟨rfl, rfl, fun h => (nomatch h), fun _ => Nat.succ_pos _, fun _ h => (nomatch h)⟩
  | _ => exact ⟨rfl, rfl, fun h => (nomatch h), fun _ => Nat.one_pos, fun _ _ => rfl⟩

theorem suspended_stateChunks (state : Nat) (is : List Instr) :
    List.Forall₂ (Suspended true) is (stateChunks state is) := by
  induction is generalizing state with
  | nil => exact .nil
  | cons i is ih => exact .cons (suspended_stateChunk state i) (ih _)

/-- An instruction as it is. -/
def plainChunk (i : Instr) : Chunk := ⟨i.offset, [i.op], i.line, i.origin⟩

theorem suspended_plainChunk (i : Instr) : Suspended false i (plainChunk i) :=
  ⟨rfl, rfl, fun h => (nomatch h), fun _ => Nat.one_pos, fun _ _ => rfl⟩

/-- A body that no pass touches is laid out as it is. -/
theorem plain_laid {is : List Instr} (hd : Dense is) (hplain : Plain is)
    (hbound : ∀ i ∈ is, ∀ t ∈ i.op.targets, t < is.length) :
    Laid 0 (is.map plainChunk) is (.identity (List.range is.length)) := by
  have hstart : ∀ {k}, k ≤ is.length → Chunk.start (is.map plainChunk) k = k := by
    intro k hk
    refine Chunk.start_singletons (fun d hd => ?_) (by rw [List.length_map]; exact hk)
    obtain ⟨i, -, rfl⟩ := List.mem_map.mp hd
    rfl
  have hget : ∀ {t}, t < is.length →
      (OffsetMap.identity (List.range is.length)).get? t = some t := fun ht => by
    rw [OffsetMap.get?_identity List.nodup_range, if_pos (List.mem_range.mpr ht)]
  have hmap : ∀ {k d}, (is.map plainChunk)[k]? = some d →
      ∃ i, is[k]? = some i ∧ d = plainChunk i ∧ k < is.length := by
    intro k d hk
    rw [List.getElem?_map] at hk
    obtain ⟨i, hi, rfl⟩ := Option.map_eq_some_iff.mp hk
    exact ⟨i, hi, rfl, (List.getElem?_eq_some_iff.mp hi).1⟩
  refine ⟨hd, ?_, fun {k d j op} hk hj => ?_, fun {k d} hk => ?_⟩
  · rw [List.length_map, hstart (Nat.le_refl _), Nat.zero_add]
  · obtain ⟨i, hi, rfl, hlt⟩ := hmap hk
    rw [hstart hlt.le, Nat.zero_add]
    cases j with
    | succ j => cases hj
    | zero =>
      cases hj
      have hmem := List.mem_of_getElem? hi
      refine ⟨i, hi, ?_, rfl, rfl⟩
      refine (Op.relabel_eq_ok (Op.isDispatch_of_plain (hplain i hmem))).mpr ⟨fun t ht => ?_, ?_⟩
      · rw [hget (hbound i hmem t ht)]
        rfl
      · exact (Op.retarget_eq_self fun t ht => OffsetMap.image_eq (hget (hbound i hmem t ht))).symm
  · obtain ⟨i, hi, rfl, hlt⟩ := hmap hk
    rw [hstart hlt.le, Nat.zero_add, if_pos hlt]
    change (OffsetMap.identity _).get? i.offset = _
    rw [hd k i hi, hget hlt]

end Body

end Stackwise
