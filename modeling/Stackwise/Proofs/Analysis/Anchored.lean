import Stackwise.Proofs.Analysis.PlannedPasses

/-!
# When a generator can be transformed

The pass over generators drops the operations that start one, and a delegation names the offset
behind it. So an offset that is named can be left without an instruction: nothing stays at it or
behind it.

* `Body.toStateMachine_iff`: the pass succeeds exactly if no such offset is named.
* `Plan.Sound.anchored`: what control comes to on a plan names none.
* `Body.Spelled.anchored_iff`: spelling out `with` neither brings such a name about nor removes it.
-/

namespace Stackwise

namespace Op

/-- The offsets that are named by what stands for an operation of a generator. A delegation is left
for the offset behind it. -/
def mentions (op : Op) (o : Nat) : List Nat :=
  match op with
  | .yieldFrom => [o + 1]
  | op => op.targets

theorem mem_mentions {op : Op} {o t : Nat} :
    t ∈ op.mentions o ↔ op = .yieldFrom ∧ t = o + 1 ∨ t ∈ op.targets := by
  unfold mentions
  split
  · simp [targets, branchTarget?, handlerTarget?]
  · rename_i hne
    exact ⟨.inr, fun h => h.resolve_left fun h => hne h.1⟩

/-- Control may go wherever an operation names an offset. -/
theorem exists_jump {op : Op} {d t : Nat} {bs : List Block} {ws : List (Successor × Nat × List Block)}
    (hop : op.isDispatch = false) (ht : t ∈ op.targets) (h : op.moves d bs = some ws) :
    ∃ F, (.jump t, F) ∈ ws := by
  cases op with
  | jump _ =>
    cases List.mem_singleton.mp ht
    cases h
    exact ⟨_, .head _⟩
  | forIter _ | popJumpIf _ _ | jumpIfOrPop _ _ | jumpIfNotExcMatch _ | setupFinally _ _ _
  | setupWith _ | delegate _ _ =>
    cases List.mem_singleton.mp ht
    simp only [moves, Option.ite_none_right_eq_some] at h
    cases h.2
    exact ⟨_, .tail _ (.head _)⟩
  | resumeDispatch _ => cases hop
  | _ => cases ht

end Op

namespace Body

variable {is out : List Instr} {map : OffsetMap} {o t state : Nat} {i : Instr} {op : Op}

/-- At an offset or behind it, an instruction of a generator stays. -/
def Stays (is : List Instr) (t : Nat) : Prop :=
  ∃ (o : Nat) (i : Instr), t ≤ o ∧ is[o]? = some i ∧ i.op.isGenStart = false

/-- An instruction stays at every offset that is named, or behind it. -/
def Anchored (is : List Instr) : Prop :=
  ∀ (o : Nat) (i : Instr), is[o]? = some i → ∀ t ∈ i.op.mentions o, Stays is t

theorem Stays.mono {t' : Nat} (h : Stays is t') (hle : t ≤ t') : Stays is t := by
  obtain ⟨o, i, hto, hi, hstays⟩ := h
  exact ⟨o, i, hle.trans hto, hi, hstays⟩

theorem Stays.lt (h : Stays is t) : t < is.length := by
  obtain ⟨o, i, hto, hi, -⟩ := h
  exact Nat.lt_of_le_of_lt hto (List.getElem?_eq_some_iff.mp hi).1

theorem stays_iff_any : Stays is t ↔ (is.drop t).any (fun i => !i.op.isGenStart) = true := by
  rw [List.any_eq_true]
  constructor
  · rintro ⟨o, i, hto, hi, hstays⟩
    refine ⟨i, List.mem_iff_getElem?.mpr ⟨o - t, ?_⟩, by rw [hstays]; rfl⟩
    rw [List.getElem?_drop, Nat.add_sub_cancel' hto]
    exact hi
  · rintro ⟨i, hi, hstays⟩
    obtain ⟨k, hk⟩ := List.mem_iff_getElem?.mp hi
    rw [List.getElem?_drop] at hk
    exact ⟨t + k, i, Nat.le_add_right t k, hk, by simpa using hstays⟩

instance (is : List Instr) (t : Nat) : Decidable (Stays is t) := decidable_of_iff _ stays_iff_any.symm

/-! ## 1. The pass over generators -/

/-- What stands for an instruction is no dispatcher. -/
theorem isDispatch_of_mem_stateChunk (hi : i.op.isSwitch = false) (hop : op ∈ (stateChunk state i).1) :
    op.isDispatch = false := by
  rcases stateChunk_cases state i with heq | heq | ⟨op', rest, heq, -, hop', -, hrest⟩
  · rw [heq] at hop
    cases hop
  · rw [heq] at hop
    rw [List.mem_singleton.mp hop]
    exact Op.isDispatch_of_plain hi
  · rw [heq, List.mem_cons, List.mem_cons] at hop
    rcases hop with rfl | rfl | hop
    · exact hop'
    · rfl
    · rcases hrest with rfl | rfl
      · cases hop
      · rw [List.mem_singleton.mp hop]
        rfl

/-- What stands for an instruction names what the instruction mentions, and the instruction itself. -/
theorem targets_stateChunk (hop : op ∈ (stateChunk state i).1) (ht : t ∈ op.targets) :
    t ∈ i.op.mentions i.offset ∨ t = i.offset ∧ i.op.isGenStart = false := by
  unfold stateChunk at hop
  split at hop
  · cases hop
  · simp only [List.mem_cons, List.not_mem_nil, or_false] at hop
    rcases hop with rfl | rfl <;> cases ht
  · rename_i hyield
    rw [hyield]
    simp only [List.mem_cons, List.not_mem_nil, or_false] at hop
    rcases hop with rfl | rfl | rfl
    · exact .inl ht
    · cases ht
    · exact .inr ⟨List.mem_singleton.mp ht, rfl⟩
  · rw [List.mem_singleton.mp hop] at ht
    exact .inl (Op.mem_mentions.mpr (.inr ht))

/-- All that an instruction mentions is named by what stands for it. -/
theorem exists_target (state : Nat) (ht : t ∈ i.op.mentions i.offset) :
    ∃ op ∈ (stateChunk state i).1, t ∈ op.targets := by
  unfold stateChunk
  cases hop : i.op with
  | yieldFrom =>
    rw [hop] at ht
    exact ⟨_, .head _, ht⟩
  | genStart _ | yieldValue =>
    rw [hop] at ht
    cases ht
  | _ =>
    rw [hop] at ht
    exact ⟨_, .head _, ht⟩

/-- A writer that has written the dispatcher and all that stands for the instructions. -/
def stateWriter (is : List Instr) : BodyWriter :=
  (stateChunks 1 is).foldl BodyWriter.chunk
    (BodyWriter.empty.push (.resumeDispatch []) (is.head?.bind (·.line)) none)

theorem toStateMachine_eq (is : List Instr) : toStateMachine is
    = (stateWriter is).finish.map fun r => (Instr.markTargets (fillDispatcher r.1), r.2) := by
  unfold toStateMachine stateWriter
  rw [← foldl_writeState_eq]
  dsimp only
  cases BodyWriter.finish _ <;> rfl

theorem holds_stateWriter (hd : Dense is) : (stateWriter is).Holds 1 (stateChunks 1 is) :=
  BodyWriter.holds_foldl
    (BodyWriter.empty.push (.resumeDispatch []) (is.head?.bind (·.line)) none) rfl rfl
    (by rw [map_old_stateChunks]; exact nodup_offsets hd)

/-- Something is written from an offset on exactly if an instruction stays there. -/
theorem stays_iff (hd : Dense is) : ((stateWriter is).map.get? t).isSome = true ↔ Stays is t := by
  have hholds := holds_stateWriter hd
  constructor
  · intro hsome
    obtain ⟨new, hnew⟩ := Option.isSome_iff_exists.mp hsome
    obtain ⟨c, hc, hold⟩ := hholds.mapped hnew
    obtain ⟨k, hk⟩ := List.mem_iff_getElem?.mp hc
    have hlt : k < is.length := by
      rw [← length_stateChunks 1 is]
      exact (List.getElem?_eq_some_iff.mp hk).1
    cases (chunk_at hd (List.getElem?_eq_getElem hlt)).symm.trans hk
    rw [← hold, hholds.map hk, Option.isSome_ite, hholds.size] at hsome
    obtain rfl : k = t := hold
    have hinner : Chunk.start (stateChunks 1 is) k
        < Chunk.start (stateChunks 1 is) (stateChunks 1 is).length := by omega
    obtain ⟨k', c', j, op, hk', hj, hstart⟩ := Chunk.exists_of_lt hinner
    have hj' := (List.getElem?_eq_some_iff.mp hj).1
    have hle : k ≤ k' := by
      by_contra hlt'
      have hmono : Chunk.start (stateChunks 1 is) (k' + 1) ≤ Chunk.start (stateChunks 1 is) k :=
        Chunk.start_mono _ (Nat.lt_of_not_le hlt')
      rw [Chunk.start_succ hk'] at hmono
      omega
    have hlt' : k' < is.length := by
      rw [← length_stateChunks 1 is]
      exact (List.getElem?_eq_some_iff.mp hk').1
    have hi := List.getElem?_eq_getElem hlt'
    cases (chunk_at hd hi).symm.trans hk'
    refine ⟨k', _, hle, hi, ?_⟩
    cases hgen : is[k'].op.isGenStart with
    | false => rfl
    | true =>
      rw [width_eq, width_zero hgen] at hj'
      exact absurd hj' (Nat.not_lt_zero j)
  · intro h
    have hc := chunk_at hd (List.getElem?_eq_getElem h.lt)
    obtain ⟨o, i, hto, hi, hstays⟩ := h
    have hmono := Chunk.start_mono (stateChunks 1 is) hto
    have hend := Chunk.start_lt (chunk_at hd hi) (by rw [width_eq]; exact width_pos hstays)
    have hmap := hholds.map hc
    rw [hholds.size, if_pos (by omega)] at hmap
    rw [hmap]
    rfl

theorem mem_ops_stateWriter (hd : Dense is) (hop : op ∈ (stateWriter is).ops) :
    op = .resumeDispatch []
      ∨ ∃ o i, is[o]? = some i ∧ op ∈ (stateChunk (yieldState is o) i).1 := by
  rw [stateWriter, BodyWriter.ops_chunks, List.mem_append, List.mem_flatMap, BodyWriter.ops_push,
    BodyWriter.ops_empty, List.nil_append, List.mem_singleton] at hop
  rcases hop with hop | ⟨c, hc, hop⟩
  · exact .inl hop
  · obtain ⟨o, hc⟩ := List.mem_iff_getElem?.mp hc
    have ho : o < is.length := by
      rw [← length_stateChunks 1 is]
      exact (List.getElem?_eq_some_iff.mp hc).1
    have hi := List.getElem?_eq_getElem ho
    cases (chunk_at hd hi).symm.trans hc
    exact .inr ⟨o, _, hi, hop⟩

/-- **A generator can be transformed** exactly if an instruction stays at every offset that is named,
or behind it. -/
theorem toStateMachine_iff (hd : Dense is) (hplain : Plain is) :
    (∃ out map, toStateMachine is = .ok (out, map)) ↔ Anchored is := by
  constructor
  · rintro ⟨out, map, h⟩ o i hi t ht
    have hlaid := toStateMachine_laid hd h
    rw [toStateMachine_eq] at h
    obtain ⟨⟨moved, map'⟩, hfinish, hmoved⟩ := map_eq_ok.mp h
    cases hmoved
    obtain rfl := BodyWriter.finish_map hfinish
    rw [← hd o i hi] at ht
    obtain ⟨op, hop, ht⟩ := exists_target (yieldState is o) ht
    obtain ⟨j, hj⟩ := List.mem_iff_getElem?.mp hop
    obtain ⟨i', -, hrelabel, -⟩ := hlaid.entry (chunk_at hd hi) hj
    have hplain' := isDispatch_of_mem_stateChunk (hplain i (List.mem_of_getElem? hi)) hop
    exact (stays_iff hd).mp (((Op.relabel_eq_ok hplain').mp hrelabel).1 t ht)
  · intro h
    rw [toStateMachine_eq]
    obtain ⟨out, hout⟩ := BodyWriter.exists_finish (r := stateWriter is) fun op hop => by
      rcases mem_ops_stateWriter hd hop with rfl | ⟨o, i, hi, hop⟩
      · exact ⟨_, rfl⟩
      · have hplain' := isDispatch_of_mem_stateChunk (hplain i (List.mem_of_getElem? hi)) hop
        refine ⟨_, (Op.relabel_eq_ok hplain').mpr ⟨fun t ht => (stays_iff hd).mpr ?_, rfl⟩⟩
        rcases targets_stateChunk hop ht with ht | ⟨rfl, hstays⟩
        · rw [hd o i hi] at ht
          exact h o i hi t ht
        · rw [hd o i hi]
          exact ⟨o, i, Nat.le_refl _, hi, hstays⟩
    exact ⟨_, _, map_eq_ok.mpr ⟨_, hout, rfl⟩⟩

/-- The state machine of a generator names no offset outside. -/
theorem toStateMachine_target_lt (hd : Dense is) (hplain : Plain is)
    (h : toStateMachine is = .ok (out, map)) (hm : StateMachine out) {i' : Instr} (hi' : i' ∈ out)
    (ht : t ∈ i'.op.targets) : t < out.length := by
  have hlaid := toStateMachine_laid hd h
  have hanchored := (toStateMachine_iff hd hplain).mp ⟨out, map, h⟩
  obtain ⟨p, hp⟩ := List.mem_iff_getElem?.mp hi'
  rcases Nat.eq_zero_or_pos p with rfl | hpos
  · obtain ⟨first, hfirst, hop⟩ := hm.dispatcher
    cases hp.symm.trans hfirst
    rw [hop] at ht
    obtain ⟨⟨k, o⟩, hpoint, rfl⟩ := List.mem_map.mp ht
    obtain ⟨j, hj, -, rfl⟩ := mem_resumePoints.mp hpoint
    obtain ⟨o, ho⟩ := List.mem_iff_getElem?.mp hj
    rw [hlaid.dense o j ho]
    exact (List.getElem?_eq_some_iff.mp ho).1
  · obtain ⟨o, i, n, op, ho, hop, rfl⟩ :=
      exists_chunk hd hlaid hpos (List.getElem?_eq_some_iff.mp hp).1
    have hmem := List.mem_of_getElem? hop
    have hplain' := isDispatch_of_mem_stateChunk (hplain i (List.mem_of_getElem? ho)) hmem
    obtain ⟨⟨j, hj, -, hmoved, -⟩, hmapped⟩ := stands_at hd hlaid ho hop hplain'
    cases hp.symm.trans hj
    rw [hmoved, Op.targets_retarget] at ht
    obtain ⟨t₀, ht₀, rfl⟩ := List.mem_map.mp ht
    have hlt : t₀ < is.length := by
      rcases targets_stateChunk hmem ht₀ with hmentioned | ⟨rfl, -⟩
      · rw [hd o i ho] at hmentioned
        exact (hanchored o i ho t₀ hmentioned).lt
      · rw [hd o i ho]
        exact (List.getElem?_eq_some_iff.mp ho).1
    have hmap := map_at hd hlaid (List.getElem?_eq_getElem hlt)
    rw [hmapped t₀ ht₀] at hmap
    split at hmap
    · rw [Option.some.inj hmap]
      assumption
    · cases hmap

/-! ## 2. Spelling out `with` -/

/-- The operations that start a generator stay alone. -/
theorem isGenStart_of_expandOp (hop : op ∈ expandOp i.op) : op.isGenStart = i.op.isGenStart := by
  cases hw : i.op.isWith with
  | false =>
    rw [show expandOp i.op = [i.op] from enteredOps_eq true hw] at hop
    rw [List.mem_singleton.mp hop]
  | true =>
    obtain ⟨handler, hwith⟩ := Op.exists_of_isWith hw
    rw [hwith] at hop ⊢
    exact (expandOp_plain hop).2.1

/-- So do delegations. -/
theorem yieldFrom_of_expandOp (hop : .yieldFrom ∈ expandOp i.op) : i.op = .yieldFrom := by
  cases hw : i.op.isWith with
  | false =>
    rw [show expandOp i.op = [i.op] from enteredOps_eq true hw] at hop
    exact (List.mem_singleton.mp hop).symm
  | true =>
    obtain ⟨handler, hwith⟩ := Op.exists_of_isWith hw
    rw [hwith] at hop
    cases (expandOp_plain hop).2.2

section Spelled

variable (h : Spelled is out map)
include h

/-- What stays keeps staying when `with` is spelled out. -/
theorem Spelled.stays (ht : Stays is t) : Stays out (place is t) := by
  obtain ⟨o, i, hto, hi, hstays⟩ := ht
  obtain ⟨op, hop⟩ : ∃ op, (expandOp i.op)[0]? = some op :=
    ⟨_, List.getElem?_eq_getElem (enteredOps_pos true i.op)⟩
  obtain ⟨i', hi', hmoved⟩ := h.entry hi hop
  refine ⟨place is o, i', Chunk.start_mono _ hto, hi', ?_⟩
  rw [hmoved, (Op.retarget_kind _ op).1, isGenStart_of_expandOp (List.mem_of_getElem? hop)]
  exact hstays

/-- Nothing else stays. -/
theorem Spelled.stays_of (ht : Stays out (place is t)) : Stays is t := by
  obtain ⟨p, i', htp, hi', hstays⟩ := ht
  obtain ⟨o, i, j, op, hi, hj, hop, hoffset⟩ := h.exists_of_mem (List.mem_of_getElem? hi')
  rw [h.dense p i' hi'] at hoffset
  have hlt := (List.getElem?_eq_some_iff.mp hj).1
  have hto : t ≤ o := by
    by_contra hlt'
    have hmono : place is (o + 1) ≤ place is t := Chunk.start_mono _ (Nat.lt_of_not_le hlt')
    rw [place_succ hi] at hmono
    omega
  rw [hop, (Op.retarget_kind _ op).1, isGenStart_of_expandOp (List.mem_of_getElem? hj)] at hstays
  exact ⟨o, i, hto, hi, hstays⟩

/-- **Spelling out `with` neither brings about nor removes a name** of an offset behind which nothing
stays. -/
theorem Spelled.anchored_iff (hinside : ∀ i ∈ is, ∀ t ∈ i.op.targets, t < is.length) :
    Anchored out ↔ Anchored is := by
  constructor
  · intro ha o i hi t ht
    -- the last operation of an expansion names what the operation names
    obtain ⟨op, hj⟩ : ∃ op, (expandOp i.op)[(expandOp i.op).length - 1]? = some op :=
      ⟨_, List.getElem?_eq_getElem (Nat.sub_lt (enteredOps_pos true i.op) Nat.one_pos)⟩
    obtain ⟨i', hi', hmoved⟩ := h.entry hi hj
    refine h.stays_of (ha _ i' hi' _ ?_)
    rw [hmoved, Op.mem_mentions, Op.targets_retarget]
    rcases Op.mem_mentions.mp ht with ⟨hop, rfl⟩ | ht
    · rw [hop] at hj ⊢
      cases hj
      refine .inl ⟨rfl, ?_⟩
      rw [place_succ hi, hop]
      rfl
    · rcases expandOp_cases hj with ⟨-, htargets, -⟩ | ⟨hlt, -⟩
      · have hlt := hinside i (List.mem_of_getElem? hi) t ht
        rw [htargets]
        exact .inr (List.mem_map.mpr ⟨t, ht, h.image_eq hlt⟩)
      · omega
  · intro ha p i' hi' t' ht'
    obtain ⟨o, i, j, op, hi, hj, hop, hoffset⟩ := h.exists_of_mem (List.mem_of_getElem? hi')
    obtain rfl : p = place is o + j := (h.dense p i' hi').symm.trans hoffset
    rw [hop, Op.mem_mentions, Op.targets_retarget] at ht'
    rcases ht' with ⟨hyield, rfl⟩ | ht'
    · obtain rfl : op = .yieldFrom := by
        cases op <;> first | rfl | cases hyield
      have hfrom := yieldFrom_of_expandOp (List.mem_of_getElem? hj)
      have hnext := h.stays (ha o i hi _ (Op.mem_mentions.mpr (.inl ⟨hfrom, rfl⟩)))
      have hlt := (List.getElem?_eq_some_iff.mp hj).1
      rw [place_succ hi] at hnext
      exact hnext.mono (by omega)
    · obtain ⟨t, ht, rfl⟩ := List.mem_map.mp ht'
      rcases expandOp_cases hj with ⟨-, htargets, -⟩ | ⟨-, hnone, -⟩
      · rw [htargets] at ht
        have hstays := ha o i hi _ (Op.mem_mentions.mpr (.inr ht))
        rw [h.image_eq hstays.lt]
        exact h.stays hstays
      · rw [hnone] at ht
        cases ht

end Spelled

end Body

/-! ## 3. Planned bodies -/

namespace Plan

variable {P : Plan} {is : List Instr} {locals cells o t : Nat} {F : Nat × List Block} {i : Instr}

section Sound

variable (hP : P.Sound is locals cells)
include hP

/-- Where control comes to on a plan, an instruction stays. -/
theorem Sound.stays (ht : P t F) : Body.Stays is t := by
  -- control goes on from the start of a generator, and the body ends somewhere
  induction hn : is.length - t generalizing t F with
  | zero =>
    have := hP.lt ht
    omega
  | succ n ih =>
    have hi := List.getElem?_eq_getElem (hP.lt ht)
    cases hgen : is[t].op.isGenStart with
    | false => exact ⟨t, _, Nat.le_refl _, hi, hgen⟩
    | true =>
      obtain ⟨d, bs⟩ := F
      obtain ⟨ws, hm, hall⟩ := hP.moves hi ht
      have harity : is[t].op.arity? = some (0, 0) := by
        cases hop : is[t].op <;> first | rfl | (rw [hop] at hgen; cases hgen)
      rw [Op.moves_of_arity harity, if_pos (Nat.zero_le _)] at hm
      cases hm
      have hnext : P (t + 1) _ := hall (.head _)
      exact (ih hnext (by omega)).mono (Nat.le_succ t)

/-- What is mentioned where control comes to on a plan stays. -/
theorem Sound.stays_of_mentions (hi : is[o]? = some i) (ho : P o F) (hplain : i.op.isSwitch = false)
    (ht : t ∈ i.op.mentions o) : Body.Stays is t := by
  obtain ⟨d, bs⟩ := F
  obtain ⟨ws, hm, hall⟩ := hP.moves hi ho
  rcases Op.mem_mentions.mp ht with ⟨hop, rfl⟩ | ht
  · rw [hop, Op.moves_of_arity rfl, Option.ite_none_right_eq_some] at hm
    obtain ⟨-, hws⟩ := hm
    cases hws
    exact hP.stays (hall (.head _))
  · obtain ⟨F', hF'⟩ := Op.exists_jump (Op.isDispatch_of_plain hplain) ht hm
    exact hP.stays (hall hF')

/-- **A body is anchored** if what is mentioned elsewhere stays. -/
theorem Sound.anchored (hplain : Body.Plain is) (hdead : ∀ o i, is[o]? = some i → (∀ F, ¬ P o F) →
    ∀ t ∈ i.op.mentions o, Body.Stays is t) : Body.Anchored is := by
  intro o i hi t ht
  by_cases ho : ∃ F, P o F
  · obtain ⟨F, hF⟩ := ho
    exact hP.stays_of_mentions hi hF (hplain i (List.mem_of_getElem? hi)) ht
  · exact hdead o i hi (fun F hF => ho ⟨F, hF⟩) t ht

end Sound

end Plan

end Stackwise
