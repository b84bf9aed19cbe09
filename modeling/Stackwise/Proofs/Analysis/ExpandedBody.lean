import Stackwise.Proofs.Analysis.Expansion

/-!
# The analysis of a body with `with` spelled out

Spelling out `with` succeeds on every body whose graph can be built, the graph of the new body has
the same blocks in new places, and the analysis finds the same states.

* `Body.exists_expandWith`: the pass succeeds.
* `Body.Spelled`: where the operations of the new body stand, and which targets they name.
* `FlowGraph.leaders_spelled`: blocks start where blocks started.
* `Fixpoint.expands_of_build`: the problem of the new body is the expansion of the old one.
* `Fixpoint.analyze_expandWith`: the analysis of the new body.
-/

namespace Stackwise

namespace Body

/-! ## 1. The pass succeeds -/

/-- Where the expansion of an instruction starts. -/
def place (is : List Instr) : Nat → Nat := Chunk.start (is.map expandedChunk)

theorem place_succ {is : List Instr} {o : Nat} {i : Instr} (hi : is[o]? = some i) :
    place is (o + 1) = place is o + (expandOp i.op).length := by
  refine Chunk.start_succ (c := expandedChunk i) ?_
  rw [List.getElem?_map, hi]
  rfl

theorem place_lt {is : List Instr} {o o' : Nat} (hlt : o < o') (ho : o' ≤ is.length) :
    place is o < place is o' := by
  have hnext : place is (o + 1) ≤ place is o' := Chunk.start_mono _ hlt
  have ho₁ : o < is.length := Nat.lt_of_lt_of_le hlt ho
  have hpos : 0 < (expandOp is[o].op).length := enteredOps_pos true _
  rw [place_succ (List.getElem?_eq_getElem ho₁)] at hnext
  omega

theorem le_place {is : List Instr} {o : Nat} (ho : o ≤ is.length) : o ≤ place is o := by
  induction o with
  | zero => exact Nat.zero_le _
  | succ o ih =>
    have hlt := place_lt (Nat.lt_succ_self o) ho
    exact Nat.lt_of_le_of_lt (ih (Nat.le_of_succ_le ho)) hlt

/-- Each operation of an expansion names what the operation names, and only the last one of them
does, or ends a block. -/
theorem expandOp_cases {op op' : Op} {j : Nat} (h : (expandOp op)[j]? = some op') :
    (j + 1 = (expandOp op).length ∧ op'.targets = op.targets
      ∧ FlowGraph.endsBlock op' = FlowGraph.endsBlock op)
    ∨ (j + 1 < (expandOp op).length ∧ op'.targets = [] ∧ FlowGraph.endsBlock op' = false) := by
  cases hw : op.isWith with
  | false =>
    have hexpand : expandOp op = [op] := enteredOps_eq true hw
    rw [hexpand] at h ⊢
    cases j with
    | zero => cases h; exact .inl ⟨rfl, rfl, rfl⟩
    | succ j => cases h
  | true =>
    obtain ⟨handler, rfl⟩ := Op.exists_of_isWith hw
    rcases j with _ | _ | _ | _ | _ | _ | j <;> cases h
    all_goals first
      | exact .inl ⟨rfl, rfl, rfl⟩
      | exact .inr ⟨by simp [expandOp], rfl, rfl⟩

theorem expandOp_dispatch {op op' : Op} (hop : op.isSwitch = false) (h : op' ∈ expandOp op) :
    op'.isDispatch = false := by
  cases hw : op.isWith with
  | false =>
    rw [show expandOp op = [op] from enteredOps_eq true hw, List.mem_singleton] at h
    rw [h]
    exact Op.isDispatch_of_plain hop
  | true =>
    obtain ⟨handler, rfl⟩ := Op.exists_of_isWith hw
    exact (expandOp_plain h).1

/-- **Spelling out `with` succeeds** if every operation names an offset of the body. -/
theorem exists_expandWith {is : List Instr} (hd : Dense is) (hplain : Plain is)
    (hbound : ∀ i ∈ is, ∀ t ∈ i.op.targets, t < is.length) :
    ∃ out map, expandWith is = .ok (out, map) := by
  have hdispatch : ∀ op ∈ (expanded is .empty).ops, op.isDispatch = false := by
    intro op hop
    obtain ⟨i, hi, hop⟩ := mem_ops_expanded.mp hop
    exact expandOp_dispatch (hplain i hi) hop
  have hmapped : ∀ op ∈ (expanded is .empty).ops, ∀ t ∈ op.targets,
      ((expanded is .empty).map.get? t).isSome = true := by
    intro op hop t ht
    obtain ⟨i, hi, hop⟩ := mem_ops_expanded.mp hop
    obtain ⟨j, hj⟩ := List.mem_iff_getElem?.mp hop
    have hlt : t < is.length := by
      rcases expandOp_cases hj with ⟨-, htargets, -⟩ | ⟨-, hnone, -⟩
      · exact hbound i hi t (htargets ▸ ht)
      · rw [hnone] at ht
        cases ht
    have hchunk : (is.map expandedChunk)[t]? = some (expandedChunk is[t]) := by
      rw [List.getElem?_map, List.getElem?_eq_getElem hlt]
      rfl
    have hholds := holds_expanded hd
    have hmap := hholds.map hchunk
    rw [hholds.size, Nat.zero_add, Nat.zero_add,
      if_pos (Chunk.start_lt hchunk (enteredOps_pos true _)),
      show (expandedChunk is[t]).old = t from hd t _ (List.getElem?_eq_getElem hlt)] at hmap
    rw [hmap]
    rfl
  obtain ⟨out, hout⟩ := BodyWriter.finish_ok hdispatch hmapped
  exact ⟨out, _, hout⟩

/-! ## 2. The new body -/

/-- A body with `with` spelled out: the instructions of `out` are those of the expansions, with
targets moved. -/
structure Spelled (is out : List Instr) (map : OffsetMap) : Prop where
  dense : Dense out
  plain : Plain out
  length : out.length = place is is.length
  image : ∀ o < is.length, map.get? o = some (place is o)
  entry : ∀ {o i j op}, is[o]? = some i → (expandOp i.op)[j]? = some op →
    ∃ i', out[place is o + j]? = some i' ∧ i'.op = op.retarget map.image

theorem expandWith_spelled {c : CodeObject} {is out : List Instr} {map : OffsetMap}
    (hfits : Fits c is) (hplain : Plain is) (h : expandWith is = .ok (out, map)) :
    Spelled is out map := by
  obtain ⟨-, hplain'⟩ := expandWith_fits hfits hplain h
  have hlaid : Laid 0 (is.map (enteredChunk true)) out map := expandWith_laid hfits.dense h
  refine ⟨hlaid.dense, hplain', ?_, fun o ho => ?_, fun {o i j op} hi hj => ?_⟩
  · rw [hlaid.length, Nat.zero_add, List.length_map]
    rfl
  · exact (image_entered hfits.dense hlaid (List.getElem?_eq_getElem ho)).2
  · have hchunk : (is.map expandedChunk)[o]? = some (expandedChunk i) := by
      rw [List.getElem?_map, hi]
      rfl
    obtain ⟨i', hi', hrelabel, -⟩ := hlaid.entry hchunk hj
    rw [Nat.zero_add] at hi'
    refine ⟨i', hi', ?_⟩
    have hdispatch := expandOp_dispatch (hplain i (List.mem_of_getElem? hi)) (List.mem_of_getElem? hj)
    exact ((Op.relabel_eq_ok hdispatch).mp hrelabel).2

section Spelled

variable {is out : List Instr} {map : OffsetMap} (h : Spelled is out map)
include h

/-- Every instruction of the new body belongs to an expansion. -/
theorem Spelled.exists_of_mem {i' : Instr} (hi' : i' ∈ out) : ∃ o i j op, is[o]? = some i
    ∧ (expandOp i.op)[j]? = some op ∧ i'.op = op.retarget map.image
    ∧ i'.offset = place is o + j := by
  obtain ⟨p, hp⟩ := List.mem_iff_getElem?.mp hi'
  have hlt : p < Chunk.start (is.map expandedChunk) (is.map expandedChunk).length := by
    rw [List.length_map]
    exact Nat.lt_of_lt_of_eq (List.getElem?_eq_some_iff.mp hp).1 h.length
  obtain ⟨o, d, j, op, hd, hj, hpos⟩ := Chunk.exists_of_lt hlt
  rw [List.getElem?_map] at hd
  obtain ⟨i, hi, rfl⟩ := Option.map_eq_some_iff.mp hd
  obtain ⟨i'', hi'', hop⟩ := h.entry hi hj
  rw [show place is o + j = p from hpos.symm, hp] at hi''
  cases hi''
  exact ⟨o, i, j, op, hi, hj, hop, (h.dense p i' hp).trans hpos⟩

theorem Spelled.image_eq {o : Nat} (ho : o < is.length) : map.image o = place is o :=
  OffsetMap.image_eq (h.image o ho)

/-- The new body names no offset outside if the old one did not. -/
theorem Spelled.target_lt (hbound : ∀ i ∈ is, ∀ t ∈ i.op.targets, t < is.length) {i' : Instr}
    (hi' : i' ∈ out) {t' : Nat} (ht' : t' ∈ i'.op.targets) : t' < out.length := by
  obtain ⟨o, i, j, op, hi, hj, hop, -⟩ := h.exists_of_mem hi'
  rw [hop, Op.targets_retarget] at ht'
  rcases expandOp_cases hj with ⟨-, htargets, -⟩ | ⟨-, hnone, -⟩
  · rw [htargets] at ht'
    obtain ⟨t, ht, rfl⟩ := List.mem_map.mp ht'
    have hlt := hbound i (List.mem_of_getElem? hi) t ht
    rw [h.image_eq hlt, h.length]
    exact place_lt hlt (Nat.le_refl _)
  · rw [hnone] at ht'
    cases ht'

theorem Spelled.length_le : is.length ≤ out.length := by
  rw [h.length]
  exact le_place (Nat.le_refl _)

end Spelled

end Body

/-! ## 3. The new graph -/

namespace FlowGraph

theorem mem_leadersOf {i : Instr} (h : i.op.resumed? = none) {o : Nat} :
    o ∈ leadersOf i ↔ o ∈ i.op.targets ∨ endsBlock i.op = true ∧ o = i.offset + 1 := by
  obtain ⟨offset, op, line, origin, mark⟩ := i
  have hnone : leadersOf ⟨offset, op, line, origin, mark⟩
      = op.targets ++ if endsBlock op then [offset + 1] else [] := by
    cases op with
    | resumePoint state => cases h
    | _ => rw [leadersOf, List.append_nil]
  rw [hnone, List.mem_append]
  refine or_congr_right ?_
  split
  · rename_i hends
    rw [List.mem_singleton]
    exact (and_iff_right hends).symm
  · rename_i hends
    exact ⟨fun h => absurd h List.not_mem_nil, fun h => absurd h.1 hends⟩

theorem runs_map (f : Nat → Nat) (n : Nat) (ls : List Nat) :
    runs (f n) (ls.map f)
      = (runs n ls).map fun b => { b with start := f b.start, stop := f b.stop } := by
  fun_induction runs n ls with
  | case1 => rfl
  | case2 a => rfl
  | case3 a b rest ih => exact congrArg _ ih

section Spelled

variable {is out : List Instr} {map : OffsetMap} (hd : Dense is) (hplain : Body.Plain is)
  (h : Body.Spelled is out map)
include hd hplain h

/-- What the expansion of an instruction makes leaders is what the instruction makes leaders, in its
new place. -/
theorem leaders_spelled_of (hbound : ∀ i ∈ is, ∀ t ∈ i.op.targets, t < is.length) {o' : Nat}
    (ho' : o' ∈ leaders out) :
    o' ∈ (leaders is).map (Body.place is) := by
  obtain ⟨hor, hlt⟩ := mem_leaders.mp ho'
  rw [h.length] at hlt
  rw [List.mem_map]
  rcases hor with rfl | ⟨i', hi', hmem⟩
  · refine ⟨0, mem_leaders.mpr ⟨.inl rfl, ?_⟩, rfl⟩
    by_contra hzero
    rw [Nat.eq_zero_of_not_pos hzero] at hlt
    exact Nat.lt_irrefl _ hlt
  · obtain ⟨o, i, j, op, hi, hj, hop, hoffset⟩ := h.exists_of_mem hi'
    have hmemi := List.mem_of_getElem? hi
    have ho := (List.getElem?_eq_some_iff.mp hi).1
    rw [mem_leadersOf (Op.resumed?_of_plain (h.plain i' hi')), hop, Op.targets_retarget,
      Op.endsBlock_retarget, hoffset] at hmem
    rcases Body.expandOp_cases hj with ⟨hlast, htargets, hends⟩ | ⟨-, htargets, hends⟩
    · rw [htargets, hends] at hmem
      have hleads : ∀ {t}, t ∈ leadersOf i
          ↔ t ∈ i.op.targets ∨ endsBlock i.op = true ∧ t = i.offset + 1 :=
        mem_leadersOf (Op.resumed?_of_plain (hplain i hmemi))
      rcases hmem with ht | ⟨hends, rfl⟩
      · obtain ⟨t, hmemt, rfl⟩ := List.mem_map.mp ht
        have htlt := hbound i hmemi t hmemt
        exact ⟨t, mem_leaders.mpr ⟨.inr ⟨i, hmemi, hleads.mpr (.inl hmemt)⟩, htlt⟩,
          (h.image_eq htlt).symm⟩
      · have hnext : Body.place is (o + 1) = Body.place is o + j + 1 := by
          rw [Body.place_succ hi, ← hlast, Nat.add_assoc]
        rw [← hnext] at hlt ⊢
        have hlt' : o + 1 < is.length := by
          refine Nat.lt_of_le_of_ne ho fun heq => ?_
          rw [heq] at hlt
          exact Nat.lt_irrefl _ hlt
        refine ⟨o + 1, mem_leaders.mpr ⟨.inr ⟨i, hmemi, hleads.mpr (.inr ⟨hends, ?_⟩)⟩, hlt'⟩, rfl⟩
        rw [hd o i hi]
    · rw [htargets, hends] at hmem
      rcases hmem with ht | ⟨hends, -⟩
      · cases ht
      · cases hends

theorem mem_leaders_spelled {o : Nat} (ho : o ∈ leaders is) : Body.place is o ∈ leaders out := by
  obtain ⟨hor, hlt⟩ := mem_leaders.mp ho
  refine mem_leaders.mpr ⟨?_, ?_⟩
  · rcases hor with rfl | ⟨i, hi, hmem⟩
    · exact .inl rfl
    · obtain ⟨k, hk⟩ := List.mem_iff_getElem?.mp hi
      have hpos : 0 < (Body.expandOp i.op).length := Body.enteredOps_pos true _
      have hj : (Body.expandOp i.op)[(Body.expandOp i.op).length - 1]?
          = some (Body.expandOp i.op)[(Body.expandOp i.op).length - 1] :=
        List.getElem?_eq_getElem (by omega)
      obtain ⟨i', hi', hop⟩ := h.entry hk hj
      have hmem' := List.mem_of_getElem? hi'
      refine .inr ⟨i', hmem', ?_⟩
      rw [mem_leadersOf (Op.resumed?_of_plain (h.plain i' hmem')), hop, Op.targets_retarget,
        Op.endsBlock_retarget, h.dense _ i' hi']
      rcases Body.expandOp_cases hj with ⟨-, htargets, hends⟩ | ⟨hlt, -⟩
      · rw [htargets, hends]
        rcases (mem_leadersOf (Op.resumed?_of_plain (hplain i hi))).mp hmem with ht | ⟨he, rfl⟩
        · exact .inl (List.mem_map.mpr ⟨o, ht, h.image_eq hlt⟩)
        · refine .inr ⟨he, ?_⟩
          rw [hd k i hk, Body.place_succ hk]
          omega
      · omega
  · rw [h.length]
    exact Body.place_lt hlt (Nat.le_refl _)

/-- **Blocks start where blocks started.** -/
theorem leaders_spelled (hbound : ∀ i ∈ is, ∀ t ∈ i.op.targets, t < is.length) :
    leaders out = (leaders is).map (Body.place is) := by
  have hsorted : ((leaders is).map (Body.place is)).Pairwise (· < ·) :=
    List.pairwise_map.mpr ((cuts_leaders is).1.imp_of_mem fun _ hb hlt =>
      Body.place_lt hlt (mem_leaders.mp hb).2.le)
  have hmem : ∀ o', o' ∈ leaders out ↔ o' ∈ (leaders is).map (Body.place is) := by
    refine fun o' => ⟨leaders_spelled_of hd hplain h hbound, fun ho' => ?_⟩
    obtain ⟨o, ho, rfl⟩ := List.mem_map.mp ho'
    exact mem_leaders_spelled hd hplain h ho
  have hperm := (List.perm_ext_iff_of_nodup ((cuts_leaders out).1.imp Nat.ne_of_lt)
    (hsorted.imp Nat.ne_of_lt)).mpr hmem
  exact hperm.eq_of_pairwise (fun a b _ _ hab hba => absurd hab (Nat.lt_asymm hba))
    (cuts_leaders out).1 hsorted

/-- **The blocks of the new graph** are the old ones in their new places. -/
theorem build_spelled {g g' : FlowGraph} (hg : build is = .ok g) (hg' : build out = .ok g') :
    g'.size = g.size ∧ ∀ b < g.size, (g'.block b).start = Body.place is (g.block b).start
      ∧ (g'.block b).stop = Body.place is (g.block b).stop := by
  have hsame := build_sameRuns hg
  have hsame' := build_sameRuns hg'
  have hruns : runs out.length (leaders out) = (runs is.length (leaders is)).map fun b =>
      { b with start := Body.place is b.start, stop := Body.place is b.stop } := by
    rw [h.length, leaders_spelled hd hplain h fun i hi t ht => build_target_lt hg hi ht, runs_map]
  have hsize : (partition out).size = (partition is).size := by
    simp only [partition, size, List.size_toArray, hruns, List.length_map]
  refine ⟨by rw [hsame'.size, hsame.size, hsize], fun b hb => ?_⟩
  rw [hsame.size] at hb
  have hblock : (runs out.length (leaders out))[b]? = some ((partition out).block b) :=
    partition_block (hsize ▸ hb)
  rw [hruns, List.getElem?_map, partition_block hb] at hblock
  rw [hsame'.start, hsame'.stop, hsame.start, hsame.stop, ← Option.some.inj hblock]
  exact ⟨rfl, rfl⟩

end Spelled

/-- A graph can be built of a body that names no offset outside. -/
theorem exists_build {is : List Instr} (hne : is ≠ [])
    (hbound : ∀ i ∈ is, ∀ t ∈ i.op.targets, t < is.length) : ∃ g, build is = .ok g := by
  have hstray : strayTarget? is.length is = none := by
    refine List.findSome?_eq_none_iff.mpr fun i hi => ?_
    rw [Option.map_eq_none_iff, List.find?_eq_none]
    intro t ht
    simpa using hbound i hi t ht
  unfold build
  rw [if_neg (by rw [List.isEmpty_iff]; exact hne), hstray]
  exact ⟨_, rfl⟩

end FlowGraph

/-! ## 4. The analysis -/

namespace Fixpoint

section Analysis

variable {is out : List Instr} {map : OffsetMap} {g g' : FlowGraph} {ty : Typer}

/-- The problem of the new body is the expansion of the old one. -/
theorem expands_of_build (hd : Dense is) (hplain : Body.Plain is) (h : Body.Spelled is out map)
    (hg : FlowGraph.build is = .ok g) (hg' : FlowGraph.build out = .ok g') :
    Expands map.image (Body.place is) ⟨is.toArray, g, ty⟩ ⟨out.toArray, g', ty⟩ := by
  obtain ⟨hsize, hblocks⟩ := FlowGraph.build_spelled hd hplain h hg hg'
  refine ⟨rfl, wellFormed_of_build hd hg, wellFormed_of_build h.dense hg', ?_, ?_, ?_, ?_, ?_, hsize,
    fun b hb => (hblocks b hb).1, fun b hb => (hblocks b hb).2⟩
  · intro o ho
    rw [List.size_toArray] at ho
    exact h.image_eq ho
  · intro o o' hlt ho
    rw [List.size_toArray] at ho
    exact Body.place_lt hlt ho
  · rw [List.size_toArray, List.size_toArray]
    exact h.length
  · intro o i hi
    rw [List.getElem?_toArray] at hi
    exact Body.place_succ hi
  · intro o i j op hi hj
    rw [List.getElem?_toArray] at hi ⊢
    exact h.entry hi hj

/-- An analysis is a run of the iteration. -/
theorem analyze_eq_ok {entry : AbstractState} {a : Analysis} :
    analyze ty is g entry = .ok a
      ↔ ∃ left p, iterate ⟨is.toArray, g, ty⟩ (stepBound ty.config ty.model g.size is.length entry)
          (stepBound ty.config ty.model g.size is.length entry) (start g is.toArray.size entry)
          = .ok (left, p)
        ∧ a = ⟨p.states, p.exceptionEdges,
          stepBound ty.config ty.model g.size is.length entry - left⟩ := by
  rw [List.size_toArray]
  constructor
  · intro h
    obtain ⟨⟨left, p⟩, hit, h⟩ := bind_eq_ok.mp h
    cases h
    exact ⟨left, p, hit, rfl⟩
  · rintro ⟨left, p, hit, rfl⟩
    exact bind_eq_ok.mpr ⟨(left, p), hit, rfl⟩

/-- A longer body of as many blocks is granted as many visits, or more. -/
theorem stepBound_mono (config : Config) (m : TypeModel) (blocks : Nat) {n n' : Nat} (h : n ≤ n')
    (entry : AbstractState) (f : Nat → Nat) :
    stepBound config m blocks n entry ≤ stepBound config m blocks n' (entry.retarget f) := by
  unfold stepBound
  cases config.maxSteps with
  | some k => exact Nat.le_refl k
  | none =>
    dsimp only
    have hslots : entry.locals.length + entry.cells.length + n + 1
        ≤ (entry.retarget f).locals.length + (entry.retarget f).cells.length + n' + 1 :=
      Nat.add_le_add_right (Nat.add_le_add_left h _) 1
    have hmul := Nat.mul_le_mul_left blocks
      (Nat.add_le_add_left (Nat.mul_le_mul_right (m.maxDepth + 2) hslots) 1)
    omega

/-- **The analysis of a spelled out body** takes as many visits and finds the moved states. -/
theorem analyze_spelled {entry : AbstractState} {a : Analysis} (hm : ty.model.Built)
    (hd : Dense is) (hplain : Body.Plain is) (hs : Body.Spelled is out map)
    (hg : FlowGraph.build is = .ok g) (hg' : FlowGraph.build out = .ok g')
    (hlive : entry.dead = false) (h : analyze ty is g entry = .ok a)
    (hinside : EntersInside ⟨is.toArray, g, ty⟩ a.state) :
    ∃ a', analyze ty out g' (entry.retarget map.image) = .ok a' ∧ a'.steps = a.steps
      ∧ ∀ o < is.length, a'.state (Body.place is o) = (a.state o).retarget map.image := by
  have hq : Expands map.image (Body.place is) ⟨is.toArray, g, ty⟩ ⟨out.toArray, g', ty⟩ :=
    expands_of_build hd hplain hs hg hg'
  have hR := AbstractState.ascending_isWithin hm.ordered
  obtain ⟨left, p, hit, rfl⟩ := analyze_eq_ok.mp h
  obtain ⟨hsize, hzero, -⟩ := FlowGraph.build_block_zero hg
  obtain ⟨extra, hextra⟩ := Nat.exists_eq_add_of_le
    (stepBound_mono ty.config ty.model g.size hs.length_le entry map.image)
  have hinv : Inv ⟨is.toArray, g, ty⟩ _ entry (start g is.toArray.size entry) :=
    start_inv hR hlive hsize hzero
  obtain ⟨p', hit', hmirror⟩ := (start_mirrored hq entry).iterate hq hm hR hinv
    (stepBound ty.config ty.model g.size out.length (entry.retarget map.image)) extra hinside hit
  rw [← hextra, show g.size = g'.size from hq.blocks.symm] at hit'
  refine ⟨_, analyze_eq_ok.mpr ⟨_, p', hit', rfl⟩, ?_, ?_⟩
  · rw [show g'.size = g.size from hq.blocks, hextra]
    exact Nat.add_sub_add_right ..
  · intro o ho
    exact hmirror.states o (by rw [List.size_toArray]; exact ho)

/-- **Spelling out `with` preserves the analysis.** Take a body that was decoded, a model that
declarations built and a live state at the entry. If the analysis succeeds, and every `with` block
that is reached is entered with more on the stack than the level of the innermost protected block
around it, then `with` can be spelled out, the analysis of the new body succeeds with as many steps,
and it finds at the image of each offset the state that was found at the offset, with the handlers of
its blocks moved. -/
theorem analyze_expandWith {c : CodeObject} {is : List Instr} {offsets : OffsetMap} {ty : Typer}
    {g : FlowGraph} {entry : AbstractState} {a : Analysis} (hdecode : Body.decode c = .ok (is, offsets))
    (hm : ty.model.Built) (hlive : entry.dead = false) (hg : FlowGraph.build is = .ok g)
    (h : analyze ty is g entry = .ok a)
    (hinside : ∀ o i handler, is[o]? = some i → i.op = .setupWith handler →
      (a.state o).dead = false → ∀ u, (a.state o).unwind? = some u → u.level < (a.state o).depth) :
    ∃ out map g' a', Body.expandWith is = .ok (out, map) ∧ FlowGraph.build out = .ok g'
      ∧ analyze ty out g' (entry.retarget map.image) = .ok a' ∧ a'.steps = a.steps
      ∧ ∀ o < is.length, ∃ o', map.get? o = some o'
        ∧ a'.state o' = (a.state o).retarget map.image := by
  obtain ⟨hfits, hplain⟩ := Body.decode_fits hdecode
  have hbound : ∀ i ∈ is, ∀ t ∈ i.op.targets, t < is.length :=
    fun i hi t ht => FlowGraph.build_target_lt hg hi ht
  obtain ⟨out, map, hout⟩ := Body.exists_expandWith hfits.dense hplain hbound
  have hs := Body.expandWith_spelled hfits hplain hout
  have hne : out ≠ [] := by
    rintro rfl
    exact (FlowGraph.build_eq_ok hg).1 (List.eq_nil_of_length_eq_zero (Nat.le_zero.mp hs.length_le))
  obtain ⟨g', hg'⟩ := FlowGraph.exists_build hne fun i' hi' t' ht' => hs.target_lt hbound hi' ht'
  have hinside' : EntersInside ⟨is.toArray, g, ty⟩ a.state := by
    intro o i handler hi
    rw [List.getElem?_toArray] at hi
    exact hinside o i handler hi
  obtain ⟨a', ha', hsteps, hstates⟩ :=
    analyze_spelled hm hfits.dense hplain hs hg hg' hlive h hinside'
  exact ⟨out, map, g', a', hout, hg', ha', hsteps,
    fun o ho => ⟨_, hs.image o ho, hstates o ho⟩⟩

/-- A `with` statement in a `try` statement: `try: with None: return None`. -/
def guardedWith : CodeObject :=
  { CodeObject.blank 0 "f" "f.py" with
    code := [122, 8, 100, 0, 143, 4, 1, 0, 87, 0, 100, 0, 83, 0, 100, 0, 83, 0, 100, 0, 83, 0]
    constants := [.none] }

/-- Its context manager is pushed inside the `try` statement. The handler of the `with` statement, at
7, still runs inside the `try` statement, whose handler has moved with the rest. -/
theorem analyze_expandWith_guardedWith : ∃ is offsets g a out map g' a',
    Body.decode guardedWith = .ok (is, offsets) ∧ FlowGraph.build is = .ok g
      ∧ analyze ⟨TypeModel.empty, [.none], {}⟩ is g (.entry [] 0) = .ok a
      ∧ Body.expandWith is = .ok (out, map) ∧ FlowGraph.build out = .ok g'
      ∧ analyze ⟨TypeModel.empty, [.none], {}⟩ out g' (.entry [] 0) = .ok a' ∧ a'.steps = 5
      ∧ ∃ o', map.get? 7 = some o'
        ∧ (a'.state o').blocks = [.handling 1, .protect (map.image 9) 0 .tryBlock] := by
  have hrun : (match Body.decode guardedWith with
      | .error _ => false
      | .ok (is, _) => match FlowGraph.build is with
        | .error _ => false
        | .ok g => match analyze ⟨TypeModel.empty, [.none], {}⟩ is g (.entry [] 0) with
          | .error _ => false
          | .ok a => is.length == 11 && a.steps == 5
            && (a.state 7).blocks == [.handling 1, .protect 9 0 .tryBlock]
            && decide (∀ o < is.length, is[o]?.any (·.op.isWith) = true →
              (a.state o).unwind?.all (·.level < (a.state o).depth) = true)) = true := by
    simp only [Body.decode, InstructionStream.decode, InstructionStream.strayJump?_eq]
    decide +kernel
  split at hrun
  · cases hrun
  rename_i is offsets hdecode
  split at hrun
  · cases hrun
  rename_i g hg
  split at hrun
  · cases hrun
  rename_i a ha
  simp only [Bool.and_eq_true, beq_iff_eq, decide_eq_true_eq] at hrun
  obtain ⟨⟨⟨hlength, hfive⟩, hblocks⟩, hall⟩ := hrun
  have hinside : ∀ o i handler, is[o]? = some i → i.op = .setupWith handler →
      (a.state o).dead = false → ∀ u, (a.state o).unwind? = some u →
        u.level < (a.state o).depth := by
    intro o i handler hi hop _ u hu
    have hlevel := hall o (List.getElem?_eq_some_iff.mp hi).1 (by rw [hi]; simp [hop, Op.isWith])
    rw [hu] at hlevel
    simpa using hlevel
  obtain ⟨out, map, g', a', hout, hg', ha', hsteps, hstates⟩ :=
    analyze_expandWith hdecode .empty rfl hg ha hinside
  rw [AbstractState.retarget_of_nil rfl] at ha'
  obtain ⟨o', ho', hstate⟩ := hstates 7 (by omega)
  refine ⟨is, offsets, g, a, out, map, g', a', hdecode, hg, ha, hout, hg', ha', hsteps.trans hfive,
    o', ho', ?_⟩
  rw [hstate]
  exact congrArg (List.map _) hblocks

end Analysis

end Fixpoint

end Stackwise
