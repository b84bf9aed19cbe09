import Stackwise.Proofs.Analysis.Suspensions
import Stackwise.Proofs.Body.Passes
import Stackwise.Proofs.Bytecode.Streams

/-!
# What becomes of the body of a generator

The pass over generators, instruction by instruction. The states are numbered by one pass over the
body, the targets are moved by another, the dispatcher is filled by a third, and the layout is read
off the result by a fourth: here they are shown to agree.

* `Body.yieldState`, `Body.moved`: the state of a yield, and the new offset of an instruction, both
  by counting what stands before it.
* `Body.Transformed`: what stands where, and that nothing else does.
* `Body.Described`: the layout lists the states with the offsets at which they stand.
* `Body.toStateMachine_transformed`: both hold of the result, whatever is known of it.
-/

namespace Stackwise

namespace Body

/-! ## 1. Counting -/

/-- Whether an instruction hands a value to the caller of the generator. -/
def yields (i : Instr) : Bool := i.op.isYield

/-- The number of yields of a body. -/
def yieldCount (is : List Instr) : Nat := is.countP yields

/-- The state of the yield at an offset: yields are numbered from one in program order. -/
def yieldState (is : List Instr) (o : Nat) : Nat := yieldCount (is.take o) + 1

/-- The number of instructions that stand for one. -/
def width (i : Instr) : Nat :=
  match i.op with
  | .genStart _ => 0
  | .yieldValue => 2
  | .yieldFrom => 3
  | _ => 1

/-- The new offset of the instruction at an offset: the dispatcher and what stands for the
instructions before. -/
def moved (is : List Instr) (o : Nat) : Nat := 1 + ((is.take o).map width).sum

variable {is out : List Instr} {map : OffsetMap} {i j : Instr} {o k p state : Nat}

theorem width_eq (state : Nat) (i : Instr) : (stateChunk state i).1.length = width i := by
  obtain ⟨offset, op, line, origin, mark⟩ := i
  cases op <;> rfl

theorem stateChunk_snd (state : Nat) (i : Instr) :
    (stateChunk state i).2 = state + yieldCount [i] := by
  obtain ⟨offset, op, line, origin, mark⟩ := i
  cases op <;> rfl

/-- The chunk of an instruction has the state that counts the yields before it. -/
theorem getElem?_stateChunks_yieldState (hk : is[k]? = some i) : (stateChunks state is)[k]?
    = some ⟨i.offset, (stateChunk (state + yieldCount (is.take k)) i).1, i.line, i.origin⟩ := by
  induction is generalizing state k with
  | nil => cases hk
  | cons j is ih =>
    cases k with
    | zero =>
      cases hk
      rfl
    | succ k =>
      have hcount : yieldCount ((j :: is).take (k + 1))
          = yieldCount [j] + yieldCount (is.take k) := by
        rw [List.take_succ_cons, yieldCount, ← List.singleton_append, List.countP_append]
        rfl
      rw [hcount, ← Nat.add_assoc, ← stateChunk_snd]
      exact ih hk

theorem start_stateChunks (state : Nat) (is : List Instr) (k : Nat) :
    1 + Chunk.start (stateChunks state is) k = moved is k := by
  rw [moved]
  congr 1
  induction is generalizing state k with
  | nil => simp [Chunk.start, stateChunks]
  | cons i is ih =>
    cases k with
    | zero => rfl
    | succ k =>
      have hrest := ih (stateChunk state i).2 k
      rw [Chunk.start] at hrest ⊢
      rw [stateChunks, List.take_succ_cons, List.map_cons, List.sum_cons, List.take_succ_cons,
        List.map_cons, List.sum_cons, hrest, width_eq]

theorem length_stateChunks (state : Nat) (is : List Instr) :
    (stateChunks state is).length = is.length := by
  induction is generalizing state with
  | nil => rfl
  | cons i is ih => rw [stateChunks, List.length_cons, List.length_cons, ih]

theorem moved_succ (ho : is[o]? = some i) : moved is (o + 1) = moved is o + width i := by
  rw [moved, moved, List.take_add_one, ho, List.map_append, List.sum_append, Nat.add_assoc]
  rfl

/-- The states of yields are in the range of their count. -/
theorem yieldState_le (ho : is[o]? = some i) (hi : yields i = true) :
    yieldState is o ≤ yieldCount is := by
  have htake : yieldCount (is.take (o + 1)) = yieldState is o := by
    rw [yieldState, yieldCount, List.take_add_one, ho, List.countP_append]
    simp [yieldCount, hi]
  rw [← htake]
  exact (List.take_sublist _ _).countP_le

/-- The last yield has the largest state. -/
theorem exists_last_yield (h : 0 < yieldCount is) :
    ∃ o i, is[o]? = some i ∧ yields i = true ∧ yieldState is o = yieldCount is := by
  induction is using List.reverseRecOn with
  | nil => cases h
  | append_singleton is j ih =>
    have hcount : yieldCount (is ++ [j]) = yieldCount is + yieldCount [j] := List.countP_append
    cases hj : yields j with
    | true =>
      refine ⟨is.length, j, List.getElem?_concat_length, hj, ?_⟩
      rw [yieldState, List.take_left, hcount]
      simp [yieldCount, hj]
    | false =>
      have hlast : yieldCount (is ++ [j]) = yieldCount is := by
        rw [hcount]
        simp [yieldCount, hj]
      rw [hlast] at h ⊢
      obtain ⟨o, i, ho, hi, hstate⟩ := ih h
      have hlt := (List.getElem?_eq_some_iff.mp ho).1
      refine ⟨o, i, ?_, hi, ?_⟩
      · rw [List.getElem?_append_left hlt, ho]
      · rw [← hstate, yieldState, List.take_append_of_le_length hlt.le, yieldState]

/-! ## 2. What stands where -/

/-- An operation stands at an offset, with the source line and the origin of an instruction. -/
def Stands (out : List Instr) (p : Nat) (op : Op) (i : Instr) : Prop :=
  ∃ j, out[p]? = some j ∧ j.offset = p ∧ j.op = op ∧ j.line = i.line ∧ j.origin = i.origin

/-- The body of a generator and its state machine. -/
structure Transformed (is out : List Instr) (map : OffsetMap) : Prop where
  /-- The dispatcher stands in front of everything and lists the resume points. -/
  dispatcher : ∃ i, out[0]? = some i ∧ i.op = .resumeDispatch (resumePoints out)
  /-- A state is listed with the offset of its resume point. -/
  points : ∀ k o, (k, o) ∈ resumePoints out ↔ ∃ j, out[o]? = some j ∧ j.op = .resumePoint k
  /-- The states are counted from one. -/
  states : (resumePoints out).map (·.1) = List.range' 1 (yieldCount is)
  /-- An old offset maps to the first instruction that stands for it. -/
  image : ∀ o i, is[o]? = some i → i.op.isGenStart = false →
    map.get? o = some (moved is o)
  /-- An instruction that disappears maps to where the next one maps. -/
  dropped : ∀ o i, is[o]? = some i → i.op.isGenStart = true → o + 1 < is.length →
    map.get? o = map.get? (o + 1)
  /-- A yield of a value is a suspension and its resume point. -/
  yieldValue : ∀ o i, is[o]? = some i → i.op = .yieldValue →
    Stands out (moved is o) (.suspend (yieldState is o)) i
      ∧ Stands out (moved is o + 1) (.resumePoint (yieldState is o)) i
  /-- A delegation is a loop; it is left for the image of the offset behind it. -/
  yieldFrom : ∀ o i, is[o]? = some i → i.op = .yieldFrom → ∃ exit, map.get? (o + 1) = some exit
    ∧ Stands out (moved is o) (.delegate (yieldState is o) exit) i
    ∧ Stands out (moved is o + 1) (.resumePoint (yieldState is o)) i
    ∧ Stands out (moved is o + 2) (.jump (moved is o)) i
  /-- Any other instruction stays as it is, with its targets moved. -/
  kept : ∀ o i, is[o]? = some i → i.op.isGenStart = false → yields i = false →
    Stands out (moved is o) (i.op.retarget map.image) i
      ∧ ∀ t ∈ i.op.targets, map.get? t = some (map.image t)
  /-- Nothing else stands behind the dispatcher, in the order of the body. -/
  behind : ∀ p, 0 < p → p < out.length → ∃ o i, is[o]? = some i
    ∧ moved is o ≤ p ∧ p < moved is (o + 1)
  /-- A resume point follows the suspension of its state. -/
  resumed : ∀ p j k, out[p]? = some j → j.op = .resumePoint k → ∃ q i, p = q + 1
    ∧ out[q]? = some i ∧ (i.op = .suspend k ∨ ∃ exit, i.op = .delegate k exit)
  /-- What is no dispatcher has neither the dispatcher nor a resume point as a target. -/
  inner : ∀ p i, out[p]? = some i → 0 < p → ∀ t ∈ i.op.targets, 0 < t
    ∧ ∀ j k, out[t]? = some j → j.op ≠ .resumePoint k

/-- The layout of a state machine lists the states in their order, with the offsets of the
suspension and the resume point, and with the delegations marked. -/
structure Described (is : List Instr) (l : GeneratorLayout) : Prop where
  ids : l.states.map (·.id) = List.range' 1 (yieldCount is)
  state : ∀ o i, is[o]? = some i → yields i = true → ∃ s, l.state? (yieldState is o) = some s
    ∧ s.id = yieldState is o ∧ s.suspend = moved is o ∧ s.resume = moved is o + 1
    ∧ (s.delegates = true ↔ i.op = .yieldFrom)

/-! ## 3. The pass -/

theorem width_pos (hi : i.op.isGenStart = false) : 0 < width i := by
  obtain ⟨offset, op, line, origin, mark⟩ := i
  cases op <;> first | exact Nat.succ_pos _ | cases hi

theorem width_zero (hi : i.op.isGenStart = true) : width i = 0 := by
  obtain ⟨offset, op, line, origin, mark⟩ := i
  cases op <;> first | rfl | cases hi

theorem chunk_at (hd : Dense is) (ho : is[o]? = some i) : (stateChunks 1 is)[o]?
    = some ⟨o, (stateChunk (yieldState is o) i).1, i.line, i.origin⟩ := by
  rw [getElem?_stateChunks_yieldState ho, hd o i ho, yieldState, Nat.add_comm]

section Pass

variable (hd : Dense is) (hl : Laid 1 (stateChunks 1 is) out map)

include hd hl

theorem map_at (ho : is[o]? = some i) : map.get? o
    = if moved is o < out.length then some (moved is o) else none := by
  rw [← start_stateChunks 1 is o]
  exact hl.map (chunk_at hd ho)

/-- What was written for an instruction, its targets moved. -/
theorem stands_at (ho : is[o]? = some i) {n : Nat} {op : Op}
    (hop : (stateChunk (yieldState is o) i).1[n]? = some op) (hplain : op.isDispatch = false) :
    Stands out (moved is o + n) (op.retarget map.image) i
      ∧ ∀ t ∈ op.targets, map.get? t = some (map.image t) := by
  obtain ⟨j, hj, hrelabel, hline, horigin⟩ := hl.entry (chunk_at hd ho) hop
  rw [start_stateChunks] at hj
  obtain ⟨hmapped, hj'⟩ := (Op.relabel_eq_ok hplain).mp hrelabel
  refine ⟨⟨j, hj, hl.dense _ j hj, hj', hline, horigin⟩, fun t ht => ?_⟩
  obtain ⟨new, hnew⟩ := Option.isSome_iff_exists.mp (hmapped t ht)
  rw [OffsetMap.image_eq hnew, hnew]

theorem image_at (ho : is[o]? = some i) (hi : i.op.isGenStart = false) :
    map.get? o = some (moved is o) := by
  rw [map_at hd hl ho, if_pos]
  have hlt := Chunk.start_lt (chunk_at hd ho) (by rw [width_eq]; exact width_pos hi)
  rw [hl.length, ← start_stateChunks 1 is o]
  exact Nat.add_lt_add_left hlt 1

theorem dropped_at (ho : is[o]? = some i) (hi : i.op.isGenStart = true) (hlt : o + 1 < is.length) :
    map.get? o = map.get? (o + 1) := by
  have hplace : moved is (o + 1) = moved is o := by
    rw [moved_succ ho, width_zero hi, Nat.add_zero]
  rw [map_at hd hl ho, map_at hd hl (List.getElem?_eq_getElem hlt), hplace]

theorem yieldValue_at (ho : is[o]? = some i) (hop : i.op = .yieldValue) :
    Stands out (moved is o) (.suspend (yieldState is o)) i
      ∧ Stands out (moved is o + 1) (.resumePoint (yieldState is o)) i := by
  have hchunk : (stateChunk (yieldState is o) i).1
      = [.suspend (yieldState is o), .resumePoint (yieldState is o)] := by
    rw [stateChunk, hop]
  constructor
  · exact (stands_at hd hl ho (n := 0) (by rw [hchunk]; rfl) rfl).1
  · exact (stands_at hd hl ho (n := 1) (by rw [hchunk]; rfl) rfl).1

theorem yieldFrom_at (ho : is[o]? = some i) (hop : i.op = .yieldFrom) :
    ∃ exit, map.get? (o + 1) = some exit
      ∧ Stands out (moved is o) (.delegate (yieldState is o) exit) i
      ∧ Stands out (moved is o + 1) (.resumePoint (yieldState is o)) i
      ∧ Stands out (moved is o + 2) (.jump (moved is o)) i := by
  have hchunk : (stateChunk (yieldState is o) i).1 = [.delegate (yieldState is o) (o + 1),
      .resumePoint (yieldState is o), .jump o] := by
    rw [stateChunk, hop, hd o i ho]
  have himage : map.image o = moved is o :=
    OffsetMap.image_eq (image_at hd hl ho (by rw [hop]; rfl))
  obtain ⟨hdelegate, hexit⟩ := stands_at hd hl ho (n := 0) (by rw [hchunk]; rfl) rfl
  obtain ⟨hpoint, -⟩ := stands_at hd hl ho (n := 1) (by rw [hchunk]; rfl) rfl
  obtain ⟨hjump, -⟩ := stands_at hd hl ho (n := 2) (by rw [hchunk]; rfl) rfl
  refine ⟨_, hexit (o + 1) (.head _), hdelegate, hpoint, ?_⟩
  rw [Op.retarget, himage] at hjump
  exact hjump

theorem kept_at (hplain : Plain is) (ho : is[o]? = some i) (hgen : i.op.isGenStart = false)
    (hyield : yields i = false) : Stands out (moved is o) (i.op.retarget map.image) i
      ∧ ∀ t ∈ i.op.targets, map.get? t = some (map.image t) := by
  have hchunk : (stateChunk (yieldState is o) i).1 = [i.op] :=
    (suspended_stateChunk _ i).plain (by rw [hgen]; rfl) hyield
  have hget : (stateChunk (yieldState is o) i).1[0]? = some i.op := by
    rw [hchunk]
    rfl
  exact stands_at hd hl ho hget (Op.isDispatch_of_plain (hplain i (List.mem_of_getElem? ho)))

/-- What stands behind the dispatcher was written for an instruction. -/
theorem exists_chunk (hpos : 0 < p) (hp : p < out.length) : ∃ o i n op, is[o]? = some i
    ∧ (stateChunk (yieldState is o) i).1[n]? = some op ∧ p = moved is o + n := by
  rw [hl.length] at hp
  have hinner : p - 1 < Chunk.start (stateChunks 1 is) (stateChunks 1 is).length := by omega
  obtain ⟨o, c, n, op, hc, hop, hpo⟩ := Chunk.exists_of_lt hinner
  have hlt : o < is.length := by
    rw [← length_stateChunks 1 is]
    exact (List.getElem?_eq_some_iff.mp hc).1
  have ho := List.getElem?_eq_getElem hlt
  cases (chunk_at hd ho).symm.trans hc
  refine ⟨o, _, n, op, ho, hop, ?_⟩
  rw [← start_stateChunks 1 is o]
  omega

theorem exists_behind (hpos : 0 < p) (hp : p < out.length) :
    ∃ o i, is[o]? = some i ∧ moved is o ≤ p ∧ p < moved is (o + 1) := by
  obtain ⟨o, i, n, op, ho, hop, rfl⟩ := exists_chunk hd hl hpos hp
  have hn := (List.getElem?_eq_some_iff.mp hop).1
  rw [width_eq] at hn
  refine ⟨o, i, ho, Nat.le_add_right _ _, ?_⟩
  rw [moved_succ ho]
  exact Nat.add_lt_add_left hn _

/-- The resume points are those of the yields. -/
theorem resumePoint_of_yield (ho : is[o]? = some i) (hi : yields i = true) :
    Stands out (moved is o + 1) (.resumePoint (yieldState is o)) i := by
  cases hop : i.op with
  | yieldValue => exact (yieldValue_at hd hl ho hop).2
  | yieldFrom =>
    obtain ⟨exit, -, -, hpoint, -⟩ := yieldFrom_at hd hl ho hop
    exact hpoint
  | _ =>
    rw [yields, hop] at hi
    cases hi

theorem yield_of_resumePoint (hplain : Plain is) (hpos : 0 < p) (hp : out[p]? = some j)
    (hj : j.op = .resumePoint k) :
    ∃ o i, is[o]? = some i ∧ yields i = true ∧ yieldState is o = k := by
  obtain ⟨o, i, n, op, ho, hop, rfl⟩ :=
    exists_chunk hd hl hpos (List.getElem?_eq_some_iff.mp hp).1
  obtain ⟨j', hj', hrelabel, -, -⟩ := hl.entry (chunk_at hd ho) hop
  rw [start_stateChunks, hp] at hj'
  cases hj'
  have hresumed : op.resumed? = some k := by
    rw [← (Op.relabel_like hrelabel).resumed, hj]
    rfl
  have hmem := List.mem_of_getElem? hop
  unfold stateChunk at hmem
  split at hmem
  · cases hmem
  · rename_i hyield
    refine ⟨o, i, ho, by rw [yields, hyield]; rfl, ?_⟩
    simp only [List.mem_cons, List.not_mem_nil, or_false] at hmem
    rcases hmem with rfl | rfl
    · cases hresumed
    · exact Option.some.inj hresumed
  · rename_i hyield
    refine ⟨o, i, ho, by rw [yields, hyield]; rfl, ?_⟩
    simp only [List.mem_cons, List.not_mem_nil, or_false] at hmem
    rcases hmem with rfl | rfl | rfl
    · cases hresumed
    · exact Option.some.inj hresumed
    · cases hresumed
  · rw [List.mem_singleton.mp hmem,
      Op.resumed?_of_plain (hplain i (List.mem_of_getElem? ho))] at hresumed
    cases hresumed

end Pass

/-- The targets of what is no dispatcher. -/
theorem target_of_mem {op : Op} {t : Nat} (hop : op.isDispatch = false) (ht : t ∈ op.targets) :
    op.branchTarget? = some t ∨ op.handlerTarget? = some t := by
  unfold Op.targets at ht
  rw [List.mem_append, List.mem_append, Option.mem_toList, Option.mem_toList] at ht
  rcases ht with (ht | ht) | ht
  · exact .inl ht
  · exact .inr ht
  · cases op with
    | resumeDispatch states => cases hop
    | _ => cases ht

/-- The states are counted from one, up to the number of yields. -/
theorem states_transformed (hd : Dense is) (hl : Laid 1 (stateChunks 1 is) out map)
    (hplain : Plain is) (hm : StateMachine out) :
    (resumePoints out).map (·.1) = List.range' 1 (yieldCount is) := by
  obtain ⟨m, hstates⟩ := hm.states
  have hmem : ∀ {k}, k ∈ List.range' 1 m ↔ ∃ (p : Nat) (j : Instr), out[p]? = some j
      ∧ j.op = .resumePoint k := by
    intro k
    rw [← hstates, List.mem_map]
    constructor
    · rintro ⟨⟨k', o⟩, hp, rfl⟩
      obtain ⟨j, hj, hop, -⟩ := mem_resumePoints.mp hp
      obtain ⟨p, hp⟩ := List.mem_iff_getElem?.mp hj
      exact ⟨p, j, hp, hop⟩
    · rintro ⟨p, j, hp, hop⟩
      exact ⟨(k, j.offset), mem_resumePoints.mpr ⟨j, List.mem_of_getElem? hp, hop, rfl⟩, rfl⟩
  -- both counts are the largest state
  have hle : m ≤ yieldCount is := by
    rcases Nat.eq_zero_or_pos m with hzero | hpos
    · omega
    · obtain ⟨p, j, hp, hop⟩ := hmem.mp (List.mem_range'_1.mpr ⟨hpos, by omega⟩)
      obtain ⟨q, i, rfl, -, -⟩ := hm.suspended hp (by rw [hop]; rfl)
      obtain ⟨o, i, ho, hi, hstate⟩ := yield_of_resumePoint hd hl hplain (Nat.succ_pos q) hp hop
      rw [← hstate]
      exact yieldState_le ho hi
  have hge : yieldCount is ≤ m := by
    rcases Nat.eq_zero_or_pos (yieldCount is) with hzero | hpos
    · omega
    · obtain ⟨o, i, ho, hi, hstate⟩ := exists_last_yield hpos
      obtain ⟨j, hj, -, hop, -⟩ := resumePoint_of_yield hd hl ho hi
      have hin := List.mem_range'_1.mp (hmem.mpr ⟨_, j, hj, hop⟩)
      omega
  rw [hstates, Nat.le_antisymm hle hge]

theorem suspension?_eq_some {op : Op} (h : op.suspension? = some k) :
    op = .suspend k ∨ ∃ exit, op = .delegate k exit := by
  cases op with
  | suspend k' =>
    cases h
    exact .inl rfl
  | delegate k' exit =>
    cases h
    exact .inr ⟨exit, rfl⟩
  | _ => cases h

/-! ## 4. The result -/

/-- **What the pass makes of a body.** -/
theorem transformed_of_laid (hd : Dense is) (hplain : Plain is)
    (hl : Laid 1 (stateChunks 1 is) out map) (hm : StateMachine out) :
    Transformed is out map where
  dispatcher := hm.dispatcher
  points k o := by
    rw [mem_resumePoints]
    constructor
    · rintro ⟨j, hj, hop, hoffset⟩
      obtain ⟨p, hp⟩ := List.mem_iff_getElem?.mp hj
      rw [hl.dense p j hp] at hoffset
      exact ⟨j, hoffset ▸ hp, hop⟩
    · rintro ⟨j, hj, hop⟩
      exact ⟨j, List.mem_of_getElem? hj, hop, hl.dense o j hj⟩
  states := states_transformed hd hl hplain hm
  image _ _ := image_at hd hl
  dropped _ _ := dropped_at hd hl
  yieldValue _ _ := yieldValue_at hd hl
  yieldFrom _ _ := yieldFrom_at hd hl
  kept _ _ := kept_at hd hl hplain
  behind _ := exists_behind hd hl
  resumed p j k hp hj := by
    obtain ⟨q, i, hpq, hi, hs⟩ := hm.suspended hp (by rw [hj]; rfl)
    exact ⟨q, i, hpq, hi, suspension?_eq_some hs⟩
  inner p i hp hpos t ht := by
    obtain ⟨ht0, hinner⟩ := hm.inner i (List.mem_of_getElem? hp) t
      (target_of_mem (hm.not_dispatch hp hpos) ht)
    refine ⟨ht0, fun j k hj hop => ?_⟩
    have hnone := hinner j hj
    rw [hop] at hnone
    cases hnone

/-- A suspension is found at its state, with its offsets and its kind. -/
theorem state_found (hm : StateMachine out) (g : FlowGraph) (a : Analysis)
    (locals : Nat) {op : Op} (hs : Stands out p op i)
    (hr : Stands out (p + 1) (.resumePoint k) i) :
    ∃ s, (GeneratorLayout.describe out g a locals).state? k = some s ∧ s.id = k ∧ s.suspend = p
      ∧ s.resume = p + 1 ∧ (s.delegates = true ↔ ∃ state exit, op = .delegate state exit) := by
  obtain ⟨j, hj, -, hop, -⟩ := hs
  obtain ⟨r, hr, hoffset, hrop, -⟩ := hr
  obtain ⟨q, s, hq, hsome, hfound⟩ := GeneratorLayout.describe_found g a locals hm hr hrop
  refine ⟨s, hfound, ?_⟩
  have hcode : out.toArray[p]? = some j := by rw [List.getElem?_toArray, hj]
  unfold GeneratorLayout.suspensionAt? at hsome
  rw [hrop] at hsome
  dsimp only at hsome
  rw [hcode] at hsome
  cases hsome
  refine ⟨rfl, rfl, hoffset, ?_⟩
  obtain ⟨offset, op', line, origin, mark⟩ := j
  obtain rfl : op' = op := hop
  cases op' with
  | delegate state exit => exact ⟨fun _ => ⟨state, exit, rfl⟩, fun _ => rfl⟩
  | _ =>
    constructor
    · intro h
      cases h
    · rintro ⟨state, exit, h⟩
      cases h

/-- **The layout is read off the same states.** -/
theorem described_of_transformed (h : Transformed is out map) (hm : StateMachine out)
    (g : FlowGraph) (a : Analysis) (locals : Nat) :
    Described is (GeneratorLayout.describe out g a locals) where
  ids := by
    rw [GeneratorLayout.describe_states hm, GeneratorLayout.found_ids hm, h.states]
  state o i ho hi := by
    cases hop : i.op with
    | yieldValue =>
      obtain ⟨hs, hr⟩ := h.yieldValue o i ho hop
      obtain ⟨s, hfound, hid, hsuspend, hresume, hdelegates⟩ := state_found hm g a locals hs hr
      refine ⟨s, hfound, hid, hsuspend, hresume, hdelegates.trans ⟨?_, fun h => by cases h⟩⟩
      rintro ⟨state, exit, h⟩
      cases h
    | yieldFrom =>
      obtain ⟨exit, -, hs, hr, -⟩ := h.yieldFrom o i ho hop
      obtain ⟨s, hfound, hid, hsuspend, hresume, hdelegates⟩ := state_found hm g a locals hs hr
      exact ⟨s, hfound, hid, hsuspend, hresume,
        hdelegates.trans ⟨fun _ => rfl, fun _ => ⟨_, exit, rfl⟩⟩⟩
    | _ =>
      rw [yields, hop] at hi
      cases hi

/-- **A generator becomes the state machine that it should.** For every body that decoding gives, or
spelling out its `with` statements: the states are given to the yields in program order, the
dispatcher leads to their resume points, everything else stays in its place with its targets moved,
and whatever the analysis finds out, the layout lists just these states. -/
theorem toStateMachine_transformed {c : CodeObject} {is out : List Instr} {map : OffsetMap}
    (hbody : (∃ m, decode c = .ok (is, m))
      ∨ ∃ is₀ m₀ m, decode c = .ok (is₀, m₀) ∧ expandWith is₀ = .ok (is, m))
    (h : toStateMachine is = .ok (out, map)) :
    Transformed is out map
      ∧ ∀ g a locals, Described is (GeneratorLayout.describe out g a locals) := by
  obtain ⟨hfits, hplain⟩ : Fits c is ∧ Plain is := by
    rcases hbody with ⟨m, hdecode⟩ | ⟨is₀, m₀, m, hdecode, hexpand⟩
    · exact decode_fits hdecode
    · obtain ⟨hfits₀, hplain₀⟩ := decode_fits hdecode
      exact expandWith_fits hfits₀ hplain₀ hexpand
  obtain ⟨hm, -⟩ := toStateMachine_shape hfits hplain h
  have htransformed := transformed_of_laid hfits.dense hplain (toStateMachine_laid hfits.dense h) hm
  exact ⟨htransformed, fun g a locals =>
    described_of_transformed htransformed hm g a locals⟩

/-- A generator that yields and delegates in turn: `while True: yield None; yield from None`. -/
def relay : CodeObject :=
  { CodeObject.blank 0 "g" "g.py" with
    code := [129, 0, 100, 0, 86, 0, 1, 0, 100, 0, 69, 0, 100, 0, 72, 0, 1, 0, 113, 1]
    constants := [.none]
    flags := ⟨0x63⟩ }

/-- Its two states are resumed at 3 and 9, the delegation is left for 11, and the loop goes on at 1. -/
theorem toStateMachine_transformed_relay : ∃ is m out map, decode relay = .ok (is, m)
    ∧ toStateMachine is = .ok (out, map)
    ∧ out.map (·.op) = [.resumeDispatch [(1, 3), (2, 9)], .loadConst 0, .suspend 1, .resumePoint 1,
      .popTop, .loadConst 0, .getYieldFromIter, .loadConst 0, .delegate 2 11, .resumePoint 2,
      .jump 8, .popTop, .jump 1]
    ∧ Transformed is out map
    ∧ ∀ g a locals, Described is (GeneratorLayout.describe out g a locals) := by
  have hrun : (match decode relay with
      | .error _ => false
      | .ok (is, _) => match toStateMachine is with
        | .error _ => false
        | .ok (out, _) => out.map (·.op) == [.resumeDispatch [(1, 3), (2, 9)], .loadConst 0,
          .suspend 1, .resumePoint 1, .popTop, .loadConst 0, .getYieldFromIter, .loadConst 0,
          .delegate 2 11, .resumePoint 2, .jump 8, .popTop, .jump 1]) = true := by
    simp only [decode, InstructionStream.decode, InstructionStream.strayJump?_eq]
    decide +kernel
  split at hrun
  · cases hrun
  · rename_i is m hdecode
    split at hrun
    · cases hrun
    · rename_i out map hout
      obtain ⟨htransformed, hdescribed⟩ := toStateMachine_transformed (.inl ⟨m, hdecode⟩) hout
      exact ⟨is, m, out, map, hdecode, hout, eq_of_beq hrun, htransformed, hdescribed⟩

end Body

end Stackwise
