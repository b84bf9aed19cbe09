import Stackwise.Analysis.FlowGraph
import Stackwise.Proofs.Analysis.BitSets
import Stackwise.Proofs.Outcome

/-!
# The blocks of a flow graph

A flow graph cuts a body into runs. What the analyses rely on is said here once:

* `FlowGraph.Partitions`: every offset lies in the block that `blockAt` names and in no other;
* `FlowGraph.build_partitions`: the graph of a body partitions it;
* `FlowGraph.build_isLeader`: the blocks start at the entry, at what operations name, at resume
  points, and after operations that end a block.
-/

namespace Stackwise

/-- Every instruction carries its position. -/
def Dense (is : List Instr) : Prop := ∀ (k : Nat) (i : Instr), is[k]? = some i → i.offset = k

theorem BasicBlock.offsets_eq (b : BasicBlock) :
    b.offsets = List.range' b.start (b.stop - b.start) := by
  rw [offsets, List.range'_eq_map_range, size]

namespace FlowGraph

/-! ## 1. Runs between leaders -/

section Runs

variable {n : Nat}

/-- Increasing offsets below `n`. -/
def Cuts (n : Nat) (ls : List Nat) : Prop := ls.Pairwise (· < ·) ∧ ∀ l ∈ ls, l < n

theorem Cuts.tail {a : Nat} {ls : List Nat} (h : Cuts n (a :: ls)) : Cuts n ls :=
  ⟨(List.pairwise_cons.mp h.1).2, fun l hl => h.2 l (List.mem_cons_of_mem a hl)⟩

theorem runs_map_start (ls : List Nat) : (runs n ls).map BasicBlock.start = ls := by
  fun_induction runs n ls with
  | case1 => rfl
  | case2 a => rfl
  | case3 a b rest ih => rw [List.map_cons, ih]

theorem runs_bounds {ls : List Nat} (h : Cuts n ls) :
    ∀ b ∈ runs n ls, b.start < b.stop ∧ b.stop ≤ n := by
  fun_induction runs n ls with
  | case1 => exact fun b hb => absurd hb List.not_mem_nil
  | case2 a =>
    intro b hb
    rw [List.mem_singleton] at hb
    rw [hb]
    exact ⟨h.2 a List.mem_cons_self, Nat.le_refl n⟩
  | case3 a c rest ih =>
    intro b hb
    rcases List.mem_cons.mp hb with rfl | hb
    · exact ⟨(List.pairwise_cons.mp h.1).1 c List.mem_cons_self,
        Nat.le_of_lt (h.tail.2 c List.mem_cons_self)⟩
    · exact ih h.tail b hb

/-- Runs stand one after the other. -/
theorem runs_pairwise {ls : List Nat} (h : Cuts n ls) :
    (runs n ls).Pairwise fun b c => b.stop ≤ c.start := by
  fun_induction runs n ls with
  | case1 => exact .nil
  | case2 a => exact List.pairwise_singleton _ _
  | case3 a c rest ih =>
    refine List.pairwise_cons.mpr ⟨fun b hb => ?_, ih h.tail⟩
    have hs : b.start ∈ c :: rest := by
      rw [← runs_map_start (n := n) (c :: rest)]
      exact List.mem_map_of_mem hb
    rcases List.mem_cons.mp hs with hs | hs
    · exact Nat.le_of_eq hs.symm
    · exact Nat.le_of_lt ((List.pairwise_cons.mp h.tail.1).1 _ hs)

/-- The number of the block of each offset, the blocks counted from `k`. -/
def labels (k : Nat) (bs : List BasicBlock) : List Nat :=
  (bs.zipIdx k).flatMap fun (b, i) => List.replicate b.size i

theorem labels_cons (k : Nat) (b : BasicBlock) (bs : List BasicBlock) :
    labels k (b :: bs) = List.replicate b.size k ++ labels (k + 1) bs := by
  rw [labels, List.zipIdx_cons, List.flatMap_cons]
  rfl

/-- The label of an offset is the number of the run that it lies in. -/
theorem labels_runs {a : Nat} {ls : List Nat} (h : Cuts n (a :: ls)) (k j : Nat) (hj : a + j < n) :
    ∃ i b, (runs n (a :: ls))[i]? = some b ∧ b.start ≤ a + j ∧ a + j < b.stop
      ∧ (labels k (runs n (a :: ls)))[j]? = some (k + i) := by
  induction ls generalizing a k j with
  | nil =>
    refine ⟨0, ⟨a, n, [], []⟩, rfl, Nat.le_add_right a j, hj, ?_⟩
    rw [runs, labels_cons, List.getElem?_append_left, List.getElem?_replicate, if_pos]
    · rfl
    · simp only [BasicBlock.size]; omega
    · simp only [BasicBlock.size, List.length_replicate]; omega
  | cons c rest ih =>
    have hac : a < c := (List.pairwise_cons.mp h.1).1 c List.mem_cons_self
    by_cases hlt : a + j < c
    · refine ⟨0, ⟨a, c, [], []⟩, rfl, Nat.le_add_right a j, hlt, ?_⟩
      rw [runs, labels_cons, List.getElem?_append_left, List.getElem?_replicate, if_pos]
      · rfl
      · simp only [BasicBlock.size]; omega
      · simp only [BasicBlock.size, List.length_replicate]; omega
    · have heq : c + (j - (c - a)) = a + j := by omega
      obtain ⟨i, b, hb, hs, hst, hl⟩ := ih h.tail (k + 1) (j - (c - a)) (by omega)
      rw [heq] at hs hst
      refine ⟨i + 1, b, ?_, hs, hst, ?_⟩
      · rw [runs, List.getElem?_cons_succ]
        exact hb
      · rw [runs, labels_cons, List.getElem?_append_right]
        · simp only [BasicBlock.size, List.length_replicate]
          rw [hl, Nat.add_right_comm, Nat.add_assoc]
        · simp only [BasicBlock.size, List.length_replicate]; omega

end Runs

/-! ## 2. Leaders -/

theorem contains_foldl_leaders {is : List Instr} {s : BitSet} {o : Nat} :
    (is.foldl (fun s i => (leadersOf i).foldl BitSet.insert s) s).contains o = true
      ↔ (∃ i ∈ is, o ∈ leadersOf i) ∨ s.contains o = true := by
  induction is generalizing s with
  | nil => simp
  | cons i is ih =>
    rw [List.foldl_cons, ih, BitSet.contains_foldl_insert, ← or_assoc]
    simp only [List.mem_cons, exists_eq_or_imp]
    rw [@or_comm (o ∈ leadersOf i)]

/-- Where blocks start. -/
theorem mem_leaders {is : List Instr} {o : Nat} :
    o ∈ leaders is ↔ (o = 0 ∨ ∃ i ∈ is, o ∈ leadersOf i) ∧ o < is.length := by
  rw [leaders, List.mem_filter, BitSet.mem_toList, contains_foldl_leaders, BitSet.contains_ofList,
    List.mem_singleton, decide_eq_true_iff, or_comm]

theorem cuts_leaders (is : List Instr) : Cuts is.length (leaders is) :=
  ⟨(BitSet.pairwise_toList _).filter _, fun _ hl => (mem_leaders.mp hl).2⟩

/-- The entry is the first leader. -/
theorem leaders_eq_cons {is : List Instr} (h : is ≠ []) : ∃ ls, leaders is = 0 :: ls := by
  have h0 : 0 ∈ leaders is := mem_leaders.mpr ⟨Or.inl rfl, List.length_pos_of_ne_nil h⟩
  have hp := (cuts_leaders is).1
  cases hl : leaders is with
  | nil => rw [hl] at h0; cases h0
  | cons a ls =>
    rw [hl] at h0 hp
    rcases List.mem_cons.mp h0 with rfl | h0
    · exact ⟨ls, rfl⟩
    · exact absurd ((List.pairwise_cons.mp hp).1 0 h0) (Nat.not_lt_zero a)

/-! ## 3. Partitions -/

/-- The blocks of the graph cut a body of `n` instructions into runs. -/
structure Partitions (g : FlowGraph) (n : Nat) : Prop where
  bounds : ∀ b < g.size, (g.block b).start < (g.block b).stop ∧ (g.block b).stop ≤ n
  blockAt_lt : ∀ o < n, g.blockAt o < g.size
  holds : ∀ o < n, (g.block (g.blockAt o)).start ≤ o ∧ o < (g.block (g.blockAt o)).stop
  unique : ∀ b < g.size, ∀ o, (g.block b).start ≤ o → o < (g.block b).stop → g.blockAt o = b

variable {g g' : FlowGraph} {n : Nat}

theorem Partitions.blockAt_start (h : g.Partitions n) {b : Nat} (hb : b < g.size) :
    g.blockAt (g.block b).start = b :=
  h.unique b hb _ (Nat.le_refl _) (h.bounds b hb).1

theorem isLeader_iff {o : Nat} : g.isLeader o = true ↔ (g.block (g.blockAt o)).start = o :=
  beq_iff_eq

/-- What follows an offset inside its block is no leader. -/
theorem Partitions.not_isLeader (h : g.Partitions n) {b o : Nat} (hb : b < g.size)
    (hs : (g.block b).start < o) (ho : o < (g.block b).stop) : g.isLeader o = false := by
  rw [Bool.eq_false_iff]
  intro hl
  rw [isLeader_iff, h.unique b hb o (Nat.le_of_lt hs) ho] at hl
  omega

/-- An offset is the last of its block when what follows it starts one. -/
theorem Partitions.last_eq {o : Nat} (hp : g.Partitions n) (ho : o < n)
    (hnext : o + 1 < n → g.isLeader (o + 1) = true) : (g.block (g.blockAt o)).last = o := by
  have hb := hp.blockAt_lt o ho
  have hbound := (hp.bounds _ hb).2
  obtain ⟨hstart, hstop⟩ := hp.holds o ho
  by_contra hne
  rw [BasicBlock.last] at hne
  have hleader := hnext (by omega)
  rw [hp.not_isLeader hb (by omega) (by omega)] at hleader
  cases hleader

/-- The same runs, whatever the edges. -/
structure SameRuns (g g' : FlowGraph) : Prop where
  blockOf : g'.blockOf = g.blockOf
  size : g'.size = g.size
  start : ∀ b, (g'.block b).start = (g.block b).start
  stop : ∀ b, (g'.block b).stop = (g.block b).stop

theorem SameRuns.refl (g : FlowGraph) : SameRuns g g := ⟨rfl, rfl, fun _ => rfl, fun _ => rfl⟩

theorem SameRuns.trans {g₁ g₂ g₃ : FlowGraph} (h : SameRuns g₁ g₂) (h' : SameRuns g₂ g₃) :
    SameRuns g₁ g₃ where
  blockOf := h'.blockOf.trans h.blockOf
  size := h'.size.trans h.size
  start b := (h'.start b).trans (h.start b)
  stop b := (h'.stop b).trans (h.stop b)

theorem SameRuns.blockAt (h : SameRuns g g') (o : Nat) : g'.blockAt o = g.blockAt o := by
  rw [FlowGraph.blockAt, FlowGraph.blockAt, h.blockOf]

theorem SameRuns.isLeader (h : SameRuns g g') (o : Nat) : g'.isLeader o = g.isLeader o := by
  rw [FlowGraph.isLeader, FlowGraph.isLeader, h.start, h.blockAt]

theorem SameRuns.partitions (h : SameRuns g g') (hp : g.Partitions n) : g'.Partitions n where
  bounds b hb := by
    rw [h.start, h.stop]
    exact hp.bounds b (h.size ▸ hb)
  blockAt_lt o ho := by
    rw [h.blockAt, h.size]
    exact hp.blockAt_lt o ho
  holds o ho := by
    rw [h.start, h.stop, h.blockAt]
    exact hp.holds o ho
  unique b hb o hs ht := by
    rw [h.start] at hs
    rw [h.stop] at ht
    rw [h.blockAt]
    exact hp.unique b (h.size ▸ hb) o hs ht

/-! ## 4. Edges leave the runs alone -/

theorem sameRuns_modify (g : FlowGraph) (i : Nat) {f : BasicBlock → BasicBlock}
    (hf : ∀ b, (f b).start = b.start ∧ (f b).stop = b.stop) :
    SameRuns g { g with blocks := g.blocks.modify i f } := by
  have hget : ∀ b, (({ g with blocks := g.blocks.modify i f } : FlowGraph).block b).start
      = (g.block b).start ∧ (({ g with blocks := g.blocks.modify i f } : FlowGraph).block b).stop
      = (g.block b).stop := by
    intro b
    simp only [block, Array.getD_eq_getD_getElem?, Array.getElem?_modify]
    split
    · cases g.blocks[b]? with
      | none => exact ⟨rfl, rfl⟩
      | some c => exact hf c
    · exact ⟨rfl, rfl⟩
  exact ⟨rfl, Array.size_modify, fun b => (hget b).1, fun b => (hget b).2⟩

theorem sameRuns_addEdge (g : FlowGraph) (src dst : Nat) (kind : EdgeKind) :
    SameRuns g (g.addEdge src dst kind) := by
  unfold addEdge
  split
  · exact .refl g
  · exact (sameRuns_modify g src
        (f := fun b => { b with successors := b.successors ++ [(dst, kind)] })
        fun _ => ⟨rfl, rfl⟩).trans
      (sameRuns_modify _ dst
        (f := fun b => { b with predecessors := b.predecessors ++ [(src, kind)] })
        fun _ => ⟨rfl, rfl⟩)

theorem sameRuns_addEdges (g : FlowGraph) (src : Nat) (edges : List (Nat × EdgeKind)) :
    SameRuns g (g.addEdges src edges) := by
  unfold addEdges
  induction edges generalizing g with
  | nil => exact .refl g
  | cons e edges ih => exact (sameRuns_addEdge g src e.1 e.2).trans (ih _)

theorem sameRuns_sorted (g : FlowGraph) : SameRuns g g.sorted :=
  ⟨rfl, rfl, fun _ => rfl, fun _ => rfl⟩

theorem sameRuns_foldl {α : Type} {f : FlowGraph → α → FlowGraph}
    (hf : ∀ g x, SameRuns g (f g x)) (g : FlowGraph) (xs : List α) :
    SameRuns g (xs.foldl f g) := by
  induction xs generalizing g with
  | nil => exact .refl g
  | cons x xs ih => exact (hf g x).trans (ih _)

theorem sameRuns_addExceptionEdges (g : FlowGraph) (edges : List (Nat × Nat)) :
    SameRuns g (g.addExceptionEdges edges) := by
  refine (sameRuns_foldl (fun g e => ?_) g edges).trans (sameRuns_sorted _)
  split
  · exact sameRuns_addEdge g _ _ _
  · exact .refl g

/-! ## 5. The graph of a body -/

/-- How a graph is built: no operation names an offset outside the body, and edges are added to
the bare partition. -/
theorem build_eq_ok {is : List Instr} (h : build is = .ok g) :
    is ≠ [] ∧ strayTarget? is.length is = none ∧ g = ((List.range (partition is).size).foldl
      (fun g b => match is.toArray[(g.block b).last]? with
        | some i => g.addEdges b (g.edgesOf is.length i)
        | none => g) (partition is)).sorted := by
  unfold build at h
  split at h
  · cases h
  · rename_i hne
    split at h
    · cases h
    · rename_i hstray
      cases h
      exact ⟨fun he => hne (by rw [he]; rfl), hstray, rfl⟩

theorem build_sameRuns {is : List Instr} (h : build is = .ok g) : SameRuns (partition is) g := by
  obtain ⟨-, -, rfl⟩ := build_eq_ok h
  refine (sameRuns_foldl (fun g b => ?_) (partition is) _).trans (sameRuns_sorted _)
  split
  · exact sameRuns_addEdges g b _
  · exact .refl g

theorem partition_block {is : List Instr} {b : Nat} (hb : b < (partition is).size) :
    (runs is.length (leaders is))[b]? = some ((partition is).block b) := by
  have hlt : b < (runs is.length (leaders is)).length := by simpa [partition, size] using hb
  rw [block, partition, List.getElem?_eq_getElem hlt]
  simp [hlt]

theorem partition_partitions {is : List Instr} (h : is ≠ []) :
    (partition is).Partitions is.length := by
  have hcuts := cuts_leaders is
  have hmem : ∀ b < (partition is).size, (partition is).block b ∈ runs is.length (leaders is) :=
    fun b hb => List.mem_of_getElem? (partition_block hb)
  -- the label of an offset is the number of a run that holds it
  have hlabel : ∀ o < is.length, (partition is).blockAt o < (partition is).size
      ∧ ((partition is).block ((partition is).blockAt o)).start ≤ o
      ∧ o < ((partition is).block ((partition is).blockAt o)).stop := by
    intro o ho
    obtain ⟨ls, hls⟩ := leaders_eq_cons h
    rw [hls] at hcuts
    obtain ⟨i, b, hb, hs, ht, hl⟩ := labels_runs hcuts 0 o (by rw [Nat.zero_add]; exact ho)
    rw [Nat.zero_add] at hs ht hl
    rw [← hls] at hb hl
    have hat : (partition is).blockAt o = i := by
      rw [blockAt, partition, Array.getD_eq_getD_getElem?, List.getElem?_toArray]
      exact congrArg (Option.getD · 0) hl
    have hi : i < (partition is).size := by
      have := (List.getElem?_eq_some_iff.mp hb).1
      simpa [partition, size] using this
    have hblock : (partition is).block i = b :=
      Option.some.inj ((partition_block hi).symm.trans hb)
    rw [hat, hblock]
    exact ⟨hi, hs, ht⟩
  refine ⟨fun b hb => runs_bounds hcuts _ (hmem b hb), fun o ho => (hlabel o ho).1,
    fun o ho => (hlabel o ho).2, fun b hb o hs ht => ?_⟩
  have ho : o < is.length := Nat.lt_of_lt_of_le ht (runs_bounds hcuts _ (hmem b hb)).2
  obtain ⟨hlt, hs', ht'⟩ := hlabel o ho
  have hpw := List.pairwise_iff_getElem.mp (runs_pairwise hcuts)
  obtain ⟨hb₁, hb₂⟩ := List.getElem?_eq_some_iff.mp (partition_block hb)
  obtain ⟨hc₁, hc₂⟩ := List.getElem?_eq_some_iff.mp (partition_block hlt)
  rcases Nat.lt_trichotomy ((partition is).blockAt o) b with hlt' | heq | hgt
  · have := hpw _ _ hc₁ hb₁ hlt'
    rw [hb₂, hc₂] at this
    omega
  · exact heq
  · have := hpw _ _ hb₁ hc₁ hgt
    rw [hb₂, hc₂] at this
    omega

/-- **The blocks of a built graph partition the body.** -/
theorem build_partitions {is : List Instr} (h : build is = .ok g) : g.Partitions is.length :=
  (build_sameRuns h).partitions (partition_partitions (build_eq_ok h).1)

/-- **Blocks start at leaders and nowhere else.** -/
theorem build_isLeader {is : List Instr} (h : build is = .ok g) {o : Nat} (ho : o < is.length) :
    g.isLeader o = true ↔ o ∈ leaders is := by
  have hp := partition_partitions (build_eq_ok h).1
  rw [(build_sameRuns h).isLeader, isLeader_iff]
  constructor
  · intro hs
    rw [← hs, ← runs_map_start (n := is.length) (leaders is)]
    exact List.mem_map_of_mem (List.mem_of_getElem? (partition_block (hp.blockAt_lt o ho)))
  · intro hl
    rw [← runs_map_start (n := is.length) (leaders is)] at hl
    obtain ⟨b, hb, rfl⟩ := List.mem_map.mp hl
    obtain ⟨i, hi⟩ := List.mem_iff_getElem?.mp hb
    have hlt : i < (partition is).size := by
      have := (List.getElem?_eq_some_iff.mp hi).1
      simpa [partition, size] using this
    have hblock : (partition is).block i = b :=
      Option.some.inj ((partition_block hlt).symm.trans hi)
    rw [← hblock, hp.blockAt_start hlt]

theorem build_target_lt {is : List Instr} (h : build is = .ok g) {i : Instr} (hi : i ∈ is) {t : Nat}
    (ht : t ∈ i.op.targets) : t < is.length := by
  have hnone := List.findSome?_eq_none_iff.mp (build_eq_ok h).2.1 i hi
  rw [Option.map_eq_none_iff, List.find?_eq_none] at hnone
  have := hnone t ht
  simpa using this

/-- What an operation names is a leader. -/
theorem build_isLeader_target {is : List Instr} (h : build is = .ok g) {i : Instr} (hi : i ∈ is)
    {t : Nat} (ht : t ∈ i.op.targets) : g.isLeader t = true := by
  have hlt := build_target_lt h hi ht
  refine (build_isLeader h hlt).mpr (mem_leaders.mpr ⟨Or.inr ⟨i, hi, ?_⟩, hlt⟩)
  exact List.mem_append_left _ (List.mem_append_left _ ht)

/-- What follows the end of a block is a leader. -/
theorem build_isLeader_succ {is : List Instr} (h : build is = .ok g) {i : Instr} (hi : i ∈ is)
    (he : endsBlock i.op = true) (hlt : i.offset + 1 < is.length) :
    g.isLeader (i.offset + 1) = true := by
  refine (build_isLeader h hlt).mpr (mem_leaders.mpr ⟨Or.inr ⟨i, hi, ?_⟩, hlt⟩)
  refine List.mem_append_right _ ?_
  rw [if_pos he]
  exact List.mem_singleton_self _

/-- The entry starts the first block. -/
theorem build_block_zero {is : List Instr} (h : build is = .ok g) :
    0 < g.size ∧ (g.block 0).start = 0 ∧ g.blockAt 0 = 0 := by
  have hp := build_partitions h
  have hne := (build_eq_ok h).1
  have hpos := List.length_pos_of_ne_nil hne
  obtain ⟨ls, hls⟩ := leaders_eq_cons hne
  have hstart : (partition is).size ≠ 0 ∧ ((partition is).block 0).start = 0 := by
    have hmap := runs_map_start (n := is.length) (leaders is)
    rw [hls] at hmap
    have hlen := congrArg List.length hmap
    rw [List.length_map, List.length_cons] at hlen
    have hz : 0 < (partition is).size := by
      simp only [partition, size, List.size_toArray, hls, hlen]
      omega
    refine ⟨Nat.ne_of_gt hz, ?_⟩
    have h0 := partition_block hz
    rw [hls] at h0
    have := congrArg (fun l : List Nat => l[0]?) hmap
    simp only [List.getElem?_map, h0, Option.map_some, List.getElem?_cons_zero] at this
    exact Option.some.inj this
  have hsr := build_sameRuns h
  have hz : 0 < g.size := by rw [hsr.size]; omega
  have hs : (g.block 0).start = 0 := by rw [hsr.start]; exact hstart.2
  refine ⟨hz, hs, hp.unique 0 hz 0 (Nat.le_of_eq hs) ?_⟩
  have := (hp.bounds 0 hz).1
  omega

end FlowGraph

end Stackwise
