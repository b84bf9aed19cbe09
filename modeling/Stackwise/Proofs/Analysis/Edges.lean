import Stackwise.Proofs.Analysis.Searches

/-!
# Edges of a flow graph

Which edges a graph has, and how control goes along them.

* `build_successors`, `addExceptionEdges_successors`: the edges are those of the last operations of
  the blocks and those of the raised exceptions.
* `build_ordered`, `addExceptionEdges_ordered`: the order of a graph before and after the edges of
  the exceptions are added.
* `Links`, `links_of_build`: the graph of a body with the edges of its exceptions.
* `Links.goesTo`: control goes on inside a block, or along an edge to the start of another.
-/

namespace Stackwise

/-- Control can go from the operation at `o` to `t`: on, by a branch, or from the dispatcher. -/
def Op.GoesTo (op : Op) (o t : Nat) : Prop :=
  (op.isForcedJump = false ∧ t = o + 1) ∨ op.branchTarget? = some t
    ∨ ∃ states k, op = .resumeDispatch states ∧ (k, t) ∈ states

namespace FlowGraph

variable {g g' : FlowGraph} {b c : Nat} {e : Nat × EdgeKind}

/-! ## 1. Adding edges -/

theorem block_of_le (hb : g.size ≤ b) : g.block b = default := by
  rw [block, Array.getD_eq_getD_getElem?, Array.getElem?_eq_none hb]
  rfl

theorem size_modify (g : FlowGraph) (i : Nat) (f : BasicBlock → BasicBlock) :
    ({ g with blocks := g.blocks.modify i f } : FlowGraph).size = g.size := Array.size_modify

theorem block_modify (g : FlowGraph) (i : Nat) (f : BasicBlock → BasicBlock) (b : Nat) :
    ({ g with blocks := g.blocks.modify i f } : FlowGraph).block b
      = if i = b ∧ b < g.size then f (g.block b) else g.block b := by
  simp only [block, Array.getD_eq_getD_getElem?, Array.getElem?_modify, size]
  by_cases hb : b < g.blocks.size
  · rw [Array.getElem?_eq_getElem hb]
    by_cases hi : i = b
    · rw [if_pos hi, if_pos ⟨hi, hb⟩]
      rfl
    · rw [if_neg hi, if_neg fun h => hi h.1]
  · rw [Array.getElem?_eq_none (Nat.not_lt.mp hb),
      if_neg (c := i = b ∧ b < g.blocks.size) fun h => hb h.2]
    split <;> rfl

section AddEdge

variable {src dst : Nat} {kind : EdgeKind}

theorem addEdge_of_mem (h : (dst, kind) ∈ (g.block src).successors) : g.addEdge src dst kind = g :=
  if_pos (List.contains_iff_mem.mpr h)

/-- A new edge is noted at both of its ends. -/
theorem block_addEdge (h : (dst, kind) ∉ (g.block src).successors) (b : Nat) :
    ((g.addEdge src dst kind).block b).successors
        = (if src = b ∧ b < g.size then (g.block b).successors ++ [(dst, kind)]
          else (g.block b).successors)
      ∧ ((g.addEdge src dst kind).block b).predecessors
        = if dst = b ∧ b < g.size then (g.block b).predecessors ++ [(src, kind)]
          else (g.block b).predecessors := by
  rw [addEdge, if_neg fun hold => h (List.contains_iff_mem.mp hold)]
  have hsrc := block_modify g src
    (fun b => { b with successors := b.successors ++ [(dst, kind)] }) b
  have hdst := block_modify { g with blocks := g.blocks.modify src fun b =>
    { b with successors := b.successors ++ [(dst, kind)] } } dst
    (fun b => { b with predecessors := b.predecessors ++ [(src, kind)] }) b
  rw [hsrc, size_modify] at hdst
  constructor
  · refine (congrArg BasicBlock.successors hdst).trans ?_
    split <;> split <;> rfl
  · refine (congrArg BasicBlock.predecessors hdst).trans ?_
    split <;> split <;> rfl

theorem mem_addEdge : e ∈ ((g.addEdge src dst kind).block b).successors
    ↔ e ∈ (g.block b).successors ∨ (b = src ∧ b < g.size ∧ e = (dst, kind)) := by
  by_cases hold : (dst, kind) ∈ (g.block src).successors
  · rw [addEdge_of_mem hold]
    refine ⟨.inl, fun h => ?_⟩
    rcases h with h | ⟨rfl, -, rfl⟩
    · exact h
    · exact hold
  · rw [(block_addEdge hold b).1]
    split
    · rename_i h
      obtain ⟨rfl, hb⟩ := h
      rw [List.mem_append, List.mem_singleton]
      exact or_congr_right ⟨fun h => ⟨rfl, hb, h⟩, fun h => h.2.2⟩
    · rename_i h
      exact ⟨.inl, fun h' => h'.resolve_right fun ⟨hsrc, hb, _⟩ => h ⟨hsrc.symm, hb⟩⟩

end AddEdge

theorem mem_addEdges {src : Nat} {edges : List (Nat × EdgeKind)} :
    e ∈ ((g.addEdges src edges).block b).successors
      ↔ e ∈ (g.block b).successors ∨ (b = src ∧ b < g.size ∧ e ∈ edges) := by
  unfold addEdges
  induction edges generalizing g with
  | nil => simp
  | cons x edges ih =>
    rw [List.foldl_cons, ih, mem_addEdge, (sameRuns_addEdge g src x.1 x.2).size, or_assoc,
      List.mem_cons]
    refine or_congr_right ⟨fun h => ?_, fun ⟨hsrc, hb, h⟩ => ?_⟩
    · rcases h with ⟨hsrc, hb, h⟩ | ⟨hsrc, hb, h⟩
      · exact ⟨hsrc, hb, .inl h⟩
      · exact ⟨hsrc, hb, .inr h⟩
    · rcases h with h | h
      · exact .inl ⟨hsrc, hb, h⟩
      · exact .inr ⟨hsrc, hb, h⟩

/-! ## 2. The edges of a body -/

theorem sorted_block (g : FlowGraph) (b : Nat) : g.sorted.block b = g.block b := rfl

theorem edgesOf_sameRuns (h : SameRuns g g') (n : Nat) (i : Instr) :
    g'.edgesOf n i = g.edgesOf n i := by
  simp only [edgesOf, h.blockAt]

/-- The edges of a graph in the making: `bs` are the blocks that were linked. -/
theorem linked_successors {is : List Instr} {bs : List Nat} :
    e ∈ ((bs.foldl (fun g b => match is.toArray[(g.block b).last]? with
        | some i => g.addEdges b (g.edgesOf is.length i)
        | none => g) g).block b).successors
      ↔ e ∈ (g.block b).successors ∨ (b ∈ bs ∧ b < g.size
        ∧ ∃ i, is[(g.block b).last]? = some i ∧ e ∈ g.edgesOf is.length i) := by
  induction bs generalizing g with
  | nil => simp
  | cons c bs ih =>
    rw [List.foldl_cons, ih]
    cases hi : is.toArray[(g.block c).last]? with
    | none =>
      dsimp only
      refine or_congr_right ⟨fun ⟨hb, h⟩ => ⟨.tail _ hb, h⟩, fun ⟨hb, hlt, i, hib, he⟩ => ?_⟩
      rcases List.mem_cons.mp hb with rfl | hb
      · rw [List.getElem?_toArray, hib] at hi
        cases hi
      · exact ⟨hb, hlt, i, hib, he⟩
    | some j =>
      have hruns := sameRuns_addEdges g c (g.edgesOf is.length j)
      have hlast : ∀ b, ((g.addEdges c (g.edgesOf is.length j)).block b).last
          = (g.block b).last := fun b => congrArg (· - 1) (hruns.stop b)
      dsimp only
      rw [mem_addEdges, hruns.size, hlast, or_assoc]
      simp only [edgesOf_sameRuns hruns]
      rw [List.getElem?_toArray] at hi
      refine or_congr_right ⟨fun h => ?_, fun ⟨hb, hlt, i, hib, he⟩ => ?_⟩
      · rcases h with ⟨rfl, hlt, he⟩ | ⟨hb, h⟩
        · exact ⟨.head _, hlt, j, hi, he⟩
        · exact ⟨.tail _ hb, h⟩
      · rcases List.mem_cons.mp hb with rfl | hb
        · rw [hi] at hib
          cases hib
          exact .inl ⟨rfl, hlt, he⟩
        · exact .inr ⟨hb, hlt, i, hib, he⟩

theorem partition_bare (is : List Instr) (b : Nat) :
    ((partition is).block b).successors = [] ∧ ((partition is).block b).predecessors = [] := by
  by_cases hb : b < (partition is).size
  · have hmem := List.mem_of_getElem? (partition_block hb)
    generalize leaders is = ls at hmem
    generalize (partition is).block b = c at hmem
    induction ls with
    | nil => cases hmem
    | cons a ls ih =>
      cases ls with
      | nil =>
        cases List.mem_singleton.mp hmem
        exact ⟨rfl, rfl⟩
      | cons a' ls =>
        rcases List.mem_cons.mp hmem with rfl | hmem
        · exact ⟨rfl, rfl⟩
        · exact ih hmem
  · rw [block_of_le (Nat.not_lt.mp hb)]
    exact ⟨rfl, rfl⟩

/-- **The edges of a built graph** are those that the last operations of its blocks name. -/
theorem build_successors {is : List Instr} (h : build is = .ok g) :
    e ∈ (g.block b).successors ↔ b < g.size
      ∧ ∃ i, is[(g.block b).last]? = some i ∧ e ∈ g.edgesOf is.length i := by
  have hruns := build_sameRuns h
  have hlast : (g.block b).last = ((partition is).block b).last :=
    congrArg (· - 1) (hruns.stop b)
  simp only [edgesOf_sameRuns hruns, hlast, hruns.size]
  obtain ⟨-, -, rfl⟩ := build_eq_ok h
  rw [sorted_block]
  refine linked_successors.trans ?_
  rw [(partition_bare is b).1, List.mem_range]
  simp

theorem mem_foldl_exceptions (edges : List (Nat × Nat)) (g : FlowGraph) :
    e ∈ ((edges.foldl (fun g e => match g.blockOf[e.1]?, g.blockOf[e.2]? with
      | some a, some b => g.addEdge a b .exception
      | _, _ => g) g).block b).successors ↔ e ∈ (g.block b).successors
    ∨ ∃ o h c, (o, h) ∈ edges ∧ g.blockOf[o]? = some b ∧ g.blockOf[h]? = some c ∧ b < g.size
      ∧ e = (c, .exception) := by
  induction edges generalizing g with
  | nil => simp
  | cons x edges ih =>
    rw [List.foldl_cons]
    split
    · rename_i a c ha hc
      have hruns := sameRuns_addEdge g a c .exception
      rw [ih, mem_addEdge, hruns.blockOf, hruns.size, or_assoc]
      refine or_congr_right ⟨?_, ?_⟩
      · rintro (⟨rfl, hb, rfl⟩ | ⟨o, h, c', hmem, ho, hh, hb, rfl⟩)
        · exact ⟨x.1, x.2, c, .head _, ha, hc, hb, rfl⟩
        · exact ⟨o, h, c', .tail _ hmem, ho, hh, hb, rfl⟩
      · rintro ⟨o, h, c', hmem, ho, hh, hb, rfl⟩
        rcases List.mem_cons.mp hmem with rfl | hmem
        · cases ha.symm.trans ho
          cases hc.symm.trans hh
          exact .inl ⟨rfl, hb, rfl⟩
        · exact .inr ⟨o, h, c', hmem, ho, hh, hb, rfl⟩
    · rename_i hnone
      rw [ih]
      refine or_congr_right ⟨?_, ?_⟩
      · rintro ⟨o, h, c, hmem, hrest⟩
        exact ⟨o, h, c, .tail _ hmem, hrest⟩
      · rintro ⟨o, h, c, hmem, ho, hh, hrest⟩
        rcases List.mem_cons.mp hmem with rfl | hmem
        · exact (hnone _ _ ho hh).elim
        · exact ⟨o, h, c, hmem, ho, hh, hrest⟩

/-- Exceptions add an edge from the block of each raising offset to the block of its handler. -/
theorem addExceptionEdges_successors {edges : List (Nat × Nat)} :
    e ∈ ((g.addExceptionEdges edges).block b).successors ↔ e ∈ (g.block b).successors
      ∨ ∃ o h c, (o, h) ∈ edges ∧ g.blockOf[o]? = some b ∧ g.blockOf[h]? = some c ∧ b < g.size
        ∧ e = (c, .exception) :=
  mem_foldl_exceptions edges g

/-! ## 3. Control along edges -/

/-- The graph of a body with the edges of its operations and of its exceptions. -/
structure Links (g : FlowGraph) (is : List Instr) (edges : List (Nat × Nat)) : Prop where
  partitions : g.Partitions is.length
  target : ∀ i ∈ is, ∀ t ∈ i.op.targets, t < is.length ∧ g.isLeader t = true
  ends : ∀ i ∈ is, endsBlock i.op = true → i.offset + 1 < is.length →
    g.isLeader (i.offset + 1) = true
  named : ∀ b < g.size, ∀ i, is[(g.block b).last]? = some i →
    ∀ e ∈ g.edgesOf is.length i, e ∈ (g.block b).successors
  only : ∀ b, ∀ e ∈ (g.block b).successors, e.2 ≠ .exception →
    ∃ i, is[(g.block b).last]? = some i ∧ e ∈ g.edgesOf is.length i
  raised : ∀ o h, (o, h) ∈ edges →
    (g.blockAt h, .exception) ∈ (g.block (g.blockAt o)).successors
  entry : g.blockAt 0 ∈ g.order
  closed : ∀ b ∈ g.order, ∀ e ∈ (g.block b).successors, e.1 ∈ g.order

/-- An edge leads to the next offset or to one that the operation names; control goes there unless
it is an exception. -/
theorem mem_edgesOf {n : Nat} {i : Instr} (he : e ∈ g.edgesOf n i) :
    ∃ t, e.1 = g.blockAt t ∧ ((t = i.offset + 1 ∧ t < n) ∨ t ∈ i.op.targets)
      ∧ (e.2 ≠ .exception → i.op.GoesTo i.offset t) := by
  simp only [edgesOf, List.mem_append, List.mem_map, Option.mem_toList] at he
  rcases he with ((he | ⟨t, ht, rfl⟩) | ⟨t, ht, rfl⟩) | he
  · split at he
    · rename_i hon
      rw [Bool.and_eq_true, Bool.not_eq_true', decide_eq_true_iff] at hon
      cases List.mem_singleton.mp he
      exact ⟨_, rfl, .inl ⟨rfl, hon.2⟩, fun _ => .inl ⟨hon.1, rfl⟩⟩
    · cases he
  · exact ⟨t, rfl, .inr (List.mem_append_left _ (List.mem_append_left _
      (Option.mem_toList.mpr ht))), fun _ => .inr (.inl ht)⟩
  · exact ⟨t, rfl, .inr (List.mem_append_left _ (List.mem_append_right _
      (Option.mem_toList.mpr ht))), fun hkind => absurd rfl hkind⟩
  · split at he
    · rename_i states hop
      obtain ⟨p, hp, rfl⟩ := List.mem_map.mp he
      refine ⟨p.2, rfl, .inr (List.mem_append_right _ ?_),
        fun _ => .inr (.inr ⟨states, p.1, hop, hp⟩)⟩
      rw [hop]
      exact List.mem_map_of_mem hp
    · cases he

/-- Where control can go there is an edge. -/
theorem edge_of_goesTo {n t : Nat} {i : Instr} (hgo : i.op.GoesTo i.offset t) (ht : t < n) :
    ∃ kind, kind ≠ .exception ∧ (g.blockAt t, kind) ∈ g.edgesOf n i := by
  simp only [edgesOf, List.mem_append, List.mem_map, Option.mem_toList]
  rcases hgo with ⟨hforced, rfl⟩ | hbranch | ⟨states, k, hop, hk⟩
  · rw [hforced, Bool.not_false, Bool.true_and, decide_eq_true ht, if_pos rfl]
    refine ⟨_, ?_, .inl (.inl (.inl (.head _)))⟩
    split <;> exact EdgeKind.noConfusion
  · exact ⟨_, EdgeKind.noConfusion, .inl (.inl (.inr ⟨t, hbranch, rfl⟩))⟩
  · rw [hop]
    exact ⟨_, EdgeKind.noConfusion, .inr (List.mem_map.mpr ⟨(k, t), hk, rfl⟩)⟩

theorem length_labels {n a : Nat} {ls : List Nat} (h : Cuts n (a :: ls)) (k : Nat) :
    (labels k (runs n (a :: ls))).length = n - a := by
  induction ls generalizing a k with
  | nil => rw [runs, labels_cons, List.length_append, List.length_replicate]; rfl
  | cons c rest ih =>
    have hac : a < c := (List.pairwise_cons.mp h.1).1 c List.mem_cons_self
    have hcn : c < n := h.tail.2 c List.mem_cons_self
    rw [runs, labels_cons, List.length_append, List.length_replicate, ih h.tail, BasicBlock.size]
    dsimp only
    omega

theorem partition_blockOf {is : List Instr} (h : is ≠ []) {o c : Nat} :
    (partition is).blockOf[o]? = some c ↔ o < is.length ∧ c = (partition is).blockAt o := by
  have hcuts := cuts_leaders is
  obtain ⟨ls, hls⟩ := leaders_eq_cons h
  have hof : (partition is).blockOf[o]? = (labels 0 (runs is.length (leaders is)))[o]? := by
    rw [partition, List.getElem?_toArray]
    rfl
  rw [hls] at hcuts hof
  rw [blockAt, Array.getD_eq_getD_getElem?, hof]
  constructor
  · intro hc
    have ho := (List.getElem?_eq_some_iff.mp hc).1
    rw [length_labels hcuts] at ho
    rw [hc]
    exact ⟨ho, rfl⟩
  · rintro ⟨ho, rfl⟩
    obtain ⟨i, -, -, -, -, hl⟩ := labels_runs hcuts 0 o (by rw [Nat.zero_add]; exact ho)
    rw [hl]
    rfl

theorem build_blockOf {is : List Instr} (h : build is = .ok g) {o c : Nat} :
    g.blockOf[o]? = some c ↔ o < is.length ∧ c = g.blockAt o := by
  rw [(build_sameRuns h).blockOf, (build_sameRuns h).blockAt]
  exact partition_blockOf (build_eq_ok h).1

theorem edgesOf_lt {n : Nat} (hp : g.Partitions n) {i : Instr} (ht : ∀ t ∈ i.op.targets, t < n)
    (he : e ∈ g.edgesOf n i) : e.1 < g.size := by
  obtain ⟨t, heq, hlt, -⟩ := mem_edgesOf he
  rw [heq]
  refine hp.blockAt_lt t ?_
  rcases hlt with ⟨-, hlt⟩ | hmem
  · exact hlt
  · exact ht t hmem

theorem build_ranged {is : List Instr} (h : build is = .ok g) : g.Ranged := by
  intro b c hc
  obtain ⟨e, he, rfl⟩ := List.mem_map.mp hc
  obtain ⟨-, i, hi, he⟩ := (build_successors h).mp he
  exact edgesOf_lt (build_partitions h) (fun t => build_target_lt h (List.mem_of_getElem? hi)) he

theorem addExceptionEdges_ranged {is : List Instr} (h : build is = .ok g)
    (edges : List (Nat × Nat)) : (g.addExceptionEdges edges).Ranged := by
  intro b c hc
  obtain ⟨e, he, rfl⟩ := List.mem_map.mp hc
  rw [(sameRuns_addExceptionEdges g edges).size]
  rcases addExceptionEdges_successors.mp he with he | ⟨o, t, c, -, -, ht, -, rfl⟩
  · exact build_ranged h b e.1 (List.mem_map_of_mem he)
  · obtain ⟨hlt, rfl⟩ := (build_blockOf h).mp ht
    exact (build_partitions h).blockAt_lt t hlt

theorem build_ordered {is : List Instr} (h : build is = .ok g) : g.Ordered := by
  have hranged := build_ranged h
  have hpos := (build_block_zero h).1
  obtain ⟨linked, rfl⟩ : ∃ linked, g = sorted linked := ⟨_, (build_eq_ok h).2.2⟩
  exact ordered_sorted hranged hpos

theorem addExceptionEdges_ordered {is : List Instr} (h : build is = .ok g)
    (edges : List (Nat × Nat)) : (g.addExceptionEdges edges).Ordered := by
  have hranged := addExceptionEdges_ranged h edges
  have hpos := (build_block_zero h).1
  rw [← (sameRuns_addExceptionEdges g edges).size] at hpos
  obtain ⟨linked, hlinked⟩ : ∃ linked, g.addExceptionEdges edges = sorted linked := ⟨_, rfl⟩
  rw [hlinked] at hranged hpos ⊢
  exact ordered_sorted hranged hpos

/-- **The graph of a body links what control and exceptions link.** -/
theorem links_of_build {is : List Instr} {edges : List (Nat × Nat)} (hbuild : build is = .ok g)
    (hedges : ∀ o h, (o, h) ∈ edges → o < is.length ∧ h < is.length) :
    (g.addExceptionEdges edges).Links is edges := by
  have hruns := sameRuns_addExceptionEdges g edges
  have hordered := addExceptionEdges_ordered hbuild edges
  have hlast : ∀ b, ((g.addExceptionEdges edges).block b).last = (g.block b).last :=
    fun b => congrArg (· - 1) (hruns.stop b)
  exact {
    partitions := hruns.partitions (build_partitions hbuild)
    target := fun i hi t ht => ⟨build_target_lt hbuild hi ht,
      (hruns.isLeader t).trans (build_isLeader_target hbuild hi ht)⟩
    ends := fun i hi hend hlt => (hruns.isLeader _).trans (build_isLeader_succ hbuild hi hend hlt)
    named := fun b hb i hi e he => by
      rw [edgesOf_sameRuns hruns] at he
      rw [hlast] at hi
      rw [hruns.size] at hb
      exact addExceptionEdges_successors.mpr (.inl ((build_successors hbuild).mpr ⟨hb, i, hi, he⟩))
    only := fun b e he hkind => by
      rw [hlast]
      simp only [edgesOf_sameRuns hruns]
      rcases addExceptionEdges_successors.mp he with he | ⟨o, h, c, -, -, -, -, rfl⟩
      · exact ((build_successors hbuild).mp he).2
      · exact absurd rfl hkind
    raised := fun o h hmem => by
      obtain ⟨ho, hh⟩ := hedges o h hmem
      rw [hruns.blockAt, hruns.blockAt]
      exact addExceptionEdges_successors.mpr (.inr ⟨o, h, _, hmem,
        (build_blockOf hbuild).mpr ⟨ho, rfl⟩, (build_blockOf hbuild).mpr ⟨hh, rfl⟩,
        (build_partitions hbuild).blockAt_lt o ho, rfl⟩)
    entry := by
      rw [hruns.blockAt, (build_block_zero hbuild).2.2]
      exact (hordered.mem_iff 0).mpr .refl
    closed := fun b hb e he => (hordered.mem_iff e.1).mpr
      (((hordered.mem_iff b).mp hb).tail (List.mem_map_of_mem he)) }

/-- An operation that names an offset is the last of its block, and the offset starts a block. -/
theorem Links.ends_at {is : List Instr} {edges : List (Nat × Nat)} (hg : g.Links is edges)
    (hd : Dense is) {o t : Nat} {i : Instr} (hi : is[o]? = some i) (ht : t ∈ i.op.targets) :
    (g.block (g.blockAt o)).last = o ∧ (g.block (g.blockAt t)).start = t := by
  have hi' := List.mem_of_getElem? hi
  have hend : endsBlock i.op = true := by
    rw [endsBlock, Bool.or_eq_true, Bool.not_eq_true']
    exact .inr (List.isEmpty_eq_false_iff.mpr (List.ne_nil_of_mem ht))
  refine ⟨?_, isLeader_iff.mp (hg.target i hi' t ht).2⟩
  refine hg.partitions.last_eq (List.getElem?_eq_some_iff.mp hi).1 fun hlt => ?_
  rw [← hd o i hi] at hlt ⊢
  exact hg.ends i hi' hend hlt

/-- The edges of an operation that ends its block. -/
theorem Links.edge {is : List Instr} {edges : List (Nat × Nat)} (hg : g.Links is edges)
    {o : Nat} {i : Instr} (hi : is[o]? = some i) (hlast : (g.block (g.blockAt o)).last = o)
    (he : e ∈ g.edgesOf is.length i) : e ∈ (g.block (g.blockAt o)).successors := by
  have hb := hg.partitions.blockAt_lt o (List.getElem?_eq_some_iff.mp hi).1
  exact hg.named _ hb i (hlast.symm ▸ hi) e he

/-- **Control goes on inside a block, or along an edge to the start of another.** -/
theorem Links.goesTo {is : List Instr} {edges : List (Nat × Nat)} (hg : g.Links is edges)
    (hd : Dense is) {o t : Nat} {i : Instr} (hi : is[o]? = some i) (hgo : i.op.GoesTo o t)
    (ht : t < is.length) :
    (t = o + 1 ∧ g.blockAt t = g.blockAt o)
      ∨ ((g.block (g.blockAt o)).last = o ∧ (g.block (g.blockAt t)).start = t
        ∧ ∃ kind, kind ≠ .exception ∧ (g.blockAt t, kind) ∈ (g.block (g.blockAt o)).successors) := by
  have hlt : o < is.length := (List.getElem?_eq_some_iff.mp hi).1
  have hb := hg.partitions.blockAt_lt o hlt
  obtain ⟨hstart, hstop⟩ := hg.partitions.holds o hlt
  have hedge : (g.block (g.blockAt o)).last = o →
      ∃ kind, kind ≠ .exception ∧ (g.blockAt t, kind) ∈ (g.block (g.blockAt o)).successors := by
    intro hlast
    obtain ⟨kind, hkind, he⟩ := edge_of_goesTo (g := g) ((hd o i hi).symm ▸ hgo) ht
    exact ⟨kind, hkind, hg.edge hi hlast he⟩
  rcases hgo with ⟨hforced, rfl⟩ | hbranch | ⟨states, k, hop, hk⟩
  · by_cases hin : o + 1 < (g.block (g.blockAt o)).stop
    · exact .inl ⟨rfl, hg.partitions.unique _ hb _ (by omega) hin⟩
    · have hlast : (g.block (g.blockAt o)).last = o := by
        rw [BasicBlock.last]
        omega
      refine .inr ⟨hlast, ?_, hedge hlast⟩
      -- else the block of the next offset would hold this one too
      obtain ⟨hstart', hstop'⟩ := hg.partitions.holds (o + 1) ht
      by_contra hne
      have hsame := hg.partitions.unique _ (hg.partitions.blockAt_lt (o + 1) ht) o (by omega)
        (by omega)
      rw [hsame] at hin
      exact hin hstop'
  · obtain ⟨hlast, hstart⟩ := hg.ends_at hd hi (List.mem_append_left _ (List.mem_append_left _
      (Option.mem_toList.mpr hbranch)))
    exact .inr ⟨hlast, hstart, hedge hlast⟩
  · obtain ⟨hlast, hstart⟩ := hg.ends_at hd hi (List.mem_append_right _ (by
      rw [hop]
      exact List.mem_map_of_mem hk))
    exact .inr ⟨hlast, hstart, hedge hlast⟩

end FlowGraph

end Stackwise
