import Stackwise.Proofs.Analysis.Edges
import Stackwise.Proofs.Analysis.Handlers

/-!
# Reached blocks and the shape of a flow graph

The graph of a body, once it has the edges of the exceptions that the analysis found, reaches what
the analysis reaches. Nothing is asked of the state at the entry of the body: where it is dead,
nothing is reached and no exception is found.

* `analyze_dead`: the analysis of a body whose entry is dead.
* `analyze_edge`, `analyze_unwinds`: exceptions lead from live offsets of the body to starts of
  blocks.
* `Solves.listed`, `analyze_listed`: the block of a live offset is in the order of the graph.

A flow graph that was built is well formed, before and after these edges are added.

* `Shaped`: the blocks tile the body, control leaves them at their ends and enters them at their
  starts.
* `Mirrored`: an edge stands once among the successors of its source and once among the predecessors
  of its target. Every edge that is added keeps this.
* `build_wellFormed`: both hold of a built graph, and its order is that of its edges; with the edges
  of an analysis it reaches every live offset.
-/

namespace Stackwise

namespace Fixpoint

variable {ty : Typer} {is : List Instr} {g : FlowGraph} {entry : AbstractState} {a : Analysis}
  {o t : Nat}

/-! ## 1. A dead entry -/

/-- **A body that starts in a dead state** is dead everywhere. -/
theorem analyze_dead (hg : FlowGraph.build is = .ok g) (hdead : entry.dead = true)
    (h : analyze ty is g entry = .ok a) :
    a.exceptionEdges = [] ∧ ∀ o, (a.state o).dead = true := by
  obtain ⟨⟨left, p⟩, hit, h⟩ := bind_eq_ok.mp h
  cases h
  obtain ⟨hsize, -, -⟩ := FlowGraph.build_block_zero hg
  -- the entry block is visited once, and nothing leaves it
  generalize stepBound ty.config ty.model g.size is.length entry = bound at hit
  cases bound with
  | zero => cases hit
  | succ n =>
    obtain ⟨p₁, hvisit, hit⟩ := bind_eq_ok.mp hit
    have hfirst : ((start g is.length entry).entryOf 0).dead = true := by
      rw [(start_entryOf (b := 0) hsize).1]
      exact hdead
    obtain ⟨p', hvisit', -, hwork, hedges, hstates⟩ :=
      visitFrom_dead ⟨is.toArray, g, ty⟩ (g.block 0).last (g.block 0).offsets
        { start g is.length entry with worklist := [] } hfirst
    obtain rfl : p₁ = p' := Except.ok.inj (hvisit.symm.trans hvisit')
    unfold iterate at hit
    rw [hwork] at hit
    cases hit
    exact ⟨hedges, fun o => hstates o (start_before (g := g))⟩

/-- **Exceptions lead from offsets of the body to starts of blocks.** -/
theorem analyze_edge (hd : Dense is) (hg : FlowGraph.build is = .ok g)
    (h : analyze ty is g entry = .ok a) (he : (o, t) ∈ a.exceptionEdges) :
    o < is.length ∧ t < is.length ∧ g.isLeader t = true := by
  cases hlive : entry.dead with
  | true =>
    rw [(analyze_dead hg hlive h).1] at he
    cases he
  | false =>
    obtain ⟨p, hinv, hwork, -, hedges⟩ :=
      analyze_inv (AbstractState.ascending_keepsForm ty.model) hd hg hlive h
    have hedge := hinv.edge (wellFormed_of_build hd hg) hwork (hedges ▸ he)
    rw [List.size_toArray] at hedge
    exact hedge

/-- An exception leaves a live state for the handler of its innermost protected block. -/
theorem analyze_unwinds (hd : Dense is) (hg : FlowGraph.build is = .ok g)
    (h : analyze ty is g entry = .ok a) (he : (o, t) ∈ a.exceptionEdges) :
    (a.state o).dead = false ∧ ∃ u, (a.state o).unwind? = some u ∧ u.handler = t := by
  cases hlive : entry.dead with
  | true =>
    rw [(analyze_dead hg hlive h).1] at he
    cases he
  | false =>
    have hs := analyze_solves (AbstractState.ascending_keepsForm ty.model) hd hg hlive h
    obtain ⟨hl, -, -, -, hu⟩ := (hs.edges o t).mp he
    exact ⟨hl, hu⟩

end Fixpoint

namespace Analysis

variable {ty : Typer} {is : List Instr} {g : FlowGraph} {entry : AbstractState} {a : Analysis}
  {o : Nat}

/-! ## 2. Reached blocks -/

/-- **The order of the graph lists the block of every live offset.** -/
theorem Solves.listed (hs : a.Solves ty is entry AbstractState.KeepsForm)
    (hg : g.Links is a.exceptionEdges) (hd : Dense is) (hlive : (a.state o).dead = false) :
    g.blockAt o ∈ g.order := by
  have hreach := (hs.live o).mp hlive
  clear hlive
  induction hreach with
  | refl => exact hg.entry
  | @tail o t hreach hstep ih =>
    have hlive := (hs.live o).mpr hreach
    have hlt := hs.lt ((hs.live t).mpr (hreach.tail hstep))
    have hgoes : ∀ {i}, is[o]? = some i → i.op.GoesTo o t → g.blockAt t ∈ g.order := by
      intro i hi hgo
      rcases hg.goesTo hd hi hgo hlt with ⟨-, hsame⟩ | ⟨-, -, kind, -, he⟩
      · exact hsame ▸ ih
      · exact hg.closed _ ih _ he
    obtain ⟨i, hi, ⟨tr, htr, w, hw, rfl⟩ | ⟨hmay, u, hu, rfl⟩⟩ := hstep
    · obtain ⟨ws, hm, -⟩ := hs.moves hi hlive
      have hws := Option.some.inj (hm.symm.trans (Op.effect_follows htr).1)
      have hmem : (w.1, w.2.depth, w.2.blocks) ∈ ws := by
        rw [hws]
        exact List.mem_map.mpr ⟨w, hw, rfl⟩
      obtain ⟨succ, s⟩ := w
      cases succ with
      | next => exact hgoes hi (.inl ⟨Op.moves_next hm hmem, rfl⟩)
      | jump t =>
        rcases Op.moves_jump hm hmem with hbranch | hhandler
        · exact hgoes hi (.inr (.inl hbranch))
        · -- the handler of a block that is opened here
          have htarget : t ∈ i.op.targets :=
            List.mem_append_left _ (List.mem_append_right _ (Option.mem_toList.mpr hhandler))
          obtain ⟨hlast, -⟩ := hg.ends_at hd hi htarget
          have he : (g.blockAt t, EdgeKind.exception) ∈ g.edgesOf is.length i := by
            rw [FlowGraph.edgesOf, hhandler]
            exact List.mem_append_left _ (List.mem_append_right _ (.head _))
          exact hg.closed _ ih _ (hg.edge hi hlast he)
    · exact hg.closed _ ih _
        (hg.raised o u.handler ((hs.edges o u.handler).mpr ⟨hlive, i, hi, hmay, u, hu, rfl⟩))

end Analysis

namespace Fixpoint

variable {ty : Typer} {is : List Instr} {g : FlowGraph} {entry : AbstractState} {a : Analysis}
  {o : Nat}

theorem analyze_links (hd : Dense is) (hg : FlowGraph.build is = .ok g)
    (h : analyze ty is g entry = .ok a) :
    (g.addExceptionEdges a.exceptionEdges).Links is a.exceptionEdges := by
  refine FlowGraph.links_of_build hg fun o t he => ?_
  obtain ⟨ho, ht, -⟩ := analyze_edge hd hg h he
  exact ⟨ho, ht⟩

theorem analyze_listed (hd : Dense is) (hg : FlowGraph.build is = .ok g)
    (h : analyze ty is g entry = .ok a) (hlive : (a.state o).dead = false) :
    (g.addExceptionEdges a.exceptionEdges).blockAt o
      ∈ (g.addExceptionEdges a.exceptionEdges).order := by
  cases hentry : entry.dead with
  | true =>
    rw [(analyze_dead hg hentry h).2 o] at hlive
    cases hlive
  | false =>
    exact (analyze_solves (AbstractState.ascending_keepsForm ty.model) hd hg hentry h).listed
      (analyze_links hd hg h) hd hlive

end Fixpoint

namespace FlowGraph

variable {g g' : FlowGraph} {is : List Instr} {n : Nat}

/-! ## 3. Tiles -/

/-- The blocks tile a body; control leaves them at their ends and enters them at their starts. -/
structure Shaped (g : FlowGraph) (is : List Instr) : Prop where
  /-- The offsets of the blocks, block after block, are those of the body. -/
  tiles : (List.range g.size).flatMap (fun b => (g.block b).offsets) = List.range is.length
  nonempty : ∀ b < g.size, (g.block b).start < (g.block b).stop
  /-- An offset is in the block that is looked up for it. -/
  blockAt_eq : ∀ b < g.size, ∀ o ∈ (g.block b).offsets, g.blockAt o = b
  /-- What jumps, opens a block, suspends or leaves is the last operation of a block. -/
  ends : ∀ (o : Nat) (i : Instr), is[o]? = some i →
    i.op.targets ≠ [] ∨ i.op.suspends = true ∨ i.op.isForcedJump = true →
    (g.block (g.blockAt o)).last = o
  /-- What an operation names is an offset of the body, the first one of a block. -/
  target : ∀ (o : Nat) (i : Instr) (t : Nat), is[o]? = some i → t ∈ i.op.targets →
    t < is.length ∧ (g.block (g.blockAt t)).start = t
  /-- A resume point is the first operation of a block. -/
  resume : ∀ (o : Nat) (i : Instr) (k : Nat), is[o]? = some i → i.op = .resumePoint k →
    (g.block (g.blockAt o)).start = o

theorem runs_offsets {a : Nat} {ls : List Nat} (h : Cuts n (a :: ls)) :
    (runs n (a :: ls)).flatMap BasicBlock.offsets = List.range' a (n - a) := by
  induction ls generalizing a with
  | nil => rw [runs, List.flatMap_singleton, BasicBlock.offsets_eq]
  | cons c rest ih =>
    have hac : a < c := (List.pairwise_cons.mp h.1).1 c List.mem_cons_self
    have hcn : c < n := h.tail.2 c List.mem_cons_self
    obtain ⟨k, rfl⟩ := Nat.exists_eq_add_of_le (Nat.le_of_lt hac)
    rw [runs, List.flatMap_cons, ih h.tail, BasicBlock.offsets_eq, Nat.add_sub_cancel_left,
      List.range'_append_1, show k + (n - (a + k)) = n - a by omega]

theorem map_block (g : FlowGraph) : (List.range g.size).map g.block = g.blocks.toList := by
  refine List.ext_getElem (by simp [size]) fun b hb hb' => ?_
  simp only [List.getElem_map, List.getElem_range, Array.getElem_toList, block]
  rw [Array.getD_eq_getD_getElem?, Array.getElem?_eq_getElem (by simpa using hb')]
  rfl

theorem partition_tiles (h : is ≠ []) :
    (List.range (partition is).size).flatMap (fun b => ((partition is).block b).offsets)
      = List.range is.length := by
  obtain ⟨ls, hls⟩ := leaders_eq_cons h
  have hcuts := cuts_leaders is
  rw [hls] at hcuts
  rw [← List.flatMap_map (partition is).block BasicBlock.offsets, map_block, partition,
    List.toList_toArray, hls, runs_offsets hcuts, Nat.sub_zero, List.range_eq_range']

theorem SameRuns.offsets (h : SameRuns g g') (b : Nat) :
    (g'.block b).offsets = (g.block b).offsets := by
  rw [BasicBlock.offsets_eq, BasicBlock.offsets_eq, h.start, h.stop]

theorem SameRuns.last (h : SameRuns g g') (b : Nat) : (g'.block b).last = (g.block b).last :=
  congrArg (· - 1) (h.stop b)

theorem SameRuns.shaped (h : SameRuns g g') (hg : g.Shaped is) : g'.Shaped is where
  tiles := by
    simp only [h.size, h.offsets]
    exact hg.tiles
  nonempty b hb := by
    rw [h.start, h.stop]
    exact hg.nonempty b (h.size ▸ hb)
  blockAt_eq b hb o ho := by
    rw [h.blockAt]
    rw [h.offsets] at ho
    exact hg.blockAt_eq b (h.size ▸ hb) o ho
  ends o i hi hend := by
    rw [h.last, h.blockAt]
    exact hg.ends o i hi hend
  target o i t hi ht := by
    rw [h.start, h.blockAt]
    exact hg.target o i t hi ht
  resume o i k hi hk := by
    rw [h.start, h.blockAt]
    exact hg.resume o i k hi hk

/-- **The blocks of a built graph tile the body.** -/
theorem build_shaped (hd : Dense is) (h : build is = .ok g) : g.Shaped is where
  tiles := by
    have hruns := build_sameRuns h
    simp only [hruns.size, hruns.offsets]
    exact partition_tiles (build_eq_ok h).1
  nonempty b hb := ((build_partitions h).bounds b hb).1
  blockAt_eq b hb o ho := by
    rw [BasicBlock.offsets_eq, List.mem_range'_1] at ho
    exact (build_partitions h).unique b hb o ho.1 (by omega)
  ends o i hi hend := by
    refine (build_partitions h).last_eq (List.getElem?_eq_some_iff.mp hi).1 fun hlt => ?_
    rw [← hd o i hi] at hlt ⊢
    refine build_isLeader_succ h (List.mem_of_getElem? hi) ?_ hlt
    simp only [endsBlock, Bool.or_eq_true, Bool.not_eq_true', List.isEmpty_eq_false_iff]
    rcases hend with htargets | hsuspends | hforced
    · exact .inr htargets
    · exact .inl (.inr hsuspends)
    · exact .inl (.inl hforced)
  target o i t hi ht := ⟨build_target_lt h (List.mem_of_getElem? hi) ht,
    isLeader_iff.mp (build_isLeader_target h (List.mem_of_getElem? hi) ht)⟩
  resume o i k hi hk := by
    have hlt := (List.getElem?_eq_some_iff.mp hi).1
    refine isLeader_iff.mp ((build_isLeader h hlt).mpr (mem_leaders.mpr ⟨.inr ⟨i, ?_, ?_⟩, hlt⟩))
    · exact List.mem_of_getElem? hi
    · rw [leadersOf, hk, hd o i hi]
      exact List.mem_append_left _ (List.mem_append_right _ (.head _))

/-! ## 4. Both ends of an edge -/

/-- Successors and predecessors are the two ends of the same edges, each one noted once. -/
structure Mirrored (g : FlowGraph) : Prop where
  mem_iff : ∀ u v kind,
    (v, kind) ∈ (g.block u).successors ↔ (u, kind) ∈ (g.block v).predecessors
  successors_nodup : ∀ b, (g.block b).successors.Nodup
  predecessors_nodup : ∀ b, (g.block b).predecessors.Nodup

theorem partition_mirrored (is : List Instr) : (partition is).Mirrored := by
  refine ⟨fun u v kind => ?_, fun b => ?_, fun b => ?_⟩
  · rw [(partition_bare is u).1, (partition_bare is v).2, List.mem_nil_iff, List.mem_nil_iff]
  · rw [(partition_bare is b).1]
    exact List.nodup_nil
  · rw [(partition_bare is b).2]
    exact List.nodup_nil

section Step

variable {src dst : Nat} {kind : EdgeKind}

/-- **An edge between blocks of the graph keeps both ends alike.** -/
theorem Mirrored.addEdge (h : g.Mirrored) (hsrc : src < g.size) (hdst : dst < g.size) :
    (g.addEdge src dst kind).Mirrored := by
  by_cases hold : (dst, kind) ∈ (g.block src).successors
  · rw [addEdge_of_mem hold]
    exact h
  · have hback : (src, kind) ∉ (g.block dst).predecessors := fun hmem =>
      hold ((h.mem_iff src dst kind).mpr hmem)
    refine ⟨fun u v k => ?_, fun b => ?_, fun b => ?_⟩
    · have hpred : (u, k) ∈ ((g.addEdge src dst kind).block v).predecessors
          ↔ (u, k) ∈ (g.block v).predecessors ∨ (v = dst ∧ u = src ∧ k = kind) := by
        rw [(block_addEdge hold v).2]
        split
        · rename_i hv
          rw [List.mem_append, List.mem_singleton, Prod.mk.injEq, ← hv.1]
          simp only [true_and]
        · rename_i hv
          refine ⟨.inl, fun hmem => hmem.resolve_right fun ⟨hv', _⟩ => hv ⟨hv'.symm, hv' ▸ hdst⟩⟩
      rw [mem_addEdge, hpred, h.mem_iff, Prod.mk.injEq]
      refine or_congr_right ⟨fun ⟨hu, _, hv, hk⟩ => ⟨hv, hu, hk⟩, fun ⟨hv, hu, hk⟩ => ?_⟩
      exact ⟨hu, hu ▸ hsrc, hv, hk⟩
    · rw [(block_addEdge hold b).1]
      split
      · rename_i hb
        rw [← hb.1]
        exact (h.successors_nodup src).append (List.nodup_singleton _)
          (List.disjoint_singleton.mpr hold)
      · exact h.successors_nodup b
    · rw [(block_addEdge hold b).2]
      split
      · rename_i hb
        rw [← hb.1]
        exact (h.predecessors_nodup dst).append (List.nodup_singleton _)
          (List.disjoint_singleton.mpr hback)
      · exact h.predecessors_nodup b

theorem Mirrored.addEdges (h : g.Mirrored) (hsrc : src < g.size) {edges : List (Nat × EdgeKind)}
    (hedges : ∀ e ∈ edges, e.1 < g.size) : (g.addEdges src edges).Mirrored := by
  unfold FlowGraph.addEdges
  induction edges generalizing g with
  | nil => exact h
  | cons e edges ih =>
    have hsize := (sameRuns_addEdge g src e.1 e.2).size
    rw [List.foldl_cons]
    refine ih (h.addEdge hsrc (hedges e (.head _))) (by rwa [hsize]) fun e' he' => ?_
    rw [hsize]
    exact hedges e' (.tail _ he')

end Step

theorem Mirrored.sorted (h : g.Mirrored) : g.sorted.Mirrored :=
  ⟨h.mem_iff, h.successors_nodup, h.predecessors_nodup⟩

/-- **The edges of a built graph are noted at both ends.** -/
theorem build_mirrored (h : build is = .ok g) : g.Mirrored := by
  have htargets := fun i hi t => build_target_lt h (i := i) hi (t := t)
  obtain ⟨hne, -, rfl⟩ := build_eq_ok h
  refine Mirrored.sorted ?_
  refine (List.foldlRecOn (motive := fun g => SameRuns (partition is) g ∧ g.Mirrored) _ _
    ⟨.refl _, partition_mirrored is⟩ fun g ⟨hruns, hg⟩ b hb => ?_).2
  split
  · rename_i i hi
    rw [List.getElem?_toArray] at hi
    refine ⟨hruns.trans (sameRuns_addEdges g b _), hg.addEdges ?_ fun e he => ?_⟩
    · rw [hruns.size]
      exact List.mem_range.mp hb
    · exact edgesOf_lt (hruns.partitions (partition_partitions hne))
        (htargets i (List.mem_of_getElem? hi)) he
  · exact ⟨hruns, hg⟩

theorem addExceptionEdges_mirrored (h : build is = .ok g) (edges : List (Nat × Nat)) :
    (g.addExceptionEdges edges).Mirrored := by
  refine Mirrored.sorted ?_
  refine (List.foldlRecOn (motive := fun g' => SameRuns g g' ∧ g'.Mirrored) _ _
    ⟨.refl _, build_mirrored h⟩ fun g' ⟨hruns, hg⟩ e _ => ?_).2
  have hlt : ∀ {o c}, g'.blockOf[o]? = some c → c < g'.size := fun hc => by
    rw [hruns.blockOf, build_blockOf h] at hc
    rw [hruns.size, hc.2]
    exact (build_partitions h).blockAt_lt _ hc.1
  split
  · rename_i ho ht
    exact ⟨hruns.trans (sameRuns_addEdge g' _ _ _), hg.addEdge (hlt ho) (hlt ht)⟩
  · exact ⟨hruns, hg⟩

/-! ## 5. Well-formed graphs -/

/-- What every graph of a body says. -/
structure WellFormed (g : FlowGraph) (is : List Instr) : Prop where
  shaped : g.Shaped is
  mirrored : g.Mirrored
  ordered : g.Ordered

/-- **The graph of a body is well formed**, and so it is with the edges of any exceptions; with
those of an analysis it reaches every live offset. -/
theorem build_wellFormed (hd : Dense is) (h : build is = .ok g) :
    g.WellFormed is ∧ (∀ edges, (g.addExceptionEdges edges).WellFormed is)
      ∧ ∀ ty entry a, Fixpoint.analyze ty is g entry = .ok a → ∀ o, (a.state o).dead = false →
        (g.addExceptionEdges a.exceptionEdges).Reaches 0
          ((g.addExceptionEdges a.exceptionEdges).blockAt o) := by
  have hshaped := build_shaped hd h
  refine ⟨⟨hshaped, build_mirrored h, build_ordered h⟩, fun edges => ?_,
    fun ty entry a ha o hlive => ?_⟩
  · exact ⟨(sameRuns_addExceptionEdges g edges).shaped hshaped, addExceptionEdges_mirrored h edges,
      addExceptionEdges_ordered h edges⟩
  · exact ((addExceptionEdges_ordered h a.exceptionEdges).mem_iff _).mp
      (Fixpoint.analyze_listed hd h ha hlive)

theorem build_wellFormed_guardedLoop :
    Dense Fixpoint.guardedLoop ∧ ∃ g a, build Fixpoint.guardedLoop = .ok g
      ∧ Fixpoint.analyze ⟨TypeModel.empty, [.none], {}⟩ Fixpoint.guardedLoop g (.entry [none] 0)
        = .ok a
      ∧ (1, 5) ∈ a.exceptionEdges ∧ (a.state 8).dead = false
      ∧ g.WellFormed Fixpoint.guardedLoop
      ∧ (g.addExceptionEdges a.exceptionEdges).WellFormed Fixpoint.guardedLoop
      ∧ (g.addExceptionEdges a.exceptionEdges).Reaches 0
        ((g.addExceptionEdges a.exceptionEdges).blockAt 8) := by
  obtain ⟨g, a, hg, ha, hedge, hlive⟩ : ∃ g a, build Fixpoint.guardedLoop = .ok g
      ∧ Fixpoint.analyze ⟨TypeModel.empty, [.none], {}⟩ Fixpoint.guardedLoop g (.entry [none] 0)
        = .ok a
      ∧ (1, 5) ∈ a.exceptionEdges ∧ (a.state 8).dead = false :=
    ⟨_, _, rfl, rfl, by decide, rfl⟩
  obtain ⟨hbuilt, hadded, hreaches⟩ := build_wellFormed Fixpoint.dense_guardedLoop hg
  exact ⟨Fixpoint.dense_guardedLoop, g, a, hg, ha, hedge, hlive, hbuilt, hadded a.exceptionEdges,
    hreaches _ _ a ha 8 hlive⟩

end FlowGraph

end Stackwise
