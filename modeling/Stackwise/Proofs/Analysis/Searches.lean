import Mathlib.Algebra.BigOperators.Intervals
import Mathlib.Logic.Relation
import Stackwise.Proofs.Analysis.Blocks

/-!
# The order of a graph

The depth-first search of a flow graph taken apart into its moves, and what the order that it leaves
says about the edges.

* `Reaches`: a block can be reached from another one along the edges.
* `SearchMove`, `search_moves`: the moves of a search; the edges and blocks that are left bound the
  moves that are left, so a search ends with nothing under way.
* `Searching`: what every move keeps. The blocks under way are a path from the entry, and each
  successor of a listed block is listed behind it or leads back to it.
* `Ordered`, `ordered_sorted`: the order lists what the entry reaches, each block once and the entry
  first, and an edge that is on no cycle leads to a later block.
-/

namespace Stackwise

namespace FlowGraph

variable {g : FlowGraph} {b c u v : Nat}

/-! ## 1. Moves -/

/-- Edges lead to blocks of the graph. -/
def Ranged (g : FlowGraph) : Prop := ∀ b, ∀ c ∈ g.successors b, c < g.size

/-- Some path along the edges leads from one block to another. -/
def Reaches (g : FlowGraph) : Nat → Nat → Prop :=
  Relation.ReflTransGen fun b c => c ∈ g.successors b

/-- A search under way. -/
structure SearchState where
  /-- The blocks under way, each with the successors that it has not tried. -/
  stack : List (Nat × List Nat)
  /-- The blocks that were begun. -/
  visited : BitSet
  /-- The blocks that were finished, the last one first. -/
  order : List Nat

/-- The blocks that a search has begun and not finished, the last one first. -/
def SearchState.path (s : SearchState) : List Nat := s.stack.map (·.1)

/-- A move of a search: a block that has tried all its successors is listed, a visited successor is
passed over, another one is begun. -/
inductive SearchMove (g : FlowGraph) : SearchState → SearchState → Prop
  | finish {b rest visited order} :
    SearchMove g ⟨(b, []) :: rest, visited, order⟩ ⟨rest, visited, b :: order⟩
  | pass {b c cs rest visited order} (hc : visited.contains c = true) :
    SearchMove g ⟨(b, c :: cs) :: rest, visited, order⟩ ⟨(b, cs) :: rest, visited, order⟩
  | enter {b c cs rest visited order} (hc : visited.contains c = false) :
    SearchMove g ⟨(b, c :: cs) :: rest, visited, order⟩
      ⟨(c, g.successors c) :: (b, cs) :: rest, visited.insert c, order⟩

/-- What a search has not begun: the blocks that were not visited, and their edges. -/
def unvisited (g : FlowGraph) (visited : BitSet) : Nat :=
  ∑ b ∈ (Finset.range g.size).filter fun b => visited.contains b = false,
    ((g.successors b).length + 1)

/-- What a search has begun and not finished. -/
def underWay (stack : List (Nat × List Nat)) : Nat := (stack.map fun p => p.2.length + 1).sum

theorem unvisited_insert {visited : BitSet} (hc : c < g.size) (hnew : visited.contains c = false) :
    g.unvisited visited = g.unvisited (visited.insert c) + ((g.successors c).length + 1) := by
  have hmem : c ∈ (Finset.range g.size).filter fun b => visited.contains b = false :=
    Finset.mem_filter.mpr ⟨Finset.mem_range.mpr hc, hnew⟩
  rw [unvisited, ← Finset.sum_erase_add _ _ hmem, unvisited]
  congr 2
  ext x
  simp only [Finset.mem_erase, Finset.mem_filter, Finset.mem_range, BitSet.contains_insert,
    Bool.or_eq_false_iff, decide_eq_false_iff_not, ne_eq]
  exact and_left_comm

/-- **A search with enough steps left moves on until nothing is under way.** -/
theorem search_moves (hg : g.Ranged) {fuel : Nat} {stack : List (Nat × List Nat)}
    {visited : BitSet} {order : List Nat} (hsub : ∀ p ∈ stack, ∀ c ∈ p.2, c < g.size)
    (hfuel : g.unvisited visited + underWay stack ≤ fuel) :
    Relation.ReflTransGen (SearchMove g) ⟨stack, visited, order⟩
      ⟨[], (g.search fuel stack visited order).2, (g.search fuel stack visited order).1⟩ := by
  induction fuel, stack, visited, order using search.induct g with
  | case1 stack visited order =>
    cases stack with
    | nil => exact .refl
    | cons p rest =>
      simp only [underWay, List.map_cons, List.sum_cons] at hfuel
      omega
  | case2 fuel visited order => exact .refl
  | case3 fuel b rest visited order ih =>
    rw [search]
    refine (ih (fun p hp => hsub p (.tail _ hp)) ?_).head .finish
    simp only [underWay, List.map_cons, List.sum_cons] at hfuel ⊢
    omega
  | case4 fuel b c cs rest visited order hvisited ih =>
    rw [search, if_pos hvisited]
    refine (ih (fun p hp d hd => ?_) ?_).head (.pass hvisited)
    · rcases List.mem_cons.mp hp with rfl | hp
      · exact hsub _ (.head _) d (.tail _ hd)
      · exact hsub p (.tail _ hp) d hd
    · simp only [underWay, List.map_cons, List.sum_cons, List.length_cons] at hfuel ⊢
      omega
  | case5 fuel b c cs rest visited order hnew ih =>
    have hnew := Bool.eq_false_iff.mpr hnew
    rw [search, if_neg (Bool.eq_false_iff.mp hnew)]
    refine (ih (fun p hp d hd => ?_) ?_).head (.enter hnew)
    · rcases List.mem_cons.mp hp with rfl | hp
      · exact hg c d hd
      · rcases List.mem_cons.mp hp with rfl | hp
        · exact hsub _ (.head _) d (.tail _ hd)
        · exact hsub p (.tail _ hp) d hd
    · rw [unvisited_insert (hsub _ (.head _) c (.head _)) hnew] at hfuel
      simp only [underWay, List.map_cons, List.sum_cons, List.length_cons] at hfuel ⊢
      omega

theorem searchBound_eq (g : FlowGraph) :
    g.searchBound = ∑ b ∈ Finset.range g.size, ((g.successors b).length + 1) + 1 := by
  have hfold : ∀ (bs : List BasicBlock) (n : Nat),
      bs.foldl (fun n b => n + b.successors.length + 1) n
        = (bs.map fun b => b.successors.length + 1).sum + n := by
    intro bs
    induction bs with
    | nil => simp
    | cons b bs ih =>
      intro n
      rw [List.foldl_cons, ih, List.map_cons, List.sum_cons]
      omega
  have hsum : ∀ bs : List BasicBlock,
      ∑ b ∈ Finset.range bs.length, ((bs.getD b default).successors.length + 1)
        = (bs.map fun b => b.successors.length + 1).sum := by
    intro bs
    induction bs with
    | nil => rfl
    | cons b bs ih =>
      rw [List.length_cons, Finset.sum_range_succ', List.map_cons, List.sum_cons, add_comm, ← ih]
      rfl
  rw [searchBound, ← Array.foldl_toList, hfold, ← hsum, Array.length_toList, size]
  refine congrArg (· + 1) (Finset.sum_congr rfl fun b _ => ?_)
  rw [successors, List.length_map, block, Array.getD_eq_getD_getElem?, List.getD_eq_getElem?_getD,
    Array.getElem?_toList]

/-! ## 2. What every move keeps -/

/-- Each successor of a listed block stands behind it or leads back to it. -/
def Descends (g : FlowGraph) : List Nat → Prop
  | [] => True
  | b :: rest => (∀ c ∈ g.successors b, c ∈ rest ∨ g.Reaches c b) ∧ g.Descends rest

/-- What every move of a search keeps. -/
structure Searching (g : FlowGraph) (s : SearchState) : Prop where
  /-- The blocks that were begun are those under way and those that were finished. -/
  seen : ∀ b, s.visited.contains b = true ↔ b ∈ s.path ++ s.order
  once : (s.path ++ s.order).Nodup
  /-- Each block under way is a successor of the one that was begun before it. -/
  chain : s.path.IsChain fun b c => b ∈ g.successors c
  root : s.path.getLast? = some 0 ∨ s.path = [] ∧ s.order.head? = some 0
  untried : ∀ p ∈ s.stack, p.2 ⊆ g.successors p.1
  tried : ∀ p ∈ s.stack, ∀ c ∈ g.successors p.1, c ∈ p.2 ∨ s.visited.contains c = true
  closed : ∀ b ∈ s.order, ∀ c ∈ g.successors b, s.visited.contains c = true
  descends : g.Descends s.order
  reached : ∀ b, s.visited.contains b = true → g.Reaches 0 b

/-- Each block under way leads to the one that was begun last. -/
theorem reaches_of_chain {bs : List Nat} (h : (b :: bs).IsChain fun b c => b ∈ g.successors c)
    (hc : c ∈ b :: bs) : g.Reaches c b := by
  rcases List.mem_cons.mp hc with rfl | hc
  · exact .refl
  · have hpairs := (h.imp fun _ _ hbc => Relation.ReflTransGen.single hbc).pairwise
    exact Relation.reflTransGen_swap.mp (List.rel_of_pairwise_cons hpairs hc)

theorem Searching.finish {rest : List (Nat × List Nat)} {visited : BitSet} {order : List Nat}
    (h : Searching g ⟨(b, []) :: rest, visited, order⟩) :
    Searching g ⟨rest, visited, b :: order⟩ := by
  have hmove : (rest.map (·.1) ++ b :: order).Perm (b :: rest.map (·.1) ++ order) :=
    List.perm_middle
  have hall : ∀ c ∈ g.successors b, visited.contains c = true := fun c hc =>
    (h.tried _ (.head _) c hc).resolve_left List.not_mem_nil
  refine ⟨fun x => (h.seen x).trans hmove.mem_iff.symm, hmove.nodup_iff.mpr h.once, h.chain.tail,
    ?_, fun p hp => h.untried p (.tail _ hp), fun p hp => h.tried p (.tail _ hp), fun x hx c hc => ?_,
    ⟨fun c hc => ?_, h.descends⟩, h.reached⟩
  · have hlast := h.root.resolve_right fun hnil => List.cons_ne_nil _ _ hnil.1
    cases rest with
    | nil => exact .inr ⟨rfl, hlast⟩
    | cons p rest => exact .inl hlast
  · rcases List.mem_cons.mp hx with rfl | hx
    · exact hall c hc
    · exact h.closed x hx c hc
  · rcases List.mem_append.mp ((h.seen c).mp (hall c hc)) with hpath | hlisted
    · exact .inr (reaches_of_chain h.chain hpath)
    · exact .inl hlisted

theorem Searching.pass {cs : List Nat} {rest : List (Nat × List Nat)} {visited : BitSet}
    {order : List Nat} (h : Searching g ⟨(b, c :: cs) :: rest, visited, order⟩)
    (hc : visited.contains c = true) : Searching g ⟨(b, cs) :: rest, visited, order⟩ := by
  refine ⟨h.seen, h.once, h.chain, h.root, fun p hp => ?_, fun p hp d hd => ?_, h.closed,
    h.descends, h.reached⟩
  · rcases List.mem_cons.mp hp with rfl | hp
    · exact List.subset_of_cons_subset (h.untried _ (.head _))
    · exact h.untried p (.tail _ hp)
  · rcases List.mem_cons.mp hp with rfl | hp
    · rcases h.tried _ (.head _) d hd with hcs | hseen
      · rcases List.mem_cons.mp hcs with rfl | hcs
        · exact .inr hc
        · exact .inl hcs
      · exact .inr hseen
    · exact h.tried p (.tail _ hp) d hd

theorem Searching.enter {cs : List Nat} {rest : List (Nat × List Nat)} {visited : BitSet}
    {order : List Nat} (h : Searching g ⟨(b, c :: cs) :: rest, visited, order⟩)
    (hc : visited.contains c = false) :
    Searching g ⟨(c, g.successors c) :: (b, cs) :: rest, visited.insert c, order⟩ := by
  have hedge : c ∈ g.successors b := h.untried _ (.head _) (.head _)
  have hseen : ∀ x, (visited.insert c).contains x = true ↔ x = c ∨ visited.contains x = true := by
    intro x
    rw [BitSet.contains_insert, Bool.or_eq_true, decide_eq_true_iff]
  refine ⟨fun x => ?_, ?_, List.isChain_cons_cons.mpr ⟨hedge, h.chain⟩, ?_, fun p hp => ?_,
    fun p hp d hd => ?_, fun x hx d hd => (hseen d).mpr (.inr (h.closed x hx d hd)), h.descends,
    fun x hx => ?_⟩
  · exact (hseen x).trans ((or_congr_right (h.seen x)).trans List.mem_cons.symm)
  · refine List.nodup_cons.mpr ⟨fun hmem => ?_, h.once⟩
    exact Bool.false_ne_true (hc.symm.trans ((h.seen c).mpr hmem))
  · have hlast := h.root.resolve_right fun hnil => List.cons_ne_nil _ _ hnil.1
    exact .inl (List.getLast?_cons_cons.trans hlast)
  · rcases List.mem_cons.mp hp with rfl | hp
    · exact List.Subset.refl _
    · rcases List.mem_cons.mp hp with rfl | hp
      · exact List.subset_of_cons_subset (h.untried _ (.head _))
      · exact h.untried p (.tail _ hp)
  · rcases List.mem_cons.mp hp with rfl | hp
    · exact .inl hd
    · rcases List.mem_cons.mp hp with rfl | hp
      · rcases h.tried _ (.head _) d hd with hcs | hvisited
        · rcases List.mem_cons.mp hcs with rfl | hcs
          · exact .inr ((hseen d).mpr (.inl rfl))
          · exact .inl hcs
        · exact .inr ((hseen d).mpr (.inr hvisited))
      · exact (h.tried p (.tail _ hp) d hd).imp_right fun hvisited => (hseen d).mpr (.inr hvisited)
  · rcases (hseen x).mp hx with rfl | hx
    · exact (h.reached b ((h.seen b).mpr (.head _))).tail hedge
    · exact h.reached x hx

theorem Searching.moves {s s' : SearchState} (h : Searching g s)
    (hm : Relation.ReflTransGen (SearchMove g) s s') : Searching g s' := by
  induction hm with
  | refl => exact h
  | tail _ hmove ih =>
    cases hmove with
    | finish => exact ih.finish
    | pass hc => exact ih.pass hc
    | enter hc => exact ih.enter hc

/-! ## 3. The order -/

/-- What the order of a graph says. -/
structure Ordered (g : FlowGraph) : Prop where
  /-- It lists the blocks that the entry reaches. -/
  mem_iff : ∀ b, b ∈ g.order ↔ g.Reaches 0 b
  /-- So does the set of reachable blocks. -/
  reachable_iff : ∀ b, g.reachable.contains b = true ↔ g.Reaches 0 b
  nodup : g.order.Nodup
  entry : g.order.head? = some 0
  /-- An edge from which no way leads back goes to a later block. -/
  forward : ∀ u v, g.Reaches 0 u → v ∈ g.successors u → ¬ g.Reaches v u →
    g.order.idxOf u < g.order.idxOf v

theorem Descends.forward {order : List Nat} (h : g.Descends order) (hnodup : order.Nodup)
    (hu : u ∈ order) (hv : v ∈ g.successors u) (hback : ¬ g.Reaches v u) :
    v ∈ order ∧ order.idxOf u < order.idxOf v := by
  induction order with
  | nil => cases hu
  | cons b rest ih =>
    obtain ⟨hb, hrest⟩ := List.nodup_cons.mp hnodup
    -- `v` stands behind `b`, whether `u` is `b` or stands behind it too
    have hmem : v ∈ rest ∧ (u = b ∨ u ∈ rest ∧ rest.idxOf u < rest.idxOf v) := by
      rcases List.mem_cons.mp hu with rfl | hu
      · exact ⟨(h.1 v hv).resolve_right hback, .inl rfl⟩
      · obtain ⟨hv, hlt⟩ := ih h.2 hrest hu
        exact ⟨hv, .inr ⟨hu, hlt⟩⟩
    obtain ⟨hv, hu⟩ := hmem
    have hvb : v ≠ b := fun heq => hb (heq ▸ hv)
    refine ⟨.tail _ hv, ?_⟩
    rw [List.idxOf_cons_ne _ hvb.symm]
    rcases hu with rfl | ⟨hu, hlt⟩
    · rw [List.idxOf_cons_self]
      exact Nat.succ_pos _
    · have hub : u ≠ b := fun heq => hb (heq ▸ hu)
      rw [List.idxOf_cons_ne _ hub.symm]
      exact Nat.succ_lt_succ hlt

/-- **The order of a graph lists what the entry reaches**, and edges that are on no cycle go
forward in it. -/
theorem ordered_sorted (hg : g.Ranged) (hpos : 0 < g.size) : g.sorted.Ordered := by
  have hroot : ∀ b, ((BitSet.withCapacity g.size).insert 0).contains b = true ↔ b = 0 := by
    intro b
    rw [BitSet.contains_insert, BitSet.contains_withCapacity, Bool.or_false, decide_eq_true_iff]
  have hstart : Searching g
      ⟨[(0, g.successors 0)], (BitSet.withCapacity g.size).insert 0, []⟩ := by
    refine ⟨fun b => (hroot b).trans List.mem_singleton.symm, List.nodup_singleton 0,
      List.isChain_singleton 0, .inl rfl, fun p hp => ?_, fun p hp c hc => .inl ?_,
      fun b hb => absurd hb List.not_mem_nil, trivial, fun b hb => ?_⟩
    · cases List.mem_singleton.mp hp
      exact List.Subset.refl _
    · cases List.mem_singleton.mp hp
      exact hc
    · rw [(hroot b).mp hb]
      exact .refl
  have hfuel : g.unvisited ((BitSet.withCapacity g.size).insert 0)
      + underWay [(0, g.successors 0)] ≤ g.searchBound := by
    have hall : g.unvisited (BitSet.withCapacity g.size)
        = ∑ b ∈ Finset.range g.size, ((g.successors b).length + 1) := by
      rw [unvisited, Finset.filter_true_of_mem fun b _ => BitSet.contains_withCapacity b g.size]
    rw [searchBound_eq, ← hall, unvisited_insert hpos (BitSet.contains_withCapacity 0 g.size)]
    simp only [underWay, List.map_cons, List.sum_cons, List.map_nil, List.sum_nil]
    omega
  have hsub : ∀ p ∈ [(0, g.successors 0)], ∀ c ∈ p.2, c < g.size := by
    rintro p hp c hc
    cases List.mem_singleton.mp hp
    exact hg 0 c hc
  have hend := hstart.moves (search_moves hg hsub hfuel)
  have hfirst := (hend.root.resolve_left nofun).2
  have hmem : ∀ b, b ∈ g.sorted.order ↔ g.Reaches 0 b := by
    refine fun b => ⟨fun hb => hend.reached b ((hend.seen b).mpr hb), fun hb => ?_⟩
    induction hb with
    | refl => exact List.mem_of_head? hfirst
    | tail _ hc ih => exact (hend.seen _).mp (hend.closed _ ih _ hc)
  exact {
    mem_iff := hmem
    reachable_iff := fun b => (hend.seen b).trans (hmem b)
    nodup := hend.once
    entry := hfirst
    forward := fun u v hu hv hback =>
      (hend.descends.forward hend.once ((hmem u).mpr hu) hv hback).2 }

end FlowGraph

end Stackwise
