import Stackwise.Analysis.Suspension
import Stackwise.Proofs.Body.StateMachine

/-!
# The layout of a generator

The suspensions of a state machine are listed by their states, and the list is found in that order,
so a state is its place in the list. What is kept at a state is what is known at its resume point.
-/

namespace Stackwise

namespace GeneratorLayout

variable {is : List Instr} {g : FlowGraph} {a : Analysis} {live : Array BitSet} {locals o k : Nat}
  {j : Instr}

theorem suspensionAt?_id {code : Array Instr} {position : Nat} {i : Instr} {s : Suspension}
    (h : suspensionAt? code live a position i = some s) : i.op.resumed? = some s.id := by
  unfold suspensionAt? at h
  split at h
  · rename_i hop
    cases h
    rw [hop]
    rfl
  · cases h

/-- The suspension of a resume point. -/
theorem suspensionAt?_resumePoint (code : Array Instr) (live : Array BitSet) (a : Analysis)
    (o' : Nat) (hop : j.op = .resumePoint k) :
    ∃ s, suspensionAt? code live a (o' + 1) j = some s ∧ s.id = k
      ∧ s.saved.length = (a.state (o' + 1)).depth
      ∧ s.live = (live.getD (o' + 1) BitSet.empty).toList := by
  obtain ⟨offset, op, line, origin, mark⟩ := j
  obtain rfl : op = .resumePoint k := hop
  exact ⟨_, rfl, rfl, List.length_reverse, rfl⟩

/-- The suspensions in the order in which they are found. -/
def found (is : List Instr) (live : Array BitSet) (a : Analysis) : List Suspension :=
  is.zipIdx.filterMap fun (i, position) => suspensionAt? is.toArray live a position i

theorem mem_zipIdx_iff {p : Instr × Nat} : p ∈ is.zipIdx ↔ is[p.2]? = some p.1 := by
  rw [List.mem_iff_getElem?]
  simp only [List.getElem?_zipIdx, Nat.zero_add, Option.map_eq_some_iff]
  constructor
  · rintro ⟨n, i, hi, rfl⟩
    exact hi
  · intro h
    exact ⟨p.2, p.1, h, rfl⟩

/-- The states are found in the order of the resume points. -/
theorem found_ids (hm : Body.StateMachine is) :
    (found is live a).map (·.id) = (Body.resumePoints is).map (·.1) := by
  have hzip : (is.map (·.op)).filterMap Op.resumed?
      = is.zipIdx.filterMap fun p => p.1.op.resumed? := by
    rw [List.filterMap_map]
    nth_rewrite 1 [← List.zipIdx_map_fst 0 is]
    rw [List.filterMap_map]
    rfl
  rw [Body.resumePoints_states, hzip, found, List.map_filterMap]
  refine List.filterMap_congr fun p hp => ?_
  cases hr : p.1.op.resumed? with
  | none =>
    rw [Option.map_eq_none_iff, Option.eq_none_iff_forall_ne_some]
    intro s hs
    rw [suspensionAt?_id hs] at hr
    cases hr
  | some k =>
    obtain ⟨o', i, ho', -, -⟩ := hm.suspended (mem_zipIdx_iff.mp hp) hr
    obtain ⟨s, hs, hid, -, -⟩ := suspensionAt?_resumePoint is.toArray live a o'
      (Op.resumed?_eq_some.mp hr)
    change Option.map _ (suspensionAt? is.toArray live a p.2 p.1) = _
    rw [ho', hs, Option.map_some, hid]

/-- The suspensions are found in the order of their states. -/
theorem describe_states (hm : Body.StateMachine is) : (describe is g a locals).states
    = found is (Liveness.liveIn is g a.exceptionEdges locals) a := by
  refine List.mergeSort_of_pairwise ?_
  obtain ⟨m, hstates⟩ := hm.states
  have hids : ((found is (Liveness.liveIn is g a.exceptionEdges locals) a).map (·.id)).Pairwise
      (· < ·) := by
    rw [found_ids hm, hstates]
    exact List.pairwise_lt_range'
  exact (List.pairwise_map.mp hids).imp fun h => decide_eq_true (Nat.le_of_lt h)

/-- **A state is found at its number.** -/
theorem describe_found (g : FlowGraph) (a : Analysis) (locals : Nat) (hm : Body.StateMachine is)
    (ho : is[o]? = some j) (hop : j.op = .resumePoint k) : ∃ o' s, o = o' + 1
      ∧ suspensionAt? is.toArray (Liveness.liveIn is g a.exceptionEdges locals) a o j = some s
      ∧ (describe is g a locals).state? k = some s := by
  obtain ⟨o', -, rfl, -, -⟩ := hm.suspended ho (by rw [hop]; rfl)
  obtain ⟨s, hs, hid, -, -⟩ := suspensionAt?_resumePoint is.toArray
    (Liveness.liveIn is g a.exceptionEdges locals) a o' hop
  refine ⟨o', s, rfl, hs, ?_⟩
  have hmem : s ∈ found is (Liveness.liveIn is g a.exceptionEdges locals) a :=
    List.mem_filterMap.mpr ⟨(j, o' + 1), mem_zipIdx_iff.mpr ho, hs⟩
  obtain ⟨n, hn⟩ := List.mem_iff_getElem?.mp hmem
  obtain ⟨m, hstates⟩ := hm.states
  -- the states count from one, so the place of a state is its number less one
  have hk : k = n + 1 := by
    have hat : ((found is (Liveness.liveIn is g a.exceptionEdges locals) a).map (·.id))[n]?
        = some k := by rw [List.getElem?_map, hn, Option.map_some, hid]
    rw [found_ids hm, hstates] at hat
    obtain ⟨hlt, hget⟩ := List.getElem?_eq_some_iff.mp hat
    rw [List.getElem_range'] at hget
    omega
  rw [hk, state?, describe_states hm]
  exact hn

/-- What is kept at a state is what is known at its resume point. -/
theorem describe_state? (g : FlowGraph) (a : Analysis) (locals : Nat) (hm : Body.StateMachine is)
    (ho : is[o]? = some j) (hop : j.op = .resumePoint k) : ∃ s, (describe is g a locals).state? k = some s
      ∧ s.saved.length = (a.state o).depth
      ∧ s.live = ((Liveness.liveIn is g a.exceptionEdges locals).getD o BitSet.empty).toList := by
  obtain ⟨o', s, rfl, hs, hfound⟩ := describe_found g a locals hm ho hop
  obtain ⟨s', hs', -, hsaved, hlive⟩ := suspensionAt?_resumePoint is.toArray
    (Liveness.liveIn is g a.exceptionEdges locals) a o' hop
  cases hs.symm.trans hs'
  exact ⟨s, hfound, hsaved, hlive⟩

end GeneratorLayout

end Stackwise
