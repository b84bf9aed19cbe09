import Stackwise.Proofs.Analysis.LiveSets
import Stackwise.Proofs.Analysis.ReachedBlocks

/-!
# Exact liveness

A variable is live before an instruction exactly when some path leads from there to a read of it and
does not pass a binding of it on the way. An exception leaves an instruction before it binds.

* `FlowGraph.Follows`, `Links.follows_iff`: where the graph lets control go on is where the
  operation does.
* `Passes`, `Read`: the paths.
* `Sound.has_of_read`: nothing live is lost, by going back along the path.
* `closed_read`, `liveFrom_read`: nothing else is kept, since every round adds only what some path
  reads.
* `liveIn_exact`: the sets of a body.
-/

namespace Stackwise

namespace FlowGraph

variable {g : FlowGraph} {is : List Instr} {edges : List (Nat × Nat)} {o t : Nat} {i : Instr}

/-! ## 1. Where control goes on -/

/-- Control goes on from `o` to `t`: to the next offset of the block, or from the last one along an
edge that is not an exception's. -/
def Follows (g : FlowGraph) (o t : Nat) : Prop :=
  (o ≠ (g.block (g.blockAt o)).last ∧ t = o + 1)
    ∨ (o = (g.block (g.blockAt o)).last
      ∧ ∃ e ∈ (g.block (g.blockAt o)).successors, e.2 ≠ .exception ∧ t = (g.block e.1).start)

/-- **The graph lets control go where the operation does.** -/
theorem Links.follows_iff (hg : g.Links is edges) (hd : Dense is) (hi : is[o]? = some i) :
    g.Follows o t ↔ i.op.GoesTo o t ∧ t < is.length := by
  have hlt : o < is.length := (List.getElem?_eq_some_iff.mp hi).1
  have hp := hg.partitions
  have hb := hp.blockAt_lt o hlt
  have hbound := (hp.bounds _ hb).2
  obtain ⟨hstart, hstop⟩ := hp.holds o hlt
  have hoff := hd o i hi
  -- an operation that ends a block is the last of its own
  have hends : endsBlock i.op = true → (g.block (g.blockAt o)).last = o := fun hend =>
    hp.last_eq hlt fun hnext => by
      rw [← hoff] at hnext ⊢
      exact hg.ends i (List.mem_of_getElem? hi) hend hnext
  constructor
  · rintro (⟨hne, rfl⟩ | ⟨hlast, e, he, hkind, rfl⟩)
    · refine ⟨.inl ⟨?_, rfl⟩, ?_⟩
      · cases hforced : i.op.isForcedJump with
        | false => rfl
        | true => exact absurd (hends (by simp [endsBlock, hforced])).symm hne
      · rw [BasicBlock.last] at hne
        omega
    · obtain ⟨j, hj, he⟩ := hg.only _ e he hkind
      rw [← hlast, hi] at hj
      cases hj
      obtain ⟨t, heq, ht, hgo⟩ := mem_edgesOf he
      rw [hoff] at ht hgo
      have htlt : t < is.length := by
        rcases ht with ⟨rfl, ht⟩ | ht
        · exact ht
        · exact (hg.target i (List.mem_of_getElem? hi) t ht).1
      have hleads : (g.block e.1).start = t := by
        rw [heq]
        rcases hg.goesTo hd hi (hgo hkind) htlt with ⟨rfl, hsame⟩ | ⟨-, hs, -⟩
        · -- the last offset of a block is not followed by one of the same block
          have := (hp.holds (o + 1) htlt).2
          rw [hsame] at this
          rw [BasicBlock.last] at hlast
          omega
        · exact hs
      rw [hleads]
      exact ⟨hgo hkind, htlt⟩
  · rintro ⟨hgo, ht⟩
    rcases hg.goesTo hd hi hgo ht with ⟨rfl, hsame⟩ | ⟨hlast, hs, kind, hkind, he⟩
    · refine .inl ⟨fun hlast => ?_, rfl⟩
      have := (hp.holds (o + 1) ht).2
      rw [hsame] at this
      rw [BasicBlock.last] at hlast
      omega
    · exact .inr ⟨hlast.symm, _, he, hkind, hs.symm⟩

/-- Control goes on to listed blocks. -/
theorem Links.listed_of_follows (hg : g.Links is edges) (hd : Dense is) (hi : is[o]? = some i)
    (hmem : g.blockAt o ∈ g.order) (hfollows : g.Follows o t) : g.blockAt t ∈ g.order := by
  obtain ⟨hgo, ht⟩ := (hg.follows_iff hd hi).mp hfollows
  rcases hg.goesTo hd hi hgo ht with ⟨-, hsame⟩ | ⟨-, -, kind, -, he⟩
  · exact hsame ▸ hmem
  · exact hg.closed _ hmem _ he

end FlowGraph

namespace Liveness

variable {g : FlowGraph} {is : List Instr} {edges : List (Nat × Nat)} {locals o t b x : Nat}
  {i : Instr} {blockIn : Array BitSet}

/-! ## 2. Paths -/

/-- A step of a path on which `x` is not bound: an exception goes to its handler, or control goes on
from an operation that does not bind `x`. -/
def Passes (is : List Instr) (g : FlowGraph) (edges : List (Nat × Nat)) (x o t : Nat) : Prop :=
  (o, t) ∈ edges ∨ (g.Follows o t ∧ ∀ i, is[o]? = some i → i.op ≠ .storeFast x)

/-- Some path from `o` leads to an operation that reads `x`, and `x` is not bound on the way. -/
def Read (is : List Instr) (g : FlowGraph) (edges : List (Nat × Nat)) (x o : Nat) : Prop :=
  ∃ t i, Relation.ReflTransGen (Passes is g edges x) o t ∧ is[t]? = some i
    ∧ (i.op = .loadFast x ∨ i.op = .deleteFast x)

theorem used?_eq_some {op : Op} : used? op = some x ↔ op = .loadFast x ∨ op = .deleteFast x := by
  cases op <;> simp [used?]

theorem defined?_eq_some {op : Op} : defined? op = some x ↔ op = .storeFast x := by
  cases op <;> simp [defined?]

theorem Read.head (h : Read is g edges x t) (hpass : Passes is g edges x o t) :
    Read is g edges x o := by
  obtain ⟨t', i, hpath, hread⟩ := h
  exact ⟨t', i, hpath.head hpass, hread⟩

theorem passes_of_follows (hi : is[o]? = some i) (hfree : i.op ≠ .storeFast x)
    (h : g.Follows o t) : Passes is g edges x o t := by
  refine .inr ⟨h, fun j hj => ?_⟩
  rw [hi] at hj
  cases hj
  exact hfree

section Exact

variable (hg : g.Links is edges) (hd : Dense is)
  (hedges : ∀ o h, (o, h) ∈ edges → o < is.length ∧ h < is.length ∧ g.isLeader h = true)

/-! ## 3. Nothing live is lost -/

include hg hd hedges in
/-- **What a path reads is live** where the path begins. -/
theorem Sound.has_of_read {sets : Array BitSet} (hs : Sound is g edges sets) (ho : o < is.length)
    (hmem : g.blockAt o ∈ g.order) (h : Read is g edges x o) : Has sets o x := by
  obtain ⟨t, j, hpath, hj, hread⟩ := h
  induction hpath using Relation.ReflTransGen.head_induction_on with
  | refl => exact hs.used hj hmem (used?_eq_some.mpr hread)
  | @head o t' hpass hpath ih =>
    have hi : is[o]? = some is[o] := List.getElem?_eq_getElem ho
    rcases hpass with hedge | ⟨hfollows, hfree⟩
    · exact hs.raised hedge hmem
        (ih (hedges o t' hedge).2.1 (hg.closed _ hmem _ (hg.raised o t' hedge)))
    · obtain ⟨hgo, ht'⟩ := (hg.follows_iff hd hi).mp hfollows
      exact hs.goesTo hi hmem hgo (ih ht' (hg.listed_of_follows hd hi hmem hfollows))
        fun hdef => hfree _ hi (defined?_eq_some.mp hdef)

/-! ## 4. Nothing else is kept -/

/-- The sets of the blocks hold only what is read on a path from their start. -/
def Justified (is : List Instr) (g : FlowGraph) (edges : List (Nat × Nat)) :
    Array BitSet → Prop :=
  Within fun b x => Read is g edges x (g.block b).start

include hedges in
/-- What is live before an instruction is read on a path from it, if what is live after it is. -/
theorem read_of_before (hsets : Justified is g edges blockIn) (hi : is[o]? = some i) {live : BitSet}
    (hlive : live.contains x = true → i.op ≠ .storeFast x → Read is g edges x o)
    (h : (before (Problem.of is g edges locals) blockIn o live).contains x = true) :
    Read is g edges x o := by
  have hcode : (Problem.of is g edges locals).code[o]? = some i := by
    rw [Problem.of, List.getElem?_toArray]
    exact hi
  rcases (contains_before hcode).mp h with hused | ⟨t, ht, hhas⟩ | ⟨honward, hfree⟩
  · exact ⟨o, i, .refl, hi, used?_eq_some.mp hused⟩
  · have hedge := (mem_raises (List.getElem?_eq_some_iff.mp hi).1).mp ht
    have hread := hsets _ _ hhas
    rw [Problem.of, FlowGraph.isLeader_iff.mp (hedges o t hedge).2.2] at hread
    exact hread.head (.inl hedge)
  · exact hlive honward fun hstore => hfree (defined?_eq_some.mpr hstore)

include hg hedges in
/-- **What is live inside a block is read on a path**, by going back from the end of the block. -/
theorem liveFrom_read (hsets : Justified is g edges blockIn) {k : Nat} (ho : o < is.length)
    (hat : g.blockAt o = b) (hstop : (g.block b).stop = o + (k + 1))
    (h : (liveFrom (Problem.of is g edges locals) blockIn b o (g.block b).stop).contains x = true) :
    Read is g edges x o := by
  induction k generalizing o with
  | zero =>
    have hi : is[o]? = some is[o] := List.getElem?_eq_getElem ho
    rw [liveFrom_step (by omega)] at h
    refine read_of_before hedges hsets hi (fun honward hfree => ?_) h
    rw [liveFrom_end (by omega)] at honward
    obtain ⟨e, he, hkind, hhas⟩ := contains_after.mp honward
    refine (hsets _ _ hhas).head (passes_of_follows hi hfree ?_)
    rw [FlowGraph.Follows, hat, BasicBlock.last]
    exact .inr ⟨by omega, e, he, hkind, rfl⟩
  | succ k ih =>
    have hi : is[o]? = some is[o] := List.getElem?_eq_getElem ho
    have hb : b < g.size := hat ▸ hg.partitions.blockAt_lt o ho
    have hbound := (hg.partitions.bounds b hb).2
    have hstart : (g.block b).start ≤ o := hat ▸ (hg.partitions.holds o ho).1
    have hat' : g.blockAt (o + 1) = b := hg.partitions.unique b hb _ (by omega) (by omega)
    rw [liveFrom_step (by omega)] at h
    refine read_of_before hedges hsets hi (fun honward hfree => ?_) h
    refine (ih (by omega) hat' (by omega) honward).head (passes_of_follows hi hfree ?_)
    rw [FlowGraph.Follows, hat, BasicBlock.last]
    exact .inl ⟨by omega, rfl⟩

include hg hedges in
/-- **Every round keeps the sets justified.** -/
theorem closed_read : Closed (Problem.of is g edges locals) fun b x =>
    Read is g edges x (g.block b).start := by
  intro blockIn hsets b x h
  by_cases hb : b < g.size
  · obtain ⟨hstart, hstop⟩ := hg.partitions.bounds b hb
    obtain ⟨k, hk⟩ : ∃ k, (g.block b).stop = (g.block b).start + (k + 1) :=
      ⟨(g.block b).stop - (g.block b).start - 1, by omega⟩
    rw [atEntry_eq] at h
    exact liveFrom_read hg hedges hsets (by omega) (hg.partitions.blockAt_start hb) hk h
  · rw [atEntry_of_le (q := Problem.of is g edges locals) (Nat.not_lt.mp hb)] at h
    cases h

include hg hd hedges in
/-- **The sets that the rounds end with are exact.** -/
theorem has_written_iff (hsettled : Settled is g edges locals blockIn) (ho : o < is.length)
    (hmem : g.blockAt o ∈ g.order) :
    Has (written is g edges locals blockIn) o x ↔ Read is g edges x o := by
  constructor
  · intro h
    have hin := hg.partitions.holds o ho
    have hsets : Justified is g edges blockIn :=
      Settles.within (closed_read hg hedges) hsettled Array.size_replicate fun b x h =>
        absurd h not_has_atStart
    obtain ⟨k, hk⟩ : ∃ k, (g.block (g.blockAt o)).stop = o + (k + 1) :=
      ⟨(g.block (g.blockAt o)).stop - o - 1, by omega⟩
    rw [Has, written_at hg.partitions ho hmem] at h
    exact liveFrom_read hg hedges hsets ho rfl hk h
  · intro h
    exact (written_sound hg hd hedges (Settles.stable hsettled Array.size_replicate)).has_of_read hg
      hd hedges ho hmem h

end Exact

/-! ## 5. The sets of a body -/

/-- **Liveness is exact.** The rounds over the graph of a body with the edges of its exceptions end,
and what is written down at a reached offset are the variables that some path reads. -/
theorem liveIn_exact {ty : Typer} {entry : AbstractState} {a : Analysis} (locals : Nat)
    (hd : Dense is) (hg : FlowGraph.build is = .ok g)
    (ha : Fixpoint.analyze ty is g entry = .ok a) :
    let g' := g.addExceptionEdges a.exceptionEdges
    let sets := liveIn is g' a.exceptionEdges locals
    (∃ blockIn, Settled is g' a.exceptionEdges locals blockIn
        ∧ sets = written is g' a.exceptionEdges locals blockIn)
      ∧ ∀ o x, o < is.length → g'.Reaches 0 (g'.blockAt o) →
        (Has sets o x ↔ Read is g' a.exceptionEdges x o) := by
  intro g' sets
  obtain ⟨blockIn, hsettled, hwritten⟩ := liveIn_settled is g' a.exceptionEdges locals
  refine ⟨⟨blockIn, hsettled, hwritten⟩, fun o x ho hreaches => ?_⟩
  have hedges : ∀ o h, (o, h) ∈ a.exceptionEdges →
      o < is.length ∧ h < is.length ∧ g'.isLeader h = true := fun o h he => by
    rw [(FlowGraph.sameRuns_addExceptionEdges g a.exceptionEdges).isLeader]
    exact Fixpoint.analyze_edge hd hg ha he
  have hmem := ((FlowGraph.addExceptionEdges_ordered hg a.exceptionEdges).mem_iff _).mpr hreaches
  rw [show sets = _ from hwritten]
  exact has_written_iff (Fixpoint.analyze_links hd hg ha) hd hedges hsettled ho hmem

/-- A variable that is bound in a `try` statement and read behind it, also by the handler. -/
def boundInTry : List Instr :=
  ([.setupFinally 6 .tryBlock 0, .loadGlobal "y" 0, .storeFast 0, .popBlock, .loadFast 0,
    .returnValue, .popTop, .popTop, .popTop, .popExcept, .loadFast 0, .returnValue] : List
    Op).zipIdx.map fun (op, k) => ⟨k, op, none, none, false⟩

theorem liveIn_exact_boundInTry :
    Dense boundInTry ∧ ∃ g a, FlowGraph.build boundInTry = .ok g
      ∧ Fixpoint.analyze ⟨TypeModel.empty, [], {}⟩ boundInTry g (.entry [none] 0) = .ok a
      ∧ (a.state 1).dead = false
      ∧ Has (liveIn boundInTry (g.addExceptionEdges a.exceptionEdges) a.exceptionEdges 1) 1 0
      ∧ Read boundInTry (g.addExceptionEdges a.exceptionEdges) a.exceptionEdges 0 1 := by
  have hrun : ((FlowGraph.build boundInTry).toOption.bind fun g =>
      (Fixpoint.analyze ⟨TypeModel.empty, [], {}⟩ boundInTry g (.entry [none] 0)).toOption.map
        fun a => (g, a)).any (fun r => decide ((r.2.state 1).dead = false
          ∧ ((liveIn boundInTry (r.1.addExceptionEdges r.2.exceptionEdges) r.2.exceptionEdges
            1).getD 1 BitSet.empty).contains 0 = true)) = true := by
    decide +kernel
  obtain ⟨⟨g, a⟩, hres, hfound⟩ := (Option.any_eq_true _ _).mp hrun
  obtain ⟨g', hg, hres⟩ := Option.bind_eq_some_iff.mp hres
  obtain ⟨a', ha, heq⟩ := Option.map_eq_some_iff.mp hres
  cases heq
  obtain ⟨hlive, hhas⟩ := of_decide_eq_true hfound
  have hd : Dense boundInTry := Fixpoint.dense_numbered _
  have hg := toOption_eq_some.mp hg
  have ha := toOption_eq_some.mp ha
  have hreaches := ((FlowGraph.addExceptionEdges_ordered hg a.exceptionEdges).mem_iff _).mp
    (Fixpoint.analyze_listed hd hg ha hlive)
  exact ⟨hd, g, a, hg, ha, hlive, hhas,
    ((liveIn_exact 1 hd hg ha).2 1 0 (by decide) hreaches).mp hhas⟩

end Liveness

end Stackwise
