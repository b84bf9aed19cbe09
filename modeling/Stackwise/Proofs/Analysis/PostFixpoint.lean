import Mathlib.Logic.Relation
import Stackwise.Proofs.Analysis.Visit

/-!
# The result of the iteration

The states that the iteration ends with are a post-fixed point: nothing that leaves an instruction
says more than the state where it arrives.

* `Inv` is what every visit keeps: blocks that do not wait have been run from their entry state and
  all that leaves them has arrived; the states of a visited block keep their form for good.
* `Inv.visit` is the step, `iterate_inv` the run.
* `Analysis.Solves`: the result, for every relation that joins ascend; `analyze_solves` proves it.
* `analyze_postfixpoint`: the case of the order on states.
-/

namespace Stackwise

namespace Fixpoint

variable {q : Problem} {R : AbstractState → AbstractState → Prop} {entry : AbstractState}

/-! ## 1. The invariant -/

/-- A block that no visit came to, or whose states follow one another from a state that has the form
of its entry state. -/
def Visited (q : Problem) (p : Progress) (b : Nat) : Prop :=
  (∀ o, (q.graph.block b).start ≤ o → o < (q.graph.block b).stop → (p.before o).dead = true)
  ∨ ((p.entryOf b).dead = false
    ∧ (p.before (q.graph.block b).start).SameForm (p.entryOf b)
    ∧ Linked q p (q.graph.block b).start (q.graph.block b).stop
    ∧ ∀ o, (q.graph.block b).start ≤ o → o < (q.graph.block b).stop → (p.before o).dead = false
      ∧ ∃ i tr, q.code[o]? = some i ∧ i.op.effect q.typer o (p.before o) = .ok tr)

/-- A way on from an offset whose state is live. -/
def Edge (q : Problem) (st : Nat → AbstractState) (o t : Nat) : Prop :=
  (st o).dead = false ∧ Leads q o (st o) t

/-- What every visit keeps. -/
structure Inv (q : Problem) (R : AbstractState → AbstractState → Prop) (entry : AbstractState)
    (p : Progress) : Prop where
  blocks : p.blockIn.size = q.graph.size
  size : p.states.size = q.code.size
  entry : R entry (p.entryOf 0)
  queue : ∀ b ∈ p.worklist, b < q.graph.size ∧ (p.entryOf b).dead = false
  visited : ∀ b < q.graph.size, Visited q p b
  settled : ∀ b < q.graph.size, b ∉ p.worklist → (p.entryOf b).dead = false →
    p.before (q.graph.block b).start = p.entryOf b
    ∧ ∀ o, (q.graph.block b).start ≤ o → o < (q.graph.block b).stop →
      Flows q R p o (o == (q.graph.block b).stop - 1) (p.before o)
  edges : ∀ e ∈ p.exceptionEdges, e.1 < q.code.size ∧ (p.before e.1).dead = false
    ∧ Raises q e.1 (p.before e.1) e.2
  reached : ∀ b < q.graph.size, (p.entryOf b).dead = false →
    Relation.ReflTransGen (Edge q p.before) 0 (q.graph.block b).start

/-! ## 2. Forms are stable -/

/-- Two runs of a block that start in states of one form go through states of one form. -/
theorem sameForm_of_linked {p p' : Progress} {o stop : Nat} (h : Linked q p o stop)
    (h' : Linked q p' o stop) (hf : (p.before o).SameForm (p'.before o)) (k : Nat)
    (hk : o + k < stop) : (p.before (o + k)).SameForm (p'.before (o + k)) := by
  induction k with
  | zero => exact hf
  | succ k ih =>
    have ihk := ih (by omega)
    obtain ⟨i, hi, he⟩ := h (o + k) (by omega) (by omega)
    obtain ⟨i', hi', he'⟩ := h' (o + k) (by omega) (by omega)
    obtain rfl : i = i' := Option.some.inj (hi.symm.trans hi')
    have hm := Op.effect_sameForm ihk he he'
    simp only [List.map_cons, List.map_nil, Op.formOf, List.cons.injEq, Prod.mk.injEq, true_and,
      and_true] at hm
    have hc := (Op.effect_follows he).2 _ List.mem_cons_self
    have hc' := (Op.effect_follows he').2 _ List.mem_cons_self
    exact ⟨hm.1, hc.locals.trans (ihk.locals.trans hc'.locals.symm),
      hc.cells.trans (ihk.cells.trans hc'.cells.symm), hm.2⟩

section Step

variable (hR : AbstractState.Ascending q.typer.model R) (hq : q.WellFormed) {p p' : Progress}
  {b : Nat} {rest : List Nat}

/-- Offsets of other blocks lie outside a block. -/
theorem outside_block (hq : q.WellFormed) {c o : Nat} (hb : b < q.graph.size)
    (hc : c < q.graph.size) (hne : c ≠ b) (hs : (q.graph.block c).start ≤ o)
    (ht : o < (q.graph.block c).stop) :
    o < (q.graph.block b).start ∨ (q.graph.block b).stop ≤ o := by
  by_contra hcon
  rw [not_or, Nat.not_lt, Nat.not_le] at hcon
  exact hne ((hq.partitions.unique c hc o hs ht).symm.trans
    (hq.partitions.unique b hb o hcon.1 hcon.2))

/-- A visit leaves live states live and of the same form. -/
theorem Inv.stable (hinv : Inv q R entry p) (hb : b < q.graph.size)
    (hran : Ran q R (q.graph.block b).start (q.graph.block b).stop (p.entryOf b)
      { p with worklist := rest } p') {o : Nat} (ho : (p.before o).dead = false) :
    (p'.before o).dead = false ∧ (p.before o).SameForm (p'.before o) := by
  by_cases hin : (q.graph.block b).start ≤ o ∧ o < (q.graph.block b).stop
  · refine ⟨hran.live o hin.1 hin.2, ?_⟩
    rcases hinv.visited b hb with hdead | ⟨-, hform, hlinked, -⟩
    · rw [hdead o hin.1 hin.2] at ho
      cases ho
    · obtain ⟨k, rfl⟩ := Nat.exists_eq_add_of_le hin.1
      refine sameForm_of_linked hlinked hran.linked ?_ k hin.2
      rw [hran.first]
      exact hform
  · have heq : p'.before o = p.before o := hran.outside o (by omega)
    rw [heq]
    exact ⟨ho, .refl _⟩

/-! ## 3. One visit keeps it -/

include hR hq in
theorem Inv.visited_step (hinv : Inv q R entry p) (hb : b < q.graph.size)
    (hlive : (p.entryOf b).dead = false)
    (hran : Ran q R (q.graph.block b).start (q.graph.block b).stop (p.entryOf b)
      { p with worklist := rest } p') : ∀ c < q.graph.size, Visited q p' c := by
  intro c hc
  by_cases hcb : c = b
  · subst hcb
    refine Or.inr ⟨hR.live hlive (hran.steps.rises c), ?_, hran.linked, fun o hs ht => ?_⟩
    · rw [hran.first]
      exact hR.form hlive (hran.steps.rises c)
    · obtain ⟨i, tr, hi, htr, -⟩ := hran.flows o hs ht
      exact ⟨hran.live o hs ht, i, tr, hi, htr⟩
  · have hsame : ∀ o, (q.graph.block c).start ≤ o → o < (q.graph.block c).stop →
        p'.before o = p.before o :=
      fun o hs ht => hran.outside o (outside_block hq hb hc hcb hs ht)
    have hbounds := (hq.partitions.bounds c hc).1
    rcases hinv.visited c hc with hdead | ⟨hl, hform, hlinked, hall⟩
    · exact Or.inl fun o hs ht => by rw [hsame o hs ht]; exact hdead o hs ht
    · refine Or.inr ⟨hR.live hl (hran.steps.rises c), ?_, ?_, fun o hs ht => ?_⟩
      · rw [hsame _ (Nat.le_refl _) hbounds]
        exact hform.trans (hR.form hl (hran.steps.rises c))
      · intro o hs ht
        rw [hsame o hs (by omega), hsame (o + 1) (by omega) ht]
        exact hlinked o hs ht
      · rw [hsame o hs ht]
        exact hall o hs ht

include hR hq in
theorem Inv.settled_step (hinv : Inv q R entry p) (hwork : p.worklist = b :: rest)
    (hb : b < q.graph.size)
    (hran : Ran q R (q.graph.block b).start (q.graph.block b).stop (p.entryOf b)
      { p with worklist := rest } p') :
    ∀ c < q.graph.size, c ∉ p'.worklist → (p'.entryOf c).dead = false →
      p'.before (q.graph.block c).start = p'.entryOf c
      ∧ ∀ o, (q.graph.block c).start ≤ o → o < (q.graph.block c).stop →
        Flows q R p' o (o == (q.graph.block c).stop - 1) (p'.before o) := by
  intro c hc hwait hlive
  -- a block that does not wait kept its entry state
  have hkept : p'.entryOf c = p.entryOf c := by
    by_contra hne
    exact hwait (hran.steps.changed c hne)
  by_cases hcb : c = b
  · subst hcb
    exact ⟨by rw [hran.first, hkept], hran.flows⟩
  · have hsame : ∀ o, (q.graph.block c).start ≤ o → o < (q.graph.block c).stop →
        p'.before o = p.before o :=
      fun o hs ht => hran.outside o (outside_block hq hb hc hcb hs ht)
    have hwait' : c ∉ p.worklist := by
      rw [hwork, List.mem_cons, not_or]
      exact ⟨hcb, fun hmem => hwait (hran.steps.waits c hmem)⟩
    rw [hkept] at hlive
    obtain ⟨hfirst, hflows⟩ := hinv.settled c hc hwait' hlive
    refine ⟨?_, fun o hs ht => ?_⟩
    · rw [hsame _ (Nat.le_refl _) (hq.partitions.bounds c hc).1, hfirst, hkept]
    · rw [hsame o hs ht]
      have hflow : Flows q R { p with worklist := rest } o _ (p.before o) := hflows o hs ht
      exact hflow.mono hR hran.steps

/-- Ways on stay open, since live states keep their form. -/
theorem edge_mono (hvisited : ∀ c < q.graph.size, Visited q p' c) (hq : q.WellFormed)
    (hstable : ∀ o, (p.before o).dead = false →
      (p'.before o).dead = false ∧ (p.before o).SameForm (p'.before o)) {o t : Nat}
    (h : Edge q p.before o t) : Edge q p'.before o t := by
  obtain ⟨hlive, hleads⟩ := h
  obtain ⟨hlive', hform⟩ := hstable o hlive
  have ho : o < q.code.size := by
    rcases hleads with ⟨i, tr, hi, -⟩ | ⟨i, hi, -⟩
    · exact (Array.getElem?_eq_some_iff.mp hi).1
    · exact (Array.getElem?_eq_some_iff.mp hi).1
  obtain ⟨hs, ht⟩ := hq.partitions.holds o ho
  rcases hvisited _ (hq.partitions.blockAt_lt o ho) with hdead | ⟨-, -, -, hall⟩
  · rw [hdead o hs ht] at hlive'
    cases hlive'
  · obtain ⟨-, i, tr, hi, htr⟩ := hall o hs ht
    exact ⟨hlive', hleads.of_sameForm hform hi htr⟩

/-- Control goes from the start of a block through all of its instructions. -/
theorem reach_inside {o stop : Nat} (hlinked : Linked q p o stop)
    (hlive : ∀ o', o ≤ o' → o' < stop → (p.before o').dead = false) (k : Nat) (hk : o + k < stop) :
    Relation.ReflTransGen (Edge q p.before) o (o + k) := by
  induction k with
  | zero => exact .refl
  | succ k ih =>
    obtain ⟨i, hi, he⟩ := hlinked (o + k) (by omega) (by omega)
    refine (ih (by omega)).tail ⟨hlive _ (by omega) (by omega), Or.inl ⟨i, _, hi, he, _,
      List.mem_cons_self, rfl⟩⟩

include hR hq in
/-- A visit runs a block that waits from its entry state to its end. -/
theorem Inv.ran (hinv : Inv q R entry p) (hwork : p.worklist = b :: rest)
    (h : visit q b { p with worklist := rest } = .ok p') :
    Ran q R (q.graph.block b).start (q.graph.block b).stop (p.entryOf b)
      { p with worklist := rest } p' := by
  obtain ⟨hb, hlive⟩ := hinv.queue b (by rw [hwork]; exact List.mem_cons_self)
  have hbounds := hq.partitions.bounds b hb
  obtain ⟨k, hk⟩ : ∃ k, (q.graph.block b).start + (k + 1) = (q.graph.block b).stop :=
    ⟨(q.graph.block b).stop - (q.graph.block b).start - 1, by omega⟩
  refine visitFrom_ran hR hq hb (Nat.le_refl _) hk hlive hinv.blocks hinv.size ?_
  rw [Fixpoint.visit, BasicBlock.offsets_eq, ← hk, Nat.add_sub_cancel_left] at h
  exact h

include hR hq in
/-- **One visit keeps the invariant.** -/
theorem Inv.visit (hinv : Inv q R entry p) (hwork : p.worklist = b :: rest)
    (h : visit q b { p with worklist := rest } = .ok p') : Inv q R entry p' := by
  obtain ⟨hb, hlive⟩ := hinv.queue b (by rw [hwork]; exact List.mem_cons_self)
  have hbounds := hq.partitions.bounds b hb
  have hran := hinv.ran hR hq hwork h
  have hvisited := hinv.visited_step hR hq hb hlive hran
  have hstable : ∀ o, (p.before o).dead = false →
      (p'.before o).dead = false ∧ (p.before o).SameForm (p'.before o) :=
    fun o ho => hinv.stable hb hran ho
  have hmono : ∀ {c}, Relation.ReflTransGen (Edge q p.before) 0 c →
      Relation.ReflTransGen (Edge q p'.before) 0 c :=
    fun hc => Relation.ReflTransGen.mono (fun _ _ he => edge_mono hvisited hq hstable he) _ _ hc
  refine ⟨hran.steps.blocks.trans hinv.blocks, hran.steps.size.trans hinv.size,
    hR.trans hinv.entry (hran.steps.rises 0), ?_, hvisited,
    hinv.settled_step hR hq hwork hb hran, ?_, ?_⟩
  · intro c hc
    rcases hran.steps.live c hc with hc | ⟨hlt, hl⟩
    · obtain ⟨hlt, hl⟩ := hinv.queue c (by rw [hwork]; exact List.mem_cons_of_mem b hc)
      exact ⟨hlt, hR.live hl (hran.steps.rises c)⟩
    · exact ⟨hinv.blocks ▸ hlt, hl⟩
  · intro e he
    rcases hran.edges e he with he | ⟨⟨hs, ht⟩, hr⟩
    · obtain ⟨hlt, hl, i, hi, hm, u, hu, hh⟩ := hinv.edges e he
      obtain ⟨hl', hform⟩ := hstable e.1 hl
      rw [AbstractState.unwind?_congr hform.blocks] at hu
      exact ⟨hlt, hl', i, hi, hm, u, hu, hh⟩
    · exact ⟨Nat.lt_of_lt_of_le ht hbounds.2, hran.live e.1 hs ht, hr⟩
  · intro c hc hl
    rcases hran.woken c hl with hl | ⟨o, ⟨hs, ht⟩, hleads⟩
    · exact hmono (hinv.reached c hc hl)
    · obtain ⟨k, rfl⟩ := Nat.exists_eq_add_of_le hs
      exact ((hmono (hinv.reached b hb hlive)).trans (reach_inside hran.linked hran.live k ht)).tail
        ⟨hran.live _ hs ht, hleads⟩

include hR hq in
/-- **Every run of the iteration keeps the invariant**, and ends with an empty worklist. -/
theorem iterate_inv {bound left left' : Nat} (hinv : Inv q R entry p)
    (h : iterate q bound left p = .ok (left', p')) : Inv q R entry p' ∧ p'.worklist = [] := by
  induction left generalizing p with
  | zero =>
    unfold iterate at h
    split at h
    · rename_i hwork
      cases h
      exact ⟨hinv, hwork⟩
    · cases h
    · rename_i hleft
      cases hleft
  | succ left ih =>
    unfold iterate at h
    split at h
    · rename_i hwork
      cases h
      exact ⟨hinv, hwork⟩
    · rename_i hleft
      cases hleft
    · rename_i block rest left'' hwork hleft
      cases hleft
      obtain ⟨p₁, hvisit, h⟩ := bind_eq_ok.mp h
      exact ih (hinv.visit hR hq hwork hvisit) h

end Step

/-! ## 4. The end of the iteration -/

section Final

variable {p : Progress}

theorem Inv.entryOf_live (hinv : Inv q R entry p) (hq : q.WellFormed) {o : Nat}
    (ho : o < q.code.size) (hlive : (p.before o).dead = false) :
    (p.entryOf (q.graph.blockAt o)).dead = false := by
  obtain ⟨hs, ht⟩ := hq.partitions.holds o ho
  rcases hinv.visited _ (hq.partitions.blockAt_lt o ho) with hdead | ⟨hl, -⟩
  · rw [hdead o hs ht] at hlive
    cases hlive
  · exact hl

/-- When no block waits, all that leaves a live instruction has arrived. -/
theorem Inv.flows (hinv : Inv q R entry p) (hq : q.WellFormed) (hwork : p.worklist = []) {o : Nat}
    (ho : o < q.code.size) (hlive : (p.before o).dead = false) :
    Flows q R p o (o == (q.graph.block (q.graph.blockAt o)).stop - 1) (p.before o) := by
  obtain ⟨hs, ht⟩ := hq.partitions.holds o ho
  exact (hinv.settled _ (hq.partitions.blockAt_lt o ho) (by rw [hwork]; exact List.not_mem_nil)
    (hinv.entryOf_live hq ho hlive)).2 o hs ht

/-- When no block waits, what has arrived at a block is below the state of its first instruction. -/
theorem Inv.arrived (hinv : Inv q R entry p) (hR : AbstractState.Ascending q.typer.model R)
    (hq : q.WellFormed) (hwork : p.worklist = []) {t : Nat} {s : AbstractState}
    (hs : s.dead = false) (h : Arrives q R p t s) : R s (p.before t) := by
  obtain ⟨hlt, hleader, hr⟩ := h
  have hsettled := hinv.settled _ (hq.partitions.blockAt_lt t hlt)
    (by rw [hwork]; exact List.not_mem_nil) (hR.live hs hr)
  rw [← FlowGraph.isLeader_iff.mp hleader, hsettled.1]
  exact hr

theorem Inv.outcome (hinv : Inv q R entry p) (hR : AbstractState.Ascending q.typer.model R)
    (hq : q.WellFormed) (hwork : p.worklist = []) {o : Nat} {i : Instr} (hi : q.code[o]? = some i)
    (hlive : (p.before o).dead = false) :
    ∃ tr, i.op.effect q.typer o (p.before o) = .ok tr
      ∧ ∀ w ∈ tr, w.1.target o < q.code.size ∧ R w.2 (p.before (w.1.target o)) := by
  have ho := (Array.getElem?_eq_some_iff.mp hi).1
  obtain ⟨hs, ht⟩ := hq.partitions.holds o ho
  have hb := hq.partitions.blockAt_lt o ho
  have hbounds := hq.partitions.bounds _ hb
  obtain ⟨i', tr, hi', htr, hlands, -⟩ := hinv.flows hq hwork ho hlive
  obtain rfl : i = i' := Option.some.inj (hi.symm.trans hi')
  refine ⟨tr, htr, fun w hw => ?_⟩
  rcases hlands w hw with ⟨hnext, hinner⟩ | harrives
  · -- inside a block the next state is the outcome itself
    have hlt : o + 1 < (q.graph.block (q.graph.blockAt o)).stop := by
      rw [beq_eq_false_iff_ne] at hinner
      omega
    rcases hinv.visited _ hb with hdead | ⟨-, -, hlinked, -⟩
    · rw [hdead o hs ht] at hlive
      cases hlive
    · obtain ⟨i', hi', he⟩ := hlinked o hs hlt
      obtain rfl : i = i' := Option.some.inj (hi.symm.trans hi')
      obtain rfl : tr = [(.next, p.before (o + 1))] := Except.ok.inj (htr.symm.trans he)
      rw [List.mem_singleton] at hw
      rw [hw]
      exact ⟨Nat.lt_of_lt_of_le hlt hbounds.2, hR.refl _⟩
  · have hw' : w.2.dead = false := ((Op.effect_follows htr).2 w hw).dead.trans hlive
    exact ⟨harrives.1, hinv.arrived hR hq hwork hw' harrives⟩

theorem Inv.exception (hinv : Inv q R entry p) (hR : AbstractState.Ascending q.typer.model R)
    (hq : q.WellFormed) (hwork : p.worklist = []) {o : Nat} {i : Instr} (hi : q.code[o]? = some i)
    (hlive : (p.before o).dead = false) (hm : i.op.mayRaise = true) {u : Unwind}
    (hu : (p.before o).unwind? = some u) :
    ∃ e, (p.before o).exceptionState? o = .ok (some (u.handler, e)) ∧ u.handler < q.code.size
      ∧ R e (p.before u.handler) ∧ (o, u.handler) ∈ p.exceptionEdges := by
  have ho := (Array.getElem?_eq_some_iff.mp hi).1
  obtain ⟨i', tr, hi', htr, -, hcaught⟩ := hinv.flows hq hwork ho hlive
  obtain rfl : i = i' := Option.some.inj (hi.symm.trans hi')
  obtain ⟨x, hx, hall⟩ := hcaught hm
  cases x with
  | none =>
    rw [AbstractState.exceptionState?_eq_none hx] at hu
    cases hu
  | some he =>
    obtain ⟨h, e⟩ := he
    obtain ⟨u', hu', hh, -, -, -, -, -, hdead⟩ := AbstractState.exceptionState?_eq_ok hx
    obtain rfl : u = u' := Option.some.inj (hu.symm.trans hu')
    obtain ⟨hmem, harrives⟩ := hall h e rfl
    rw [hh]
    exact ⟨e, hx, harrives.1, hinv.arrived hR hq hwork (hdead.trans hlive) harrives, hmem⟩

theorem Inv.edges_iff (hinv : Inv q R entry p) (hR : AbstractState.Ascending q.typer.model R)
    (hq : q.WellFormed) (hwork : p.worklist = []) {o h : Nat} :
    (o, h) ∈ p.exceptionEdges ↔ (p.before o).dead = false ∧ Raises q o (p.before o) h := by
  constructor
  · intro he
    exact (hinv.edges _ he).2
  · rintro ⟨hlive, i, hi, hm, u, hu, rfl⟩
    obtain ⟨e, -, -, -, hmem⟩ := hinv.exception hR hq hwork hi hlive hm hu
    exact hmem

/-- An exception that was found leads from an offset of the body to the start of a block. -/
theorem Inv.edge (hinv : Inv q R entry p) (hq : q.WellFormed) (hwork : p.worklist = []) {o h : Nat}
    (he : (o, h) ∈ p.exceptionEdges) :
    o < q.code.size ∧ h < q.code.size ∧ q.graph.isLeader h = true := by
  obtain ⟨ho, hlive, i, hi, hm, u, hu, rfl⟩ := hinv.edges _ he
  obtain ⟨i', tr, hi', -, -, hcaught⟩ := hinv.flows hq hwork ho hlive
  obtain rfl : i = i' := Option.some.inj (hi.symm.trans hi')
  obtain ⟨x, hx, hall⟩ := hcaught hm
  cases x with
  | none =>
    rw [AbstractState.exceptionState?_eq_none hx] at hu
    cases hu
  | some te =>
    obtain ⟨t, e⟩ := te
    obtain ⟨u', hu', rfl, -⟩ := AbstractState.exceptionState?_eq_ok hx
    obtain rfl : u = u' := Option.some.inj (hu.symm.trans hu')
    obtain ⟨-, hlt, hleader, -⟩ := hall _ e rfl
    exact ⟨ho, hlt, hleader⟩

/-- The live offsets are those that control can come to. -/
theorem Inv.live_iff (hinv : Inv q R entry p) (hR : AbstractState.Ascending q.typer.model R)
    (hq : q.WellFormed) (hwork : p.worklist = []) (h0 : (p.before 0).dead = false) {o : Nat} :
    (p.before o).dead = false
      ↔ Relation.ReflTransGen (fun o t => Leads q o (p.before o) t) 0 o := by
  constructor
  · intro hlive
    have ho : o < q.code.size := by
      by_contra hge
      have hout : p.before o = default := by
        rw [Progress.before, Array.getD_eq_getD_getElem?,
          Array.getElem?_eq_none (by rw [hinv.size]; omega), Option.getD_none]
      rw [hout] at hlive
      cases hlive
    obtain ⟨hs, ht⟩ := hq.partitions.holds o ho
    have hb := hq.partitions.blockAt_lt o ho
    rcases hinv.visited _ hb with hdead | ⟨hl, -, hlinked, hall⟩
    · rw [hdead o hs ht] at hlive
      cases hlive
    · obtain ⟨k, hk⟩ := Nat.exists_eq_add_of_le hs
      have hin := reach_inside hlinked (fun o' hs' ht' => (hall o' hs' ht').1) k (hk ▸ ht)
      have hreach := (hinv.reached _ hb hl).trans hin
      rw [← hk] at hreach
      exact Relation.ReflTransGen.mono (fun _ _ he => he.2) _ _ hreach
  · intro hreach
    induction hreach with
    | refl => exact h0
    | tail _ hstep ih =>
      rcases hstep with ⟨i, tr, hi, htr, w, hw, rfl⟩ | ⟨i, hi, hm, u, hu, rfl⟩
      · obtain ⟨tr', htr', hall⟩ := hinv.outcome hR hq hwork hi ih
        obtain rfl : tr = tr' := Except.ok.inj (htr.symm.trans htr')
        exact hR.live (((Op.effect_follows htr).2 w hw).dead.trans ih) (hall w hw).2
      · obtain ⟨e, he, -, hr, -⟩ := hinv.exception hR hq hwork hi ih hm hu
        obtain ⟨-, -, -, -, -, -, -, -, hdead⟩ := AbstractState.exceptionState?_eq_ok he
        exact hR.live (hdead.trans ih) hr

end Final

/-! ## 5. The result -/

/-- The states before the first visit. -/
def start (g : FlowGraph) (n : Nat) (entry : AbstractState) : Progress :=
  let unreached := AbstractState.unreached entry.locals.length entry.cells.length
  { blockIn := (Array.replicate g.size unreached).setIfInBounds 0 entry
    states := Array.replicate n unreached
    worklist := [0]
    exceptionEdges := [] }

theorem start_before {g : FlowGraph} {n o : Nat} : ((start g n entry).before o).dead = true := by
  rw [Progress.before, Array.getD_eq_getD_getElem?]
  simp only [start, Array.getElem?_replicate]
  split <;> rfl

theorem start_entryOf {g : FlowGraph} {n b : Nat} (hg : 0 < g.size) :
    (start g n entry).entryOf 0 = entry
      ∧ (b ≠ 0 → ((start g n entry).entryOf b).dead = true) := by
  constructor
  · rw [Progress.entryOf, start, getD_setIfInBounds, Array.size_replicate, if_pos ⟨rfl, hg⟩]
  · intro hb
    rw [Progress.entryOf, start, getD_setIfInBounds, if_neg (fun h => hb h.1.symm),
      Array.getD_eq_getD_getElem?, Array.getElem?_replicate]
    split <;> rfl

theorem start_inv (hR : AbstractState.Ascending q.typer.model R) (hlive : entry.dead = false)
    (hsize : 0 < q.graph.size) (hzero : (q.graph.block 0).start = 0) :
    Inv q R entry (start q.graph q.code.size entry) where
  blocks := by rw [start, Array.size_setIfInBounds, Array.size_replicate]
  size := by rw [start, Array.size_replicate]
  entry := by
    rw [(start_entryOf (b := 0) hsize).1]
    exact hR.refl _
  queue b hb := by
    obtain rfl : b = 0 := List.mem_singleton.mp hb
    rw [(start_entryOf (b := 0) hsize).1]
    exact ⟨hsize, hlive⟩
  visited _ _ := Or.inl fun _ _ _ => start_before
  settled b _ hwait hl := by
    have hne : b ≠ 0 := fun h => hwait (List.mem_singleton.mpr h)
    rw [(start_entryOf hsize).2 hne] at hl
    cases hl
  edges _ he := absurd he List.not_mem_nil
  reached b _ hl := by
    by_cases hb : b = 0
    · rw [hb, hzero]
    · rw [(start_entryOf hsize).2 hb] at hl
      cases hl

end Fixpoint

namespace Analysis

/-- Control goes from one offset to another, by an outcome of the operation or by an exception. -/
def Leads (a : Analysis) (ty : Typer) (is : List Instr) (o t : Nat) : Prop :=
  ∃ i, is[o]? = some i
    ∧ ((∃ tr, i.op.effect ty o (a.state o) = .ok tr ∧ ∃ w ∈ tr, w.1.target o = t)
      ∨ (i.op.mayRaise = true ∧ ∃ u, (a.state o).unwind? = some u ∧ u.handler = t))

/-- The states of an analysis are a post-fixed point of a body, in the sense of a relation `R`. -/
structure Solves (a : Analysis) (ty : Typer) (is : List Instr) (entry : AbstractState)
    (R : AbstractState → AbstractState → Prop) : Prop where
  /-- There is a state before every instruction. -/
  size : a.states.size = is.length
  /-- The body starts below the state of its first instruction. -/
  entry : R entry (a.state 0)
  /-- A live operation has an effect, and its outcomes are below the states where they go. -/
  outcome : ∀ o i, is[o]? = some i → (a.state o).dead = false →
    ∃ tr, i.op.effect ty o (a.state o) = .ok tr
      ∧ ∀ w ∈ tr, w.1.target o < is.length ∧ R w.2 (a.state (w.1.target o))
  /-- What an exception leaves is below the state of its handler. -/
  exception : ∀ o i u, is[o]? = some i → (a.state o).dead = false → i.op.mayRaise = true →
    (a.state o).unwind? = some u →
    ∃ e, (a.state o).exceptionState? o = .ok (some (u.handler, e)) ∧ u.handler < is.length
      ∧ R e (a.state u.handler)
  /-- The exception edges are those of the live operations that may raise inside a block. -/
  edges : ∀ o h, (o, h) ∈ a.exceptionEdges ↔ (a.state o).dead = false
    ∧ ∃ i, is[o]? = some i ∧ i.op.mayRaise = true ∧ ∃ u, (a.state o).unwind? = some u ∧ u.handler = h
  /-- The live offsets are those that control can come to. -/
  live : ∀ o, (a.state o).dead = false ↔ Relation.ReflTransGen (a.Leads ty is) 0 o

end Analysis

namespace Fixpoint

theorem wellFormed_of_build {ty : Typer} {is : List Instr} {g : FlowGraph} (hd : Dense is)
    (hg : FlowGraph.build is = .ok g) : Problem.WellFormed ⟨is.toArray, g, ty⟩ where
  partitions := by
    rw [List.size_toArray]
    exact FlowGraph.build_partitions hg
  ends o i hi he hlt := by
    rw [List.getElem?_toArray] at hi
    rw [List.size_toArray] at hlt
    have ho := hd o i hi
    rw [← ho] at hlt ⊢
    exact FlowGraph.build_isLeader_succ hg (List.mem_of_getElem? hi) he hlt

theorem leads_iff {ty : Typer} {is : List Instr} {g : FlowGraph} {p : Progress} {steps o t : Nat} :
    Leads ⟨is.toArray, g, ty⟩ o (p.before o) t
      ↔ Analysis.Leads ⟨p.states, p.exceptionEdges, steps⟩ ty is o t := by
  simp only [Leads, Raises, Analysis.Leads, List.getElem?_toArray]
  constructor
  · rintro (⟨i, tr, hi, htr, hw⟩ | ⟨i, hi, hr⟩)
    · exact ⟨i, hi, Or.inl ⟨tr, htr, hw⟩⟩
    · exact ⟨i, hi, Or.inr hr⟩
  · rintro ⟨i, hi, ⟨tr, htr, hw⟩ | hr⟩
    · exact Or.inl ⟨i, tr, hi, htr, hw⟩
    · exact Or.inr ⟨i, hi, hr⟩

/-- What the iteration ends with keeps the invariant, and no block waits. -/
theorem analyze_inv {ty : Typer} {is : List Instr} {g : FlowGraph} {entry : AbstractState}
    {a : Analysis} {R : AbstractState → AbstractState → Prop}
    (hR : AbstractState.Ascending ty.model R) (hd : Dense is) (hg : FlowGraph.build is = .ok g)
    (hlive : entry.dead = false) (h : analyze ty is g entry = .ok a) :
    ∃ p, Inv ⟨is.toArray, g, ty⟩ R entry p ∧ p.worklist = [] ∧ p.states = a.states
      ∧ p.exceptionEdges = a.exceptionEdges := by
  obtain ⟨⟨left, p⟩, hit, h⟩ := bind_eq_ok.mp h
  cases h
  obtain ⟨hsize, hzero, -⟩ := FlowGraph.build_block_zero hg
  have hstart : Inv ⟨is.toArray, g, ty⟩ R entry (start g is.toArray.size entry) :=
    start_inv hR hlive hsize hzero
  obtain ⟨hinv, hwork⟩ := iterate_inv hR (wellFormed_of_build hd hg) hstart
    (by rw [List.size_toArray]; exact hit)
  exact ⟨p, hinv, hwork, rfl, rfl⟩

/-- **The analysis solves its body** in the sense of every relation that joins ascend. -/
theorem analyze_solves {ty : Typer} {is : List Instr} {g : FlowGraph} {entry : AbstractState}
    {a : Analysis} {R : AbstractState → AbstractState → Prop}
    (hR : AbstractState.Ascending ty.model R) (hd : Dense is) (hg : FlowGraph.build is = .ok g)
    (hlive : entry.dead = false) (h : analyze ty is g entry = .ok a) : a.Solves ty is entry R := by
  obtain ⟨p, hinv, hwork, hstates, hedges⟩ := analyze_inv hR hd hg hlive h
  obtain ⟨states, edges, steps⟩ := a
  subst hstates hedges
  obtain ⟨-, hzero, hat⟩ := FlowGraph.build_block_zero hg
  have hq : Problem.WellFormed ⟨is.toArray, g, ty⟩ := wellFormed_of_build hd hg
  have hentry : R entry (p.before 0) := by
    refine hinv.arrived hR hq hwork hlive ⟨?_, ?_, ?_⟩
    · rw [List.size_toArray]
      exact List.length_pos_of_ne_nil (FlowGraph.build_eq_ok hg).1
    · rw [FlowGraph.isLeader_iff, hat, hzero]
    · rw [hat]
      exact hinv.entry
  refine ⟨?_, hentry, ?_, ?_, ?_, ?_⟩
  · rw [hinv.size, List.size_toArray]
  · intro o i hi hl
    have := hinv.outcome hR hq hwork (by rw [List.getElem?_toArray]; exact hi) hl
    rw [List.size_toArray] at this
    exact this
  · intro o i u hi hl hm hu
    obtain ⟨e, he, hlt, hr, -⟩ :=
      hinv.exception hR hq hwork (by rw [List.getElem?_toArray]; exact hi) hl hm hu
    rw [List.size_toArray] at hlt
    exact ⟨e, he, hlt, hr⟩
  · intro o h
    rw [hinv.edges_iff hR hq hwork]
    simp only [Raises, List.getElem?_toArray]
    exact Iff.rfl
  · intro o
    refine (hinv.live_iff hR hq hwork (hR.live hlive hentry)).trans ?_
    exact iff_of_eq (congrArg (Relation.ReflTransGen · 0 o)
      (funext fun o => funext fun t => propext leads_iff))

/-- **The analysis gives a sound post-fixed point** in the order that joins define, for a model that
declarations build. -/
theorem analyze_postfixpoint {ty : Typer} {is : List Instr} {g : FlowGraph} {entry : AbstractState}
    {a : Analysis} (hm : ty.model.Built) (hd : Dense is) (hg : FlowGraph.build is = .ok g)
    (hlive : entry.dead = false) (h : analyze ty is g entry = .ok a) :
    a.Solves ty is entry fun s s' => AbstractState.isWithin ty.model s s' = true :=
  analyze_solves (AbstractState.ascending_isWithin hm.ordered) hd hg hlive h

theorem dense_numbered (ops : List Op) :
    Dense (ops.zipIdx.map fun (op, k) => ⟨k, op, none, none, false⟩) := by
  intro k i hi
  rw [List.getElem?_map, List.getElem?_zipIdx, Option.map_map] at hi
  obtain ⟨op, -, rfl⟩ := Option.map_eq_some_iff.mp hi
  exact Nat.zero_add k

/-- A loop inside a protected block: `try: while x: pass` with an empty handler. -/
def guardedLoop : List Instr :=
  ([.setupFinally 5 .tryBlock 0, .loadGlobal "x" 0, .popJumpIf true 1, .popBlock, .jump 9,
    .popTop, .popTop, .popTop, .popExcept, .loadConst 0, .returnValue] : List Op).zipIdx.map
    fun (op, k) => ⟨k, op, none, none, false⟩

theorem dense_guardedLoop : Dense guardedLoop := dense_numbered _

theorem analyze_postfixpoint_guardedLoop :
    TypeModel.Built TypeModel.empty ∧ Dense guardedLoop
      ∧ ∃ g a, FlowGraph.build guardedLoop = .ok g
        ∧ analyze ⟨TypeModel.empty, [.none], {}⟩ guardedLoop g (.entry [none] 0) = .ok a
        ∧ (1, 5) ∈ a.exceptionEdges
        ∧ a.Solves ⟨TypeModel.empty, [.none], {}⟩ guardedLoop (.entry [none] 0)
          fun s s' => AbstractState.isWithin TypeModel.empty s s' = true := by
  refine ⟨.empty, dense_guardedLoop, _, _, rfl, rfl, ?_,
    analyze_postfixpoint .empty dense_guardedLoop rfl rfl rfl⟩
  decide

end Fixpoint

end Stackwise
