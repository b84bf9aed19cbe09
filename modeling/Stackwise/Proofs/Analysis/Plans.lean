import Stackwise.Proofs.Analysis.Applicable
import Stackwise.Proofs.Analysis.Expansion
import Stackwise.Proofs.Analysis.Handlers
import Stackwise.Proofs.Analysis.StepBound

/-!
# Plans

A plan of a body says where control may come to, and with which depth of the stack and which open
blocks. A plan that the operations keep to is all that the analysis needs to succeed: whatever the
types are, no visit fails.

* `Plan.Sound`: the operations of a body keep to a plan.
* `Analysis.planned`, `Analysis.Solves.sound`: the forms that an analysis found are a plan, and its
  body keeps to it.
* `Plan.Sound.visit`: a visit that starts as planned succeeds and leaves all blocks as planned; by
  induction, `Plan.Sound.iterate` for the iteration.
* `Fixpoint.analyze_of_sound`: the analysis of a body with a sound plan fails only at its bound.
* `Fixpoint.exists_analyze`: under the default bound it succeeds, if no stack is deeper than there
  are instructions.
-/

namespace Stackwise

/-- The depth of the stack and the open blocks at the offsets that control may come to. -/
abbrev Plan := Nat → Nat × List Block → Prop

namespace Plan

/-- The operations of a body keep to a plan. -/
structure Sound (P : Plan) (is : List Instr) (locals cells : Nat) : Prop where
  /-- There is one form for each offset. -/
  unique : ∀ {o F F'}, P o F → P o F' → F = F'
  lt : ∀ {o F}, P o F → o < is.length
  apt : ∀ {o i F}, is[o]? = some i → P o F → i.op.Apt locals cells
  /-- An operation has what it needs, and goes on as planned. -/
  moves : ∀ {o i d bs}, is[o]? = some i → P o (d, bs) → ∃ ws, i.op.moves d bs = some ws
    ∧ ∀ {succ F}, (succ, F) ∈ ws → P (succ.target o) F
  /-- The handlers of all open blocks are planned. -/
  caught : ∀ {o d bs h l k rest}, P o (d, bs) → (.protect h l k :: rest) <:+ bs →
    P h (l + 6, .handling l :: rest) ∧ ∃ i ∈ is, i.op.handlerTarget? = some h
  /-- An operation that may raise stands above the level of the block around it. -/
  above : ∀ {o i d bs u}, is[o]? = some i → P o (d, bs) → i.op.mayRaise = true →
    AbstractState.unwindFrom none bs = some u → u.level ≤ d

/-- A live state is as planned at an offset. -/
structure Allows (P : Plan) (locals cells o : Nat) (s : AbstractState) : Prop where
  live : Fixpoint.Live locals cells s
  form : P o (s.depth, s.blocks)

end Plan

/-! ## 1. The plan of an analysis -/

namespace Analysis

variable {a : Analysis} {ty : Typer} {is : List Instr} {entry : AbstractState}

/-- The forms that an analysis found. -/
def planned (a : Analysis) : Plan :=
  fun o F => (a.state o).dead = false ∧ F = ((a.state o).depth, (a.state o).blocks)

/-- **A body keeps to the forms that its analysis found.** -/
theorem Solves.sound (hs : a.Solves ty is entry AbstractState.KeepsForm)
    (hentry : entry.dead = false) (hblocks : entry.blocks = [])
    (hvars : ∀ o, (a.state o).dead = false → (a.state o).locals.length = entry.locals.length
      ∧ (a.state o).cells.length = entry.cells.length) :
    a.planned.Sound is entry.locals.length entry.cells.length where
  unique h h' := h.2.trans h'.2.symm
  lt h := hs.lt h.1
  apt {o i F} hi h := by
    obtain ⟨tr, htr, -⟩ := hs.outcome o i hi h.1
    obtain ⟨hlocals, hcells⟩ := hvars o h.1
    rw [← hlocals, ← hcells]
    exact Op.apt_of_effect htr
  moves {o i d bs} hi h := by
    obtain ⟨hl, hF⟩ := h
    cases hF
    obtain ⟨ws, hm, hall⟩ := hs.moves hi hl
    refine ⟨ws, hm, fun {succ F} hw => ?_⟩
    obtain ⟨hlive, hdepth, hopen⟩ := hall hw
    exact ⟨hlive, Prod.ext hdepth.symm hopen.symm⟩
  caught {o d bs h l k rest} hp hsuf := by
    obtain ⟨hl, hF⟩ := hp
    cases hF
    obtain ⟨hlive, hdepth, hopen, hsetup⟩ := hs.catches hentry hblocks hl h l k rest hsuf
    exact ⟨⟨hlive, Prod.ext hdepth.symm hopen.symm⟩, hsetup⟩
  above {o i d bs u} hi h hm hu := by
    obtain ⟨hl, hF⟩ := h
    cases hF
    obtain ⟨e, he, -⟩ := hs.exception o i u hi hl hm hu
    obtain ⟨u', hu', -, hle, -⟩ := AbstractState.exceptionState?_eq_ok he
    obtain rfl : u = u' := Option.some.inj (hu.symm.trans hu')
    exact hle

/-- The states of an analysis have as many variables as the entry. -/
theorem Solves.variables (hs : a.Solves ty is entry AbstractState.KeepsForm)
    (hentry : entry.dead = false) {o : Nat} (hl : (a.state o).dead = false) :
    (a.state o).locals.length = entry.locals.length
      ∧ (a.state o).cells.length = entry.cells.length := by
  have hreach := (hs.live o).mp hl
  clear hl
  induction hreach with
  | refl =>
    have hform := (hs.entry hentry).2
    exact ⟨hform.locals.symm, hform.cells.symm⟩
  | @tail o t hreach hstep ih =>
    have hl := (hs.live o).mpr hreach
    -- whatever leaves an instruction has as many variables
    have hkeeps : ∀ {s}, Op.Carries (a.state o) s → AbstractState.KeepsForm s (a.state t) →
        (a.state t).locals.length = entry.locals.length
          ∧ (a.state t).cells.length = entry.cells.length := by
      intro s hc hkeep
      have hform := (hkeep (hc.dead.trans hl)).2
      exact ⟨hform.locals.symm.trans (hc.locals.trans ih.1),
        hform.cells.symm.trans (hc.cells.trans ih.2)⟩
    obtain ⟨i, hi, ⟨tr, htr, w, hw, rfl⟩ | ⟨hmay, u, hu, rfl⟩⟩ := hstep
    · obtain ⟨tr', htr', hall⟩ := hs.outcome o i hi hl
      obtain rfl : tr = tr' := Except.ok.inj (htr.symm.trans htr')
      exact hkeeps ((Op.effect_follows htr).2 w hw) (hall w hw).2
    · obtain ⟨e, he, -, hkeep⟩ := hs.exception o i u hi hl hmay hu
      obtain ⟨u', -, -, -, -, -, hcarries⟩ := AbstractState.exceptionState?_eq_ok he
      exact hkeeps hcarries hkeep

end Analysis

/-! ## 2. Visits of a planned body -/

/-- A block that is not the last one ends where another one starts. -/
theorem FlowGraph.Partitions.isLeader_stop {g : FlowGraph} {n b : Nat} (h : g.Partitions n)
    (hb : b < g.size) (hlt : (g.block b).stop < n) : g.isLeader (g.block b).stop = true := by
  obtain ⟨hstart, hstop⟩ := h.holds _ hlt
  have hbounds := h.bounds b hb
  rw [FlowGraph.isLeader_iff]
  by_contra hne
  -- otherwise the last offset of the block would belong to two blocks
  have hlast := h.unique b hb ((g.block b).stop - 1) (by omega) (by omega)
  have hother := h.unique _ (h.blockAt_lt _ hlt) ((g.block b).stop - 1) (by omega) (by omega)
  rw [← hother, hlast] at hstop
  exact Nat.lt_irrefl _ hstop

namespace Plan

open Fixpoint

variable {P : Plan} {is : List Instr} {locals cells : Nat} {g : FlowGraph}
  {o b : Nat} {s : AbstractState} {i : Instr} {p p' : Fixpoint.Progress}

/-- All blocks that control was found to come to start as planned. -/
structure Meets (P : Plan) (locals cells : Nat) (g : FlowGraph) (p : Fixpoint.Progress) : Prop where
  size : p.blockIn.size = g.size
  entry : ∀ b, (p.entryOf b).dead = false → P.Allows locals cells (g.block b).start (p.entryOf b)

theorem Meets.congr (hp : P.Meets locals cells g p) (h : p'.blockIn = p.blockIn) :
    P.Meets locals cells g p' := by
  have hentry : ∀ b, p'.entryOf b = p.entryOf b := fun b => by
    rw [Fixpoint.Progress.entryOf, Fixpoint.Progress.entryOf, h]
  exact ⟨h ▸ hp.size, fun b hb => by rw [hentry] at hb ⊢; exact hp.entry b hb⟩

theorem Meets.setWorklist (hp : P.Meets locals cells g p) (rest : List Nat) :
    P.Meets locals cells g { p with worklist := rest } := hp.congr rfl

theorem Meets.lt (hp : P.Meets locals cells g p) (hb : (p.entryOf b).dead = false) : b < g.size := by
  by_contra hge
  rw [Fixpoint.Progress.entryOf, Array.getD_eq_getD_getElem?,
    Array.getElem?_eq_none (by rw [hp.size]; omega)] at hb
  cases hb

/-- Two states that are as planned have a join, and it is as planned. -/
theorem Sound.join (hP : P.Sound is locals cells) {old : AbstractState} {t : Nat} (m : TypeModel)
    (hold : old.dead = false → P.Allows locals cells t old) (hs : P.Allows locals cells t s) :
    ∃ new, AbstractState.join m t old s = .ok new ∧ P.Allows locals cells t new := by
  cases hd : old.dead with
  | true => exact ⟨s, AbstractState.join_dead hd, hs⟩
  | false =>
    have hold := hold hd
    obtain ⟨hdepth, hblocks⟩ := Prod.mk.inj (hP.unique hold.form hs.form)
    have hform : old.SameForm s := ⟨hdepth, hold.live.locals.trans hs.live.locals.symm,
      hold.live.cells.trans hs.live.cells.symm, hblocks⟩
    have hmerged := AbstractState.sameForm_merged (m := m) hform
    refine ⟨_, (AbstractState.join_live hd hs.live.live).mpr ⟨hform, rfl⟩, ⟨rfl, ?_, ?_⟩, ?_⟩
    · exact hmerged.locals.symm.trans hold.live.locals
    · exact hmerged.cells.symm.trans hold.live.cells
    · rw [← hmerged.depth, ← hmerged.blocks]
      exact hold.form

section Visits

variable (ty : Typer) (hP : P.Sound is locals cells) (hd : Dense is)
  (hg : FlowGraph.build is = .ok g)

include hP in
/-- A state that is as planned can be joined into its block. -/
theorem Sound.propagate (hp : P.Meets locals cells g p) (src : Nat) {t : Nat}
    (hs : P.Allows locals cells t s) (hleader : g.isLeader t = true) :
    ∃ p', propagate ⟨is.toArray, g, ty⟩ src t s p = .ok p' ∧ P.Meets locals cells g p' := by
  have hstart := FlowGraph.isLeader_iff.mp hleader
  have hold : (p.entryOf (g.blockAt t)).dead = false →
      P.Allows locals cells t (p.entryOf (g.blockAt t)) := fun hd => by
    have hentry := hp.entry _ hd
    rwa [hstart] at hentry
  obtain ⟨new, hnew, hallows⟩ := hP.join ty.model hold hs
  have hlt : t < is.toArray.size := by
    rw [List.size_toArray]
    exact hP.lt hs.form
  refine ⟨_, propagate_eq_ok.mpr ⟨hlt, hleader, new, hnew, rfl⟩, ?_⟩
  split
  · exact hp
  · have hin := (Fixpoint.Progress.enqueue_rest
      { p with blockIn := p.blockIn.setIfInBounds (g.blockAt t) new } (g.blockAt t)).1
    refine ⟨by rw [hin, Array.size_setIfInBounds, hp.size], fun b hb => ?_⟩
    rw [Fixpoint.Progress.entryOf, hin, getD_setIfInBounds] at hb ⊢
    split
    · rename_i hbt
      rw [← hbt.1, hstart]
      exact hallows
    · rename_i hne
      rw [if_neg hne] at hb
      exact hp.entry b hb

include hP hg in
/-- The exception of an operation finds its handler. -/
theorem Sound.propagateException (hp : P.Meets locals cells g p) (hi : is[o]? = some i)
    (hs : P.Allows locals cells o s) :
    ∃ p', propagateException ⟨is.toArray, g, ty⟩ o s i.op p = .ok p'
      ∧ P.Meets locals cells g p' := by
  unfold Fixpoint.propagateException
  split
  · rename_i hraise
    obtain ⟨x, hx⟩ := AbstractState.exists_exceptionState (o := o) fun u hu =>
      hP.above hi hs.form hraise hu
    cases x with
    | none => exact ⟨p, bind_eq_ok.mpr ⟨none, hx, rfl⟩, hp⟩
    | some he =>
      obtain ⟨handler, e⟩ := he
      obtain ⟨u, hu, rfl, -, hdepth, hblocks, hcarries⟩ := AbstractState.exceptionState?_eq_ok hx
      obtain ⟨hform, i', hi', htarget⟩ :=
        hP.caught hs.form (AbstractState.unwindFrom_eq_some hu)
      rw [← hdepth, ← hblocks] at hform
      have hleader : g.isLeader u.handler = true := by
        refine FlowGraph.build_isLeader_target hg hi' ?_
        simp [Op.targets, htarget]
      obtain ⟨p', hp', hmeets⟩ := hP.propagate ty
        (p := { p with exceptionEdges := insertEdge (o, u.handler) p.exceptionEdges })
        (hp.congr rfl) o ⟨hs.live.carries hcarries, hform⟩ hleader
      exact ⟨p', bind_eq_ok.mpr ⟨_, hx, hp'⟩, hmeets⟩
  · exact ⟨p, rfl, hp⟩

include hP in
/-- An operation has an effect and goes on as planned. -/
theorem Sound.effect (hi : is[o]? = some i) (hs : P.Allows locals cells o s) :
    ∃ tr, i.op.effect ty o s = .ok tr
      ∧ ∀ w ∈ tr, P.Allows locals cells (w.1.target o) w.2 := by
  obtain ⟨ws, hm, hall⟩ := hP.moves hi hs.form
  have hapt := hP.apt hi hs.form
  rw [← hs.live.locals, ← hs.live.cells] at hapt
  obtain ⟨tr, htr⟩ : ∃ tr, i.op.effect ty o s = .ok tr := Op.exists_effect hapt hm
  obtain ⟨hforms, hcarries⟩ := Op.effect_follows htr
  refine ⟨tr, htr, fun w hw => ⟨hs.live.carries (hcarries w hw), hall ?_⟩⟩
  rw [Option.some.inj (hm.symm.trans hforms)]
  exact List.mem_map.mpr ⟨w, hw, rfl⟩

include hP in
/-- All that leaves the last operation of a block can be joined where it goes. -/
theorem Sound.propagateAll {tr : Transfer} (hp : P.Meets locals cells g p)
    (htr : ∀ w ∈ tr, P.Allows locals cells (w.1.target o) w.2
      ∧ g.isLeader (w.1.target o) = true) (onward : Option AbstractState) :
    ∃ r, propagateAll ⟨is.toArray, g, ty⟩ o true tr onward p = .ok r
      ∧ P.Meets locals cells g r.2 := by
  induction tr generalizing p with
  | nil => exact ⟨_, rfl, hp⟩
  | cons w tr ih =>
    obtain ⟨succ, s'⟩ := w
    obtain ⟨hs', hleader⟩ := htr _ List.mem_cons_self
    obtain ⟨p₁, hp₁, hmeets₁⟩ := hP.propagate ty hp o hs' hleader
    obtain ⟨r, hr, hmeets⟩ := ih hmeets₁ fun w hw => htr w (List.mem_cons_of_mem _ hw)
    refine ⟨r, ?_, hmeets⟩
    cases succ <;> exact bind_eq_ok.mpr ⟨p₁, hp₁, hr⟩

include hP hd hg in
/-- From an offset of a block on, a visit succeeds. -/
theorem Sound.visitFrom (hb : b < g.size) {k : Nat} (hstart : (g.block b).start ≤ o)
    (hstop : o + (k + 1) = (g.block b).stop) (hs : P.Allows locals cells o s)
    (hp : P.Meets locals cells g p) :
    ∃ p', visitFrom ⟨is.toArray, g, ty⟩ (g.block b).last (List.range' o (k + 1)) s p = .ok p'
      ∧ P.Meets locals cells g p' := by
  have hparts := FlowGraph.build_partitions hg
  induction k generalizing o s p with
  | zero =>
    obtain ⟨i, hi⟩ : ∃ i, is[o]? = some i := ⟨_, List.getElem?_eq_getElem (hP.lt hs.form)⟩
    have hlast : (g.block b).last = o := by
      rw [BasicBlock.last]
      omega
    obtain ⟨p₀, hexc, hp₀⟩ := hP.propagateException ty hg
      (p := { p with states := p.states.setIfInBounds o s }) (hp.congr rfl) hi hs
    obtain ⟨tr, htr, hall⟩ := hP.effect ty hi hs
    have hleaders : ∀ w ∈ tr, g.isLeader (w.1.target o) = true := by
      rintro ⟨succ, s'⟩ hw
      cases succ with
      | next =>
        have hlt := hP.lt (hall _ hw).form
        rw [show Successor.target o .next = (g.block b).stop from hstop] at hlt ⊢
        exact hparts.isLeader_stop hb hlt
      | jump t =>
        have hjump : (Successor.jump t, s'.depth, s'.blocks) ∈ tr.map Op.formOf :=
          List.mem_map.mpr ⟨_, hw, rfl⟩
        refine FlowGraph.build_isLeader_target hg (List.mem_of_getElem? hi) ?_
        rcases Op.moves_jump (Op.effect_follows htr).1 hjump with h | h
        · simp [Successor.target, Op.targets, h]
        · simp [Successor.target, Op.targets, h]
    obtain ⟨⟨on, p₁⟩, hp₁, hmeets⟩ :=
      hP.propagateAll ty hp₀ (fun w hw => ⟨hall w hw, hleaders w hw⟩) none
    rw [hlast]
    exact ⟨p₁, (visitFrom_last hs.live.live (by rw [List.getElem?_toArray]; exact hi)).mpr
      ⟨p₀, tr, on, hexc, htr, hp₁⟩, hmeets⟩
  | succ k ih =>
    obtain ⟨i, hi⟩ : ∃ i, is[o]? = some i := ⟨_, List.getElem?_eq_getElem (hP.lt hs.form)⟩
    have hwell : Problem.WellFormed ⟨is.toArray, g, ty⟩ := wellFormed_of_build hd hg
    have hends : FlowGraph.endsBlock i.op = false := hwell.inner hb hstart
      (show o + 1 < (g.block b).stop by omega) (by rw [List.getElem?_toArray]; exact hi)
    obtain ⟨p₀, hexc, hp₀⟩ := hP.propagateException ty hg
      (p := { p with states := p.states.setIfInBounds o s }) (hp.congr rfl) hi hs
    obtain ⟨tr, htr, hall⟩ := hP.effect ty hi hs
    obtain ⟨s', rfl⟩ := Op.effect_onward hends htr
    obtain ⟨p', hp', hmeets⟩ := ih (o := o + 1) (by omega) (by omega)
      (hall _ List.mem_cons_self) hp₀
    refine ⟨p', ?_, hmeets⟩
    rw [List.range'_succ]
    exact (visitFrom_inner hs.live.live (by rw [List.getElem?_toArray]; exact hi)
      (by rw [BasicBlock.last]; omega) hends).mpr ⟨p₀, s', hexc, htr, hp'⟩

include hP hd hg in
/-- **A visit that starts as planned succeeds** and leaves all blocks as planned. -/
theorem Sound.visit (hp : P.Meets locals cells g p) (b : Nat) :
    ∃ p', visit ⟨is.toArray, g, ty⟩ b p = .ok p' ∧ P.Meets locals cells g p' := by
  cases hdead : (p.entryOf b).dead with
  | true =>
    obtain ⟨p', hp', hin, -⟩ := visitFrom_dead ⟨is.toArray, g, ty⟩ (g.block b).last
      (g.block b).offsets p hdead
    exact ⟨p', hp', hp.congr hin⟩
  | false =>
    have hb := hp.lt hdead
    have hbounds := (FlowGraph.build_partitions hg).bounds b hb
    obtain ⟨k, hk⟩ : ∃ k, (g.block b).start + (k + 1) = (g.block b).stop :=
      ⟨(g.block b).stop - (g.block b).start - 1, by omega⟩
    rw [Fixpoint.visit, BasicBlock.offsets_eq, ← hk, Nat.add_sub_cancel_left]
    exact hP.visitFrom ty hd hg hb (Nat.le_refl _) hk (hp.entry b hdead) hp

include hP hd hg in
/-- Visits leave all blocks as planned. -/
theorem Sound.visits {n : Nat} (hp : P.Meets locals cells g p)
    (h : Visits ⟨is.toArray, g, ty⟩ n p p') : P.Meets locals cells g p' := by
  induction h with
  | zero _ => exact hp
  | @succ n b rest p p₁ p' hwork hv _ ih =>
    obtain ⟨p₂, hp₂, hmeets⟩ := hP.visit ty hd hg (hp.setWorklist rest) b
    obtain rfl : p₁ = p₂ := Except.ok.inj (hv.symm.trans hp₂)
    exact ih hmeets

include hP hd hg in
/-- **The iteration over a planned body fails only at its bound.** -/
theorem Sound.iterate {bound left : Nat} {e : BodyError} (hp : P.Meets locals cells g p)
    (h : iterate ⟨is.toArray, g, ty⟩ bound left p = .error e) : e = .noFixedPoint bound := by
  induction left generalizing p with
  | zero =>
    cases hwork : p.worklist with
    | nil =>
      rw [iterate_nil hwork] at h
      cases h
    | cons b rest =>
      rw [iterate_zero hwork] at h
      exact (Except.error.inj h).symm
  | succ left ih =>
    cases hwork : p.worklist with
    | nil =>
      rw [iterate_nil hwork] at h
      cases h
    | cons b rest =>
      obtain ⟨p₁, hp₁, hmeets⟩ := hP.visit ty hd hg (hp.setWorklist rest) b
      rw [iterate_succ hwork, hp₁] at h
      exact ih hmeets h

end Visits

/-- The analysis starts as planned. -/
theorem start_meets {entry : AbstractState} {n : Nat} (hg : FlowGraph.build is = .ok g)
    (hlive : entry.dead = false) (hentry : P 0 (entry.depth, entry.blocks)) :
    P.Meets entry.locals.length entry.cells.length g (start g n entry) := by
  obtain ⟨hsize, hzero, -⟩ := FlowGraph.build_block_zero hg
  refine ⟨by rw [start, Array.size_setIfInBounds, Array.size_replicate], fun b hb => ?_⟩
  have hb0 : b = 0 := by
    by_contra hne
    rw [(start_entryOf hsize).2 hne] at hb
    cases hb
  rw [hb0, (start_entryOf (b := 0) hsize).1, hzero]
  exact ⟨⟨hlive, rfl, rfl⟩, hentry⟩

end Plan

/-! ## 3. The analysis of a planned body -/

namespace Fixpoint

variable {P : Plan} {is : List Instr} {g : FlowGraph} {ty : Typer} {entry : AbstractState}

section Planned

variable (hP : P.Sound is entry.locals.length entry.cells.length) (hd : Dense is)
  (hg : FlowGraph.build is = .ok g) (hlive : entry.dead = false)
  (hentry : P 0 (entry.depth, entry.blocks))

include hP hd hg hlive hentry

/-- **The analysis of a planned body fails only at its bound.** -/
theorem analyze_of_sound {e : BodyError} (h : analyze ty is g entry = .error e) :
    ∃ k, e = .noFixedPoint k := by
  rcases bind_eq_error h with h | ⟨_, -, h⟩
  · exact ⟨_, hP.iterate ty hd hg (Plan.start_meets hg hlive hentry) h⟩
  · cases h

/-- **The analysis of a planned body succeeds** under the default bound, if no stack of the plan is
deeper than the body is long. -/
theorem exists_analyze (hm : ty.model.ExtendsBuiltins) (hc : ty.config.maxSteps = none)
    (hfits : allowance ty.model g.size is.length entry ≤ maxBound)
    (hshallow : ∀ {o d bs}, P o (d, bs) → d ≤ is.length) :
    ∃ a, analyze ty is g entry = .ok a := by
  have hmeets := Plan.start_meets (n := is.length) hg hlive hentry
  have hq : g.Partitions is.toArray.size := by
    rw [List.size_toArray]
    exact FlowGraph.build_partitions hg
  obtain ⟨n, p, hrun, hend⟩ := exists_halted (q := ⟨is.toArray, g, ty⟩) hm.built hq
    (start_sized ⟨is.toArray, g, ty⟩ is.length hlive (FlowGraph.build_block_zero hg).1)
  have hp := hP.visits ty hd hg hmeets hrun
  have hdecides := (default_bound_suffices hm hc hg hlive hfits hrun hend
    fun b hb => hshallow (hp.entry b hb).form).2
  cases h : analyze ty is g entry with
  | ok a => exact ⟨a, rfl⟩
  | error e =>
    obtain ⟨k, rfl⟩ := analyze_of_sound hP hd hg hlive hentry h
    exact absurd h (hdecides k)

end Planned

end Fixpoint

end Stackwise
