import Mathlib.Algebra.Group.Action.Defs
import Stackwise.Proofs.Analysis.Convergence

/-!
# How many visits there are

The default bound counts a rise for every variable and for every instruction's slot on the stack.
The count is right for the deepest stack that a block is entered with, whatever the instructions
are: an operation may leave two slots more than it takes, so that a stack can be deeper than its body
is long.

* `Progress.potential`: what the blocks can still rise, the sleeping ones with all that a stack of a
  given depth allows; moves do not raise it and each visit lowers it.
* `visits_le`: the number of visits, for the deepest stack at an entry of a block.
* `default_bound_suffices`: the default bound refuses no body whose blocks are entered with at most
  as many slots as it has instructions.
-/

namespace Stackwise

namespace Fixpoint

variable {q : Problem} {l c D : Nat} {p p' : Progress}

/-! ## 1. The potential -/

/-- Blocks that control can come to are entered with at most `D` slots on the stack. -/
def Progress.Shallow (D : Nat) (p : Progress) : Prop :=
  ∀ b, (p.entryOf b).dead = false → (p.entryOf b).depth ≤ D

/-- The most rises that a state can have ahead, for the given numbers of variables and slots. -/
def maxRank (m : TypeModel) (l c D : Nat) : Nat := (l + c + D + 1) * (max 1 m.maxDepth + 2)

theorem Live.rank_le {m : TypeModel} {s : AbstractState} (h : Live l c s) (hd : s.depth ≤ D) :
    s.rank m ≤ maxRank m l c D := by
  refine (s.rank_le m).trans (Nat.mul_le_mul_right _ ?_)
  rw [h.locals, h.cells]
  omega

/-- What a block can still rise: a sleeping one has to wake up first. -/
def ahead (m : TypeModel) (k : Nat) (s : AbstractState) : Nat :=
  if s.dead then k + 1 else s.rank m

theorem ahead_dead {m : TypeModel} {k : Nat} {s : AbstractState} (h : s.dead = true) :
    ahead m k s = k + 1 := if_pos h

theorem ahead_live {m : TypeModel} {k : Nat} {s : AbstractState} (h : s.dead = false) :
    ahead m k s = s.rank m := if_neg (by rw [h]; exact Bool.false_ne_true)

/-- The rises that are left to all blocks, and the visits that are due. -/
def Progress.potential (m : TypeModel) (k : Nat) (p : Progress) : Nat :=
  p.total (ahead m k) + p.worklist.length

/-- A rise lowers what is ahead. -/
theorem Rises.ahead_lt {m : TypeModel} (hm : m.Built) {old new : AbstractState}
    (h : Rises m l c old new) (hd : new.depth ≤ D) :
    ahead m (maxRank m l c D) new < ahead m (maxRank m l c D) old := by
  cases h with
  | wakes hold hnew =>
    rw [ahead_dead hold, ahead_live hnew.live]
    exact Nat.lt_succ_of_le (hnew.rank_le hd)
  | grows hold hw hne =>
    rw [ahead_live hold, ahead_live hw.live]
    exact AbstractState.rank_lt hm hold hw hne

/-- Stacks keep their depth, so a move that leaves them shallow found them shallow. -/
theorem Move.shallow (hq : q.graph.Partitions q.code.size) (hp : Sized q l c p)
    (h : Move q l c p p') (hs : p'.Shallow D) : p.Shallow D := by
  rcases h.inv hq hp.size with ⟨hin, -⟩ | ⟨b, new, hrep, hrise⟩
  · intro b hb
    have hb' := hs b
    rw [Progress.entryOf, hin] at hb'
    exact hb' hb
  · intro b' hb'
    have hentry := hs b'
    rw [hrep.entryOf] at hentry
    by_cases heq : b = b'
    · subst heq
      rw [if_pos rfl] at hentry
      cases hrise with
      | wakes hold hnew => rw [hold] at hb'; cases hb'
      | grows hold hw hne =>
        rw [hw.sameForm.depth]
        exact hentry hw.live
    · rw [if_neg heq] at hentry
      exact hentry hb'

/-- **A move does not raise the potential**: what it adds to the worklist, a rise has paid for. -/
theorem Move.potential_le (hm : q.typer.model.Built) (hq : q.graph.Partitions q.code.size)
    (hp : Sized q l c p) (h : Move q l c p p') (hs : p'.Shallow D) :
    p'.potential q.typer.model (maxRank q.typer.model l c D)
      ≤ p.potential q.typer.model (maxRank q.typer.model l c D) := by
  unfold Progress.potential
  rcases h.inv hq hp.size with ⟨hin, hwork⟩ | ⟨b, new, hrep, hrise⟩
  · rw [total_congr hin, hwork]
  · have hnew : p'.entryOf b = new := (hrep.entryOf b).trans (if_pos rfl)
    have hlive := (hrise.live (hp.live b)).live
    have hd : new.depth ≤ D := hnew ▸ hs b (hnew ▸ hlive)
    have hlt := hrise.ahead_lt hm hd
    have htotal := hrep.total (ahead q.typer.model (maxRank q.typer.model l c D))
    have hlen := hrep.worklist
    omega

theorem Moves.potential_le (hm : q.typer.model.Built) (hq : q.graph.Partitions q.code.size)
    (hp : Sized q l c p) (h : Moves q l c p p') (hs : p'.Shallow D) :
    p.Shallow D ∧ p'.potential q.typer.model (maxRank q.typer.model l c D)
      ≤ p.potential q.typer.model (maxRank q.typer.model l c D) := by
  induction h with
  | refl => exact ⟨hs, Nat.le_refl _⟩
  | @tail p₁ p₂ hmoves hmove ih =>
    have hp₁ := (Moves.notAbove hm hq hp hmoves).1
    obtain ⟨hshallow, hle⟩ := ih (hmove.shallow hq hp₁ hs)
    exact ⟨hshallow, (hmove.potential_le hm hq hp₁ hs).trans hle⟩

/-- **Each visit lowers the potential.** -/
theorem Visits.potential_le {n : Nat} (hm : q.typer.model.Built)
    (hq : q.graph.Partitions q.code.size) (hp : Sized q l c p) (h : Visits q n p p')
    (hs : p'.Shallow D) :
    p.Shallow D ∧ n + p'.potential q.typer.model (maxRank q.typer.model l c D)
      ≤ p.potential q.typer.model (maxRank q.typer.model l c D) := by
  induction h with
  | zero p => exact ⟨hs, Nat.le_of_eq (Nat.zero_add _)⟩
  | @succ n b rest p p₁ p' hwork hv _ ih =>
    have hrest : Sized q l c { p with worklist := rest } := ⟨hp.size, hp.live⟩
    have hmoves := visit_moves hrest hv
    obtain ⟨hshallow₁, hle₁⟩ := ih (visit_lowers hm hq hp hwork hv).1 hs
    obtain ⟨hshallow, hle⟩ := Moves.potential_le hm hq hrest hmoves hshallow₁
    refine ⟨hshallow, ?_⟩
    have hlen : p.potential q.typer.model (maxRank q.typer.model l c D)
        = ({ p with worklist := rest } : Progress).potential q.typer.model
          (maxRank q.typer.model l c D) + 1 := by
      unfold Progress.potential
      rw [hwork, total_congr rfl]
      rfl
    omega

/-! ## 2. The number of visits -/

/-- What the default bound counts, with `D` slots on the stack. -/
def allowance (m : TypeModel) (blocks D : Nat) (entry : AbstractState) : Nat :=
  blocks * (1 + (entry.locals.length + entry.cells.length + D + 1) * (m.maxDepth + 2))

theorem start_potential {m : TypeModel} {g : FlowGraph} {n : Nat} {entry : AbstractState}
    (hg : 0 < g.size) (hlive : entry.dead = false) (hd : entry.depth ≤ D) :
    (start g n entry).potential m (maxRank m entry.locals.length entry.cells.length D)
      ≤ g.size * (1 + maxRank m entry.locals.length entry.cells.length D) := by
  have hsize : (start g n entry).blockIn.size = g.size := by
    rw [start, Array.size_setIfInBounds, Array.size_replicate]
  have hrank := (Live.mk (s := entry) hlive rfl rfl).rank_le (m := m) hd
  have hzero : (start g n entry).entryOf 0 = entry := (start_entryOf (b := 0) hg).1
  obtain ⟨blocks, hblocks⟩ : ∃ k, g.size = k + 1 := ⟨g.size - 1, by omega⟩
  have hrest : ∀ b, ahead m (maxRank m entry.locals.length entry.cells.length D)
      ((start g n entry).entryOf (b + 1))
      = maxRank m entry.locals.length entry.cells.length D + 1 :=
    fun b => ahead_dead ((start_entryOf hg).2 (Nat.succ_ne_zero b))
  have htotal : (start g n entry).total (ahead m (maxRank m entry.locals.length entry.cells.length D))
      = blocks * (maxRank m entry.locals.length entry.cells.length D + 1) + entry.rank m := by
    rw [Progress.total, hsize, hblocks, Finset.sum_range_succ', hzero, ahead_live hlive]
    simp only [hrest, Finset.sum_const, Finset.card_range, smul_eq_mul]
  rw [Progress.potential, htotal, hblocks, Nat.succ_mul]
  have hwork : (start g n entry).worklist.length = 1 := rfl
  rw [hwork, Nat.add_comm 1 (maxRank _ _ _ _)]
  omega

/-- **The number of visits**, for the deepest stack that a block is entered with. -/
theorem visits_le {ty : Typer} {is : List Instr} {g : FlowGraph} {entry : AbstractState} {n : Nat}
    (hm : ty.model.Built) (hdepth : 1 ≤ ty.model.maxDepth) (hg : FlowGraph.build is = .ok g)
    (hlive : entry.dead = false) (h : Visits ⟨is.toArray, g, ty⟩ n (start g is.length entry) p)
    (hs : p.Shallow D) : n + p.worklist.length ≤ allowance ty.model g.size D entry := by
  have hq : g.Partitions is.toArray.size := by
    rw [List.size_toArray]
    exact FlowGraph.build_partitions hg
  have hsize := (FlowGraph.build_block_zero hg).1
  have hstart := start_sized ⟨is.toArray, g, ty⟩ is.length hlive hsize
  obtain ⟨hshallow, hle⟩ := Visits.potential_le hm hq hstart h hs
  have hentry := hshallow 0
  rw [(start_entryOf (b := 0) hsize).1] at hentry
  have hmax : maxRank ty.model entry.locals.length entry.cells.length D
      = (entry.locals.length + entry.cells.length + D + 1) * (ty.model.maxDepth + 2) := by
    rw [maxRank, Nat.max_eq_right hdepth]
  calc n + p.worklist.length
      ≤ n + p.potential ty.model (maxRank ty.model entry.locals.length entry.cells.length D) :=
        Nat.add_le_add_left (Nat.le_add_left _ _) n
    _ ≤ (start g is.length entry).potential ty.model
          (maxRank ty.model entry.locals.length entry.cells.length D) := hle
    _ ≤ g.size * (1 + maxRank ty.model entry.locals.length entry.cells.length D) :=
        start_potential hsize hlive (hentry hlive)
    _ = allowance ty.model g.size D entry := by rw [hmax, allowance]

/-! ## 3. The default bound -/

theorem stepBound_default {config : Config} (hc : config.maxSteps = none) (m : TypeModel)
    (blocks instructions : Nat) (entry : AbstractState) :
    stepBound config m blocks instructions entry
      = min maxBound (allowance m blocks instructions entry) := by
  unfold stepBound
  rw [hc]
  rfl

/-- **The default bound suffices for shallow stacks.** Let the visits of a body, made without any
bound, come to their end. If every block is then entered with at most as many slots on the stack as
the body has instructions, there were no more visits than the default bound allows, and the analysis
does not give up. -/
theorem default_bound_suffices {ty : Typer} {is : List Instr} {g : FlowGraph}
    {entry : AbstractState} {n : Nat} (hm : ty.model.ExtendsBuiltins)
    (hc : ty.config.maxSteps = none) (hg : FlowGraph.build is = .ok g) (hlive : entry.dead = false)
    (hfits : allowance ty.model g.size is.length entry ≤ maxBound)
    (hrun : Visits ⟨is.toArray, g, ty⟩ n (start g is.length entry) p)
    (hend : Halted ⟨is.toArray, g, ty⟩ p) (hs : p.Shallow is.length) :
    n ≤ allowance ty.model g.size is.length entry
      ∧ ∀ k, analyze ty is g entry ≠ .error (.noFixedPoint k) := by
  have hle := visits_le hm.built (hm.built.maxDepth_pos hm.size) hg hlive hrun hs
  have hbound := stepBound_default hc ty.model g.size is.length entry
  rw [Nat.min_eq_right hfits] at hbound
  obtain ⟨r, hr, hiterate⟩ := hend.iterate_eq
  refine ⟨by omega, ?_⟩
  have hdecides : Decides (iterate ⟨is.toArray, g, ty⟩ (allowance ty.model g.size is.length entry)
      (allowance ty.model g.size is.length entry) (start g is.length entry)) := by
    rw [hrun.iterate_eq (by omega), hiterate _ _ (by omega)]
    exact hr.map _
  rw [← hbound] at hdecides
  exact hdecides.bind fun _ => decides_ok _

/-- An iteration that ends has made its visits, and no block waits. -/
theorem visits_of_iterate {bound left left' : Nat} (h : iterate q bound left p = .ok (left', p')) :
    (∃ n, Visits q n p p') ∧ p'.worklist = [] := by
  induction left generalizing p with
  | zero =>
    cases hwork : p.worklist with
    | nil =>
      rw [iterate_nil hwork] at h
      cases h
      exact ⟨⟨0, .zero _⟩, hwork⟩
    | cons b rest =>
      rw [iterate_zero hwork] at h
      cases h
  | succ left ih =>
    cases hwork : p.worklist with
    | nil =>
      rw [iterate_nil hwork] at h
      cases h
      exact ⟨⟨0, .zero _⟩, hwork⟩
    | cons b rest =>
      rw [iterate_succ hwork] at h
      obtain ⟨p₁, hv, h⟩ := bind_eq_ok.mp h
      obtain ⟨⟨n, hvisits⟩, hend⟩ := ih h
      exact ⟨⟨n + 1, .succ hwork hv hvisits⟩, hend⟩

theorem shallow_of_all (h : p.blockIn.toList.all (·.depth ≤ D) = true) : p.Shallow D := by
  intro b hb
  rw [Progress.entryOf, Array.getD_eq_getD_getElem?] at hb ⊢
  cases hs : p.blockIn[b]? with
  | none =>
    rw [hs] at hb
    cases hb
  | some s =>
    have hmem : s ∈ p.blockIn.toList := Array.mem_toList_iff.mpr (Array.mem_of_getElem? hs)
    exact of_decide_eq_true (List.all_eq_true.mp h s hmem)

theorem default_bound_suffices_guardedLoop : TypeModel.withBuiltins.ExtendsBuiltins
    ∧ ∃ g n p, FlowGraph.build guardedLoop = .ok g
      ∧ Visits ⟨guardedLoop.toArray, g, ⟨.withBuiltins, [.none], {}⟩⟩ n
          (start g guardedLoop.length (.entry [none] 0)) p
      ∧ Halted ⟨guardedLoop.toArray, g, ⟨.withBuiltins, [.none], {}⟩⟩ p
      ∧ p.Shallow guardedLoop.length
      ∧ n ≤ allowance .withBuiltins g.size guardedLoop.length (.entry [none] 0)
      ∧ ∀ k, analyze ⟨.withBuiltins, [.none], {}⟩ guardedLoop g (.entry [none] 0)
        ≠ .error (.noFixedPoint k) := by
  obtain ⟨g, hg⟩ : ∃ g, FlowGraph.build guardedLoop = .ok g := ⟨_, rfl⟩
  have hsize : g.size = 5 := by
    have h : (FlowGraph.build guardedLoop).toOption.map FlowGraph.size = some 5 := by decide +kernel
    rw [hg] at h
    exact Option.some.inj h
  have hfits : allowance .withBuiltins g.size guardedLoop.length (.entry [none] 0) ≤ maxBound := by
    rw [hsize]
    decide +kernel
  have hrun : ((FlowGraph.build guardedLoop).toOption.bind fun g => (iterate
      ⟨guardedLoop.toArray, g, ⟨.withBuiltins, [.none], {}⟩⟩ 20 20
      (start g guardedLoop.length (.entry [none] 0))).toOption).any
        (fun r => r.2.blockIn.toList.all (·.depth ≤ guardedLoop.length)) = true := by
    decide +kernel
  obtain ⟨⟨left, p⟩, hrun, hall⟩ := (Option.any_eq_true _ _).mp hrun
  rw [hg] at hrun
  obtain ⟨⟨n, hvisits⟩, hwork⟩ := visits_of_iterate (toOption_eq_some.mp hrun)
  have hs := shallow_of_all hall
  have hmodel : (Typer.mk .withBuiltins [.none] {}).model.ExtendsBuiltins := .builtins
  exact ⟨.builtins, g, n, p, hg, hvisits, .empty hwork, hs,
    default_bound_suffices hmodel rfl hg rfl hfits hvisits (.empty hwork) hs⟩

end Fixpoint

end Stackwise
