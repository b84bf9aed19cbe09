import Stackwise.Proofs.Analysis.ReachedBlocks
import Stackwise.Proofs.Analysis.Regions

/-!
# Faithful tables

The table of regions is a faithful compression of the states of an analysis: where exceptions go is
neither lost nor made up by joining neighbours. What a handler is for may be.

* `Apart`, `merge_apart`: regions stand one after the other, so an offset is found in the one region
  that holds it.
* `table_opens`: a region begins as the region of its first offset.
* `NearestFinally`: the nearest `finally` clause among open blocks.
* `Faithful`, `table_faithful`: what the table says.
* `Op.opens?`, `Solves.opened`: every block that is open was open at the entry, or an operation
  opens it.
* `region_kind`: neighbours are joined by where exceptions go, not by what the handler is for. The
  kind of a region is that of the block at its first offset, so it is right where a handler serves
  blocks of one kind.
* `kind_lost_sharedHandler`: a handler that serves blocks of both kinds.
-/

namespace Stackwise

namespace Region

variable {base o : Nat} {r : Region} {rs : List Region} {run : Option Region}
  {xs : List (Option Region)} {is : List Instr} {a : Analysis}

/-! ## 1. Regions one after the other -/

/-- Regions that hold some offset each and stand one after the other. -/
structure Apart (rs : List Region) : Prop where
  nonempty : ∀ r ∈ rs, r.start < r.stop
  sorted : rs.Pairwise fun r r' => r.stop ≤ r'.start

theorem Apart.tail (h : Apart (r :: rs)) : Apart rs :=
  ⟨fun r' hr' => h.nonempty r' (.tail _ hr'), (List.pairwise_cons.mp h.sorted).2⟩

theorem Apart.cons (h : Apart rs) (hr : r.start < r.stop) (hrs : ∀ r' ∈ rs, r.stop ≤ r'.start) :
    Apart (r :: rs) := by
  refine ⟨fun r' hr' => ?_, List.pairwise_cons.mpr ⟨hrs, h.sorted⟩⟩
  rcases List.mem_cons.mp hr' with rfl | hr'
  · exact hr
  · exact h.nonempty r' hr'

/-- **An offset is found in the region that holds it.** -/
theorem Apart.find?_iff (h : Apart rs) :
    find? rs o = some r ↔ r ∈ rs ∧ r.start ≤ o ∧ o < r.stop := by
  induction rs with
  | nil => simp [find?]
  | cons r₀ rs ih =>
    have hbehind : ∀ r ∈ rs, r₀.stop ≤ r.start := (List.pairwise_cons.mp h.sorted).1
    have hfirst := h.nonempty r₀ (.head _)
    rw [find?_cons, List.mem_cons]
    split
    · -- the offset lies behind the first region
      rw [ih h.tail]
      refine and_congr_left fun hin => ⟨.inr, fun hr => hr.resolve_left ?_⟩
      rintro rfl
      omega
    · split
      · constructor
        · intro heq
          cases heq
          exact ⟨.inl rfl, by omega, by omega⟩
        · rintro ⟨rfl | hr, hstart, -⟩
          · rfl
          · have := hbehind r hr
            omega
      · constructor
        · intro heq
          cases heq
        · rintro ⟨rfl | hr, hstart, -⟩
          · omega
          · have := hbehind r hr
            omega

/-- **Joined runs stand one after the other**, from the start of the run that is open on. -/
theorem merge_apart (hxs : Single base xs)
    (hrun : ∀ r, run = some r → r.start < base ∧ r.stop = base) :
    Apart (merge xs run) ∧ ∀ r ∈ merge xs run, run.elim base start ≤ r.start := by
  fun_induction merge xs run generalizing base with
  | case1 run =>
    cases run with
    | none => exact ⟨⟨fun _ hr => absurd hr List.not_mem_nil, .nil⟩, fun _ hr => by cases hr⟩
    | some r =>
      obtain ⟨hstart, hstop⟩ := hrun r rfl
      refine ⟨⟨fun r' hr' => ?_, List.pairwise_singleton _ _⟩, fun r' hr' => ?_⟩
      · cases List.mem_singleton.mp hr'
        omega
      · cases List.mem_singleton.mp hr'
        exact Nat.le_refl _
  | case2 next rest ih =>
    obtain ⟨hapart, hlow⟩ := ih hxs.tail fun r hr => by
      subst hr
      obtain ⟨hstart, hstop⟩ := hxs.head
      exact ⟨by omega, hstop⟩
    refine ⟨hapart, fun r hr => ?_⟩
    have hle := hlow r hr
    cases next with
    | none => exact Nat.le_of_succ_le hle
    | some next => exact Nat.le_trans (Nat.le_of_eq hxs.head.1.symm) hle
  | case3 rest run ih =>
    obtain ⟨hstart, rfl⟩ := hrun run rfl
    obtain ⟨hapart, hlow⟩ := ih hxs.tail fun _ h => by cases h
    refine ⟨hapart.cons hstart fun r hr => Nat.le_of_succ_le (hlow r hr), fun r hr => ?_⟩
    rcases List.mem_cons.mp hr with rfl | hr
    · exact Nat.le_refl _
    · exact Nat.le_of_lt (Nat.lt_trans hstart (hlow r hr))
  | case4 next rest run hsame ih =>
    exact ih hxs.tail fun r hr => by
      cases hr
      exact ⟨Nat.lt_succ_of_lt (hrun run rfl).1, hxs.head.2⟩
  | case5 next rest run hsame ih =>
    obtain ⟨hstart, rfl⟩ := hrun run rfl
    obtain ⟨hnext, hstop⟩ := hxs.head
    obtain ⟨hapart, hlow⟩ := ih hxs.tail fun r hr => by
      cases hr
      exact ⟨by omega, hstop⟩
    have hbehind : ∀ r ∈ merge rest (some next), run.stop ≤ r.start := fun r hr =>
      Nat.le_trans (Nat.le_of_eq hnext.symm) (hlow r hr)
    refine ⟨hapart.cons hstart hbehind, fun r hr => ?_⟩
    rcases List.mem_cons.mp hr with rfl | hr
    · exact Nat.le_refl _
    · exact Nat.le_of_lt (Nat.lt_of_lt_of_le hstart (hbehind r hr))

theorem table_apart (is : List Instr) (a : Analysis) : Apart (table is a) :=
  (merge_apart (single_ofState? is a) fun _ h => by cases h).1

/-! ## 2. What a run begins with -/

/-- A joined run is its first region but for the end. -/
theorem mem_merge (hr : r ∈ merge xs run) :
    ∃ r₀, (run = some r₀ ∨ some r₀ ∈ xs) ∧ { r₀ with stop := r.stop } = r := by
  fun_induction merge xs run with
  | case1 run => exact ⟨r, .inl (Option.mem_toList.mp hr), rfl⟩
  | case2 next rest ih =>
    obtain ⟨r₀, hr₀ | hr₀, heq⟩ := ih hr
    · exact ⟨r₀, .inr (hr₀ ▸ .head _), heq⟩
    · exact ⟨r₀, .inr (.tail _ hr₀), heq⟩
  | case3 rest run ih =>
    rcases List.mem_cons.mp hr with rfl | hr
    · exact ⟨r, .inl rfl, rfl⟩
    · obtain ⟨r₀, hr₀ | hr₀, heq⟩ := ih hr
      · cases hr₀
      · exact ⟨r₀, .inr (.tail _ hr₀), heq⟩
  | case4 next rest run hsame ih =>
    obtain ⟨r₀, hr₀ | hr₀, heq⟩ := ih hr
    · cases hr₀
      exact ⟨run, .inl rfl, heq⟩
    · exact ⟨r₀, .inr (.tail _ hr₀), heq⟩
  | case5 next rest run hsame ih =>
    rcases List.mem_cons.mp hr with rfl | hr
    · exact ⟨r, .inl rfl, rfl⟩
    · obtain ⟨r₀, hr₀ | hr₀, heq⟩ := ih hr
      · cases hr₀
        exact ⟨next, .inr (.head _), heq⟩
      · exact ⟨r₀, .inr (.tail _ hr₀), heq⟩

/-- **A region begins as the region of its first offset.** -/
theorem table_opens (hr : r ∈ table is a) :
    ofState? is.toArray r.start (a.state r.start) = some { r with stop := r.start + 1 } := by
  obtain ⟨r₀, hr₀ | hr₀, heq⟩ := mem_merge hr
  · cases hr₀
  · obtain ⟨⟨s, o⟩, hs, hof⟩ := List.mem_map.mp hr₀
    have hof : ofState? is.toArray o s = some r₀ := hof
    rw [List.mk_mem_zipIdx_iff_getElem?, Array.getElem?_toList] at hs
    have hstate : a.state o = s := by
      rw [Analysis.state, Array.getD_eq_getD_getElem?, hs]
      rfl
    obtain ⟨rfl, hstop⟩ := ofState?_offsets hof
    rw [← heq]
    dsimp only
    rw [hstate, hof, ← hstop]

/-! ## 3. The nearest finally clause -/

/-- The handler of the nearest `finally` clause among open blocks, the innermost one first. -/
def NearestFinally (code : Array Instr) (bs : List Block) : Option Nat → Prop
  | none => ∀ h l k, .protect h l k ∈ bs → classify code h k ≠ .finally_
  | some e => ∃ nearer l k farther, bs = nearer ++ .protect e l k :: farther
    ∧ classify code e k = .finally_
    ∧ ∀ h l' k', .protect h l' k' ∈ nearer → classify code h k' ≠ .finally_

theorem finallyEntry_nearest (code : Array Instr) (s : AbstractState) :
    NearestFinally code (AbstractState.outerBlocks s.blocks) <| finallyEntry? code s := by
  -- no clause is found among the blocks that are passed over
  have hnone : ∀ {h k}, (if classify code h k = .finally_ then some h else none) = none →
      classify code h k ≠ .finally_ := by
    intro h k hnone hfinally
    rw [if_pos hfinally] at hnone
    cases hnone
  cases he : finallyEntry? code s with
  | none =>
    intro h l k hmem
    exact hnone (List.findSome?_eq_none_iff.mp he _ hmem)
  | some e =>
    obtain ⟨nearer, b, farther, hsplit, hb, hnearer⟩ := List.findSome?_eq_some_iff.mp he
    cases b with
    | handling l => cases hb
    | protect h l k =>
      obtain ⟨hfinally, heq⟩ := Option.ite_none_right_eq_some.mp hb
      cases heq
      exact ⟨nearer, l, k, farther, hsplit, hfinally, fun h' l' k' hmem =>
        hnone (hnearer _ hmem)⟩

/-! ## 4. The table -/

/-- What a table of regions says of the states of an analysis. -/
structure Faithful (is : List Instr) (a : Analysis) (regions : List Region) : Prop where
  nonempty : ∀ r ∈ regions, r.start < r.stop
  /-- Regions are in the order of their starts and do not overlap. -/
  sorted : regions.Pairwise fun r r' => r.start < r'.start ∧ r.stop ≤ r'.start
  /-- Those that end by an offset stand in front of the others, as a binary search needs it. -/
  partitioned : ∀ o, regions.Pairwise fun r r' => r'.stop ≤ o → r.stop ≤ o
  /-- An offset is found in the region that holds it. -/
  find?_iff : ∀ o r, find? regions o = some r ↔ r ∈ regions ∧ r.start ≤ o ∧ o < r.stop
  /-- The offsets that are found are those of live states inside protected blocks. -/
  covered : ∀ o, (find? regions o).isSome = true
    ↔ (a.state o).dead = false ∧ ∃ h l k, .protect h l k ∈ (a.state o).blocks
  /-- A region routes an exception as the state at each of its offsets does. -/
  routes : ∀ o r, find? regions o = some r → ∃ u, (a.state o).unwind? = some u
    ∧ r.handler = u.handler ∧ r.level = u.level ∧ r.restoreAt = u.restoreAt
  /-- It names the nearest `finally` clause around the innermost protected block. -/
  enclosed : ∀ o r, find? regions o = some r → ∃ inner h l k outer,
    (a.state o).blocks = inner ++ .protect h l k :: outer ∧ (∀ b ∈ inner, ∃ l', b = .handling l')
    ∧ NearestFinally is.toArray outer r.finallyEntry
  /-- Each exception that was found goes to the handler of its region. -/
  edges : ∀ o h, (o, h) ∈ a.exceptionEdges → ∃ r, find? regions o = some r ∧ r.handler = h

/-- What is found at an offset, and what it says. -/
theorem find?_table_eq_some (h : find? (table is a) o = some r) :
    (a.state o).dead = false ∧ ∃ u, (a.state o).unwind? = some u ∧ r.handler = u.handler
      ∧ r.level = u.level ∧ r.restoreAt = u.restoreAt
      ∧ r.finallyEntry = finallyEntry? is.toArray (a.state o) := by
  have htarget := target_find?_table is a o
  rw [h, Option.map_some] at htarget
  split at htarget
  · cases htarget
  · rename_i hlive
    obtain ⟨u, hu, heq⟩ := Option.map_eq_some_iff.mp htarget.symm
    simp only [target, Prod.mk.injEq] at heq
    exact ⟨Bool.eq_false_iff.mpr hlive, u, hu, heq.1.symm, heq.2.1.symm, heq.2.2.1.symm,
      heq.2.2.2.symm⟩

theorem find?_table_isSome (is : List Instr) (a : Analysis) (o : Nat) :
    (find? (table is a) o).isSome = true
      ↔ (a.state o).dead = false ∧ (a.state o).unwind?.isSome = true := by
  rw [← Option.isSome_map (f := target), target_find?_table]
  cases (a.state o).dead with
  | true => simp
  | false => simp

/-- **The table of regions is faithful** to the analysis that it was made from. -/
theorem table_faithful {ty : Typer} {g : FlowGraph} {entry : AbstractState} (hd : Dense is)
    (hg : FlowGraph.build is = .ok g) (ha : Fixpoint.analyze ty is g entry = .ok a) :
    Faithful is a (table is a) := by
  have hapart := table_apart is a
  refine ⟨hapart.nonempty, ?_, fun o => ?_, fun o r => hapart.find?_iff, fun o => ?_,
    fun o r hr => ?_, fun o r hr => ?_, fun o t he => ?_⟩
  · refine hapart.sorted.imp_of_mem fun hr _ hle => ?_
    exact ⟨Nat.lt_of_lt_of_le (hapart.nonempty _ hr) hle, hle⟩
  · refine hapart.sorted.imp_of_mem fun _ hr' hle hstop => ?_
    exact Nat.le_trans (Nat.le_trans hle (Nat.le_of_lt (hapart.nonempty _ hr'))) hstop
  · rw [find?_table_isSome, AbstractState.unwind?, AbstractState.unwindFrom_isSome]
  · obtain ⟨-, u, hu, hhandler, hlevel, hrestore, -⟩ := find?_table_eq_some hr
    exact ⟨u, hu, hhandler, hlevel, hrestore⟩
  · obtain ⟨-, u, hu, -, -, -, hfinally⟩ := find?_table_eq_some hr
    obtain ⟨inner, hsplit, hinner⟩ := AbstractState.unwindFrom_split hu
    refine ⟨inner, u.handler, u.level, u.kind, _, hsplit, hinner, ?_⟩
    rw [hfinally]
    exact finallyEntry_nearest is.toArray (a.state o)
  · obtain ⟨hlive, u, hu, rfl⟩ := Fixpoint.analyze_unwinds hd hg ha he
    obtain ⟨r, hr⟩ := Option.isSome_iff_exists.mp
      ((find?_table_isSome is a o).mpr ⟨hlive, by rw [hu]; rfl⟩)
    obtain ⟨-, u', hu', hhandler, -⟩ := find?_table_eq_some hr
    rw [hu] at hu'
    cases hu'
    exact ⟨r, hr, hhandler⟩

theorem table_faithful_guardedLoop :
    Dense Fixpoint.guardedLoop ∧ ∃ g a, FlowGraph.build Fixpoint.guardedLoop = .ok g
      ∧ Fixpoint.analyze ⟨TypeModel.empty, [.none], {}⟩ Fixpoint.guardedLoop g (.entry [none] 0)
        = .ok a
      ∧ (1, 5) ∈ a.exceptionEdges
      ∧ table Fixpoint.guardedLoop a = [⟨1, 4, 5, 0, .except, none, none⟩]
      ∧ Faithful Fixpoint.guardedLoop a (table Fixpoint.guardedLoop a) := by
  obtain ⟨g, a, hg, ha, hedge, htable⟩ : ∃ g a, FlowGraph.build Fixpoint.guardedLoop = .ok g
      ∧ Fixpoint.analyze ⟨TypeModel.empty, [.none], {}⟩ Fixpoint.guardedLoop g (.entry [none] 0)
        = .ok a
      ∧ (1, 5) ∈ a.exceptionEdges
      ∧ table Fixpoint.guardedLoop a = [⟨1, 4, 5, 0, .except, none, none⟩] :=
    ⟨_, _, rfl, rfl, by decide, rfl⟩
  exact ⟨Fixpoint.dense_guardedLoop, g, a, hg, ha, hedge, htable,
    table_faithful Fixpoint.dense_guardedLoop hg ha⟩

end Region

namespace Op

variable {op : Op} {d d' h l : Nat} {bs bs' : List Block} {k : BlockKind} {succ : Successor}
  {ws : List (Successor × Nat × List Block)}

/-! ## 5. Where blocks come from -/

/-- The handler and the kind of the block that an operation opens. -/
def opens? : Op → Option (Nat × BlockKind)
  | .setupFinally h k _ => some (h, k)
  | .setupWith h => some (h, .withBlock)
  | _ => none

/-- A block that is open after an operation was open before, or the operation opens it. -/
theorem moves_opens (hm : op.moves d bs = some ws) (hw : (succ, d', bs') ∈ ws)
    (hb : .protect h l k ∈ bs') : .protect h l k ∈ bs ∨ op.opens? = some (h, k) := by
  rcases moves_ways hm hw with ⟨rfl, -⟩ | ⟨t, ht, rfl⟩
  · cases op with
    | setupFinally _ _ _ | setupWith _ =>
      rcases List.mem_cons.mp hb with heq | hb
      · cases heq
        exact .inr rfl
      · exact .inl hb
    | popBlock | popExcept => exact .inl (List.mem_of_mem_tail hb)
    | _ => exact .inl hb
  · -- the handler starts inside the blocks around
    obtain ⟨n, l', k', rfl⟩ := moves_handler hm ht
    simp only [List.mem_cons, List.not_mem_nil, Prod.mk.injEq, reduceCtorEq, false_and, true_and,
      false_or, or_false] at hw
    rw [hw.2, List.mem_cons] at hb
    exact .inl (hb.resolve_left Block.noConfusion)

end Op

namespace Analysis

variable {a : Analysis} {ty : Typer} {is : List Instr} {g : FlowGraph} {entry : AbstractState}
  {o h l : Nat} {k : BlockKind}

/-- A block of this handler and kind is open at the entry, or some operation opens one. -/
def Opened (is : List Instr) (entry : AbstractState) (h : Nat) (k : BlockKind) : Prop :=
  (∃ l, .protect h l k ∈ entry.blocks) ∨ ∃ i ∈ is, i.op.opens? = some (h, k)

/-- **Every open block comes from the entry or from an operation.** -/
theorem Solves.opened (hs : a.Solves ty is entry AbstractState.KeepsForm)
    (hentry : entry.dead = false) (hl : (a.state o).dead = false)
    (hb : .protect h l k ∈ (a.state o).blocks) : Opened is entry h k := by
  refine hs.blocks_induction hentry (P := fun bs => ∀ h l k, .protect h l k ∈ bs →
    Opened is entry h k) (fun h l k hb => .inl ⟨l, hb⟩) (fun hi _ ih hm hw h l k hb => ?_)
    (fun ih h l k hb => ?_) hl h l k hb
  · rcases Op.moves_opens hm hw hb with hb | hopens
    · exact ih h l k hb
    · exact .inr ⟨_, List.mem_of_getElem? hi, hopens⟩
  · rcases List.mem_cons.mp hb with heq | hb
    · cases heq
    · exact ih h l k ((AbstractState.outerBlocks_suffix _).mem hb)

/-- An exception leaves a live state for the handler of a block that was opened. -/
theorem opened_of_unwind (hd : Dense is) (hg : FlowGraph.build is = .ok g)
    (ha : Fixpoint.analyze ty is g entry = .ok a) (hl : (a.state o).dead = false) {u : Unwind}
    (hu : (a.state o).unwind? = some u) : Opened is entry u.handler u.kind := by
  have hentry : entry.dead = false := by
    by_contra hdead
    rw [(Fixpoint.analyze_dead hg (Bool.eq_true_of_not_eq_false hdead) ha).2 o] at hl
    cases hl
  have hs := Fixpoint.analyze_solves (AbstractState.ascending_keepsForm ty.model) hd hg hentry ha
  exact hs.opened hentry hl
    ((AbstractState.unwindFrom_eq_some hu).mem (.head _))

end Analysis

namespace Region

variable {a : Analysis} {ty : Typer} {is : List Instr} {g : FlowGraph} {entry : AbstractState}
  {o : Nat} {r : Region}

/-! ## 6. The kind of a region -/

/-- With handlers of both kinds apart, a handler is classified by the kind of its block. -/
theorem classify_inj {code : Array Instr} {h : Nat} {k k' : BlockKind} :
    classify code h k = classify code h k' ↔ k = k' := by
  have hne : classify code h .tryBlock ≠ .with_ := by
    rw [classify]
    split <;> exact RegionKind.noConfusion
  cases k <;> cases k'
  · exact iff_of_true rfl rfl
  · exact iff_of_false hne BlockKind.noConfusion
  · exact iff_of_false hne.symm BlockKind.noConfusion
  · exact iff_of_true rfl rfl

/-- A region has the kind of the block at its first offset. -/
theorem table_kind (hr : r ∈ table is a) :
    (a.state r.start).dead = false ∧ ∃ v, (a.state r.start).unwind? = some v
      ∧ r.handler = v.handler ∧ r.kind = classify is.toArray v.handler v.kind := by
  have hopens := table_opens hr
  unfold ofState? at hopens
  split at hopens
  · cases hopens
  · rename_i hlive
    obtain ⟨v, hv, heq⟩ := Option.map_eq_some_iff.mp hopens
    simp only [Region.mk.injEq] at heq
    exact ⟨Bool.eq_false_iff.mpr hlive, v, hv, heq.2.2.1.symm, heq.2.2.2.2.1.symm⟩

/-- **The kind of the region at a live offset** is that of the block at the first offset of the
region. It is right wherever the handler serves blocks of one kind. -/
theorem region_kind (hd : Dense is) (hg : FlowGraph.build is = .ok g)
    (ha : Fixpoint.analyze ty is g entry = .ok a) (hl : (a.state o).dead = false) {u : Unwind}
    (hu : (a.state o).unwind? = some u) :
    ∃ r v, find? (table is a) o = some r ∧ (a.state r.start).dead = false
      ∧ (a.state r.start).unwind? = some v ∧ v.handler = u.handler
      ∧ (r.kind = classify is.toArray u.handler u.kind ↔ v.kind = u.kind)
      ∧ ((∀ k k', Analysis.Opened is entry u.handler k → Analysis.Opened is entry u.handler k' →
          k = k') → r.kind = classify is.toArray u.handler u.kind) := by
  obtain ⟨r, hr⟩ := Option.isSome_iff_exists.mp
    ((find?_table_isSome is a o).mpr ⟨hl, by rw [hu]; rfl⟩)
  obtain ⟨-, u', hu', hhandler, -⟩ := find?_table_eq_some hr
  rw [hu] at hu'
  cases hu'
  obtain ⟨hmem, -⟩ := (table_apart is a).find?_iff.mp hr
  obtain ⟨hlive, v, hv, hsame, hkind⟩ := table_kind hmem
  have hhandlers : v.handler = u.handler := hsame.symm.trans hhandler
  have hiff : r.kind = classify is.toArray u.handler u.kind ↔ v.kind = u.kind := by
    rw [hkind, hhandlers]
    exact classify_inj
  refine ⟨r, v, hr, hlive, hv, hhandlers, hiff, fun hone => hiff.mpr (hone _ _ ?_ ?_)⟩
  · rw [← hhandlers]
    exact Analysis.opened_of_unwind hd hg ha hlive hv
  · exact Analysis.opened_of_unwind hd hg ha hl hu

theorem region_kind_guardedLoop :
    Dense Fixpoint.guardedLoop ∧ ∃ g a, FlowGraph.build Fixpoint.guardedLoop = .ok g
      ∧ Fixpoint.analyze ⟨TypeModel.empty, [.none], {}⟩ Fixpoint.guardedLoop g (.entry [none] 0)
        = .ok a
      ∧ (a.state 2).dead = false ∧ (a.state 2).unwind? = some ⟨5, 0, .tryBlock, none⟩
      ∧ ∃ r, find? (table Fixpoint.guardedLoop a) 2 = some r
        ∧ r.kind = classify Fixpoint.guardedLoop.toArray 5 .tryBlock := by
  obtain ⟨g, a, hg, ha, hl, hu⟩ : ∃ g a, FlowGraph.build Fixpoint.guardedLoop = .ok g
      ∧ Fixpoint.analyze ⟨TypeModel.empty, [.none], {}⟩ Fixpoint.guardedLoop g (.entry [none] 0)
        = .ok a
      ∧ (a.state 2).dead = false ∧ (a.state 2).unwind? = some ⟨5, 0, .tryBlock, none⟩ :=
    ⟨_, _, rfl, rfl, rfl, rfl⟩
  obtain ⟨r, v, hr, -, -, -, -, hkind⟩ := region_kind Fixpoint.dense_guardedLoop hg ha hl hu
  have hone : ∀ k, Analysis.Opened Fixpoint.guardedLoop (.entry [none] 0) 5 k → k = .tryBlock := by
    rintro k (⟨l, hb⟩ | ⟨i, hi, hopens⟩)
    · cases hb
    · have hnone : ∀ i ∈ Fixpoint.guardedLoop, i.op.opens? ≠ some (5, .withBlock) := by decide
      cases k with
      | tryBlock => rfl
      | withBlock => exact absurd hopens (hnone i hi)
  exact ⟨Fixpoint.dense_guardedLoop, g, a, hg, ha, hl, hu, r, hr, hkind fun k k' hk hk' =>
    (hone k hk).trans (hone k' hk').symm⟩

/-- Two ways to one handler: a `with` statement on one of them, a `try` statement on the other. -/
def sharedHandler : List Instr :=
  ([.loadGlobal "m" 0, .loadGlobal "c" 1, .popJumpIf true 6, .setupWith 9, .popTop, .jump 8,
    .setupFinally 9 .tryBlock 0, .returnValue, .returnValue, .popTop, .popTop, .popTop, .popExcept,
    .returnValue] : List Op).zipIdx.map fun (op, k) => ⟨k, op, none, none, false⟩

/-- **A handler that serves blocks of both kinds** loses one of them: neighbours that go to it are
joined into one region. -/
theorem kind_lost_sharedHandler :
    Dense sharedHandler ∧ ∃ g a, FlowGraph.build sharedHandler = .ok g
      ∧ Fixpoint.analyze ⟨TypeModel.empty, [], {}⟩ sharedHandler g (.entry [] 0) = .ok a
      ∧ (a.state 8).dead = false ∧ (a.state 8).unwind? = some ⟨9, 1, .withBlock, none⟩
      ∧ classify sharedHandler.toArray 9 .withBlock = .with_
      ∧ find? (table sharedHandler a) 8 = some ⟨7, 9, 9, 1, .except, none, none⟩ := by
  have hrun : ((FlowGraph.build sharedHandler).toOption.bind fun g =>
      (Fixpoint.analyze ⟨TypeModel.empty, [], {}⟩ sharedHandler g (.entry [] 0)).toOption).any
      (fun a => decide ((a.state 8).dead = false
        ∧ (a.state 8).unwind? = some ⟨9, 1, .withBlock, none⟩
        ∧ find? (table sharedHandler a) 8 = some ⟨7, 9, 9, 1, .except, none, none⟩)) = true := by
    decide +kernel
  obtain ⟨a, ha, hfound⟩ := (Option.any_eq_true _ _).mp hrun
  obtain ⟨g, hg, ha⟩ := Option.bind_eq_some_iff.mp ha
  obtain ⟨hl, hu, hr⟩ := of_decide_eq_true hfound
  exact ⟨Fixpoint.dense_numbered _, g, a, toOption_eq_some.mp hg, toOption_eq_some.mp ha, hl, hu,
    rfl, hr⟩

end Region

end Stackwise
