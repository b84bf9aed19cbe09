import Mathlib.Data.Finset.Prod
import Stackwise.Analysis.Liveness
import Stackwise.Proofs.Analysis.Edges
import Stackwise.Proofs.Analysis.Visit

/-!
# Live variables

The sets that the search for live variables ends with are a solution: what is live at an offset is
what its operation reads, what the handlers that it may raise into need, and what is needed where
control goes on, except for the variable that it binds.

* `contains_before`, `contains_after`: one instruction, and the end of a block.
* `Closed`, `round_spec`: what rounds keep; a round that changes something adds a variable that is
  read to the set of a block.
* `Settles`, `iterate_settles`: rounds until one changes nothing. There are enough of them.
* `liveIn_settled`, `written_at`: the sets that are written down.
* `Sound`, `liveIn_sound`: the solution.
-/

namespace Stackwise

namespace Liveness

/-- The set with number `k` has the variable `x`. -/
def Has (sets : Array BitSet) (k x : Nat) : Prop := (sets.getD k BitSet.empty).contains x = true

variable {q : Problem} {blockIn blockIn' : Array BitSet} {o b x : Nat} {live live' : BitSet}

/-! ## 1. Instructions and blocks -/

theorem contains_undefined (op : Op) : (match defined? op with
    | some x => live.erase x
    | none => live).contains x = true ↔ live.contains x = true ∧ defined? op ≠ some x := by
  cases defined? op with
  | none => simp
  | some y =>
    rw [BitSet.contains_erase, Bool.and_eq_true, Bool.not_eq_true', decide_eq_false_iff_not,
      and_comm, ne_eq, Option.some.injEq, @eq_comm _ x]

theorem contains_before {i : Instr} (hi : q.code[o]? = some i) :
    (before q blockIn o live).contains x = true ↔ used? i.op = some x
      ∨ (∃ h ∈ q.raises.getD o [], Has blockIn (q.graph.blockAt h) x)
      ∨ (live.contains x = true ∧ defined? i.op ≠ some x) := by
  unfold before
  rw [hi]
  dsimp only
  have hrest := (BitSet.contains_foldl_union (s := match defined? i.op with
      | some x => live.erase x
      | none => live) (q.raises.getD o [])
      (f := fun h => blockIn.getD (q.graph.blockAt h) BitSet.empty) (i := x)).trans
    (or_congr_left (contains_undefined i.op))
  cases used? i.op with
  | none =>
    refine hrest.trans ?_
    simp only [reduceCtorEq, false_or]
    exact or_comm
  | some y =>
    rw [BitSet.contains_insert, Bool.or_eq_true, decide_eq_true_iff, Option.some.injEq,
      @eq_comm _ x]
    exact or_congr_right (hrest.trans or_comm)

theorem contains_after : (after q blockIn b).contains x = true
    ↔ ∃ e ∈ (q.graph.block b).successors, e.2 ≠ .exception ∧ Has blockIn e.1 x := by
  have hfold : ∀ (es : List (Nat × EdgeKind)) (s : BitSet),
      (es.foldl (fun live e => if e.2 = .exception then live
        else live.union (blockIn.getD e.1 BitSet.empty)) s).contains x = true
        ↔ s.contains x = true ∨ ∃ e ∈ es, e.2 ≠ .exception ∧ Has blockIn e.1 x := by
    intro es
    induction es with
    | nil => simp
    | cons e es ih =>
      intro s
      rw [List.foldl_cons, ih]
      simp only [List.mem_cons, exists_eq_or_imp]
      split
      · rename_i hkind
        simp only [hkind, ne_eq, not_true_eq_false, false_and, false_or]
      · rename_i hkind
        rw [BitSet.contains_union, Bool.or_eq_true, or_assoc]
        simp only [ne_eq, hkind, not_false_eq_true, true_and, Has]
  rw [after, hfold, BitSet.contains_withCapacity]
  simp

/-- The sets of `blockIn` are among those of `blockIn'`. -/
def Below (blockIn blockIn' : Array BitSet) : Prop := ∀ b x, Has blockIn b x → Has blockIn' b x

theorem before_mono (hle : Below blockIn blockIn')
    (hlive : ∀ x, live.contains x = true → live'.contains x = true) (x : Nat)
    (h : (before q blockIn o live).contains x = true) :
    (before q blockIn' o live').contains x = true := by
  cases hi : q.code[o]? with
  | none =>
    rw [before, hi] at h ⊢
    exact hlive x h
  | some i =>
    rw [contains_before hi] at h ⊢
    rcases h with h | ⟨t, ht, h⟩ | ⟨h, hd⟩
    · exact .inl h
    · exact .inr (.inl ⟨t, ht, hle _ _ h⟩)
    · exact .inr (.inr ⟨hlive x h, hd⟩)

theorem atEntry_mono (hle : Below blockIn blockIn') (x : Nat)
    (h : (atEntry q blockIn b).contains x = true) : (atEntry q blockIn' b).contains x = true := by
  unfold atEntry at h ⊢
  generalize (q.graph.block b).offsets = os at h ⊢
  induction os generalizing x with
  | nil =>
    obtain ⟨e, he, hkind, h⟩ := contains_after.mp h
    exact contains_after.mpr ⟨e, he, hkind, hle _ _ h⟩
  | cons o os ih => exact before_mono hle ih x h

/-- The variables of the sets satisfy `P`. -/
def Within (P : Nat → Nat → Prop) (blockIn : Array BitSet) : Prop :=
  ∀ b x, Has blockIn b x → P b x

/-- What is live at the entries of the blocks satisfies `P` again. -/
def Closed (q : Problem) (P : Nat → Nat → Prop) : Prop :=
  ∀ blockIn, Within P blockIn → ∀ b x, (atEntry q blockIn b).contains x = true → P b x

/-- The variables that are read somewhere. -/
def reads (q : Problem) : List Nat := q.code.toList.filterMap fun i => used? i.op

/-- The sets hold only variables that are read. -/
def Bounded (q : Problem) : Array BitSet → Prop := Within fun _ x => x ∈ reads q

theorem closed_reads (q : Problem) : Closed q fun _ x => x ∈ reads q := by
  intro blockIn hb b x h
  unfold atEntry at h
  generalize (q.graph.block b).offsets = os at h
  induction os with
  | nil =>
    obtain ⟨e, -, -, h⟩ := contains_after.mp h
    exact hb _ _ h
  | cons o os ih =>
    rw [List.foldr_cons] at h
    cases hi : q.code[o]? with
    | none =>
      rw [before, hi] at h
      exact ih h
    | some i =>
      rcases (contains_before hi).mp h with h | ⟨t, -, h⟩ | ⟨h, -⟩
      · refine List.mem_filterMap.mpr ⟨i, ?_, h⟩
        exact Array.mem_toList_iff.mpr (Array.mem_of_getElem? hi)
      · exact hb _ _ h
      · exact ih h

/-! ## 2. Rounds -/

/-- What a round over the blocks `bs` leaves. -/
structure Round (q : Problem) (bs : List Nat) (changed : Bool) (blockIn : Array BitSet)
    (r : Bool × Array BitSet) : Prop where
  size : r.2.size = blockIn.size
  below : Below blockIn r.2
  within : ∀ P, Closed q P → Within P blockIn → Within P r.2
  /-- A round that changes nothing finds every set as it should be. -/
  still : r.1 = false → changed = false ∧ Below r.2 blockIn
    ∧ ∀ b ∈ bs, ∀ x, (atEntry q blockIn b).contains x = true → Has blockIn b x
  /-- Any other adds a variable to the set of a block. -/
  grows : r.1 = true → changed = true ∨ ∃ b < q.graph.size, ∃ x, Has r.2 b x ∧ ¬ Has blockIn b x

theorem atEntry_of_le (hb : q.graph.size ≤ b) (x : Nat) :
    (atEntry q blockIn b).contains x = false := by
  rw [atEntry, after, FlowGraph.block_of_le hb]
  exact BitSet.contains_withCapacity x q.locals

theorem round_spec (hsize : blockIn.size = q.graph.size) (bs : List Nat) (changed : Bool) :
    Round q bs changed blockIn (round q bs (changed, blockIn)) := by
  induction bs generalizing changed blockIn with
  | nil =>
    exact ⟨rfl, fun _ _ h => h, fun _ _ h => h, fun h => ⟨h, fun _ _ h => h, by simp⟩, .inl⟩
  | cons b bs ih =>
    rw [round]
    have hset : ∀ c x, Has (blockIn.setIfInBounds b
        ((blockIn.getD b BitSet.empty).union (atEntry q blockIn b))) c x
        ↔ Has blockIn c x ∨ (c = b ∧ b < q.graph.size ∧ (atEntry q blockIn b).contains x = true) := by
      intro c x
      rw [Has, Fixpoint.getD_setIfInBounds, hsize]
      split
      · rename_i h
        obtain ⟨rfl, hlt⟩ := h
        rw [BitSet.contains_union, Bool.or_eq_true]
        simp only [Has, hlt, true_and]
      · rename_i h
        refine ⟨.inl, fun h' => h'.resolve_right fun ⟨hc, hlt, _⟩ => h ?_⟩
        exact ⟨hc.symm, hlt⟩
    have hsize₁ : (blockIn.setIfInBounds b ((blockIn.getD b BitSet.empty).union
        (atEntry q blockIn b))).size = blockIn.size := Array.size_setIfInBounds
    generalize blockIn.setIfInBounds b
      ((blockIn.getD b BitSet.empty).union (atEntry q blockIn b)) = blockIn₁ at hset hsize₁ ⊢
    have hle : Below blockIn blockIn₁ := fun c x h => (hset c x).mpr (.inl h)
    have hrest := ih (hsize₁.trans hsize)
      (changed || (blockIn.getD b BitSet.empty).growsBy (atEntry q blockIn b))
    refine ⟨hrest.size.trans hsize₁, fun c x h => hrest.below c x (hle c x h), fun P hP hwithin =>
      hrest.within P hP fun c x h => ?_, fun hfalse => ?_, fun htrue => ?_⟩
    · rcases (hset c x).mp h with h | ⟨rfl, -, h⟩
      · exact hwithin c x h
      · exact hP blockIn hwithin c x h
    · obtain ⟨hflag, hback, hall⟩ := hrest.still hfalse
      rw [Bool.or_eq_false_iff] at hflag
      have hback₁ : Below blockIn₁ blockIn := by
        intro c x h
        rcases (hset c x).mp h with h | ⟨rfl, -, h⟩
        · exact h
        · exact BitSet.contains_of_growsBy_eq_false hflag.2 h
      refine ⟨hflag.1, fun c x h => hback₁ c x (hback c x h), fun c hc x h => ?_⟩
      rcases List.mem_cons.mp hc with rfl | hc
      · exact BitSet.contains_of_growsBy_eq_false hflag.2 h
      · exact hback₁ c x (hall c hc x (atEntry_mono hle x h))
    · rcases hrest.grows htrue with hflag | ⟨c, hc, x, hnew, hold⟩
      · rcases Bool.or_eq_true_iff.mp hflag with hflag | hgrows
        · exact .inl hflag
        · obtain ⟨x, hx, hold⟩ := BitSet.exists_of_growsBy hgrows
          have hb : b < q.graph.size := by
            by_contra hb
            rw [atEntry_of_le (Nat.not_lt.mp hb)] at hx
            cases hx
          refine .inr ⟨b, hb, x, hrest.below b x ((hset b x).mpr (.inr ⟨rfl, hb, hx⟩)), ?_⟩
          exact fun h => Bool.false_ne_true (hold.symm.trans h)
      · exact .inr ⟨c, hc, x, hnew, fun h => hold (hle c x h)⟩

/-- The blocks, each with the variables of its set. -/
def filled (q : Problem) (blockIn : Array BitSet) : Finset (Nat × Nat) :=
  (Finset.range q.graph.size ×ˢ (reads q).toFinset).filter fun p =>
    (blockIn.getD p.1 BitSet.empty).contains p.2 = true

theorem card_filled_le (q : Problem) (blockIn : Array BitSet) :
    (filled q blockIn).card ≤ q.graph.size * (reads q).length := by
  refine (Finset.card_filter_le _ _).trans ?_
  rw [Finset.card_product, Finset.card_range]
  exact Nat.mul_le_mul_left _ (List.toFinset_card_le _)

theorem card_filled_lt (hle : Below blockIn blockIn') (hbound : Bounded q blockIn')
    (hb : b < q.graph.size) (hnew : Has blockIn' b x) (hold : ¬ Has blockIn b x) :
    (filled q blockIn).card < (filled q blockIn').card := by
  refine Finset.card_lt_card (Finset.ssubset_iff_of_subset ?_ |>.mpr ⟨(b, x), ?_, ?_⟩)
  · exact Finset.monotone_filter_right _ fun p _ h => hle p.1 p.2 h
  · refine Finset.mem_filter.mpr ⟨Finset.mem_product.mpr ⟨Finset.mem_range.mpr hb, ?_⟩, hnew⟩
    exact List.mem_toFinset.mpr (hbound b x hnew)
  · exact fun h => hold (Finset.mem_filter.mp h).2

/-- Every listed block has what is live at its entry. -/
def Stable (q : Problem) (order : List Nat) (blockIn : Array BitSet) : Prop :=
  ∀ b ∈ order, ∀ x, (atEntry q blockIn b).contains x = true → Has blockIn b x

/-- Rounds over the blocks of an order until one changes nothing. -/
inductive Settles (q : Problem) (order : List Nat) : Array BitSet → Array BitSet → Prop
  | still {sets sets' : Array BitSet} (h : round q order (false, sets) = (false, sets')) :
    Settles q order sets sets'
  | again {sets sets₁ sets' : Array BitSet} (h : round q order (false, sets) = (true, sets₁))
    (rest : Settles q order sets₁ sets') : Settles q order sets sets'

/-- **The rounds end.** Each round but the last fills more, and no more can be filled than every
block with every variable that is read. -/
theorem iterate_settles {order : List Nat} {fuel : Nat} (hsize : blockIn.size = q.graph.size)
    (hbound : Bounded q blockIn)
    (hfuel : q.graph.size * (reads q).length < fuel + (filled q blockIn).card) :
    Settles q order blockIn (iterate q order fuel blockIn) := by
  induction fuel generalizing blockIn with
  | zero =>
    have := card_filled_le q blockIn
    omega
  | succ fuel ih =>
    have hround := round_spec hsize order false
    rw [iterate]
    split
    · rename_i blockIn' hres
      rw [hres] at hround
      obtain ⟨b, hb, x, hnew, hold⟩ := (hround.grows rfl).resolve_left Bool.false_ne_true
      have hbound' : Bounded q blockIn' := hround.within _ (closed_reads q) hbound
      have hlt : (filled q blockIn).card < (filled q blockIn').card :=
        card_filled_lt hround.below hbound' hb hnew hold
      exact .again hres (ih (hround.size.trans hsize) hbound' (by omega))
    · rename_i blockIn' hres
      exact .still hres

/-- What every round keeps holds of the sets that the rounds end with. -/
theorem Settles.within {order : List Nat} {P : Nat → Nat → Prop} (hP : Closed q P)
    (h : Settles q order blockIn blockIn') (hsize : blockIn.size = q.graph.size)
    (hwithin : Within P blockIn) : Within P blockIn' := by
  induction h with
  | @still blockIn blockIn' hres =>
    have hround := round_spec hsize order false
    rw [hres] at hround
    exact hround.within P hP hwithin
  | @again blockIn blockIn₁ blockIn' hres _ ih =>
    have hround := round_spec hsize order false
    rw [hres] at hround
    exact ih (hround.size.trans hsize) (hround.within P hP hwithin)

/-- **The rounds end with stable sets.** -/
theorem Settles.stable {order : List Nat} (h : Settles q order blockIn blockIn')
    (hsize : blockIn.size = q.graph.size) : Stable q order blockIn' := by
  induction h with
  | @still blockIn blockIn' hres =>
    have hround := round_spec hsize order false
    rw [hres] at hround
    obtain ⟨-, hback, hall⟩ := hround.still rfl
    exact fun b hb x h => hround.below b x (hall b hb x (atEntry_mono hback x h))
  | @again blockIn blockIn₁ blockIn' hres _ ih =>
    have hround := round_spec hsize order false
    rw [hres] at hround
    exact ih (hround.size.trans hsize)

/-! ## 3. What is written down -/

/-- What is live before the offset `o`, when its block ends before `stop`. -/
def liveFrom (q : Problem) (blockIn : Array BitSet) (b o stop : Nat) : BitSet :=
  (List.range' o (stop - o)).foldr (before q blockIn) (after q blockIn b)

theorem liveFrom_step {stop : Nat} (h : o < stop) : liveFrom q blockIn b o stop
    = before q blockIn o (liveFrom q blockIn b (o + 1) stop) := by
  obtain ⟨k, rfl⟩ : ∃ k, stop = o + (k + 1) := ⟨stop - o - 1, by omega⟩
  rw [liveFrom, liveFrom, Nat.add_sub_cancel_left, List.range'_succ, List.foldr_cons,
    show o + (k + 1) - (o + 1) = k by omega]

theorem liveFrom_end {stop : Nat} (h : stop ≤ o) :
    liveFrom q blockIn b o stop = after q blockIn b := by
  rw [liveFrom, Nat.sub_eq_zero_of_le h]
  rfl

theorem atEntry_eq (q : Problem) (blockIn : Array BitSet) (b : Nat) : atEntry q blockIn b
    = liveFrom q blockIn b (q.graph.block b).start (q.graph.block b).stop := by
  rw [atEntry, BasicBlock.offsets_eq, liveFrom]

/-- The sets of a run of offsets are written at these offsets, and nowhere else. -/
theorem record_run (q : Problem) (blockIn : Array BitSet) (b : Nat) (out : Array BitSet)
    {start stop : Nat} (h : start ≤ stop) :
    let r := (List.range' start (stop - start)).foldr (fun offset (out, live) =>
      (out.setIfInBounds offset (before q blockIn offset live), before q blockIn offset live))
      (out, after q blockIn b)
    r.2 = liveFrom q blockIn b start stop ∧ r.1.size = out.size
      ∧ ∀ o < out.size, r.1.getD o BitSet.empty
        = if start ≤ o ∧ o < stop then liveFrom q blockIn b o stop else out.getD o BitSet.empty := by
  obtain ⟨k, rfl⟩ := Nat.exists_eq_add_of_le h
  rw [Nat.add_sub_cancel_left]
  clear h
  induction k generalizing start with
  | zero =>
    refine ⟨(liveFrom_end (Nat.le_refl _)).symm, rfl, fun o _ => ?_⟩
    rw [if_neg (by omega)]
    rfl
  | succ k ih =>
    rw [List.range'_succ, List.foldr_cons]
    obtain ⟨hlive, hsize, hout⟩ := @ih (start + 1)
    rw [show start + 1 + k = start + (k + 1) by omega] at hlive hout
    dsimp only at hlive hsize hout ⊢
    rw [hlive, ← liveFrom_step (by omega)]
    refine ⟨rfl, Array.size_setIfInBounds.trans hsize, fun o ho => ?_⟩
    rw [Fixpoint.getD_setIfInBounds, hout o ho, hsize]
    by_cases hs : start = o
    · subst hs
      rw [if_pos ⟨rfl, ho⟩, if_pos (by omega)]
    · rw [if_neg fun h => hs h.1]
      by_cases hin : start + 1 ≤ o ∧ o < start + (k + 1)
      · rw [if_pos hin, if_pos (by omega)]
      · rw [if_neg hin, if_neg (by omega)]

theorem record_spec {n : Nat} (hq : q.graph.Partitions n) (blockIn out : Array BitSet) (b : Nat) :
    (record q blockIn out b).size = out.size
      ∧ ∀ o < out.size, (record q blockIn out b).getD o BitSet.empty
        = if (q.graph.block b).start ≤ o ∧ o < (q.graph.block b).stop then
            liveFrom q blockIn b o (q.graph.block b).stop
          else out.getD o BitSet.empty := by
  have hle : (q.graph.block b).start ≤ (q.graph.block b).stop := by
    by_cases hb : b < q.graph.size
    · exact Nat.le_of_lt (hq.bounds b hb).1
    · rw [FlowGraph.block_of_le (Nat.not_lt.mp hb)]
      exact Nat.le_refl _
  have hrun := record_run q blockIn b out hle
  rw [← BasicBlock.offsets_eq] at hrun
  exact hrun.2

theorem size_recorded {n : Nat} (hq : q.graph.Partitions n) (blockIn : Array BitSet)
    (order : List Nat) (out : Array BitSet) :
    (order.foldl (record q blockIn) out).size = out.size := by
  induction order generalizing out with
  | nil => rfl
  | cons b order ih => rw [List.foldl_cons, ih, (record_spec hq blockIn out b).1]

/-- **What is written down** at an offset of a listed block. -/
theorem recorded {n : Nat} (hq : q.graph.Partitions n) (blockIn : Array BitSet) {order : List Nat}
    {out : Array BitSet} (hsize : out.size = n) (ho : o < n) (hmem : q.graph.blockAt o ∈ order) :
    (order.foldl (record q blockIn) out).getD o BitSet.empty
      = liveFrom q blockIn (q.graph.blockAt o) o (q.graph.block (q.graph.blockAt o)).stop := by
  have hin := hq.holds o ho
  -- once it is written, the other blocks leave it alone
  have hkeep : ∀ (order : List Nat) (out : Array BitSet), out.size = n →
      out.getD o BitSet.empty
        = liveFrom q blockIn (q.graph.blockAt o) o (q.graph.block (q.graph.blockAt o)).stop →
      (order.foldl (record q blockIn) out).getD o BitSet.empty
        = liveFrom q blockIn (q.graph.blockAt o) o (q.graph.block (q.graph.blockAt o)).stop := by
    intro order
    induction order with
    | nil => exact fun _ _ h => h
    | cons b order ih =>
      intro out hsize h
      obtain ⟨hsize', hout⟩ := record_spec hq blockIn out b
      refine ih _ (hsize'.trans hsize) ?_
      rw [hout o (hsize ▸ ho)]
      split
      · rename_i hb
        have hlt : b < q.graph.size := by
          by_contra hlt
          rw [FlowGraph.block_of_le (Nat.not_lt.mp hlt)] at hb
          exact Nat.not_lt_zero o hb.2
        rw [hq.unique b hlt o hb.1 hb.2]
      · exact h
  induction order generalizing out with
  | nil => cases hmem
  | cons b order ih =>
    obtain ⟨hsize', hout⟩ := record_spec hq blockIn out b
    rw [List.foldl_cons]
    by_cases hb : q.graph.blockAt o = b
    · refine hkeep order _ (hsize'.trans hsize) ?_
      rw [hout o (hsize ▸ ho), ← hb, if_pos hin]
    · exact ih (hsize'.trans hsize) ((List.mem_cons.mp hmem).resolve_left hb)

/-! ## 4. The solution -/

/-- The sets have what the operations read, what the handlers need that they may raise into, and
what is needed where control goes, unless they bind it. -/
structure Sound (is : List Instr) (g : FlowGraph) (edges : List (Nat × Nat))
    (sets : Array BitSet) : Prop where
  used : ∀ {o i x}, is[o]? = some i → g.blockAt o ∈ g.order → used? i.op = some x → Has sets o x
  raised : ∀ {o h x}, (o, h) ∈ edges → g.blockAt o ∈ g.order → Has sets h x → Has sets o x
  goesTo : ∀ {o t i x}, is[o]? = some i → g.blockAt o ∈ g.order → i.op.GoesTo o t →
    Has sets t x → defined? i.op ≠ some x → Has sets o x

theorem mem_raises {is : List Instr} {g : FlowGraph} {edges : List (Nat × Nat)} {locals h : Nat}
    (ho : o < is.length) :
    h ∈ (Problem.of is g edges locals).raises.getD o [] ↔ (o, h) ∈ edges := by
  have hfold : ∀ (edges : List (Nat × Nat)) (r : Array (List Nat)), o < r.size →
      (h ∈ (edges.foldl (fun r e => r.modify e.1 (· ++ [e.2])) r).getD o []
        ↔ h ∈ r.getD o [] ∨ (o, h) ∈ edges) := by
    intro edges
    induction edges with
    | nil => simp
    | cons e edges ih =>
      intro r hr
      rw [List.foldl_cons, ih _ (by rw [Array.size_modify]; exact hr), List.mem_cons, ← or_assoc]
      refine or_congr_left ?_
      simp only [Array.getD_eq_getD_getElem?, Array.getElem?_modify, Array.getElem?_eq_getElem hr]
      split
      · rename_i heq
        simp only [Option.map_some, Option.getD_some, List.mem_append, List.mem_singleton,
          Prod.ext_iff, ← heq, true_and]
      · rename_i hne
        simp only [Option.getD_some, Prod.ext_iff, @eq_comm _ o, hne, false_and, or_false]
  rw [Problem.of, hfold edges _ (by rw [Array.size_replicate]; exact ho)]
  simp [Array.getD_eq_getD_getElem?, ho]

section LiveIn

variable {is : List Instr} {g : FlowGraph} {edges : List (Nat × Nat)} {locals : Nat}

/-- The sets before the first round. -/
def atStart (g : FlowGraph) (locals : Nat) : Array BitSet :=
  Array.replicate g.size (BitSet.withCapacity locals)

theorem not_has_atStart : ¬ Has (atStart g locals) b x := by
  intro h
  rw [Has, atStart, Array.getD_eq_getD_getElem?, Array.getElem?_replicate] at h
  split at h
  · rw [Option.getD_some, BitSet.contains_withCapacity] at h
    cases h
  · rw [Option.getD_none, BitSet.contains_empty] at h
    cases h

/-- The rounds over the blocks of the graph, the last one first, end with these sets. -/
def Settled (is : List Instr) (g : FlowGraph) (edges : List (Nat × Nat)) (locals : Nat) :
    Array BitSet → Prop :=
  Settles (Problem.of is g edges locals) g.order.reverse (atStart g locals)

/-- What is written down of the sets of the blocks. -/
def written (is : List Instr) (g : FlowGraph) (edges : List (Nat × Nat)) (locals : Nat)
    (blockIn : Array BitSet) : Array BitSet :=
  g.order.reverse.foldl (record (Problem.of is g edges locals) blockIn)
    (Array.replicate is.length BitSet.empty)

/-- **The search ends**, and what it writes down is what the rounds end with. -/
theorem liveIn_settled (is : List Instr) (g : FlowGraph) (edges : List (Nat × Nat))
    (locals : Nat) : ∃ blockIn, Settled is g edges locals blockIn
      ∧ liveIn is g edges locals = written is g edges locals blockIn := by
  refine ⟨_, iterate_settles ?_ (fun b x h => absurd h not_has_atStart) ?_, rfl⟩
  · rw [atStart, Array.size_replicate, Problem.of]
  · rw [roundBound, reads]
    omega

/-- The set that is written down at an offset of a listed block. -/
theorem written_at (hp : g.Partitions is.length) {blockIn : Array BitSet} (ho : o < is.length)
    (hmem : g.blockAt o ∈ g.order) :
    (written is g edges locals blockIn).getD o BitSet.empty
      = liveFrom (Problem.of is g edges locals) blockIn (g.blockAt o) o
        (g.block (g.blockAt o)).stop :=
  recorded (q := Problem.of is g edges locals) hp blockIn Array.size_replicate ho
    (List.mem_reverse.mpr hmem)

end LiveIn

/-- **Stable sets, written down, are a solution.** -/
theorem written_sound {is : List Instr} {g : FlowGraph} {edges : List (Nat × Nat)} {locals : Nat}
    (hg : g.Links is edges) (hd : Dense is)
    (hedges : ∀ o h, (o, h) ∈ edges → o < is.length ∧ h < is.length ∧ g.isLeader h = true)
    (hstable : Stable (Problem.of is g edges locals) g.order.reverse blockIn) :
    Sound is g edges (written is g edges locals blockIn) := by
  have hat : ∀ {o}, o < is.length → g.blockAt o ∈ g.order →
      (written is g edges locals blockIn).getD o BitSet.empty
        = liveFrom (Problem.of is g edges locals) blockIn (g.blockAt o) o
          (g.block (g.blockAt o)).stop := written_at hg.partitions
  have hsize : (written is g edges locals blockIn).size = is.length :=
    (size_recorded (q := Problem.of is g edges locals) hg.partitions _ _ _).trans
      Array.size_replicate
  generalize written is g edges locals blockIn = sets at hat hsize ⊢
  obtain ⟨q, hq⟩ : ∃ q, q = Problem.of is g edges locals := ⟨_, rfl⟩
  have hgraph : q.graph = g := by rw [hq, Problem.of]
  have hcode : ∀ o, q.code[o]? = is[o]? := fun o => by rw [hq, Problem.of, List.getElem?_toArray]
  rw [← hq] at hat hstable
  have hlt : ∀ {o i}, is[o]? = some i → o < is.length :=
    fun hi => (List.getElem?_eq_some_iff.mp hi).1
  -- the set of an offset, from the set after its instruction
  have hstep : ∀ {o}, o < is.length → g.blockAt o ∈ g.order →
      sets.getD o BitSet.empty = before q blockIn o
        (liveFrom q blockIn (g.blockAt o) (o + 1) (g.block (g.blockAt o)).stop) := by
    intro o ho hmem
    rw [hat ho hmem, liveFrom_step (hg.partitions.holds o ho).2]
  have hstart : ∀ {t x}, t < is.length → g.blockAt t ∈ g.order →
      (g.block (g.blockAt t)).start = t → Has sets t x → Has blockIn (g.blockAt t) x := by
    intro t x ht hmem hs h
    refine hstable _ (List.mem_reverse.mpr hmem) x ?_
    rw [Has, hat ht hmem] at h
    rw [atEntry_eq, hgraph, hs]
    exact h
  refine ⟨fun hi hmem hused => ?_, fun {o h x} hedge hmem hh => ?_,
    fun {o t i x} hi hmem hgo hx hdef => ?_⟩
  · rw [Has, hstep (hlt hi) hmem, contains_before ((hcode _).trans hi)]
    exact .inl hused
  · obtain ⟨ho, hlt', hleader⟩ := hedges o h hedge
    have hmem' := hg.closed _ hmem _ (hg.raised o h hedge)
    obtain ⟨i, hi⟩ : ∃ i, is[o]? = some i := ⟨_, List.getElem?_eq_getElem ho⟩
    rw [Has, hstep ho hmem, contains_before ((hcode _).trans hi)]
    refine .inr (.inl ⟨h, ?_, ?_⟩)
    · rw [hq]
      exact (mem_raises ho).mpr hedge
    · rw [hgraph]
      exact hstart hlt' hmem' (FlowGraph.isLeader_iff.mp hleader) hh
  · rw [Has, hstep (hlt hi) hmem, contains_before ((hcode _).trans hi)]
    refine .inr (.inr ⟨?_, hdef⟩)
    have ht : t < is.length := by
      by_contra ht
      rw [Has, Array.getD_eq_getD_getElem?, Array.getElem?_eq_none (by omega), Option.getD_none,
        BitSet.contains_empty] at hx
      cases hx
    rcases hg.goesTo hd hi hgo ht with ⟨rfl, hsame⟩ | ⟨hlast, hs, kind, hkind, he⟩
    · rw [Has, hat ht (hsame ▸ hmem), hsame] at hx
      exact hx
    · have hin := (hg.partitions.holds o (hlt hi)).2
      rw [BasicBlock.last] at hlast
      rw [liveFrom_end (by omega), contains_after, hgraph]
      exact ⟨_, he, hkind, hstart ht (hg.closed _ hmem _ he) hs hx⟩

/-- **The search for live variables solves its problem.** -/
theorem liveIn_sound {is : List Instr} {g : FlowGraph} {edges : List (Nat × Nat)} (locals : Nat)
    (hg : g.Links is edges) (hd : Dense is)
    (hedges : ∀ o h, (o, h) ∈ edges → o < is.length ∧ h < is.length ∧ g.isLeader h = true) :
    Sound is g edges (liveIn is g edges locals) := by
  obtain ⟨blockIn, hsettled, hwritten⟩ := liveIn_settled is g edges locals
  rw [hwritten]
  exact written_sound hg hd hedges (Settles.stable hsettled Array.size_replicate)

end Liveness

end Stackwise
