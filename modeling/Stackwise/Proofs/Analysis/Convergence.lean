import Mathlib.Algebra.BigOperators.Group.Finset.Basic
import Mathlib.Algebra.Order.BigOperators.Group.List
import Mathlib.Algebra.Order.Group.Nat
import Stackwise.Proofs.Analysis.PostFixpoint
import Stackwise.Proofs.Types.Hierarchy

/-!
# The iteration ends

A block is visited again only after its entry state rose, and an entry state rises only so often:
each rise lowers its rank.

* `AbstractState.rank`: how often a state can still rise; `AbstractState.rank_lt`: a proper rise
  lowers it.
* `Move`: what a visit does to the blocks, one join after the other; `Move.inv` says what one join
  can do, `visit_moves` that a visit does nothing else.
* `Progress.sleeping`, `Progress.energy`: the two parts of the measure. A block that wakes up lowers
  the first, whatever rank it brings along; every other rise pays for its place in the worklist.
* `exists_halted`: visits come to an end; `analyze_converges`: a large bound changes nothing.
-/

namespace Stackwise

/-! ## 1. Ranks -/

namespace TypeModel

/-- How far a type lies below the universal one; unknown types lie one step below it. -/
def height (m : TypeModel) (t : TypeId) : Nat :=
  if t = TypeId.object then 0 else max 1 (m.depth t)

theorem height_lt {m : TypeModel} (hm : m.Built) {a b : TypeId} (hab : m.isSubtype a b = true)
    (hne : a ≠ b) : m.height b < m.height a := by
  have ha : a ≠ TypeId.object := by
    rintro rfl
    exact hne (isSubtype_antisymm hm hab (isSubtype_iff.mpr (.inr (.inl rfl))))
  rw [height, height, if_neg ha]
  split
  · omega
  · rename_i hb
    have hroot := hm.rooted
    have hmem : b ∈ m.order a := by
      rcases isSubtype_iff.mp hab with h | h | h
      · exact absurd h hne
      · exact absurd h hb
      · exact h
    have hknown : a.raw < m.size := by
      by_contra hge
      rw [order, get?, Array.getElem?_eq_none (Nat.not_lt.mp hge)] at hmem
      exact hb (List.mem_singleton.mp hmem)
    have hinh := (hroot.mem_order hknown).mp hmem
    have hlt : m.depth b < m.depth a := (hroot.depth_of_inherits hinh).resolve_left hne
    have hb_known : b.raw < m.size := Nat.lt_of_le_of_lt (hm.descends hmem) hknown
    have hpos := (hroot.depth_of_inherits (hroot.inherits_object hb_known)).resolve_left hb
    omega

theorem height_le_of_isSubtype {m : TypeModel} (hm : m.Built) {a b : TypeId}
    (hab : m.isSubtype a b = true) : m.height b ≤ m.height a := by
  by_cases hne : a = b
  · rw [hne]
  · exact Nat.le_of_lt (height_lt hm hab hne)

theorem height_le (m : TypeModel) (t : TypeId) : m.height t ≤ max 1 m.maxDepth := by
  have := m.depth_le_maxDepth t
  unfold height
  split <;> omega

end TypeModel

namespace Slot

/-- How often a slot can still rise. -/
def rank (m : TypeModel) : Slot → Nat
  | .value t => m.height t
  | v => m.height v.runtimeType + 1

theorem rank_le (m : TypeModel) (v : Slot) : v.rank m ≤ max 1 m.maxDepth + 1 := by
  have hle := m.height_le v.runtimeType
  cases v with
  | value t => exact Nat.le_succ_of_le hle
  | _ => exact Nat.succ_le_succ hle

theorem rank_lt {m : TypeModel} (hm : m.Built) {a b : Slot} (hab : Within m a b) (hne : a ≠ b) :
    b.rank m < a.rank m := by
  obtain ⟨t, rfl, ht⟩ := (within_iff.mp hab).resolve_left hne
  cases a with
  | value u => exact TypeModel.height_lt hm ht fun h => hne (congrArg Slot.value h)
  | _ => exact Nat.lt_succ_of_le (TypeModel.height_le_of_isSubtype hm ht)

/-- How often a variable can still rise; one that may be unbound cannot. -/
def varRank (m : TypeModel) : Option Slot → Nat
  | none => 0
  | some v => v.rank m + 1

theorem varRank_le (m : TypeModel) (v : Option Slot) : varRank m v ≤ max 1 m.maxDepth + 2 := by
  cases v with
  | none => exact Nat.zero_le _
  | some v => exact Nat.succ_le_succ (rank_le m v)

theorem varRank_lt {m : TypeModel} (hm : m.Built) {a b : Option Slot} (hab : VarWithin m a b)
    (hne : a ≠ b) : varRank m b < varRank m a := by
  cases a with
  | none =>
    cases b with
    | none => exact absurd rfl hne
    | some b => exact absurd hab not_varWithin_none_some
  | some a =>
    cases b with
    | none => exact Nat.succ_pos _
    | some b =>
      have hlt := rank_lt hm (varWithin_some.mp hab) fun h => hne (congrArg some h)
      exact Nat.succ_lt_succ hlt

end Slot

section Sums

variable {α : Type} {R : α → α → Prop} {f : α → Nat} {as bs : List α}

/-- Where entries only rise and a rise lowers the rank, the sum of the ranks tells lists apart. -/
theorem sum_lt_of_forall₂ (hf : ∀ a b, R a b → a ≠ b → f b < f a) (h : List.Forall₂ R as bs) :
    (bs.map f).sum ≤ (as.map f).sum ∧ (as ≠ bs → (bs.map f).sum < (as.map f).sum) := by
  induction h with
  | nil => exact ⟨Nat.le_refl _, fun h => absurd rfl h⟩
  | @cons a b as bs hab _ ih =>
    simp only [List.map_cons, List.sum_cons]
    by_cases heq : a = b
    · subst heq
      refine ⟨Nat.add_le_add_left ih.1 _, fun hne => Nat.add_lt_add_left (ih.2 fun h => ?_) _⟩
      exact hne (congrArg _ h)
    · have hlt := hf a b hab heq
      exact ⟨by omega, fun _ => by omega⟩

theorem sum_map_le {k : Nat} (hf : ∀ a, f a ≤ k) (as : List α) :
    (as.map f).sum ≤ as.length * k := by
  have h := List.sum_le_card_nsmul (as.map f) k fun x hx => by
    obtain ⟨a, -, rfl⟩ := List.mem_map.mp hx
    exact hf a
  rwa [List.length_map] at h

end Sums

namespace AbstractState

/-- How often a state can still rise. -/
def rank (m : TypeModel) (s : AbstractState) : Nat :=
  (s.stack.map (Slot.rank m)).sum + (s.locals.map (Slot.varRank m)).sum
    + (s.cells.map (Slot.varRank m)).sum + s.keywords.toList.length

/-- **A proper rise lowers the rank.** -/
theorem rank_lt {m : TypeModel} (hm : m.Built) {a b : AbstractState} (ha : a.dead = false)
    (hab : Within m a b) (hne : a ≠ b) : b.rank m < a.rank m := by
  obtain ⟨hs, hs'⟩ := sum_lt_of_forall₂ (fun _ _ => Slot.rank_lt hm) hab.stack
  obtain ⟨hl, hl'⟩ := sum_lt_of_forall₂ (fun _ _ => Slot.varRank_lt hm) hab.locals
  obtain ⟨hc, hc'⟩ := sum_lt_of_forall₂ (fun _ _ => Slot.varRank_lt hm) hab.cells
  have hk : b.keywords.toList.length ≤ a.keywords.toList.length
      ∧ (a.keywords ≠ b.keywords → b.keywords.toList.length < a.keywords.toList.length) := by
    rcases hab.keywords with h | h
    · rw [h]
      exact ⟨Nat.le_refl _, fun hne => absurd rfl hne⟩
    · rw [h]
      cases a.keywords with
      | none => exact ⟨Nat.le_refl _, fun hne => absurd rfl hne⟩
      | some ks => exact ⟨Nat.zero_le _, fun _ => Nat.zero_lt_one⟩
  -- some field differs, and there the rank is lower
  have hdiff : a.stack ≠ b.stack ∨ a.locals ≠ b.locals ∨ a.cells ≠ b.cells
      ∨ a.keywords ≠ b.keywords := by
    by_contra hsame
    simp only [not_or, not_not] at hsame
    obtain ⟨h₁, h₂, h₃, h₄⟩ := hsame
    have h₅ := hab.blocks
    have h₆ := ha.trans hab.live.symm
    cases a
    cases b
    simp_all
  unfold rank
  rcases hdiff with h | h | h | h
  · have := hs' h
    omega
  · have := hl' h
    omega
  · have := hc' h
    omega
  · have := hk.2 h
    omega

theorem rank_le (m : TypeModel) (s : AbstractState) :
    s.rank m ≤ (s.locals.length + s.cells.length + s.depth + 1) * (max 1 m.maxDepth + 2) := by
  have hs : (s.stack.map (Slot.rank m)).sum ≤ s.stack.length * (max 1 m.maxDepth + 2) :=
    sum_map_le (fun v => Nat.le_succ_of_le (Slot.rank_le m v)) s.stack
  have hl := sum_map_le (Slot.varRank_le m) s.locals
  have hc := sum_map_le (Slot.varRank_le m) s.cells
  have hk : s.keywords.toList.length ≤ 1 := by
    cases s.keywords <;> simp
  unfold rank depth
  simp only [Nat.add_mul, Nat.one_mul]
  omega

end AbstractState

namespace Fixpoint

variable {q : Problem} {l c : Nat} {p p' : Progress}

/-! ## 2. Moves -/

/-- A state that control can come to, with the given numbers of variables. -/
structure Live (l c : Nat) (s : AbstractState) : Prop where
  live : s.dead = false
  locals : s.locals.length = l
  cells : s.cells.length = c

theorem Live.carries {s s' : AbstractState} (h : Live l c s) (hc : Op.Carries s s') : Live l c s' :=
  ⟨hc.dead.trans h.live, hc.locals.trans h.locals, hc.cells.trans h.cells⟩

/-- One thing that a visit does: it joins a live state into a block, or it writes down something
that concerns no block. -/
inductive Move (q : Problem) (l c : Nat) : Progress → Progress → Prop where
  | join {src t : Nat} {s : AbstractState} {p p' : Progress} (hs : Live l c s)
    (h : propagate q src t s p = .ok p') : Move q l c p p'
  | note (p : Progress) (states : Array AbstractState) (edges : List (Nat × Nat)) :
    Move q l c p { p with states := states, exceptionEdges := edges }

/-- Any number of moves. -/
abbrev Moves (q : Problem) (l c : Nat) : Progress → Progress → Prop :=
  Relation.ReflTransGen (Move q l c)

theorem propagateException_moves {o : Nat} {s : AbstractState} {op : Op} (hs : Live l c s)
    (h : propagateException q o s op p = .ok p') : Moves q l c p p' := by
  unfold propagateException at h
  split at h
  · obtain ⟨x, hx, h⟩ := bind_eq_ok.mp h
    cases x with
    | none =>
      cases h
      exact .refl
    | some he =>
      obtain ⟨handler, e⟩ := he
      obtain ⟨u, -, -, -, -, -, hcarries⟩ := AbstractState.exceptionState?_eq_ok hx
      exact .head (.note p p.states _) (.single (.join (hs.carries hcarries) h))
  · cases h
    exact .refl

theorem propagateAll_moves {o : Nat} {isLast : Bool} {tr : Transfer}
    {onward onward' : Option AbstractState} (htr : ∀ w ∈ tr, Live l c w.2)
    (hon : ∀ s ∈ onward, Live l c s) (h : propagateAll q o isLast tr onward p = .ok (onward', p')) :
    Moves q l c p p' ∧ ∀ s ∈ onward', Live l c s := by
  induction tr generalizing onward p with
  | nil =>
    cases h
    exact ⟨.refl, hon⟩
  | cons w tr ih =>
    obtain ⟨succ, s⟩ := w
    have hs : Live l c s := htr (succ, s) List.mem_cons_self
    have htr' : ∀ w ∈ tr, Live l c w.2 := fun w hw => htr w (List.mem_cons_of_mem _ hw)
    cases succ with
    | jump target =>
      obtain ⟨p₁, hp, h⟩ := bind_eq_ok.mp h
      obtain ⟨hm, hon'⟩ := ih htr' hon h
      exact ⟨.head (.join hs hp) hm, hon'⟩
    | next =>
      cases isLast with
      | true =>
        obtain ⟨p₁, hp, h⟩ := bind_eq_ok.mp h
        obtain ⟨hm, hon'⟩ := ih htr' hon h
        exact ⟨.head (.join hs hp) hm, hon'⟩
      | false =>
        refine ih htr' ?_ h
        intro s' hs'
        cases hs'
        exact hs

theorem visitFrom_moves {last : Nat} {os : List Nat} {s : AbstractState}
    (hs : s.dead = false → Live l c s) (h : visitFrom q last os s p = .ok p') :
    Moves q l c p p' := by
  induction os generalizing s p with
  | nil =>
    cases h
    exact .refl
  | cons o os ih =>
    refine .head (.note p (p.states.setIfInBounds o s) p.exceptionEdges) ?_
    unfold visitFrom at h
    split at h
    · cases h
      exact .refl
    · rename_i hlive
      have hs := hs (Bool.eq_false_iff.mpr hlive)
      split at h
      · cases h
        exact .refl
      · rename_i i hi
        obtain ⟨p₁, hexc, h⟩ := bind_eq_ok.mp h
        obtain ⟨tr, htr, h⟩ := bind_eq_ok.mp h
        obtain ⟨⟨onward, p₂⟩, hall, h⟩ := bind_eq_ok.mp h
        have hout : ∀ w ∈ tr, Live l c w.2 :=
          fun w hw => hs.carries ((Op.effect_follows htr).2 w hw)
        obtain ⟨hm, hon⟩ := propagateAll_moves hout (fun s hs => absurd hs (Option.not_mem_none s)) hall
        refine ((propagateException_moves hs hexc).trans hm).trans ?_
        cases onward with
        | none =>
          cases h
          exact .refl
        | some next => exact ih (fun _ => hon next rfl) h

/-- What the blocks need for the accounts below: there is an entry state for each of them, and the
live ones have the given numbers of variables. -/
structure Sized (q : Problem) (l c : Nat) (p : Progress) : Prop where
  size : p.blockIn.size = q.graph.size
  live : ∀ b, (p.entryOf b).dead = false → Live l c (p.entryOf b)

/-- **A visit is a sequence of moves.** -/
theorem visit_moves {b : Nat} (hp : Sized q l c p) (h : visit q b p = .ok p') : Moves q l c p p' :=
  visitFrom_moves (hp.live b) h

/-- The entry state of one block is replaced, and the block waits if it did not before. -/
structure Replaced (b : Nat) (new : AbstractState) (p p' : Progress) : Prop where
  lt : b < p.blockIn.size
  blockIn : p'.blockIn = p.blockIn.setIfInBounds b new
  worklist : p'.worklist.length ≤ p.worklist.length + 1

theorem Replaced.entryOf {b : Nat} {new : AbstractState} (h : Replaced b new p p') (b' : Nat) :
    p'.entryOf b' = if b = b' then new else p.entryOf b' := by
  rw [Progress.entryOf, h.blockIn, getD_setIfInBounds]
  simp only [h.lt, and_true, Progress.entryOf]

/-- The entry state of a block rises: the block wakes up, or its state becomes a larger one. -/
inductive Rises (m : TypeModel) (l c : Nat) (old new : AbstractState) : Prop where
  | wakes : old.dead = true → Live l c new → Rises m l c old new
  | grows : old.dead = false → old.Within m new → old ≠ new → Rises m l c old new

theorem Rises.live {m : TypeModel} {old new : AbstractState} (h : Rises m l c old new)
    (hold : old.dead = false → Live l c old) : Live l c new := by
  cases h with
  | wakes _ hnew => exact hnew
  | grows hlive hw _ =>
    have hf := hw.sameForm
    have ho := hold hlive
    exact ⟨hw.live, hf.locals.symm.trans ho.locals, hf.cells.symm.trans ho.cells⟩

theorem Progress.length_enqueue (p : Progress) (b : Nat) :
    (p.enqueue b).worklist.length ≤ p.worklist.length + 1 := by
  unfold Progress.enqueue
  split
  · exact Nat.le_succ _
  · rw [List.length_append, List.length_singleton]

/-- **What a move can do**: nothing that concerns the blocks, or the entry state of one of them
rises. -/
theorem Move.inv (hq : q.graph.Partitions q.code.size) (hsize : p.blockIn.size = q.graph.size)
    (h : Move q l c p p') : (p'.blockIn = p.blockIn ∧ p'.worklist = p.worklist)
      ∨ ∃ b new, Replaced b new p p' ∧ Rises q.typer.model l c (p.entryOf b) new := by
  cases h with
  | note states edges => exact .inl ⟨rfl, rfl⟩
  | @join src t s _ _ hs h =>
    obtain ⟨hlt, -, new, hnew, rfl⟩ := propagate_eq_ok.mp h
    split
    · exact .inl ⟨rfl, rfl⟩
    · rename_i hne
      refine .inr ⟨q.graph.blockAt t, new, ⟨?_, ?_, ?_⟩, ?_⟩
      · rw [hsize]
        exact hq.blockAt_lt t hlt
      · exact (Progress.enqueue_rest _ _).1
      · exact Progress.length_enqueue _ _
      · cases hold : (p.entryOf (q.graph.blockAt t)).dead with
        | true =>
          rw [AbstractState.join_dead hold] at hnew
          cases hnew
          exact .wakes hold hs
        | false =>
          obtain ⟨hf, rfl⟩ := (AbstractState.join_live hold hs.live).mp hnew
          exact .grows hold (AbstractState.within_merged hf).1 (Ne.symm hne)

theorem Move.sized (hq : q.graph.Partitions q.code.size) (hp : Sized q l c p)
    (h : Move q l c p p') : Sized q l c p' := by
  rcases h.inv hq hp.size with ⟨hin, -⟩ | ⟨b, new, hrep, hrise⟩
  · have hsame : ∀ b, p'.entryOf b = p.entryOf b := fun b => by
      rw [Progress.entryOf, Progress.entryOf, hin]
    refine ⟨hin ▸ hp.size, fun b => ?_⟩
    rw [hsame]
    exact hp.live b
  · refine ⟨?_, fun b' => ?_⟩
    · rw [hrep.blockIn, Array.size_setIfInBounds]
      exact hp.size
    · rw [hrep.entryOf]
      split
      · exact fun _ => hrise.live (hp.live b)
      · exact hp.live b'

/-! ## 3. The measure -/

/-- The sum of a weight over the entry states of all blocks. -/
def Progress.total (p : Progress) (w : AbstractState → Nat) : Nat :=
  ∑ b ∈ Finset.range p.blockIn.size, w (p.entryOf b)

theorem Replaced.total {b : Nat} {new : AbstractState} (h : Replaced b new p p')
    (w : AbstractState → Nat) : p'.total w + w (p.entryOf b) = p.total w + w new := by
  have hmem : b ∈ Finset.range p.blockIn.size := Finset.mem_range.mpr h.lt
  have hsize : p'.blockIn.size = p.blockIn.size := by
    rw [h.blockIn, Array.size_setIfInBounds]
  have hrest : ∑ b' ∈ (Finset.range p.blockIn.size).erase b, w (p'.entryOf b')
      = ∑ b' ∈ (Finset.range p.blockIn.size).erase b, w (p.entryOf b') := by
    refine Finset.sum_congr rfl fun b' hb' => ?_
    rw [h.entryOf, if_neg (Finset.ne_of_mem_erase hb').symm]
  rw [Progress.total, Progress.total, hsize, ← Finset.add_sum_erase _ _ hmem,
    ← Finset.add_sum_erase _ (fun b => w (p.entryOf b)) hmem, hrest, h.entryOf, if_pos rfl]
  omega

theorem total_congr (h : p'.blockIn = p.blockIn) (w : AbstractState → Nat) :
    p'.total w = p.total w := by
  unfold Progress.total Progress.entryOf
  rw [h]

/-- Number of blocks that no execution was found to reach. -/
def Progress.sleeping (p : Progress) : Nat := p.total fun s => if s.dead then 1 else 0

/-- The rises that are left to the blocks that are awake, and the visits that are due. -/
def Progress.energy (m : TypeModel) (p : Progress) : Nat :=
  p.total (fun s => if s.dead then 0 else s.rank m) + p.worklist.length

/-- The measure does not grow: blocks wake up, or what is left to the others suffices. -/
def Progress.NotAbove (m : TypeModel) (p' p : Progress) : Prop :=
  p'.sleeping < p.sleeping ∨ p'.sleeping = p.sleeping ∧ p'.energy m ≤ p.energy m

theorem Progress.NotAbove.trans {m : TypeModel} {p₁ p₂ p₃ : Progress} (h : p₁.NotAbove m p₂)
    (h' : p₂.NotAbove m p₃) : p₁.NotAbove m p₃ := by
  unfold Progress.NotAbove at *
  omega

theorem Move.notAbove (hm : q.typer.model.Built) (hq : q.graph.Partitions q.code.size)
    (hp : Sized q l c p) (h : Move q l c p p') : p'.NotAbove q.typer.model p := by
  rcases h.inv hq hp.size with ⟨hin, hwork⟩ | ⟨b, new, hrep, hrise⟩
  · refine .inr ⟨total_congr hin _, ?_⟩
    rw [Progress.energy, Progress.energy, total_congr hin, hwork]
  · have hsleep := hrep.total fun s => if s.dead then 1 else 0
    cases hrise with
    | wakes hold hnew =>
      simp only [hold, hnew.live, if_true, Bool.false_eq_true, if_false] at hsleep
      exact .inl (Nat.lt_of_succ_le (Nat.le_of_eq hsleep))
    | grows hold hw hne =>
      have henergy := hrep.total fun s => if s.dead then 0 else s.rank q.typer.model
      simp only [hold, hw.live, Bool.false_eq_true, if_false] at hsleep henergy
      have hlt := AbstractState.rank_lt hm hold hw hne
      have hlen := hrep.worklist
      refine .inr ⟨hsleep, ?_⟩
      unfold Progress.energy
      omega

theorem Moves.notAbove (hm : q.typer.model.Built) (hq : q.graph.Partitions q.code.size)
    (hp : Sized q l c p) (h : Moves q l c p p') : Sized q l c p' ∧ p'.NotAbove q.typer.model p := by
  induction h with
  | refl => exact ⟨hp, .inr ⟨rfl, Nat.le_refl _⟩⟩
  | tail _ hmove ih => exact ⟨hmove.sized hq ih.1, (hmove.notAbove hm hq ih.1).trans ih.2⟩

/-! ## 4. Visits in a row -/

/-- A number of visits in the order of the worklist. -/
inductive Visits (q : Problem) : Nat → Progress → Progress → Prop where
  | zero (p : Progress) : Visits q 0 p p
  | succ {n b : Nat} {rest : List Nat} {p p₁ p' : Progress} (hwork : p.worklist = b :: rest)
    (h : visit q b { p with worklist := rest } = .ok p₁) (hrest : Visits q n p₁ p') :
    Visits q (n + 1) p p'

/-- No further visit is made: no block waits, or the next one cannot be visited. -/
inductive Halted (q : Problem) (p : Progress) : Prop where
  | empty : p.worklist = [] → Halted q p
  | fault {b : Nat} {rest : List Nat} {e : BodyError} : p.worklist = b :: rest →
    visit q b { p with worklist := rest } = .error e → Halted q p

/-- A visit lowers the measure: it takes one block off the worklist and then only moves. -/
theorem visit_lowers {b : Nat} {rest : List Nat} (hm : q.typer.model.Built)
    (hq : q.graph.Partitions q.code.size) (hp : Sized q l c p) (hwork : p.worklist = b :: rest)
    (h : visit q b { p with worklist := rest } = .ok p') :
    Sized q l c p' ∧ (p'.sleeping < p.sleeping
      ∨ p'.sleeping = p.sleeping ∧ p'.energy q.typer.model < p.energy q.typer.model) := by
  have hrest : Sized q l c { p with worklist := rest } := ⟨hp.size, hp.live⟩
  obtain ⟨hp', hbelow⟩ := Moves.notAbove hm hq hrest (visit_moves hrest h)
  refine ⟨hp', ?_⟩
  have hlen : p.worklist.length = rest.length + 1 := by rw [hwork, List.length_cons]
  have henergy : ({ p with worklist := rest } : Progress).energy q.typer.model + 1
      = p.energy q.typer.model := by
    unfold Progress.energy
    rw [hlen, total_congr rfl]
    rfl
  rcases hbelow with hlt | ⟨heq, hle⟩
  · exact .inl hlt
  · exact .inr ⟨heq, by omega⟩

/-- **Visits come to an end.** -/
theorem exists_halted (hm : q.typer.model.Built) (hq : q.graph.Partitions q.code.size)
    (hp : Sized q l c p) : ∃ n p', Visits q n p p' ∧ Halted q p' := by
  -- lexicographic: a block that wakes up may bring along any number of rises
  induction hk : (p.sleeping, p.energy q.typer.model) using
    (WellFounded.prod_lex Nat.lt_wfRel.wf Nat.lt_wfRel.wf).induction generalizing p with
  | _ k ih =>
    subst hk
    cases hwork : p.worklist with
    | nil => exact ⟨0, p, .zero p, .empty hwork⟩
    | cons b rest =>
      cases hv : visit q b { p with worklist := rest } with
      | error e => exact ⟨0, p, .zero p, .fault hwork hv⟩
      | ok p₁ =>
        obtain ⟨hp₁, hlower⟩ := visit_lowers hm hq hp hwork hv
        obtain ⟨n, p', hvisits, hhalt⟩ := ih _ (Prod.lex_def.mpr hlower) hp₁ rfl
        exact ⟨n + 1, p', .succ hwork hv hvisits, hhalt⟩

theorem iterate_nil {bound left : Nat} (h : p.worklist = []) :
    iterate q bound left p = .ok (left, p) := by
  unfold iterate
  simp only [h]

theorem iterate_zero {bound b : Nat} {rest : List Nat} (h : p.worklist = b :: rest) :
    iterate q bound 0 p = .error (.noFixedPoint bound) := by
  unfold iterate
  simp only [h]

theorem iterate_succ {bound left b : Nat} {rest : List Nat} (h : p.worklist = b :: rest) :
    iterate q bound (left + 1) p
      = visit q b { p with worklist := rest } >>= iterate q bound left := by
  conv_lhs => unfold iterate
  simp only [h]

/-- The iteration makes the visits that its bound allows. -/
theorem Visits.iterate_eq {n bound left : Nat} (h : Visits q n p p') (hle : n ≤ left) :
    iterate q bound left p = iterate q bound (left - n) p' := by
  induction h generalizing left with
  | zero p => rw [Nat.sub_zero]
  | @succ n b rest p p₁ p' hwork hv _ ih =>
    obtain ⟨left, rfl⟩ : ∃ k, left = k + 1 := ⟨left - 1, by omega⟩
    have hstep : iterate q bound (left + 1) p = iterate q bound left p₁ := by
      rw [iterate_succ hwork, hv]
      rfl
    rw [hstep, ih (Nat.le_of_succ_le_succ hle), Nat.add_sub_add_right]

/-! ## 5. Only the bound gives up -/

end Fixpoint

/-- A computation that does not end because some bound was reached. -/
def Decides {α : Type} (x : Except BodyError α) : Prop := ∀ k, x ≠ .error (.noFixedPoint k)

section Decides

variable {α β : Type} {x : Except BodyError α}

theorem decides_ok (a : α) : Decides (.ok a) := fun _ => nofun

theorem Decides.bind {f : α → Except BodyError β} (hx : Decides x) (hf : ∀ a, Decides (f a)) :
    Decides (x >>= f) := by
  cases x with
  | error e => exact fun k h => hx k (congrArg _ (Except.error.inj h))
  | ok a => exact hf a

theorem Decides.map (hx : Decides x) (f : α → β) : Decides (x.map f) := by
  cases x with
  | error e => exact fun k h => hx k (congrArg _ (Except.error.inj h))
  | ok a => exact decides_ok _

theorem decides_ite {y : Except BodyError α} {P : Prop} [Decidable P] (hx : Decides x)
    (hy : Decides y) : Decides (if P then x else y) := by
  split
  · exact hx
  · exact hy

end Decides

namespace AbstractState

variable (s : AbstractState) (n o : Nat)

theorem decides_pop : Decides (s.pop o) := by
  unfold pop
  split <;> exact fun _ => nofun

theorem decides_popMany : Decides (s.popMany n o) :=
  decides_ite (decides_ok _) fun _ => nofun

theorem decides_dropMany : Decides (s.dropMany n o) := (s.decides_popMany n o).map _

theorem decides_peek : Decides (s.peek n o) := by
  unfold peek
  split <;> exact fun _ => nofun

theorem decides_rotate : Decides (s.rotate n o) := by
  unfold rotate
  refine decides_ite (fun _ => nofun) ?_
  split <;> exact fun _ => nofun

theorem decides_truncate : Decides (s.truncate n o) :=
  decides_ite (decides_ok _) fun _ => nofun

theorem decides_variable (vars : List (Option Slot)) : Decides (variable_ vars n o) := by
  unfold variable_
  split <;> exact fun _ => nofun

theorem decides_setVariable (vars : List (Option Slot)) (v : Option Slot) :
    Decides (setVariable vars n o v) :=
  decides_ite (decides_ok _) fun _ => nofun

theorem decides_exceptionState? : Decides (s.exceptionState? o) := by
  unfold exceptionState?
  split
  · exact decides_ok _
  · exact (decides_truncate _ _ _).bind fun _ => decides_ok _

theorem decides_joinFrom (m : TypeModel) (t : AbstractState) : Decides (joinFrom m o s t) := by
  refine Decides.bind ?_ fun _ => decides_ok _
  unfold join
  exact decides_ite (decides_ok _) <| decides_ite (decides_ok _) <|
    decides_ite (fun _ => nofun) <| decides_ite (fun _ => nofun) <|
    decides_ite (fun _ => nofun) (decides_ok _)

end AbstractState

namespace Op

open AbstractState

variable (ty : Typer) (n o : Nat) (s : AbstractState)

theorem decides_take : Decides (take n o s) := (s.decides_dropMany n o).map _

theorem decides_makeOf (t : TypeId) : Decides (makeOf n o t s) := (s.decides_dropMany n o).map _

theorem decides_mapTop (f : Slot → Slot) : Decides (mapTop f o s) := (s.decides_pop o).map _

theorem decides_mapTwo (f : Slot → Slot → Slot) : Decides (mapTwo f o s) :=
  (s.decides_pop o).bind fun _ => (decides_pop _ o).bind fun _ => decides_ok _

theorem decides_handlerEntry : Decides (handlerEntry s n o) := (s.decides_truncate n o).map _

theorem decides_callUnpacked (kwargs : Bool) : Decides (callUnpacked ty kwargs o s) := by
  have hrest : ∀ s : AbstractState, Decides (do
      let args ← s.pop o
      let callee ← args.2.pop o
      return goOn (callee.2.push (ty.resolveCall callee.1 [] []).resultOfUnknown)) :=
    fun _ => (decides_pop _ _).bind fun _ => (decides_pop _ _).bind fun _ => decides_ok _
  cases kwargs with
  | false => exact hrest s
  | true => exact (decides_dropMany _ _ _).bind hrest

theorem decides_openBlock (kind : BlockKind) (reserve : Nat) :
    Decides (openBlock n kind reserve o s) :=
  decides_ite (fun _ => nofun) ((decides_handlerEntry _ _ _).bind fun _ => decides_ok _)

theorem decides_closeBlock : Decides (closeBlock o s) := by
  unfold closeBlock
  split <;> exact fun _ => nofun

theorem decides_leaveHandler : Decides (leaveHandler o s) := by
  unfold leaveHandler
  split
  · exact decides_take _ _ _
  · exact fun _ => nofun

theorem decides_mapM {α β : Type} {f : α → Except BodyError β} (hf : ∀ a, Decides (f a))
    (as : List α) : Decides (as.mapM f) := by
  induction as with
  | nil => exact decides_ok _
  | cons a as ih =>
    rw [List.mapM_cons]
    exact (hf a).bind fun _ => ih.bind fun _ => decides_ok _

theorem decides_effect (op : Op) : Decides (effect ty o s op) := by
  unfold effect
  cases op with
  | unary op => cases op <;> exact decides_mapTop _ _ _
  | rotTwo | rotThree | rotFour | rotN _ => exact (decides_rotate _ _ _).map _
  | dupTop | importFrom _ => exact (decides_peek _ _ _).map _
  | dupTopTwo =>
    exact (decides_peek _ _ _).bind fun _ => (decides_peek _ _ _).bind fun _ => decides_ok _
  | forIter exit => exact (decides_pop _ _).bind fun _ => decides_ok _
  | loadFast i | loadDeref i | loadClassDeref i | loadClosure i =>
    exact (decides_variable _ _ _).bind fun _ => decides_ok _
  | storeFast i | storeDeref i =>
    exact (decides_pop _ _).bind fun _ => (decides_setVariable _ _ _ _).bind fun _ => decides_ok _
  | deleteFast i | deleteDeref i =>
    exact (decides_setVariable _ _ _ _).bind fun _ => decides_ok _
  | loadMethod name | unpackEx before after => exact (decides_pop _ _).bind fun _ => decides_ok _
  | update kind depth =>
    exact (decides_dropMany _ _ _).bind fun _ => (decides_peek _ _ _).bind fun _ => decides_ok _
  | unpackSequence n | popJumpIf on target | jumpIfOrPop on target | returnValue =>
    exact (decides_pop _ _).map _
  | callFunction argc =>
    exact (decides_popMany _ _ _).bind fun _ => (decides_pop _ _).bind fun _ => decides_ok _
  | callFunctionKw argc =>
    exact (decides_pop _ _).bind fun _ => (decides_popMany _ _ _).bind fun _ =>
      (decides_pop _ _).bind fun _ => decides_ok _
  | callFunctionEx kwargs => exact decides_callUnpacked _ _ _ _
  | callMethod argc =>
    exact (decides_popMany _ _ _).bind fun _ => (decides_pop _ _).bind fun _ =>
      (decides_pop _ _).bind fun _ => decides_ok _
  | jumpIfNotExcMatch target | reraise n | raiseVarargs n => exact (decides_dropMany _ _ _).map _
  | setupFinally handler kind reserve => exact decides_openBlock _ _ _ _ _
  | setupWith handler =>
    exact (decides_pop _ _).bind fun _ => (decides_handlerEntry _ _ _).bind fun _ => decides_ok _
  | popBlock => exact decides_closeBlock _ _
  | popExcept => exact decides_leaveHandler _ _
  | withExceptStart =>
    exact (decides_peek _ _ _).bind fun _ =>
      (decides_mapM (fun _ => decides_peek _ _ _) _).bind fun _ => decides_ok _
  | delegate state exit =>
    exact (decides_pop _ _).bind fun _ => (decides_pop _ _).bind fun _ => decides_ok _
  | _ =>
    first
    | exact decides_ok _
    | exact decides_take _ _ _
    | exact decides_makeOf _ _ _ _
    | exact decides_mapTop _ _ _
    | exact decides_mapTwo _ _ _

end Op

namespace Fixpoint

theorem decides_propagate (q : Problem) (src t : Nat) (s : AbstractState) (p : Progress) :
    Decides (propagate q src t s p) := by
  refine decides_ite (fun _ => nofun) (decides_ite (fun _ => nofun) ?_)
  refine (AbstractState.decides_joinFrom _ _ _ _).bind fun _ => ?_
  exact decides_ite (decides_ok _) (decides_ok _)

theorem decides_propagateException (q : Problem) (o : Nat) (s : AbstractState) (op : Op)
    (p : Progress) : Decides (propagateException q o s op p) := by
  refine decides_ite ?_ (decides_ok _)
  refine (s.decides_exceptionState? o).bind fun x => ?_
  cases x with
  | none => exact decides_ok _
  | some he => exact decides_propagate _ _ _ _ _

theorem decides_propagateAll (q : Problem) (o : Nat) (isLast : Bool) (tr : Transfer)
    (onward : Option AbstractState) (p : Progress) :
    Decides (propagateAll q o isLast tr onward p) := by
  induction tr generalizing onward p with
  | nil => exact decides_ok _
  | cons w tr ih =>
    obtain ⟨succ, s⟩ := w
    cases succ with
    | jump target => exact (decides_propagate _ _ _ _ _).bind fun _ => ih _ _
    | next =>
      unfold propagateAll
      exact decides_ite ((decides_propagate _ _ _ _ _).bind fun _ => ih _ _) (ih _ _)

theorem decides_visitFrom (q : Problem) (last : Nat) (os : List Nat) (s : AbstractState)
    (p : Progress) : Decides (visitFrom q last os s p) := by
  induction os generalizing s p with
  | nil => exact decides_ok _
  | cons o os ih =>
    unfold visitFrom
    refine decides_ite (decides_ok _) ?_
    split
    · exact decides_ok _
    · refine (decides_propagateException _ _ _ _ _).bind fun _ =>
        (Op.decides_effect _ _ _ _).bind fun _ => (decides_propagateAll _ _ _ _ _ _).bind fun r => ?_
      obtain ⟨onward, p'⟩ := r
      cases onward with
      | none => exact decides_ok _
      | some next => exact ih _ _

theorem decides_visit (q : Problem) (b : Nat) (p : Progress) : Decides (visit q b p) :=
  decides_visitFrom _ _ _ _ _

/-- Where visits have ended, the iteration ends too, whatever its bound is. -/
theorem Halted.iterate_eq {q : Problem} {p : Progress} (h : Halted q p) :
    ∃ r : Except BodyError Progress, Decides r ∧ ∀ bound left, p.worklist.length ≤ left →
      iterate q bound left p = r.map fun p => (left, p) := by
  cases h with
  | empty hwork => exact ⟨.ok p, decides_ok p, fun bound left _ => iterate_nil hwork⟩
  | @fault b rest e hwork hv =>
    refine ⟨.error e, fun k hk => ?_, fun bound left hle => ?_⟩
    · exact decides_visit _ _ _ k (hv.trans (congrArg _ (Except.error.inj hk)))
    · rw [hwork, List.length_cons] at hle
      obtain ⟨left, rfl⟩ : ∃ k, left = k + 1 := ⟨left - 1, by omega⟩
      rw [iterate_succ hwork, hv]
      rfl

end Fixpoint

/-! ## 6. The bound is read nowhere else -/

/-- The typer with the given bound on the number of visits. -/
def Typer.bounded (ty : Typer) (n : Nat) : Typer :=
  { ty with config := { ty.config with maxSteps := some n } }

namespace Fixpoint

/-- The problem with the given bound on the number of visits. -/
def Problem.bounded (q : Problem) (n : Nat) : Problem := { q with typer := q.typer.bounded n }

section Bounded

variable (q : Problem) (n : Nat)

theorem propagateAll_bounded (o : Nat) (isLast : Bool) (tr : Transfer)
    (onward : Option AbstractState) (p : Progress) :
    propagateAll (q.bounded n) o isLast tr onward p = propagateAll q o isLast tr onward p := by
  induction tr generalizing onward p with
  | nil => rfl
  | cons w tr ih =>
    obtain ⟨succ, s⟩ := w
    cases succ <;> simp only [propagateAll, ih] <;> rfl

theorem visitFrom_bounded (last : Nat) (os : List Nat) (s : AbstractState) (p : Progress) :
    visitFrom (q.bounded n) last os s p = visitFrom q last os s p := by
  induction os generalizing s p with
  | nil => rfl
  | cons o os ih =>
    simp only [visitFrom, propagateAll_bounded, ih]
    rfl

theorem iterate_bounded (bound left : Nat) (p : Progress) :
    iterate (q.bounded n) bound left p = iterate q bound left p := by
  have hvisit : ∀ b p, visit (q.bounded n) b p = visit q b p :=
    fun _ _ => visitFrom_bounded q n _ _ _ _
  induction left generalizing p with
  | zero =>
    cases hwork : p.worklist with
    | nil => rw [iterate_nil hwork, iterate_nil hwork]
    | cons b rest => rw [iterate_zero hwork, iterate_zero hwork]
  | succ left ih =>
    cases hwork : p.worklist with
    | nil => rw [iterate_nil hwork, iterate_nil hwork]
    | cons b rest => rw [iterate_succ hwork, iterate_succ hwork, hvisit, funext ih]

end Bounded

/-! ## 7. The analysis ends -/

theorem start_sized (q : Problem) (n : Nat) {entry : AbstractState} (hlive : entry.dead = false)
    (hsize : 0 < q.graph.size) :
    Sized q entry.locals.length entry.cells.length (start q.graph n entry) := by
  refine ⟨by rw [start, Array.size_setIfInBounds, Array.size_replicate], fun b hb => ?_⟩
  by_cases hzero : b = 0
  · rw [hzero, (start_entryOf (b := 0) hsize).1]
    exact ⟨hlive, rfl, rfl⟩
  · rw [(start_entryOf hsize).2 hzero] at hb
    cases hb

/-- **The analysis converges.** For a model that declarations lead to, a body with its graph and a
live entry state, all large bounds on the number of visits give one and the same result, and it is
not that the bound was reached. -/
theorem analyze_converges {ty : Typer} {is : List Instr} {g : FlowGraph} {entry : AbstractState}
    (hm : ty.model.Reached) (hg : FlowGraph.build is = .ok g) (hlive : entry.dead = false) :
    ∃ N r, (∀ n, N ≤ n → analyze (ty.bounded n) is g entry = r)
      ∧ ∀ k, r ≠ .error (.noFixedPoint k) := by
  have hq : g.Partitions is.toArray.size := by
    rw [List.size_toArray]
    exact FlowGraph.build_partitions hg
  have hstart := start_sized ⟨is.toArray, g, ty⟩ is.length hlive (FlowGraph.build_block_zero hg).1
  obtain ⟨used, p, hvisits, hhalted⟩ := exists_halted hm.built hq hstart
  obtain ⟨r, hr, hend⟩ := hhalted.iterate_eq
  refine ⟨used + p.worklist.length,
    r.map fun p => ⟨p.states, p.exceptionEdges, used⟩, fun n hn => ?_, hr.map _⟩
  have hrun : iterate ⟨is.toArray, g, ty.bounded n⟩ n n (start g is.length entry)
      = r.map fun p => (n - used, p) :=
    calc iterate ⟨is.toArray, g, ty.bounded n⟩ n n (start g is.length entry)
        = iterate ⟨is.toArray, g, ty⟩ n n (start g is.length entry) :=
          iterate_bounded ⟨is.toArray, g, ty⟩ n n n _
      _ = iterate ⟨is.toArray, g, ty⟩ n (n - used) p := hvisits.iterate_eq (by omega)
      _ = r.map fun p => (n - used, p) := hend n (n - used) (by omega)
  refine (congrArg (· >>= _) hrun).trans ?_
  cases r with
  | error e => rfl
  | ok p' =>
    have hsteps : n - (n - used) = used := Nat.sub_sub_self (by omega)
    exact congrArg (fun k => Except.ok (Analysis.mk p'.states p'.exceptionEdges k)) hsteps

theorem analyze_converges_guardedLoop :
    TypeModel.empty.Reached ∧ ∃ g, FlowGraph.build guardedLoop = .ok g
      ∧ ∃ N r, (∀ n, N ≤ n → analyze (Typer.bounded ⟨TypeModel.empty, [.none], {}⟩ n) guardedLoop g
          (.entry [none] 0) = r)
        ∧ ∀ k, r ≠ .error (.noFixedPoint k) :=
  ⟨.empty, _, rfl, analyze_converges .empty rfl rfl⟩

end Fixpoint

end Stackwise
