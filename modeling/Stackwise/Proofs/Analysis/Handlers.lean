import Stackwise.Proofs.Analysis.PostFixpoint

/-!
# Open blocks and their handlers

What the states of a body say about its form: how deep the stack is at each offset and which blocks
are open there.

* `Solves.moves`: the table of `Op.moves` leads from the form at an offset to the forms at its
  successors.
* `Solves.blocks_induction`: how a property of open blocks goes from the entry to every live offset.
* `Analysis.Catches`: the handler of an open block starts with six slots above the level of the
  block, inside the blocks around it.
* `Solves.catches`, `Solves.unwinds`: this holds of every block that is open at a live offset,
  whether or not the operation there may raise.
-/

namespace Stackwise

namespace Op

variable {op : Op} {d d' t : Nat} {bs bs' : List Block} {succ : Successor}
  {ws : List (Successor × Nat × List Block)}

/-- The blocks that are open after an operation that leaves `n` values on the stack. -/
def opened (op : Op) (n : Nat) (bs : List Block) : List Block :=
  match op with
  | .setupFinally h k reserve => .protect h (n - reserve) k :: bs
  | .setupWith h => .protect h (n - 1) .withBlock :: bs
  | .popBlock | .popExcept => bs.tail
  | _ => bs

theorem opened_suffix (ht : op.handlerTarget? = none) : op.opened d bs <:+ bs := by
  cases op with
  | setupFinally h k reserve => cases ht
  | setupWith h => cases ht
  | popBlock => exact List.tail_suffix bs
  | popExcept => exact List.tail_suffix bs
  | _ => exact List.suffix_refl bs

/-- An operation goes on with the blocks that it leaves open, or to the handler of the block that it
opens. -/
theorem moves_ways (hm : op.moves d bs = some ws) (hw : (succ, d', bs') ∈ ws) :
    (bs' = op.opened d' bs ∧ ∀ t, succ = .jump t → op.branchTarget? = some t)
      ∨ ∃ h, op.handlerTarget? = some h ∧ succ = .jump h := by
  cases ha : op.arity? with
  | some a =>
    rw [moves_of_arity ha, Option.ite_none_right_eq_some] at hm
    obtain ⟨-, hws⟩ := hm
    cases hws
    cases List.mem_singleton.mp hw
    refine .inl ⟨?_, fun t h => by cases h⟩
    cases op <;> first | rfl | cases ha
  | none =>
    cases op with
    | jump target =>
      cases hm
      cases List.mem_singleton.mp hw
      exact .inl ⟨rfl, fun t h => by cases h; rfl⟩
    | forIter _ | popJumpIf _ _ | jumpIfOrPop _ _ | jumpIfNotExcMatch _ | delegate _ _ =>
      simp only [moves, Option.ite_none_right_eq_some] at hm
      obtain ⟨-, hws⟩ := hm
      cases hws
      simp only [List.mem_cons, List.not_mem_nil, Prod.mk.injEq, or_false] at hw
      rcases hw with ⟨rfl, -, rfl⟩ | ⟨rfl, -, rfl⟩
      · exact .inl ⟨rfl, fun t h => by cases h⟩
      · exact .inl ⟨rfl, fun t h => by cases h; rfl⟩
    | setupFinally _ _ _ | setupWith _ =>
      simp only [moves, Option.ite_none_right_eq_some] at hm
      obtain ⟨-, hws⟩ := hm
      cases hws
      simp only [List.mem_cons, List.not_mem_nil, Prod.mk.injEq, or_false] at hw
      rcases hw with ⟨rfl, rfl, rfl⟩ | ⟨rfl, -, -⟩
      · exact .inl ⟨rfl, fun t h => by cases h⟩
      · exact .inr ⟨_, rfl, rfl⟩
    | returnValue | reraise _ | raiseVarargs _ =>
      simp only [moves, Option.ite_none_right_eq_some] at hm
      obtain ⟨-, hws⟩ := hm
      cases hws
      cases hw
    | popBlock =>
      simp only [moves] at hm
      split at hm
      · cases hm
        cases List.mem_singleton.mp hw
        exact .inl ⟨rfl, fun t h => by cases h⟩
      · cases hm
    | popExcept =>
      simp only [moves] at hm
      split at hm
      · rw [Option.ite_none_right_eq_some] at hm
        obtain ⟨-, hws⟩ := hm
        cases hws
        cases List.mem_singleton.mp hw
        exact .inl ⟨rfl, fun t h => by cases h⟩
      · cases hm
    | _ => cases ha

/-- An operation that opens a block goes on inside it; the other way on is its handler. -/
theorem moves_handler {h : Nat} (hm : op.moves d bs = some ws) (ht : op.handlerTarget? = some h) :
    ∃ n l k, ws = [(.next, n, .protect h l k :: bs), (.jump h, l + 6, .handling l :: bs)] := by
  cases op with
  | setupFinally _ _ _ | setupWith _ =>
    simp only [moves, Option.ite_none_right_eq_some] at hm
    obtain ⟨-, hws⟩ := hm
    cases hws
    cases ht
    exact ⟨_, _, _, rfl⟩
  | _ => cases ht

/-- A jump goes to an offset that the operation names. -/
theorem moves_jump (hm : op.moves d bs = some ws) (hw : (.jump t, d', bs') ∈ ws) :
    op.branchTarget? = some t ∨ op.handlerTarget? = some t := by
  rcases moves_ways hm hw with ⟨-, hjump⟩ | ⟨h, ht, heq⟩
  · exact .inl (hjump t rfl)
  · cases heq
    exact .inr ht

/-- Control goes on only after an operation that lets it. -/
theorem moves_next (hm : op.moves d bs = some ws) (hw : (.next, d', bs') ∈ ws) :
    op.isForcedJump = false := by
  cases op with
  | jump target =>
    cases hm
    cases List.mem_singleton.mp hw
  | returnValue | reraise _ | raiseVarargs _ =>
    simp only [moves, Option.ite_none_right_eq_some] at hm
    obtain ⟨-, hws⟩ := hm
    cases hws
    cases hw
  | _ => rfl

/-- An operation keeps the open blocks, closes some, starts a handler, or opens a block whose
handler is another way on. -/
theorem moves_blocks (hm : op.moves d bs = some ws) (hw : (succ, d', bs') ∈ ws) :
    bs' <:+ bs ∨ (∃ l, bs' = .handling l :: bs)
      ∨ ∃ h l k, bs' = .protect h l k :: bs ∧ op.handlerTarget? = some h
        ∧ (.jump h, l + 6, .handling l :: bs) ∈ ws := by
  cases ht : op.handlerTarget? with
  | none =>
    rcases moves_ways hm hw with ⟨rfl, -⟩ | ⟨h, ht', -⟩
    · exact .inl (opened_suffix ht)
    · rw [ht] at ht'
      cases ht'
  | some h =>
    obtain ⟨n, l, k, rfl⟩ := moves_handler hm ht
    simp only [List.mem_cons, List.not_mem_nil, Prod.mk.injEq, or_false] at hw
    rcases hw with ⟨-, -, rfl⟩ | ⟨-, -, rfl⟩
    · exact .inr (.inr ⟨h, l, k, rfl, rfl, .tail _ (.head _)⟩)
    · exact .inr (.inl ⟨l, rfl⟩)

end Op

namespace AbstractState

theorem outerBlocks_suffix (bs : List Block) : outerBlocks bs <:+ bs := by
  induction bs with
  | nil => exact List.suffix_refl _
  | cons b bs ih =>
    cases b with
    | handling l => exact ih.trans (List.suffix_cons _ _)
    | protect h l k => exact List.suffix_cons _ _

/-- An exception leaves running handlers up to the innermost protected block. -/
theorem unwindFrom_split {restoreAt : Option Nat} {bs : List Block} {u : Unwind}
    (h : unwindFrom restoreAt bs = some u) :
    ∃ inner, bs = inner ++ .protect u.handler u.level u.kind :: outerBlocks bs
      ∧ ∀ b ∈ inner, ∃ l, b = .handling l := by
  induction bs generalizing restoreAt with
  | nil => cases h
  | cons b bs ih =>
    cases b with
    | handling l =>
      obtain ⟨inner, hsplit, hinner⟩ := ih h
      refine ⟨.handling l :: inner, congrArg (.handling l :: ·) hsplit, fun b hb => ?_⟩
      rcases List.mem_cons.mp hb with rfl | hb
      · exact ⟨l, rfl⟩
      · exact hinner b hb
    | protect hd l k =>
      cases h
      exact ⟨[], rfl, fun b hb => absurd hb List.not_mem_nil⟩

/-- An exception goes to the innermost protected block. -/
theorem unwindFrom_eq_some {restoreAt : Option Nat} {bs : List Block} {u : Unwind}
    (h : unwindFrom restoreAt bs = some u) :
    (.protect u.handler u.level u.kind :: outerBlocks bs) <:+ bs := by
  obtain ⟨inner, hsplit, -⟩ := unwindFrom_split h
  exact ⟨inner, hsplit.symm⟩

theorem unwindFrom_isSome (restoreAt : Option Nat) (bs : List Block) :
    (unwindFrom restoreAt bs).isSome = true ↔ ∃ h l k, .protect h l k ∈ bs := by
  induction bs generalizing restoreAt with
  | nil => simp [unwindFrom]
  | cons b bs ih =>
    cases b with
    | handling l => simp [unwindFrom, ih]
    | protect h l k => exact iff_of_true rfl ⟨h, l, k, .head _⟩

end AbstractState

namespace Analysis

variable {a : Analysis} {ty : Typer} {is : List Instr} {entry : AbstractState} {o : Nat} {i : Instr}

/-! ## 1. From form to form -/

theorem Solves.lt (hs : a.Solves ty is entry AbstractState.KeepsForm)
    (hl : (a.state o).dead = false) : o < is.length := by
  by_contra hge
  have hout : a.state o = default := by
    rw [state, Array.getD_eq_getD_getElem?, Array.getElem?_eq_none (by rw [hs.size]; omega),
      Option.getD_none]
  rw [hout] at hl
  cases hl

/-- **The form at an offset leads to the forms at its successors.** -/
theorem Solves.moves (hs : a.Solves ty is entry AbstractState.KeepsForm) (hi : is[o]? = some i)
    (hl : (a.state o).dead = false) :
    ∃ ws, i.op.moves (a.state o).depth (a.state o).blocks = some ws
      ∧ ∀ {succ d bs}, (succ, d, bs) ∈ ws → (a.state (succ.target o)).dead = false
        ∧ (a.state (succ.target o)).depth = d ∧ (a.state (succ.target o)).blocks = bs := by
  obtain ⟨tr, htr, hall⟩ := hs.outcome o i hi hl
  obtain ⟨hm, hc⟩ := Op.effect_follows htr
  refine ⟨_, hm, fun {succ d bs} hw => ?_⟩
  obtain ⟨w, hwtr, hform⟩ := List.mem_map.mp hw
  cases hform
  obtain ⟨hlive, hsame⟩ := (hall w hwtr).2 ((hc w hwtr).dead.trans hl)
  exact ⟨hlive, hsame.depth.symm, hsame.blocks.symm⟩

/-- **What open blocks have in common**: it holds of the blocks at the entry, and every operation
and every exception keeps it. -/
theorem Solves.blocks_induction (hs : a.Solves ty is entry AbstractState.KeepsForm)
    (hentry : entry.dead = false) {P : List Block → Prop} (hstart : P entry.blocks)
    (hmoves : ∀ {o i ws succ d bs}, is[o]? = some i → (a.state o).dead = false →
      P (a.state o).blocks → i.op.moves (a.state o).depth (a.state o).blocks = some ws →
      (succ, d, bs) ∈ ws → P bs)
    (hraise : ∀ {l bs}, P bs → P (.handling l :: AbstractState.outerBlocks bs))
    (hl : (a.state o).dead = false) : P (a.state o).blocks := by
  have hreach := (hs.live o).mp hl
  clear hl
  induction hreach with
  | refl =>
    rw [← (hs.entry hentry).2.blocks]
    exact hstart
  | @tail o t hreach hstep ih =>
    have hl := (hs.live o).mpr hreach
    obtain ⟨i, hi, ⟨tr, htr, w, hw, rfl⟩ | ⟨hmay, u, hu, rfl⟩⟩ := hstep
    · obtain ⟨ws, hm, hall⟩ := hs.moves hi hl
      have hws := Option.some.inj (hm.symm.trans (Op.effect_follows htr).1)
      have hmem : (w.1, w.2.depth, w.2.blocks) ∈ ws := by
        rw [hws]
        exact List.mem_map.mpr ⟨w, hw, rfl⟩
      rw [(hall hmem).2.2]
      exact hmoves hi hl ih hm hmem
    · obtain ⟨e, he, -, hkeeps⟩ := hs.exception o i u hi hl hmay hu
      obtain ⟨u', hu', -, -, -, hb, hcarries⟩ := AbstractState.exceptionState?_eq_ok he
      rw [← (hkeeps (hcarries.dead.trans hl)).2.blocks, hb]
      exact hraise ih

/-! ## 2. Handlers -/

/-- The handlers of all protected blocks among `bs` start in the form that an exception leaves. -/
def Catches (a : Analysis) (is : List Instr) (bs : List Block) : Prop :=
  ∀ h l k rest, (.protect h l k :: rest) <:+ bs →
    (a.state h).dead = false ∧ (a.state h).depth = l + 6
      ∧ (a.state h).blocks = .handling l :: rest ∧ ∃ i ∈ is, i.op.handlerTarget? = some h

theorem Catches.suffix {bs bs' : List Block} (hc : a.Catches is bs) (hsuf : bs' <:+ bs) :
    a.Catches is bs' :=
  fun h l k rest hb => hc h l k rest (hb.trans hsuf)

theorem Catches.handling {bs : List Block} {l : Nat} (hc : a.Catches is bs) :
    a.Catches is (.handling l :: bs) := by
  intro h l' k rest hb
  rcases List.suffix_cons_iff.mp hb with heq | hb
  · cases heq
  · exact hc h l' k rest hb

/-- What holds of the form at an offset holds at its successors. -/
theorem Solves.catches_moves (hs : a.Solves ty is entry AbstractState.KeepsForm)
    (hi : is[o]? = some i) (hl : (a.state o).dead = false) (hc : a.Catches is (a.state o).blocks)
    {ws : List (Successor × Nat × List Block)}
    (hm : i.op.moves (a.state o).depth (a.state o).blocks = some ws) {succ : Successor} {d : Nat}
    {bs : List Block} (hw : (succ, d, bs) ∈ ws) : a.Catches is bs := by
  obtain ⟨ws', hm', hall⟩ := hs.moves hi hl
  obtain rfl : ws = ws' := Option.some.inj (hm.symm.trans hm')
  rcases Op.moves_blocks hm hw with hsuf | ⟨l, rfl⟩ | ⟨h, l, k, rfl, ht, hj⟩
  · exact hc.suffix hsuf
  · exact hc.handling
  · intro h' l' k' rest hb
    rcases List.suffix_cons_iff.mp hb with heq | hb
    · -- the block that was just opened: its handler is the other way on
      cases heq
      obtain ⟨hlive, hdepth, hblocks⟩ := hall hj
      exact ⟨hlive, hdepth, hblocks, i, List.mem_of_getElem? hi, ht⟩
    · exact hc h' l' k' rest hb

/-- **Every block that is open at a live offset has its handler.** -/
theorem Solves.catches (hs : a.Solves ty is entry AbstractState.KeepsForm)
    (hentry : entry.dead = false) (hblocks : entry.blocks = [])
    (hl : (a.state o).dead = false) : a.Catches is (a.state o).blocks := by
  refine hs.blocks_induction hentry ?_ (fun hi hl hc hm hw => hs.catches_moves hi hl hc hm hw)
    (fun hc => (hc.suffix (AbstractState.outerBlocks_suffix _)).handling) hl
  rw [hblocks]
  intro h l k rest hb
  cases List.suffix_nil.mp hb

/-- **An exception at a live offset finds its handler in the form that it leaves.** -/
theorem Solves.unwinds (hs : a.Solves ty is entry AbstractState.KeepsForm)
    (hentry : entry.dead = false) (hblocks : entry.blocks = [])
    (hl : (a.state o).dead = false) {u : Unwind} (hu : (a.state o).unwind? = some u) :
    (a.state u.handler).dead = false ∧ (a.state u.handler).depth = u.level + 6
      ∧ (a.state u.handler).blocks
        = .handling u.level :: AbstractState.outerBlocks (a.state o).blocks
      ∧ ∃ i ∈ is, i.op.handlerTarget? = some u.handler :=
  hs.catches hentry hblocks hl _ _ _ _ (AbstractState.unwindFrom_eq_some hu)

end Analysis

end Stackwise
