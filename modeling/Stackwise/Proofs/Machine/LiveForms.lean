import Stackwise.Proofs.Compile.SpelledBodies
import Stackwise.Proofs.Machine.BlockMachine

/-!
# Forms at live offsets

What the analysis says of an offset that control comes to, and what follows for the program. In a
body that is spelled out it finds the same form where an offset went, with the handlers of the open
blocks moved.

* `CompiledBody.FormAt`: the depth of the stack and the open blocks at a live offset.
* `FormAt.ways`, `FormAt.next`: the forms behind it.
* `FormAt.handler`: the form of the handler that an exception finds.
* `FormAt.step`, `FormAt.region`: what the program has at the offset.
* `Caught.find?_retarget`: an exception pops moved blocks as before.
* `CompiledBody.Enters`: the operations that enter a `with` block one after the other, and
  `Enters.forms`: the forms between them.
* `FormAt.spelled`: the form at the place of an offset.
* `Spells.region`: an exception inside of an entry goes where it goes from the entry.
-/

namespace Stackwise

/-! ## 1. Live offsets -/

/-- Control comes to the offset, with so many values on the stack and these open blocks. -/
structure CompiledBody.FormAt (b : CompiledBody) (o depth : Nat) (blocks : List Block) : Prop where
  live : (b.analysis.state o).dead = false
  depth : (b.analysis.state o).depth = depth
  blocks : (b.analysis.state o).blocks = blocks

/-- The operation at an offset. -/
def CompiledBody.HasOp (b : CompiledBody) (o : Nat) (op : Op) : Prop :=
  (b.instrs[o]?).map Instr.op = some op

instance (b : CompiledBody) (o : Nat) (op : Op) : Decidable (b.HasOp o op) :=
  inferInstanceAs (Decidable (_ = _))

namespace CompiledBody.FormAt

variable {ty : Typer} {b : CompiledBody} {p : Program} {o d : Nat} {bs : List Block} {op : Op}

theorem ways (h : b.FormAt o d bs) (hb : b.Accepted ty) (hop : b.HasOp o op) :
    ∃ ws, op.moves d bs = some ws
      ∧ ∀ {succ d' bs'}, (succ, d', bs') ∈ ws → b.FormAt (succ.target o) d' bs' := by
  obtain ⟨i, hi, rfl⟩ := Option.map_eq_some_iff.mp hop
  obtain ⟨ws, hm, hall⟩ := hb.solves.moves hi h.live
  rw [h.depth, h.blocks] at hm
  exact ⟨ws, hm, fun hw => ⟨(hall hw).1, (hall hw).2.1, (hall hw).2.2⟩⟩

/-- An operation that only goes on finds as many values as it needs. -/
theorem next (h : b.FormAt o d bs) (hb : b.Accepted ty) (hop : b.HasOp o op) {taken left : Nat}
    (harity : op.arity? = some (taken, left)) :
    taken ≤ d ∧ b.FormAt (o + 1) (d - taken + left) bs := by
  obtain ⟨ws, hm, hall⟩ := h.ways hb hop
  rw [Op.moves_of_arity harity, Option.ite_none_right_eq_some] at hm
  obtain ⟨htaken, hws⟩ := hm
  cases hws
  exact ⟨htaken, hall (.head _)⟩

/-- The instruction of the program at an offset that control comes to. -/
theorem step (h : b.FormAt o d bs) (hp : p.Of ty b) (hop : b.HasOp o op) :
    ∃ st lowering, p.step? o = some st ∧ st.op = op
      ∧ Machine.execute st = Machine.operate op lowering := by
  obtain ⟨i, hi, rfl⟩ := Option.map_eq_some_iff.mp hop
  exact ⟨_, i.op.lowering ty (b.analysis.state o) b.returnType,
    (hp.step _ _).mpr ⟨i, hi, h.live, rfl⟩, rfl, Machine.execute_eq_operate _ _ _ _ _⟩

/-- The table of regions says what the open blocks say. -/
theorem region (h : b.FormAt o d bs) (hb : b.Accepted ty) (hp : p.Of ty b) :
    (Region.find? p.regions o).map Region.aim = (Caught.find? bs).map Caught.aim := by
  rw [hp.regions, hb.regions, Region.aim_find?_table, h.live, if_neg Bool.false_ne_true,
    ← Caught.find?_aim, h.blocks]

/-- The handler of the innermost protected block starts on its level. -/
theorem handler (h : b.FormAt o d bs) (hb : b.Accepted ty) {caught : Caught}
    (hfind : Caught.find? bs = some caught) :
    b.FormAt caught.handler (caught.level + 6) (.handling caught.level :: caught.outer) := by
  have haim := Caught.find?_aim (b.analysis.state o)
  rw [h.blocks, hfind, Option.map_some, eq_comm, Option.map_eq_some_iff] at haim
  obtain ⟨u, hu, haim⟩ := haim
  simp only [Unwind.aim, Caught.aim, Prod.mk.injEq] at haim
  obtain ⟨hlive, hdepth, hblocks, -⟩ := hb.solves.unwinds rfl rfl h.live hu
  rw [h.blocks, ← Caught.find?_outer hfind] at hblocks
  rw [← haim.1, ← haim.2.1]
  exact ⟨hlive, hdepth, hblocks⟩

end CompiledBody.FormAt

/-! ## 2. Moved blocks -/

namespace Caught

/-- What is popped from blocks that were moved. -/
def retarget (f : Nat → Nat) (c : Caught) : Caught :=
  { c with handler := f c.handler, outer := c.outer.map (Block.retarget f) }

theorem find?_retarget (f : Nat → Nat) (bs : List Block) :
    find? (bs.map (Block.retarget f)) = (find? bs).map (retarget f) := by
  induction bs with
  | nil => rfl
  | cons b bs ih =>
    cases b with
    | protect h l k => rfl
    | handling l =>
      rw [List.map_cons, Block.retarget, find?, ih, find?, Option.map_map, Option.map_map]
      rfl

end Caught

namespace CompiledBody

/-! ## 3. The entry of a `with` block -/

/-- From `o` on, operations enter a `with` block whose handler is at `h`. -/
def Enters (b : CompiledBody) (o h : Nat) : Prop :=
  ∀ {j op}, (Body.expandOp (.setupWith h))[j]? = some op → b.HasOp (o + j) op

variable {ty ty' : Typer} {b b' : CompiledBody} {o h d j : Nat} {bs : List Block} {i : Instr}
  {op : Op}

/-- The forms between the operations. The block is opened by the last of them. -/
structure Enters.Forms (b : CompiledBody) (o h d : Nat) (bs : List Block) : Prop where
  inside : ∀ j ≤ 5, ∃ d', b.FormAt (o + j) d' bs
  body : b.FormAt (o + 6) (d + 1) (.protect h d .withBlock :: bs)
  handler : b.FormAt h (d + 6) (.handling d :: bs)

theorem Enters.forms (hops : b.Enters o h) (hb : b.Accepted ty) (hform : b.FormAt o d bs) :
    Enters.Forms b o h d bs := by
  obtain ⟨hd, hform₁⟩ := hform.next hb (hops (j := 0) rfl) rfl
  obtain ⟨-, hform₂⟩ := hform₁.next hb (hops (j := 1) rfl) rfl
  obtain ⟨-, hform₃⟩ := hform₂.next hb (hops (j := 2) rfl) rfl
  obtain ⟨-, hform₄⟩ := hform₃.next hb (hops (j := 3) rfl) rfl
  obtain ⟨-, hform₅⟩ := hform₄.next hb (hops (j := 4) rfl) rfl
  rw [show d - 1 + 2 - 1 + 1 - 2 + 2 - 1 + 1 - (0 + 1) + 1 = d + 1 by omega] at hform₅
  obtain ⟨ws, hm, hall⟩ := hform₅.ways hb (hops (j := 5) rfl)
  rw [Op.moves, if_pos (Nat.le_add_left 1 d)] at hm
  cases hm
  refine ⟨fun j hj => ?_, hall (.head _), hall (.tail _ (.head _))⟩
  rcases j with _ | _ | _ | _ | _ | _ | j
  · exact ⟨_, hform⟩
  · exact ⟨_, hform₁⟩
  · exact ⟨_, hform₂⟩
  · exact ⟨_, hform₃⟩
  · exact ⟨_, hform₄⟩
  · exact ⟨_, hform₅⟩
  · omega

/-! ## 4. Places -/

section Spelled

variable (hs : b.Spells b')
include hs

/-- An operation that is no entry stands at its place. -/
theorem Spells.kept (hi : b.instrs[o]? = some i) (hplain : i.op.isDispatch = false)
    (hwith : i.op.isWith = false) : b'.HasOp (Body.place b.instrs o) (i.op.retarget (Body.place b.instrs))
      ∧ Body.place b.instrs (o + 1) = Body.place b.instrs o + 1 := by
  have hops := Body.expandOp_of_isWith hwith
  have hfirst : (Body.expandOp i.op)[0]? = some i.op := by
    rw [hops]
    rfl
  obtain ⟨i', hi', hop, -⟩ := hs.entries.entry hi hfirst hplain
  refine ⟨?_, by rw [Body.place_succ hi, hops]; rfl⟩
  rw [HasOp, show b'.instrs[Body.place b.instrs o]? = some i' from hi', Option.map_some, hop]

/-- A dispatcher stays one. -/
theorem Spells.dispatches (hi : b.instrs[o]? = some i) (hdispatch : i.op.isDispatch = true) :
    ∃ states, b'.HasOp (Body.place b.instrs o) (.resumeDispatch states) := by
  obtain ⟨i', hi', hdispatch'⟩ := hs.entries.dispatcher hi hdispatch
  obtain ⟨states, hop⟩ : ∃ states, i'.op = .resumeDispatch states := by
    revert hdispatch'
    cases i'.op <;> intro h <;> first | exact ⟨_, rfl⟩ | cases h
  exact ⟨states, by rw [HasOp, hi', Option.map_some, hop]⟩

/-- At the place of an entry, operations enter the block. -/
theorem Spells.enters (hi : b.instrs[o]? = some i) (hop : i.op = .setupWith h) :
    b'.Enters (Body.place b.instrs o) (Body.place b.instrs h)
      ∧ Body.place b.instrs (o + 1) = Body.place b.instrs o + 6 := by
  refine ⟨fun {j op} hj => ?_, by rw [Body.place_succ hi, hop]; rfl⟩
  have hmoved : (Body.expandOp (.setupWith h)).map (Op.retarget (Body.place b.instrs))
      = Body.expandOp (.setupWith (Body.place b.instrs h)) := rfl
  rw [← hmoved, List.getElem?_map, Option.map_eq_some_iff] at hj
  obtain ⟨op₀, hj, rfl⟩ := hj
  obtain ⟨hplain, -⟩ := Body.expandOp_plain (List.mem_of_getElem? hj)
  obtain ⟨i', hi', hop', -⟩ := hs.entries.entry hi (hop ▸ hj) hplain
  rw [HasOp, hi', Option.map_some, hop']

/-- From the place of an offset, the ways lead to the places of its successors. -/
theorem Spells.ways (hb' : b'.Accepted ty') (hi : b.instrs[o]? = some i)
    (hform : b'.FormAt (Body.place b.instrs o) d (bs.map (Block.retarget (Body.place b.instrs))))
    {ws : List (Successor × Nat × List Block)} (hm : i.op.moves d bs = some ws)
    {succ : Successor} {d' : Nat} {bs' : List Block} (hw : (succ, d', bs') ∈ ws) :
    b'.FormAt (Body.place b.instrs (succ.target o)) d'
      (bs'.map (Block.retarget (Body.place b.instrs))) := by
  cases hdispatch : i.op.isDispatch with
  | true =>
    -- the states of a dispatcher are not among its ways
    obtain ⟨states, hop'⟩ := hs.dispatches hi hdispatch
    obtain ⟨ws', hm', hall⟩ := hform.ways hb' hop'
    have hsucc : Body.place b.instrs (o + 1) = Body.place b.instrs o + 1 := by
      rw [Body.place_succ hi, Body.expandOp_of_isWith (Body.isWith_of_isDispatch hdispatch)]
      rfl
    cases hop : i.op with
    | resumeDispatch _ =>
      rw [hop] at hm
      cases hm
      cases hm'
      cases List.mem_singleton.mp hw
      rw [Successor.target, hsucc]
      exact hall (.head _)
    | _ =>
      rw [hop] at hdispatch
      cases hdispatch
  | false =>
    cases hwith : i.op.isWith with
    | true =>
      obtain ⟨h, hop⟩ := Op.exists_of_isWith hwith
      obtain ⟨henters, hsucc⟩ := hs.enters hi hop
      obtain ⟨-, hbody, hhandler⟩ := henters.forms hb' hform
      rw [hop, Op.moves, Option.ite_none_right_eq_some] at hm
      obtain ⟨-, hm⟩ := hm
      cases hm
      simp only [List.mem_cons, Prod.mk.injEq, List.not_mem_nil, or_false] at hw
      rcases hw with ⟨rfl, rfl, rfl⟩ | ⟨rfl, rfl, rfl⟩
      · rw [Successor.target, hsucc]
        exact hbody
      · exact hhandler
    | false =>
      obtain ⟨hop', hsucc⟩ := hs.kept hi hdispatch hwith
      obtain ⟨ws', hm', hall⟩ := hform.ways hb' hop'
      rw [Op.moves_retarget, hm, Option.map_some] at hm'
      cases hm'
      have hmem := hall (List.mem_map.mpr ⟨_, hw, rfl⟩)
      cases succ with
      | next =>
        rw [Successor.target, hsucc]
        exact hmem
      | jump t => exact hmem

/-- **The form at the place of an offset** is that at the offset. -/
theorem FormAt.spelled (hb : b.Accepted ty) (hb' : b'.Accepted ty') (hform : b.FormAt o d bs) :
    b'.FormAt (Body.place b.instrs o) d (bs.map (Block.retarget (Body.place b.instrs))) := by
  obtain ⟨hlive, rfl, rfl⟩ := hform
  have hreach := (hb.solves.live o).mp hlive
  clear hlive
  induction hreach with
  | refl =>
    have hentry := (hb.solves.entry rfl).2
    obtain ⟨hlive', hentry'⟩ := hb'.solves.entry rfl
    rw [← hentry.depth, ← hentry.blocks]
    exact ⟨hlive', hentry'.depth.symm, hentry'.blocks.symm⟩
  | @tail o t hreach hstep ih =>
    have hlive := (hb.solves.live o).mpr hreach
    obtain ⟨i, hi, ⟨tr, htr, w, hw, rfl⟩ | ⟨hmay, u, hu, rfl⟩⟩ := hstep
    · obtain ⟨ws, hm, hall⟩ := hb.solves.moves hi hlive
      have hmem : (w.1, w.2.depth, w.2.blocks) ∈ ws := by
        rw [Option.some.inj (hm.symm.trans (Op.effect_follows htr).1)]
        exact List.mem_map.mpr ⟨w, hw, rfl⟩
      obtain ⟨-, hdepth, hblocks⟩ := hall hmem
      rw [hdepth, hblocks]
      exact hs.ways hb' hi ih hm hmem
    · have haim := Caught.find?_aim (b.analysis.state o)
      rw [hu, Option.map_some, Option.map_eq_some_iff] at haim
      obtain ⟨caught, hfind, haim⟩ := haim
      simp only [Unwind.aim, Caught.aim, Prod.mk.injEq] at haim
      obtain ⟨-, hdepth, hblocks⟩ := FormAt.handler ⟨hlive, rfl, rfl⟩ hb hfind
      have hfind' := Caught.find?_retarget (Body.place b.instrs) (b.analysis.state o).blocks
      rw [hfind, Option.map_some] at hfind'
      rw [← haim.1, hdepth, hblocks]
      exact ih.handler hb' hfind'

/-- **An exception inside of an entry** goes where it goes from the entry that is not spelled out. -/
theorem Spells.region (hb : b.Accepted ty) (hb' : b'.Accepted ty') {p p' : Program}
    (hp : p.Of ty b) (hp' : p'.Of ty' b') (hi : b.instrs[o]? = some i) (hop : i.op = .setupWith h)
    (hlive : (b.analysis.state o).dead = false) (hj : j ≤ 5) :
    (Region.find? p'.regions (Body.place b.instrs o + j)).map Region.aim
      = (Region.find? p.regions o).map
        fun region => (Body.place b.instrs region.handler, region.level, region.restoreAt) := by
  have hform : b.FormAt o _ _ := ⟨hlive, rfl, rfl⟩
  obtain ⟨henters, -⟩ := hs.enters hi hop
  obtain ⟨d', hform'⟩ := (henters.forms hb' (hform.spelled hs hb hb')).inside j hj
  have haim := congrArg (Option.map fun x : Nat × Nat × Option Nat =>
    (Body.place b.instrs x.1, x.2)) (hform.region hb hp)
  rw [Option.map_map, Option.map_map] at haim
  rw [hform'.region hb' hp', Caught.find?_retarget, Option.map_map]
  exact haim.symm

end Spelled

end CompiledBody

end Stackwise
