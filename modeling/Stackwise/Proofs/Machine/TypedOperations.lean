import Stackwise.Proofs.Machine.Typing

/-!
# Operations on typed frames

Every operation takes a frame that fits the state before it to a frame that fits one of the states
that its effect has after it, but for results of which only the type model says what they are.

* `Op.vouched`: how many of the topmost values these are.
* `perform_tracks`, `operate_tracks`: what an operation does to a frame that fits its state.
-/

namespace Stackwise

/-! ## 1. Results that are vouched for -/

/-- The number of topmost values after an operation whose types rest on what the type model declares
of operators, methods, attributes and global names. -/
def Op.vouched : Op → Nat
  | .unary .not => 0
  | .unary _ | .binary _ _ | .binarySubscr | .compare _ | .getIter | .getYieldFromIter | .forIter _
  | .loadGlobal _ _ | .loadName _ _ | .loadAttr _ | .callFunction _ | .callFunctionKw _
  | .callFunctionEx _ | .callMethod _ | .setupWith _ | .withExceptStart => 1
  | .loadMethod _ => 2
  | _ => 0

/-- The number of topmost values for which an operation can have put others when it raises: a context
manager lies no longer on the stack while it is entered, but its exit method. -/
def Op.exchanges : Op → Nat
  | .setupWith _ => 1
  | _ => 0

/-! ## 2. Effects on states -/

namespace Op

variable {s s' : AbstractState} {o j : Nat} {tr : Transfer}

theorem pop_less {v : Slot} (h : s.pop o = .ok (v, s')) :
    1 ≤ s.depth ∧ s.stack[0]? = some v ∧ s' = s.less 1 := by
  obtain ⟨rest, hs, rfl⟩ := AbstractState.pop_eq_ok h
  rw [AbstractState.depth, AbstractState.less, hs]
  exact ⟨Nat.le_add_left _ _, rfl, rfl⟩

theorem peek_less {v : Slot} (h : s.peek j o = .ok v) : j < s.depth ∧ s.stack[j]? = some v := by
  refine ⟨AbstractState.peek_eq_ok h, ?_⟩
  unfold AbstractState.peek at h
  split at h
  · cases h
    assumption
  · cases h

theorem variable_less {vars : List (Option Slot)} {v : Option Slot}
    (h : AbstractState.variable_ vars j o = .ok v) : vars[j]? = some v := by
  unfold AbstractState.variable_ at h
  split at h
  · cases h
    assumption
  · cases h

theorem take_less (h : take j o s = .ok tr) : j ≤ s.depth ∧ tr = goOn (s.less j) := by
  obtain ⟨s', hd, rfl⟩ := map_eq_ok.mp h
  obtain ⟨hle, rfl⟩ := AbstractState.dropMany_eq_ok hd
  exact ⟨hle, rfl⟩

theorem makeOf_less {t : TypeId} (h : makeOf j o t s = .ok tr) :
    j ≤ s.depth ∧ tr = goOn ((s.less j).push (.value t)) := by
  obtain ⟨s', hd, rfl⟩ := map_eq_ok.mp h
  obtain ⟨hle, rfl⟩ := AbstractState.dropMany_eq_ok hd
  exact ⟨hle, rfl⟩

theorem mapTop_less {f : Slot → Slot} (h : mapTop f o s = .ok tr) :
    1 ≤ s.depth ∧ ∃ v, s.stack[0]? = some v ∧ tr = goOn ((s.less 1).push (f v)) := by
  obtain ⟨⟨v, s'⟩, hp, rfl⟩ := map_eq_ok.mp h
  obtain ⟨hle, hv, rfl⟩ := pop_less hp
  exact ⟨hle, v, hv, rfl⟩

theorem less_less (i j : Nat) : (s.less i).less j = s.less (i + j) := by
  simp only [AbstractState.less, List.drop_drop]

theorem depth_less (i : Nat) : (s.less i).depth = s.depth - i := List.length_drop

theorem mapTwo_less {f : Slot → Slot → Slot} (h : mapTwo f o s = .ok tr) :
    2 ≤ s.depth ∧ ∃ l r, s.stack[1]? = some l ∧ s.stack[0]? = some r
      ∧ tr = goOn ((s.less 2).push (f l r)) := by
  obtain ⟨⟨r, s₁⟩, hr, h⟩ := bind_eq_ok.mp h
  obtain ⟨⟨l, s₂⟩, hl, h⟩ := bind_eq_ok.mp h
  obtain ⟨-, hrhs, rfl⟩ := pop_less hr
  obtain ⟨hle, hlhs, rfl⟩ := pop_less hl
  cases h
  rw [depth_less] at hle
  rw [AbstractState.less, List.getElem?_drop] at hlhs
  exact ⟨by omega, l, r, hlhs, hrhs, by rw [less_less]⟩

theorem call_less {ty : Typer} {argc : Nat} (h : call ty argc o s = .ok tr) :
    argc + 1 ≤ s.depth ∧ ∃ slot, tr = goOn ((s.less (argc + 1)).push slot) := by
  obtain ⟨⟨args, s₁⟩, ha, h⟩ := bind_eq_ok.mp h
  obtain ⟨⟨callee, s₂⟩, hc, h⟩ := bind_eq_ok.mp h
  obtain ⟨-, rfl⟩ := AbstractState.popMany_eq_ok ha
  obtain ⟨hle, -, rfl⟩ := pop_less (s := s.less argc) hc
  cases h
  rw [depth_less] at hle
  exact ⟨by omega, _, by rw [less_less]⟩

theorem callKeywords_less {ty : Typer} {argc : Nat} {names : Option (List String)}
    (h : callKeywords ty argc o names s = .ok tr) :
    argc + 2 ≤ s.depth ∧ ∃ slot, tr = goOn ((s.less (argc + 2)).push slot) := by
  obtain ⟨⟨_, s₁⟩, hn, h⟩ := bind_eq_ok.mp h
  obtain ⟨⟨args, s₂⟩, ha, h⟩ := bind_eq_ok.mp h
  obtain ⟨⟨callee, s₃⟩, hc, h⟩ := bind_eq_ok.mp h
  obtain ⟨-, -, rfl⟩ := pop_less hn
  obtain ⟨-, rfl⟩ := AbstractState.popMany_eq_ok ha
  obtain ⟨hle, -, rfl⟩ := pop_less (s := (s.less 1).less argc) hc
  cases h
  rw [depth_less, depth_less] at hle
  exact ⟨by omega, _, by rw [less_less, less_less, show 1 + (argc + 1) = argc + 2 by omega]⟩

theorem callMethodSlots_less {ty : Typer} {argc : Nat} (h : callMethodSlots ty argc o s = .ok tr) :
    argc + 2 ≤ s.depth ∧ ∃ slot, tr = goOn ((s.less (argc + 2)).push slot) := by
  obtain ⟨⟨args, s₁⟩, ha, h⟩ := bind_eq_ok.mp h
  obtain ⟨⟨_, s₂⟩, hr, h⟩ := bind_eq_ok.mp h
  obtain ⟨⟨callee, s₃⟩, hc, h⟩ := bind_eq_ok.mp h
  obtain ⟨-, rfl⟩ := AbstractState.popMany_eq_ok ha
  obtain ⟨-, -, rfl⟩ := pop_less (s := s.less argc) hr
  obtain ⟨hle, -, rfl⟩ := pop_less hc
  cases h
  rw [depth_less, depth_less] at hle
  exact ⟨by omega, _, by rw [less_less, less_less]⟩

theorem callUnpacked_less {ty : Typer} {kwargs : Bool} (h : callUnpacked ty kwargs o s = .ok tr) :
    (if kwargs then 3 else 2) ≤ s.depth
      ∧ ∃ slot, tr = goOn ((s.less (if kwargs then 3 else 2)).push slot) := by
  have hrest : ∀ {k : Nat}, (do
      let args ← (s.less k).pop o
      let callee ← args.2.pop o
      return goOn (callee.2.push (ty.resolveCall callee.1 [] []).resultOfUnknown)) = .ok tr →
      k + 2 ≤ s.depth ∧ ∃ slot, tr = goOn ((s.less (k + 2)).push slot) := by
    intro k h
    obtain ⟨⟨_, s₁⟩, ha, h⟩ := bind_eq_ok.mp h
    obtain ⟨⟨callee, s₂⟩, hc, h⟩ := bind_eq_ok.mp h
    obtain ⟨-, -, rfl⟩ := pop_less ha
    obtain ⟨hle, -, rfl⟩ := pop_less hc
    cases h
    rw [depth_less, depth_less] at hle
    exact ⟨by omega, _, by rw [less_less, less_less]⟩
  cases kwargs with
  | false => exact hrest (k := 0) h
  | true =>
    obtain ⟨s₀, hm, h⟩ := bind_eq_ok.mp h
    obtain ⟨-, rfl⟩ := AbstractState.dropMany_eq_ok hm
    exact hrest (k := 1) h

end Op

/-! ## 3. Operations -/

/-- What a frame has to fit is the same in two states. -/
def AbstractState.Alike (s t : AbstractState) : Prop := s.stack = t.stack ∧ s.locals = t.locals

theorem Frame.Typed.alike {m : TypeModel} {p : Program} {f : Frame} {s t : AbstractState}
    (h : f.Typed m p s) (hst : s.Alike t) : f.Typed m p t :=
  ⟨h.program, hst.1 ▸ h.stack, hst.2 ▸ h.locals⟩

/-- Control goes on to the next operation in a state that the effect has for it, as far as it is not
vouched for. -/
def Op.GoesOn (op : Op) (tr : Transfer) (t : AbstractState) : Prop :=
  ∃ t', (.next, t') ∈ tr ∧ t.Alike (t'.vague op.vouched)

/-- The way on of an operation with one outcome. -/
theorem Op.goesOn_only {op : Op} {t t' : AbstractState} (h : t.Alike (t'.vague op.vouched)) :
    op.GoesOn (Op.goOn t') t :=
  ⟨t', .head _, h⟩

/-- Control goes where the effect says, in a state that it has for this way; a value that is returned
fits the declared type. -/
def Op.Lands (m : TypeModel) (returns : TypeId) (op : Op) (tr : Transfer) :
    Flow → AbstractState → Prop
  | .next, t => op.GoesOn tr t
  | .jump o, t => ∃ t', (.jump o, t') ∈ tr ∧ t.Alike t'
  | .leave v, _ => v.Fits m returns
  | .yields _, _ => False

namespace Machine

variable {m : TypeModel} {p : Program} {s : AbstractState} {ty : Typer} {op : Op} {o : Nat}
  {tr : Transfer} {lowering : Lowering}

theorem Tracks.of_plain {α : Type} {n : Nat} {x : FrameAction α} {post : α → AbstractState → Prop}
    (h : Tracks m p n { s with keywords := none } x { s with keywords := none } post) :
    Tracks m p n s x s post := by
  intro ctx hc f st hf
  have hx := h ctx hc f st ⟨hf.program, hf.stack, hf.locals⟩
  cases hres : x ctx ⟨f, st⟩ with
  | ok v a =>
    rw [hres] at hx
    exact hx
  | error e a =>
    rw [hres] at hx
    rcases hx with ⟨k, hleft⟩ | ⟨new, hlen, hleft⟩
    · exact .inl ⟨k, hleft.program, hleft.stack, hleft.locals⟩
    · exact .inr ⟨new, hlen, hleft.program, hleft.stack, hleft.locals⟩

theorem type_ofConstant (code : Nat) (path : List Nat) (c : Constant) (st : Store) :
    (Store.ofConstant code path st c).1.type = c.type := by
  cases c <;> rfl

theorem FitsAt.slot {k : Nat} {v : Value} {slot : Slot} (h : FitsAt m s k v)
    (hs : s.stack[k]? = some slot) : v.FitsSlot m slot := by
  obtain ⟨slot', hslot, hv⟩ := h
  rw [hs] at hslot
  cases hslot
  exact hv

theorem Tracks.goesOn {α : Type} {n : Nat} {x : FrameAction α} {s' t t' : AbstractState}
    (h : Tracks m p n s x s' fun _ u => u = t) (ht : t.Alike (t'.vague op.vouched)) :
    Tracks m p n s x s' fun _ u => op.GoesOn (Op.goOn t') u :=
  h.mono fun _ _ hu => hu ▸ Op.goesOn_only ht

/-- **An operation that only goes on** comes to the state that its effect has for it. -/
theorem perform_tracks {a : Nat × Nat} (ha : op.arity? = some a) (hs : op.isSwitch = false)
    {l c d : Nat} (hfit : op.Fits l c d) (hconst : p.code.constants = ty.constants)
    (he : op.effect ty o s = .ok tr) :
    Tracks m p op.exchanges s (perform op lowering) s fun _ t => op.GoesOn tr t := by
  apply Tracks.of_plain
  unfold Op.effect at he
  extract_lets plain at he
  change Tracks m p op.exchanges plain (perform op lowering) (plain.less 0) fun _ t => op.GoesOn tr t
  clear_value plain
  unfold perform
  cases op with
  | popTop =>
    obtain ⟨hd, rfl⟩ := Op.take_less he
    exact .bind (tracks_pop hd fun v _ => tracks_pure (Op.goesOn_only ⟨rfl, rfl⟩))
  | rotTwo | rotThree | rotFour | rotN _ =>
    obtain ⟨s', hr, rfl⟩ := map_eq_ok.mp he
    exact tracks_rotate hr (Op.goesOn_only ⟨rfl, rfl⟩)
  | dupTop =>
    obtain ⟨v, hv, rfl⟩ := map_eq_ok.mp he
    obtain ⟨hd, hslot⟩ := Op.peek_less hv
    exact .bind (tracks_peek hd fun w hw => tracks_push (hw.slot hslot)
      (Op.goesOn_only ⟨rfl, rfl⟩))
  | dupTopTwo =>
    obtain ⟨second, hsecond, he⟩ := bind_eq_ok.mp he
    obtain ⟨top, htop, he⟩ := bind_eq_ok.mp he
    cases he
    obtain ⟨hd, hslot⟩ := Op.peek_less hsecond
    obtain ⟨-, hslot'⟩ := Op.peek_less htop
    exact .bind (tracks_peek hd fun v hv => .bind (tracks_peek (by omega) fun w hw =>
      tracks_pushAll (.cons (hw.slot hslot') (.cons (hv.slot hslot) .nil))
        (Op.goesOn_only ⟨rfl, rfl⟩)))
  | nop | genStart _ =>
    cases he
    exact tracks_pure (Op.goesOn_only ⟨rfl, rfl⟩)
  | unary op =>
    cases op with
    | not =>
      obtain ⟨hd, v, -, rfl⟩ := Op.mapTop_less he
      refine .bind (tracks_pop hd fun v _ => tracks_result (fun ctx hc st w st' h => ?_)
        (Op.goesOn_only ⟨rfl, rfl⟩))
      obtain ⟨b, st₁, -, h⟩ := run_bind_eq_ok.mp h
      cases h
      exact Value.fits_of_type rfl
    | positive | negative | invert =>
      obtain ⟨hd, v, -, rfl⟩ := Op.mapTop_less he
      exact .bind (tracks_pop hd fun v _ => tracks_vouched (Op.goesOn_only ⟨rfl, rfl⟩))
  | binary _ _ | binarySubscr | compare _ =>
    obtain ⟨hd, l, r, -, -, rfl⟩ := Op.mapTwo_less he
    exact .bind (tracks_pop (by omega) fun r _ => .bind (tracks_pop (by omega) fun l _ =>
      tracks_vouched (Op.goesOn_only ⟨rfl, rfl⟩)))
  | storeSubscr =>
    obtain ⟨hd, rfl⟩ := Op.take_less he
    exact .bind (tracks_pop (by omega) fun key _ => .bind (tracks_pop (by omega) fun container _ =>
      .bind (tracks_pop (by omega) fun v _ => tracks_lift fun _ => Op.goesOn_only ⟨rfl, rfl⟩)))
  | deleteSubscr | storeAttr _ =>
    obtain ⟨hd, rfl⟩ := Op.take_less he
    exact .bind (tracks_pop (by omega) fun _ _ => .bind (tracks_pop (by omega) fun _ _ =>
      tracks_lift fun _ => Op.goesOn_only ⟨rfl, rfl⟩))
  | isOp _ =>
    obtain ⟨hd, rfl⟩ := Op.makeOf_less he
    exact .bind (tracks_pop (by omega) fun r _ => .bind (tracks_pop (by omega) fun l _ =>
      tracks_push (Value.fits_of_type rfl) (Op.goesOn_only ⟨rfl, rfl⟩)))
  | containsOp _ =>
    obtain ⟨hd, rfl⟩ := Op.makeOf_less he
    exact .bind (tracks_pop (by omega) fun r _ => .bind (tracks_pop (by omega) fun l _ =>
      .bind (tracks_lift fun b => tracks_push (Value.fits_of_type rfl)
        (Op.goesOn_only ⟨rfl, rfl⟩))))
  | getIter | getYieldFromIter | loadAttr _ =>
    obtain ⟨hd, v, -, rfl⟩ := Op.mapTop_less he
    exact .bind (tracks_pop hd fun v _ => tracks_vouched (Op.goesOn_only ⟨rfl, rfl⟩))
  | loadConst i =>
    cases he
    refine .bind (tracks_frame fun f hf => ?_)
    dsimp only
    split
    · rename_i constant hc
      rw [hf.program, hconst] at hc
      refine .bind (tracks_yields (yields_make (type_ofConstant _ _ constant))
        (fun _ => remains_less) fun v hv => tracks_push ?_ (Op.goesOn_only ⟨rfl, rfl⟩))
      rw [Value.FitsSlot, Typer.constSlot, hc]
      exact Value.fits_of_type hv
    · exact tracks_broken
  | loadFast i =>
    obtain ⟨x, hx, he⟩ := bind_eq_ok.mp he
    cases he
    exact .bind (tracks_getLocal (Op.variable_less hx) fun v hv =>
      tracks_push hv (Op.goesOn_only ⟨rfl, rfl⟩))
  | storeFast i =>
    obtain ⟨⟨slot, s'⟩, hpop, he⟩ := bind_eq_ok.mp he
    obtain ⟨locals, hlocals, he⟩ := bind_eq_ok.mp he
    cases he
    obtain ⟨hd, hslot, rfl⟩ := Op.pop_less hpop
    refine .bind (tracks_pop hd fun v hv => tracks_setLocal hlocals ?_
      (Op.goesOn_only ⟨rfl, rfl⟩))
    intro w hw x hx
    cases hw
    cases hx
    exact hv.slot hslot
  | deleteFast i =>
    obtain ⟨locals, hlocals, he⟩ := bind_eq_ok.mp he
    cases he
    obtain ⟨x, hx⟩ : ∃ x, plain.locals[i]? = some x :=
      ⟨_, List.getElem?_eq_getElem (AbstractState.setVariable_eq_ok hlocals).1⟩
    refine .bind (tracks_getLocal hx fun v _ => tracks_setLocal hlocals ?_
      (Op.goesOn_only ⟨rfl, rfl⟩))
    intro w hw
    cases hw
  | loadDeref _ | loadClassDeref _ =>
    obtain ⟨x, -, he⟩ := bind_eq_ok.mp he
    cases he
    exact .bind (tracks_getCell fun v => tracks_push (Value.fitsSlot_object m v)
      (Op.goesOn_only ⟨rfl, rfl⟩))
  | storeDeref _ =>
    obtain ⟨⟨slot, s'⟩, hpop, he⟩ := bind_eq_ok.mp he
    obtain ⟨cells, -, he⟩ := bind_eq_ok.mp he
    cases he
    obtain ⟨hd, -, rfl⟩ := Op.pop_less hpop
    exact .bind (tracks_pop hd fun v _ => .bind (tracks_cellAt fun r =>
      tracks_lift fun _ => Op.goesOn_only ⟨rfl, rfl⟩))
  | deleteDeref _ =>
    obtain ⟨cells, -, he⟩ := bind_eq_ok.mp he
    cases he
    exact .bind (tracks_getCell fun v => .bind (tracks_cellAt fun r =>
      tracks_lift fun _ => Op.goesOn_only ⟨rfl, rfl⟩))
  | loadClosure _ =>
    obtain ⟨x, -, he⟩ := bind_eq_ok.mp he
    cases he
    exact .bind (tracks_cellAt fun r => tracks_push (Value.fits_of_type rfl)
      (Op.goesOn_only ⟨rfl, rfl⟩))
  | loadGlobal _ _ | loadName _ _ =>
    cases he
    exact .bind (tracks_frame fun f _ => tracks_vouched (Op.goesOn_only ⟨rfl, rfl⟩))
  | storeGlobal _ | storeName _ =>
    obtain ⟨hd, rfl⟩ := Op.take_less he
    exact .bind (tracks_pop hd fun v _ => tracks_lift fun _ => Op.goesOn_only ⟨rfl, rfl⟩)
  | deleteGlobal _ | deleteName _ =>
    cases he
    exact tracks_lift fun _ => Op.goesOn_only ⟨rfl, rfl⟩
  | deleteAttr _ =>
    obtain ⟨hd, rfl⟩ := Op.take_less he
    exact .bind (tracks_pop hd fun v _ => .bind (tracks_lift fun _ => tracks_raiseText))
  | loadMethod _ =>
    obtain ⟨⟨receiver, s'⟩, hpop, he⟩ := bind_eq_ok.mp he
    cases he
    obtain ⟨hd, -, rfl⟩ := Op.pop_less hpop
    exact .bind (tracks_pop hd fun receiver _ => .bind (tracks_lift fun method =>
      tracks_pushAll (.cons (Value.fitsSlot_object m receiver)
        (.cons (Value.fitsSlot_object m method) .nil)) (Op.goesOn_only ⟨rfl, rfl⟩)))
  | loadAssertionError =>
    cases he
    exact tracks_push (Value.fits_of_type rfl) (Op.goesOn_only ⟨rfl, rfl⟩)
  | loadBuildClass | importName _ | importFrom _ | importStar | setupAnnotations =>
    exact tracks_raiseText
  | printExpr =>
    obtain ⟨hd, rfl⟩ := Op.take_less he
    refine .bind (tracks_pop hd fun v _ => ?_)
    split
    · exact tracks_pure (Op.goesOn_only ⟨rfl, rfl⟩)
    · exact .bind (tracks_lift fun text => tracks_lift fun _ => Op.goesOn_only ⟨rfl, rfl⟩)
  | build shape j =>
    obtain ⟨hd, rfl⟩ := Op.makeOf_less he
    refine .bind ((tracks_build hd fun hshape => ?_).mono fun v t ht => ?_)
    · subst hshape
      exact hfit
    · obtain ⟨rfl, hv⟩ := ht
      have hfits : v.FitsSlot m (.value shape.type) := Value.fits_of_type hv
      exact tracks_push hfits (Op.goesOn_only ⟨rfl, rfl⟩)
  | listToTuple =>
    obtain ⟨hd, rfl⟩ := Op.makeOf_less he
    exact .bind (tracks_pop hd fun v _ => .bind (tracks_lift fun items =>
      tracks_new (fun _ => rfl) (Op.goesOn_only ⟨rfl, rfl⟩)))
  | update kind depth =>
    obtain ⟨s', hdrop, he⟩ := bind_eq_ok.mp he
    obtain ⟨v, hpeek, he⟩ := bind_eq_ok.mp he
    cases he
    obtain ⟨-, rfl⟩ := AbstractState.dropMany_eq_ok hdrop
    have hlt := AbstractState.peek_eq_ok hpeek
    rw [AbstractState.depth, List.length_drop, ← AbstractState.depth] at hlt
    exact (tracks_update (by omega)).goesOn ⟨rfl, rfl⟩
  | unpackSequence j =>
    obtain ⟨⟨v, s'⟩, hpop, rfl⟩ := map_eq_ok.mp he
    obtain ⟨hd, -, rfl⟩ := Op.pop_less hpop
    exact (tracks_unpackSequence hd).goesOn ⟨rfl, rfl⟩
  | unpackEx before after =>
    obtain ⟨⟨v, s'⟩, hpop, he⟩ := bind_eq_ok.mp he
    cases he
    obtain ⟨hd, -, rfl⟩ := Op.pop_less hpop
    exact (tracks_unpackEx hd).goesOn ⟨rfl, rfl⟩
  | formatValue flags =>
    obtain ⟨hd, rfl⟩ := Op.makeOf_less he
    exact (tracks_formatTop hd).goesOn ⟨rfl, rfl⟩
  | callFunction argc =>
    obtain ⟨hd, slot, rfl⟩ := Op.call_less he
    exact (tracks_callTop hd).goesOn ⟨rfl, rfl⟩
  | callFunctionKw argc =>
    obtain ⟨hd, slot, rfl⟩ := Op.callKeywords_less he
    exact (tracks_callKeywords hd).goesOn ⟨rfl, rfl⟩
  | callFunctionEx kwargs =>
    obtain ⟨hd, slot, rfl⟩ := Op.callUnpacked_less he
    exact (tracks_callUnpacked hd).goesOn ⟨rfl, rfl⟩
  | callMethod argc =>
    obtain ⟨hd, slot, rfl⟩ := Op.callMethodSlots_less he
    exact (tracks_callMethodTop hd).goesOn ⟨rfl, rfl⟩
  | makeFunction flags =>
    obtain ⟨hd, rfl⟩ := Op.makeOf_less he
    exact (tracks_makeFunction hd).goesOn ⟨rfl, rfl⟩
  | withExceptStart =>
    obtain ⟨exit, hexit, he⟩ := bind_eq_ok.mp he
    obtain ⟨args, -, he⟩ := bind_eq_ok.mp he
    cases he
    have hd := AbstractState.peek_eq_ok hexit
    exact .bind (tracks_peek (by omega) fun exit _ => .bind (tracks_peek (by omega) fun type _ =>
      .bind (tracks_peek (by omega) fun value _ => .bind (tracks_peek (by omega) fun traceback _ =>
        tracks_vouched (Op.goesOn_only ⟨rfl, rfl⟩)))))
  | yieldValue | yieldFrom => exact tracks_broken
  | loadSpecial name =>
    obtain ⟨hd, v, -, rfl⟩ := Op.mapTop_less he
    refine .bind (tracks_pop hd fun v _ => tracks_result (fun ctx hc st w st' h => ?_)
      (Op.goesOn_only ⟨rfl, rfl⟩))
    exact Value.fits_of_type (yields_special v name ctx hc st w st' h)
  | suspend _ | resumePoint _ | resumeDispatch _ => cases hs
  | forIter _ | jump _ | popJumpIf _ _ | jumpIfOrPop _ _ | jumpIfNotExcMatch _ | returnValue
  | setupFinally _ _ _ | setupWith _ | popBlock | popExcept | reraise _ | raiseVarargs _
  | delegate _ _ => cases ha

/-- A value that is returned as it is fits the declared type. -/
theorem fits_of_unchecked (hm : m.ExtendsBuiltins) (hty : ty.model = m) {returns : TypeId}
    {v : Value} (hv : FitsAt m s 0 v) (hunchecked : Op.returnChecked ty s returns = false) :
    v.Fits m returns := by
  obtain ⟨slot, hslot, hv⟩ := hv
  unfold Op.returnChecked at hunchecked
  split at hunchecked
  · rename_i top rest hstack
    rw [hstack] at hslot
    cases hslot
    rw [Bool.and_eq_false_iff, bne_eq_false_iff_eq, Bool.not_eq_false', hty] at hunchecked
    rcases hunchecked with rfl | hsub
    · exact Value.fits_object m v
    · exact Value.Fits.mono hm hv hsub
  · cases hunchecked

/-- **What an operation does to a frame that fits its state.** -/
theorem operate_tracks (hm : m.ExtendsBuiltins) (hty : ty.model = m)
    (hconst : p.code.constants = ty.constants) (hs : op.isSwitch = false) {l c d : Nat}
    (hfit : op.Fits l c d) (he : op.effect ty o s = .ok tr) :
    Tracks m p op.exchanges s (operate op (op.lowering ty s p.signature.returns)) s
      (op.Lands m p.signature.returns tr) := by
  cases ha : op.arity? with
  | some a =>
    rw [operate_of_arity ha hs]
    exact .bind ((perform_tracks ha hs hfit hconst he).mono fun _ t ht => tracks_pure ht)
  | none =>
    apply Tracks.of_plain
    have hchecked : Op.returnChecked ty { s with keywords := none } p.signature.returns
        = Op.returnChecked ty s p.signature.returns := rfl
    unfold Op.effect at he
    extract_lets plain at he
    change Op.returnChecked ty plain p.signature.returns = _ at hchecked
    change Tracks m p op.exchanges plain _ (plain.less 0) _
    clear_value plain
    unfold operate
    cases op with
    | forIter exit =>
      obtain ⟨⟨it, rest⟩, hpop, he⟩ := bind_eq_ok.mp he
      cases he
      obtain ⟨hd, -, rfl⟩ := Op.pop_less hpop
      refine .bind (tracks_peek hd fun v _ => .bind (tracks_lift fun item => ?_))
      cases item with
      | some v =>
        exact .bind (tracks_push (Value.fitsSlot_object m v)
          (tracks_pure ⟨_, .head _, ⟨rfl, rfl⟩⟩))
      | none =>
        exact .bind (tracks_pop hd fun _ _ => tracks_pure ⟨_, .tail _ (.head _), ⟨rfl, rfl⟩⟩)
    | jump target =>
      cases he
      exact tracks_pure ⟨_, .head _, ⟨rfl, rfl⟩⟩
    | popJumpIf on target =>
      obtain ⟨⟨v, rest⟩, hpop, rfl⟩ := map_eq_ok.mp he
      obtain ⟨hd, -, rfl⟩ := Op.pop_less hpop
      refine .bind (tracks_pop hd fun v _ => .bind (tracks_lift fun b => ?_))
      split
      · exact tracks_pure ⟨_, .tail _ (.head _), ⟨rfl, rfl⟩⟩
      · exact tracks_pure ⟨_, .head _, ⟨rfl, rfl⟩⟩
    | jumpIfOrPop on target =>
      obtain ⟨⟨v, rest⟩, hpop, rfl⟩ := map_eq_ok.mp he
      obtain ⟨hd, -, rfl⟩ := Op.pop_less hpop
      refine .bind (tracks_peek hd fun v _ => .bind (tracks_lift fun b => ?_))
      split
      · exact tracks_pure ⟨_, .tail _ (.head _), ⟨rfl, rfl⟩⟩
      · exact .bind (tracks_pop hd fun _ _ => tracks_pure ⟨_, .head _, ⟨rfl, rfl⟩⟩)
    | jumpIfNotExcMatch target =>
      obtain ⟨rest, hdrop, rfl⟩ := map_eq_ok.mp he
      obtain ⟨hd, rfl⟩ := AbstractState.dropMany_eq_ok hdrop
      refine .bind (tracks_pop (by omega) fun handler _ => .bind (tracks_pop (by omega)
        fun raised _ => .bind (tracks_lift fun b => ?_)))
      split
      · exact tracks_pure ⟨_, .head _, ⟨rfl, rfl⟩⟩
      · exact tracks_pure ⟨_, .tail _ (.head _), ⟨rfl, rfl⟩⟩
    | returnValue =>
      obtain ⟨⟨v, rest⟩, hpop, rfl⟩ := map_eq_ok.mp he
      obtain ⟨hd, -, -⟩ := Op.pop_less hpop
      refine .bind (tracks_pop hd fun v hv => ?_)
      simp only [Op.lowering]
      cases hreturn : Op.returnChecked ty s p.signature.returns with
      | true =>
        refine .bind (tracks_frame fun f hf => .bind (tracks_yields (yields_checkReturn f.program v)
          (fun _ => remains_less) fun w hw => tracks_pure ?_))
        rw [hf.program] at hw
        exact .inl hw
      | false => exact tracks_pure (fits_of_unchecked hm hty hv (hchecked.trans hreturn))
    | reraise _ =>
      obtain ⟨rest, hdrop, rfl⟩ := map_eq_ok.mp he
      obtain ⟨hd, -⟩ := AbstractState.dropMany_eq_ok hdrop
      exact .bind (tracks_reraised hd fun e => tracks_throw)
    | raiseVarargs j =>
      obtain ⟨rest, hdrop, rfl⟩ := map_eq_ok.mp he
      obtain ⟨hd, -⟩ := AbstractState.dropMany_eq_ok hdrop
      exact .bind (tracks_raisedBy hd fun e k => tracks_throw)
    | setupFinally handler kind reserve =>
      change Op.openBlock handler kind reserve o plain = .ok tr at he
      unfold Op.openBlock at he
      split at he
      · cases he
      · obtain ⟨taken, -, he⟩ := bind_eq_ok.mp he
        cases he
        exact .bind (tracks_pure (tracks_pure ⟨_, .head _, ⟨rfl, rfl⟩⟩))
    | setupWith handler =>
      obtain ⟨⟨manager, s'⟩, hpop, he⟩ := bind_eq_ok.mp he
      obtain ⟨taken, -, he⟩ := bind_eq_ok.mp he
      cases he
      obtain ⟨hd, -, rfl⟩ := Op.pop_less hpop
      refine .bind ((tracks_enterWith hd (.method manager.runtimeType "__exit__") rfl).mono
        fun _ t ht => tracks_pure ⟨_, .head _, ?_⟩)
      subst ht
      exact ⟨rfl, rfl⟩
    | popBlock =>
      change Op.closeBlock o plain = .ok tr at he
      unfold Op.closeBlock at he
      split at he
      · cases he
        exact .bind (tracks_pure (tracks_pure ⟨_, .head _, ⟨rfl, rfl⟩⟩))
      · cases he
    | popExcept =>
      change Op.leaveHandler o plain = .ok tr at he
      unfold Op.leaveHandler at he
      split at he
      · obtain ⟨hd, rfl⟩ := Op.take_less he
        refine .bind (.bind (tracks_popMany (by rw [Nat.zero_add]; exact hd) fun vs =>
          tracks_updateFrame (plain.less 3) (fun f hf => ⟨hf.program, hf.stack, hf.locals⟩) ?_))
        exact tracks_pure ⟨_, .head _, ⟨rfl, rfl⟩⟩
      · cases he
    | delegate _ _ => cases hs
    | _ => cases ha

end Machine

end Stackwise
