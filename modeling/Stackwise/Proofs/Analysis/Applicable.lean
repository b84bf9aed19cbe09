import Stackwise.Proofs.Analysis.Form

/-!
# When an operation has an effect

The table of `Op.moves` says what an effect does to the form of a state. Here it is read the other
way: where the table has an entry, there is an effect, but for the variables that the operation
names.

* `Op.Apt`: what an operation needs besides values on the stack and open blocks.
* `Op.apt_of_effect`: an operation that has an effect is apt.
* `Op.exists_effect`: an apt operation has an effect wherever the table has an entry.
* `AbstractState.exists_exceptionState`: an exception finds the state of its handler if the stack
  reaches up to the level of the block.
-/

namespace Stackwise

namespace AbstractState

variable {s : AbstractState} {o n : Nat}

/-! ## 1. Reading and changing states -/

theorem exists_pop (h : 1 ≤ s.depth) :
    ∃ v rest, s.stack = v :: rest ∧ s.pop o = .ok (v, { s with stack := rest }) := by
  cases hs : s.stack with
  | nil =>
    rw [depth, hs] at h
    cases h
  | cons v rest => exact ⟨v, rest, rfl, by rw [pop, hs]⟩

/-- Two values on the stack, one after the other. -/
theorem exists_popTwo (h : 2 ≤ s.depth) : ∃ v w rest, s.stack = v :: w :: rest
    ∧ s.pop o = .ok (v, { s with stack := w :: rest })
    ∧ ({ s with stack := w :: rest } : AbstractState).pop o = .ok (w, { s with stack := rest }) := by
  obtain ⟨v, rest, hs, hp⟩ := exists_pop (o := o) (Nat.le_of_succ_le h)
  rw [depth, hs, List.length_cons] at h
  cases rest with
  | nil => exact absurd h (by simp)
  | cons w rest => exact ⟨v, w, rest, hs, hp, rfl⟩

theorem exists_popMany (h : n ≤ s.depth) :
    ∃ vs, s.popMany n o = .ok (vs, { s with stack := s.stack.drop n }) := ⟨_, if_pos h⟩

theorem dropMany_eq (h : n ≤ s.depth) : s.dropMany n o = .ok { s with stack := s.stack.drop n } := by
  obtain ⟨vs, hp⟩ := exists_popMany (o := o) h
  rw [dropMany, hp]
  rfl

theorem exists_peek (h : n < s.depth) : ∃ v, s.peek n o = .ok v := by
  refine ⟨s.stack[n], ?_⟩
  rw [peek, List.getElem?_eq_getElem h]

theorem exists_rotate (hn : n ≠ 0) (h : n ≤ s.depth) : ∃ s', s.rotate n o = .ok s' := by
  obtain ⟨v, rest, hs, -⟩ := exists_pop (o := o) (Nat.le_trans (Nat.one_le_iff_ne_zero.mpr hn) h)
  rw [rotate, if_neg (by omega), hs]
  exact ⟨_, rfl⟩

theorem exists_truncate {level : Nat} (h : level ≤ s.depth) : ∃ s', s.truncate level o = .ok s' :=
  ⟨_, if_pos h⟩

theorem exists_variable {vars : List (Option Slot)} {i : Nat} (h : i < vars.length) :
    ∃ v, variable_ vars i o = .ok v := by
  refine ⟨vars[i], ?_⟩
  rw [variable_, List.getElem?_eq_getElem h]

theorem exists_setVariable {vars : List (Option Slot)} {i : Nat} (v : Option Slot)
    (h : i < vars.length) : ∃ vars', setVariable vars i o v = .ok vars' := ⟨_, if_pos h⟩

/-- **An exception finds the state of its handler** if the stack reaches up to the level of the
block. -/
theorem exists_exceptionState (h : ∀ u, s.unwind? = some u → u.level ≤ s.depth) :
    ∃ x, s.exceptionState? o = .ok x := by
  unfold exceptionState?
  cases hu : s.unwind? with
  | none => exact ⟨none, rfl⟩
  | some u =>
    obtain ⟨cut, hcut⟩ := exists_truncate (s := { s with blocks := outerBlocks s.blocks }) (o := o)
      (h u hu)
    exact ⟨_, bind_eq_ok.mpr ⟨cut, hcut, rfl⟩⟩

end AbstractState

/-! ## 2. Operations that only go on -/

namespace Op

open AbstractState

variable {ty : Typer} {s : AbstractState} {o n : Nat}

/-- The variables that an operation names exist, and a rotation turns something. -/
def Apt (locals cells : Nat) : Op → Prop
  | .loadFast i | .storeFast i | .deleteFast i => i < locals
  | .loadDeref i | .loadClassDeref i | .storeDeref i | .deleteDeref i | .loadClosure i => i < cells
  | .rotN n => n ≠ 0
  | _ => True

theorem exists_take (h : n ≤ s.depth) : ∃ t, take n o s = .ok t :=
  ⟨_, map_eq_ok.mpr ⟨_, dropMany_eq h, rfl⟩⟩

theorem exists_makeOf (t : TypeId) (h : n ≤ s.depth) : ∃ tr, makeOf n o t s = .ok tr :=
  ⟨_, map_eq_ok.mpr ⟨_, dropMany_eq h, rfl⟩⟩

theorem exists_mapTop (f : Slot → Slot) (h : 1 ≤ s.depth) : ∃ t, mapTop f o s = .ok t := by
  obtain ⟨v, rest, -, hp⟩ := exists_pop (o := o) h
  exact ⟨_, map_eq_ok.mpr ⟨_, hp, rfl⟩⟩

theorem exists_mapTwo (f : Slot → Slot → Slot) (h : 2 ≤ s.depth) : ∃ t, mapTwo f o s = .ok t := by
  obtain ⟨v, w, rest, -, hv, hw⟩ := exists_popTwo (o := o) h
  exact ⟨_, bind_eq_ok.mpr ⟨_, hv, bind_eq_ok.mpr ⟨_, hw, rfl⟩⟩⟩

theorem exists_rotated (hn : n ≠ 0) (h : n ≤ s.depth) : ∃ t, (s.rotate n o).map goOn = .ok t := by
  obtain ⟨s', hr⟩ := exists_rotate (o := o) hn h
  exact ⟨_, map_eq_ok.mpr ⟨s', hr, rfl⟩⟩

theorem exists_peeked (f : Slot → Transfer) (h : n < s.depth) :
    ∃ t, (s.peek n o).map f = .ok t := by
  obtain ⟨v, hv⟩ := exists_peek (o := o) h
  exact ⟨_, map_eq_ok.mpr ⟨v, hv, rfl⟩⟩

theorem exists_popped (f : Slot × AbstractState → Transfer) (h : 1 ≤ s.depth) :
    ∃ t, (s.pop o).map f = .ok t := by
  obtain ⟨v, rest, -, hp⟩ := exists_pop (o := o) h
  exact ⟨_, map_eq_ok.mpr ⟨_, hp, rfl⟩⟩

theorem exists_dropped (f : AbstractState → Transfer) (h : n ≤ s.depth) :
    ∃ t, (s.dropMany n o).map f = .ok t :=
  ⟨_, map_eq_ok.mpr ⟨_, dropMany_eq h, rfl⟩⟩

theorem exists_call (h : n + 1 ≤ s.depth) : ∃ t, call ty n o s = .ok t := by
  obtain ⟨args, ha⟩ := exists_popMany (o := o) (Nat.le_of_succ_le h)
  obtain ⟨callee, rest, -, hc⟩ := exists_pop (s := { s with stack := s.stack.drop n }) (o := o)
    (by simp only [depth, List.length_drop] at h ⊢; omega)
  exact ⟨_, bind_eq_ok.mpr ⟨_, ha, bind_eq_ok.mpr ⟨_, hc, rfl⟩⟩⟩

theorem exists_callKeywords (kw : Option (List String)) (h : n + 2 ≤ s.depth) :
    ∃ t, callKeywords ty n o kw s = .ok t := by
  obtain ⟨names, rest, hs, hn⟩ := exists_pop (o := o) (Nat.le_trans (Nat.le_add_left 1 _) h)
  rw [depth, hs, List.length_cons] at h
  obtain ⟨args, ha⟩ := exists_popMany (s := { s with stack := rest }) (n := n) (o := o)
    (by simp only [depth]; omega)
  obtain ⟨callee, rest', -, hc⟩ := exists_pop (s := { s with stack := rest.drop n }) (o := o)
    (by simp only [depth, List.length_drop]; omega)
  exact ⟨_, bind_eq_ok.mpr ⟨_, hn, bind_eq_ok.mpr ⟨_, ha, bind_eq_ok.mpr ⟨_, hc, rfl⟩⟩⟩⟩

theorem exists_callUnpacked (kwargs : Bool) (h : (if kwargs then 3 else 2) ≤ s.depth) :
    ∃ t, callUnpacked ty kwargs o s = .ok t := by
  cases kwargs with
  | false =>
    obtain ⟨v, w, rest, -, hv, hw⟩ := exists_popTwo (o := o) h
    exact ⟨_, bind_eq_ok.mpr ⟨_, rfl, bind_eq_ok.mpr ⟨_, hv, bind_eq_ok.mpr ⟨_, hw, rfl⟩⟩⟩⟩
  | true =>
    replace h : 3 ≤ s.depth := h
    obtain ⟨v, w, rest, -, hv, hw⟩ := exists_popTwo (s := { s with stack := s.stack.drop 1 })
      (o := o) (by simp only [depth, List.length_drop] at h ⊢; omega)
    have hdrop : s.dropMany 1 o = _ := dropMany_eq (Nat.le_trans (by decide) h)
    exact ⟨_, bind_eq_ok.mpr ⟨_, hdrop, bind_eq_ok.mpr ⟨_, hv, bind_eq_ok.mpr ⟨_, hw, rfl⟩⟩⟩⟩

theorem exists_callMethodSlots (h : n + 2 ≤ s.depth) : ∃ t, callMethodSlots ty n o s = .ok t := by
  obtain ⟨args, ha⟩ := exists_popMany (n := n) (o := o) (Nat.le_trans (Nat.le_add_right n 2) h)
  obtain ⟨v, w, rest, -, hv, hw⟩ := exists_popTwo (s := { s with stack := s.stack.drop n }) (o := o)
    (by simp only [depth, List.length_drop] at h ⊢; omega)
  exact ⟨_, bind_eq_ok.mpr ⟨_, ha, bind_eq_ok.mpr ⟨_, hv, bind_eq_ok.mpr ⟨_, hw, rfl⟩⟩⟩⟩

theorem exists_startExit (h : 7 ≤ s.depth) : ∃ t, startExit ty o s = .ok t := by
  obtain ⟨exit, hexit⟩ := exists_peek (o := o) (Nat.lt_of_succ_le h)
  obtain ⟨args, hargs⟩ : ∃ args, [0, 1, 2].mapM (fun n => s.peek n o) = .ok args :=
    exists_mapM_eq_ok fun n hn =>
      exists_peek (by simp only [List.mem_cons, List.not_mem_nil, or_false] at hn; omega)
  exact ⟨_, bind_eq_ok.mpr ⟨exit, hexit, bind_eq_ok.mpr ⟨args, hargs, rfl⟩⟩⟩

/-- An apt operation that only goes on has an effect if what it takes is there. -/
theorem exists_effect_of_arity {op : Op} {taken left : Nat} (ha : op.arity? = some (taken, left))
    (hapt : op.Apt s.locals.length s.cells.length) (h : taken ≤ s.depth) :
    ∃ t, effect ty o s op = .ok t := by
  unfold effect
  cases op with
  | popTop | storeGlobal _ | storeName _ | deleteAttr _ | importStar | printExpr | suspend _
  | storeSubscr | deleteSubscr | storeAttr _ =>
    cases ha
    exact exists_take h
  | isOp _ | containsOp _ | importName _ | build _ _ | listToTuple | formatValue _ | makeFunction _
  | yieldFrom =>
    cases ha
    exact exists_makeOf _ h
  | getIter | getYieldFromIter | loadAttr _ | yieldValue | loadSpecial _ =>
    cases ha
    exact exists_mapTop _ h
  | unary op =>
    cases ha
    cases op <;> exact exists_mapTop _ h
  | binary _ _ | binarySubscr | compare _ =>
    cases ha
    exact exists_mapTwo _ h
  | rotTwo | rotThree | rotFour =>
    cases ha
    exact exists_rotated (by decide) h
  | rotN _ =>
    cases ha
    exact exists_rotated hapt h
  | nop | genStart _ | setupAnnotations | resumeDispatch _ | deleteGlobal _ | deleteName _
  | loadConst _ | loadGlobal _ _ | loadName _ _ | loadBuildClass | loadAssertionError
  | resumePoint _ => exact ⟨_, rfl⟩
  | dupTop | importFrom _ =>
    cases ha
    exact exists_peeked _ h
  | dupTopTwo =>
    cases ha
    replace h : 2 ≤ ({ s with keywords := none } : AbstractState).depth := h
    obtain ⟨second, hsecond⟩ := exists_peek (o := o) (Nat.lt_of_succ_le h)
    obtain ⟨top, htop⟩ := exists_peek (o := o) (Nat.lt_of_lt_of_le Nat.zero_lt_two h)
    exact ⟨_, bind_eq_ok.mpr ⟨second, hsecond, bind_eq_ok.mpr ⟨top, htop, rfl⟩⟩⟩
  | loadFast _ | loadDeref _ | loadClassDeref _ | loadClosure _ =>
    obtain ⟨v, hv⟩ := exists_variable (o := o) hapt
    exact ⟨_, bind_eq_ok.mpr ⟨v, hv, rfl⟩⟩
  | storeFast _ | storeDeref _ =>
    cases ha
    obtain ⟨v, rest, -, hp⟩ :=
      exists_pop (s := { s with keywords := none }) (o := o) h
    obtain ⟨vars, hvars⟩ := exists_setVariable (o := o) (some v) hapt
    exact ⟨_, bind_eq_ok.mpr ⟨_, hp, bind_eq_ok.mpr ⟨vars, hvars, rfl⟩⟩⟩
  | deleteFast _ | deleteDeref _ =>
    obtain ⟨vars, hvars⟩ := exists_setVariable (o := o) none hapt
    exact ⟨_, bind_eq_ok.mpr ⟨vars, hvars, rfl⟩⟩
  | loadMethod _ | unpackEx _ _ =>
    cases ha
    obtain ⟨v, rest, -, hp⟩ :=
      exists_pop (s := { s with keywords := none }) (o := o) h
    exact ⟨_, bind_eq_ok.mpr ⟨_, hp, rfl⟩⟩
  | update kind depth =>
    cases ha
    have hdrop := dropMany_eq (s := { s with keywords := none }) (n := kind.taken) (o := o)
      (Nat.le_trans (Nat.le_add_right _ _) h)
    obtain ⟨v, hv⟩ := exists_peek
      (s := { s with keywords := none, stack := s.stack.drop kind.taken }) (n := depth - 1) (o := o)
      (by simp only [AbstractState.depth, List.length_drop] at h ⊢; omega)
    exact ⟨_, bind_eq_ok.mpr ⟨_, hdrop, bind_eq_ok.mpr ⟨v, hv, rfl⟩⟩⟩
  | unpackSequence _ =>
    cases ha
    exact exists_popped _ h
  | callFunction _ => cases ha; exact exists_call h
  | callFunctionKw _ => cases ha; exact exists_callKeywords _ h
  | callFunctionEx _ => cases ha; exact exists_callUnpacked _ h
  | callMethod _ => cases ha; exact exists_callMethodSlots h
  | withExceptStart => cases ha; exact exists_startExit h
  | forIter _ | jump _ | popJumpIf _ _ | jumpIfOrPop _ _ | jumpIfNotExcMatch _ | returnValue
  | setupFinally _ _ _ | setupWith _ | popBlock | popExcept | reraise _ | raiseVarargs _
  | delegate _ _ => cases ha

/-! ## 3. All operations -/

theorem exists_handlerEntry {level : Nat} (h : level ≤ s.depth) :
    ∃ s', handlerEntry s level o = .ok s' := by
  obtain ⟨cut, hcut⟩ := exists_truncate (o := o) h
  exact ⟨_, map_eq_ok.mpr ⟨cut, hcut, rfl⟩⟩

theorem exists_openBlock (handler : Nat) (kind : BlockKind) {reserve : Nat}
    (h : reserve ≤ s.depth) : ∃ t, openBlock handler kind reserve o s = .ok t := by
  obtain ⟨taken, htaken⟩ := exists_handlerEntry (s := s) (o := o) (Nat.sub_le s.depth reserve)
  rw [openBlock, if_neg (Nat.not_lt.mpr h)]
  exact ⟨_, bind_eq_ok.mpr ⟨taken, htaken, rfl⟩⟩

theorem exists_enterWith (handler : Nat) (h : 1 ≤ s.depth) :
    ∃ t, enterWith ty handler o s = .ok t := by
  obtain ⟨manager, rest, -, hp⟩ := exists_pop (o := o) h
  obtain ⟨taken, htaken⟩ := exists_handlerEntry (o := o) (Nat.le_refl
    (({ s with stack := rest } : AbstractState).push (.method manager.runtimeType "__exit__")).depth)
  exact ⟨_, bind_eq_ok.mpr ⟨_, hp, bind_eq_ok.mpr ⟨taken, htaken, rfl⟩⟩⟩

/-- **An apt operation has an effect wherever the table has an entry.** -/
theorem exists_effect {op : Op} {ws : List (Successor × Nat × List Block)}
    (hapt : op.Apt s.locals.length s.cells.length) (h : op.moves s.depth s.blocks = some ws) :
    ∃ t, effect ty o s op = .ok t := by
  cases ha : op.arity? with
  | some a =>
    rw [moves_of_arity ha, Option.ite_none_right_eq_some] at h
    exact exists_effect_of_arity ha hapt h.1
  | none =>
    unfold effect
    cases op with
    | jump target => exact ⟨_, rfl⟩
    | forIter exit =>
      simp only [moves, Option.ite_none_right_eq_some] at h
      obtain ⟨v, rest, -, hp⟩ := exists_pop (s := { s with keywords := none }) (o := o) h.1
      exact ⟨_, bind_eq_ok.mpr ⟨_, hp, rfl⟩⟩
    | popJumpIf _ _ | jumpIfOrPop _ _ | returnValue =>
      simp only [moves, Option.ite_none_right_eq_some] at h
      exact exists_popped _ h.1
    | jumpIfNotExcMatch _ | reraise _ | raiseVarargs _ =>
      simp only [moves, Option.ite_none_right_eq_some] at h
      exact exists_dropped _ h.1
    | setupFinally handler kind reserve =>
      simp only [moves, Option.ite_none_right_eq_some] at h
      exact exists_openBlock _ _ h.1
    | setupWith handler =>
      simp only [moves, Option.ite_none_right_eq_some] at h
      exact exists_enterWith _ h.1
    | popBlock =>
      cases hs : s.blocks with
      | nil =>
        rw [hs] at h
        cases h
      | cons b rest =>
        cases b with
        | handling level =>
          rw [hs] at h
          cases h
        | protect handler level kind => exact ⟨_, rfl⟩
    | popExcept =>
      cases hs : s.blocks with
      | nil =>
        rw [hs] at h
        cases h
      | cons b rest =>
        cases b with
        | protect handler level kind =>
          rw [hs] at h
          cases h
        | handling level =>
          rw [hs, moves, Option.ite_none_right_eq_some] at h
          exact exists_take (s := { s with blocks := rest, keywords := none }) h.1
    | delegate state exit =>
      simp only [moves, Option.ite_none_right_eq_some] at h
      obtain ⟨v, w, rest, -, hv, hw⟩ :=
        exists_popTwo (s := { s with keywords := none }) (o := o) h.1
      exact ⟨_, bind_eq_ok.mpr ⟨_, hv, bind_eq_ok.mpr ⟨_, hw, rfl⟩⟩⟩
    | _ => cases ha

/-- An operation that has an effect is apt. -/
theorem apt_of_effect {op : Op} {t : Transfer} (h : effect ty o s op = .ok t) :
    op.Apt s.locals.length s.cells.length := by
  unfold effect at h
  cases op with
  | loadFast _ | loadDeref _ | loadClassDeref _ | loadClosure _ =>
    obtain ⟨v, hv, -⟩ := bind_eq_ok.mp h
    exact variable_eq_ok hv
  | storeFast _ =>
    obtain ⟨⟨v, s₁⟩, hp, h⟩ := bind_eq_ok.mp h
    obtain ⟨vars, hvars, -⟩ := bind_eq_ok.mp h
    obtain ⟨rest, -, rfl⟩ := pop_eq_ok hp
    exact (setVariable_eq_ok hvars).1
  | storeDeref _ =>
    obtain ⟨⟨v, s₁⟩, hp, h⟩ := bind_eq_ok.mp h
    obtain ⟨vars, hvars, -⟩ := bind_eq_ok.mp h
    obtain ⟨rest, -, rfl⟩ := pop_eq_ok hp
    exact (setVariable_eq_ok hvars).1
  | deleteFast _ | deleteDeref _ =>
    obtain ⟨vars, hvars, -⟩ := bind_eq_ok.mp h
    exact (setVariable_eq_ok hvars).1
  | rotN n =>
    obtain ⟨s', hr, -⟩ := map_eq_ok.mp h
    unfold rotate at hr
    split at hr
    · cases hr
    · rename_i hn
      exact fun hzero => hn (.inl hzero)
  | _ => trivial

end Op

end Stackwise
