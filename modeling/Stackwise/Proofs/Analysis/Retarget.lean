import Stackwise.Proofs.Analysis.Form
import Stackwise.Proofs.Body.Layout

/-!
# Moving the offsets of states

When a pass moves the instructions of a body, the handlers that open blocks name move with them.
Nothing that the analysis computes from a state looks at these offsets, so all of it goes on in the
moved state as before.

* `AbstractState.retarget`, `Transfer.retarget`: states and effects with every offset moved.
* `Mirrors`: one computation succeeds with the image of what another one gives.
* `AbstractState.join_retarget`, `AbstractState.exceptionState?_retarget`, `Op.effect_retarget`:
  joins, exceptions and effects of moved states.
-/

namespace Stackwise

/-! ## 1. Moved states -/

/-- The block with its handler moved. -/
def Block.retarget (f : Nat → Nat) : Block → Block
  | .protect handler level kind => .protect (f handler) level kind
  | .handling level => .handling level

/-- The state with the handlers of its blocks moved. -/
def AbstractState.retarget (f : Nat → Nat) (s : AbstractState) : AbstractState :=
  { s with blocks := s.blocks.map (Block.retarget f) }

/-- The way on with its offset moved. -/
def Successor.retarget (f : Nat → Nat) : Successor → Successor
  | .next => .next
  | .jump target => .jump (f target)

/-- The effect with all offsets moved. -/
def Transfer.retarget (f : Nat → Nat) (t : Transfer) : Transfer :=
  t.map fun w => (w.1.retarget f, w.2.retarget f)

@[simp] theorem AbstractState.retarget_dead (f : Nat → Nat) (s : AbstractState) :
    (s.retarget f).dead = s.dead := rfl

/-- A state inside no block names no offset. -/
theorem AbstractState.retarget_of_nil {s : AbstractState} (h : s.blocks = []) (f : Nat → Nat) :
    s.retarget f = s := by
  obtain ⟨stack, locals, cells, blocks, dead, keywords⟩ := s
  cases h
  rfl

/-! ## 2. Computations that mirror another one -/

section Mirrors

variable {ε α β γ δ : Type} {g : α → β} {g' : γ → δ} {x : Except ε α} {y : Except ε β}

/-- Whenever `x` gives a result, `y` gives its image. -/
def Mirrors (g : α → β) (x : Except ε α) (y : Except ε β) : Prop := ∀ a, x = .ok a → y = .ok (g a)

theorem mirrors_ok (a : α) : Mirrors g (.ok a : Except ε α) (.ok (g a)) := by
  intro a' h
  cases h
  rfl

theorem mirrors_error (e : ε) : Mirrors g (.error e) y := by
  intro a h
  cases h

theorem Mirrors.bind {k : α → Except ε γ} {k' : β → Except ε δ} (h : Mirrors g x y)
    (hk : ∀ a, Mirrors g' (k a) (k' (g a))) : Mirrors g' (x >>= k) (y >>= k') := by
  intro c hc
  obtain ⟨a, ha, hc⟩ := bind_eq_ok.mp hc
  exact bind_eq_ok.mpr ⟨g a, h a ha, hk a c hc⟩

theorem Mirrors.map {k : α → γ} {k' : β → δ} (h : Mirrors g x y)
    (hk : ∀ a, k' (g a) = g' (k a)) : Mirrors g' (x.map k) (y.map k') := by
  intro c hc
  obtain ⟨a, ha, rfl⟩ := map_eq_ok.mp hc
  exact map_eq_ok.mpr ⟨g a, h a ha, hk a⟩

end Mirrors

/-! ## 3. Reading and changing moved states -/

namespace AbstractState

variable {f : Nat → Nat} {s : AbstractState} {o o' n : Nat}

theorem pop_retarget : Mirrors (Prod.map id (retarget f)) (s.pop o) ((s.retarget f).pop o') := by
  rintro ⟨v, s'⟩ h
  obtain ⟨rest, hs, rfl⟩ := pop_eq_ok h
  rw [pop, show (s.retarget f).stack = v :: rest from hs]
  rfl

theorem popMany_retarget :
    Mirrors (Prod.map id (retarget f)) (s.popMany n o) ((s.retarget f).popMany n o') := by
  unfold popMany
  split
  · rename_i h
    rw [if_pos (show n ≤ (s.retarget f).depth from h)]
    exact mirrors_ok _
  · exact mirrors_error _

theorem dropMany_retarget :
    Mirrors (retarget f) (s.dropMany n o) ((s.retarget f).dropMany n o') :=
  popMany_retarget.map fun _ => rfl

theorem peek_retarget : Mirrors id (s.peek n o) ((s.retarget f).peek n o') := by
  intro v h
  unfold peek at h ⊢
  rw [show (s.retarget f).stack = s.stack from rfl]
  cases hv : s.stack[n]? with
  | none => rw [hv] at h; cases h
  | some w => rw [hv] at h; exact h

theorem rotate_retarget : Mirrors (retarget f) (s.rotate n o) ((s.retarget f).rotate n o') := by
  intro s' h
  unfold rotate at h ⊢
  split at h
  · cases h
  · rename_i hn
    rw [if_neg (show ¬(n = 0 ∨ (s.retarget f).depth < n) from hn)]
    split at h
    · cases h
    · rename_i v rest hs
      cases h
      rw [show (s.retarget f).stack = v :: rest from hs]
      rfl

theorem truncate_retarget :
    Mirrors (retarget f) (s.truncate n o) ((s.retarget f).truncate n o') := by
  unfold truncate
  split
  · rename_i h
    rw [if_pos (show n ≤ (s.retarget f).depth from h)]
    exact mirrors_ok _
  · exact mirrors_error _

/-- Variables do not depend on where the instruction stands. -/
theorem variable_moved {vars : List (Option Slot)} {i : Nat} :
    Mirrors id (variable_ vars i o) (variable_ vars i o') := by
  intro v h
  unfold variable_ at h ⊢
  cases hv : vars[i]? with
  | none => rw [hv] at h; cases h
  | some w => rw [hv] at h; exact h

theorem setVariable_moved {vars : List (Option Slot)} {i : Nat} {v : Option Slot} :
    Mirrors id (setVariable vars i o v) (setVariable vars i o' v) := by
  unfold setVariable
  split
  · exact mirrors_ok _
  · exact mirrors_error _

/-! ## 4. Exceptions and joins -/

theorem unwindFrom_retarget (r : Option Nat) (bs : List Block) :
    unwindFrom r (bs.map (Block.retarget f))
      = (unwindFrom r bs).map fun u => { u with handler := f u.handler } := by
  induction bs generalizing r with
  | nil => rfl
  | cons b bs ih =>
    cases b with
    | protect handler level kind => rfl
    | handling level => exact ih (some level)

theorem outerBlocks_retarget (bs : List Block) :
    outerBlocks (bs.map (Block.retarget f)) = (outerBlocks bs).map (Block.retarget f) := by
  induction bs with
  | nil => rfl
  | cons b bs ih =>
    cases b with
    | protect handler level kind => rfl
    | handling level => exact ih

/-- **An exception goes to the moved handler**, which starts in the moved state. -/
theorem exceptionState?_retarget (f : Nat → Nat) (o' : Nat) :
    Mirrors (Option.map (Prod.map f (retarget f))) (s.exceptionState? o)
      ((s.retarget f).exceptionState? o') := by
  intro x h
  have hunwind : (s.retarget f).unwind? = s.unwind?.map fun u => { u with handler := f u.handler } :=
    unwindFrom_retarget none s.blocks
  unfold exceptionState? at h ⊢
  rw [hunwind]
  cases hu : s.unwind? with
  | none =>
    rw [hu] at h
    cases h
    rfl
  | some u =>
    rw [hu] at h
    obtain ⟨cut, hcut, h⟩ := bind_eq_ok.mp h
    cases h
    have hcut' : (retarget f { s with blocks := outerBlocks s.blocks }).truncate u.level o'
        = .ok (cut.retarget f) := truncate_retarget cut hcut
    refine bind_eq_ok.mpr ⟨cut.retarget f, ?_, rfl⟩
    rw [← hcut']
    exact congrArg (fun bs => truncate { s with blocks := bs } u.level o')
      (outerBlocks_retarget s.blocks)

theorem SameForm.retarget {a b : AbstractState} (h : SameForm a b) :
    SameForm (a.retarget f) (b.retarget f) :=
  ⟨h.depth, h.locals, h.cells, congrArg (List.map (Block.retarget f)) h.blocks⟩

/-- **The join of moved states.** -/
theorem join_retarget (f : Nat → Nat) (o' : Nat) {m : TypeModel} {a b : AbstractState} :
    Mirrors (retarget f) (join m o a b) (join m o' (a.retarget f) (b.retarget f)) := by
  intro j h
  cases ha : a.dead with
  | true =>
    rw [join_dead ha] at h
    cases h
    exact join_dead (a := a.retarget f) ha
  | false =>
    cases hb : b.dead with
    | true =>
      rw [join, if_neg (by simp [ha]), if_pos hb] at h
      cases h
      rw [join, if_neg (by simp [ha]), if_pos (by rw [retarget_dead, hb])]
    | false =>
      obtain ⟨hform, rfl⟩ := (join_live ha hb).mp h
      exact (join_live (a := a.retarget f) (b := b.retarget f) ha hb).mpr ⟨hform.retarget, rfl⟩

/-- A join that changes a state changes the moved state too: what it changes is no offset. -/
theorem join_retarget_ne {m : TypeModel} {a b j : AbstractState} (hb : b.dead = false)
    (h : join m o a b = .ok j) (hne : j ≠ a) : j.retarget f ≠ a.retarget f := by
  intro heq
  cases ha : a.dead with
  | true =>
    rw [join_dead ha] at h
    cases h
    have hdead := congrArg AbstractState.dead heq
    rw [retarget_dead, retarget_dead, ha, hb] at hdead
    cases hdead
  | false =>
    obtain ⟨hform, rfl⟩ := (join_live ha hb).mp h
    obtain ⟨stack, locals, cells, blocks, dead, keywords⟩ := a
    rw [AbstractState.mk.injEq] at heq
    exact hne (AbstractState.mk.injEq .. ▸ ⟨heq.1, heq.2.1, heq.2.2.1, rfl, heq.2.2.2.2⟩)

end AbstractState

/-! ## 5. Effects -/

namespace Op

variable {f : Nat → Nat} {s : AbstractState} {ty : Typer} {o o' n : Nat}

theorem mayRaise_retarget (f : Nat → Nat) (op : Op) : (op.retarget f).mayRaise = op.mayRaise := by
  cases op <;> rfl

theorem take_retarget :
    Mirrors (Transfer.retarget f) (take n o s) (take n o' (s.retarget f)) :=
  AbstractState.dropMany_retarget.map fun _ => rfl

theorem makeOf_retarget {t : TypeId} :
    Mirrors (Transfer.retarget f) (makeOf n o t s) (makeOf n o' t (s.retarget f)) :=
  AbstractState.dropMany_retarget.map fun _ => rfl

theorem mapTop_retarget {h : Slot → Slot} :
    Mirrors (Transfer.retarget f) (mapTop h o s) (mapTop h o' (s.retarget f)) :=
  AbstractState.pop_retarget.map fun _ => rfl

theorem mapTwo_retarget {h : Slot → Slot → Slot} :
    Mirrors (Transfer.retarget f) (mapTwo h o s) (mapTwo h o' (s.retarget f)) :=
  AbstractState.pop_retarget.bind fun _ => AbstractState.pop_retarget.bind fun _ => mirrors_ok _

theorem rotated_retarget :
    Mirrors (Transfer.retarget f) ((s.rotate n o).map goOn)
      (((s.retarget f).rotate n o').map goOn) :=
  AbstractState.rotate_retarget.map fun _ => rfl

theorem handlerEntry_retarget :
    Mirrors (AbstractState.retarget f) (handlerEntry s n o) (handlerEntry (s.retarget f) n o') :=
  AbstractState.truncate_retarget.map fun _ => rfl

theorem call_retarget :
    Mirrors (Transfer.retarget f) (call ty n o s) (call ty n o' (s.retarget f)) :=
  AbstractState.popMany_retarget.bind fun _ => AbstractState.pop_retarget.bind fun _ =>
    mirrors_ok _

theorem callKeywords_retarget {kw : Option (List String)} :
    Mirrors (Transfer.retarget f) (callKeywords ty n o kw s)
      (callKeywords ty n o' kw (s.retarget f)) :=
  AbstractState.pop_retarget.bind fun _ => AbstractState.popMany_retarget.bind fun _ =>
    AbstractState.pop_retarget.bind fun _ => mirrors_ok _

theorem callUnpacked_retarget {kwargs : Bool} :
    Mirrors (Transfer.retarget f) (callUnpacked ty kwargs o s)
      (callUnpacked ty kwargs o' (s.retarget f)) := by
  have hrest : ∀ s : AbstractState, Mirrors (Transfer.retarget f) (do
      let args ← s.pop o
      let callee ← args.2.pop o
      return goOn (callee.2.push (ty.resolveCall callee.1 [] []).resultOfUnknown)) (do
      let args ← (s.retarget f).pop o'
      let callee ← args.2.pop o'
      return goOn (callee.2.push (ty.resolveCall callee.1 [] []).resultOfUnknown)) := fun s =>
    AbstractState.pop_retarget.bind fun _ => AbstractState.pop_retarget.bind fun _ => mirrors_ok _
  cases kwargs with
  | false => exact hrest s
  | true => exact AbstractState.dropMany_retarget.bind hrest

theorem callMethodSlots_retarget :
    Mirrors (Transfer.retarget f) (callMethodSlots ty n o s)
      (callMethodSlots ty n o' (s.retarget f)) :=
  AbstractState.popMany_retarget.bind fun _ => AbstractState.pop_retarget.bind fun _ =>
    AbstractState.pop_retarget.bind fun _ => mirrors_ok _

theorem openBlock_retarget {handler : Nat} {kind : BlockKind} :
    Mirrors (Transfer.retarget f) (openBlock handler kind n o s)
      (openBlock (f handler) kind n o' (s.retarget f)) := by
  unfold openBlock
  split
  · exact mirrors_error _
  · rename_i h
    rw [if_neg (show ¬(s.retarget f).depth < n from h)]
    exact handlerEntry_retarget.bind fun _ => mirrors_ok _

theorem enterWith_retarget {handler : Nat} :
    Mirrors (Transfer.retarget f) (enterWith ty handler o s)
      (enterWith ty (f handler) o' (s.retarget f)) :=
  AbstractState.pop_retarget.bind fun _ =>
    (handlerEntry_retarget (f := f) (s := AbstractState.push _ _)).bind fun _ => mirrors_ok _

theorem closeBlock_retarget :
    Mirrors (Transfer.retarget f) (closeBlock o s) (closeBlock o' (s.retarget f)) := by
  obtain ⟨stack, locals, cells, blocks, dead, keywords⟩ := s
  cases blocks with
  | nil => exact mirrors_error _
  | cons b rest =>
    cases b with
    | protect handler level kind => exact mirrors_ok (g := Transfer.retarget f) _
    | handling level => exact mirrors_error _

theorem leaveHandler_retarget :
    Mirrors (Transfer.retarget f) (leaveHandler o s) (leaveHandler o' (s.retarget f)) := by
  obtain ⟨stack, locals, cells, blocks, dead, keywords⟩ := s
  cases blocks with
  | nil => exact mirrors_error _
  | cons b rest =>
    cases b with
    | protect handler level kind => exact mirrors_error _
    | handling level => exact take_retarget (s := ⟨stack, locals, cells, rest, dead, keywords⟩)

theorem startExit_retarget :
    Mirrors (Transfer.retarget f) (startExit ty o s) (startExit ty o' (s.retarget f)) := by
  have hargs : Mirrors id ([0, 1, 2].mapM fun n => s.peek n o)
      ([0, 1, 2].mapM fun n => (s.retarget f).peek n o') := by
    intro args h
    refine mapM_of_forall₂ ((forall₂_of_mapM h).imp fun n v hv => ?_)
    exact AbstractState.peek_retarget v hv
  exact AbstractState.peek_retarget.bind fun _ => hargs.bind fun _ => mirrors_ok _

/-- **An operation with moved targets does in the moved state what it did before.** -/
theorem effect_retarget (f : Nat → Nat) (o' : Nat) (op : Op) :
    Mirrors (Transfer.retarget f) (effect ty o s op)
      (effect ty o' (s.retarget f) (op.retarget f)) := by
  unfold effect
  cases op with
  | popTop | storeSubscr | deleteSubscr | storeGlobal _ | storeName _ | storeAttr _ | deleteAttr _
  | importStar | printExpr | suspend _ => exact take_retarget
  | rotTwo | rotThree | rotFour | rotN _ => exact rotated_retarget
  | nop | genStart _ | setupAnnotations | resumeDispatch _ | deleteGlobal _ | deleteName _
  | loadConst _ | loadGlobal _ _ | loadName _ _ | loadBuildClass | loadAssertionError
  | resumePoint _ | jump _ => exact mirrors_ok _
  | unary op => cases op <;> exact mapTop_retarget
  | getIter | getYieldFromIter | loadAttr _ | yieldValue | loadSpecial _ => exact mapTop_retarget
  | binary _ _ | binarySubscr | compare _ => exact mapTwo_retarget
  | isOp _ | containsOp _ | importName _ | build _ _ | listToTuple | formatValue _
  | makeFunction _ | yieldFrom => exact makeOf_retarget
  | dupTop | importFrom _ => exact AbstractState.peek_retarget.map fun _ => rfl
  | dupTopTwo =>
    exact AbstractState.peek_retarget.bind fun _ => AbstractState.peek_retarget.bind fun _ =>
      mirrors_ok _
  | loadFast _ | loadDeref _ | loadClassDeref _ | loadClosure _ =>
    exact AbstractState.variable_moved.bind fun _ => mirrors_ok _
  | storeFast _ | storeDeref _ =>
    exact AbstractState.pop_retarget.bind fun _ => AbstractState.setVariable_moved.bind fun _ =>
      mirrors_ok _
  | deleteFast _ | deleteDeref _ => exact AbstractState.setVariable_moved.bind fun _ => mirrors_ok _
  | loadMethod _ | forIter _ => exact AbstractState.pop_retarget.bind fun _ => mirrors_ok _
  | update _ _ =>
    exact AbstractState.dropMany_retarget.bind fun _ => AbstractState.peek_retarget.bind fun _ =>
      mirrors_ok _
  | unpackSequence _ | popJumpIf _ _ | jumpIfOrPop _ _ | returnValue =>
    exact AbstractState.pop_retarget.map fun _ => rfl
  | unpackEx _ _ => exact AbstractState.pop_retarget.bind fun _ => mirrors_ok _
  | jumpIfNotExcMatch _ | reraise _ | raiseVarargs _ =>
    exact AbstractState.dropMany_retarget.map fun _ => rfl
  | callFunction _ => exact call_retarget
  | callFunctionKw _ => exact callKeywords_retarget
  | callFunctionEx _ => exact callUnpacked_retarget
  | callMethod _ => exact callMethodSlots_retarget
  | setupFinally _ _ _ => exact openBlock_retarget
  | setupWith _ => exact enterWith_retarget
  | popBlock => exact closeBlock_retarget
  | popExcept => exact leaveHandler_retarget
  | withExceptStart => exact startExit_retarget
  | delegate _ _ =>
    exact AbstractState.pop_retarget.bind fun _ => AbstractState.pop_retarget.bind fun _ =>
      mirrors_ok _

end Op

end Stackwise
