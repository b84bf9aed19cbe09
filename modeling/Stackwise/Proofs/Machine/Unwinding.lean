import Stackwise.Proofs.Machine.ForeseenFaults

/-!
# Unwinding

An exception cuts the stack to the level of the block that catches it. An operation takes its
operands before it raises, so the stack that is cut is the one without them.

* `Op.operands`: how many values an operation can have taken when it raises.
* `Takes`, `Spares`: what an action can take at all, and what it can have taken where it ends in a
  fault; `operate_spares` bounds the second for every operation by its operands.
* `routeFault_run`: an exception reaches the handler of its region exactly if the stack holds the
  values that the level asks for.
* `unwinding_reaches_handler`: it does, wherever the operands lie above the level.
* `unwinding_falls_short`: the analysis also accepts a body whose operands lie below it.
-/

namespace Stackwise

/-! ## 1. Operands -/

/-- The number of values that an operation can have taken from the stack when it raises. -/
def Op.operands : Op → Nat
  | .popTop | .unary _ | .getIter | .getYieldFromIter | .storeFast _ | .storeDeref _
  | .storeGlobal _ | .storeName _ | .loadAttr _ | .deleteAttr _ | .loadMethod _ | .printExpr
  | .listToTuple | .unpackSequence _ | .unpackEx _ _ | .setupWith _ | .loadSpecial _
  | .popJumpIf _ _ | .returnValue | .suspend _ | .delegate _ _ => 1
  | .binary _ _ | .binarySubscr | .deleteSubscr | .compare _ | .isOp _ | .containsOp _
  | .storeAttr _ | .jumpIfNotExcMatch _ => 2
  | .storeSubscr | .popExcept | .reraise _ => 3
  | .build .slice n => if n = 3 then 3 else 2
  | .build shape n => shape.taken n
  | .update kind _ => kind.taken
  | .formatValue flags => if flags &&& formatHasSpec != 0 then 2 else 1
  | .callFunction argc => argc + 1
  | .callFunctionKw argc | .callMethod argc => argc + 2
  | .callFunctionEx kwargs => if kwargs then 3 else 2
  | .makeFunction flags => 2 + functionParts flags
  | .raiseVarargs n => min n 2
  | _ => 0

namespace Machine

variable {α β : Type} {m n : Nat}

/-- The frame that an action leaves behind, however it ends. -/
def leftBehind : EStateM.Result Fault Activation α → Frame
  | .ok _ a => a.frame
  | .error _ a => a.frame

/-- The action takes at most `n` values from the stack. -/
def Takes (n : Nat) (x : FrameAction α) : Prop :=
  ∀ ctx a, a.frame.stack.length ≤ (leftBehind (x ctx a)).stack.length + n

/-- Where the action ends in a fault, it has taken at most `n` values from the stack. -/
def Spares (n : Nat) (x : FrameAction α) : Prop :=
  ∀ ctx a e a', x ctx a = .error e a' → a.frame.stack.length ≤ a'.frame.stack.length + n

theorem Takes.spares {x : FrameAction α} (h : Takes n x) : Spares n x := by
  intro ctx a e a' hx
  have hle := h ctx a
  rw [hx] at hle
  exact hle

theorem Takes.mono {x : FrameAction α} (h : Takes m x) (hle : m ≤ n) : Takes n x :=
  fun ctx a => (h ctx a).trans (Nat.add_le_add_left hle _)

theorem Spares.mono {x : FrameAction α} (h : Spares m x) (hle : m ≤ n) : Spares n x :=
  fun ctx a e a' hx => (h ctx a e a' hx).trans (Nat.add_le_add_left hle _)

theorem Takes.bind {x : FrameAction β} {k : β → FrameAction α} (hx : Takes m x)
    (hk : ∀ v, Takes n (k v)) : Takes (n + m) (x >>= k) := by
  intro ctx a
  have h₁ := hx ctx a
  simp only [Bind.bind, ReaderT.bind, EStateM.bind]
  cases hres : x ctx a with
  | error e a₁ =>
    rw [hres] at h₁
    simp only [leftBehind] at h₁ ⊢
    omega
  | ok v a₁ =>
    rw [hres] at h₁
    have h₂ := hk v ctx a₁
    simp only [leftBehind] at h₁ h₂ ⊢
    omega

/-- What an action has taken before a fault: all that its first part takes, and what its rest has
taken. -/
theorem Takes.thenSpares {x : FrameAction β} {k : β → FrameAction α} (hx : Takes m x)
    (hk : ∀ v, Spares n (k v)) : Spares (n + m) (x >>= k) := by
  intro ctx a e a' h
  have h₁ := hx ctx a
  simp only [Bind.bind, ReaderT.bind, EStateM.bind] at h
  cases hres : x ctx a with
  | error e₁ a₁ =>
    rw [hres] at h h₁
    cases h
    simp only [leftBehind] at h₁
    omega
  | ok v a₁ =>
    rw [hres] at h h₁
    have h₂ := hk v ctx a₁ e a' h
    simp only [leftBehind] at h₁
    omega

/-- Nothing is taken after the last point where an action can end in a fault. -/
theorem Spares.thenOk {x : FrameAction β} {k : β → FrameAction α} (hx : Spares n x)
    (hk : ∀ v ctx a e a', k v ctx a ≠ .error e a') : Spares n (x >>= k) := by
  intro ctx a e a' h
  simp only [Bind.bind, ReaderT.bind, EStateM.bind] at h
  cases hres : x ctx a with
  | error e₁ a₁ =>
    rw [hres] at h
    cases h
    exact hx ctx a e a' hres
  | ok v a₁ =>
    rw [hres] at h
    exact absurd h (hk v ctx a₁ e a')

/-! ## 2. Parts of operations -/

theorem takes_pure (v : α) : Takes 0 (pure v) := fun _ _ => Nat.le_refl _

theorem spares_pure (v : α) : Spares n (pure v) := fun _ _ _ _ h => by cases h

theorem takes_throw (e : Fault) : Takes 0 (throw e : FrameAction α) := fun _ _ => Nat.le_refl _

theorem takes_frame : Takes 0 frame := fun _ _ => Nat.le_refl _

theorem takes_broken (cause : Broken) : Takes 0 (broken cause : FrameAction α) :=
  fun _ _ => Nat.le_refl _

theorem takes_lift (act : Action α) : Takes 0 (liftM act : FrameAction α) := by
  intro ctx a
  have hrun : (liftM act : FrameAction α) ctx a = inFrame act ctx a := rfl
  rw [hrun, inFrame]
  cases act ctx a.store <;> exact Nat.le_refl _

theorem takes_updateFrame {g : Frame → Frame}
    (h : ∀ f, f.stack.length ≤ (g f).stack.length + n) : Takes n (updateFrame g) :=
  fun _ a => h a.frame

theorem takes_updateRest {g : Frame → Frame} (h : ∀ f, (g f).stack = f.stack) :
    Takes 0 (updateFrame g) :=
  takes_updateFrame fun f => Nat.le_of_eq (congrArg List.length (h f).symm)

theorem takes_push (v : Value) : Takes 0 (push v) := takes_updateFrame fun _ => Nat.le_succ _

theorem takes_pushAll (vs : List Value) : Takes 0 (pushAll vs) := by
  refine takes_updateFrame fun f => ?_
  rw [List.length_append]
  omega

theorem takes_onStack {g : List Value → Option (α × List Value)}
    (h : ∀ stack v stack', g stack = some (v, stack') → stack.length ≤ stack'.length + n) :
    Takes n (onStack g) := by
  intro ctx a
  have hrun := onStack_run g ctx a.frame a.store
  cases hg : g a.frame.stack with
  | none =>
    rw [hg] at hrun
    rw [show a = ⟨a.frame, a.store⟩ from rfl, hrun]
    exact Nat.le_add_right _ _
  | some r =>
    obtain ⟨v, stack'⟩ := r
    rw [hg] at hrun
    rw [show a = ⟨a.frame, a.store⟩ from rfl, hrun]
    exact h _ _ _ hg

/-- A stack that is too short stays as it is. -/
theorem spares_onStack (g : List Value → Option (α × List Value)) : Spares 0 (onStack g) := by
  intro ctx a e a' h
  rw [show a = ⟨a.frame, a.store⟩ from rfl, onStack_run] at h
  cases hg : g a.frame.stack with
  | none =>
    rw [hg] at h
    cases h
    exact Nat.le_refl _
  | some r =>
    rw [hg] at h
    cases h

theorem takes_pop : Takes 1 pop := by
  refine takes_onStack fun stack v stack' h => ?_
  cases stack with
  | nil => cases h
  | cons w rest =>
    cases h
    exact Nat.le_refl _

theorem takes_popMany (n : Nat) : Takes n (popMany n) := by
  refine takes_onStack fun stack vs stack' h => ?_
  unfold Stack.popMany? at h
  split at h
  · cases h
    rw [List.length_drop]
    omega
  · cases h

theorem takes_peek (k : Nat) : Takes 0 (peek k) := by
  refine takes_onStack fun stack v stack' h => ?_
  obtain ⟨w, -, hw⟩ := Option.map_eq_some_iff.mp h
  cases hw
  exact Nat.le_refl _

theorem takes_rotate (k : Nat) : Takes 0 (rotate k) := by
  refine takes_onStack fun stack v stack' h => ?_
  obtain ⟨w, hw, heq⟩ := Option.map_eq_some_iff.mp h
  cases heq
  unfold Stack.rotate? at hw
  split at hw
  · split at hw <;> cases hw
    exact Nat.le_refl _
  · split at hw
    · cases hw
      exact Nat.le_refl _
    · split at hw
      · cases hw
      · cases hw
        rename_i v rest _ _
        have hlen := congrArg List.length (List.take_append_drop (k - 1) rest)
        simp only [List.length_append, List.length_cons] at hlen ⊢
        omega

theorem takes_target (k : Nat) : Takes 0 (target k) := by
  unfold target
  cases k with
  | zero => exact takes_broken _
  | succ k => exact takes_peek k

theorem takes_getLocal (slot : Nat) : Takes 0 (getLocal slot) := by
  refine takes_frame.bind fun f => ?_
  split
  · exact takes_pure _
  · exact takes_lift _
  · exact takes_broken _

theorem takes_setLocal (slot : Nat) (v : Option Value) : Takes 0 (setLocal slot v) := by
  refine takes_frame.bind fun f => ?_
  split
  · exact takes_updateFrame fun _ => Nat.le_refl _
  · exact takes_broken _

theorem takes_cellAt (slot : Nat) : Takes 0 (cellAt slot) := by
  refine takes_frame.bind fun f => ?_
  split
  · exact takes_pure _
  · exact takes_broken _

theorem takes_getCell (slot : Nat) : Takes 0 (getCell slot) := by
  refine (takes_cellAt slot).bind fun r => (takes_lift _).bind fun v => ?_
  cases v with
  | some v => exact takes_pure v
  | none => exact takes_frame.bind fun f => takes_lift _

theorem takes_pushLift (act : Action Value) : Takes 0 (do push (← act) : FrameAction Unit) :=
  (takes_lift act).bind takes_push

/-- An action that leaves the stack alone may be done once for each element of a list. -/
theorem takes_mapM {g : β → FrameAction α} (hg : ∀ x, Takes 0 (g x)) (xs : List β) :
    Takes 0 (xs.mapM g) := by
  induction xs with
  | nil => exact takes_pure _
  | cons x xs ih =>
    rw [List.mapM_cons]
    exact (hg x).bind fun _ => ih.bind fun _ => takes_pure _

theorem takes_foldlM {g : α → β → FrameAction α} (hg : ∀ a x, Takes 0 (g a x)) (xs : List β)
    (a : α) : Takes 0 (xs.foldlM g a) := by
  induction xs generalizing a with
  | nil => exact takes_pure _
  | cons x xs ih =>
    rw [List.foldlM_cons]
    exact (hg a x).bind fun _ => ih _

/-! ## 3. Operations -/

theorem takes_build (shape : Shape) (k : Nat) :
    Takes (Op.operands (.build shape k)) (build shape k) := by
  have hmany : ∀ {act : List Value → FrameAction Value}, (∀ vs, Takes 0 (act vs)) →
      Takes k (popMany k >>= act) :=
    fun h => ((takes_popMany k).bind h).mono (Nat.le_of_eq (Nat.zero_add k))
  unfold build
  cases shape with
  | tuple | list => exact hmany fun vs => takes_lift _
  | set => exact hmany fun vs => (takes_foldlM (fun _ _ => takes_lift _) _ _).bind fun _ => takes_lift _
  | string => exact hmany fun vs => (takes_mapM (fun _ => takes_lift _) _).bind fun _ => takes_lift _
  | map =>
    refine ((takes_popMany (2 * k)).bind fun vs => (takes_lift _).bind fun _ => takes_lift _).mono ?_
    exact Nat.le_of_eq (Nat.zero_add _)
  | constKeyMap =>
    refine takes_pop.bind fun keys => hmany fun values => ?_
    split
    · exact (takes_lift _).bind fun _ => takes_lift _
    · exact takes_broken _
  | slice =>
    have hrest : ∀ step, Takes 2 (do
        let stop ← pop
        let start ← pop
        make (Store.newSlice start stop step) : FrameAction Value) :=
      fun step => takes_pop.bind fun stop => takes_pop.bind fun start => takes_lift _
    by_cases hk : k = 3
    · subst hk
      exact takes_pop.bind hrest
    · have hne : (k == 3) = false := beq_eq_false_iff_ne.mpr hk
      rw [show Op.operands (.build .slice k) = 2 from if_neg hk]
      simp only [hne]
      exact (takes_pure _).bind hrest

theorem takes_mergeTarget (depth : Nat) (cause : Broken) (merge : Bool)
    (incoming : List (Value × Value)) : Takes 0 (do
      match ← target depth with
      | .dict r => mergeInto r merge incoming
      | _ => broken cause : FrameAction Unit) := by
  refine (takes_target depth).bind fun t => ?_
  split
  · exact takes_lift _
  · exact takes_broken _

theorem takes_update (kind : Update) (depth : Nat) : Takes kind.taken (update kind depth) := by
  unfold update
  cases kind with
  | listAppend | setAdd =>
    refine takes_pop.bind fun v => (takes_target depth).bind fun t => ?_
    split
    · exact takes_lift _
    · exact takes_broken _
  | listExtend | setUpdate =>
    refine takes_pop.bind fun v => (takes_lift _).bind fun items =>
      (takes_target depth).bind fun t => ?_
    split
    · exact takes_lift _
    · exact takes_broken _
  | mapAdd =>
    refine takes_pop.bind fun value => takes_pop.bind fun key =>
      (takes_lift _).bind fun _ => (takes_target depth).bind fun t => ?_
    split
    · exact takes_lift _
    · exact takes_broken _
  | dictUpdate | dictMerge =>
    refine takes_pop.bind fun other => ?_
    split
    · exact (takes_lift _).bind (takes_mergeTarget depth _ _)
    · exact (takes_lift _).bind fun _ => (takes_lift _).bind (takes_mergeTarget depth _ _)

theorem takes_unpackSequence (k : Nat) : Takes 1 (unpackSequence k) := by
  refine takes_pop.bind fun v => (takes_lift _).bind fun items => ?_
  split
  · exact takes_lift _
  · split
    · exact takes_lift _
    · exact takes_pushAll _

theorem takes_unpackEx (before after : Nat) : Takes 1 (unpackEx before after) := by
  refine takes_pop.bind fun v => (takes_lift _).bind fun items => ?_
  split
  · exact takes_lift _
  · exact (takes_lift _).bind fun middle => takes_pushAll _

theorem takes_formatTop (flags : Nat) :
    Takes (if flags &&& Op.formatHasSpec != 0 then 2 else 1) (formatTop flags) := by
  have hrest : ∀ spec, Takes 1 (do
      let v ← converted flags (← pop)
      push (← newStr (← format v spec)) : FrameAction Unit) :=
    fun spec => takes_pop.bind fun v => (takes_lift _).bind fun w =>
      (takes_lift _).bind fun text => takes_pushLift _
  unfold formatTop
  dsimp only
  split
  · refine takes_pop.bind fun spec => ?_
    split
    · exact hrest _
    · exact (takes_broken _).bind hrest
  · exact hrest _

theorem takes_callTop (lowering : Lowering) (argc : Nat) :
    Takes (argc + 1) (callTop lowering argc) := by
  refine ((takes_popMany argc).bind fun args => takes_pop.bind (n := 0) fun callee => ?_).mono
    (by omega)
  split
  · split
    · exact takes_pushLift _
    · exact takes_pushLift _
  · exact takes_pushLift _

theorem takes_callKeywords (argc : Nat) : Takes (argc + 2) (callKeywords argc) := by
  refine (takes_pop.bind fun names => (takes_popMany argc).bind fun args =>
    takes_pop.bind (n := 0) fun callee => ?_).mono (by omega)
  split
  · split
    · exact takes_broken _
    · dsimp only
      split
      · exact takes_pushLift _
      · exact takes_broken _
  · exact takes_broken _

theorem takes_callUnpacked (hasMapping : Bool) :
    Takes (if hasMapping then 3 else 2) (callUnpacked hasMapping) := by
  have hrest : ∀ mapping, Takes 2 (do
      let iterable ← pop
      let callee ← pop
      let args ← collect iterable
      let kwargs ← match mapping with
        | some v => mappingKeywords v
        | none => pure []
      push (← callWith callee args kwargs) : FrameAction Unit) := by
    intro mapping
    refine takes_pop.bind fun iterable => takes_pop.bind fun callee =>
      (takes_lift _).bind fun args => ?_
    cases mapping with
    | some v => exact (takes_lift _).bind fun kwargs => takes_pushLift _
    | none => exact takes_pushLift _
  unfold callUnpacked
  cases hasMapping with
  | true => exact takes_pop.bind fun v => hrest (some v)
  | false => exact hrest none

theorem takes_callMethodTop (lowering : Lowering) (argc : Nat) :
    Takes (argc + 2) (callMethodTop lowering argc) := by
  refine ((takes_popMany argc).bind fun args => takes_pop.bind fun receiver =>
    takes_pop.bind (n := 0) fun method => ?_).mono (by omega)
  dsimp only
  split
  · exact takes_pushLift _
  · exact takes_pushLift _

theorem takes_checked (x : Except Broken α) : Takes 0 (checked x) := by
  cases x with
  | ok v => exact takes_pure v
  | error cause => exact takes_broken cause

theorem takes_makeFunction (flags : Nat) :
    Takes (2 + Op.functionParts flags) (makeFunction flags) := by
  rw [Nat.add_comm]
  unfold makeFunction
  refine takes_pop.bind fun qualname => takes_pop.bind fun code => ?_
  split
  · -- the optional parts, from the closure down to the defaults
    rw [functionParts_eq]
    extract_lets has withClosure
    have hclosure : ∀ closure, Takes ((if has 4 then 1 else 0)
        + ((if has 2 then 1 else 0) + (if has 1 then 1 else 0))) (withClosure closure) := by
      intro closure
      simp -zeta only [withClosure]
      extract_lets withSignature
      have hsignature : ∀ signature,
          Takes ((if has 2 then 1 else 0) + (if has 1 then 1 else 0)) (withSignature signature) := by
        intro signature
        simp -zeta only [withSignature]
        extract_lets withKeywords
        have hkeywords : ∀ kwdefaults, Takes (if has 1 then 1 else 0) (withKeywords kwdefaults) := by
          intro kwdefaults
          simp -zeta only [withKeywords]
          split
          · refine takes_pop.bind fun v => ?_
            split
            · exact (takes_pure _).bind fun _ => takes_pushLift _
            · exact (takes_broken _).bind fun _ => takes_pushLift _
          · exact (takes_pure _).bind fun _ => takes_pushLift _
        split
        · rw [Nat.add_comm]
          refine takes_pop.bind fun v => ?_
          cases v with
          | dict r => exact (takes_lift _).bind hkeywords
          | _ => exact (takes_broken _).bind hkeywords
        · rw [Nat.zero_add]
          exact (takes_pure _).bind hkeywords
      split
      · rw [Nat.add_comm]
        exact takes_pop.bind fun v => (takes_lift _).bind fun s =>
          (takes_checked _).bind fun items => (takes_pure _).bind hsignature
      · rw [Nat.zero_add]
        exact (takes_pure _).bind hsignature
    split
    · rw [Nat.add_comm]
      exact takes_pop.bind fun v => (takes_checked _).bind hclosure
    · rw [Nat.zero_add]
      exact (takes_pure _).bind hclosure
  · exact (takes_broken _).mono (Nat.zero_le _)

theorem takes_reraised : Takes 3 reraised := by
  refine takes_pop.bind fun type => takes_pop.bind fun value => takes_pop.bind fun _ => ?_
  split
  · exact takes_pure _
  · exact takes_lift _

theorem takes_raisedBy (k : Nat) : Takes (min k 2) (raisedBy k) := by
  rcases k with _ | _ | k
  · refine takes_frame.bind fun f => ?_
    cases f.handled with
    | some e => exact takes_pure e
    | none => exact takes_lift _
  · exact takes_pop.bind fun v => takes_lift _
  · rw [Nat.min_eq_right (Nat.le_add_left 2 k)]
    exact takes_pop.bind fun _ => takes_pop.bind fun v => takes_lift _

theorem takes_resumePoint : Takes 0 resumePoint := by
  refine takes_frame.bind fun f => Takes.bind (m := 0) (takes_updateRest ?_) fun _ => ?_
  · exact fun _ => rfl
  · split
    · exact takes_push _
    · exact takes_throw _
    · exact takes_broken _

theorem spares_delegate (state exit : Nat) : Spares 1 (delegate state exit) := by
  refine takes_pop.thenSpares fun sent => (takes_peek 0).thenSpares fun receiver =>
    (takes_lift _).thenSpares fun r => ?_
  cases r with
  | ok v =>
    intro _ _ _ _ h
    cases h
  | error e =>
    refine (takes_lift _).thenSpares fun m => (takes_lift _).thenSpares fun s => ?_
    split
    · exact (spares_onStack _).thenOk fun _ _ _ _ _ h => by cases h
    · exact (takes_throw e).spares

theorem takes_dispatch (states : List (Nat × Nat)) : Takes 0 (dispatch states) := by
  refine takes_frame.bind fun f => ?_
  dsimp only
  split
  · exact takes_pure _
  · split
    · exact takes_pure _
    · exact takes_broken _

theorem perform_takes (op : Op) (lowering : Lowering) : Takes op.operands (perform op lowering) := by
  unfold perform
  cases op with
  | popTop => exact takes_pop.bind fun _ => takes_pure _
  | rotTwo | rotThree | rotFour | rotN _ => exact takes_rotate _
  | dupTop => exact (takes_peek 0).bind takes_push
  | dupTopTwo => exact (takes_peek 1).bind fun _ => (takes_peek 0).bind fun _ => takes_pushAll _
  | unary _ | getIter | getYieldFromIter | loadAttr _ | loadSpecial _ =>
    exact takes_pop.bind fun v => takes_pushLift _
  | binary _ _ | binarySubscr | compare _ =>
    exact takes_pop.bind fun _ => takes_pop.bind fun _ => takes_pushLift _
  | storeSubscr =>
    exact takes_pop.bind fun _ => takes_pop.bind fun _ => takes_pop.bind fun _ => takes_lift _
  | deleteSubscr | storeAttr _ =>
    exact takes_pop.bind fun _ => takes_pop.bind fun _ => takes_lift _
  | isOp _ => exact takes_pop.bind fun _ => takes_pop.bind fun _ => takes_push _
  | containsOp _ =>
    exact takes_pop.bind fun _ => takes_pop.bind fun _ => (takes_lift _).bind fun _ => takes_push _
  | loadConst index =>
    refine takes_frame.bind fun f => ?_
    dsimp only
    split
    · exact takes_pushLift _
    · exact takes_broken _
  | loadFast slot => exact (takes_getLocal slot).bind takes_push
  | storeFast slot => exact takes_pop.bind fun _ => takes_setLocal slot _
  | deleteFast slot => exact (takes_getLocal slot).bind fun _ => takes_setLocal slot _
  | loadDeref slot | loadClassDeref slot => exact (takes_getCell slot).bind takes_push
  | storeDeref slot => exact takes_pop.bind fun _ => (takes_cellAt slot).bind fun _ => takes_lift _
  | deleteDeref slot =>
    exact (takes_getCell slot).bind fun _ => (takes_cellAt slot).bind fun _ => takes_lift _
  | loadClosure slot => exact (takes_cellAt slot).bind fun _ => takes_push _
  | loadGlobal _ _ | loadName _ _ => exact takes_frame.bind fun f => takes_pushLift _
  | storeGlobal _ | storeName _ => exact takes_pop.bind fun _ => takes_lift _
  | deleteGlobal _ | deleteName _ => exact takes_lift _
  | deleteAttr _ => exact takes_pop.bind fun _ => (takes_lift _).bind fun _ => takes_lift _
  | loadMethod _ => exact takes_pop.bind fun _ => (takes_lift _).bind fun _ => takes_pushAll _
  | loadAssertionError => exact takes_push _
  | loadBuildClass | importName _ | importFrom _ | importStar | setupAnnotations =>
    exact takes_lift _
  | printExpr =>
    refine takes_pop.bind fun v => ?_
    split
    · exact takes_pure _
    · exact (takes_lift _).bind fun _ => takes_lift _
  | build shape k =>
    exact ((takes_build shape k).bind takes_push).mono (Nat.le_of_eq (Nat.zero_add _))
  | listToTuple => exact takes_pop.bind fun _ => (takes_lift _).bind fun _ => takes_pushLift _
  | update kind depth => exact takes_update kind depth
  | unpackSequence k => exact takes_unpackSequence k
  | unpackEx before after => exact takes_unpackEx before after
  | formatValue flags => exact takes_formatTop flags
  | callFunction argc => exact takes_callTop lowering argc
  | callFunctionKw argc => exact takes_callKeywords argc
  | callFunctionEx kwargs => exact takes_callUnpacked kwargs
  | callMethod argc => exact takes_callMethodTop lowering argc
  | makeFunction flags => exact takes_makeFunction flags
  | setupWith _ =>
    exact takes_pop.bind fun _ => (takes_lift _).bind fun _ => (takes_lift _).bind fun _ =>
      (takes_push _).bind fun _ => takes_pushLift _
  | popExcept =>
    exact (takes_popMany 3).bind fun _ => takes_updateFrame fun _ => Nat.le_refl _
  | withExceptStart =>
    exact (takes_peek 6).bind fun _ => (takes_peek 0).bind fun _ => (takes_peek 1).bind fun _ =>
      (takes_peek 2).bind fun _ => takes_pushLift _
  | yieldValue | yieldFrom => exact takes_broken _
  | resumePoint _ => exact takes_resumePoint
  | nop | forIter _ | jump _ | popJumpIf _ _ | jumpIfOrPop _ _ | jumpIfNotExcMatch _ | returnValue
  | setupFinally _ _ _ | popBlock | reraise _ | raiseVarargs _ | resumeDispatch _ | suspend _
  | delegate _ _ | genStart _ => exact (takes_pure _).mono (Nat.zero_le _)

/-- **An operation that raises has taken at most its operands.** -/
theorem operate_spares (op : Op) (lowering : Lowering) :
    Spares op.operands (operate op lowering) := by
  have hperform : Spares op.operands (do perform op lowering; return Flow.next) :=
    ((perform_takes op lowering).bind fun _ => takes_pure Flow.next).spares.mono
      (Nat.le_of_eq (Nat.zero_add _))
  unfold operate
  cases op with
  | forIter exit =>
    refine (takes_peek 0).thenSpares fun v => (takes_lift _).thenSpares fun item => ?_
    cases item with
    | some v => exact ((takes_push v).bind fun _ => takes_pure _).spares
    | none => exact (spares_onStack _).thenOk fun _ _ _ _ _ h => by cases h
  | jump target => exact spares_pure _
  | popJumpIf on target =>
    exact takes_pop.thenSpares fun v => (takes_lift _).thenSpares fun _ => spares_pure _
  | jumpIfOrPop on target =>
    refine (takes_peek 0).thenSpares fun v => (takes_lift _).thenSpares fun b => ?_
    split
    · exact spares_pure _
    · exact (spares_onStack _).thenOk fun _ _ _ _ _ h => by cases h
  | jumpIfNotExcMatch target =>
    exact takes_pop.thenSpares fun _ => takes_pop.thenSpares fun _ => (takes_lift _).thenSpares
      fun _ => spares_pure _
  | returnValue =>
    refine takes_pop.thenSpares fun v => ?_
    split
    · exact takes_frame.thenSpares fun f => (takes_lift _).thenSpares fun _ => spares_pure _
    · exact spares_pure _
  | reraise _ => exact takes_reraised.thenSpares fun e => (takes_throw _).spares
  | raiseVarargs k =>
    exact ((takes_raisedBy k).bind fun e => takes_throw _).spares.mono
      (Nat.le_of_eq (Nat.zero_add _))
  | resumeDispatch states => exact (takes_dispatch states).spares
  | suspend state =>
    exact takes_pop.thenSpares fun v _ _ _ _ h => by cases h
  | delegate state exit => exact spares_delegate state exit
  | _ => exact hperform

/-! ## 4. The way to the handler -/

section Routing

variable {ctx : Context} {f : Frame} {s : Store}

theorem triple_run (e : Option Raised) (ctx : Context) (s : Store) :
    ∃ vs s', triple e ctx s = .ok vs s' ∧ vs.length = 3 := by
  cases e with
  | none => exact ⟨_, _, rfl, rfl⟩
  | some e => exact ⟨_, _, rfl, rfl⟩

theorem catchable_run {fault : Fault} (h : fault.isCatchable = true) (ctx : Context) (s : Store) :
    ∃ e s', catchable fault ctx s = .ok e s' := by
  cases fault with
  | raised e => exact ⟨e, s, rfl⟩
  | stopIteration v => exact ⟨_, _, rfl⟩
  | alreadyRunning => exact ⟨_, _, rfl⟩
  | compile _ | broken _ _ _ | outOfFuel => cases h

/-- How a handler starts, or fails to for want of values. -/
theorem startHandler_run (e : Raised) (handler level : Nat) (restoreAt : Option Nat)
    (ctx : Context) (f : Frame) (s : Store) :
    (level ≤ f.stack.length → ∃ before now s₁ s₂,
      triple ((restoreAt.bind (restored? f.stack)).getD f.handled) ctx s = .ok before s₁
        ∧ triple (some e) ctx s₁ = .ok now s₂ ∧ before.length = 3 ∧ now.length = 3
        ∧ startHandler e handler level restoreAt ctx ⟨f, s⟩ = .ok () ⟨{ f with
          stack := now ++ before ++ Stack.cut f.stack level
          handled := some e
          pc := handler }, s₂⟩)
    ∧ (f.stack.length < level → ∃ a, startHandler e handler level restoreAt ctx ⟨f, s⟩
      = .error (f.broken (.handlerLevel f.stack.length level)) a) := by
  have hunfold : startHandler e handler level restoreAt ctx ⟨f, s⟩ = (do
      let handled := ((restoreAt.bind (restored? f.stack)).getD f.handled)
      if f.stack.length < level then
        updateFrame fun f => { f with handled }
        broken (.handlerLevel f.stack.length level)
      else
        let before ← triple handled
        let now ← triple (some e)
        updateFrame fun f => { f with
          stack := now ++ before ++ Stack.cut f.stack level
          handled := some e
          pc := handler } : FrameAction Unit) ctx ⟨f, s⟩ := rfl
  rw [hunfold]
  constructor
  · intro hle
    dsimp only
    rw [if_neg (Nat.not_lt.mpr hle), run_lift_bind]
    obtain ⟨before, s₁, hbefore, hlen⟩ :=
      triple_run ((restoreAt.bind (restored? f.stack)).getD f.handled) ctx s
    rw [hbefore]
    dsimp only
    rw [run_lift_bind]
    obtain ⟨now, s₂, hnow, hlen'⟩ := triple_run (some e) ctx s₁
    rw [hnow]
    exact ⟨before, now, s₁, s₂, rfl, hnow, hlen, hlen', rfl⟩
  · intro hlt
    dsimp only
    rw [if_pos hlt]
    exact ⟨_, rfl⟩

/-- A fault that handlers see is noted down and then unwound, on the frame as it is. -/
theorem routeFault_eq_unwind {fault : Fault} (h : fault.isCatchable = true) (step : Step) (pc : Nat)
    (ctx : Context) (f : Frame) (s : Store) : ∃ e s', routeFault step pc fault ctx ⟨f, s⟩
      = (do unwind e; return none : FrameAction (Option Exit)) ctx ⟨f, s'⟩ := by
  obtain ⟨e, s₁, he⟩ := catchable_run h ctx s
  refine ⟨e, ?_⟩
  unfold routeFault
  rw [run_lift_bind, he]
  have hframe : ∀ {α : Type} (k : Frame → FrameAction α) s, (frame >>= k) ctx ⟨f, s⟩
      = k f ctx ⟨f, s⟩ := fun k s => rfl
  dsimp only
  rw [hframe]
  cases step.op with
  | reraise _ => exact ⟨s₁, rfl⟩
  | _ => exact ⟨_, rfl⟩

/-- **The way of a fault.** Inside a region it comes to the handler exactly if the stack holds as
many values as the level says. -/
theorem routeFault_run {fault : Fault} (h : fault.isCatchable = true) (step : Step) (pc : Nat)
    {region : Region} (hfind : Region.find? f.program.regions f.pc = some region) (ctx : Context)
    (s : Store) :
    (region.level ≤ f.stack.length → ∃ a, routeFault step pc fault ctx ⟨f, s⟩ = .ok none a
      ∧ a.frame.pc = region.handler ∧ a.frame.stack.length = region.level + 6)
    ∧ (f.stack.length < region.level → ∃ a, routeFault step pc fault ctx ⟨f, s⟩
      = .error (f.broken (.handlerLevel f.stack.length region.level)) a) := by
  obtain ⟨e, s', hroute⟩ := routeFault_eq_unwind h step pc ctx f s
  have hunwind := unwind_run e ctx f s'
  rw [hfind] at hunwind
  obtain ⟨hreach, hshort⟩ := startHandler_run e region.handler region.level region.restoreAt ctx f s'
  rw [hroute]
  simp only [Bind.bind, ReaderT.bind, EStateM.bind, hunwind]
  constructor
  · intro hle
    obtain ⟨before, now, s₁, s₂, -, -, hbefore, hnow, ha⟩ := hreach hle
    rw [ha]
    refine ⟨_, rfl, rfl, ?_⟩
    simp only [List.length_append, hbefore, hnow, cut_length hle]
    omega
  · intro hlt
    obtain ⟨a, ha⟩ := hshort hlt
    rw [ha]
    exact ⟨a, rfl⟩

end Routing

/-! ## 5. Points that raise -/

namespace RaisePoint

variable {c : Compiler} {code : CodeObject} {sig : CallSignature} {r : RaisePoint}

/-- The frame of a point is in lockstep with the analysis before the instruction, and the
instruction leaves it at the same offset of the same program. -/
theorem Of.frames (hr : r.Of c code sig) :
    r.before.frame.stack.length = (r.body.analysis.state r.offset).depth
      ∧ r.after.frame.program = r.program ∧ r.after.frame.pc = r.offset := by
  obtain ⟨-, -, hb⟩ := CompiledBody.analyze_accepted hr.body
  have hp := Program.of_emit hb hr.program
  obtain ⟨ctx, f, s, n, hf, hafter, hraised⟩ := hr.raised
  obtain ⟨i, hi, hlive, hstep⟩ := (hp.step _ _).mp hr.step
  rw [hstep, execute_eq_operate] at hraised
  have hlocked := locked_of hb hp hf
  have hc := Tolerance.all_context ctx
  -- a frame that waits for its resume point does not raise
  have hrun : r.before.frame.Fitting r.body r.program ∧ r.before.frame.Running r.body := by
    cases n with
    | succ n => exact after_running hb hp hlocked hc (Tolerance.all_store s) hafter
    | zero =>
      have hbefore : r.before = ⟨f, s⟩ := (Option.some.inj hafter).symm
      rw [offset, hbefore] at hi
      rw [hbefore] at hraised ⊢
      refine ⟨hlocked.1, hlocked.2.resolve_right fun hwait => ?_⟩
      obtain ⟨j, states, o, k, hj, -, -, -, -, -, hoperate⟩ := operate_waiting hb hwait
      obtain rfl : i = j := Option.some.inj (hi.symm.trans hj)
      rw [hoperate] at hraised
      cases hraised
  obtain ⟨hfit, hrun⟩ := hrun
  refine ⟨hrun.depth, ?_⟩
  obtain ⟨ws, hm, -⟩ := hb.solves.moves hi hlive
  cases hdispatch : i.op.isDispatch with
  | true =>
    obtain ⟨states, hop⟩ := Op.eq_resumeDispatch hdispatch
    rw [operate_fresh hrun hi hop] at hraised
    cases hraised
  | false =>
    have hout := operate_running hb hp hfit hrun hc (Tolerance.all_store r.before.store) hi
      hdispatch hm (i.op.lowering (CompiledBody.typerFor c.model c.config r.body.code)
        (r.body.analysis.state r.offset) r.body.returnType)
    rw [hraised] at hout
    obtain ⟨hshift, hpc, -⟩ := shift_of_running hfit hrun hi
    rw [← hout.2.1] at hshift hpc
    exact ⟨hshift.program, hpc⟩

theorem Of.find (hr : r.Of c code sig) :
    Region.find? r.after.frame.program.regions r.after.frame.pc = some r.region := by
  obtain ⟨-, hprogram, hpc⟩ := hr.frames
  rw [hprogram, hpc]
  exact hr.region

end RaisePoint

/-- **Exceptions reach their handlers.** Wherever a run of a compiled function raises what a handler
can catch inside a region, and the operands of the instruction lie above the level of the region: the
stack then holds at least the values below that level, and the exception comes to the handler. -/
theorem unwinding_reaches_handler {c : Compiler} {code : CodeObject} {sig : CallSignature}
    {r : RaisePoint} (hr : r.Of c code sig)
    (habove : r.region.level + r.step.op.operands ≤ (r.body.analysis.state r.offset).depth) :
    r.region.level ≤ r.after.frame.stack.length
      ∧ ∀ ctx, ∃ a, routeFault r.step r.offset r.fault ctx r.after = .ok none a
        ∧ a.frame.pc = r.region.handler ∧ a.frame.stack.length = r.region.level + 6 := by
  obtain ⟨-, -, hb⟩ := CompiledBody.analyze_accepted hr.body
  have hp := Program.of_emit hb hr.program
  obtain ⟨hdepth, -, -⟩ := hr.frames
  obtain ⟨i, -, -, hstep⟩ := (hp.step _ _).mp hr.step
  obtain ⟨ctx, f, s, n, -, -, hraised⟩ := hr.raised
  have hop : r.step.op = i.op := congrArg Step.op hstep
  rw [hstep, execute_eq_operate] at hraised
  have hspared := operate_spares _ _ ctx _ _ _ hraised
  have hlevel : r.region.level ≤ r.after.frame.stack.length := by
    rw [hop] at habove
    omega
  exact ⟨hlevel, fun ctx => (routeFault_run hr.catchable r.step r.offset hr.find ctx _).1 hlevel⟩

/-- A number and a text are added inside of `try`: `1 + "s"`, and the handler returns a number. -/
def addInTry : CodeObject :=
  { CodeObject.blank 0 "f" "f.py" with
    code := [122, 5, 100, 0, 100, 1, 23, 0, 87, 0, 83, 0, 1, 0, 1, 0, 1, 0, 89, 0, 100, 2, 83, 0]
    constants := [.int 1, .str "s", .int 7] }

theorem unwinding_reaches_handler_addInTry : ∃ r : RaisePoint,
    r.Of (.ofModel .empty {}) addInTry .dynamic ∧ r.step.op = .binary .add false
      ∧ r.region.level + r.step.op.operands ≤ (r.body.analysis.state r.offset).depth
      ∧ ∀ ctx, ∃ a, routeFault r.step r.offset r.fault ctx r.after = .ok none a
        ∧ a.frame.pc = r.region.handler ∧ a.frame.stack.length = r.region.level + 6 := by
  have hraises : (raisePoint? (.ofModel .empty {}) addInTry .dynamic 3).any (fun r =>
      r.step.op == .binary .add false && decide (r.region.level + r.step.op.operands
        ≤ (r.body.analysis.state r.offset).depth)) = true := by
    simp only [raisePoint?, Compiler.analyze, CompiledBody.analyze, CompiledBody.build,
      CompiledBody.settle, Body.decode, InstructionStream.decode, InstructionStream.strayJump?_eq]
    decide +kernel
  obtain ⟨r, hr, hpoint⟩ := exists_raisePoint hraises
  rw [Bool.and_eq_true, beq_iff_eq, decide_eq_true_eq] at hpoint
  exact ⟨r, hr, hpoint.1, hpoint.2, (unwinding_reaches_handler hr hpoint.2).2⟩

/-- The same addition, with both of its operands put on the stack before the `try`. -/
def addAcrossTry : CodeObject :=
  { CodeObject.blank 0 "f" "f.py" with
    code := [100, 0, 100, 1, 122, 3, 23, 0, 87, 0, 83, 0, 1, 0, 1, 0, 1, 0, 89, 0, 100, 2, 83, 0]
    constants := [.int 1, .str "s", .int 7] }

/-- **An exception does not reach its handler** where the instruction takes operands from below the
level of the region, and such a body is compiled. -/
theorem unwinding_falls_short : ∃ r : RaisePoint,
    r.Of (.ofModel .withBuiltins {}) addAcrossTry .dynamic
      ∧ r.after.frame.stack.length < r.region.level
      ∧ ∀ ctx, ∃ a, routeFault r.step r.offset r.fault ctx r.after
        = .error (.broken "f" 3 (.handlerLevel 0 2)) a := by
  have hraises : (raisePoint? (.ofModel .withBuiltins {}) addAcrossTry .dynamic 3).any (fun r =>
      r.after.frame.stack.length == 0 && r.region.level == 2
        && r.after.frame.program.name == "f" && r.offset == 3) = true := by
    simp only [raisePoint?, Compiler.analyze, CompiledBody.analyze, CompiledBody.build,
      CompiledBody.settle, Body.decode, InstructionStream.decode, InstructionStream.strayJump?_eq]
    decide +kernel
  obtain ⟨r, hr, hpoint⟩ := exists_raisePoint hraises
  simp only [Bool.and_eq_true, beq_iff_eq] at hpoint
  obtain ⟨⟨⟨hheld, hlevel⟩, hname⟩, hoffset⟩ := hpoint
  obtain ⟨-, -, hpc⟩ := hr.frames
  have hshort : r.after.frame.stack.length < r.region.level := by omega
  refine ⟨r, hr, hshort, fun ctx => ?_⟩
  obtain ⟨a, ha⟩ := (routeFault_run hr.catchable r.step r.offset hr.find ctx r.after.store).2 hshort
  rw [Frame.broken, hname, hpc, hoffset, hheld, hlevel] at ha
  rw [hoffset]
  exact ⟨a, ha⟩

end Machine

end Stackwise
