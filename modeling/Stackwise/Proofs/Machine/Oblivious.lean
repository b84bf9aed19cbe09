import Stackwise.Proofs.Machine.Stepping

/-!
# Actions that do not look at local variables

All instructions but three neither read nor bind a local variable.

* `Blind`: an action that does the same whatever the local variables are, and leaves them alone.
* `Oblivious`: a blind action that leaves its frame where it is. One rule for each way of putting
  actions together, one lemma for each operation of the machine.
* `operate_oblivious`: every instruction but those for local variables is one.
* `routeFault_blind`: the way of a fault is blind.
-/

namespace Stackwise

/-! ## 1. Frames with other local variables -/

/-- The frame with other local variables. -/
def Frame.withLocals (f : Frame) (ls : Array (Option Value)) : Frame := { f with locals := ls }

/-- The activation with other local variables. -/
def Activation.withLocals (a : Activation) (ls : Array (Option Value)) : Activation :=
  { a with frame := a.frame.withLocals ls }

@[simp] theorem Frame.withLocals_self (f : Frame) : f.withLocals f.locals = f := rfl

@[simp] theorem Frame.withLocals_locals (f : Frame) (ls : Array (Option Value)) :
    (f.withLocals ls).locals = ls := rfl

namespace Machine

/-- The outcome with other local variables. -/
def withLocals {α : Type} (ls : Array (Option Value)) :
    EStateM.Result Fault Activation α → EStateM.Result Fault Activation α
  | .ok v a => .ok v (a.withLocals ls)
  | .error e a => .error e (a.withLocals ls)

/-- The frame that an action leaves. -/
def left {α : Type} : EStateM.Result Fault Activation α → Frame
  | .ok _ a => a.frame
  | .error _ a => a.frame

/-- The action does the same whatever the local variables are, and leaves them alone. -/
def Blind {α : Type} (x : FrameAction α) : Prop :=
  ∀ ctx a ls, x ctx (a.withLocals ls) = withLocals ls (x ctx a)

/-- The action leaves the frame where it is. -/
def Stays {α : Type} (x : FrameAction α) : Prop :=
  ∀ ctx a, (left (x ctx a)).program = a.frame.program ∧ (left (x ctx a)).pc = a.frame.pc

/-- The action does not look at the local variables and leaves the frame where it is. -/
structure Oblivious {α : Type} (x : FrameAction α) : Prop where
  blind : Blind x
  stays : Stays x

variable {α β : Type}

theorem Blind.locals {x : FrameAction α} (hx : Blind x) (ctx : Context) (a : Activation) :
    (left (x ctx a)).locals = a.frame.locals := by
  have h := hx ctx a a.frame.locals
  rw [show a.withLocals a.frame.locals = a from rfl] at h
  rw [h]
  cases x ctx a <;> rfl

/-! ## 2. Rules -/

theorem Blind.bind {x : FrameAction β} {k : β → FrameAction α} (hx : Blind x)
    (hk : ∀ v, Blind (k v)) : Blind (x >>= k) := by
  intro ctx a ls
  rw [run_bind, run_bind, hx]
  cases x ctx a with
  | ok v a => exact hk v ctx a ls
  | error e a => rfl

theorem Stays.bind {x : FrameAction β} {k : β → FrameAction α} (hx : Stays x)
    (hk : ∀ v, Stays (k v)) : Stays (x >>= k) := by
  intro ctx a
  have h := hx ctx a
  rw [run_bind]
  cases hres : x ctx a with
  | ok v a' =>
    rw [hres] at h
    obtain ⟨hprogram, hpc⟩ := hk v ctx a'
    exact ⟨hprogram.trans h.1, hpc.trans h.2⟩
  | error e a' =>
    rw [hres] at h
    exact h

theorem Oblivious.bind {x : FrameAction β} {k : β → FrameAction α} (hx : Oblivious x)
    (hk : ∀ v, Oblivious (k v)) : Oblivious (x >>= k) :=
  ⟨hx.blind.bind fun v => (hk v).blind, hx.stays.bind fun v => (hk v).stays⟩

theorem oblivious_pure (v : α) : Oblivious (pure v) :=
  ⟨fun _ _ _ => rfl, fun _ _ => ⟨rfl, rfl⟩⟩

theorem oblivious_throw (e : Fault) : Oblivious (throw e : FrameAction α) :=
  ⟨fun _ _ _ => rfl, fun _ _ => ⟨rfl, rfl⟩⟩

/-- What reads the frame reads something else of it. -/
theorem blind_frame {k : Frame → FrameAction α} (hsame : ∀ f ls, k (f.withLocals ls) = k f)
    (hk : ∀ f, Blind (k f)) : Blind (frame >>= k) := by
  intro ctx a ls
  have hrun : ∀ a, (frame >>= k) ctx a = k a.frame ctx a := fun _ => rfl
  rw [hrun, hrun, show (a.withLocals ls).frame = a.frame.withLocals ls from rfl, hsame]
  exact hk a.frame ctx a ls

theorem oblivious_frame {k : Frame → FrameAction α} (hsame : ∀ f ls, k (f.withLocals ls) = k f)
    (hk : ∀ f, Oblivious (k f)) : Oblivious (frame >>= k) :=
  ⟨blind_frame hsame fun f => (hk f).blind, fun ctx a => (hk a.frame).stays ctx a⟩

theorem blind_updateFrame {g : Frame → Frame}
    (hsame : ∀ f ls, g (f.withLocals ls) = (g f).withLocals ls) : Blind (updateFrame g) := by
  intro ctx a ls
  change EStateM.Result.ok () { a with frame := g (a.frame.withLocals ls) } = _
  rw [hsame]
  rfl

theorem oblivious_updateFrame {g : Frame → Frame}
    (hsame : ∀ f ls, g (f.withLocals ls) = (g f).withLocals ls)
    (hstays : ∀ f, (g f).program = f.program ∧ (g f).pc = f.pc) : Oblivious (updateFrame g) :=
  ⟨blind_updateFrame hsame, fun _ a => hstays a.frame⟩

theorem oblivious_inFrame (act : Action α) : Oblivious (inFrame act) := by
  refine ⟨fun ctx a ls => ?_, fun ctx a => ?_⟩
  · rw [inFrame, inFrame, show (a.withLocals ls).store = a.store from rfl]
    cases act ctx a.store <;> rfl
  · rw [inFrame]
    cases act ctx a.store <;> exact ⟨rfl, rfl⟩

theorem oblivious_lift (act : Action α) : Oblivious (liftM act : FrameAction α) :=
  oblivious_inFrame act

theorem oblivious_broken (cause : Broken) : Oblivious (broken cause : FrameAction α) :=
  oblivious_frame (fun _ _ => rfl) fun _ => oblivious_throw _

theorem oblivious_foldlM {xs : List β} {g : α → β → FrameAction α}
    (hg : ∀ a x, Oblivious (g a x)) (a : α) : Oblivious (xs.foldlM g a) := by
  induction xs generalizing a with
  | nil => exact oblivious_pure a
  | cons x xs ih =>
    rw [List.foldlM_cons]
    exact (hg a x).bind fun a => ih a

theorem oblivious_mapM {xs : List β} {g : β → FrameAction α} (hg : ∀ x, Oblivious (g x)) :
    Oblivious (xs.mapM g) := by
  induction xs with
  | nil => exact oblivious_pure []
  | cons x xs ih =>
    rw [List.mapM_cons]
    exact (hg x).bind fun _ => ih.bind fun _ => oblivious_pure _

theorem oblivious_onStack (g : List Value → Option (α × List Value)) : Oblivious (onStack g) := by
  refine oblivious_frame (fun _ _ => rfl) fun f => ?_
  cases g f.stack with
  | none => exact oblivious_broken _
  | some r =>
    refine .bind (oblivious_updateFrame ?_ ?_) fun _ => oblivious_pure _
    · exact fun _ _ => rfl
    · exact fun _ => ⟨rfl, rfl⟩

theorem oblivious_pop : Oblivious pop := oblivious_onStack _

theorem oblivious_popMany (n : Nat) : Oblivious (popMany n) := oblivious_onStack _

theorem oblivious_peek (n : Nat) : Oblivious (peek n) := oblivious_onStack _

theorem oblivious_rotate (n : Nat) : Oblivious (rotate n) := oblivious_onStack _

theorem oblivious_push (v : Value) : Oblivious (push v) :=
  oblivious_updateFrame (fun _ _ => rfl) fun _ => ⟨rfl, rfl⟩

theorem oblivious_pushAll (vs : List Value) : Oblivious (pushAll vs) :=
  oblivious_updateFrame (fun _ _ => rfl) fun _ => ⟨rfl, rfl⟩

theorem oblivious_pushLift (act : Action Value) :
    Oblivious (do push (← act) : FrameAction Unit) :=
  (oblivious_lift act).bind oblivious_push

theorem oblivious_target (n : Nat) : Oblivious (target n) := by
  cases n with
  | zero => exact oblivious_broken _
  | succ n => exact oblivious_peek n

theorem oblivious_cellAt (slot : Nat) : Oblivious (cellAt slot) := by
  refine oblivious_frame (fun _ _ => rfl) fun f => ?_
  cases f.cells[slot]? with
  | none => exact oblivious_broken _
  | some r => exact oblivious_pure r

theorem oblivious_getCell (slot : Nat) : Oblivious (getCell slot) := by
  refine (oblivious_cellAt slot).bind fun r => (oblivious_lift _).bind fun content => ?_
  cases content with
  | some v => exact oblivious_pure v
  | none => exact oblivious_frame (fun _ _ => rfl) fun f => oblivious_lift _

/-! ## 3. Operations -/

theorem oblivious_build (shape : Shape) (n : Nat) : Oblivious (build shape n) := by
  cases shape with
  | tuple | list => exact .bind (oblivious_popMany n) fun vs => oblivious_lift _
  | set =>
    exact .bind (oblivious_popMany n) fun vs =>
      .bind (oblivious_foldlM (fun _ _ => oblivious_inFrame _) _) fun ms => oblivious_lift _
  | map =>
    exact .bind (oblivious_popMany _) fun vs => .bind (oblivious_lift _) fun ps => oblivious_lift _
  | constKeyMap =>
    refine .bind oblivious_pop fun keys => .bind (oblivious_popMany n) fun vs => ?_
    cases keys with
    | tuple id keys => exact .bind (oblivious_lift _) fun ps => oblivious_lift _
    | _ => exact oblivious_broken _
  | string =>
    exact .bind (oblivious_popMany n) fun vs =>
      .bind (oblivious_mapM fun _ => oblivious_inFrame _) fun ts => oblivious_lift _
  | slice =>
    have hrest : ∀ step, Oblivious (do
        let stop ← pop
        let start ← pop
        make (Store.newSlice start stop step) : FrameAction Value) :=
      fun step => .bind oblivious_pop fun stop => .bind oblivious_pop fun start => oblivious_lift _
    unfold build
    dsimp only
    split
    · exact .bind oblivious_pop hrest
    · exact .bind (oblivious_pure _) hrest

theorem oblivious_mergeTarget (depth : Nat) (cause : Broken) (merge : Bool)
    (incoming : List (Value × Value)) : Oblivious (do
      match ← target depth with
      | .dict r => mergeInto r merge incoming
      | _ => broken cause : FrameAction Unit) := by
  refine .bind (oblivious_target depth) fun t => ?_
  split
  · exact oblivious_lift _
  · exact oblivious_broken _

theorem oblivious_update (kind : Update) (depth : Nat) : Oblivious (update kind depth) := by
  unfold update
  cases kind with
  | listAppend | setAdd =>
    refine .bind oblivious_pop fun v => .bind (oblivious_target depth) fun t => ?_
    split
    · exact oblivious_lift _
    · exact oblivious_broken _
  | listExtend | setUpdate =>
    refine .bind oblivious_pop fun v => .bind (oblivious_lift _) fun items =>
      .bind (oblivious_target depth) fun t => ?_
    split
    · exact oblivious_lift _
    · exact oblivious_broken _
  | mapAdd =>
    refine .bind oblivious_pop fun value => .bind oblivious_pop fun key =>
      .bind (oblivious_lift _) fun _ => .bind (oblivious_target depth) fun t => ?_
    split
    · exact oblivious_lift _
    · exact oblivious_broken _
  | dictUpdate | dictMerge =>
    refine .bind oblivious_pop fun other => ?_
    split
    · exact .bind (oblivious_lift _) (oblivious_mergeTarget depth _ _)
    · exact .bind (oblivious_lift _) fun _ => .bind (oblivious_lift _) (oblivious_mergeTarget depth _ _)

theorem oblivious_unpackSequence (n : Nat) : Oblivious (unpackSequence n) := by
  refine .bind oblivious_pop fun v => .bind (oblivious_lift _) fun items => ?_
  split
  · exact oblivious_lift _
  · split
    · exact oblivious_lift _
    · exact oblivious_pushAll _

theorem oblivious_unpackEx (before after : Nat) : Oblivious (unpackEx before after) := by
  refine .bind oblivious_pop fun v => .bind (oblivious_lift _) fun items => ?_
  split
  · exact oblivious_lift _
  · exact .bind (oblivious_lift _) fun middle => oblivious_pushAll _

theorem oblivious_formatTop (flags : Nat) : Oblivious (formatTop flags) := by
  have hrest : ∀ spec, Oblivious (do
      let v ← converted flags (← pop)
      push (← newStr (← format v spec)) : FrameAction Unit) :=
    fun spec => .bind oblivious_pop fun v => .bind (oblivious_lift _) fun w =>
      .bind (oblivious_lift _) fun text => oblivious_pushLift _
  unfold formatTop
  dsimp only
  split
  · refine .bind oblivious_pop fun spec => ?_
    split
    · exact hrest _
    · exact .bind (oblivious_broken _) hrest
  · exact hrest _

theorem oblivious_callTop (lowering : Lowering) (argc : Nat) :
    Oblivious (callTop lowering argc) := by
  refine .bind (oblivious_popMany argc) fun args => .bind oblivious_pop fun callee => ?_
  split
  · split
    · exact oblivious_pushLift _
    · exact oblivious_pushLift _
  · exact oblivious_pushLift _

theorem oblivious_callKeywords (argc : Nat) : Oblivious (callKeywords argc) := by
  refine .bind oblivious_pop fun names => .bind (oblivious_popMany argc) fun args =>
    .bind oblivious_pop fun callee => ?_
  split
  · split
    · exact oblivious_broken _
    · dsimp only
      split
      · exact oblivious_pushLift _
      · exact oblivious_broken _
  · exact oblivious_broken _

theorem oblivious_callUnpacked (hasMapping : Bool) : Oblivious (callUnpacked hasMapping) := by
  have hrest : ∀ mapping, Oblivious (do
      let iterable ← pop
      let callee ← pop
      let args ← collect iterable
      let kwargs ← match mapping with
        | some v => mappingKeywords v
        | none => pure []
      push (← callWith callee args kwargs) : FrameAction Unit) := by
    intro mapping
    refine .bind oblivious_pop fun iterable => .bind oblivious_pop fun callee =>
      .bind (oblivious_lift _) fun args => ?_
    cases mapping with
    | some v => exact .bind (oblivious_lift _) fun kwargs => oblivious_pushLift _
    | none => exact oblivious_pushLift _
  unfold callUnpacked
  cases hasMapping with
  | true => exact .bind oblivious_pop fun v => hrest (some v)
  | false => exact hrest none

theorem oblivious_callMethodTop (lowering : Lowering) (argc : Nat) :
    Oblivious (callMethodTop lowering argc) := by
  refine .bind (oblivious_popMany argc) fun args => .bind oblivious_pop fun receiver =>
    .bind oblivious_pop fun method => ?_
  dsimp only
  split
  · exact oblivious_pushLift _
  · exact oblivious_pushLift _

theorem oblivious_checked (x : Except Broken α) : Oblivious (checked x) := by
  cases x with
  | ok v => exact oblivious_pure v
  | error cause => exact oblivious_broken cause

theorem oblivious_makeFunction (flags : Nat) : Oblivious (makeFunction flags) := by
  unfold makeFunction
  refine .bind oblivious_pop fun qualname => .bind oblivious_pop fun code => ?_
  split
  · -- the optional parts, from the closure down to the defaults
    extract_lets has withClosure
    have hclosure : ∀ closure, Oblivious (withClosure closure) := by
      intro closure
      simp -zeta only [withClosure]
      extract_lets withSignature
      have hsignature : ∀ signature, Oblivious (withSignature signature) := by
        intro signature
        simp -zeta only [withSignature]
        extract_lets withKeywords
        have hkeywords : ∀ kwdefaults, Oblivious (withKeywords kwdefaults) := by
          intro kwdefaults
          simp -zeta only [withKeywords]
          split
          · refine .bind oblivious_pop fun v => ?_
            split
            · exact .bind (oblivious_pure _) fun _ => oblivious_pushLift _
            · exact .bind (oblivious_broken _) fun _ => oblivious_pushLift _
          · exact .bind (oblivious_pure _) fun _ => oblivious_pushLift _
        split
        · refine .bind oblivious_pop fun v => ?_
          split
          · exact .bind (oblivious_lift _) hkeywords
          · exact .bind (oblivious_broken _) hkeywords
        · exact .bind (oblivious_pure _) hkeywords
      split
      · exact .bind oblivious_pop fun v => .bind (oblivious_lift _) fun s =>
          .bind (oblivious_checked _) fun items => .bind (oblivious_pure _) hsignature
      · exact .bind (oblivious_pure _) hsignature
    split
    · exact .bind oblivious_pop fun v => .bind (oblivious_checked _) hclosure
    · exact .bind (oblivious_pure _) hclosure
  · exact oblivious_broken _

theorem oblivious_reraised : Oblivious reraised := by
  refine .bind oblivious_pop fun type => .bind oblivious_pop fun value =>
    .bind oblivious_pop fun _ => ?_
  split
  · exact oblivious_pure _
  · exact oblivious_lift _

theorem oblivious_raisedBy (n : Nat) : Oblivious (raisedBy n) := by
  unfold raisedBy
  split
  · refine oblivious_frame (fun _ _ => rfl) fun f => ?_
    cases f.handled with
    | some e => exact oblivious_pure e
    | none => exact oblivious_lift _
  · exact .bind oblivious_pop fun v => oblivious_lift _
  · exact .bind oblivious_pop fun _ => .bind oblivious_pop fun v => oblivious_lift _

theorem oblivious_delegate (state exit : Nat) : Oblivious (delegate state exit) := by
  refine .bind oblivious_pop fun sent => .bind (oblivious_peek 0) fun receiver =>
    .bind (oblivious_lift _) fun r => ?_
  cases r with
  | ok v =>
    refine .bind (oblivious_updateFrame ?_ ?_) fun _ => oblivious_pure _
    · exact fun _ _ => rfl
    · exact fun _ => ⟨rfl, rfl⟩
  | error e =>
    refine .bind (oblivious_lift _) fun m => .bind (oblivious_lift _) fun s => ?_
    split
    · exact .bind oblivious_pop fun _ => .bind (oblivious_push _) fun _ => oblivious_pure _
    · exact oblivious_throw e

theorem oblivious_resumePoint : Oblivious resumePoint := by
  refine oblivious_frame (fun _ _ => rfl) fun f => .bind (oblivious_updateFrame ?_ ?_) fun _ => ?_
  · exact fun _ _ => rfl
  · exact fun _ => ⟨rfl, rfl⟩
  · split
    · exact oblivious_push _
    · exact oblivious_throw _
    · exact oblivious_broken _

theorem oblivious_dispatch (states : List (Nat × Nat)) : Oblivious (dispatch states) := by
  refine oblivious_frame (fun _ _ => rfl) fun f => ?_
  dsimp only
  split
  · exact oblivious_pure _
  · split
    · exact oblivious_pure _
    · exact oblivious_broken _

/-- All operations but those for local variables. -/
theorem perform_oblivious {op : Op} (hused : Liveness.used? op = none)
    (hdefined : Liveness.defined? op = none) (lowering : Lowering) :
    Oblivious (perform op lowering) := by
  unfold perform
  cases op with
  | loadFast _ | deleteFast _ => cases hused
  | storeFast _ => cases hdefined
  | popTop => exact .bind oblivious_pop fun _ => oblivious_pure _
  | rotTwo | rotThree | rotFour | rotN _ => exact oblivious_rotate _
  | dupTop => exact .bind (oblivious_peek 0) oblivious_push
  | dupTopTwo =>
    exact .bind (oblivious_peek 1) fun _ => .bind (oblivious_peek 0) fun _ => oblivious_pushAll _
  | unary _ | getIter | getYieldFromIter | loadAttr _ | loadSpecial _ =>
    exact .bind oblivious_pop fun v => oblivious_pushLift _
  | binary _ _ | binarySubscr | compare _ =>
    exact .bind oblivious_pop fun _ => .bind oblivious_pop fun _ => oblivious_pushLift _
  | storeSubscr =>
    exact .bind oblivious_pop fun _ => .bind oblivious_pop fun _ => .bind oblivious_pop fun _ =>
      oblivious_lift _
  | deleteSubscr | storeAttr _ =>
    exact .bind oblivious_pop fun _ => .bind oblivious_pop fun _ => oblivious_lift _
  | isOp _ => exact .bind oblivious_pop fun _ => .bind oblivious_pop fun _ => oblivious_push _
  | containsOp _ =>
    exact .bind oblivious_pop fun _ => .bind oblivious_pop fun _ => .bind (oblivious_lift _)
      fun _ => oblivious_push _
  | loadConst index =>
    refine oblivious_frame (fun _ _ => rfl) fun f => ?_
    dsimp only
    split
    · exact oblivious_pushLift _
    · exact oblivious_broken _
  | loadDeref slot | loadClassDeref slot => exact .bind (oblivious_getCell slot) oblivious_push
  | storeDeref slot =>
    exact .bind oblivious_pop fun _ => .bind (oblivious_cellAt slot) fun _ => oblivious_lift _
  | deleteDeref slot =>
    exact .bind (oblivious_getCell slot) fun _ => .bind (oblivious_cellAt slot) fun _ =>
      oblivious_lift _
  | loadClosure slot => exact .bind (oblivious_cellAt slot) fun _ => oblivious_push _
  | loadGlobal _ _ | loadName _ _ =>
    exact oblivious_frame (fun _ _ => rfl) fun f => oblivious_pushLift _
  | storeGlobal _ | storeName _ => exact .bind oblivious_pop fun _ => oblivious_lift _
  | deleteGlobal _ | deleteName _ => exact oblivious_lift _
  | deleteAttr _ =>
    exact .bind oblivious_pop fun _ => .bind (oblivious_lift _) fun _ => oblivious_lift _
  | loadMethod _ =>
    exact .bind oblivious_pop fun _ => .bind (oblivious_lift _) fun _ => oblivious_pushAll _
  | loadAssertionError => exact oblivious_push _
  | loadBuildClass | importName _ | importFrom _ | importStar | setupAnnotations =>
    exact oblivious_lift _
  | printExpr =>
    refine .bind oblivious_pop fun v => ?_
    split
    · exact oblivious_pure _
    · exact .bind (oblivious_lift _) fun _ => oblivious_lift _
  | build shape n => exact .bind (oblivious_build shape n) oblivious_push
  | listToTuple =>
    exact .bind oblivious_pop fun _ => .bind (oblivious_lift _) fun _ => oblivious_pushLift _
  | update kind depth => exact oblivious_update kind depth
  | unpackSequence n => exact oblivious_unpackSequence n
  | unpackEx before after => exact oblivious_unpackEx before after
  | formatValue flags => exact oblivious_formatTop flags
  | callFunction argc => exact oblivious_callTop lowering argc
  | callFunctionKw argc => exact oblivious_callKeywords argc
  | callFunctionEx kwargs => exact oblivious_callUnpacked kwargs
  | callMethod argc => exact oblivious_callMethodTop lowering argc
  | makeFunction flags => exact oblivious_makeFunction flags
  | setupWith _ =>
    exact .bind oblivious_pop fun _ => .bind (oblivious_lift _) fun _ => .bind (oblivious_lift _)
      fun _ => .bind (oblivious_push _) fun _ => oblivious_pushLift _
  | popExcept =>
    refine .bind (oblivious_popMany 3) fun _ => oblivious_updateFrame ?_ ?_
    · exact fun _ _ => rfl
    · exact fun _ => ⟨rfl, rfl⟩
  | withExceptStart =>
    exact .bind (oblivious_peek 6) fun _ => .bind (oblivious_peek 0) fun _ => .bind
      (oblivious_peek 1) fun _ => .bind (oblivious_peek 2) fun _ => oblivious_pushLift _
  | yieldValue | yieldFrom => exact oblivious_broken _
  | resumePoint _ => exact oblivious_resumePoint
  | nop | forIter _ | jump _ | popJumpIf _ _ | jumpIfOrPop _ _ | jumpIfNotExcMatch _ | returnValue
  | setupFinally _ _ _ | popBlock | reraise _ | raiseVarargs _ | resumeDispatch _ | suspend _
  | delegate _ _ | genStart _ => exact oblivious_pure _

/-- **An instruction that is not for local variables does not look at them.** -/
theorem operate_oblivious {op : Op} (hused : Liveness.used? op = none)
    (hdefined : Liveness.defined? op = none) (lowering : Lowering) :
    Oblivious (operate op lowering) := by
  have hperform := (perform_oblivious hused hdefined lowering).bind
    fun _ => oblivious_pure Flow.next
  unfold operate
  cases op with
  | forIter exit =>
    refine .bind (oblivious_peek 0) fun v => .bind (oblivious_lift _) fun item => ?_
    cases item with
    | some v => exact .bind (oblivious_push v) fun _ => oblivious_pure _
    | none => exact .bind oblivious_pop fun _ => oblivious_pure _
  | jump target => exact oblivious_pure _
  | popJumpIf on target =>
    exact .bind oblivious_pop fun v => .bind (oblivious_lift _) fun _ => oblivious_pure _
  | jumpIfOrPop on target =>
    refine .bind (oblivious_peek 0) fun v => .bind (oblivious_lift _) fun b => ?_
    split
    · exact oblivious_pure _
    · exact .bind oblivious_pop fun _ => oblivious_pure _
  | jumpIfNotExcMatch target =>
    exact .bind oblivious_pop fun _ => .bind oblivious_pop fun _ => .bind (oblivious_lift _)
      fun _ => oblivious_pure _
  | returnValue =>
    refine .bind oblivious_pop fun v => ?_
    split
    · exact oblivious_frame (fun _ _ => rfl) fun f => .bind (oblivious_lift _)
        fun _ => oblivious_pure _
    · exact oblivious_pure _
  | reraise _ => exact .bind oblivious_reraised fun e => oblivious_throw _
  | raiseVarargs n => exact .bind (oblivious_raisedBy n) fun e => oblivious_throw _
  | resumeDispatch states => exact oblivious_dispatch states
  | suspend state =>
    refine .bind oblivious_pop fun v => .bind (oblivious_updateFrame ?_ ?_)
      fun _ => oblivious_pure _
    · exact fun _ _ => rfl
    · exact fun _ => ⟨rfl, rfl⟩
  | delegate state exit => exact oblivious_delegate state exit
  | _ => exact hperform

/-! ## 4. Faults -/

theorem unwind_blind (e : Raised) : Blind (unwind e) := by
  refine blind_frame (fun _ _ => rfl) fun f => ?_
  split
  · exact (oblivious_throw _).blind
  · dsimp only
    split
    · refine .bind (blind_updateFrame ?_) fun _ => (oblivious_broken _).blind
      exact fun _ _ => rfl
    · refine .bind (oblivious_lift _).blind fun _ => .bind (oblivious_lift _).blind fun _ =>
        blind_updateFrame ?_
      exact fun _ _ => rfl

/-- **The way of a fault does not depend on the local variables.** -/
theorem routeFault_blind (step : Step) (pc : Nat) (fault : Fault) :
    Blind (routeFault step pc fault) := by
  have hunwind : ∀ e, Blind (do unwind e; return none : FrameAction (Option Exit)) :=
    fun e => (unwind_blind e).bind fun _ => (oblivious_pure _).blind
  unfold routeFault
  refine .bind (oblivious_lift _).blind fun e => blind_frame (fun _ _ => rfl) fun f => ?_
  cases step.op with
  | reraise _ => exact hunwind e
  | _ => exact .bind (oblivious_lift _).blind fun _ => hunwind e

end Machine

end Stackwise
