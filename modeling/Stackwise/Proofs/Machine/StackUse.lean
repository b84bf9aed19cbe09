import Stackwise.Proofs.Analysis.Form
import Stackwise.Proofs.Body.Operands
import Stackwise.Proofs.Machine.ComposedOperations

/-!
# What instructions do to the stack

An instruction leaves its frame alone except for the stack, the contents of the variables and the
exception that is being handled. How much of the stack it takes and leaves is what the analysis
says.

* `Footing`: what an instruction leaves alone.
* `Runs`: an action on a frame with a stack of length `d` ends with a value and a length that
  satisfy a condition, or in a tolerated fault.
* `perform_runs`, `operate_runs`: every instruction follows the table of `Op.moves`.
-/

namespace Stackwise

/-! ## 1. Frames and instructions -/

/-- What an instruction leaves alone. -/
structure Footing where
  program : Program
  pc : Nat
  locals : Nat
  cells : Array Nat
  state : Nat
  resumption : Option Resumption

/-- What instructions of the frame leave alone. -/
def Frame.footing (f : Frame) : Footing where
  program := f.program
  pc := f.pc
  locals := f.locals.size
  cells := f.cells
  state := f.state
  resumption := f.resumption

/-- What an action on a frame with the given footing leaves behind, when `post` holds of its value
and of the length of the stack. -/
def Footing.result {α : Type} (W : Tolerance) (r : Footing) (post : α → Nat → Prop) :
    EStateM.Result Fault Activation α → Prop
  | .ok v a => a.frame.footing = r ∧ W.store a.store ∧ post v a.frame.stack.length
  | .error e a => a.frame.footing = r ∧ W.store a.store ∧ W.fault e

/-- The frame holds the variable or constant that an operation names. -/
def Op.FitsIn (r : Footing) (op : Op) : Prop :=
  op.Fits r.locals r.cells.size r.program.code.constants.length

/-- What an instruction changes of what others leave alone: a resume point takes what the frame was
given. -/
def Op.shift (r : Footing) : Op → Footing
  | .resumePoint _ => { r with resumption := none }
  | _ => r

theorem Op.lowerResolved_ne_elided (s : AbstractState) (n : Nat) (x : Option Resolved) :
    Op.lowerResolved s n x ≠ .elided := by
  cases x <;> exact fun h => by cases h

theorem Op.lowerTwo_ne_elided (s : AbstractState) (resolve : Slot → Slot → Option Resolved) :
    Op.lowerTwo s resolve ≠ .elided := by
  unfold lowerTwo
  split
  · exact lowerResolved_ne_elided _ _ _
  · exact fun h => by cases h

theorem Op.lowerCall_ne_elided (ty : Typer) (s : AbstractState) (argc under : Nat) :
    Op.lowerCall ty s argc under ≠ .elided := by
  unfold lowerCall
  split
  · exact fun h => by cases h
  · dsimp only
    split <;> exact fun h => by cases h

/-- Where control goes after an instruction, and with how much on the stack, is one of the ways on
of a table. An instruction that is not a switch does not suspend its frame. -/
def Flow.Among (ws : List (Successor × Nat × List Block)) : Flow → Nat → Prop
  | .next, d => ∃ bs, (.next, d, bs) ∈ ws
  | .jump t, d => ∃ bs, (.jump t, d, bs) ∈ ws
  | .leave _, _ => True
  | .yields _, _ => False

/-- What an instruction leaves behind on a frame with the given footing, when the table has the ways
on `ws`. A frame that is suspended has the state of its suspension; control comes to the instruction
after a suspension in no other way. -/
def Op.Outcome (W : Tolerance) (r : Footing) (ws : List (Successor × Nat × List Block)) (op : Op) :
    EStateM.Result Fault Activation Flow → Prop
  | .ok (.yields _) a => W.store a.store ∧ ∃ k bs, op.suspension? = some k
      ∧ a.frame.footing = { r with state := k } ∧ (.next, a.frame.stack.length, bs) ∈ ws
  | .ok flow a => W.store a.store ∧ a.frame.footing = r ∧ Flow.Among ws flow a.frame.stack.length
      ∧ (flow = .next → op.suspension? = none)
  | .error e a => W.store a.store ∧ a.frame.footing = r ∧ W.fault e

namespace Machine

/-! ## 2. Actions by length of the stack -/

/-- From a stack of length `d` the action keeps its footing and ends with `post`, or in a tolerated
fault. -/
def Runs {α : Type} (W : Tolerance) (r : Footing) (act : FrameAction α) (d : Nat)
    (post : α → Nat → Prop) : Prop :=
  ∀ ctx, W.context ctx → ∀ f s, f.footing = r → f.stack.length = d → W.store s →
    Footing.result W r post (act ctx ⟨f, s⟩)

variable {W : Tolerance} {r : Footing} {α β : Type} {d : Nat} {post : α → Nat → Prop}

theorem Runs.bind {x : FrameAction β} {k : β → FrameAction α}
    (h : Runs W r x d fun v d' => Runs W r (k v) d' post) : Runs W r (x >>= k) d post := by
  intro ctx hc f s hr hd hs
  have hx := h ctx hc f s hr hd hs
  simp only [Bind.bind, ReaderT.bind, EStateM.bind]
  cases hres : x ctx ⟨f, s⟩ with
  | ok v a =>
    rw [hres] at hx
    exact hx.2.2 ctx hc a.frame a.store hx.1 rfl hx.2.1
  | error e a =>
    rw [hres] at hx
    exact hx

theorem Runs.mono {act : FrameAction α} {post' : α → Nat → Prop} (h : Runs W r act d post)
    (hp : ∀ v d', post v d' → post' v d') : Runs W r act d post' := by
  intro ctx hc f s hr hd hs
  have hact := h ctx hc f s hr hd hs
  cases hres : act ctx ⟨f, s⟩ with
  | ok v a =>
    rw [hres] at hact
    exact ⟨hact.1, hact.2.1, hp v _ hact.2.2⟩
  | error e a =>
    rw [hres] at hact
    exact hact

theorem runs_pure {v : α} (h : post v d) : Runs W r (pure v) d post := by
  intro ctx hc f s hr hd hs
  exact ⟨hr, hs, by rw [hd]; exact h⟩

theorem runs_throw {e : Fault} (he : W.fault e) : Runs W r (throw e) d post :=
  fun _ _ _ _ hr _ hs => ⟨hr, hs, he⟩

theorem runs_inFrame {act : Action α} (hact : Composed W act) (h : ∀ v, post v d) :
    Runs W r (inFrame act) d post := by
  intro ctx hc f s hr hd hs
  have hres := hact.calm ctx hc s hs
  unfold inFrame
  cases hx : act ctx s with
  | ok v s' =>
    rw [hx] at hres
    exact ⟨hr, hres, by rw [hd]; exact h v⟩
  | error e s' =>
    rw [hx] at hres
    exact ⟨hr, hres.1, hres.2⟩

theorem runs_lift {act : Action α} (hact : Composed W act) (h : ∀ v, post v d) :
    Runs W r (liftM act) d post :=
  runs_inFrame hact h

theorem runs_gentle {act : Action α} (hact : Gentle act) (h : ∀ v, post v d) :
    Runs W r (liftM act : FrameAction α) d post :=
  runs_lift hact.composed h

theorem runs_frame {post : Frame → Nat → Prop} (h : ∀ f, f.footing = r → f.stack.length = d → post f d) :
    Runs W r frame d post := by
  intro ctx hc f s hr hd hs
  refine ⟨hr, hs, ?_⟩
  rw [show (Activation.mk f s).frame.stack.length = d from hd]
  exact h f hr hd

theorem runs_broken {cause : Broken} (hcause : cause.ofFrame = false) :
    Runs W r (broken cause) d post := by
  intro ctx hc f s hr hd hs
  exact ⟨hr, hs, W.other _ hcause⟩

theorem runs_updateFrame {g : Frame → Frame} {post : Unit → Nat → Prop}
    (h : ∀ f, f.footing = r → f.stack.length = d → (g f).footing = r ∧ post () (g f).stack.length) :
    Runs W r (updateFrame g) d post := by
  intro ctx hc f s hr hd hs
  obtain ⟨hfoot, hpost⟩ := h f hr hd
  exact ⟨hfoot, hs, hpost⟩

/-! ## 3. Operations on the stack -/

theorem onStack_run (g : List Value → Option (α × List Value)) (ctx : Context) (f : Frame)
    (s : Store) : onStack g ctx ⟨f, s⟩ = (match g f.stack with
      | some (a, stack) => do
        updateFrame fun fr => { fr with stack }
        return a
      | none => broken .stackUnderflow : FrameAction α) ctx ⟨f, s⟩ := rfl

/-- An operation on the stack runs if it has a result on every stack of this length. -/
theorem runs_onStack {g : List Value → Option (α × List Value)}
    (h : ∀ stack, stack.length = d → ∃ v stack', g stack = some (v, stack') ∧ post v stack'.length) :
    Runs W r (onStack g) d post := by
  intro ctx hc f s hr hd hs
  obtain ⟨v, stack', hg, hpost⟩ := h f.stack hd
  have hrun : onStack g ctx ⟨f, s⟩ = .ok v ⟨{ f with stack := stack' }, s⟩ := by
    rw [onStack_run, hg]
    rfl
  rw [hrun]
  exact ⟨hr, hs, hpost⟩

theorem runs_pop {post : Value → Nat → Prop} (hd : 1 ≤ d) (h : ∀ v, post v (d - 1)) :
    Runs W r pop d post := by
  refine runs_onStack fun stack hlen => ?_
  cases stack with
  | nil =>
    rw [List.length_nil] at hlen
    omega
  | cons v rest =>
    rw [List.length_cons] at hlen
    refine ⟨v, rest, rfl, ?_⟩
    rw [show rest.length = d - 1 by omega]
    exact h v

theorem runs_popMany {n : Nat} {post : List Value → Nat → Prop} (hd : n ≤ d)
    (h : ∀ vs, vs.length = n → post vs (d - n)) : Runs W r (popMany n) d post := by
  refine runs_onStack fun stack hlen => ?_
  refine ⟨(stack.take n).reverse, stack.drop n, if_pos (hlen ▸ hd), ?_⟩
  rw [List.length_drop, hlen]
  refine h _ ?_
  rw [List.length_reverse, List.length_take]
  omega

theorem runs_peek {n : Nat} {post : Value → Nat → Prop} (hd : n < d) (h : ∀ v, post v d) :
    Runs W r (peek n) d post := by
  refine runs_onStack fun stack hlen => ?_
  have hn : n < stack.length := hlen ▸ hd
  refine ⟨stack[n], stack, ?_, ?_⟩
  · rw [List.getElem?_eq_getElem hn]
    rfl
  · rw [hlen]
    exact h _

theorem runs_rotate {n : Nat} {post : Unit → Nat → Prop} (hd : n ≤ d) (h : post () d) :
    Runs W r (rotate n) d post := by
  refine runs_onStack fun stack hlen => ?_
  have hrot : ∃ stack', Stack.rotate? n stack = some stack' ∧ stack'.length = d := by
    cases stack with
    | nil =>
      rw [List.length_nil] at hlen
      exact ⟨[], if_pos (by omega), hlen⟩
    | cons v rest =>
      rw [List.length_cons] at hlen
      by_cases hn : n < 2
      · exact ⟨v :: rest, if_pos hn, by rw [List.length_cons]; exact hlen⟩
      · simp only [Stack.rotate?, if_neg hn, if_neg (show ¬ rest.length < n - 1 by omega)]
        refine ⟨_, rfl, ?_⟩
        simp only [List.length_append, List.length_cons, List.length_take, List.length_drop]
        omega
  obtain ⟨stack', heq, hlen'⟩ := hrot
  refine ⟨(), stack', ?_, ?_⟩
  · rw [heq]
    rfl
  · rw [hlen']
    exact h

theorem runs_push {v : Value} {post : Unit → Nat → Prop} (h : post () (d + 1)) :
    Runs W r (push v) d post := by
  refine runs_updateFrame fun f hr hd => ⟨hr, ?_⟩
  rw [List.length_cons, hd]
  exact h

theorem runs_pushAll {vs : List Value} {post : Unit → Nat → Prop} (h : post () (d + vs.length)) :
    Runs W r (pushAll vs) d post := by
  refine runs_updateFrame fun f hr hd => ⟨hr, ?_⟩
  rw [List.length_append, hd, Nat.add_comm]
  exact h

theorem runs_target {n : Nat} {post : Value → Nat → Prop} (hd : n ≤ d) (h : ∀ v, post v d) :
    Runs W r (target n) d post := by
  unfold target
  cases n with
  | zero => exact runs_broken rfl
  | succ n => exact runs_peek hd h

/-! ## 4. Variables -/

theorem runs_getLocal {slot : Nat} {post : Value → Nat → Prop} (hslot : slot < r.locals)
    (h : ∀ v, post v d) : Runs W r (getLocal slot) d post := by
  refine .bind (runs_frame fun f hr _ => ?_)
  have hlt : slot < f.locals.size := by
    rw [← hr] at hslot
    exact hslot
  rw [Array.getElem?_eq_getElem hlt]
  cases f.locals[slot] with
  | some v => exact runs_pure (h v)
  | none => exact runs_gentle (gentle_unboundLocal _) h

theorem runs_setLocal {slot : Nat} {v : Option Value} {post : Unit → Nat → Prop}
    (hslot : slot < r.locals) (h : post () d) : Runs W r (setLocal slot v) d post := by
  refine .bind (runs_frame fun f hr _ => ?_)
  have hlt : slot < f.locals.size := by
    rw [← hr] at hslot
    exact hslot
  rw [if_pos hlt]
  refine runs_updateFrame fun g hg hd => ⟨?_, by rw [hd]; exact h⟩
  rw [← hg]
  simp only [Frame.footing, Array.size_setIfInBounds]

theorem runs_cellAt {slot : Nat} {post : Nat → Nat → Prop} (hslot : slot < r.cells.size)
    (h : ∀ v, post v d) : Runs W r (cellAt slot) d post := by
  refine .bind (runs_frame fun f hr _ => ?_)
  have hlt : slot < f.cells.size := by
    rw [← hr] at hslot
    exact hslot
  rw [Array.getElem?_eq_getElem hlt]
  exact runs_pure (h _)

theorem runs_getCell {slot : Nat} {post : Value → Nat → Prop} (hslot : slot < r.cells.size)
    (h : ∀ v, post v d) : Runs W r (getCell slot) d post := by
  refine .bind (runs_cellAt hslot fun n => .bind (runs_gentle (gentle_look _) fun v => ?_))
  cases v with
  | some v => exact runs_pure (h v)
  | none => exact .bind (runs_frame fun f _ _ => runs_gentle (gentle_unboundCell _ _) h)

theorem runs_foldlM {xs : List β} {g : α → β → FrameAction α} {a : α}
    (hg : ∀ a x, Runs W r (g a x) d fun _ d' => d' = d) (h : ∀ v, post v d) :
    Runs W r (xs.foldlM g a) d post := by
  induction xs generalizing a with
  | nil => exact runs_pure (h a)
  | cons x xs ih =>
    rw [List.foldlM_cons]
    refine .bind ((hg a x).mono fun v d' hd => ?_)
    rw [hd]
    exact ih

theorem runs_mapM {xs : List β} {g : β → FrameAction α} {post : List α → Nat → Prop}
    (hg : ∀ x, Runs W r (g x) d fun _ d' => d' = d) (h : ∀ v, post v d) :
    Runs W r (xs.mapM g) d post := by
  induction xs generalizing post with
  | nil => exact runs_pure (h [])
  | cons x xs ih =>
    rw [List.mapM_cons]
    refine .bind ((hg x).mono fun v d' hd => ?_)
    rw [hd]
    exact .bind (ih fun vs => runs_pure (h (v :: vs)))

/-! ## 5. Parts of instructions -/

/-- Raising never comes back. -/
theorem runs_raiseText {t : TypeId} {m : String} : Runs W r (liftM (raiseText t m : Action α)) d post := by
  intro ctx hc f s hr hd hs
  exact ⟨hr, hs, W.other _ rfl⟩

theorem runs_build {shape : Shape} {n : Nat} (hd : shape.taken n ≤ d)
    (hslice : shape = .slice → n = 2 ∨ n = 3) :
    Runs W r (build shape n) d fun _ d' => d' = d - shape.taken n := by
  unfold build
  cases shape with
  | tuple => exact .bind (runs_popMany hd fun vs _ => runs_gentle (gentle_newTuple _) fun _ => rfl)
  | list => exact .bind (runs_popMany hd fun vs _ => runs_gentle (gentle_newList _) fun _ => rfl)
  | set =>
    refine .bind (runs_popMany hd fun vs _ => .bind (runs_foldlM (fun ms v => ?_) fun ms => ?_))
    · exact runs_inFrame (gentle_addMember ms v).composed fun _ => rfl
    · exact runs_lift (.make fun _ => rfl) fun _ => rfl
  | map =>
    exact .bind (runs_popMany hd fun vs _ => .bind (runs_gentle (gentle_buildPairs _) fun ps =>
      runs_lift (.make fun _ => rfl) fun _ => rfl))
  | constKeyMap =>
    simp only [Shape.taken] at hd ⊢
    refine .bind (runs_pop (by omega) fun keys => .bind (runs_popMany (by omega) fun vs _ => ?_))
    split
    · exact .bind (runs_gentle (gentle_buildPairs _) fun ps =>
        runs_lift (.make fun _ => rfl) fun _ => by omega)
    · exact runs_broken rfl
  | string =>
    refine .bind (runs_popMany hd fun vs _ => .bind (runs_mapM (fun v => ?_) fun ts => ?_))
    · exact runs_inFrame (gentle_pieceText v).composed fun _ => rfl
    · exact runs_gentle (gentle_newStr _) fun _ => rfl
  | slice =>
    simp only [Shape.taken] at hd ⊢
    rcases hslice rfl with rfl | rfl
    · exact .bind (runs_pure (.bind (runs_pop (by omega) fun stop => .bind
        (runs_pop (by omega) fun start => runs_lift (.make fun _ => rfl) fun _ => by omega))))
    · exact .bind (runs_pop (by omega) fun step => .bind (runs_pop (by omega) fun stop => .bind
        (runs_pop (by omega) fun start => runs_lift (.make fun _ => rfl) fun _ => by omega)))

/-- The target of an update is looked at and stays where it is. -/
theorem runs_updateTarget {n d' : Nat} {k : Value → FrameAction Unit} (hd : n ≤ d) (heq : d = d')
    (hk : ∀ v, Runs W r (k v) d fun _ d'' => d'' = d) :
    Runs W r (target n >>= k) d fun _ d'' => d'' = d' := by
  subst heq
  exact .bind (runs_target hd hk)

theorem runs_update {kind : Update} {depth : Nat} (hd : kind.taken + max depth 1 ≤ d) :
    Runs W r (update kind depth) d fun _ d' => d' = d - kind.taken := by
  unfold update
  cases kind with
  | listAppend =>
    simp only [Update.taken] at hd ⊢
    refine .bind (runs_pop (by omega) fun v => runs_updateTarget (by omega) rfl fun t => ?_)
    split
    · exact runs_lift (composed_update_appendTo _ _) fun _ => rfl
    · exact runs_broken rfl
  | listExtend =>
    simp only [Update.taken] at hd ⊢
    refine .bind (runs_pop (by omega) fun v => .bind (runs_gentle (gentle_collect _) fun vs =>
      runs_updateTarget (by omega) rfl fun t => ?_))
    split
    · exact runs_lift (composed_update_appendTo _ _) fun _ => rfl
    · exact runs_broken rfl
  | setAdd =>
    simp only [Update.taken] at hd ⊢
    refine .bind (runs_pop (by omega) fun v => runs_updateTarget (by omega) rfl fun t => ?_)
    split
    · exact runs_lift (composed_update_addTo _ _) fun _ => rfl
    · exact runs_broken rfl
  | setUpdate =>
    simp only [Update.taken] at hd ⊢
    refine .bind (runs_pop (by omega) fun v => .bind (runs_gentle (gentle_collect _) fun vs =>
      runs_updateTarget (by omega) rfl fun t => ?_))
    split
    · exact runs_lift (composed_update_addTo _ _) fun _ => rfl
    · exact runs_broken rfl
  | mapAdd =>
    simp only [Update.taken] at hd ⊢
    refine .bind (runs_pop (by omega) fun v => .bind (runs_pop (by omega) fun k =>
      .bind (runs_gentle (gentle_checkHashable _) fun _ =>
        runs_updateTarget (by omega) (by omega) fun t => ?_)))
    split
    · exact runs_lift (composed_mergeInto _ _ _) fun _ => rfl
    · exact runs_broken rfl
  | dictUpdate | dictMerge =>
    simp only [Update.taken] at hd ⊢
    refine .bind (runs_pop (by omega) fun other => ?_)
    split
    · refine .bind (runs_gentle (gentle_look _) fun ps =>
        runs_updateTarget (by omega) rfl fun t => ?_)
      split
      · exact runs_lift (composed_mergeInto _ _ _) fun _ => rfl
      · exact runs_broken rfl
    · exact .bind (runs_gentle (gentle_typeName _) fun n => .bind runs_raiseText)

theorem runs_unpackSequence {n : Nat} (hd : 1 ≤ d) :
    Runs W r (unpackSequence n) d fun _ d' => d' = d - 1 + n := by
  unfold unpackSequence
  refine .bind (runs_pop hd fun v => .bind (runs_gentle (gentle_collect _) fun vs => ?_))
  split
  · exact runs_raiseText
  · split
    · exact runs_raiseText
    · exact runs_pushAll (by omega)

theorem runs_unpackEx {before after : Nat} (hd : 1 ≤ d) :
    Runs W r (unpackEx before after) d fun _ d' => d' = d - 1 + (before + 1 + after) := by
  unfold unpackEx
  refine .bind (runs_pop hd fun v => .bind (runs_gentle (gentle_collect _) fun vs => ?_))
  split
  · exact runs_raiseText
  · refine .bind (runs_gentle (gentle_newList _) fun middle => runs_pushAll ?_)
    simp only [List.length_append, List.length_take, List.length_cons, List.length_drop]
    omega

theorem runs_formatTop {flags : Nat} (hd : (if flags &&& Op.formatHasSpec != 0 then 2 else 1) ≤ d) :
    Runs W r (formatTop flags) d
      fun _ d' => d' = d - (if flags &&& Op.formatHasSpec != 0 then 2 else 1) + 1 := by
  have hrest : ∀ {d₀ spec}, 1 ≤ d₀ → Runs W r (do
      let v ← converted flags (← pop)
      push (← newStr (← format v spec)) : FrameAction Unit) d₀ fun _ d' => d' = d₀ - 1 + 1 :=
    fun h => .bind (runs_pop h fun v => .bind (runs_gentle (gentle_converted _ _) fun v =>
      .bind (runs_gentle (gentle_format _ _) fun t => .bind (runs_gentle (gentle_newStr _) fun v =>
        runs_push rfl))))
  unfold formatTop
  dsimp only
  split at hd
  · rename_i hspec
    rw [if_pos hspec, if_pos hspec]
    refine .bind (runs_pop (by omega) fun v => ?_)
    split
    · exact .bind (runs_pure ((hrest (by omega)).mono fun _ d' h => by omega))
    · exact .bind (runs_broken rfl)
  · rename_i hspec
    rw [if_neg hspec, if_neg hspec]
    exact .bind (runs_pure (hrest hd))

theorem runs_callTop {lowering : Lowering} {argc : Nat} (hd : argc + 1 ≤ d) :
    Runs W r (callTop lowering argc) d fun _ d' => d' = d - (argc + 1) + 1 := by
  have hcall : ∀ {d₀} {act : Action Value}, Composed W act → d₀ = d - (argc + 1) → Runs W r (do
      push (← act) : FrameAction Unit) d₀ fun _ d' => d' = d - (argc + 1) + 1 :=
    fun h heq => .bind (runs_lift h fun v => runs_push (by omega))
  unfold callTop
  refine .bind (runs_popMany (by omega) fun args _ => .bind (runs_pop (by omega) fun callee => ?_))
  split
  · split
    · exact hcall (composed_callBuiltin _ _ _) (by omega)
    · exact hcall (gentle_call _ _).composed (by omega)
  · exact hcall (gentle_call _ _).composed (by omega)

theorem runs_callKeywords {argc : Nat} (hd : argc + 2 ≤ d) :
    Runs W r (callKeywords argc) d fun _ d' => d' = d - (argc + 2) + 1 := by
  unfold callKeywords
  refine .bind (runs_pop (by omega) fun names => .bind (runs_popMany (by omega) fun args _ =>
    .bind (runs_pop (by omega) fun callee => ?_)))
  split
  · split
    · exact runs_broken rfl
    · dsimp only
      split
      · exact .bind (runs_lift (.callWith _ _ _) fun v => runs_push (by omega))
      · exact runs_broken rfl
  · exact runs_broken rfl

theorem runs_callUnpacked {hasMapping : Bool} (hd : (if hasMapping then 3 else 2) ≤ d) :
    Runs W r (callUnpacked hasMapping) d
      fun _ d' => d' = d - (if hasMapping then 3 else 2) + 1 := by
  unfold callUnpacked
  cases hasMapping with
  | true =>
    simp only [if_true] at hd ⊢
    exact .bind (runs_pop (by omega) fun mapping => .bind (runs_pure
      (.bind (runs_pop (by omega) fun iterable => .bind (runs_pop (by omega) fun callee =>
        .bind (runs_gentle (gentle_collect _) fun args =>
          .bind (runs_gentle (gentle_mappingKeywords _) fun kwargs =>
            .bind (runs_lift (.callWith _ _ _) fun v => runs_push (by omega)))))))))
  | false =>
    simp only [Bool.false_eq_true, if_false] at hd ⊢
    exact .bind (runs_pure (.bind (runs_pop (by omega) fun iterable =>
      .bind (runs_pop (by omega) fun callee => .bind (runs_gentle (gentle_collect _) fun args =>
        .bind (runs_pure (.bind (runs_lift (.callWith _ _ _) fun v =>
          runs_push (by omega)))))))))

theorem runs_callMethodTop {lowering : Lowering} {argc : Nat} (hd : argc + 2 ≤ d) :
    Runs W r (callMethodTop lowering argc) d fun _ d' => d' = d - (argc + 2) + 1 := by
  unfold callMethodTop
  refine .bind (runs_popMany (by omega) fun args _ => .bind (runs_pop (by omega) fun receiver =>
    .bind (runs_pop (by omega) fun method => ?_)))
  dsimp only
  split
  · exact .bind (runs_lift (composed_callTypeMethod _ _ _ _) fun v => runs_push (by omega))
  · exact .bind (runs_gentle (gentle_call _ _) fun v => runs_push (by omega))

theorem runs_checked {x : Except Broken α} (hx : ∀ cause, x = .error cause → cause.ofFrame = false)
    (h : ∀ v, post v d) : Runs W r (checked x) d post := by
  cases x with
  | ok v => exact runs_pure (h v)
  | error cause => exact runs_broken (hx cause rfl)

theorem closureCells_error {v : Value} {cause : Broken} (h : closureCells v = .error cause) :
    cause.ofFrame = false := by
  unfold closureCells at h
  split at h
  · rename_i cells
    induction cells generalizing cause with
    | nil => cases h
    | cons c cs ih =>
      rw [List.mapM_cons] at h
      split at h
      · rcases bind_eq_error h with h | ⟨_, -, h⟩
        · cases h
        · rcases bind_eq_error h with h | ⟨_, -, h⟩
          · exact ih h
          · cases h
      · cases h
        rfl
  · cases h
    rfl

theorem annotationItems_error {s : Store} {v : Value} {cause : Broken}
    (h : annotationItems s v = .error cause) : cause.ofFrame = false := by
  unfold annotationItems at h
  split at h
  · cases h
  · cases h
  · cases h
    rfl

/-- The number of parts, bit by bit. -/
theorem functionParts_eq (flags : Nat) : Op.functionParts flags
    = (if flags &&& 8 != 0 then 1 else 0) + ((if flags &&& 4 != 0 then 1 else 0)
      + ((if flags &&& 2 != 0 then 1 else 0) + (if flags &&& 1 != 0 then 1 else 0))) := by
  unfold Op.functionParts
  simp only [List.filter_cons, List.filter_nil]
  split <;> split <;> split <;> split <;> rfl

theorem runs_makeFunction {flags : Nat} (hd : 2 + Op.functionParts flags ≤ d) :
    Runs W r (makeFunction flags) d fun _ d' => d' = d - (2 + Op.functionParts flags) + 1 := by
  obtain ⟨rest, hrest⟩ : ∃ rest, rest + (2 + Op.functionParts flags) = d :=
    ⟨d - (2 + Op.functionParts flags), by omega⟩
  have hgoal : d - (2 + Op.functionParts flags) + 1 = rest + 1 := by omega
  rw [hgoal]
  rw [functionParts_eq] at hrest
  unfold makeFunction
  refine .bind (runs_pop (by omega) fun qualname => .bind (runs_pop (by omega) fun code => ?_))
  split
  · -- each optional part takes one value, from the closure down to the defaults
    extract_lets has withClosure
    change rest + (2 + ((if has 8 then 1 else 0) + ((if has 4 then 1 else 0)
      + ((if has 2 then 1 else 0) + (if has 1 then 1 else 0))))) = d at hrest
    have hclosure : ∀ {d₀ closure}, d₀ = rest + ((if has 4 then 1 else 0)
        + ((if has 2 then 1 else 0) + (if has 1 then 1 else 0))) →
        Runs W r (withClosure closure) d₀ fun _ d' => d' = rest + 1 := by
      intro d₀ closure hd₀
      simp -zeta only [withClosure]
      extract_lets withSignature
      have hsignature : ∀ {d₁ signature}, d₁ = rest + ((if has 2 then 1 else 0)
          + (if has 1 then 1 else 0)) →
          Runs W r (withSignature signature) d₁ fun _ d' => d' = rest + 1 := by
        intro d₁ signature hd₁
        simp -zeta only [withSignature]
        extract_lets withKeywords
        have hkeywords : ∀ {d₂ kwdefaults}, d₂ = rest + (if has 1 then 1 else 0) →
            Runs W r (withKeywords kwdefaults) d₂ fun _ d' => d' = rest + 1 := by
          intro d₂ kwdefaults hd₂
          simp -zeta only [withKeywords]
          have hmade : ∀ {f}, Runs W r (do push (← make (Store.newFunction f)) : FrameAction Unit)
              rest fun _ d' => d' = rest + 1 :=
            .bind (runs_lift (.make fun _ => rfl) fun v => runs_push rfl)
          split
          · rename_i hbit
            rw [if_pos hbit] at hd₂
            refine .bind (runs_pop (by omega) fun v => ?_)
            rw [hd₂, Nat.add_sub_cancel]
            split
            · exact .bind (runs_pure hmade)
            · exact .bind (runs_broken rfl)
          · rename_i hbit
            rw [if_neg hbit] at hd₂
            rw [hd₂]
            exact .bind (runs_pure hmade)
        split
        · rename_i hbit
          rw [if_pos hbit] at hd₁
          refine .bind (runs_pop (by omega) fun v => ?_)
          split
          · exact .bind (runs_gentle (gentle_look _) fun ps => hkeywords (by omega))
          · exact .bind (runs_broken rfl)
        · rename_i hbit
          rw [if_neg hbit] at hd₁
          exact .bind (runs_pure (hkeywords (by omega)))
      split
      · rename_i hbit
        rw [if_pos hbit] at hd₀
        exact .bind (runs_pop (by omega) fun v => .bind (runs_gentle (gentle_look _) fun s =>
          .bind (runs_checked (fun _ => annotationItems_error) fun items =>
            .bind (runs_pure (hsignature (by omega))))))
      · rename_i hbit
        rw [if_neg hbit] at hd₀
        exact .bind (runs_pure (hsignature (by omega)))
    split
    · rename_i hbit
      rw [if_pos hbit] at hrest
      exact .bind (runs_pop (by omega) fun v =>
        .bind (runs_checked (fun _ => closureCells_error) fun cells => hclosure (by omega)))
    · rename_i hbit
      rw [if_neg hbit] at hrest
      exact .bind (runs_pure (hclosure (by omega)))
  · exact runs_broken rfl

theorem runs_enterWith (hd : 1 ≤ d) : Runs W r enterWith d fun _ d' => d' = d + 1 :=
  .bind (runs_pop hd fun manager => .bind (runs_gentle (gentle_special _ _) fun exit =>
    .bind (runs_gentle (gentle_special _ _) fun enter => .bind (runs_push
      (.bind (runs_gentle (gentle_call _ _) fun v => runs_push (by omega)))))))

theorem runs_reraised {post : Raised → Nat → Prop} (hd : 3 ≤ d) (h : ∀ e, post e (d - 1 - 1 - 1)) :
    Runs W r reraised d post := by
  unfold reraised
  refine .bind (runs_pop (by omega) fun t => .bind (runs_pop (by omega) fun v =>
    .bind (runs_pop (by omega) fun tb => ?_)))
  split
  · exact runs_pure (h _)
  · exact runs_gentle (gentle_makeException _) h

theorem runs_raisedBy {n : Nat} {post : Raised → Nat → Prop} (hd : n ≤ d) (h : ∀ e d', post e d') :
    Runs W r (raisedBy n) d post := by
  unfold raisedBy
  split
  · refine .bind (runs_frame fun f _ _ => ?_)
    split
    · exact runs_pure (h _ _)
    · exact runs_raiseText
  · exact .bind (runs_pop hd fun v => runs_gentle (gentle_makeException _) fun e => h e _)
  · rename_i hne₀ hne₁
    have h0 : n ≠ 0 := fun h => hne₀ h
    have h1 : n ≠ 1 := fun h => hne₁ h
    exact .bind (runs_pop (by omega) fun v => .bind (runs_pop (by omega) fun v =>
      runs_gentle (gentle_makeException _) fun e => h e _))

/-! ## 6. Operations -/

theorem runs_pushLift {act : Action Value} (hact : Composed W act) :
    Runs W r (do push (← act) : FrameAction Unit) d fun _ d' => d' = d + 1 :=
  .bind (runs_lift hact fun _ => runs_push rfl)

/-- **An operation that only goes on takes and leaves as many values as its arity says.** -/
theorem perform_runs {op : Op} {lowering : Lowering} {taken left : Nat}
    (ha : op.arity? = some (taken, left)) (hs : op.isSwitch = false) (hfit : op.FitsIn r)
    (hd : taken ≤ d) :
    Runs W r (perform op lowering) d fun _ d' => d' = d - taken + left := by
  unfold perform
  cases op with
  | popTop =>
    cases ha
    exact .bind (runs_pop hd fun v => runs_pure (by omega))
  | rotTwo | rotThree | rotFour | rotN _ =>
    cases ha
    exact runs_rotate hd (by omega)
  | dupTop =>
    cases ha
    exact .bind (runs_peek hd fun v => runs_push (by omega))
  | dupTopTwo =>
    cases ha
    exact .bind (runs_peek (by omega) fun second => .bind (runs_peek (by omega) fun top =>
      runs_pushAll (by rw [List.length_cons, List.length_singleton]; omega)))
  | nop | genStart _ =>
    cases ha
    exact runs_pure (by omega)
  | unary op =>
    cases ha
    exact .bind (runs_pop hd fun v => runs_pushLift (gentle_unary _ _).composed)
  | binary op inplace =>
    cases ha
    exact .bind (runs_pop (by omega) fun r => .bind (runs_pop (by omega) fun l =>
      (runs_pushLift (composed_binary _ _ _ _)).mono fun _ d' h => by omega))
  | binarySubscr =>
    cases ha
    exact .bind (runs_pop (by omega) fun key => .bind (runs_pop (by omega) fun container =>
      (runs_pushLift (gentle_getItem _ _).composed).mono fun _ d' h => by omega))
  | storeSubscr =>
    cases ha
    exact .bind (runs_pop (by omega) fun key => .bind (runs_pop (by omega) fun container =>
      .bind (runs_pop (by omega) fun v => runs_lift (composed_setItem _ _ _) fun _ => by omega)))
  | deleteSubscr =>
    cases ha
    exact .bind (runs_pop (by omega) fun key => .bind (runs_pop (by omega) fun container =>
      runs_lift (composed_delItem _ _) fun _ => by omega))
  | compare op =>
    cases ha
    exact .bind (runs_pop (by omega) fun r => .bind (runs_pop (by omega) fun l =>
      (runs_pushLift (gentle_compare _ _ _).composed).mono fun _ d' h => by omega))
  | isOp invert =>
    cases ha
    exact .bind (runs_pop (by omega) fun r => .bind (runs_pop (by omega) fun l =>
      runs_push (by omega)))
  | containsOp invert =>
    cases ha
    exact .bind (runs_pop (by omega) fun container => .bind (runs_pop (by omega) fun item =>
      .bind (runs_gentle (gentle_contains _ _) fun b => runs_push (by omega))))
  | getIter | getYieldFromIter =>
    cases ha
    exact .bind (runs_pop hd fun v => runs_pushLift (gentle_iter _).composed)
  | loadConst index =>
    cases ha
    refine .bind (runs_frame fun f hf _ => ?_)
    have hlt : index < f.program.code.constants.length := by
      rw [← hf] at hfit
      exact hfit
    dsimp only
    rw [List.getElem?_eq_getElem hlt]
    exact runs_pushLift (composed_make fun s => s.settled_ofConstant _ _ _)
  | loadFast slot =>
    cases ha
    exact .bind (runs_getLocal hfit fun v => runs_push (by omega))
  | storeFast slot =>
    cases ha
    exact .bind (runs_pop hd fun v => runs_setLocal hfit (by omega))
  | deleteFast slot =>
    cases ha
    exact .bind (runs_getLocal hfit fun v => runs_setLocal hfit (by omega))
  | loadDeref slot | loadClassDeref slot =>
    cases ha
    exact .bind (runs_getCell hfit fun v => runs_push (by omega))
  | storeDeref slot =>
    cases ha
    exact .bind (runs_pop hd fun v => .bind (runs_cellAt hfit fun n =>
      runs_gentle (gentle_setCell _ _) fun _ => by omega))
  | deleteDeref slot =>
    cases ha
    exact .bind (runs_getCell hfit fun v => .bind (runs_cellAt hfit fun n =>
      runs_gentle (gentle_setCell _ _) fun _ => by omega))
  | loadClosure slot =>
    cases ha
    exact .bind (runs_cellAt hfit fun n => runs_push (by omega))
  | loadGlobal name entry | loadName name entry =>
    cases ha
    exact .bind (runs_frame fun f _ _ => runs_pushLift (gentle_loadGlobal _ _).composed)
  | storeGlobal name | storeName name =>
    cases ha
    exact .bind (runs_pop hd fun v => runs_gentle (gentle_setGlobal _ _) fun _ => by omega)
  | deleteGlobal name | deleteName name =>
    cases ha
    exact runs_gentle (gentle_deleteGlobal _) fun _ => by omega
  | loadAttr name =>
    cases ha
    exact .bind (runs_pop hd fun v => runs_pushLift (gentle_getAttr _ _).composed)
  | storeAttr name =>
    cases ha
    exact .bind (runs_pop (by omega) fun v => .bind (runs_pop (by omega) fun content =>
      runs_gentle (gentle_setAttr _ _ _) fun _ => by omega))
  | deleteAttr name =>
    cases ha
    exact .bind (runs_pop hd fun v =>
      .bind (runs_gentle (gentle_typeName _) fun t => runs_raiseText))
  | loadMethod name =>
    cases ha
    exact .bind (runs_pop hd fun receiver => .bind (runs_gentle (gentle_getAttr _ _) fun method =>
      runs_pushAll (by rw [List.length_cons, List.length_singleton])))
  | loadAssertionError =>
    cases ha
    exact runs_push (by omega)
  | loadBuildClass | importName _ | importFrom _ | importStar | setupAnnotations =>
    exact runs_raiseText
  | printExpr =>
    cases ha
    refine .bind (runs_pop hd fun v => ?_)
    split
    · exact runs_pure (by omega)
    · exact .bind (runs_gentle (gentle_repr _) fun t =>
        runs_gentle (gentle_write _) fun _ => by omega)
  | build shape n =>
    cases ha
    refine .bind ((runs_build hd fun hshape => ?_).mono fun v d' h => runs_push (by omega))
    subst hshape
    exact hfit
  | listToTuple =>
    cases ha
    exact .bind (runs_pop hd fun v => .bind (runs_gentle (gentle_collect _) fun vs =>
      runs_pushLift (gentle_newTuple _).composed))
  | update kind depth =>
    cases ha
    exact (runs_update hd).mono fun _ d' h => by omega
  | unpackSequence n => cases ha; exact runs_unpackSequence hd
  | unpackEx before after => cases ha; exact runs_unpackEx hd
  | formatValue flags => cases ha; exact runs_formatTop hd
  | callFunction argc => cases ha; exact runs_callTop hd
  | callFunctionKw argc => cases ha; exact runs_callKeywords hd
  | callFunctionEx kwargs => cases ha; exact runs_callUnpacked hd
  | callMethod argc => cases ha; exact runs_callMethodTop hd
  | makeFunction flags => cases ha; exact runs_makeFunction hd
  | withExceptStart =>
    cases ha
    exact .bind (runs_peek (by omega) fun exit => .bind (runs_peek (by omega) fun type =>
      .bind (runs_peek (by omega) fun value => .bind (runs_peek (by omega) fun traceback =>
        (runs_pushLift (gentle_call _ _).composed).mono fun _ d' h => by omega))))
  | yieldValue | yieldFrom => exact runs_broken rfl
  | loadSpecial name =>
    cases ha
    exact .bind (runs_pop hd fun v => runs_pushLift (gentle_special _ _).composed)
  | suspend _ | resumePoint _ | resumeDispatch _ => cases hs
  | forIter _ | jump _ | popJumpIf _ _ | jumpIfOrPop _ _ | jumpIfNotExcMatch _ | returnValue
  | setupFinally _ _ _ | setupWith _ | popBlock | popExcept | reraise _ | raiseVarargs _
  | delegate _ _ => cases ha

theorem operate_of_arity {op : Op} {lowering : Lowering} {a : Nat × Nat} (ha : op.arity? = some a)
    (hs : op.isSwitch = false) : operate op lowering = do
      perform op lowering
      return .next := by
  cases op <;> first | rfl | (cases hs; done) | cases ha

/-- **An instruction follows the table of the analysis.** -/
theorem operate_runs {op : Op} {lowering : Lowering} {bs : List Block}
    {ws : List (Successor × Nat × List Block)} (hm : op.moves d bs = some ws)
    (hs : op.isSwitch = false) (hfit : op.FitsIn r) :
    Runs W r (operate op lowering) d (Flow.Among ws) := by
  cases ha : op.arity? with
  | some a =>
    obtain ⟨taken, left⟩ := a
    rw [Op.moves_of_arity ha, Option.ite_none_right_eq_some] at hm
    obtain ⟨hd, hws⟩ := hm
    cases hws
    rw [operate_of_arity ha hs]
    refine .bind ((perform_runs ha hs hfit hd).mono fun _ d' h => runs_pure ⟨bs, ?_⟩)
    rw [h]
    exact List.mem_singleton_self _
  | none =>
    unfold operate
    cases op with
    | forIter exit =>
      simp only [Op.moves, Option.ite_none_right_eq_some] at hm
      obtain ⟨hd, hws⟩ := hm
      cases hws
      refine .bind (runs_peek hd fun v => .bind (runs_gentle (gentle_next _) fun item => ?_))
      cases item with
      | some v => exact .bind (runs_push (runs_pure ⟨bs, .head _⟩))
      | none => exact .bind (runs_pop hd fun _ => runs_pure ⟨bs, .tail _ (.head _)⟩)
    | jump target =>
      cases hm
      exact runs_pure ⟨bs, .head _⟩
    | popJumpIf on target =>
      simp only [Op.moves, Option.ite_none_right_eq_some] at hm
      obtain ⟨hd, hws⟩ := hm
      cases hws
      refine .bind (runs_pop hd fun v => .bind (runs_gentle (gentle_truthy _) fun b => ?_))
      split
      · exact runs_pure ⟨bs, .tail _ (.head _)⟩
      · exact runs_pure ⟨bs, .head _⟩
    | jumpIfOrPop on target =>
      simp only [Op.moves, Option.ite_none_right_eq_some] at hm
      obtain ⟨hd, hws⟩ := hm
      cases hws
      refine .bind (runs_peek hd fun v => .bind (runs_gentle (gentle_truthy _) fun b => ?_))
      split
      · exact runs_pure ⟨bs, .tail _ (.head _)⟩
      · exact .bind (runs_pop hd fun _ => runs_pure ⟨bs, .head _⟩)
    | jumpIfNotExcMatch target =>
      simp only [Op.moves, Option.ite_none_right_eq_some] at hm
      obtain ⟨hd, hws⟩ := hm
      cases hws
      refine .bind (runs_pop (by omega) fun handler => .bind (runs_pop (by omega) fun raised =>
        .bind (runs_gentle (gentle_exceptionMatches _ _) fun b => ?_)))
      rw [Nat.sub_sub]
      split
      · exact runs_pure ⟨bs, .head _⟩
      · exact runs_pure ⟨bs, .tail _ (.head _)⟩
    | returnValue =>
      simp only [Op.moves, Option.ite_none_right_eq_some] at hm
      refine .bind (runs_pop hm.1 fun v => ?_)
      split
      · exact .bind (runs_frame fun f _ _ => .bind (runs_gentle (gentle_checkReturn _ _) fun v =>
          runs_pure trivial))
      · exact runs_pure trivial
    | reraise _ =>
      simp only [Op.moves, Option.ite_none_right_eq_some] at hm
      exact .bind (runs_reraised hm.1 fun e => runs_throw (W.other _ rfl))
    | raiseVarargs n =>
      simp only [Op.moves, Option.ite_none_right_eq_some] at hm
      exact .bind (runs_raisedBy hm.1 fun e d' => runs_throw (W.other _ rfl))
    | setupFinally h k reserve =>
      simp only [Op.moves, Option.ite_none_right_eq_some] at hm
      obtain ⟨hd, hws⟩ := hm
      cases hws
      exact .bind (runs_pure (runs_pure ⟨_, .head _⟩))
    | setupWith h =>
      simp only [Op.moves, Option.ite_none_right_eq_some] at hm
      obtain ⟨hd, hws⟩ := hm
      cases hws
      refine .bind ((runs_enterWith hd).mono fun _ d' h => runs_pure ?_)
      rw [h]
      exact ⟨_, .head _⟩
    | popBlock =>
      simp only [Op.moves] at hm
      split at hm
      · cases hm
        exact .bind (runs_pure (runs_pure ⟨_, .head _⟩))
      · cases hm
    | popExcept =>
      simp only [Op.moves] at hm
      split at hm
      · rw [Option.ite_none_right_eq_some] at hm
        obtain ⟨hd, hws⟩ := hm
        cases hws
        refine .bind (.bind (runs_popMany hd fun vs _ => runs_updateFrame fun f hr hlen =>
          ⟨hr, ?_⟩))
        rw [hlen]
        exact runs_pure ⟨_, .head _⟩
      · cases hm
    | delegate _ _ => cases hs
    | _ => cases ha

/-! ## 7. Switches -/

theorem inFrame_bind (x : Action β) (k : β → Action α) :
    inFrame (x >>= k) = inFrame x >>= fun v => inFrame (k v) := by
  funext ctx a
  simp only [inFrame, Bind.bind, ReaderT.bind, EStateM.bind]
  cases x ctx a.store <;> rfl

/-- A fault that is given as a value is a tolerated one. -/
theorem runs_attempt {act : Action α} {post : Except Fault α → Nat → Prop} (hact : Composed W act)
    (hok : ∀ v, post (.ok v) d) (herror : ∀ e, W.fault e → post (.error e) d) :
    Runs W r (inFrame (attempt act)) d post := by
  intro ctx hc f s hr hd hs
  have h := hact.calm ctx hc s hs
  unfold inFrame
  rw [attempt_run]
  cases hres : act ctx s with
  | ok a s' =>
    rw [hres] at h
    exact ⟨hr, h, by rw [hd]; exact hok a⟩
  | error e s' =>
    rw [hres] at h
    exact ⟨hr, h.1, by rw [hd]; exact herror e h.2⟩

theorem runs_delegateStep {receiver sent : Value} {post : Except Fault Value → Nat → Prop}
    (hok : ∀ v, post (.ok v) d) (herror : ∀ e, W.fault e → post (.error e) d) :
    Runs W r (inFrame (delegateStep receiver sent)) d post := by
  unfold delegateStep
  split
  · exact runs_attempt (.send _ _) hok herror
  · split
    · split
      · rw [inFrame_bind]
        refine .bind (runs_inFrame (gentle_next _).composed fun item => ?_)
        cases item with
        | some v => exact runs_pure (hok v)
        | none => exact runs_pure (herror _ (W.other _ rfl))
      · exact runs_attempt (composed_callMethod _ _ _) hok herror
    · exact runs_attempt (composed_callMethod _ _ _) hok herror

/-- What comes after an action on the stack. -/
theorem Runs.run_bind {x : FrameAction β} {k : β → FrameAction α} {ctx : Context} {f : Frame}
    {s : Store} {P : EStateM.Result Fault Activation α → Prop} (hc : W.context ctx)
    (hr : f.footing = r) (hd : f.stack.length = d) (hs : W.store s)
    (h : Runs W r x d fun v d' => ∀ f s, f.footing = r → f.stack.length = d' → W.store s →
      P (k v ctx ⟨f, s⟩))
    (herror : ∀ e a, a.frame.footing = r → W.store a.store → W.fault e → P (.error e a)) :
    P ((x >>= k) ctx ⟨f, s⟩) := by
  have hx := h ctx hc f s hr hd hs
  simp only [Bind.bind, ReaderT.bind, EStateM.bind]
  cases hres : x ctx ⟨f, s⟩ with
  | ok v a =>
    rw [hres] at hx
    exact hx.2.2 a.frame a.store hx.1 rfl hx.2.1
  | error e a =>
    rw [hres] at hx
    exact herror e a hx.1 hx.2.1 hx.2.2

theorem suspend_outcome {k : Nat} {lowering : Lowering} {bs : List Block}
    {ws : List (Successor × Nat × List Block)} (hm : (Op.suspend k).moves d bs = some ws)
    {ctx : Context} (hc : W.context ctx) {f : Frame} {s : Store} (hr : f.footing = r)
    (hd : f.stack.length = d) (hs : W.store s) :
    Op.Outcome W r ws (.suspend k) (operate (.suspend k) lowering ctx ⟨f, s⟩) := by
  rw [Op.moves_of_arity rfl, Option.ite_none_right_eq_some] at hm
  obtain ⟨hle, hws⟩ := hm
  cases hws
  refine Runs.run_bind hc hr hd hs (runs_pop hle fun v f s hr hd hs => ?_)
    fun e a hr hs he => ⟨hs, hr, he⟩
  refine ⟨hs, k, bs, rfl, ?_, ?_⟩
  · rw [← hr]
    rfl
  · rw [show List.length _ = d - 1 from hd]
    exact List.mem_singleton_self _

theorem delegate_outcome {k exit : Nat} {lowering : Lowering} {bs : List Block}
    {ws : List (Successor × Nat × List Block)} (hm : (Op.delegate k exit).moves d bs = some ws)
    {ctx : Context} (hc : W.context ctx) {f : Frame} {s : Store} (hr : f.footing = r)
    (hd : f.stack.length = d) (hs : W.store s) :
    Op.Outcome W r ws (.delegate k exit) (operate (.delegate k exit) lowering ctx ⟨f, s⟩) := by
  rw [Op.moves, Option.ite_none_right_eq_some] at hm
  obtain ⟨hle, hws⟩ := hm
  cases hws
  have herror : ∀ e a, a.frame.footing = r → W.store a.store → W.fault e →
      Op.Outcome W r [(.next, d - 1, bs), (.jump exit, d - 1, bs)] (.delegate k exit)
        (.error e a) := fun e a hr hs he => ⟨hs, hr, he⟩
  refine Runs.run_bind hc hr hd hs (runs_pop (by omega) fun sent f s hr hd hs => ?_) herror
  refine Runs.run_bind hc hr hd hs (runs_peek (by omega) fun receiver f s hr hd hs => ?_) herror
  refine Runs.run_bind hc hr hd hs (runs_delegateStep (fun v f s hr hd hs => ?_)
    fun e he f s hr hd hs => ?_) herror
  · refine ⟨hs, k, bs, rfl, ?_, ?_⟩
    · rw [← hr]
      rfl
    · rw [show List.length _ = d - 1 from hd]
      exact .head _
  · refine Runs.run_bind hc hr hd hs (runs_gentle gentle_model fun m f s hr hd hs => ?_) herror
    refine Runs.run_bind hc hr hd hs (runs_gentle (gentle_look _) fun st f s hr hd hs => ?_) herror
    cases delegateResult? m st e with
    | none => exact ⟨hs, hr, he⟩
    | some result =>
      refine Runs.run_bind hc hr hd hs (runs_pop (by omega) fun v f s hr hd hs => ?_) herror
      refine Runs.run_bind hc hr hd hs (runs_push fun f s hr hd hs => ?_) herror
      refine ⟨hs, hr, ⟨bs, ?_⟩, fun h => by cases h⟩
      rw [show List.length _ = d - 1 from hd.trans (by omega)]
      exact .tail _ (.head _)

theorem operate_resumePoint (k : Nat) (lowering : Lowering) (ctx : Context) (f : Frame)
    (s : Store) : operate (.resumePoint k) lowering ctx ⟨f, s⟩ = ((match f.resumption with
      | some (.send v) => push v
      | some (.throw e) => throw (.raised e)
      | none => broken .noResumption : FrameAction Unit) >>= fun _ => pure .next) ctx
        ⟨{ f with resumption := none }, s⟩ := rfl

theorem resumePoint_outcome {k : Nat} {lowering : Lowering} {bs : List Block}
    {ws : List (Successor × Nat × List Block)} (hm : (Op.resumePoint k).moves d bs = some ws)
    {ctx : Context} {f : Frame} {s : Store} (hr : f.footing = r)
    (hd : f.stack.length = d) (hs : W.store s) (hgiven : r.resumption.isSome) :
    Op.Outcome W { r with resumption := none } ws (.resumePoint k)
      (operate (.resumePoint k) lowering ctx ⟨f, s⟩) := by
  rw [Op.moves_of_arity rfl, Option.ite_none_right_eq_some] at hm
  obtain ⟨-, hws⟩ := hm
  cases hws
  obtain ⟨given, hgiven⟩ := Option.isSome_iff_exists.mp hgiven
  have hf : f.resumption = some given := by
    rw [← hgiven, ← hr]
    rfl
  rw [operate_resumePoint, hf]
  cases given with
  | send v =>
    refine ⟨hs, ?_, ⟨bs, ?_⟩, fun _ => rfl⟩
    · rw [← hr]
      rfl
    · rw [show List.length _ = d + 1 from congrArg (· + 1) hd]
      exact .head _
  | throw e =>
    refine ⟨hs, ?_, W.other _ rfl⟩
    rw [← hr]
    rfl

/-- **Every instruction but the dispatcher follows the table of the analysis.** -/
theorem operate_outcome {op : Op} {lowering : Lowering} {bs : List Block}
    {ws : List (Successor × Nat × List Block)} (hm : op.moves d bs = some ws) (hfit : op.FitsIn r)
    (hdispatch : ∀ states, op ≠ .resumeDispatch states)
    (hgiven : ∀ k, op = .resumePoint k → r.resumption.isSome) {ctx : Context} (hc : W.context ctx)
    {f : Frame} {s : Store} (hr : f.footing = r) (hd : f.stack.length = d) (hs : W.store s) :
    op.Outcome W (op.shift r) ws (operate op lowering ctx ⟨f, s⟩) := by
  cases hsw : op.isSwitch with
  | true =>
    cases op with
    | suspend k => exact suspend_outcome hm hc hr hd hs
    | delegate k exit => exact delegate_outcome hm hc hr hd hs
    | resumePoint k => exact resumePoint_outcome hm hr hd hs (hgiven k rfl)
    | resumeDispatch states => exact absurd rfl (hdispatch states)
    | _ => cases hsw
  | false =>
    have hshift : op.shift r = r ∧ op.suspension? = none := by
      cases op <;> first | exact ⟨rfl, rfl⟩ | cases hsw
    rw [hshift.1]
    have h := (operate_runs hm hsw hfit : Runs W r (operate op lowering) d _)
      ctx hc f s hr hd hs
    cases hres : operate op lowering ctx ⟨f, s⟩ with
    | error e a =>
      rw [hres] at h
      exact ⟨h.2.1, h.1, h.2.2⟩
    | ok flow a =>
      rw [hres] at h
      cases flow with
      | yields v => exact h.2.2.elim
      | next | jump | leave => exact ⟨h.2.1, h.1, h.2.2, fun _ => hshift.2⟩

/-- Nothing is lost by eliding an instruction: what is elided does nothing. -/
theorem execute_eq_operate (ty : Typer) (s : AbstractState) (returns : TypeId) (op : Op)
    (line : Option Nat) : execute ⟨op, op.lowering ty s returns, line⟩
      = operate op (op.lowering ty s returns) := by
  unfold execute
  split
  · rename_i h
    cases op with
    | nop | genStart _ | setupFinally _ _ _ | popBlock => rfl
    | unary u =>
      cases u with
      | not => cases h
      | positive | negative | invert =>
        simp only [Op.lowering] at h
        split at h
        · exact absurd h (Op.lowerResolved_ne_elided _ _ _)
        · cases h
    | binary _ _ | compare _ | binarySubscr => exact absurd h (Op.lowerTwo_ne_elided _ _)
    | callFunction _ | callMethod _ => exact absurd h (Op.lowerCall_ne_elided _ _ _ _)
    | _ => cases h
  · rfl

end Machine

end Stackwise
