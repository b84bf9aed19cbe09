import Mathlib.Data.List.Forall2
import Stackwise.Proofs.Analysis.StepBound
import Stackwise.Proofs.Machine.Unwinding

/-!
# Types of values

The analysis knows a type of every value on the stack and of every variable that is bound. Here the
values of a running frame are compared with these types.

* `Value.Fits`: a value is of a type, or one of the few that stand in for a value of it.
* `Frame.Typed`: the stack and the variables of a frame fit an abstract state.
* `Tracks`: from a frame that fits one state an action comes to a frame that fits another; where it
  ends in a fault it has taken values from the stack, and changed nothing else.
-/

namespace Stackwise

/-! ## 1. Values and slots -/

namespace TypeModel

/-- Types that the analysis gives to values which are of other types. Only the universal type is
above them. -/
def lent : List TypeId := [.type, .method, .traceback, .baseException]

theorem ExtendsBuiltins.order_lent {m : TypeModel} (h : m.ExtendsBuiltins) :
    ∀ t ∈ lent, t.raw < m.size ∧ m.order t = [t, .object] := by
  intro t ht
  have hbuiltin : ∀ t ∈ lent, t.raw < withBuiltins.size
      ∧ withBuiltins.order t = [t, .object] := by decide +kernel
  obtain ⟨hknown, horder⟩ := hbuiltin t ht
  rw [← horder]
  exact h.order_eq hknown

theorem ExtendsBuiltins.eq_of_lent {m : TypeModel} (h : m.ExtendsBuiltins) {t u : TypeId}
    (ht : t ∈ lent) (hu : m.isSubtype t u = true) : u = t ∨ u = .object := by
  rw [isSubtype_iff, (h.order_lent t ht).2] at hu
  simp only [List.mem_cons, List.not_mem_nil, or_false] at hu
  tauto

end TypeModel

namespace Value

/-- What lies where a value of a type is expected although it is not of that type: nothing, where a
handler started while no other exception was being handled; an exception, whatever its class; a
builtin function, which the analysis takes for a method. -/
def StandsIn : Value → TypeId → Prop
  | .none, t => t = .type ∨ t = .baseException ∨ t = .traceback
  | .exception _ _, t => t = .baseException
  | .builtin _ _, t => t = .method
  | _, _ => False

/-- The value is of the type, or stands in for a value of it. -/
def Fits (m : TypeModel) (v : Value) (t : TypeId) : Prop :=
  m.isSubtype v.type t = true ∨ v.StandsIn t

/-- The value fits what a slot knows of it. -/
def FitsSlot (m : TypeModel) (v : Value) (slot : Slot) : Prop := v.Fits m slot.runtimeType

/-- The value of a variable, if it is bound, fits what is known of the variable. -/
def FitsVar (m : TypeModel) (v : Option Value) (slot : Option Slot) : Prop :=
  ∀ w ∈ v, ∀ x ∈ slot, w.FitsSlot m x

variable {m : TypeModel} {v : Value} {t u : TypeId}

theorem StandsIn.mem (h : v.StandsIn t) : t ∈ TypeModel.lent := by
  unfold StandsIn at h
  split at h
  · rcases h with rfl | rfl | rfl <;> decide
  · subst h
    decide
  · subst h
    decide
  · exact h.elim

theorem fits_of_type (h : v.type = t) : v.Fits m t := by
  subst h
  exact .inl (m.isSubtype_refl _)

theorem fits_object (m : TypeModel) (v : Value) : v.Fits m .object :=
  .inl (TypeModel.isSubtype_iff.mpr (.inr (.inl rfl)))

/-- What fits a type fits all that is above it. -/
theorem Fits.mono (hm : m.ExtendsBuiltins) (h : v.Fits m t) (hu : m.isSubtype t u = true) :
    v.Fits m u := by
  rcases h with h | h
  · exact .inl (TypeModel.isSubtype_trans hm.built.ordered h hu)
  · rcases hm.eq_of_lent h.mem hu with rfl | rfl
    · exact .inr h
    · exact fits_object m v

theorem fitsSlot_object (m : TypeModel) (v : Value) : v.FitsSlot m .object := fits_object m v

theorem FitsSlot.within (hm : m.ExtendsBuiltins) {a b : Slot} (h : v.FitsSlot m a)
    (hab : Slot.Within m a b) : v.FitsSlot m b := by
  rcases Slot.within_iff.mp hab with rfl | ⟨t, rfl, ht⟩
  · exact h
  · exact Fits.mono hm h ht

theorem FitsVar.within (hm : m.ExtendsBuiltins) {v : Option Value} {a b : Option Slot}
    (h : FitsVar m v a) (hab : Slot.VarWithin m a b) : FitsVar m v b := by
  intro w hw x hx
  cases hx
  cases a with
  | none => exact absurd hab Slot.not_varWithin_none_some
  | some y => exact (h w hw y rfl).within hm (Slot.varWithin_some.mp hab)

end Value

/-! ## 2. Frames and states -/

section Lists

variable {α β γ : Type} {R : α → β → Prop} {as : List α} {bs : List β}

theorem forall₂_comp {S : β → γ → Prop} {T : α → γ → Prop} {cs : List γ}
    (h : ∀ a b c, R a b → S b c → T a c) (hr : List.Forall₂ R as bs) (hs : List.Forall₂ S bs cs) :
    List.Forall₂ T as cs := by
  induction hr generalizing cs with
  | nil =>
    cases hs
    exact .nil
  | cons hab _ ih =>
    cases hs with
    | cons hbc hs => exact .cons (h _ _ _ hab hbc) (ih hs)

theorem forall₂_getElem? {i : Nat} {a : α} (h : List.Forall₂ R as bs) (ha : as[i]? = some a) :
    ∃ b, bs[i]? = some b ∧ R a b := by
  induction h generalizing i with
  | nil => cases ha
  | cons hab _ ih =>
    cases i with
    | zero =>
      cases ha
      exact ⟨_, rfl, hab⟩
    | succ i => exact ih ha

theorem forall₂_set {i : Nat} {a : α} {b : β} (h : List.Forall₂ R as bs) (hab : R a b) :
    List.Forall₂ R (as.set i a) (bs.set i b) := by
  induction h generalizing i with
  | nil => exact .nil
  | cons hxy htail ih =>
    cases i with
    | zero => exact .cons hab htail
    | succ i => exact .cons hxy ih

theorem forall₂_replicate {n : Nat} {b : β} (hlen : as.length = n) (h : ∀ a, R a b) :
    List.Forall₂ R as (List.replicate n b) := by
  subst hlen
  induction as with
  | nil => exact .nil
  | cons a as ih => exact .cons (h a) ih

end Lists

/-- The stack and the variables of a frame of a program fit an abstract state. -/
structure Frame.Typed (m : TypeModel) (p : Program) (f : Frame) (s : AbstractState) : Prop where
  program : f.program = p
  stack : List.Forall₂ (Value.FitsSlot m) f.stack s.stack
  locals : List.Forall₂ (Value.FitsVar m) f.locals.toList s.locals

/-- The state without its topmost `k` slots. -/
def AbstractState.less (s : AbstractState) (k : Nat) : AbstractState :=
  { s with stack := s.stack.drop k }

/-- The state with nothing known of its topmost `k` slots. -/
def AbstractState.vague (s : AbstractState) (k : Nat) : AbstractState :=
  { s with stack := (s.stack.take k).map (fun _ => .object) ++ s.stack.drop k }

namespace Frame.Typed

variable {m : TypeModel} {p : Program} {f : Frame} {s s' : AbstractState}

theorem mono (hm : m.ExtendsBuiltins) (h : f.Typed m p s) (hw : s.Within m s') : f.Typed m p s' where
  program := h.program
  stack := forall₂_comp (fun _ _ _ hv hab => hv.within hm hab) h.stack hw.stack
  locals := forall₂_comp (fun _ _ _ hv hab => hv.within hm hab) h.locals hw.locals

/-- A frame fits a state if its topmost values do, and nothing was left open but these. -/
theorem of_vague (hm : m.ExtendsBuiltins) {k : Nat} (h : f.Typed m p (s.vague k))
    (hw : s.Within m s')
    (htop : List.Forall₂ (Value.FitsSlot m) (f.stack.take k)
      (s'.stack.take k)) : f.Typed m p s' := by
  refine ⟨h.program, ?_, forall₂_comp (fun _ _ _ hv hab => hv.within hm hab) h.locals hw.locals⟩
  have hdrop : (s.vague k).stack.drop k = s.stack.drop k := by
    rw [AbstractState.vague, List.drop_append, List.length_map, List.length_take, List.drop_drop,
      List.drop_eq_nil_of_le (by rw [List.length_map, List.length_take]; omega), List.nil_append]
    by_cases hk : k ≤ s.stack.length
    · rw [Nat.min_eq_left hk, Nat.sub_self, Nat.add_zero]
    · rw [List.drop_eq_nil_of_le (by omega), List.drop_eq_nil_of_le (by omega)]
  have hrest := List.forall₂_drop k h.stack
  rw [hdrop] at hrest
  have hrest' := forall₂_comp (fun _ _ _ hv hab => hv.within hm hab) hrest
    (List.forall₂_drop k hw.stack)
  rw [← List.take_append_drop k f.stack, ← List.take_append_drop k s'.stack]
  exact List.rel_append htop hrest'

end Frame.Typed

namespace Machine

/-! ## 3. Actions on typed frames -/

/-- What the actions of a machine with the given types give. -/
def Yields {α : Type} (m : TypeModel) (act : Action α) (P : α → Prop) : Prop :=
  ∀ ctx, ctx.compiler.model = m → ∀ s v s', act ctx s = .ok v s' → P v

/-- What is left of a frame that fitted a state: it has lost some of its topmost values, or has others
in place of the topmost `n`. -/
def Remains (m : TypeModel) (p : Program) (n : Nat) (s : AbstractState) (f : Frame) : Prop :=
  (∃ k, f.Typed m p (s.less k))
    ∨ ∃ new, new.length = n ∧ f.Typed m p { s with stack := new ++ s.stack.drop n }

/-- What an action leaves behind: a frame that fits a state of which `post` holds, or after a fault
what remains of a frame that fitted `s`. -/
def Tracked {α : Type} (m : TypeModel) (p : Program) (n : Nat) (s : AbstractState)
    (post : α → AbstractState → Prop) : EStateM.Result Fault Activation α → Prop
  | .ok v a => ∃ t, a.frame.Typed m p t ∧ post v t
  | .error _ a => Remains m p n s a.frame

/-- From a frame that fits the state `t` the action comes to one that fits a state of which `post`
holds, or ends in a fault with what remains of a frame that fitted `s`. -/
def Tracks {α : Type} (m : TypeModel) (p : Program) (n : Nat) (s : AbstractState)
    (x : FrameAction α) (t : AbstractState) (post : α → AbstractState → Prop) : Prop :=
  ∀ ctx, ctx.compiler.model = m → ∀ f st, f.Typed m p t → Tracked m p n s post (x ctx ⟨f, st⟩)

variable {m : TypeModel} {p : Program} {n : Nat} {s t : AbstractState} {α β : Type}
  {post : α → AbstractState → Prop} {k : Nat}

theorem Tracks.bind {x : FrameAction β} {g : β → FrameAction α}
    (h : Tracks m p n s x t fun v t' => Tracks m p n s (g v) t' post) :
    Tracks m p n s (x >>= g) t post := by
  intro ctx hc f st hf
  have hx := h ctx hc f st hf
  simp only [Bind.bind, ReaderT.bind, EStateM.bind]
  cases hres : x ctx ⟨f, st⟩ with
  | ok v a =>
    rw [hres] at hx
    obtain ⟨t', hf', hg⟩ := hx
    exact hg ctx hc a.frame a.store hf'
  | error e a =>
    rw [hres] at hx
    exact hx

theorem Tracks.mono {x : FrameAction α} {post' : α → AbstractState → Prop}
    (h : Tracks m p n s x t post) (hp : ∀ v t', post v t' → post' v t') :
    Tracks m p n s x t post' := by
  intro ctx hc f st hf
  have hx := h ctx hc f st hf
  cases hres : x ctx ⟨f, st⟩ with
  | ok v a =>
    rw [hres] at hx
    obtain ⟨t', hf', hpost⟩ := hx
    exact ⟨t', hf', hp v t' hpost⟩
  | error e a =>
    rw [hres] at hx
    exact hx

theorem remains_less {f : Frame} (h : f.Typed m p (s.less k)) : Remains m p n s f :=
  .inl ⟨k, h⟩

theorem tracks_pure {v : α} (h : post v t) : Tracks m p n s (pure v) t post :=
  fun _ _ _ _ hf => ⟨t, hf, h⟩

theorem tracks_frame {post : Frame → AbstractState → Prop} (h : ∀ f, f.Typed m p t → post f t) :
    Tracks m p n s frame t post :=
  fun _ _ f _ hf => ⟨t, hf, h f hf⟩

theorem tracks_throw {e : Fault} : Tracks m p n s (throw e) (s.less k) post :=
  fun _ _ _ _ hf => remains_less hf

theorem tracks_broken {cause : Broken} : Tracks m p n s (broken cause) (s.less k) post :=
  fun _ _ _ _ hf => remains_less hf

/-- An operation of the machine leaves the frame alone; what it gives may be known. -/
theorem tracks_yields {act : Action α} {P : α → Prop} (hact : Yields m act P)
    (hleft : ∀ f, f.Typed m p t → Remains m p n s f) (h : ∀ v, P v → post v t) :
    Tracks m p n s (liftM act) t post := by
  intro ctx hc f st hf
  change Tracked m p n s post (inFrame act ctx ⟨f, st⟩)
  unfold inFrame
  cases hres : act ctx st with
  | ok v st' => exact ⟨t, hf, h v (hact ctx hc st v st' hres)⟩
  | error e st' => exact hleft f hf

theorem tracks_lift {act : Action α} (h : ∀ v, post v (s.less k)) :
    Tracks m p n s (liftM act) (s.less k) post :=
  tracks_yields (P := fun _ => True) (fun _ _ _ _ _ _ => trivial) (fun _ => remains_less)
    fun v _ => h v

theorem tracks_updateFrame {g : Frame → Frame} {post : Unit → AbstractState → Prop}
    (t' : AbstractState) (hg : ∀ f, f.Typed m p t → (g f).Typed m p t') (h : post () t') :
    Tracks m p n s (updateFrame g) t post :=
  fun _ _ f _ hf => ⟨t', hg f hf, h⟩

/-! ## 4. The stack -/

theorem tracks_onStack {g : List Value → Option (α × List Value)}
    (h : ∀ vs, List.Forall₂ (Value.FitsSlot m) vs t.stack →
      ∃ v vs' t', g vs = some (v, vs') ∧ t'.locals = t.locals
        ∧ List.Forall₂ (Value.FitsSlot m) vs' t'.stack ∧ post v t') :
    Tracks m p n s (onStack g) t post := by
  intro ctx hc f st hf
  obtain ⟨v, vs', t', hg, hlocals, hstack, hpost⟩ := h f.stack hf.stack
  have hrun : onStack g ctx ⟨f, st⟩ = .ok v ⟨{ f with stack := vs' }, st⟩ := by
    rw [onStack_run, hg]
    rfl
  rw [hrun]
  exact ⟨t', ⟨hf.program, hstack, hlocals ▸ hf.locals⟩, hpost⟩

/-- The value fits the slot `k` below the top of a state. -/
def FitsAt (m : TypeModel) (s : AbstractState) (k : Nat) (v : Value) : Prop :=
  ∃ slot, s.stack[k]? = some slot ∧ v.FitsSlot m slot

theorem tracks_pop {post : Value → AbstractState → Prop} (hk : k < s.depth)
    (h : ∀ v, FitsAt m s k v → post v (s.less (k + 1))) : Tracks m p n s pop (s.less k) post := by
  refine tracks_onStack fun vs hvs => ?_
  rw [AbstractState.less, List.drop_eq_getElem_cons hk] at hvs
  cases hvs with
  | @cons v _ rest _ hv hrest =>
    exact ⟨v, rest, s.less (k + 1), rfl, rfl, hrest,
      h v ⟨_, List.getElem?_eq_getElem hk, hv⟩⟩

theorem tracks_popMany {j : Nat} {post : List Value → AbstractState → Prop} (hk : k + j ≤ s.depth)
    (h : ∀ vs, post vs (s.less (k + j))) : Tracks m p n s (popMany j) (s.less k) post := by
  refine tracks_onStack fun vs hvs => ?_
  have hlen : j ≤ vs.length := by
    rw [hvs.length_eq, AbstractState.less, List.length_drop]
    exact Nat.le_sub_of_add_le (by rw [Nat.add_comm]; exact hk)
  refine ⟨_, vs.drop j, s.less (k + j), if_pos hlen, rfl, ?_, h _⟩
  have hrest := List.forall₂_drop j hvs
  rwa [AbstractState.less, List.drop_drop] at hrest

theorem tracks_peek {j : Nat} {post : Value → AbstractState → Prop} (hk : k + j < s.depth)
    (h : ∀ v, FitsAt m s (k + j) v → post v (s.less k)) :
    Tracks m p n s (peek j) (s.less k) post := by
  refine tracks_onStack fun vs hvs => ?_
  have hlen : j < vs.length := by
    rw [hvs.length_eq, AbstractState.less, List.length_drop]
    exact Nat.lt_sub_of_add_lt (by rw [Nat.add_comm]; exact hk)
  refine ⟨vs[j], vs, s.less k, ?_, rfl, hvs, h _ ?_⟩
  · rw [List.getElem?_eq_getElem hlen]
    rfl
  · obtain ⟨slot, hslot, hfit⟩ := forall₂_getElem? hvs (List.getElem?_eq_getElem hlen)
    rw [AbstractState.less, List.getElem?_drop] at hslot
    exact ⟨slot, hslot, hfit⟩

theorem tracks_rotate {j o : Nat} {s' : AbstractState} {post : Unit → AbstractState → Prop}
    (hs : t.rotate j o = .ok s') (h : post () s') : Tracks m p n s (rotate j) t post := by
  unfold AbstractState.rotate at hs
  split at hs
  · cases hs
  · rename_i hj
    rw [not_or, Nat.not_lt] at hj
    split at hs
    · cases hs
    · rename_i slot slots hstack
      cases hs
      refine tracks_onStack fun vs hvs => ?_
      rw [hstack] at hvs
      cases hvs with
      | @cons v _ rest _ hv hrest =>
        have hlen : j ≤ rest.length + 1 := by
          rw [hrest.length_eq]
          have := hj.2
          rwa [AbstractState.depth, hstack, List.length_cons] at this
        refine ⟨(), rest.take (j - 1) ++ v :: rest.drop (j - 1),
          { t with stack := slots.take (j - 1) ++ slot :: slots.drop (j - 1) }, ?_, rfl,
          List.rel_append (List.forall₂_take _ hrest) (.cons hv (List.forall₂_drop _ hrest)), h⟩
        by_cases hsmall : j < 2
        · obtain rfl : j = 1 := by omega
          rfl
        · rw [Stack.rotate?, if_neg hsmall, if_neg (by omega)]
          rfl

theorem tracks_push {v : Value} {slot : Slot} {post : Unit → AbstractState → Prop}
    (hv : v.FitsSlot m slot) (h : post () (t.push slot)) :
    Tracks m p n s (push v) t post :=
  tracks_updateFrame (t.push slot) (fun _ hf => ⟨hf.program, .cons hv hf.stack, hf.locals⟩) h

theorem tracks_pushAll {vs : List Value} {slots : List Slot} {post : Unit → AbstractState → Prop}
    (hvs : List.Forall₂ (Value.FitsSlot m) vs slots)
    (h : post () { t with stack := slots ++ t.stack }) : Tracks m p n s (pushAll vs) t post :=
  tracks_updateFrame { t with stack := slots ++ t.stack }
    (fun _ hf => ⟨hf.program, List.rel_append hvs hf.stack, hf.locals⟩) h

theorem tracks_target {j : Nat} {post : Value → AbstractState → Prop} (hk : k + (j - 1) < s.depth)
    (h : ∀ v, post v (s.less k)) : Tracks m p n s (target j) (s.less k) post := by
  unfold target
  cases j with
  | zero => exact tracks_broken
  | succ j => exact tracks_peek hk fun v _ => h v

/-- A result of which the type is known. -/
theorem tracks_result {act : Action Value} {slot : Slot} {post : Unit → AbstractState → Prop}
    (hact : Yields m act fun v => v.FitsSlot m slot)
    (h : post () ((s.less k).push slot)) :
    Tracks m p n s (do push (← act) : FrameAction Unit) (s.less k) post :=
  .bind (tracks_yields hact (fun _ => remains_less) fun _ hv => tracks_push hv h)

/-- A result of which nothing is known. -/
theorem tracks_vouched {act : Action Value} {post : Unit → AbstractState → Prop}
    (h : post () ((s.less k).push .object)) :
    Tracks m p n s (do push (← act) : FrameAction Unit) (s.less k) post :=
  tracks_result (fun _ _ _ v _ _ => Value.fitsSlot_object m v) h

/-! ## 5. Variables -/

/-- Raising gives nothing. -/
theorem yields_raiseText {e : TypeId} {message : String} {P : α → Prop} :
    Yields m (raiseText e message) P :=
  fun _ _ _ _ _ h => by cases h

theorem tracks_raiseText {e : TypeId} {message : String} :
    Tracks m p n s (liftM (raiseText e message : Action α)) (s.less k) post :=
  tracks_yields (P := fun _ => False) yields_raiseText (fun _ => remains_less) fun _ h => h.elim

theorem tracks_getLocal {i : Nat} {x : Option Slot} {post : Value → AbstractState → Prop}
    (hx : s.locals[i]? = some x)
    (h : ∀ v, v.FitsSlot m (x.getD .object) → post v (s.less k)) :
    Tracks m p n s (getLocal i) (s.less k) post := by
  refine .bind (tracks_frame fun f hf => ?_)
  split
  · rename_i v hv
    refine tracks_pure (h v ?_)
    obtain ⟨y, hy, hfit⟩ := forall₂_getElem? hf.locals (by rw [Array.getElem?_toList]; exact hv)
    obtain rfl : x = y := Option.some.inj (hx.symm.trans hy)
    cases x with
    | none => exact Value.fitsSlot_object m v
    | some slot => exact hfit v rfl slot rfl
  · exact tracks_raiseText
  · exact tracks_broken

theorem tracks_setLocal {i o : Nat} {v : Option Value} {x : Option Slot}
    {locals : List (Option Slot)} {post : Unit → AbstractState → Prop}
    (hx : AbstractState.setVariable s.locals i o x = .ok locals) (hv : Value.FitsVar m v x)
    (h : post () { s.less k with locals }) : Tracks m p n s (setLocal i v) (s.less k) post := by
  refine .bind (tracks_frame fun f hf => ?_)
  split
  · refine tracks_updateFrame { s.less k with locals } (fun g hg => ⟨hg.program, hg.stack, ?_⟩) h
    unfold AbstractState.setVariable at hx
    split at hx
    · cases hx
      rw [Array.toList_setIfInBounds]
      exact forall₂_set hg.locals hv
    · cases hx
  · exact tracks_broken

theorem tracks_cellAt {i : Nat} {post : Nat → AbstractState → Prop} (h : ∀ r, post r (s.less k)) :
    Tracks m p n s (cellAt i) (s.less k) post := by
  refine .bind (tracks_frame fun f hf => ?_)
  split
  · exact tracks_pure (h _)
  · exact tracks_broken

theorem tracks_getCell {i : Nat} {post : Value → AbstractState → Prop}
    (h : ∀ v, post v (s.less k)) : Tracks m p n s (getCell i) (s.less k) post := by
  refine .bind (tracks_cellAt fun r => .bind (tracks_lift fun v => ?_))
  cases v with
  | some v => exact tracks_pure (h v)
  | none => exact .bind (tracks_frame fun f _ => tracks_lift h)

/-! ## 6. Parts of operations -/

theorem tracks_foldlM {g : α → β → FrameAction α} (hg : ∀ a x, Tracks m p n s (g a x) (s.less k)
      fun _ t => t = s.less k) (xs : List β) (a : α) :
    Tracks m p n s (xs.foldlM g a) (s.less k) fun _ t => t = s.less k := by
  induction xs generalizing a with
  | nil => exact tracks_pure rfl
  | cons x xs ih =>
    rw [List.foldlM_cons]
    refine .bind ((hg a x).mono fun b t ht => ?_)
    subst ht
    exact ih b

theorem tracks_mapM {g : β → FrameAction α} (hg : ∀ x, Tracks m p n s (g x) (s.less k)
      fun _ t => t = s.less k) (xs : List β) :
    Tracks m p n s (xs.mapM g) (s.less k) fun _ t => t = s.less k := by
  induction xs with
  | nil => exact tracks_pure rfl
  | cons x xs ih =>
    rw [List.mapM_cons]
    refine .bind ((hg x).mono fun b t ht => ?_)
    subst ht
    refine .bind (ih.mono fun bs t ht => ?_)
    subst ht
    exact tracks_pure rfl

/-- A new object is of its type. -/
theorem yields_make {g : Store → Value × Store} {t : TypeId} (h : ∀ s, (g s).1.type = t) :
    Yields m (make g) fun v => v.type = t := by
  intro ctx _ s v s' hrun
  cases hrun
  exact h s

theorem tracks_new {g : Store → Value × Store} {type : TypeId} {post : Unit → AbstractState → Prop}
    (hg : ∀ st, (g st).1.type = type) (h : post () ((s.less k).push (.value type))) :
    Tracks m p n s (do push (← make g) : FrameAction Unit) (s.less k) post :=
  .bind (tracks_yields (yields_make hg) (fun _ => remains_less) fun _ hv =>
    tracks_push (show Value.FitsSlot m _ (.value type) from Value.fits_of_type hv) h)

/-- The collection is made of the values that the operation takes. -/
theorem tracks_build {shape : Shape} {j : Nat} (hd : shape.taken j ≤ s.depth)
    (hslice : shape = .slice → j = 2 ∨ j = 3) :
    Tracks m p n s (build shape j) (s.less 0) fun v t =>
      t = s.less (shape.taken j) ∧ v.type = shape.type := by
  have hmade : ∀ {g : Store → Value × Store} {k : Nat}, k = shape.taken j →
      (∀ st, (g st).1.type = shape.type) → Tracks m p n s (liftM (make g)) (s.less k) fun v t =>
        t = s.less (shape.taken j) ∧ v.type = shape.type :=
    fun hk hg => hk ▸ tracks_yields (yields_make hg) (fun _ => remains_less) fun _ hv => ⟨rfl, hv⟩
  unfold build
  cases shape with
  | tuple | list =>
    exact .bind (tracks_popMany (by rw [Nat.zero_add]; exact hd) fun vs =>
      hmade (Nat.zero_add j) fun _ => rfl)
  | set =>
    refine .bind (tracks_popMany (by rw [Nat.zero_add]; exact hd) fun vs => .bind
      ((tracks_foldlM (fun _ _ => tracks_lift fun _ => rfl) vs []).mono fun ms t ht => ?_))
    subst ht
    exact hmade (Nat.zero_add j) fun _ => rfl
  | string =>
    refine .bind (tracks_popMany (by rw [Nat.zero_add]; exact hd) fun vs => .bind
      ((tracks_mapM (fun _ => tracks_lift fun _ => rfl) vs).mono fun texts t ht => ?_))
    subst ht
    exact hmade (Nat.zero_add j) fun _ => rfl
  | map =>
    exact .bind (tracks_popMany (by rw [Nat.zero_add]; exact hd) fun vs =>
      .bind (tracks_lift fun pairs => hmade (Nat.zero_add _) fun _ => rfl))
  | constKeyMap =>
    have hd' : j + 1 ≤ s.depth := hd
    refine .bind (tracks_pop (by omega) fun keys _ => .bind (tracks_popMany (by omega) fun vs => ?_))
    split
    · exact .bind (tracks_lift fun pairs => hmade (Nat.add_comm 1 j) fun _ => rfl)
    · exact tracks_broken
  | slice =>
    have hd' : j ≤ s.depth := hd
    have hrest : ∀ step k, k + 2 = j → Tracks m p n s (do
        let stop ← pop
        let start ← pop
        make (Store.newSlice start stop step) : FrameAction Value) (s.less k) fun v t =>
          t = s.less (Shape.taken .slice j) ∧ v.type = Shape.type .slice := fun step k hk =>
      .bind (tracks_pop (by omega) fun stop _ => .bind (tracks_pop (by omega) fun start _ =>
        hmade hk fun _ => rfl))
    rcases hslice rfl with rfl | rfl
    · exact .bind (tracks_pure (hrest _ 0 rfl))
    · exact .bind (tracks_pop (by omega) fun step _ => hrest step 1 rfl)

theorem tracks_mergeTarget {depth : Nat} {cause : Broken} {merge : Bool}
    {incoming : List (Value × Value)} (hd : k + (depth - 1) < s.depth) : Tracks m p n s (do
      match ← target depth with
      | .dict r => mergeInto r merge incoming
      | _ => broken cause : FrameAction Unit) (s.less k) fun _ t => t = s.less k := by
  refine .bind (tracks_target hd fun v => ?_)
  split
  · exact tracks_lift fun _ => rfl
  · exact tracks_broken

theorem tracks_update {kind : Update} {depth : Nat}
    (hd : kind.taken + (depth - 1) < s.depth) :
    Tracks m p n s (update kind depth) (s.less 0) fun _ t => t = s.less kind.taken := by
  unfold update
  cases kind with
  | listAppend | setAdd =>
    have hd' : 1 + (depth - 1) < s.depth := hd
    refine .bind (tracks_pop (by omega) fun v _ => .bind (tracks_target (by omega) fun t => ?_))
    split
    · exact tracks_lift fun _ => rfl
    · exact tracks_broken
  | listExtend | setUpdate =>
    have hd' : 1 + (depth - 1) < s.depth := hd
    refine .bind (tracks_pop (by omega) fun v _ => .bind (tracks_lift fun items =>
      .bind (tracks_target (by omega) fun t => ?_)))
    split
    · exact tracks_lift fun _ => rfl
    · exact tracks_broken
  | mapAdd =>
    have hd' : 2 + (depth - 1) < s.depth := hd
    refine .bind (tracks_pop (by omega) fun value _ => .bind (tracks_pop (by omega) fun key _ =>
      .bind (tracks_lift fun _ => .bind (tracks_target (by omega) fun t => ?_))))
    split
    · exact tracks_lift fun _ => rfl
    · exact tracks_broken
  | dictUpdate | dictMerge =>
    have hd' : 1 + (depth - 1) < s.depth := hd
    refine .bind (tracks_pop (by omega) fun other _ => ?_)
    split
    · exact .bind (tracks_lift fun pairs => tracks_mergeTarget (by omega))
    · exact .bind (tracks_lift fun _ => .bind (tracks_lift fun pairs =>
        tracks_mergeTarget (by omega)))

theorem tracks_unpackSequence {j : Nat} (hd : 1 ≤ s.depth) :
    Tracks m p n s (unpackSequence j) (s.less 0) fun _ t => t = (s.less 1).pushMany j .object := by
  refine .bind (tracks_pop hd fun v _ => .bind (tracks_lift fun items => ?_))
  split
  · exact tracks_raiseText
  · split
    · exact tracks_raiseText
    · exact tracks_pushAll (forall₂_replicate (n := j) (by omega) (Value.fitsSlot_object m)) rfl

theorem tracks_unpackEx {before after : Nat} (hd : 1 ≤ s.depth) :
    Tracks m p n s (unpackEx before after) (s.less 0) fun _ t => t =
      ((((s.less 1).pushMany after .object).push (.value TypeId.list)).pushMany before .object) := by
  refine .bind (tracks_pop hd fun v _ => .bind (tracks_lift fun items => ?_))
  split
  · exact tracks_raiseText
  · rename_i hlen
    refine .bind (tracks_yields (yields_make fun _ => rfl) (fun _ => remains_less)
      fun middle hmiddle => ?_)
    have hslots : List.Forall₂ (Value.FitsSlot m)
        (items.take before ++ middle :: items.drop (items.length - after))
        (List.replicate before .object ++ .value TypeId.list :: List.replicate after .object) :=
      List.rel_append
        (forall₂_replicate (by rw [List.length_take]; omega) (Value.fitsSlot_object m))
        (.cons (Value.fits_of_type hmiddle)
          (forall₂_replicate (by rw [List.length_drop]; omega) (Value.fitsSlot_object m)))
    refine tracks_pushAll hslots ?_
    simp only [AbstractState.pushMany, AbstractState.push, List.append_assoc, List.cons_append]

theorem tracks_formatTop {flags : Nat}
    (hd : (if flags &&& Op.formatHasSpec != 0 then 2 else 1) ≤ s.depth) :
    Tracks m p n s (formatTop flags) (s.less 0) fun _ t =>
      t = (s.less (if flags &&& Op.formatHasSpec != 0 then 2 else 1)).push (.value TypeId.str) := by
  have hrest : ∀ spec k, k < s.depth → Tracks m p n s (do
      let v ← converted flags (← pop)
      push (← newStr (← format v spec)) : FrameAction Unit) (s.less k) fun _ t =>
        t = (s.less (k + 1)).push (.value TypeId.str) := fun spec k hk =>
    .bind (tracks_pop hk fun v _ => .bind (tracks_lift fun w => .bind (tracks_lift fun text =>
      tracks_new (fun _ => rfl) rfl)))
  unfold formatTop
  split
  · rename_i hspec
    rw [if_pos hspec] at hd
    refine .bind (tracks_pop (by omega) fun spec _ => ?_)
    split
    · exact .bind (tracks_pure (hrest _ 1 (by omega)))
    · exact .bind tracks_broken
  · rename_i hspec
    rw [if_neg hspec] at hd
    exact .bind (tracks_pure (hrest _ 0 (by omega)))

theorem tracks_callTop {lowering : Lowering} {argc : Nat} (hd : argc + 1 ≤ s.depth) :
    Tracks m p n s (callTop lowering argc) (s.less 0) fun _ t =>
      t = (s.less (argc + 1)).push .object := by
  have hgoal : ∀ {act : Action Value}, Tracks m p n s (do push (← act) : FrameAction Unit)
      (s.less (0 + argc + 1)) fun _ t => t = (s.less (argc + 1)).push .object :=
    tracks_vouched (by rw [Nat.zero_add])
  refine .bind (tracks_popMany (by omega) fun args => .bind (tracks_pop (by omega) fun callee _ => ?_))
  split
  · split
    · exact hgoal
    · exact hgoal
  · exact hgoal

theorem tracks_callKeywords {argc : Nat} (hd : argc + 2 ≤ s.depth) :
    Tracks m p n s (callKeywords argc) (s.less 0) fun _ t =>
      t = (s.less (argc + 2)).push .object := by
  refine .bind (tracks_pop (by omega) fun names _ => .bind (tracks_popMany (by omega) fun args =>
    .bind (tracks_pop (by omega) fun callee _ => ?_)))
  split
  · split
    · exact tracks_broken
    · dsimp only
      split
      · refine tracks_vouched ?_
        rw [show 0 + 1 + argc + 1 = argc + 2 by omega]
      · exact tracks_broken
  · exact tracks_broken

theorem tracks_callUnpacked {hasMapping : Bool} (hd : (if hasMapping then 3 else 2) ≤ s.depth) :
    Tracks m p n s (callUnpacked hasMapping) (s.less 0) fun _ t =>
      t = (s.less (if hasMapping then 3 else 2)).push .object := by
  have hrest : ∀ mapping k, k + 2 = (if hasMapping then 3 else 2) → Tracks m p n s (do
      let iterable ← pop
      let callee ← pop
      let args ← collect iterable
      let kwargs ← match mapping with
        | some v => mappingKeywords v
        | none => pure []
      push (← callWith callee args kwargs) : FrameAction Unit) (s.less k) fun _ t =>
        t = (s.less (if hasMapping then 3 else 2)).push .object := by
    intro mapping k hk
    rw [← hk] at hd ⊢
    refine .bind (tracks_pop (by omega) fun iterable _ => .bind (tracks_pop (by omega) fun callee _ =>
      .bind (tracks_lift fun args => ?_)))
    cases mapping with
    | some v => exact .bind (tracks_lift fun kwargs => tracks_vouched rfl)
    | none => exact tracks_vouched rfl
  unfold callUnpacked
  cases hasMapping with
  | true =>
    have hd' : 3 ≤ s.depth := hd
    exact .bind (tracks_pop (by omega) fun v _ => hrest (some v) 1 rfl)
  | false => exact hrest none 0 rfl

theorem tracks_callMethodTop {lowering : Lowering} {argc : Nat} (hd : argc + 2 ≤ s.depth) :
    Tracks m p n s (callMethodTop lowering argc) (s.less 0) fun _ t =>
      t = (s.less (argc + 2)).push .object := by
  have hgoal : ∀ {act : Action Value}, Tracks m p n s (do push (← act) : FrameAction Unit)
      (s.less (0 + argc + 1 + 1)) fun _ t => t = (s.less (argc + 2)).push .object :=
    tracks_vouched (by rw [show 0 + argc + 1 + 1 = argc + 2 by omega])
  refine .bind (tracks_popMany (by omega) fun args => .bind (tracks_pop (by omega) fun receiver _ =>
    .bind (tracks_pop (by omega) fun method _ => ?_)))
  dsimp only
  split
  · exact hgoal
  · exact hgoal

theorem tracks_checked {x : Except Broken α} (h : ∀ v, post v (s.less k)) :
    Tracks m p n s (checked x) (s.less k) post := by
  cases x with
  | ok v => exact tracks_pure (h v)
  | error cause => exact tracks_broken

theorem tracks_makeFunction {flags : Nat} (hd : 2 + Op.functionParts flags ≤ s.depth) :
    Tracks m p n s (makeFunction flags) (s.less 0) fun _ t =>
      t = (s.less (2 + Op.functionParts flags)).push (.value TypeId.function) := by
  generalize htotal : 2 + Op.functionParts flags = total at hd ⊢
  rw [functionParts_eq] at htotal
  have hmade : ∀ {f : Function} {k : Nat}, k = total → Tracks m p n s
      (do push (← make (Store.newFunction f)) : FrameAction Unit) (s.less k) fun _ t =>
        t = (s.less total).push (.value TypeId.function) :=
    fun hk => hk ▸ tracks_new (fun _ => rfl) rfl
  unfold makeFunction
  refine .bind (tracks_pop (by omega) fun qualname _ => .bind (tracks_pop (by omega) fun code _ => ?_))
  split
  · -- each optional part takes one value, from the closure down to the defaults
    extract_lets has withClosure
    change 2 + ((if has 8 then 1 else 0) + ((if has 4 then 1 else 0)
      + ((if has 2 then 1 else 0) + (if has 1 then 1 else 0)))) = total at htotal
    have hclosure : ∀ {k closure}, k + ((if has 4 then 1 else 0)
        + ((if has 2 then 1 else 0) + (if has 1 then 1 else 0))) = total →
        Tracks m p n s (withClosure closure) (s.less k) fun _ t =>
          t = (s.less total).push (.value TypeId.function) := by
      intro k closure hk
      simp -zeta only [withClosure]
      extract_lets withSignature
      have hsignature : ∀ {k signature}, k + ((if has 2 then 1 else 0)
          + (if has 1 then 1 else 0)) = total →
          Tracks m p n s (withSignature signature) (s.less k) fun _ t =>
            t = (s.less total).push (.value TypeId.function) := by
        intro k signature hk
        simp -zeta only [withSignature]
        extract_lets withKeywords
        have hkeywords : ∀ {k kwdefaults}, k + (if has 1 then 1 else 0) = total →
            Tracks m p n s (withKeywords kwdefaults) (s.less k) fun _ t =>
              t = (s.less total).push (.value TypeId.function) := by
          intro k kwdefaults hk
          simp -zeta only [withKeywords]
          split
          · rename_i hbit
            rw [if_pos hbit] at hk
            refine .bind (tracks_pop (by omega) fun v _ => ?_)
            split
            · exact .bind (tracks_pure (hmade hk))
            · exact .bind tracks_broken
          · rename_i hbit
            rw [if_neg hbit] at hk
            exact .bind (tracks_pure (hmade hk))
        split
        · rename_i hbit
          rw [if_pos hbit] at hk
          refine .bind (tracks_pop (by omega) fun v _ => ?_)
          split
          · exact .bind (tracks_lift fun pairs => hkeywords (by omega))
          · exact .bind tracks_broken
        · rename_i hbit
          rw [if_neg hbit] at hk
          exact .bind (tracks_pure (hkeywords (by omega)))
      split
      · rename_i hbit
        rw [if_pos hbit] at hk
        exact .bind (tracks_pop (by omega) fun v _ => .bind (tracks_lift fun st =>
          .bind (tracks_checked fun items => .bind (tracks_pure (hsignature (by omega))))))
      · rename_i hbit
        rw [if_neg hbit] at hk
        exact .bind (tracks_pure (hsignature (by omega)))
    split
    · rename_i hbit
      rw [if_pos hbit] at htotal
      exact .bind (tracks_pop (by omega) fun v _ => .bind (tracks_checked fun cells =>
        hclosure (by omega)))
    · rename_i hbit
      rw [if_neg hbit] at htotal
      exact .bind (tracks_pure (hclosure (by omega)))
  · exact tracks_broken

/-- A special method is a method. -/
theorem yields_special (v : Value) (name : String) :
    Yields m (special v name) fun w => w.type = TypeId.method := by
  intro ctx hc st w st' h
  have hfound : ∀ {found : Bool} {st₁ : Store}, (if found then newMethod v name
      else raiseText TypeId.attributeError name) ctx st₁ = .ok w st' → w.type = TypeId.method := by
    intro found st₁ h
    split at h
    · cases h
      rfl
    · cases h
  unfold special at h
  split at h
  · obtain ⟨found, st₁, -, h⟩ := run_bind_eq_ok.mp h
    exact hfound h
  · obtain ⟨_, st₁, -, h⟩ := run_bind_eq_ok.mp h
    obtain ⟨found, st₂, -, h⟩ := run_bind_eq_ok.mp h
    exact hfound h

/-- The exit method lies on the stack when the entry method is called. -/
theorem tracks_enterWith (hd : 1 ≤ s.depth) (exit : Slot) (hexit : exit.runtimeType = .method) :
    Tracks m p 1 s enterWith (s.less 0) fun _ t => t = ((s.less 1).push exit).push .object := by
  have hmethod : ∀ {v : Value}, v.type = TypeId.method → v.FitsSlot m exit := by
    intro v hv
    rw [Value.FitsSlot, hexit]
    exact Value.fits_of_type hv
  refine .bind (tracks_pop hd fun manager _ => .bind (tracks_yields (yields_special manager _)
    (fun _ => remains_less) fun w hw => .bind (tracks_lift fun enter =>
      .bind (tracks_push (hmethod hw) (.bind ?_)))))
  exact tracks_yields (P := fun _ => True) (fun _ _ _ _ _ _ => trivial)
    (fun f hf => .inr ⟨[exit], rfl, hf⟩)
    fun v _ => tracks_push (Value.fitsSlot_object m v) rfl

theorem tracks_reraised (hd : 3 ≤ s.depth) {post : Raised → AbstractState → Prop}
    (h : ∀ e, post e (s.less 3)) : Tracks m p n s reraised (s.less 0) post := by
  refine .bind (tracks_pop (by omega) fun type _ => .bind (tracks_pop (by omega) fun value _ =>
    .bind (tracks_pop (by omega) fun _ _ => ?_)))
  split
  · exact tracks_pure (h _)
  · exact tracks_lift h

theorem tracks_raisedBy {j : Nat} (hd : j ≤ s.depth) {post : Raised → AbstractState → Prop}
    (h : ∀ e k, post e (s.less k)) : Tracks m p n s (raisedBy j) (s.less 0) post := by
  unfold raisedBy
  split
  · refine .bind (tracks_frame fun f _ => ?_)
    split
    · exact tracks_pure (h _ 0)
    · exact tracks_raiseText
  · exact .bind (tracks_pop (by omega) fun v _ => tracks_lift fun e => h e _)
  · rename_i hne₀ hne₁
    have hj : 2 ≤ j := by
      have h₀ : j ≠ 0 := hne₀
      have h₁ : j ≠ 1 := hne₁
      omega
    exact .bind (tracks_pop (by omega) fun _ _ => .bind (tracks_pop (by omega) fun v _ =>
      tracks_lift fun e => h e _))

/-- What is converted to a declared type is of it. -/
theorem coerce?_isSubtype {v w : Value} {declared : TypeId} (h : coerce? m v declared = some w) :
    m.isSubtype w.type declared = true := by
  unfold coerce? at h
  split at h
  · cases h
    assumption
  · split at h
    · rename_i hfloat
      obtain ⟨_, -, h⟩ := Option.bind_eq_some_iff.mp h
      obtain ⟨x, -, rfl⟩ := Option.map_eq_some_iff.mp h
      rw [eq_of_beq hfloat]
      exact m.isSubtype_refl _
    · cases h

theorem yields_checkReturn (q : Program) (v : Value) :
    Yields m (checkReturn q v) fun w => m.isSubtype w.type q.signature.returns = true := by
  intro ctx hc st w st' h
  obtain ⟨m', st₁, hm, h⟩ := run_bind_eq_ok.mp h
  cases hm
  rw [hc] at h
  cases hw : coerce? m v q.signature.returns with
  | some w' =>
    rw [hw] at h
    cases h
    exact coerce?_isSubtype hw
  | none =>
    rw [hw] at h
    obtain ⟨_, st₂, -, h⟩ := run_bind_eq_ok.mp h
    cases h

end Machine

end Stackwise
