import Stackwise.Proofs.Machine.Unwinding

/-!
# Caught exceptions

What a handler starts with.

* `Store.Shows`: the three values that stand for an exception on the stack.
* `inForce`: the exception that is in force where another one is raised, read from the stack with
  its lowest value first. `restored?_eq`: the machine reads it so.
* `unwind_caught`: an exception that is caught cuts the stack to the level of its region, and puts
  the one in force and itself on it. Nothing else changes, in the frame or in the store.
* `unwind_uncaught`: one that is not caught leaves the frame as it is.
* `routeFault_noted`: before that, the raise is noted down, unless it is one that was caught before.
  `routed`: a step that ends so goes on, or fails.

Two programs of one function can have an instruction at different offsets. If it raises, different
offsets are noted down, and else the exception goes the same way.

* `Store.withoutOffsets`, `Frame.withoutOffsets`: a store and a frame, with no offsets in tracebacks.
* `Activation.Matches`: an activation of the one program stands for one of the other.
* `Lands`: two steps come to activations that stand for each other, or leave their frames with the
  same fault.
* `routeFault_lands`: a fault that both programs raise with the same store does so.
-/

namespace Stackwise

/-! ## 1. Exceptions on the stack -/

/-- The values, top first, that stand for an exception on the stack: its class, itself, and the
traceback that it has in the store. -/
def Store.Shows (s : Store) : Option Raised → List Value → Prop
  | none, vs => vs = [.none, .none, .none]
  | some e, vs => ∃ id,
      vs = [.classObject e.type, e.value, .traceback id (s.exceptions.get e.ref).traceback]

theorem Store.Shows.length {s : Store} {e : Option Raised} {vs : List Value} (h : s.Shows e vs) :
    vs.length = 3 := by
  cases e with
  | none =>
    cases h
    rfl
  | some e =>
    obtain ⟨id, rfl⟩ := h
    rfl

/-- The values on the stack stand for the exception that is read from them. -/
theorem Store.Shows.handledOf {s : Store} {e : Option Raised} {vs : List Value}
    (h : s.Shows e vs) : Machine.handledOf vs = e := by
  cases e with
  | none =>
    cases h
    rfl
  | some e =>
    obtain ⟨id, rfl⟩ := h
    rfl

/-- The store with another number of identities given out. -/
def Store.withIdents (s : Store) (idents : Nat) : Store := { s with idents }

/-- The store after an exception passed through a frame. -/
def Store.passed (s : Store) (e : Raised) (entry : TraceEntry) : Store :=
  { s with exceptions := s.exceptions.update e.ref fun x =>
    { x with traceback := x.traceback ++ [entry] } }

theorem Store.Shows.withIdents {s : Store} {e : Option Raised} {vs : List Value} (h : s.Shows e vs)
    (k : Nat) : (s.withIdents k).Shows e vs := by
  cases e <;> exact h

namespace Machine

variable {ctx : Context} {f : Frame} {s : Store} {e : Raised}

theorem triple_shows (e : Option Raised) (ctx : Context) (s : Store) :
    ∃ vs k, triple e ctx s = .ok vs (s.withIdents k) ∧ s.Shows e vs := by
  cases e with
  | none => exact ⟨_, s.idents, rfl, rfl⟩
  | some e => exact ⟨_, s.idents + 1, rfl, _, rfl⟩

/-- The exception that a value is. -/
def asRaised? : Value → Option Raised
  | .exception ref type => some { ref, type }
  | _ => none

/-- The exception that the first three of some values stand for, the lowest first. -/
def shown? : List Value → Option (Option Raised)
  | _ :: v :: _ :: _ => some (asRaised? v)
  | _ => none

/-- The exception in force where an exception leaves handlers, `restoreAt` being the level of the
outermost of them: the one that this handler found, if the stack still holds it, else the one that
the frame handles. The stack is given with its lowest value first. -/
def inForce (restoreAt : Option Nat) (stack : List Value) (handled : Option Raised) :
    Option Raised :=
  match restoreAt with
  | some r => (shown? (stack.drop r)).getD handled
  | none => handled

theorem handledOf_eq (u v w : Value) : handledOf [w, v, u] = asRaised? v := by
  cases v <;> rfl

/-- The three values above a height, in a stack with its top first. -/
theorem take_cut (stack : List Value) {r : Nat} (h : r + 3 ≤ stack.length) :
    (Stack.cut stack (r + 3)).take 3 = ((stack.reverse.drop r).take 3).reverse := by
  have hstack : stack = stack.reverse.reverse := stack.reverse_reverse.symm
  have hlen : stack.reverse.length = stack.length := List.length_reverse
  generalize stack.reverse = lowest at hstack hlen
  subst hstack
  rw [Stack.cut, List.drop_reverse, List.length_reverse,
    Nat.sub_sub_self (by rw [hlen]; exact h), List.take_reverse, List.length_take,
    Nat.min_eq_left (by rw [hlen]; exact h), Nat.add_sub_cancel, List.drop_take,
    Nat.add_sub_cancel_left]

/-- The machine reads an exception from the stack where it lies. -/
theorem restored?_eq (stack : List Value) (r : Nat) :
    restored? stack r = shown? (stack.reverse.drop r) := by
  unfold restored?
  have hlen : (stack.reverse.drop r).length = stack.length - r := by
    rw [List.length_drop, List.length_reverse]
  split
  · rename_i h
    rw [take_cut stack h]
    match hdrop : stack.reverse.drop r with
    | u :: v :: w :: rest => exact congrArg some (handledOf_eq u v w)
    | [] | [_] | [_, _] =>
      rw [hdrop] at hlen
      simp only [List.length_cons, List.length_nil] at hlen
      omega
  · match hdrop : stack.reverse.drop r with
    | u :: v :: w :: rest =>
      rw [hdrop] at hlen
      simp only [List.length_cons] at hlen
      omega
    | [] | [_] | [_, _] => rfl

theorem inForce_eq (restoreAt : Option Nat) (stack : List Value) (handled : Option Raised) :
    (restoreAt.bind (restored? stack)).getD handled
      = inForce restoreAt stack.reverse handled := by
  cases restoreAt with
  | none => rfl
  | some r => rw [Option.bind_some, restored?_eq, inForce]

/-- The lowest values of a stack. -/
theorem reverse_cut (stack : List Value) (level : Nat) :
    (Stack.cut stack level).reverse = stack.reverse.take level := by
  rw [Stack.cut, List.take_reverse]

/-! ## 2. The way to the handler -/

/-- **An exception that is caught** cuts the stack to the level of its region, and puts the one in
force and itself on it. -/
theorem unwind_caught {region : Region}
    (hfind : Region.find? f.program.regions f.pc = some region)
    (hlevel : region.level ≤ f.stack.length) (e : Raised) (ctx : Context) (s : Store) :
    ∃ before now k, s.Shows (inForce region.restoreAt f.stack.reverse f.handled) before
      ∧ s.Shows (some e) now
      ∧ unwind e ctx ⟨f, s⟩ = .ok () ⟨{ f with
          stack := now ++ before ++ Stack.cut f.stack region.level
          handled := some e
          pc := region.handler }, s.withIdents k⟩ := by
  obtain ⟨before, j, hbefore, hshows⟩ :=
    triple_shows (inForce region.restoreAt f.stack.reverse f.handled) ctx s
  obtain ⟨now, k, hnow, hshows'⟩ := triple_shows (some e) ctx (s.withIdents j)
  obtain ⟨before', now', s₁, s₂, hbefore', hnow', -, -, hstart⟩ :=
    (startHandler_run e region.handler region.level region.restoreAt ctx f s).1 hlevel
  rw [inForce_eq, hbefore] at hbefore'
  cases hbefore'
  rw [hnow] at hnow'
  cases hnow'
  refine ⟨before, now, k, hshows, hshows', ?_⟩
  rw [unwind_run, hfind]
  exact hstart

/-- The start of the handler at `handler`, with the exception `e` that was raised in the frame `f`:
the stack is cut to `level`, and on it lie the exception in force and the new one. Stacks are
compared with their lowest values first. -/
structure StartsHandler (handler level : Nat) (restoreAt : Option Nat) (e : Raised) (f : Frame)
    (a : Activation) : Prop where
  pc : a.frame.pc = handler
  stack : ∃ before now, a.frame.stack.reverse
      = f.stack.reverse.take level ++ before.reverse ++ now.reverse
    ∧ a.store.Shows (inForce restoreAt f.stack.reverse f.handled) before
    ∧ a.store.Shows (some e) now
  handled : a.frame.handled = some e
  program : a.frame.program = f.program
  cells : a.frame.cells = f.cells

theorem unwind_uncaught (hfind : Region.find? f.program.regions f.pc = none) (e : Raised)
    (ctx : Context) (s : Store) : unwind e ctx ⟨f, s⟩ = .error (.raised e) ⟨f, s⟩ := by
  rw [unwind_run, hfind]
  rfl

/-- The store after the raise at an instruction was noted down. -/
def noted (step : Step) (name : String) (pc : Nat) (e : Raised) (s : Store) : Store :=
  match step.op with
  | .reraise _ => s
  | _ => s.passed e { function := name, offset := pc, line := step.line }

/-- A step that ends with the way of an exception does not leave the frame through an exit. -/
def routed : EStateM.Result Fault Activation Unit → EStateM.Result Fault Activation (Option Exit)
  | .ok _ a => .ok none a
  | .error e a => .error e a

theorem routeFault_noted {fault : Fault} {s₁ : Store} (hfault : catchable fault ctx s = .ok e s₁)
    (step : Step) (pc : Nat) : routeFault step pc fault ctx ⟨f, s⟩
      = routed (unwind e ctx ⟨f, noted step f.program.name pc e s₁⟩) := by
  have hframe : ∀ {α : Type} (k : Frame → FrameAction α) s, (frame >>= k) ctx ⟨f, s⟩
      = k f ctx ⟨f, s⟩ := fun k s => rfl
  have hunwind : ∀ s, (do unwind e; return none : FrameAction (Option Exit)) ctx ⟨f, s⟩
      = routed (unwind e ctx ⟨f, s⟩) := by
    intro s
    rw [run_bind]
    cases unwind e ctx ⟨f, s⟩ <;> rfl
  have hrecord : ∀ entry,
      (do record e entry; unwind e; return none : FrameAction (Option Exit)) ctx ⟨f, s₁⟩
        = routed (unwind e ctx ⟨f, s₁.passed e entry⟩) :=
    fun entry => (run_lift_bind _ _ ctx f s₁).trans (hunwind _)
  unfold routeFault noted
  rw [run_lift_bind, hfault]
  dsimp only
  rw [hframe]
  cases step.op with
  | reraise _ => exact hunwind s₁
  | _ => exact hrecord _

end Machine

/-! ## 3. Without offsets -/

/-- The entry of a traceback, without the offset. -/
def TraceEntry.withoutOffset (x : TraceEntry) : TraceEntry := { x with offset := 0 }

/-- A traceback without the offsets; any other value as it is. -/
def Value.withoutOffsets : Value → Value
  | .traceback id entries => .traceback id (entries.map TraceEntry.withoutOffset)
  | v => v

/-- The exception without the offsets in its traceback. -/
def ExceptionObject.withoutOffsets (x : ExceptionObject) : ExceptionObject :=
  { x with traceback := x.traceback.map TraceEntry.withoutOffset }

/-- The store without the offsets in the tracebacks of its exceptions. -/
def Store.withoutOffsets (s : Store) : Store :=
  { s with exceptions := ⟨s.exceptions.rows.map ExceptionObject.withoutOffsets⟩ }

/-- The frame without the offsets in the tracebacks on its stack. -/
def Frame.withoutOffsets (f : Frame) : Frame :=
  { f with stack := f.stack.map Value.withoutOffsets }

/-- The activation `a'` of the program `p` stands for the activation `a`: it is at the offset that
belongs to that of `a`, and all else is the same, but for the offsets in tracebacks. -/
structure Activation.Matches (p : Program) (place : Nat → Nat) (a a' : Activation) : Prop where
  frame : a'.frame.withoutOffsets
    = { a.frame.withoutOffsets with program := p, pc := place a.frame.pc }
  store : a'.store.withoutOffsets = a.store.withoutOffsets

variable {s s' : Store} {e : Raised}

theorem Store.withoutOffsets_get (s : Store) (r : Nat) :
    s.withoutOffsets.exceptions.get r = (s.exceptions.get r).withoutOffsets := by
  simp only [withoutOffsets, Table.get, Array.getD_eq_getD_getElem?, Array.getElem?_map]
  cases s.exceptions.rows[r]? <;> rfl

/-- An exception passes through both frames. -/
theorem Store.withoutOffsets_passed (s : Store) (e : Raised) {x y : TraceEntry}
    (h : y.withoutOffset = x.withoutOffset) :
    (s.passed e y).withoutOffsets = (s.passed e x).withoutOffsets := by
  have hrows : (s.passed e y).exceptions.rows.map ExceptionObject.withoutOffsets
      = (s.passed e x).exceptions.rows.map ExceptionObject.withoutOffsets := by
    refine Array.ext (by simp [passed, Table.update]) fun i hi hi' => ?_
    simp only [passed, Table.update, Array.getElem_map, Array.getElem_modify]
    split
    · simp only [ExceptionObject.withoutOffsets, List.map_append, List.map_singleton, h]
    · rfl
  exact congrArg (fun rows => { s with exceptions := ⟨rows⟩ : Store }) hrows

namespace Machine

theorem triple_alike (h : s'.withoutOffsets = s.withoutOffsets) (e : Option Raised)
    (ctx : Context) : ∃ vs vs' t t', triple e ctx s = .ok vs t ∧ triple e ctx s' = .ok vs' t'
      ∧ vs'.map Value.withoutOffsets = vs.map Value.withoutOffsets
      ∧ t'.withoutOffsets = t.withoutOffsets := by
  cases e with
  | none => exact ⟨_, _, _, _, rfl, rfl, rfl, h⟩
  | some e =>
    have hident : s'.idents = s.idents := show s'.withoutOffsets.idents = s.withoutOffsets.idents by
      rw [h]
    have htraceback : (s'.exceptions.get e.ref).traceback.map TraceEntry.withoutOffset
        = (s.exceptions.get e.ref).traceback.map TraceEntry.withoutOffset := by
      have hget := congrArg (fun s : Store => (s.exceptions.get e.ref).traceback) h
      simpa only [Store.withoutOffsets_get, ExceptionObject.withoutOffsets] using hget
    refine ⟨_, _, _, _, rfl, rfl, ?_, ?_⟩
    · simp only [List.map_cons, List.map_nil, Value.withoutOffsets, htraceback, hident]
    · exact congrArg (fun s : Store => { s with idents := s.idents + 1 }) h

/-! ## 4. The way of a fault -/

/-- How two steps end that go on in activations which stand for each other, or leave their frames
with the same fault. -/
inductive Lands {α : Type} (p : Program) (place : Nat → Nat) :
    EStateM.Result Fault Activation α → EStateM.Result Fault Activation α → Prop
  | goesOn {v : α} {a a' : Activation} (h : a.Matches p place a') : Lands p place (.ok v a) (.ok v a')
  | leaves {e : Fault} {a a' : Activation} (h : a'.store.withoutOffsets = a.store.withoutOffsets) :
    Lands p place (.error e a) (.error e a')

/-- A way to a handler does not end the frame. -/
theorem Lands.routed {p : Program} {place : Nat → Nat}
    {r r' : EStateM.Result Fault Activation Unit} (h : Lands p place r r') :
    Lands p place (routed r) (routed r') := by
  cases h with
  | goesOn h => exact .goesOn h
  | leaves h => exact .leaves h

end Machine

/-- The values of the stack hold all that an exception in the region looks at: they reach its level,
and the exception that a handler on the way found. -/
structure Region.HeldBy (region : Region) (stack : List Value) : Prop where
  level : region.level ≤ stack.length
  restore : ∀ r ∈ region.restoreAt, r + 3 ≤ stack.length

namespace Machine

variable {place : Nat → Nat} {p : Program} {f : Frame} {o : Nat} {below : List Value}

theorem restored?_append (top : List Value) {below : List Value} {r : Nat}
    (h : r + 3 ≤ below.length) : restored? (top ++ below) r = restored? below r := by
  have hlength : r + 3 ≤ (top ++ below).length := by
    rw [List.length_append]
    omega
  rw [restored?, restored?, if_pos h, if_pos hlength, cut_append top h]

/-- An exception is caught in both programs or in none, and both handlers start with the same. -/
theorem unwind_lands
    (haim : (Region.find? p.regions o).map Region.aim = (Region.find? f.program.regions f.pc).map
      fun region => (place region.handler, region.level, region.restoreAt))
    (hheld : ∀ region ∈ Region.find? f.program.regions f.pc, region.HeldBy below)
    (top top' : List Value) (hs : s'.withoutOffsets = s.withoutOffsets) (e : Raised)
    (ctx : Context) : Lands p place (unwind e ctx ⟨{ f with stack := top ++ below }, s⟩)
      (unwind e ctx ⟨{ f with program := p, pc := o, stack := top' ++ below }, s'⟩) := by
  cases hfind : Region.find? f.program.regions f.pc with
  | none =>
    rw [hfind, Option.map_none, Option.map_eq_none_iff] at haim
    rw [unwind_uncaught (f := { f with stack := top ++ below }) hfind,
      unwind_uncaught (f := { f with program := p, pc := o, stack := top' ++ below }) haim]
    exact .leaves hs
  | some region =>
    rw [hfind, Option.map_some, Option.map_eq_some_iff] at haim
    obtain ⟨region', hfind', haim⟩ := haim
    simp only [Region.aim, Prod.mk.injEq] at haim
    obtain ⟨hhandler, hlevel, hrestore⟩ := haim
    obtain ⟨hle, hread⟩ := hheld region hfind
    have hlength : ∀ top : List Value, region.level ≤ (top ++ below).length := fun top => by
      rw [List.length_append]
      omega
    have hforce : ∀ top, ((region.restoreAt.bind (restored? (top ++ below))).getD f.handled)
        = (region.restoreAt.bind (restored? below)).getD f.handled := by
      intro top
      cases hr : region.restoreAt with
      | none => rfl
      | some r => rw [Option.bind_some, Option.bind_some, restored?_append top (hread r hr)]
    obtain ⟨before, now, s₁, s₂, hbefore, hnow, -, -, hstart⟩ :=
      (startHandler_run e region.handler region.level region.restoreAt ctx
        { f with stack := top ++ below } s).1 (hlength top)
    obtain ⟨before', now', s₁', s₂', hbefore', hnow', -, -, hstart'⟩ :=
      (startHandler_run e (place region.handler) region.level region.restoreAt ctx
        { f with program := p, pc := o, stack := top' ++ below } s').1 (hlength top')
    dsimp only at hbefore hbefore' hstart hstart'
    rw [hforce] at hbefore hbefore'
    rw [cut_append _ hle] at hstart hstart'
    -- both handlers find the exception in force and the new one
    obtain ⟨_, _, _, _, h₁, h₁', hvs, ht⟩ := triple_alike hs
      ((region.restoreAt.bind (restored? below)).getD f.handled) ctx
    cases hbefore.symm.trans h₁
    cases hbefore'.symm.trans h₁'
    obtain ⟨_, _, _, _, h₂, h₂', hws, ht⟩ := triple_alike ht (some e) ctx
    cases hnow.symm.trans h₂
    cases hnow'.symm.trans h₂'
    have hrun := unwind_run e ctx { f with stack := top ++ below } s
    have hrun' := unwind_run e ctx { f with program := p, pc := o, stack := top' ++ below } s'
    rw [hfind] at hrun
    rw [hfind'] at hrun'
    dsimp only at hrun'
    rw [hhandler, hlevel, hrestore] at hrun'
    rw [hrun.trans hstart, hrun'.trans hstart']
    refine .goesOn ⟨?_, ht⟩
    simp only [Frame.withoutOffsets, List.map_append, hvs, hws]

variable {step step' : Step}

theorem noted_of_raises (h : ∀ lasti, step.op ≠ .reraise lasti) (name : String) (pc : Nat)
    (e : Raised) (s : Store) : noted step name pc e s
      = s.passed e { function := name, offset := pc, line := step.line } := by
  unfold noted
  split
  · exact absurd ‹_› (h _)
  · rfl

/-- **A fault that two programs raise with the same store** comes to handlers that belong together, or
leaves both frames. Above the values that a handler needs the stacks may differ. -/
theorem routeFault_lands
    (haim : (Region.find? p.regions o).map Region.aim = (Region.find? f.program.regions f.pc).map
      fun region => (place region.handler, region.level, region.restoreAt))
    (hheld : ∀ region ∈ Region.find? f.program.regions f.pc, region.HeldBy below)
    (hname : p.name = f.program.name) (hline : step'.line = step.line)
    (hraises : ∀ lasti, step.op ≠ .reraise lasti) (hraises' : ∀ lasti, step'.op ≠ .reraise lasti)
    (top top' : List Value) (fault : Fault) (ctx : Context) (s : Store) :
    Lands p place (routeFault step f.pc fault ctx ⟨{ f with stack := top ++ below }, s⟩)
      (routeFault step' o fault ctx
        ⟨{ f with program := p, pc := o, stack := top' ++ below }, s⟩) := by
  cases hcatch : catchable fault ctx s with
  | error x t =>
    have hroute : ∀ (step : Step) pc f, routeFault step pc fault ctx ⟨f, s⟩ = .error x ⟨f, t⟩ := by
      intro step pc f
      unfold routeFault
      rw [run_lift_bind, hcatch]
    rw [hroute, hroute]
    exact .leaves rfl
  | ok e t =>
    have hroute := routeFault_noted (f := { f with stack := top ++ below }) hcatch step f.pc
    have hroute' := routeFault_noted
      (f := { f with program := p, pc := o, stack := top' ++ below }) hcatch step' o
    dsimp only at hroute hroute'
    rw [noted_of_raises hraises] at hroute
    rw [noted_of_raises hraises', hname, hline] at hroute'
    have hnoted := Store.withoutOffsets_passed t e
      (show TraceEntry.withoutOffset ⟨f.program.name, o, step.line⟩
        = TraceEntry.withoutOffset ⟨f.program.name, f.pc, step.line⟩ from rfl)
    rw [hroute, hroute']
    exact (unwind_lands haim hheld top top' hnoted e ctx).routed

end Machine

end Stackwise
