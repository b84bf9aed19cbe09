import Stackwise.Body.StateMachine
import Stackwise.Proofs.Body.Operands

/-!
# The shape of a state machine

What the pass over the body of a generator makes of it.

* `Body.stateOps`: the operations behind the dispatcher, as a function of the body.
* `Body.StateMachine`: the dispatcher stands at offset zero and nowhere else; a suspension and its
  resume point stand next to each other; the states of the resume points count from one; and no
  target is a resume point or the dispatcher.
* `Body.toStateMachine_shape`: this is the shape of the result.
-/

namespace Stackwise

/-! ## 1. Offset maps -/

theorem OffsetMap.get?_insert (m : OffsetMap) (old new k : Nat) :
    (m.insert old new).get? k = if old = k then some new else m.get? k := by
  unfold insert get?
  rw [Std.TreeMap.getElem?_insert]
  simp only [Nat.compare_eq_eq]

theorem OffsetMap.get?_foldl_insert {m : OffsetMap} {olds : List Nat} {new k t : Nat}
    (h : (olds.foldl (fun m old => m.insert old new) m).get? k = some t) :
    m.get? k = some t ∨ olds ≠ [] ∧ t = new := by
  induction olds generalizing m with
  | nil => exact .inl h
  | cons old olds ih =>
    rcases ih h with h | ⟨-, rfl⟩
    · rw [get?_insert] at h
      split at h
      · cases h
        exact .inr ⟨List.cons_ne_nil _ _, rfl⟩
      · exact .inl h
    · exact .inr ⟨List.cons_ne_nil _ _, rfl⟩

/-! ## 2. What is written -/

namespace BodyWriter

/-- No old offset maps to the first operation or to a resume point. -/
def Inner (r : BodyWriter) : Prop :=
  ∀ old t, r.map.get? old = some t → 0 < t ∧ ∃ op, r.ops[t]? = some op ∧ op.resumed? = none

theorem Inner.push {r : BodyWriter} (h : r.Inner) (hpos : 0 < r.ops.length) {op : Op}
    (hop : r.pending = [] ∨ op.resumed? = none) (line origin : Option Nat) :
    (r.push op line origin).Inner := by
  intro old t ht
  rw [ops_push]
  rcases OffsetMap.get?_foldl_insert ht with ht | ⟨hpending, rfl⟩
  · obtain ⟨ht0, op', hop', hr⟩ := h old t ht
    refine ⟨ht0, op', ?_, hr⟩
    rw [List.getElem?_append_left (List.getElem?_eq_some_iff.mp hop').1]
    exact hop'
  · have hnext : r.next = r.ops.length := by
      rw [ops, List.length_map, Array.length_toList]
      rfl
    rw [hnext]
    exact ⟨hpos, op, List.getElem?_concat_length, hop.resolve_left hpending⟩

end BodyWriter

namespace Body

/-- The operations that stand for one instruction in a state machine, and the next free state after
them. -/
def stateChunk (state : Nat) (i : Instr) : List Op × Nat :=
  match i.op with
  | .genStart _ => ([], state)
  | .yieldValue => ([.suspend state, .resumePoint state], state + 1)
  | .yieldFrom => ([.delegate state (i.offset + 1), .resumePoint state, .jump i.offset], state + 1)
  | op => ([op], state)

/-- The operations of a state machine behind its dispatcher; `state` is the next free state. -/
def stateOps : Nat → List Instr → List Op
  | _, [] => []
  | state, i :: is => (stateChunk state i).1 ++ stateOps (stateChunk state i).2 is

/-- What holds of the writer of a state machine: instructions stand at their offsets, and targets
are inner ones. -/
structure Staged (r : BodyWriter) : Prop where
  ordered : r.Ordered
  inner : r.Inner
  pos : 0 < r.ops.length

theorem Staged.startOn {r : BodyWriter} (h : Staged r) (old : Nat) : Staged (r.startOn old) :=
  ⟨h.ordered.startOn old, h.inner, h.pos⟩

theorem Staged.push {r : BodyWriter} (h : Staged r) {op : Op}
    (hop : r.pending = [] ∨ op.resumed? = none) (line origin : Option Nat) :
    Staged (r.push op line origin) where
  ordered := h.ordered.push op line origin
  inner := h.inner.push h.pos hop line origin
  pos := by
    rw [BodyWriter.ops_push, List.length_append]
    exact Nat.add_pos_left h.pos _

theorem writeState_eq (r : BodyWriter) (state : Nat) (i : Instr) :
    writeState r state i
      = ((r.startOn i.offset).pushAll (stateChunk state i).1 i, (stateChunk state i).2) := by
  obtain ⟨offset, op, line, origin, mark⟩ := i
  cases op <;> rfl

/-- What stands for an instruction of a plain body. -/
theorem stateChunk_cases (state : Nat) (i : Instr) :
    stateChunk state i = ([], state) ∨ stateChunk state i = ([i.op], state)
      ∨ (∃ op rest, stateChunk state i = (op :: .resumePoint state :: rest, state + 1)
        ∧ op.suspension? = some state ∧ op.isDispatch = false ∧ op.resumed? = none
        ∧ (rest = [] ∨ rest = [.jump i.offset])) := by
  unfold stateChunk
  split
  · exact .inl rfl
  · exact .inr (.inr ⟨_, _, rfl, rfl, rfl, rfl, .inl rfl⟩)
  · exact .inr (.inr ⟨_, _, rfl, rfl, rfl, rfl, .inr rfl⟩)
  · exact .inr (.inl rfl)

/-- One instruction becomes its part of the state machine. -/
theorem writeState_staged {r : BodyWriter} (h : Staged r) (state : Nat) {i : Instr}
    (hi : i.op.isSwitch = false) : Staged (writeState r state i).1 := by
  rw [writeState_eq]
  replace h := h.startOn i.offset
  rcases stateChunk_cases state i with heq | heq | ⟨op, rest, heq, -, -, hop, rfl | rfl⟩
  · rw [heq]
    exact h
  · rw [heq]
    exact h.push (.inr (Op.resumed?_of_plain hi)) _ _
  · rw [heq]
    exact (h.push (.inr hop) _ _).push (.inl rfl) _ _
  · rw [heq]
    exact ((h.push (.inr hop) _ _).push (.inl rfl) _ _).push (.inl rfl) _ _

/-- **The whole body becomes the state machine of `stateOps`.** -/
theorem foldl_writeState {is : List Instr} (hplain : Plain is) {r : BodyWriter} (h : Staged r)
    (state : Nat) :
    Staged (is.foldl (fun (r, state) i => writeState r state i) (r, state)).1
      ∧ (is.foldl (fun (r, state) i => writeState r state i) (r, state)).1.ops
        = r.ops ++ stateOps state is := by
  induction is generalizing r state with
  | nil => exact ⟨h, (List.append_nil _).symm⟩
  | cons i is ih =>
    have hstaged := writeState_staged h state (hplain i (.head _))
    obtain ⟨hrest, hrops⟩ :=
      ih (fun j hj => hplain j (.tail _ hj)) hstaged (writeState r state i).2
    refine ⟨hrest, hrops.trans ?_⟩
    rw [writeState_eq, BodyWriter.ops_pushAll, BodyWriter.ops_startOn, List.append_assoc]
    rfl

/-! ## 3. The operations of a state machine -/

/-- Operations in which each suspension stands before its resume point, and no other switch
occurs. -/
inductive Paired : List Op → Prop
  | nil : Paired []
  | plain {op : Op} {ops : List Op} : op.isSwitch = false → Paired ops → Paired (op :: ops)
  | pair {op : Op} {n : Nat} {ops : List Op} : op.suspension? = some n → Paired ops →
      Paired (op :: .resumePoint n :: ops)

theorem stateOps_paired {is : List Instr} (hplain : Plain is) (state : Nat) :
    Paired (stateOps state is) := by
  induction is generalizing state with
  | nil => exact .nil
  | cons i is ih =>
    replace ih := ih fun j hj => hplain j (.tail _ hj)
    rw [stateOps]
    rcases stateChunk_cases state i with heq | heq | ⟨op, rest, heq, hop, -, -, rfl | rfl⟩
    · rw [heq]
      exact ih _
    · rw [heq]
      exact .plain (hplain i (.head _)) (ih _)
    · rw [heq]
      exact .pair hop (ih _)
    · rw [heq]
      exact .pair hop (.plain rfl (ih _))

/-- The states of the resume points count up. -/
theorem stateOps_states {is : List Instr} (hplain : Plain is) (state : Nat) :
    ∃ m, (stateOps state is).filterMap Op.resumed? = List.range' state m := by
  induction is generalizing state with
  | nil => exact ⟨0, rfl⟩
  | cons i is ih =>
    replace ih := ih fun j hj => hplain j (.tail _ hj)
    rw [stateOps, List.filterMap_append]
    rcases stateChunk_cases state i with heq | heq | ⟨op, rest, heq, -, -, hop, hrest⟩
    · rw [heq]
      exact ih _
    · rw [heq, List.filterMap_cons, Op.resumed?_of_plain (hplain i (.head _))]
      exact ih _
    · obtain ⟨m, hm⟩ := ih (state + 1)
      have hchunk : (op :: .resumePoint state :: rest).filterMap Op.resumed? = [state] := by
        rw [List.filterMap_cons, hop]
        rcases hrest with rfl | rfl <;> rfl
      rw [heq, hchunk, hm]
      exact ⟨m + 1, rfl⟩

theorem stateOps_fits {c : CodeObject} {is : List Instr}
    (hfits : ∀ i ∈ is, i.op.Fits c.localCount c.closureSize c.constants.length) (state : Nat) :
    ∀ op ∈ stateOps state is, op.Fits c.localCount c.closureSize c.constants.length := by
  induction is generalizing state with
  | nil => exact fun _ h => by cases h
  | cons i is ih =>
    intro op h
    rw [stateOps, List.mem_append] at h
    rcases h with h | h
    · unfold stateChunk at h
      split at h
      · cases h
      · simp only [List.mem_cons, List.not_mem_nil, or_false] at h
        rcases h with rfl | rfl <;> trivial
      · simp only [List.mem_cons, List.not_mem_nil, or_false] at h
        rcases h with rfl | rfl | rfl <;> trivial
      · rw [List.mem_singleton.mp h]
        exact hfits i (.head _)
    · exact ih (fun j hj => hfits j (.tail _ hj)) _ op h

section Paired

variable {ops : List Op} {op : Op} {k n : Nat}

theorem Paired.not_dispatch (h : Paired ops) (hop : op ∈ ops) : op.isDispatch = false := by
  induction h with
  | nil => cases hop
  | plain hsw _ ih =>
    rcases List.mem_cons.mp hop with rfl | hop
    · exact Op.isDispatch_of_plain hsw
    · exact ih hop
  | pair hs _ ih =>
    rcases List.mem_cons.mp hop with rfl | hop
    · cases op <;> first | rfl | cases hs
    · rcases List.mem_cons.mp hop with rfl | hop
      · rfl
      · exact ih hop

/-- A suspension has its resume point right after it. -/
theorem Paired.resumed (h : Paired ops) (hk : ops[k]? = some op) (hs : op.suspension? = some n) :
    ops[k + 1]? = some (.resumePoint n) := by
  induction h generalizing k with
  | nil => cases hk
  | plain hsw _ ih =>
    cases k with
    | zero =>
      cases hk
      rw [Op.suspension?_of_plain hsw] at hs
      cases hs
    | succ k => exact ih hk
  | pair hs' _ ih =>
    match k with
    | 0 =>
      cases hk
      rw [hs] at hs'
      cases hs'
      rfl
    | 1 =>
      cases hk
      cases hs
    | k + 2 => exact ih hk

/-- A resume point has its suspension right before it. -/
theorem Paired.suspended (h : Paired ops) (hk : ops[k]? = some op) (hr : op.resumed? = some n) :
    ∃ k' op', k = k' + 1 ∧ ops[k']? = some op' ∧ op'.suspension? = some n := by
  induction h generalizing k with
  | nil => cases hk
  | plain hsw _ ih =>
    cases k with
    | zero =>
      cases hk
      rw [Op.resumed?_of_plain hsw] at hr
      cases hr
    | succ k =>
      obtain ⟨k', op', rfl, hk', hs⟩ := ih hk
      exact ⟨k' + 1, op', rfl, hk', hs⟩
  | @pair op₀ n₀ ops hs' _ ih =>
    match k with
    | 0 =>
      cases hk
      cases op <;> first | (cases hs'; done) | cases hr
    | 1 =>
      cases hk
      cases hr
      exact ⟨0, op₀, rfl, rfl, hs'⟩
    | k + 2 =>
      obtain ⟨k', op', rfl, hk', hs⟩ := ih hk
      exact ⟨k' + 2, op', rfl, hk', hs⟩

/-- Moving targets keeps suspensions and resume points together. -/
theorem Paired.of_like {ops' : List Op} (h : Paired ops) (hlike : List.Forall₂ Op.Like ops ops') :
    Paired ops' := by
  induction h generalizing ops' with
  | nil =>
    cases hlike
    exact .nil
  | plain hsw _ ih =>
    cases hlike with
    | cons hop hrest => exact .plain (hop.isSwitch.trans hsw) (ih hrest)
  | pair hs _ ih =>
    cases hlike with
    | cons hop hrest =>
      cases hrest with
      | cons hpoint hrest =>
        have hop' := hpoint.resumed
        rename_i op' ops'
        cases op' with
        | resumePoint m =>
          cases hop'
          exact .pair (hop.suspension.trans hs) (ih hrest)
        | _ => cases hop'

end Paired

/-! ## 4. The result -/

/-- The shape of a state machine. -/
structure StateMachine (is : List Instr) : Prop where
  /-- It starts with a dispatcher that knows all resume points. -/
  dispatcher : ∃ i, is[0]? = some i ∧ i.op = .resumeDispatch (resumePoints is)
  /-- Suspensions and resume points come in pairs. -/
  behind : Paired (is.tail.map (·.op))
  /-- No target is the dispatcher or a resume point. -/
  inner : ∀ i ∈ is, ∀ t, i.op.branchTarget? = some t ∨ i.op.handlerTarget? = some t →
    0 < t ∧ ∀ j, is[t]? = some j → j.op.resumed? = none
  /-- The states count from one. -/
  states : ∃ m, (resumePoints is).map (·.1) = List.range' 1 m

theorem resumePoints_states (is : List Instr) :
    (resumePoints is).map (·.1) = (is.map (·.op)).filterMap Op.resumed? := by
  induction is with
  | nil => rfl
  | cons i is ih =>
    rw [List.map_cons, List.filterMap_cons, ← ih]
    unfold resumePoints
    rw [List.filterMap_cons]
    cases hop : i.op <;> rfl

theorem mem_resumePoints {is : List Instr} {k o : Nat} :
    (k, o) ∈ resumePoints is ↔ ∃ i ∈ is, i.op = .resumePoint k ∧ i.offset = o := by
  rw [resumePoints, List.mem_filterMap]
  constructor
  · rintro ⟨i, hi, h⟩
    split at h
    · cases h
      exact ⟨i, hi, ‹_›, rfl⟩
    · cases h
  · rintro ⟨i, hi, hop, rfl⟩
    refine ⟨i, hi, ?_⟩
    rw [hop]

theorem resumePoints_markTargets (is : List Instr) :
    resumePoints (Instr.markTargets is) = resumePoints is := by
  rw [resumePoints, Instr.markTargets, List.filterMap_map]
  rfl

/-- The dispatcher is not a resume point itself. -/
theorem resumePoints_cons {i : Instr} {is : List Instr} (h : i.op.isDispatch) :
    resumePoints (i :: is) = resumePoints is := by
  rw [resumePoints, List.filterMap_cons]
  cases hop : i.op with
  | resumePoint k =>
    rw [hop] at h
    cases h
  | _ => rfl

theorem filterMap_resumed_of_like {ops ops' : List Op} (h : List.Forall₂ Op.Like ops ops') :
    ops'.filterMap Op.resumed? = ops.filterMap Op.resumed? := by
  induction h with
  | nil => rfl
  | cons hop _ ih => rw [List.filterMap_cons, List.filterMap_cons, hop.resumed, ih]

/-- A dispatcher before the moved operations of a body. -/
theorem stateMachine_of_moved {m : OffsetMap} {first : Instr} {ws rest : List Instr} {n : Nat}
    (hfirst : first.op = .resumeDispatch (resumePoints (first :: rest)))
    (hmoved : List.Forall₂ (Instr.Moved m) ws rest) (hpaired : Paired (ws.map (·.op)))
    (hstates : (ws.map (·.op)).filterMap Op.resumed? = List.range' 1 n)
    (hinner : ∀ old t, m.get? old = some t → ∃ t' w, t = t' + 1 ∧ ws[t']? = some w
      ∧ w.op.resumed? = none) :
    StateMachine (first :: rest) := by
  have hlike : List.Forall₂ Op.Like (ws.map (·.op)) (rest.map (·.op)) := by
    rw [List.forall₂_map_left_iff, List.forall₂_map_right_iff]
    exact hmoved.imp fun i j hij => Op.relabel_like hij.op
  refine ⟨⟨first, rfl, hfirst⟩, hpaired.of_like hlike, ?_, n, ?_⟩
  · intro i hi t ht
    rcases List.mem_cons.mp hi with rfl | hi
    · rw [hfirst] at ht
      rcases ht with ht | ht <;> cases ht
    · obtain ⟨k, hk⟩ := List.mem_iff_getElem?.mp hi
      obtain ⟨w, -, hmw⟩ := Instr.exists_of_moved hmoved hk
      obtain ⟨old, hold⟩ := Op.relabel_target hmw.op ht
      obtain ⟨t', w', rfl, hw', hnone⟩ := hinner old t hold
      refine ⟨Nat.succ_pos _, fun j hj => ?_⟩
      obtain ⟨w'', hw'', hmj⟩ := Instr.exists_of_moved hmoved hj
      rw [hw'] at hw''
      cases hw''
      exact (Op.relabel_like hmj.op).resumed.trans hnone
  · rw [resumePoints_cons (by rw [hfirst]; rfl), resumePoints_states,
      filterMap_resumed_of_like hlike]
    exact hstates

/-- **The body of a generator becomes a state machine**, and stays dense and fitting. -/
theorem toStateMachine_shape {c : CodeObject} {is out : List Instr} {map : OffsetMap}
    (hfits : Fits c is) (hplain : Plain is) (h : toStateMachine is = .ok (out, map)) :
    StateMachine out ∧ Fits c out := by
  obtain ⟨⟨moved, map'⟩, hfin, h⟩ := bind_eq_ok.mp h
  cases h
  have hstart : Staged
      (BodyWriter.empty.push (.resumeDispatch []) (is.head?.bind (·.line)) none) := by
    refine ⟨BodyWriter.ordered_empty.push _ _ _, fun old t ht => ?_, Nat.one_pos⟩
    rcases OffsetMap.get?_foldl_insert ht with ht | ⟨hne, -⟩
    · rw [show BodyWriter.empty.map.get? old = none from Std.TreeMap.getElem?_emptyc] at ht
      cases ht
    · exact absurd rfl hne
  obtain ⟨hstaged, hops⟩ := foldl_writeState hplain hstart 1
  have hmoved := BodyWriter.finish_eq_ok hfin
  generalize (is.foldl (fun (r, state) i => writeState r state i) _).1 = r at hstaged hops hmoved
  obtain ⟨w, ws, hout, hw, hws⟩ : ∃ w ws, r.out.toList = w :: ws
      ∧ w.op = .resumeDispatch [] ∧ ws.map (·.op) = stateOps 1 is := by
    rw [BodyWriter.ops_push, BodyWriter.ops_empty, BodyWriter.ops, List.nil_append,
      List.singleton_append] at hops
    obtain ⟨w, ws, hout, hw, hws⟩ := List.map_eq_cons_iff.mp hops
    exact ⟨w, ws, hout, hw, hws⟩
  have hordered : Dense (w :: ws) := hout ▸ hstaged.ordered
  have hinner : ∀ old t, r.map.get? old = some t → ∃ t' w, t = t' + 1 ∧ ws[t']? = some w
      ∧ w.op.resumed? = none := by
    intro old t ht
    obtain ⟨hpos, op, hop, hnone⟩ := hstaged.inner old t ht
    rw [BodyWriter.ops, hout, List.getElem?_map] at hop
    obtain ⟨t', rfl⟩ := Nat.exists_eq_add_of_lt hpos
    rw [Nat.zero_add] at hop ⊢
    obtain ⟨w', hw', rfl⟩ := Option.map_eq_some_iff.mp hop
    exact ⟨t', w', rfl, hw', hnone⟩
  rw [hout] at hmoved
  cases hmoved with
  | @cons _ first _ rest hfirst hrest =>
    have hdispatch : first.op.isDispatch := by
      rw [(Op.relabel_like hfirst.op).isDispatch, hw]
      rfl
    obtain ⟨first', rest', heq, hop, hoffset, hrest'⟩ : ∃ first' rest',
        Instr.markTargets (fillDispatcher (first :: rest)) = first' :: rest'
          ∧ first'.op = .resumeDispatch (resumePoints (first :: rest))
          ∧ first'.offset = first.offset ∧ List.Forall₂ (Instr.Moved r.map) ws rest' := by
      refine ⟨_, _, rfl, rfl, rfl, ?_⟩
      rw [List.forall₂_map_right_iff]
      exact hrest.imp fun i j hij => ⟨hij.offset, hij.op, hij.line, hij.origin⟩
    have hpoints : resumePoints (first' :: rest') = resumePoints (first :: rest) := by
      rw [← heq, resumePoints_markTargets, fillDispatcher, resumePoints_cons rfl,
        resumePoints_cons hdispatch]
    rw [heq]
    obtain ⟨n, hn⟩ := stateOps_states hplain 1
    refine ⟨stateMachine_of_moved (hpoints ▸ hop) hrest' (hws ▸ stateOps_paired hplain 1)
      (hws ▸ hn) hinner, ?_, ?_⟩
    · intro k i hi
      cases k with
      | zero =>
        cases hi
        rw [hoffset, hfirst.offset]
        exact hordered 0 w rfl
      | succ k =>
        obtain ⟨w', hw', hm⟩ := Instr.exists_of_moved hrest' hi
        rw [hm.offset]
        exact hordered (k + 1) w' hw'
    · intro i hi
      rcases List.mem_cons.mp hi with rfl | hi
      · rw [hop]
        trivial
      · obtain ⟨k, hk⟩ := List.mem_iff_getElem?.mp hi
        obtain ⟨w', hw', hm⟩ := Instr.exists_of_moved hrest' hk
        refine (Op.relabel_like hm.op).fits (stateOps_fits hfits.op 1 _ ?_)
        rw [← hws]
        exact List.mem_map.mpr ⟨w', List.mem_of_getElem? hw', rfl⟩

/-! ## 5. Finding one's way in a state machine -/

namespace StateMachine

variable {is : List Instr} {i j : Instr} {o k : Nat}

theorem tail_getElem? (ho : is[o + 1]? = some i) : (is.tail.map (·.op))[o]? = some i.op := by
  rw [List.getElem?_map, List.getElem?_tail, ho]
  rfl

theorem exists_of_tail {op : Op} (ho : (is.tail.map (·.op))[o]? = some op) :
    ∃ i, is[o + 1]? = some i ∧ i.op = op := by
  rw [List.getElem?_map, List.getElem?_tail] at ho
  exact Option.map_eq_some_iff.mp ho

theorem not_dispatch (h : StateMachine is) (ho : is[o]? = some i) (hpos : 0 < o) :
    i.op.isDispatch = false := by
  obtain ⟨o, rfl⟩ := Nat.exists_eq_add_of_lt hpos
  rw [Nat.zero_add] at ho
  exact h.behind.not_dispatch (List.mem_of_getElem? (tail_getElem? ho))

theorem resumed (h : StateMachine is) (ho : is[o]? = some i) (hs : i.op.suspension? = some k) :
    ∃ j, is[o + 1]? = some j ∧ j.op = .resumePoint k := by
  cases o with
  | zero =>
    obtain ⟨first, hfirst, hop⟩ := h.dispatcher
    rw [hfirst] at ho
    cases ho
    rw [hop] at hs
    cases hs
  | succ o => exact exists_of_tail (h.behind.resumed (tail_getElem? ho) hs)

theorem suspended (h : StateMachine is) (ho : is[o]? = some j) (hr : j.op.resumed? = some k) :
    ∃ o' i, o = o' + 1 ∧ is[o']? = some i ∧ i.op.suspension? = some k := by
  cases o with
  | zero =>
    obtain ⟨first, hfirst, hop⟩ := h.dispatcher
    rw [hfirst] at ho
    cases ho
    rw [hop] at hr
    cases hr
  | succ o =>
    obtain ⟨o', op, rfl, ho', hs⟩ := h.behind.suspended (tail_getElem? ho) hr
    obtain ⟨i, hi, rfl⟩ := exists_of_tail ho'
    exact ⟨o' + 1, i, rfl, hi, hs⟩

/-- The dispatcher finds the resume point of a state. -/
theorem lookup_resumePoints (h : StateMachine is) (hd : Dense is) (ho : is[o]? = some j)
    (hr : j.op = .resumePoint k) : k ≠ 0 ∧ (resumePoints is).lookup k = some o := by
  have hmem : (k, o) ∈ resumePoints is :=
    mem_resumePoints.mpr ⟨j, List.mem_of_getElem? ho, hr, hd o j ho⟩
  obtain ⟨m, hm⟩ := h.states
  have hk : k ∈ (resumePoints is).map (·.1) := List.mem_map.mpr ⟨_, hmem, rfl⟩
  constructor
  · rw [hm, List.mem_range'_1] at hk
    omega
  · have hnodup : ((resumePoints is).map (·.1)).Nodup := hm ▸ List.nodup_range'
    obtain ⟨l₁, l₂, heq⟩ := List.append_of_mem hmem
    refine List.lookup_eq_some_iff.mpr ⟨l₁, l₂, heq, fun p hp => ?_⟩
    rw [heq, List.map_append, List.nodup_append] at hnodup
    have hne := hnodup.2.2 p.1 (List.mem_map.mpr ⟨p, hp, rfl⟩) k (.head _)
    exact bne_iff_ne.mpr hne.symm

/-- A state has one resume point. -/
theorem resumePoint_unique (h : StateMachine is) (hd : Dense is) (ho : is[o]? = some j)
    (hr : j.op = .resumePoint k) {o' : Nat} {j' : Instr} (ho' : is[o']? = some j')
    (hr' : j'.op = .resumePoint k) : o = o' := by
  have hfound := (h.lookup_resumePoints hd ho hr).2
  rw [(h.lookup_resumePoints hd ho' hr').2] at hfound
  exact (Option.some.inj hfound).symm

end StateMachine

end Body

end Stackwise
