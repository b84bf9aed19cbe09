import Stackwise.Body.Decode
import Stackwise.Body.With
import Stackwise.Proofs.Analysis.Blocks
import Stackwise.Proofs.Outcome

/-!
# Operands through the passes

What decoding checks of an operation stays true to the end: passes write operations one after the
other and move their targets, and nothing else about an operation changes.

* `Op.Fits`: the variable or constant that an operation names exists.
* `Op.Like`: two operations differ in their targets at most.
* `Op.Shaped`: what is left of an opcode in its operation; `Opcode.jumpOp?` are the jumps.
* `BodyWriter.finish_eq_ok`: a finished body is the body that was written, with targets moved.
* `Body.decode_fits`, `Body.expandWith_fits`: bodies are dense, and their operations fit.
-/

namespace Stackwise

/-! ## 1. Operations -/

/-- The operation of a jump, by its target. -/
def Opcode.jumpOp? : Opcode → Option (Nat → Op)
  | .forIter => some .forIter
  | .jumpForward | .jumpAbsolute => some .jump
  | .popJumpIfFalse => some (.popJumpIf false)
  | .popJumpIfTrue => some (.popJumpIf true)
  | .jumpIfFalseOrPop => some (.jumpIfOrPop false)
  | .jumpIfTrueOrPop => some (.jumpIfOrPop true)
  | .jumpIfNotExcMatch => some .jumpIfNotExcMatch
  | .setupFinally => some fun h => .setupFinally h .tryBlock 0
  | .setupWith => some .setupWith
  | _ => none

theorem Opcode.jumpOp?_isSome (op : Opcode) :
    op.jumpOp?.isSome = (op.isSupported && op.jumpKind?.isSome) := by
  cases op <;> rfl

namespace Op

/-- There are enough variables and constants for an operation. -/
def Fits (locals cells constants : Nat) : Op → Prop
  | .loadFast i | .storeFast i | .deleteFast i => i < locals
  | .loadDeref i | .loadClassDeref i | .storeDeref i | .deleteDeref i | .loadClosure i => i < cells
  | .loadConst i => i < constants
  | .build .slice n => n = 2 ∨ n = 3
  | _ => True

/-- Operations that enter, leave or go on with a suspended frame. -/
def isSwitch : Op → Bool
  | .suspend _ | .delegate _ _ | .resumePoint _ | .resumeDispatch _ => true
  | _ => false

/-- What decoding makes of an instruction: an operation that fits, and no switch. -/
def OfCode (c : CodeObject) (op : Op) : Prop :=
  op.Fits c.localCount c.closureSize c.constants.length ∧ op.isSwitch = false

/-- The state of the suspension that an operation makes. -/
def suspension? : Op → Option Nat
  | .suspend k | .delegate k _ => some k
  | _ => none

/-- The state that goes on at an operation. -/
def resumed? : Op → Option Nat
  | .resumePoint k => some k
  | _ => none

/-- Whether the operation is a dispatcher. -/
def isDispatch : Op → Bool
  | .resumeDispatch _ => true
  | _ => false

theorem resumed?_eq_some {op : Op} {k : Nat} : op.resumed? = some k ↔ op = .resumePoint k := by
  constructor
  · intro h
    cases op <;> cases h
    rfl
  · rintro rfl
    rfl

theorem eq_resumeDispatch {op : Op} (h : op.isDispatch = true) :
    ∃ states, op = .resumeDispatch states := by
  cases op <;> cases h
  exact ⟨_, rfl⟩

theorem suspension?_of_plain {op : Op} (h : op.isSwitch = false) : op.suspension? = none := by
  cases op <;> first | rfl | cases h

theorem resumed?_of_plain {op : Op} (h : op.isSwitch = false) : op.resumed? = none := by
  cases op <;> first | rfl | cases h

theorem isDispatch_of_plain {op : Op} (h : op.isSwitch = false) : op.isDispatch = false := by
  cases op <;> first | rfl | cases h

/-- Two operations differ in their targets at most. -/
structure Like (op op' : Op) : Prop where
  fits : ∀ {locals cells constants}, op.Fits locals cells constants →
    op'.Fits locals cells constants
  isSwitch : op'.isSwitch = op.isSwitch
  suspension : op'.suspension? = op.suspension?
  resumed : op'.resumed? = op.resumed?
  isDispatch : op'.isDispatch = op.isDispatch

theorem Like.refl (op : Op) : Like op op := ⟨id, rfl, rfl, rfl, rfl⟩

theorem relabel_like {m : OffsetMap} {op op' : Op} (h : op.relabel m = .ok op') : Like op op' := by
  cases op with
  | forIter _ | jump _ | popJumpIf _ _ | jumpIfOrPop _ _ | jumpIfNotExcMatch _ | setupFinally _ _ _
  | setupWith _ | delegate _ _ | resumeDispatch _ =>
    obtain ⟨t, -, rfl⟩ := map_eq_ok.mp h
    exact ⟨id, rfl, rfl, rfl, rfl⟩
  | _ =>
    cases h
    exact .refl _

theorem place_eq_ok {m : OffsetMap} {old new : Nat} (h : place m old = .ok new) :
    m.get? old = some new := by
  unfold place at h
  split at h
  · cases h
    assumption
  · cases h

/-- A target that was moved comes from the map. -/
theorem relabel_target {m : OffsetMap} {op op' : Op} {t : Nat} (h : op.relabel m = .ok op')
    (ht : op'.branchTarget? = some t ∨ op'.handlerTarget? = some t) :
    ∃ old, m.get? old = some t := by
  cases op with
  | forIter _ | jump _ | popJumpIf _ _ | jumpIfOrPop _ _ | jumpIfNotExcMatch _ | delegate _ _
  | setupFinally _ _ _ | setupWith _ =>
    obtain ⟨t', hp, rfl⟩ := map_eq_ok.mp h
    rcases ht with ht | ht <;> cases ht
    exact ⟨_, place_eq_ok hp⟩
  | resumeDispatch _ =>
    obtain ⟨t', hp, rfl⟩ := map_eq_ok.mp h
    rcases ht with ht | ht <;> cases ht
  | _ =>
    cases h
    rcases ht with ht | ht <;> cases ht

/-- **Decoding checks operands and makes no switches.** -/
theorem decode_fits {i : Instruction} {c : CodeObject} {op : Op} (h : decode i c = .ok op) :
    op.OfCode c := by
  have hlocal : ∀ {n}, localOf i c = .ok n → n < c.localCount := by
    intro n hn
    unfold localOf at hn
    split at hn
    · cases hn
      assumption
    · cases hn
  have hcell : ∀ {n}, cellOf i c = .ok n → n < c.closureSize := by
    intro n hn
    unfold cellOf at hn
    split at hn
    · cases hn
      assumption
    · cases hn
  have hconstant : ∀ {n}, constantOf i c = .ok n → n < c.constants.length := by
    intro n hn
    unfold constantOf at hn
    split at hn
    · cases hn
      assumption
    · cases hn
  have hslice : ∀ {n}, argWhen i (i.arg == 2 || i.arg == 3) = .ok n → n = 2 ∨ n = 3 := by
    intro n hn
    unfold argWhen at hn
    split at hn
    · rename_i harg
      cases hn
      simpa using harg
    · cases hn
  obtain ⟨offset, opcode, arg, size, target, mark, line⟩ := i
  cases opcode
  all_goals first
    | (cases h; exact ⟨trivial, rfl⟩)
    | (obtain ⟨n, hn, rfl⟩ := map_eq_ok.mp h
       first
         | exact ⟨trivial, rfl⟩
         | exact ⟨hlocal hn, rfl⟩
         | exact ⟨hcell hn, rfl⟩
         | exact ⟨hconstant hn, rfl⟩
         | exact ⟨hslice hn, rfl⟩)
    | (unfold decode at h
       dsimp only at h
       split at h
       · cases h
         exact ⟨trivial, rfl⟩
       · cases h)

/-- Whether the operation starts a generator. -/
def isGenStart : Op → Bool
  | .genStart _ => true
  | _ => false

/-- Whether the operation enters a `with` block. -/
def isWith : Op → Bool
  | .setupWith _ => true
  | _ => false

/-- What is left of an opcode in its operation. -/
structure Shaped (opcode : Opcode) (op : Op) : Prop where
  targets : opcode.jumpOp? = none → op.targets = []
  isGenStart : op.isGenStart = (opcode == .genStart)
  isWith : op.isWith = (opcode == .setupWith)

theorem decode_shaped {i : Instruction} {c : CodeObject} {op : Op} (h : decode i c = .ok op) :
    Shaped i.opcode op := by
  obtain ⟨offset, opcode, arg, size, target, mark, line⟩ := i
  cases opcode
  all_goals first
    | (cases h; exact ⟨fun _ => rfl, rfl, rfl⟩)
    | (obtain ⟨n, hn, rfl⟩ := map_eq_ok.mp h
       exact ⟨fun hnone => (by first | rfl | cases hnone), rfl, rfl⟩)
    | (unfold decode at h
       dsimp only at h
       split at h
       · cases h
         exact ⟨fun _ => rfl, rfl, rfl⟩
       · cases h)

theorem decode_jump {i : Instruction} {f : Nat → Op} (c : CodeObject)
    (h : i.opcode.jumpOp? = some f) : decode i c = (targetOf i).map f := by
  obtain ⟨offset, opcode, arg, size, target, mark, line⟩ := i
  cases opcode <;> cases h <;> rfl

end Op

/-! ## 2. Writing -/

namespace BodyWriter

/-- The operations written so far. -/
def ops (r : BodyWriter) : List Op := r.out.toList.map (·.op)

/-- Every instruction stands at its offset. -/
def Ordered (r : BodyWriter) : Prop := Dense r.out.toList

theorem ordered_empty : empty.Ordered := fun _ _ h => by cases h

@[simp] theorem ops_empty : empty.ops = [] := rfl

@[simp] theorem ops_startOn (r : BodyWriter) (old : Nat) : (r.startOn old).ops = r.ops := rfl

@[simp] theorem ops_push (r : BodyWriter) (op : Op) (line origin : Option Nat) :
    (r.push op line origin).ops = r.ops ++ [op] := by
  simp only [ops, push, Array.toList_push, List.map_append, List.map_cons, List.map_nil]

theorem ops_pushAll (r : BodyWriter) (os : List Op) (i : Instr) :
    (r.pushAll os i).ops = r.ops ++ os := by
  induction os generalizing r with
  | nil => exact (List.append_nil _).symm
  | cons op os ih =>
    rw [pushAll, List.foldl_cons]
    refine (ih _).trans ?_
    rw [ops_push, List.append_assoc]
    rfl

theorem Ordered.startOn {r : BodyWriter} (h : r.Ordered) (old : Nat) : (r.startOn old).Ordered := h

theorem Ordered.push {r : BodyWriter} (h : r.Ordered) (op : Op) (line origin : Option Nat) :
    (r.push op line origin).Ordered := by
  intro k i hi
  simp only [BodyWriter.push, Array.toList_push] at hi
  rcases Nat.lt_trichotomy k r.out.toList.length with hk | hk | hk
  · rw [List.getElem?_append_left hk] at hi
    exact h k i hi
  · rw [hk, List.getElem?_concat_length] at hi
    cases hi
    rw [hk]
    rfl
  · rw [List.getElem?_eq_none (by simp only [List.length_append, List.length_singleton]; omega)] at hi
    cases hi

theorem Ordered.pushAll {r : BodyWriter} (h : r.Ordered) (os : List Op) (i : Instr) :
    (r.pushAll os i).Ordered := by
  induction os generalizing r with
  | nil => exact h
  | cons op os ih => exact ih (h.push op i.line i.origin)

end BodyWriter

/-- An instruction with its targets moved. -/
structure Instr.Moved (m : OffsetMap) (i j : Instr) : Prop where
  offset : j.offset = i.offset
  op : i.op.relabel m = .ok j.op
  line : j.line = i.line
  origin : j.origin = i.origin

theorem Instr.markTargets_forall₂ {m : OffsetMap} {is js : List Instr}
    (h : List.Forall₂ (Instr.Moved m) is js) :
    List.Forall₂ (Instr.Moved m) is (Instr.markTargets js) := by
  rw [markTargets, List.forall₂_map_right_iff]
  exact h.imp fun i j hij => ⟨hij.offset, hij.op, hij.line, hij.origin⟩

/-- **A finished body is the body that was written, with targets moved.** -/
theorem BodyWriter.finish_eq_ok {r : BodyWriter} {is : List Instr} {map : OffsetMap}
    (h : r.finish = .ok (is, map)) : List.Forall₂ (Instr.Moved r.map) r.out.toList is := by
  obtain ⟨moved, hm, h⟩ := bind_eq_ok.mp h
  cases h
  refine Instr.markTargets_forall₂ ((forall₂_of_mapM hm).imp fun i j hij => ?_)
  split at hij
  · cases hij
    exact ⟨rfl, ‹_›, rfl, rfl⟩
  · cases hij

section Moved

variable {m : OffsetMap} {is js : List Instr} {k : Nat}

theorem Instr.exists_of_moved {j : Instr} (h : List.Forall₂ (Instr.Moved m) is js)
    (hj : js[k]? = some j) : ∃ i, is[k]? = some i ∧ Instr.Moved m i j := by
  obtain ⟨hk, rfl⟩ := List.getElem?_eq_some_iff.mp hj
  have hk' : k < is.length := h.length_eq ▸ hk
  exact ⟨is[k], List.getElem?_eq_getElem hk', h.get hk' hk⟩

theorem Instr.moved_of_exists {i : Instr} (h : List.Forall₂ (Instr.Moved m) is js)
    (hi : is[k]? = some i) : ∃ j, js[k]? = some j ∧ Instr.Moved m i j := by
  obtain ⟨hk, rfl⟩ := List.getElem?_eq_some_iff.mp hi
  have hk' : k < js.length := h.length_eq ▸ hk
  exact ⟨js[k], List.getElem?_eq_getElem hk', h.get hk hk'⟩

theorem Instr.dense_of_moved (h : List.Forall₂ (Instr.Moved m) is js) (hd : Dense is) :
    Dense js := by
  intro k j hj
  obtain ⟨i, hi, hij⟩ := exists_of_moved h hj
  rw [hij.offset]
  exact hd k i hi

end Moved

/-! ## 3. Bodies -/

/-- Instructions stand at their offsets, and their operations fit the code object. -/
structure Body.Fits (c : CodeObject) (is : List Instr) : Prop where
  dense : Dense is
  op : ∀ i ∈ is, i.op.Fits c.localCount c.closureSize c.constants.length

/-- There is no switch among the instructions. -/
def Body.Plain (is : List Instr) : Prop := ∀ i ∈ is, i.op.isSwitch = false

/-- What holds of all operations that were written holds of the finished body. -/
theorem BodyWriter.forall_finish {r : BodyWriter} {is : List Instr} {map : OffsetMap}
    {P : Op → Prop} (h : r.finish = .ok (is, map)) (hP : ∀ op op', Op.Like op op' → P op → P op')
    (hops : ∀ op ∈ r.ops, P op) : ∀ i ∈ is, P i.op := by
  intro j hj
  obtain ⟨k, hk⟩ := List.mem_iff_getElem?.mp hj
  obtain ⟨i, hi, hij⟩ := Instr.exists_of_moved (finish_eq_ok h) hk
  refine hP _ _ (Op.relabel_like hij.op) (hops _ ?_)
  exact List.mem_map.mpr ⟨i, List.mem_of_getElem? hi, rfl⟩

theorem BodyWriter.finish_fits {r : BodyWriter} {is : List Instr} {map : OffsetMap}
    {c : CodeObject} (h : r.finish = .ok (is, map)) (hr : r.Ordered)
    (hops : ∀ op ∈ r.ops, op.Fits c.localCount c.closureSize c.constants.length) :
    Body.Fits c is where
  dense := Instr.dense_of_moved (finish_eq_ok h) hr
  op := forall_finish h (fun _ _ hlike => hlike.fits) hops

theorem BodyWriter.finish_plain {r : BodyWriter} {is : List Instr} {map : OffsetMap}
    (h : r.finish = .ok (is, map)) (hops : ∀ op ∈ r.ops, op.isSwitch = false) : Body.Plain is :=
  forall_finish (P := fun op => op.isSwitch = false) h
    (fun _ _ hlike hop => hlike.isSwitch.trans hop) hops

namespace Body

theorem write_fits {c : CodeObject} {r r' : BodyWriter} {is : List Instruction}
    (h : write c r is = .ok r') (hr : r.Ordered)
    (hops : ∀ op ∈ r.ops, op.OfCode c) : r'.Ordered ∧ ∀ op ∈ r'.ops, op.OfCode c := by
  induction is generalizing r with
  | nil =>
    cases h
    exact ⟨hr, hops⟩
  | cons i is ih =>
    rw [write] at h
    split at h
    · cases h
    · rename_i op hop
      refine ih h ((hr.startOn _).push _ _ _) fun op' hop' => ?_
      rw [BodyWriter.ops_push, BodyWriter.ops_startOn, List.mem_append, List.mem_singleton] at hop'
      rcases hop' with hop' | rfl
      · exact hops op' hop'
      · exact Op.decode_fits hop

/-- **A decoded body is dense, its operations fit, and none is a switch.** -/
theorem decode_fits {c : CodeObject} {is : List Instr} {map : OffsetMap}
    (h : decode c = .ok (is, map)) : Fits c is ∧ Plain is := by
  unfold decode at h
  split at h
  · cases h
  · split at h
    · cases h
    · split at h
      · cases h
      · rename_i r hr
        obtain ⟨hord, hops⟩ := write_fits hr BodyWriter.ordered_empty fun _ hop => by cases hop
        exact ⟨BodyWriter.finish_fits h hord fun op hop => (hops op hop).1,
          BodyWriter.finish_plain h fun op hop => (hops op hop).2⟩

theorem expandOp_fits {c : CodeObject} {op op' : Op} (h : op' ∈ expandOp op)
    (hop : op.OfCode c) : op'.OfCode c := by
  unfold expandOp at h
  split at h
  · simp only [List.mem_cons, List.not_mem_nil, or_false] at h
    rcases h with rfl | rfl | rfl | rfl | rfl | rfl <;> exact ⟨trivial, rfl⟩
  · rw [List.mem_singleton.mp h]
    exact hop

/-- What the pass over `with` statements writes. -/
def expanded (is : List Instr) (r : BodyWriter) : BodyWriter :=
  is.foldl (fun r i => (r.startOn i.offset).pushAll (expandOp i.op) i) r

theorem ops_expanded (is : List Instr) (r : BodyWriter) :
    (expanded is r).ops = r.ops ++ is.flatMap fun i => expandOp i.op := by
  induction is generalizing r with
  | nil => exact (List.append_nil _).symm
  | cons i is ih =>
    refine (ih _).trans ?_
    rw [BodyWriter.ops_pushAll, BodyWriter.ops_startOn, List.flatMap_cons, List.append_assoc]

theorem ordered_expanded {r : BodyWriter} (hr : r.Ordered) (is : List Instr) :
    (expanded is r).Ordered := by
  induction is generalizing r with
  | nil => exact hr
  | cons i is ih => exact ih ((hr.startOn _).pushAll _ _)

theorem mem_ops_expanded {is : List Instr} {op : Op} :
    op ∈ (expanded is .empty).ops ↔ ∃ i ∈ is, op ∈ expandOp i.op := by
  rw [ops_expanded, BodyWriter.ops_empty, List.nil_append, List.mem_flatMap]

/-- **Spelling out `with` keeps a body dense and fitting.** -/
theorem expandWith_fits {c : CodeObject} {is out : List Instr} {map : OffsetMap} (hfits : Fits c is)
    (hplain : Plain is) (h : expandWith is = .ok (out, map)) : Fits c out ∧ Plain out := by
  have hops : ∀ op ∈ (expanded is .empty).ops, op.OfCode c := by
    intro op hop
    obtain ⟨i, hi, hop⟩ := mem_ops_expanded.mp hop
    exact expandOp_fits hop ⟨hfits.op i hi, hplain i hi⟩
  exact ⟨BodyWriter.finish_fits h (ordered_expanded BodyWriter.ordered_empty is)
      fun op hop => (hops op hop).1,
    BodyWriter.finish_plain h fun op hop => (hops op hop).2⟩

end Body

end Stackwise
