import Stackwise.Bytecode.Assembler
import Mathlib.Data.List.Forall2
import Mathlib.Data.List.Infix

/-!
# Calls of an assembler

A program given to the assembler call by call, and what its author asked for.

* `Assembler.Call`: the calls, and `Assembler.assemble`, what they leave behind.
* `Assembler.emissions`: the instructions that were asked for, each with the operand as it was passed
  and the line that was set; `Assembler.labelPosition`: the instruction that a label was bound before
  last.
* `Assembler.assemble_items`: the assembler holds these instructions, with operands that name what
  was passed.
-/

namespace Stackwise

namespace Assembler

/-! ## 1. Calls -/

/-- One call. -/
inductive Call where
  | setQualname (name : String)
  | setFilename (name : String)
  | setFirstLine (line : Nat)
  | setLine (line : Nat)
  | setDialect (d : Dialect)
  | setParams (params : List String)
  | setPosonlyCount (n : Nat)
  | setKwonlyCount (n : Nat)
  | addFlags (bits : Nat)
  | addConstant (c : Constant)
  | defineLocal (name : String)
  | addName (name : String)
  | addCellvar (name : String)
  | addFreevar (name : String)
  | bindLabel (label : Nat)
  | emit (op : Opcode) (arg : Nat)
  | emitJump (op : Opcode) (label : Nat)
  | emitConstant (op : Opcode) (c : Constant)
  | emitName (op : Opcode) (name : String)
  | emitLocal (op : Opcode) (name : String)
  | emitComparison (c : Comparison)

/-- What a call leaves behind. -/
def perform (a : Assembler) : Call → Assembler
  | .setQualname qualname => { a with qualname, ownQualname := true }
  | .setFilename filename => { a with filename }
  | .setFirstLine line => a.setFirstLine line
  | .setLine line => { a with line }
  | .setDialect dialect => { a with dialect }
  | .setParams params => a.setParams params
  | .setPosonlyCount n => { a with posonlyCount := n }
  | .setKwonlyCount n => { a with kwonlyCount := n }
  | .addFlags bits => a.addFlags bits
  | .addConstant c => (a.addConstant c).2
  | .defineLocal name => (a.defineLocal name).2
  | .addName name => (a.addName name).2
  | .addCellvar name => (a.addCellvar name).2
  | .addFreevar name => (a.addFreevar name).2
  | .bindLabel label => a.bindLabel label
  | .emit op arg => a.emit op arg
  | .emitJump op label => a.emitJump op label
  | .emitConstant op c => a.emitConstant op c
  | .emitName op name => a.emitName op name
  | .emitLocal op name => a.emitLocal op name
  | .emitComparison c => a.emitComparison c

/-- What a sequence of calls leaves behind. -/
def assemble (name : String) (calls : List Call) : Assembler := calls.foldl perform (start name)

/-! ## 2. What was asked for -/

/-- An operand as it was passed. -/
inductive Passed where
  | word (n : Nat)
  | label (l : Nat)
  | constant (c : Constant)
  | name (s : String)
  | localVar (s : String)

/-- Whether the operand is a label. -/
def Passed.isLabel : Passed → Bool
  | .label _ => true
  | _ => false

theorem Passed.isLabel_iff {p : Passed} : p.isLabel = true ↔ ∃ l, p = .label l := by
  cases p <;> simp [isLabel]

/-- An instruction that was asked for. -/
structure Emission where
  /-- The operation. -/
  opcode : Opcode
  /-- The operand as it was passed. -/
  passed : Passed
  /-- The line that was set. -/
  line : Nat

/-- The instruction that a call asks for, on the line that was set. -/
def Call.emission? (line : Nat) : Call → Option Emission
  | .emit op arg => some ⟨op, .word arg, line⟩
  | .emitJump op label => some ⟨op, .label label, line⟩
  | .emitConstant op c => some ⟨op, .constant c, line⟩
  | .emitName op name => some ⟨op, .name name, line⟩
  | .emitLocal op name => some ⟨op, .localVar name, line⟩
  | .emitComparison c => some ⟨.compareOp, .word c.arg, line⟩
  | _ => none

/-- The line that is set after a call. -/
def Call.lineAfter (line : Nat) : Call → Nat
  | .setFirstLine line | .setLine line => line
  | _ => line

/-- The instructions that calls ask for, from a line on. -/
def emissionsFrom : Nat → List Call → List Emission
  | _, [] => []
  | line, call :: calls =>
    (call.emission? line).toList ++ emissionsFrom (call.lineAfter line) calls

/-- The instructions that a program asks for. -/
def emissions (calls : List Call) : List Emission := emissionsFrom 1 calls

/-- The position that a label gets by a call, behind `n` instructions. -/
def Call.binding? (label n : Nat) : Call → Option Nat
  | .bindLabel l => if l = label then some n else none
  | _ => none

/-- The position that a label gets last, behind `n` instructions. -/
def labelFrom (label : Nat) : Nat → List Call → Option Nat
  | _, [] => none
  | n, call :: calls =>
    (labelFrom label (n + (call.emission? 0).toList.length) calls).or (call.binding? label n)

/-- The position of the instruction that a label was bound before last. -/
def labelPosition (label : Nat) (calls : List Call) : Option Nat := labelFrom label 0 calls

/-! ## 3. Tables -/

theorem intern_eq {table : List String} {name : String} :
    (intern table name).2[(intern table name).1]? = some name
      ∧ table <+: (intern table name).2 := by
  unfold intern
  split
  · rename_i i hi
    obtain ⟨hlt, hname, -⟩ := List.findIdx?_eq_some_iff_getElem.mp hi
    refine ⟨?_, List.prefix_refl _⟩
    rw [List.getElem?_eq_getElem hlt, beq_iff_eq.mp hname]
  · exact ⟨List.getElem?_concat_length, List.prefix_append _ _⟩

theorem eq_of_sharesEntry {c c' : Constant} (h : sharesEntry c c' = true) : c = c' := by
  unfold sharesEntry at h
  split at h
  · rfl
  · rw [beq_iff_eq.mp h]
  · rw [beq_iff_eq.mp h]
  · rw [beq_iff_eq.mp h]
  · rw [beq_iff_eq.mp h]
  · cases h

theorem addConstant_eq (a : Assembler) (c : Constant) :
    (a.addConstant c).2.constants[(a.addConstant c).1]? = some c
      ∧ a.constants <+: (a.addConstant c).2.constants := by
  unfold addConstant
  split
  · rename_i i hi
    obtain ⟨hlt, hshares, -⟩ := List.findIdx?_eq_some_iff_getElem.mp hi
    refine ⟨?_, List.prefix_refl _⟩
    rw [List.getElem?_eq_getElem hlt, eq_of_sharesEntry hshares]
  · exact ⟨List.getElem?_concat_length, List.prefix_append _ _⟩

theorem getElem?_of_prefix {α : Type} {xs ys : List α} {n : Nat} {x : α} (h : xs <+: ys)
    (hx : xs[n]? = some x) : ys[n]? = some x := by
  obtain ⟨hlt, rfl⟩ := List.getElem?_eq_some_iff.mp hx
  exact List.prefix_iff_getElem?.mp h n hlt

/-- Tables that only grow. -/
structure Grows (a a' : Assembler) : Prop where
  constants : a.constants <+: a'.constants
  names : a.names <+: a'.names
  varnames : a.varnames <+: a'.varnames

theorem Grows.refl (a : Assembler) : Grows a a :=
  ⟨List.prefix_refl _, List.prefix_refl _, List.prefix_refl _⟩

theorem Grows.trans {a b c : Assembler} (h : Grows a b) (h' : Grows b c) : Grows a c :=
  ⟨h.constants.trans h'.constants, h.names.trans h'.names, h.varnames.trans h'.varnames⟩

/-- A change that touches neither instructions nor labels. -/
structure Quiet (a a' : Assembler) : Prop where
  grows : Grows a a'
  items : a'.items = a.items
  line : a'.line = a.line
  labels : a'.labels = a.labels

theorem quiet_addConstant (a : Assembler) (c : Constant) : Quiet a (a.addConstant c).2 := by
  refine ⟨⟨(addConstant_eq a c).2, ?_, ?_⟩, ?_, ?_, ?_⟩ <;> unfold addConstant <;> split <;> rfl

theorem quiet_defineLocal (a : Assembler) (name : String) : Quiet a (a.defineLocal name).2 :=
  ⟨⟨List.prefix_refl _, List.prefix_refl _, intern_eq.2⟩, rfl, rfl, rfl⟩

theorem quiet_addName (a : Assembler) (name : String) : Quiet a (a.addName name).2 :=
  ⟨⟨List.prefix_refl _, intern_eq.2, List.prefix_refl _⟩, rfl, rfl, rfl⟩

theorem quiet_setParams (a : Assembler) (params : List String) : Quiet a (a.setParams params) := by
  have hfold : Quiet a (params.foldl (fun a p => (a.defineLocal p).2) a) := by
    induction params generalizing a with
    | nil => exact ⟨.refl a, rfl, rfl, rfl⟩
    | cons p params ih =>
      have hp := quiet_defineLocal a p
      have hrest := ih (a.defineLocal p).2
      exact ⟨hp.grows.trans hrest.grows, hrest.items.trans hp.items, hrest.line.trans hp.line,
        hrest.labels.trans hp.labels⟩
  exact ⟨⟨hfold.grows.constants, hfold.grows.names, hfold.grows.varnames⟩, hfold.items, hfold.line,
    hfold.labels⟩

/-! ## 4. What is held -/

/-- The operand that an instruction gets, if it takes one. -/
def wordOperand (op : Opcode) (n : Nat) : Operand := .immediate (if op.hasArg then n else 0)

/-- An operand that names what was passed. -/
def Names (a : Assembler) (op : Opcode) (operand : Operand) : Passed → Prop
  | .word n => operand = wordOperand op n
  | .label l => operand = .label l
  | .constant c => ∃ n, operand = wordOperand op n ∧ a.constants[n]? = some c
  | .name s => ∃ n, operand = wordOperand op n ∧ a.names[n]? = some s
  | .localVar s => ∃ n, operand = wordOperand op n ∧ a.varnames[n]? = some s

theorem Names.mono {a a' : Assembler} {op : Opcode} {operand : Operand} {passed : Passed}
    (h : Grows a a') (hn : Names a op operand passed) : Names a' op operand passed := by
  cases passed with
  | word n => exact hn
  | label l => exact hn
  | constant c =>
    obtain ⟨n, hop, hc⟩ := hn
    exact ⟨n, hop, getElem?_of_prefix h.constants hc⟩
  | name s =>
    obtain ⟨n, hop, hs⟩ := hn
    exact ⟨n, hop, getElem?_of_prefix h.names hs⟩
  | localVar s =>
    obtain ⟨n, hop, hs⟩ := hn
    exact ⟨n, hop, getElem?_of_prefix h.varnames hs⟩

/-- An instruction as it was asked for. -/
structure Meets (a : Assembler) (item : AsmItem) (e : Emission) : Prop where
  opcode : item.opcode = e.opcode
  line : item.line = e.line
  operand : Names a e.opcode item.operand e.passed

/-- What one call does. -/
structure Performed (a : Assembler) (call : Call) (a' : Assembler) : Prop where
  grows : Grows a a'
  line : a'.line = call.lineAfter a.line
  items : ∃ new, a'.items.toList = a.items.toList ++ new
    ∧ List.Forall₂ (Meets a') new (call.emission? a.line).toList
  labels : ∀ l, a'.labels.lookup l = (call.binding? l a.items.size).or (a.labels.lookup l)

theorem Quiet.performed {a a' : Assembler} {call : Call} (h : Quiet a a')
    (hemission : call.emission? a.line = none) (hline : call.lineAfter a.line = a.line)
    (hbinding : ∀ l, call.binding? l a.items.size = none) : Performed a call a' where
  grows := h.grows
  line := h.line.trans hline.symm
  items := ⟨[], by rw [h.items, List.append_nil], by rw [hemission]; exact .nil⟩
  labels l := by rw [h.labels, hbinding, Option.none_or]

/-- Appending one instruction after a change that touches none. -/
theorem Quiet.performed_push {a b : Assembler} {call : Call} {e : Emission} {item : AsmItem}
    (h : Quiet a b) (hemission : call.emission? a.line = some e)
    (hline : call.lineAfter a.line = a.line) (hbinding : ∀ l, call.binding? l a.items.size = none)
    (hmeets : Meets b item e) : Performed a call { b with items := b.items.push item } where
  grows := ⟨h.grows.constants, h.grows.names, h.grows.varnames⟩
  line := h.line.trans hline.symm
  items := by
    refine ⟨[item], by rw [Array.toList_push, h.items], ?_⟩
    rw [hemission]
    have hgrows : Grows b { b with items := b.items.push item } :=
      ⟨List.prefix_refl _, List.prefix_refl _, List.prefix_refl _⟩
    exact .cons ⟨hmeets.opcode, hmeets.line, hmeets.operand.mono hgrows⟩ .nil
  labels l := by
    rw [hbinding, Option.none_or]
    exact congrArg _ h.labels

/-- **Every call does what it says.** -/
theorem perform_performed (a : Assembler) (call : Call) : Performed a call (perform a call) := by
  have hquiet : Quiet a a := ⟨.refl a, rfl, rfl, rfl⟩
  cases call with
  | setQualname _ | setFilename _ | setDialect _ | setPosonlyCount _ | setKwonlyCount _ | addFlags _
  | addCellvar _ | addFreevar _ =>
    exact Quiet.performed ⟨⟨List.prefix_refl _, List.prefix_refl _, List.prefix_refl _⟩, rfl, rfl, rfl⟩
      rfl rfl fun _ => rfl
  | setFirstLine line | setLine line =>
    exact ⟨⟨List.prefix_refl _, List.prefix_refl _, List.prefix_refl _⟩, rfl,
      ⟨[], (List.append_nil _).symm, .nil⟩, fun l => (Option.none_or ..).symm⟩
  | setParams params => exact (quiet_setParams a params).performed rfl rfl fun _ => rfl
  | addConstant c => exact (quiet_addConstant a c).performed rfl rfl fun _ => rfl
  | defineLocal name => exact (quiet_defineLocal a name).performed rfl rfl fun _ => rfl
  | addName name => exact (quiet_addName a name).performed rfl rfl fun _ => rfl
  | bindLabel label =>
    refine ⟨⟨List.prefix_refl _, List.prefix_refl _, List.prefix_refl _⟩, rfl,
      ⟨[], (List.append_nil _).symm, .nil⟩, fun l => ?_⟩
    change ((label, a.items.size) :: a.labels).lookup l
      = (if label = l then some a.items.size else none).or (a.labels.lookup l)
    rw [List.lookup_cons]
    by_cases hl : label = l
    · rw [if_pos hl, hl, beq_self_eq_true]
      rfl
    · rw [if_neg hl, beq_eq_false_iff_ne.mpr (Ne.symm hl)]
      rfl
  | emit op arg => exact hquiet.performed_push rfl rfl (fun _ => rfl) ⟨rfl, rfl, rfl⟩
  | emitJump op label => exact hquiet.performed_push rfl rfl (fun _ => rfl) ⟨rfl, rfl, rfl⟩
  | emitComparison c => exact hquiet.performed_push rfl rfl (fun _ => rfl) ⟨rfl, rfl, rfl⟩
  | emitConstant op c =>
    have hb := quiet_addConstant a c
    exact hb.performed_push rfl rfl (fun _ => rfl)
      ⟨rfl, hb.line, (a.addConstant c).1, rfl, (addConstant_eq a c).1⟩
  | emitName op name =>
    have hb := quiet_addName a name
    exact hb.performed_push rfl rfl (fun _ => rfl) ⟨rfl, hb.line, _, rfl, intern_eq.1⟩
  | emitLocal op name =>
    have hb := quiet_defineLocal a name
    exact hb.performed_push rfl rfl (fun _ => rfl) ⟨rfl, hb.line, _, rfl, intern_eq.1⟩

theorem length_emission? (call : Call) (line line' : Nat) :
    (call.emission? line).toList.length = (call.emission? line').toList.length := by
  cases call <;> rfl

/-- **A sequence of calls** leaves behind what was asked for. -/
theorem foldl_performed (a : Assembler) (calls : List Call) : Grows a (calls.foldl perform a)
    ∧ (∃ new, (calls.foldl perform a).items.toList = a.items.toList ++ new
      ∧ List.Forall₂ (Meets (calls.foldl perform a)) new (emissionsFrom a.line calls))
    ∧ ∀ l, (calls.foldl perform a).labels.lookup l
      = (labelFrom l a.items.size calls).or (a.labels.lookup l) := by
  induction calls generalizing a with
  | nil => exact ⟨.refl a, ⟨[], (List.append_nil _).symm, .nil⟩, fun l => (Option.none_or ..).symm⟩
  | cons call calls ih =>
    have hp := perform_performed a call
    obtain ⟨hgrows, ⟨rest, hrest, hmeets⟩, hlabels⟩ := ih (perform a call)
    obtain ⟨new, hnew, hfirst⟩ := hp.items
    have hsize : (perform a call).items.size
        = a.items.size + (call.emission? 0).toList.length := by
      rw [← Array.length_toList, hnew, List.length_append, hfirst.length_eq,
        length_emission? call a.line 0, Array.length_toList]
    rw [List.foldl_cons]
    refine ⟨hp.grows.trans hgrows, ⟨new ++ rest, ?_, ?_⟩, fun l => ?_⟩
    · rw [hrest, hnew, List.append_assoc]
    · rw [emissionsFrom, ← hp.line]
      refine List.rel_append ?_ hmeets
      exact hfirst.imp fun item e h => ⟨h.opcode, h.line, h.operand.mono hgrows⟩
    · rw [hlabels, hp.labels, hsize, labelFrom, Option.or_assoc]

theorem labelFrom_le {label n t : Nat} {calls : List Call} (line : Nat)
    (h : labelFrom label n calls = some t) : t ≤ n + (emissionsFrom line calls).length := by
  induction calls generalizing n line with
  | nil => cases h
  | cons call calls ih =>
    rw [emissionsFrom, List.length_append, length_emission? call line 0]
    rw [labelFrom] at h
    rcases Option.or_eq_some_iff.mp h with h | ⟨-, h⟩
    · have := ih (call.lineAfter line) h
      omega
    · have : t = n := by
        cases call <;> first | cases h | skip
        rw [Call.binding?] at h
        split at h
        · cases h
          rfl
        · cases h
      omega

/-- The assembler holds the instructions that were asked for. -/
theorem assemble_items (name : String) (calls : List Call) :
    List.Forall₂ (Meets (assemble name calls)) (assemble name calls).items.toList (emissions calls) := by
  obtain ⟨-, ⟨new, hnew, hmeets⟩, -⟩ := foldl_performed (start name) calls
  rw [assemble, hnew]
  exact hmeets

theorem lookup_labels (name : String) (calls : List Call) (l : Nat) :
    (assemble name calls).labels.lookup l = labelPosition l calls := by
  obtain ⟨-, -, hlabels⟩ := foldl_performed (start name) calls
  exact (hlabels l).trans (Option.or_none ..)

theorem labelPosition_le {l t : Nat} {calls : List Call} (h : labelPosition l calls = some t) :
    t ≤ (emissions calls).length := by
  have := labelFrom_le 1 h
  rwa [Nat.zero_add] at this

/-- Whatever a call enters stays entered. -/
theorem grows_assemble (name : String) (before : List Call) (call : Call) (after : List Call) :
    Grows (perform (assemble name before) call) (assemble name (before ++ call :: after)) := by
  rw [assemble, assemble, List.foldl_append, List.foldl_cons]
  exact (foldl_performed _ _).1

end Assembler

end Stackwise
