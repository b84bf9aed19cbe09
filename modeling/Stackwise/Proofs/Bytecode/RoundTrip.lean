import Stackwise.Proofs.Bytecode.Calls
import Stackwise.Proofs.Bytecode.ReadBack

/-!
# Assembling and decoding

A program that is assembled and decoded comes back as it was asked for.

* `Assembler.Assembled`: a code object with its instructions in their settled places.
* `Assembler.finish_eq_ok`: every finished code object is such.
* `Assembler.Assembled.decode_iff`: it decodes to its instructions, unless there are none or a jump
  leads behind the last.
* `Assembler.Encodable`: programs that can come back: known opcodes, jumps to labels in the program,
  32-bit operands.
* `Assembler.Reproduces`: a decoded stream that is the program.
* `Assembler.decode_assembled`: the decoded stream of an encodable program reproduces it.
-/

namespace Stackwise

/-- The sum of the sizes of the first `k` instructions. -/
def InstructionStream.startOf (is : List Instruction) (k : Nat) : Nat :=
  ((is.take k).map (·.size)).sum

namespace Assembler

open InstructionStream

variable {items : List Resolved} {sizes args : List Nat} {c : CodeObject}

/-! ## 1. Labels -/

/-- An instruction before and after its label is resolved. -/
structure Resolves (a : Assembler) (item : AsmItem) (r : Resolved) : Prop where
  opcode : r.opcode = item.opcode
  line : r.line = item.line
  immediate : ∀ n, item.operand = .immediate n → r.operand = .inl n
  label : ∀ l, item.operand = .label l → ∃ t, a.labels.lookup l = some t ∧ r.operand = .inr t

theorem resolve_eq_ok {a : Assembler} (h : a.resolve = .ok items) :
    List.Forall₂ (Resolves a) a.items.toList items := by
  refine (forall₂_of_mapM h).imp fun item r hr => ?_
  split at hr
  · rename_i n hn
    cases hr
    refine ⟨rfl, rfl, fun m hm => ?_, fun l hl => ?_⟩
    · cases hn.symm.trans hm
      rfl
    · cases hn.symm.trans hl
  · rename_i l hl
    split at hr
    · rename_i t ht
      cases hr
      refine ⟨rfl, rfl, fun m hm => ?_, fun l' hl' => ?_⟩
      · cases hl.symm.trans hm
      · cases hl.symm.trans hl'
        exact ⟨t, ht, rfl⟩
    · cases hr

/-! ## 2. Code objects -/

/-- The flags of a code object with the given instructions. -/
def flagsFor (a : Assembler) (items : List Resolved) : CodeFlags :=
  let yields := items.any fun i => i.opcode == .yieldValue || i.opcode == .yieldFrom
  let flags := if yields then a.flags.add CodeFlags.generatorBit else a.flags
  if a.cellvars.isEmpty && a.freevars.isEmpty then flags.add CodeFlags.nofreeBit else flags

/-- A code object with placed instructions and the tables of its assembler. -/
structure Assembled (a : Assembler) (items : List Resolved) (sizes args : List Nat) (c : CodeObject) :
    Prop where
  resolved : a.resolve = .ok items
  reached : Reached a.dialect items sizes
  settled : Settled a.dialect items sizes args
  dialect : c.dialect = a.dialect
  code : c.code = (place 0 items sizes args).flatMap Piece.bytes
  lines : c.lineTable = ((place 0 items sizes args).foldl addPiece []).reverse
  constants : c.constants = a.constants
  names : c.names = a.names
  varnames : c.varnames = a.varnames
  cellvars : c.cellvars = a.cellvars
  freevars : c.freevars = a.freevars
  flags : c.flags = flagsFor a items

theorem finish_eq_ok {a : Assembler} {serial : Nat} {c : CodeObject} (h : a.finish serial = .ok c) :
    ∃ items sizes args, Assembled a items sizes args c := by
  obtain ⟨items, hitems, h⟩ := bind_eq_ok.mp h
  obtain ⟨⟨sizes, args⟩, hsettle, h⟩ := bind_eq_ok.mp h
  cases h
  have hrounds : 4 * items.length ≤ 3 * items.length + (items.map leastSize).sum := by
    have := sum_leastSize items
    omega
  obtain ⟨hreached, hs⟩ := settle_settled .least hrounds hsettle
  refine ⟨items, sizes, args, hitems, hreached, hs, rfl, ?_, ?_, rfl, rfl, rfl, rfl, rfl, rfl⟩
  · exact flatMap_encode 0 hs.sizes_length hs.args_length
  · exact congrArg List.reverse (foldl_addLine [] hs.sizes_length hs.args_length)

/-! ## 3. Streams -/

/-- The instructions that are read back, before marks are set. -/
def unmarked (c : CodeObject) (items : List Resolved) (sizes args : List Nat) : List Instruction :=
  (place 0 items sizes args).map (Piece.instruction c fun t => (sizes.take t).sum)

theorem getElem?_stream {k : Nat} {p : Piece} (hp : (place 0 items sizes args)[k]? = some p) :
    ∃ marked, (markTargets (unmarked c items sizes args))[k]?
        = some { p.instruction c (fun t => (sizes.take t).sum) with isJumpTarget := marked }
      ∧ (marked = true ↔ ∃ i ∈ unmarked c items sizes args, i.target = some p.offset) := by
  refine getElem?_markTargets ?_
  rw [unmarked, List.getElem?_map, hp]
  rfl

namespace Assembled

variable {a : Assembler} (h : Assembled a items sizes args c)
include h

theorem size_pos {p : Piece} (hp : p ∈ place 0 items sizes args) : 0 < p.size := by
  have := h.settled.fits p hp
  omega

theorem lineAt?_eq {p : Piece} (hp : p ∈ place 0 items sizes args) :
    c.lineAt? p.offset = some p.item.line := by
  have hends : EndsAt 0 [] := ⟨List.forall_mem_nil _, fun _ he => nomatch he⟩
  have hlines := (lineIn_place hends fun p hp => h.size_pos hp).2 p hp
  rw [← h.lines] at hlines
  exact hlines

theorem length_code : c.code.length = 2 * sizes.sum := by
  rw [h.code, Assembler.length_code h.settled.sizes_length h.settled.args_length
    fun p hp => h.size_pos hp]

theorem getElem?_piece {k : Nat} {r : Resolved} (hr : items[k]? = some r) :
    ∃ p, (place 0 items sizes args)[k]? = some p ∧ p.item = r ∧ p.offset = (sizes.take k).sum := by
  have hlt : k < (place 0 items sizes args).length := by
    rw [length_place 0 h.settled.sizes_length h.settled.args_length]
    exact (List.getElem?_eq_some_iff.mp hr).1
  have hp := List.getElem?_eq_getElem hlt
  obtain ⟨hitem, -, -, hoffset⟩ := getElem?_place hp
  exact ⟨_, hp, Option.some.inj (hitem.symm.trans hr), by rw [hoffset, Nat.zero_add]⟩

theorem startOf_eq (k : Nat) :
    startOf (markTargets (unmarked c items sizes args)) k = (sizes.take k).sum := by
  have hsizes : (markTargets (unmarked c items sizes args)).map (·.size) = sizes := by
    rw [markTargets, List.map_map, unmarked, List.map_map]
    exact map_size_place 0 h.settled.sizes_length h.settled.args_length
  rw [startOf, List.map_take, hsizes]

/-- The bytes of an instruction are found at its offset. -/
theorem bytes_at {p : Piece} (hp : p ∈ place 0 items sizes args) :
    (c.code.drop (2 * p.offset)).take (2 * p.size) = p.bytes := by
  have hbytes := take_drop_place h.settled.sizes_length h.settled.args_length
    (fun p hp => h.size_pos hp) hp
  rw [Nat.sub_zero, ← h.code] at hbytes
  exact hbytes

theorem units {p : Piece} (hp : p ∈ place 0 items sizes args) :
    1 + extensions (p.instruction c fun t => (sizes.take t).sum).arg ≤ p.size ∧ p.size ≤ 4
      ∧ ∃ arg, (c.code.drop (2 * p.offset)).take (2 * p.size) = encode p.item.opcode p.size arg
        ∧ (p.instruction c fun t => (sizes.take t).sum).arg
          = if p.item.opcode.hasArg then arg else 0 := by
  obtain ⟨k, hk⟩ := List.mem_iff_getElem?.mp hp
  have hfour := h.settled.le_four _ (List.mem_of_getElem? (getElem?_place hk).2.1)
  refine ⟨?_, hfour, p.arg % wordLimit, ?_, rfl⟩
  · have hle : (p.instruction c fun t => (sizes.take t).sum).arg ≤ p.arg := by
      change (if p.item.opcode.hasArg then p.arg % wordLimit else 0) ≤ p.arg
      split
      · exact Nat.mod_le _ _
      · exact Nat.zero_le _
    have := extensions_mono hle
    have := h.settled.fits p hp
    omega
  · rw [encode_mod _ _ hfour]
    exact h.bytes_at hp

theorem length_stream : (markTargets (unmarked c items sizes args)).length = items.length := by
  rw [markTargets, List.length_map, unmarked, List.length_map,
    length_place 0 h.settled.sizes_length h.settled.args_length]

section Decode

variable (htotal : sizes.sum < wordLimit)
  (hknown : ∀ r ∈ items, r.opcode.existsIn a.dialect = true ∧ r.opcode.isSupported = true)
  (hjumps : ∀ r ∈ items, r.opcode.jumpKind?.isSome = true → ∃ t ≤ items.length, r.operand = .inr t)

include htotal hknown hjumps in
/-- The whole code is read back. -/
theorem fold_eq : fold c 0 {} [] (unitsOf c.code) = .ok (unmarked c items sizes args) := by
  rw [unmarked, h.code, fold_place fun p hp => ?_, List.reverse_nil, List.nil_append]
  obtain ⟨k, hk⟩ := List.mem_iff_getElem?.mp hp
  obtain ⟨hitem, hsize, -, -⟩ := getElem?_place hk
  have hmem := List.mem_of_getElem? hitem
  refine ⟨h.dialect ▸ (hknown _ hmem).1, (hknown _ hmem).2, h.settled.fits p hp,
    h.settled.le_four _ (List.mem_of_getElem? hsize), fun kind hkind => ?_⟩
  obtain ⟨t, hle, ht⟩ := hjumps _ hmem (by rw [hkind]; rfl)
  exact ⟨t, ht, h.dialect ▸ h.settled.resolveJump?_eq htotal hp hkind ht hle⟩

theorem code_eq_nil_iff : c.code = [] ↔ items = [] := by
  rw [← List.length_eq_zero_iff, h.length_code]
  constructor
  · intro hsum
    cases hitems : items with
    | nil => rfl
    | cons r rest =>
      obtain ⟨p, hp, -, -⟩ := h.getElem?_piece (k := 0) (by rw [hitems]; rfl)
      have hpos := h.size_pos (List.mem_of_getElem? hp)
      have hnext := sum_take_add_one (getElem?_place hp).2.1
      have hle := sum_take_le sizes (0 + 1)
      omega
  · rintro rfl
    rw [List.length_eq_zero_iff.mp h.settled.sizes_length, List.sum_nil, Nat.mul_zero]

include hjumps in
/-- Jumps lead to instructions unless a label stands behind the last. -/
theorem strayJump?_iff : strayJump? (unmarked c items sizes args) = none
    ↔ ∀ r ∈ items, r.opcode.jumpKind?.isSome = true → ∃ t < items.length, r.operand = .inr t := by
  rw [strayJump?_eq_none]
  constructor
  · intro hlands r hr hjump
    obtain ⟨t, hle, ht⟩ := hjumps r hr hjump
    refine ⟨t, Nat.lt_of_le_of_ne hle fun hend => ?_, ht⟩
    obtain ⟨k, hk⟩ := List.mem_iff_getElem?.mp hr
    obtain ⟨p, hp, rfl, -⟩ := h.getElem?_piece hk
    obtain ⟨j, hj, hoffset⟩ := hlands _ (List.mem_map.mpr ⟨p, List.mem_of_getElem? hp, rfl⟩) _
      (Piece.target?_eq_some.mpr ⟨t, hjump, ht, rfl⟩)
    obtain ⟨q, hq, rfl⟩ := List.mem_map.mp hj
    obtain ⟨m, hm⟩ := List.mem_iff_getElem?.mp hq
    obtain ⟨hitem, -, -, hstart⟩ := getElem?_place hm
    have hlt := (List.getElem?_eq_some_iff.mp hitem).1
    rw [← h.settled.sizes_length] at hlt hend
    have hbefore := sum_take_lt h.settled.pos hlt (Nat.le_refl _)
    change q.offset = _ at hoffset
    rw [hend] at hoffset
    omega
  · intro hinside i hi x hx
    obtain ⟨p, hp, rfl⟩ := List.mem_map.mp hi
    obtain ⟨t, hjump, ht, rfl⟩ := Piece.target?_eq_some.mp hx
    obtain ⟨k, hk⟩ := List.mem_iff_getElem?.mp hp
    obtain ⟨t', hlt, ht'⟩ := hinside _ (List.mem_of_getElem? (getElem?_place hk).1) hjump
    cases ht.symm.trans ht'
    obtain ⟨q, hq, -, hoffset⟩ := h.getElem?_piece (List.getElem?_eq_getElem hlt)
    exact ⟨_, List.mem_map.mpr ⟨q, List.mem_of_getElem? hq, rfl⟩, hoffset⟩

include htotal hknown hjumps in
/-- **What finished code decodes to.** -/
theorem decode_iff {s : InstructionStream} : InstructionStream.decode c = .ok s ↔ items ≠ []
    ∧ (∀ r ∈ items, r.opcode.jumpKind?.isSome = true → ∃ t < items.length, r.operand = .inr t)
    ∧ s = ⟨c.dialect, markTargets (unmarked c items sizes args)⟩ := by
  have hlength : c.code.length = 2 * sizes.sum := h.length_code
  have hfold := h.fold_eq htotal hknown hjumps
  rw [decode_eq_ok, ne_eq, h.code_eq_nil_iff, ← h.strayJump?_iff hjumps]
  constructor
  · rintro ⟨-, hne, is, his, hstray, rfl⟩
    cases hfold.symm.trans his
    exact ⟨hne, hstray, rfl⟩
  · rintro ⟨hne, hstray, rfl⟩
    exact ⟨by omega, hne, _, hfold, hstray, rfl⟩

end Decode

end Assembled

end Assembler

namespace Assembler

open InstructionStream

/-! ## 4. Statement -/

/-- Programs that can come back. -/
structure Encodable (name : String) (calls : List Call) : Prop where
  nonempty : emissions calls ≠ []
  known : ∀ e ∈ emissions calls, e.opcode.existsIn (assemble name calls).dialect = true
    ∧ e.opcode.isSupported = true
  /-- Jumps name labels that are bound before some instruction. -/
  jumps : ∀ e ∈ emissions calls, e.opcode.jumpKind?.isSome = true →
    ∃ l t, e.passed = .label l ∧ labelPosition l calls = some t ∧ t < (emissions calls).length
  /-- Operands are 32-bit words. -/
  words : ∀ e ∈ emissions calls, ∀ n, e.passed = .word n → n < wordLimit
  /-- So are positions in the tables. -/
  tables : (assemble name calls).constants.length ≤ wordLimit
    ∧ (assemble name calls).names.length ≤ wordLimit
    ∧ (assemble name calls).varnames.length ≤ wordLimit

/-- An operand that was read back as it was passed. -/
def Returned (calls : List Call) (c : CodeObject) (is : List Instruction) (i : Instruction) :
    Passed → Prop
  | .word n => i.arg = if i.opcode.hasArg then n else 0
  | .label l => ∃ t, labelPosition l calls = some t
    ∧ if i.opcode.jumpKind?.isSome then ∃ j, is[t]? = some j ∧ i.target = some j.offset
      else ∃ arg, c.dialect.unitsToJumpArg? (startOf is t) = some arg
        ∧ i.arg = if i.opcode.hasArg then arg else 0
  | .constant v => i.opcode.hasArg = true → c.constants[i.arg]? = some v
  | .name s => i.opcode.hasArg = true → c.names[i.arg]? = some s
  | .localVar s => i.opcode.hasArg = true → c.varnames[i.arg]? = some s

/-- A stream that is the program of some calls. -/
structure Reproduces (name : String) (calls : List Call) (c : CodeObject) (is : List Instruction) :
    Prop where
  length : is.length = (emissions calls).length
  /-- The instructions that were asked for, in order. -/
  entry : ∀ (k : Nat) (e : Emission), (emissions calls)[k]? = some e → ∃ i, is[k]? = some i ∧ i.opcode = e.opcode
    ∧ i.line = some e.line ∧ Returned calls c is i e.passed
  /-- Instructions stand one behind the other. -/
  offset : ∀ k i, is[k]? = some i → i.offset = startOf is k
  /-- The units of an instruction are its extensions and its opcode. -/
  units : ∀ i ∈ is, 1 + extensions i.arg ≤ i.size ∧ i.size ≤ 4
    ∧ ∃ arg, (c.code.drop (2 * i.offset)).take (2 * i.size) = encode i.opcode i.size arg
      ∧ i.arg = if i.opcode.hasArg then arg else 0
  total : c.code.length = 2 * startOf is is.length
  /-- Only jumps have targets. -/
  target : ∀ i ∈ is, i.target.isSome = i.opcode.jumpKind?.isSome
  /-- The marks are on the instructions that some jump names by a label. -/
  marked : ∀ k i, is[k]? = some i → (i.isJumpTarget = true ↔ ∃ e ∈ emissions calls,
    e.opcode.jumpKind?.isSome = true ∧ ∃ l, e.passed = .label l ∧ labelPosition l calls = some k)
  /-- A position that was handed out still leads to what was entered. -/
  constants : ∀ before v after, calls = before ++ .addConstant v :: after →
    c.constants[((assemble name before).addConstant v).1]? = some v
  names : ∀ before s after, calls = before ++ .addName s :: after →
    c.names[((assemble name before).addName s).1]? = some s
  varnames : ∀ before s after, calls = before ++ .defineLocal s :: after →
    c.varnames[((assemble name before).defineLocal s).1]? = some s

/-! ## 5. Operands -/

variable {name : String} {calls : List Call} {items : List Resolved} {sizes args : List Nat}
  {c : CodeObject}

/-- A resolved instruction for each that was asked for. -/
theorem exists_resolved (h : (assemble name calls).resolve = .ok items) {k : Nat} {e : Emission}
    (he : (emissions calls)[k]? = some e) : ∃ item r, Meets (assemble name calls) item e
      ∧ items[k]? = some r ∧ Resolves (assemble name calls) item r := by
  have hmeets := assemble_items name calls
  have hresolves := resolve_eq_ok h
  obtain ⟨hlt, rfl⟩ := List.getElem?_eq_some_iff.mp he
  have hitem : k < (assemble name calls).items.toList.length := hmeets.length_eq ▸ hlt
  have hr : k < items.length := hresolves.length_eq ▸ hitem
  exact ⟨_, items[k], hmeets.get hitem hlt, List.getElem?_eq_getElem hr, hresolves.get hitem hr⟩

theorem length_resolved (h : (assemble name calls).resolve = .ok items) :
    items.length = (emissions calls).length :=
  (resolve_eq_ok h).length_eq.symm.trans (assemble_items name calls).length_eq

/-- An instruction that was resolved was asked for. -/
theorem exists_emission (h : (assemble name calls).resolve = .ok items) {k : Nat} {r : Resolved}
    (hr : items[k]? = some r) : ∃ item e, (emissions calls)[k]? = some e
      ∧ Meets (assemble name calls) item e ∧ Resolves (assemble name calls) item r := by
  have hlt : k < (emissions calls).length :=
    length_resolved h ▸ (List.getElem?_eq_some_iff.mp hr).1
  have he := List.getElem?_eq_getElem hlt
  obtain ⟨item, r', hmeets, hr', hresolves⟩ := exists_resolved h he
  cases hr.symm.trans hr'
  exact ⟨item, _, he, hmeets, hresolves⟩

theorem Resolves.inr {item : AsmItem} {r : Resolved} {e : Emission}
    (h : Resolves (assemble name calls) item r) (hm : Meets (assemble name calls) item e) {t : Nat}
    (ht : r.operand = .inr t) : ∃ l, e.passed = .label l ∧ labelPosition l calls = some t := by
  have hoperand := hm.operand
  have himmediate : ∀ n, item.operand = wordOperand e.opcode n → False := by
    intro n hn
    cases (h.immediate _ hn).symm.trans ht
  cases hpassed : e.passed with
  | label l =>
    rw [hpassed] at hoperand
    obtain ⟨t', ht', hr⟩ := h.label l hoperand
    cases hr.symm.trans ht
    exact ⟨l, rfl, lookup_labels name calls l ▸ ht'⟩
  | word n =>
    rw [hpassed] at hoperand
    exact (himmediate n hoperand).elim
  | constant v =>
    rw [hpassed] at hoperand
    obtain ⟨n, hn, -⟩ := hoperand
    exact (himmediate n hn).elim
  | name s =>
    rw [hpassed] at hoperand
    obtain ⟨n, hn, -⟩ := hoperand
    exact (himmediate n hn).elim
  | localVar s =>
    rw [hpassed] at hoperand
    obtain ⟨n, hn, -⟩ := hoperand
    exact (himmediate n hn).elim

/-! ## 6. The stream -/

namespace Assembled

section Program

variable (h : Assembled (assemble name calls) items sizes args c) (hE : Encodable name calls)
include h hE

theorem known {r : Resolved} (hr : r ∈ items) :
    r.opcode.existsIn (assemble name calls).dialect = true ∧ r.opcode.isSupported = true := by
  obtain ⟨k, hk⟩ := List.mem_iff_getElem?.mp hr
  obtain ⟨item, e, he, hmeets, hresolves⟩ := exists_emission h.resolved hk
  rw [hresolves.opcode, hmeets.opcode]
  exact hE.known e (List.mem_of_getElem? he)

theorem jumps {r : Resolved} (hr : r ∈ items) (hjump : r.opcode.jumpKind?.isSome = true) :
    ∃ t < items.length, r.operand = .inr t := by
  obtain ⟨k, hk⟩ := List.mem_iff_getElem?.mp hr
  obtain ⟨item, e, he, hmeets, hresolves⟩ := exists_emission h.resolved hk
  rw [hresolves.opcode, hmeets.opcode] at hjump
  obtain ⟨l, t, hpassed, ht, hlt⟩ := hE.jumps e (List.mem_of_getElem? he) hjump
  have hoperand := hmeets.operand
  rw [hpassed] at hoperand
  obtain ⟨t', ht', hr⟩ := hresolves.label l hoperand
  rw [lookup_labels] at ht'
  cases ht.symm.trans ht'
  exact ⟨t, length_resolved h.resolved ▸ hlt, hr⟩

/-- A jump leads to an instruction. -/
theorem exists_target {p : Piece} (hp : p ∈ place 0 items sizes args) {x : Nat}
    (hx : p.target? (fun t => (sizes.take t).sum) = some x) : ∃ t p',
      p.item.opcode.jumpKind?.isSome = true ∧ p.item.operand = .inr t
        ∧ (place 0 items sizes args)[t]? = some p' ∧ p'.offset = x := by
  obtain ⟨t, hjump, ht, rfl⟩ := Piece.target?_eq_some.mp hx
  obtain ⟨k, hk⟩ := List.mem_iff_getElem?.mp hp
  obtain ⟨t', hlt, ht'⟩ := h.jumps hE (List.mem_of_getElem? (getElem?_place hk).1) hjump
  cases ht.symm.trans ht'
  obtain ⟨p', hp', -, hoffset⟩ := h.getElem?_piece (List.getElem?_eq_getElem hlt)
  exact ⟨t, p', hjump, ht, hp', hoffset⟩

/-- **The code is read back.** -/
theorem decode_eq (htotal : sizes.sum < wordLimit) : InstructionStream.decode c
    = .ok ⟨c.dialect, markTargets (unmarked c items sizes args)⟩ := by
  have hjumps : ∀ r ∈ items, r.opcode.jumpKind?.isSome = true →
      ∃ t < items.length, r.operand = .inr t := fun r hr hjump => h.jumps hE hr hjump
  refine (h.decode_iff htotal (fun r hr => h.known hE hr) fun r hr hjump => ?_).mpr
    ⟨fun hnil => ?_, hjumps, rfl⟩
  · obtain ⟨t, hlt, ht⟩ := hjumps r hr hjump
    exact ⟨t, hlt.le, ht⟩
  · have hlength := length_resolved h.resolved
    rw [hnil, List.length_nil] at hlength
    exact hE.nonempty (List.length_eq_zero_iff.mp hlength.symm)

omit hE in
theorem arg_eq {p : Piece} {item : AsmItem} {n : Nat} (hp : p ∈ place 0 items sizes args)
    (hresolves : Resolves (assemble name calls) item p.item)
    (hn : item.operand = wordOperand p.item.opcode n) (hword : n < wordLimit) :
    (p.instruction c fun t => (sizes.take t).sum).arg = if p.item.opcode.hasArg then n else 0 := by
  have harg := h.settled.arg_inl hp (hresolves.immediate _ hn)
  change (if p.item.opcode.hasArg then p.arg % wordLimit else 0) = _
  rw [harg]
  split
  · exact Nat.mod_eq_of_lt hword
  · rfl

omit hE in
/-- An operand that names an entry of a table comes back. -/
theorem returned_entry {α : Type} {table : List α} {x : α} {p : Piece} {item : AsmItem} {n : Nat}
    (hp : p ∈ place 0 items sizes args)
    (hresolves : Resolves (assemble name calls) item p.item)
    (hn : item.operand = wordOperand p.item.opcode n) (hx : table[n]? = some x)
    (htable : table.length ≤ wordLimit) (hasArg : p.item.opcode.hasArg = true) :
    table[(p.instruction c fun t => (sizes.take t).sum).arg]? = some x := by
  have hlt := (List.getElem?_eq_some_iff.mp hx).1
  rw [h.arg_eq hp hresolves hn (Nat.lt_of_lt_of_le hlt htable), if_pos hasArg]
  exact hx

/-- A label comes back as the place that it was bound to. -/
theorem returned_label {p : Piece} {item : AsmItem} {l : Nat} (marked : Bool)
    (hp : p ∈ place 0 items sizes args) (hresolves : Resolves (assemble name calls) item p.item)
    (hl : item.operand = .label l) :
    Returned calls c (markTargets (unmarked c items sizes args))
      { p.instruction c (fun t => (sizes.take t).sum) with isJumpTarget := marked } (.label l) := by
  obtain ⟨t, ht, hoperand⟩ := hresolves.label l hl
  rw [lookup_labels] at ht
  refine ⟨t, ht, ?_⟩
  split
  · rename_i hjump
    obtain ⟨t', p', -, ht', hp', hoffset⟩ := h.exists_target hE hp
      (Piece.target?_eq_some.mpr ⟨t, hjump, hoperand, rfl⟩)
    cases hoperand.symm.trans ht'
    obtain ⟨marked', hi', -⟩ := getElem?_stream hp'
    refine ⟨_, hi', ?_⟩
    exact (Piece.target?_eq_some.mpr ⟨t, hjump, hoperand, rfl⟩).trans (congrArg some hoffset.symm)
  · rename_i hjump
    have hkind : p.item.opcode.jumpKind? = none := by
      rw [Bool.not_eq_true, Option.isSome_eq_false_iff, Option.isNone_iff_eq_none] at hjump
      exact hjump
    have hle : t ≤ items.length := length_resolved h.resolved ▸ labelPosition_le ht
    have harg := h.settled.arg_inr hp hkind hoperand hle
    refine ⟨p.arg, by rw [h.startOf_eq, h.dialect]; exact harg, ?_⟩
    change (if p.item.opcode.hasArg then p.arg % wordLimit else 0) = _
    rw [Nat.mod_eq_of_lt (unitsToJumpArg?_lt harg)]
    rfl

/-- Every operand comes back. -/
theorem returned {k : Nat} {e : Emission} (he : (emissions calls)[k]? = some e) :
    ∃ i, (markTargets (unmarked c items sizes args))[k]? = some i ∧ i.opcode = e.opcode
      ∧ i.line = some e.line
      ∧ Returned calls c (markTargets (unmarked c items sizes args)) i e.passed := by
  obtain ⟨item, r, hmeets, hr, hresolves⟩ := exists_resolved h.resolved he
  obtain ⟨p, hp, rfl, -⟩ := h.getElem?_piece hr
  have hmem := List.mem_of_getElem? hp
  have hop : p.item.opcode = e.opcode := hresolves.opcode.trans hmeets.opcode
  obtain ⟨marked, hi, -⟩ := getElem?_stream hp
  refine ⟨_, hi, hop, ?_, ?_⟩
  · rw [← hmeets.line, ← hresolves.line]
    exact h.lineAt?_eq hmem
  · have hoperand := hmeets.operand
    rw [← hop] at hoperand
    cases hpassed : e.passed with
    | word n =>
      rw [hpassed] at hoperand
      exact h.arg_eq hmem hresolves hoperand (hE.words e (List.mem_of_getElem? he) n hpassed)
    | label l =>
      rw [hpassed] at hoperand
      exact h.returned_label hE marked hmem hresolves hoperand
    | constant v =>
      rw [hpassed] at hoperand
      obtain ⟨n, hn, hv⟩ := hoperand
      intro hasArg
      rw [h.constants]
      exact h.returned_entry hmem hresolves hn hv hE.tables.1 hasArg
    | name s =>
      rw [hpassed] at hoperand
      obtain ⟨n, hn, hs⟩ := hoperand
      intro hasArg
      rw [h.names]
      exact h.returned_entry hmem hresolves hn hs hE.tables.2.1 hasArg
    | localVar s =>
      rw [hpassed] at hoperand
      obtain ⟨n, hn, hs⟩ := hoperand
      intro hasArg
      rw [h.varnames]
      exact h.returned_entry hmem hresolves hn hs hE.tables.2.2 hasArg

/-- The marks are where labels of jumps are bound. -/
theorem marked_iff {k : Nat} {p : Piece} (hp : (place 0 items sizes args)[k]? = some p) :
    (∃ i ∈ unmarked c items sizes args, i.target = some p.offset) ↔ ∃ e ∈ emissions calls,
      e.opcode.jumpKind?.isSome = true ∧ ∃ l, e.passed = .label l ∧ labelPosition l calls = some k := by
  obtain ⟨hitem, -, -, hoffset⟩ := getElem?_place hp
  rw [Nat.zero_add] at hoffset
  have hlt := (List.getElem?_eq_some_iff.mp hitem).1
  constructor
  · rintro ⟨i, hi, htarget⟩
    obtain ⟨q, hq, rfl⟩ := List.mem_map.mp hi
    obtain ⟨t, p', hjump, ht, hp', hsame⟩ := h.exists_target hE hq htarget
    obtain ⟨hitem', -, -, hoffset'⟩ := getElem?_place hp'
    rw [Nat.zero_add] at hoffset'
    have hlt' := (List.getElem?_eq_some_iff.mp hitem').1
    rw [← h.settled.sizes_length] at hlt hlt'
    obtain rfl : t = k := eq_of_sum_take_eq h.settled.pos hlt'.le hlt.le (by
      rw [← hoffset', hsame, hoffset])
    obtain ⟨m, hm⟩ := List.mem_iff_getElem?.mp hq
    obtain ⟨item, e, he, hmeets, hresolves⟩ := exists_emission h.resolved (getElem?_place hm).1
    refine ⟨e, List.mem_of_getElem? he, ?_, hresolves.inr hmeets ht⟩
    rw [← hmeets.opcode, ← hresolves.opcode]
    exact hjump
  · rintro ⟨e, he, hjump, l, hpassed, hl⟩
    obtain ⟨m, hm⟩ := List.mem_iff_getElem?.mp he
    obtain ⟨item, r, hmeets, hr, hresolves⟩ := exists_resolved h.resolved hm
    obtain ⟨q, hq, rfl, -⟩ := h.getElem?_piece hr
    refine ⟨_, List.mem_map.mpr ⟨q, List.mem_of_getElem? hq, rfl⟩, ?_⟩
    have hoperand := hmeets.operand
    rw [hpassed] at hoperand
    obtain ⟨t, ht, hinr⟩ := hresolves.label l hoperand
    rw [lookup_labels, hl] at ht
    cases ht
    refine Piece.target?_eq_some.mpr ⟨k, ?_, hinr, hoffset⟩
    rw [hresolves.opcode, hmeets.opcode]
    exact hjump

/-- The decoded stream is the program. -/
theorem reproduces :
    Reproduces name calls c (markTargets (unmarked c items sizes args)) := by
  have hlength := h.length_stream
  -- every instruction of the stream is a piece with a mark
  have hpiece : ∀ {k : Nat} {i : Instruction},
      (markTargets (unmarked c items sizes args))[k]? = some i → ∃ p marked,
        (place 0 items sizes args)[k]? = some p
          ∧ i = { p.instruction c (fun t => (sizes.take t).sum) with isJumpTarget := marked }
          ∧ (marked = true ↔ ∃ i ∈ unmarked c items sizes args, i.target = some p.offset) := by
    intro k i hi
    have hlt : k < items.length := hlength ▸ (List.getElem?_eq_some_iff.mp hi).1
    obtain ⟨p, hp, -, -⟩ := h.getElem?_piece (List.getElem?_eq_getElem hlt)
    obtain ⟨marked, hi', hmarked⟩ := getElem?_stream (c := c) hp
    exact ⟨p, marked, hp, Option.some.inj (hi.symm.trans hi'), hmarked⟩
  refine ⟨hlength.trans (length_resolved h.resolved), fun k e he => h.returned hE he,
    fun k i hi => ?_, fun i hi => ?_, ?_, fun i hi => ?_, fun k i hi => ?_, ?_, ?_, ?_⟩
  · obtain ⟨p, marked, hp, rfl, -⟩ := hpiece hi
    rw [h.startOf_eq]
    exact (getElem?_place hp).2.2.2.trans (Nat.zero_add _)
  · obtain ⟨k, hk⟩ := List.mem_iff_getElem?.mp hi
    obtain ⟨p, marked, hp, rfl, -⟩ := hpiece hk
    exact h.units (List.mem_of_getElem? hp)
  · rw [h.startOf_eq, hlength, ← h.settled.sizes_length, List.take_length]
    exact h.length_code
  · obtain ⟨k, hk⟩ := List.mem_iff_getElem?.mp hi
    obtain ⟨p, marked, hp, rfl, -⟩ := hpiece hk
    refine Bool.eq_iff_iff.mpr ⟨fun hsome => ?_, fun hjump => ?_⟩
    · obtain ⟨x, hx⟩ := Option.isSome_iff_exists.mp hsome
      obtain ⟨-, hjump, -⟩ := Piece.target?_eq_some.mp hx
      exact hjump
    · obtain ⟨t, -, ht⟩ := h.jumps hE (List.mem_of_getElem? (getElem?_place hp).1) hjump
      exact Option.isSome_iff_exists.mpr ⟨_, Piece.target?_eq_some.mpr ⟨t, hjump, ht, rfl⟩⟩
  · obtain ⟨p, marked, hp, rfl, hmarked⟩ := hpiece hi
    exact hmarked.trans (h.marked_iff hE hp)
  · rintro before v after rfl
    rw [h.constants]
    exact getElem?_of_prefix (grows_assemble name before _ after).constants (addConstant_eq _ v).1
  · rintro before s after rfl
    rw [h.names]
    exact getElem?_of_prefix (grows_assemble name before _ after).names intern_eq.1
  · rintro before s after rfl
    rw [h.varnames]
    exact getElem?_of_prefix (grows_assemble name before _ after).varnames intern_eq.1

end Program

end Assembled

/-! ## 7. Programs -/

/-- **Assembling and decoding gives the program back.** -/
theorem decode_assembled {serial : Nat} (hE : Encodable name calls)
    (hfinish : (assemble name calls).finish serial = .ok c) (hsize : c.code.length < 2 * wordLimit) :
    ∃ s, InstructionStream.decode c = .ok s ∧ s.dialect = (assemble name calls).dialect
      ∧ Reproduces name calls c s.instructions := by
  obtain ⟨items, sizes, args, h⟩ := finish_eq_ok hfinish
  have htotal : sizes.sum < wordLimit := by
    have := h.length_code
    omega
  exact ⟨_, h.decode_eq hE htotal, h.dialect, h.reproduces hE⟩

/-- A loop that is entered by a jump over an operand with two extensions. -/
def enteredLoop : List Call := [
  .setLine 7, .emitJump .jumpForward 1, .emit .buildTuple 70000, .bindLabel 0,
  .emitConstant .loadConst .none, .setLine 8, .bindLabel 1, .emitName .loadGlobal "x",
  .emitJump .jumpAbsolute 0]

/-- It is laid out with a gap of three units, and its jumps lead over it and back to its end. -/
theorem enteredLoop_layout : (match (assemble "f" enteredLoop).finish 0 with
    | .error _ => false
    | .ok c => c.code.length == 14 && match InstructionStream.decode c with
      | .error _ => false
      | .ok s => s.instructions.map (fun i => (i.offset, i.size, i.target)) == [(0, 1, some 5),
        (1, 3, none), (4, 1, none), (5, 1, none), (6, 1, some 4)]) = true := by
  simp only [InstructionStream.decode, strayJump?_eq]
  decide +kernel

theorem decode_assembled_enteredLoop : ∃ c s, (assemble "f" enteredLoop).finish 0 = .ok c
    ∧ InstructionStream.decode c = .ok s ∧ Reproduces "f" enteredLoop c s.instructions
    ∧ s.instructions.map (fun i => (i.offset, i.size, i.target)) = [(0, 1, some 5), (1, 3, none),
      (4, 1, none), (5, 1, none), (6, 1, some 4)] := by
  have hE : Encodable "f" enteredLoop := by
    have hemissions : emissions enteredLoop = [⟨.jumpForward, .label 1, 7⟩,
      ⟨.buildTuple, .word 70000, 7⟩, ⟨.loadConst, .constant .none, 7⟩, ⟨.loadGlobal, .name "x", 8⟩,
      ⟨.jumpAbsolute, .label 0, 8⟩] := rfl
    refine ⟨by decide, by decide, ?_, ?_, by decide⟩
    · rw [hemissions]
      simp only [List.forall_mem_cons]
      refine ⟨fun _ => ⟨1, 3, rfl, rfl, by decide⟩, fun h => (by cases h), fun h => (by cases h),
        fun h => (by cases h), fun _ => ⟨0, 2, rfl, rfl, by decide⟩, List.forall_mem_nil _⟩
    · rw [hemissions]
      simp only [List.forall_mem_cons]
      refine ⟨fun _ h => (by cases h), fun _ h => ?_, fun _ h => (by cases h),
        fun _ h => (by cases h), fun _ h => (by cases h), List.forall_mem_nil _⟩
      cases h
      decide
  have hrun := enteredLoop_layout
  split at hrun
  · cases hrun
  · rename_i c hc
    rw [Bool.and_eq_true, beq_iff_eq] at hrun
    have hlength : c.code.length < 2 * wordLimit := by
      rw [hrun.1]
      decide
    obtain ⟨s, hs, -, hreproduces⟩ := decode_assembled hE hc hlength
    refine ⟨c, s, hc, hs, hreproduces, ?_⟩
    have hlayout := hrun.2
    rw [hs] at hlayout
    exact beq_iff_eq.mp hlayout

end Assembler

end Stackwise
