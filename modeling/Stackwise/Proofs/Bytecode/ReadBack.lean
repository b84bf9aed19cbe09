import Mathlib.Data.List.Chain
import Mathlib.Tactic.IntervalCases
import Stackwise.Proofs.Bytecode.Placement
import Stackwise.Proofs.Bytecode.Streams

/-!
# Reading back what was assembled

The bytes of placed instructions, read by the decoder.

* `InstructionStream.fold_encode`: an instruction is read back with the operand that it was written
  with, extensions folded in.
* `Assembler.lineIn_place`: every instruction finds its own line in the line table.
* `Assembler.fold_place`: placed instructions are read back one after the other.
* `Assembler.Settled.resolveJump?_eq`: a jump leads to the place of its target.
-/

namespace Stackwise

/-! ## 1. Opcodes -/

namespace Opcode

theorem getElem?_all (op : Opcode) : all[op.ctorIdx]? = some op := by
  cases op <;> rfl

/-- The opcodes are listed by their bytes. -/
theorem all_ascending : all.Pairwise fun a b => a.byte.toNat < b.byte.toNat := by
  have hchain : (all.map fun op => op.byte.toNat).IsChain (· < ·) := by decide +kernel
  exact List.pairwise_map.mp (List.isChain_iff_pairwise.mp hchain)

theorem byte_injective {a b : Opcode} (h : a.byte = b.byte) : a = b := by
  have hnot : ∀ {a b : Opcode}, a.byte = b.byte → ¬ a.ctorIdx < b.ctorIdx := by
    intro a b h hlt
    obtain ⟨ha, hat⟩ := List.getElem?_eq_some_iff.mp (getElem?_all a)
    obtain ⟨hb, hbt⟩ := List.getElem?_eq_some_iff.mp (getElem?_all b)
    have := List.pairwise_iff_getElem.mp all_ascending _ _ ha hb hlt
    rw [hat, hbt, h] at this
    exact Nat.lt_irrefl _ this
  have hidx : a.ctorIdx = b.ctorIdx := by
    have := hnot h
    have := hnot h.symm
    omega
  exact Option.some.inj ((getElem?_all a).symm.trans (hidx ▸ getElem?_all b))

theorem ofByte?_byte {op : Opcode} {d : Dialect} (h : op.existsIn d = true) :
    ofByte? op.byte d = some op := by
  have hsome : (all.find? (·.byte == op.byte)).isSome = true :=
    List.find?_isSome.mpr ⟨op, List.mem_of_getElem? (getElem?_all op), beq_self_eq_true _⟩
  obtain ⟨x, hx⟩ := Option.isSome_iff_exists.mp hsome
  have hbyte := List.find?_some hx
  obtain rfl := byte_injective (beq_iff_eq.mp hbyte)
  rw [ofByte?, hx, Option.filter_some, if_pos h]

theorem hasArg_of_jumpKind? {op : Opcode} {kind : JumpKind} (h : op.jumpKind? = some kind) :
    op.hasArg = true := by
  cases op <;> first | rfl | cases h

end Opcode

/-! ## 2. Operands -/

namespace InstructionStream

open Assembler

theorem unitsOf_flatMap {α : Type} (f g : α → UInt8) (xs : List α) (rest : List UInt8) :
    unitsOf ((xs.flatMap fun x => [f x, g x]) ++ rest)
      = (xs.map fun x => (f x, g x)) ++ unitsOf rest := by
  induction xs with
  | nil => rfl
  | cons x xs ih =>
    rw [List.flatMap_cons, List.append_assoc, List.map_cons, List.cons_append]
    exact congrArg _ ih

/-- The operand extensions of an instruction, from the highest byte down. -/
def prefixUnits (n arg : Nat) : List (UInt8 × UInt8) :=
  (List.range n).reverse.map fun i => (Opcode.extendedArg.byte, UInt8.ofNat (arg / 256 ^ (i + 1)))

theorem unitsOf_encode (op : Opcode) (size arg : Nat) (rest : List UInt8) :
    unitsOf (encode op size arg ++ rest)
      = prefixUnits (size - 1) arg ++ (op.byte, UInt8.ofNat arg) :: unitsOf rest := by
  rw [encode, List.append_assoc, unitsOf_flatMap]
  rfl

/-- Extensions accumulate the upper bytes of an operand. -/
theorem fold_prefixUnits (c : CodeObject) (arg n : Nat) {u : Nat} {x : Extension}
    {done : List Instruction} {rest : List (UInt8 × UInt8)}
    (hx : x.arg = arg / 256 ^ (n + 1) * 256 % wordLimit) :
    fold c u x done (prefixUnits n arg ++ rest)
      = fold c (u + n) ⟨arg / 256 * 256 % wordLimit, if n = 0 then x.start else some (x.start.getD u)⟩
        done rest := by
  induction n generalizing u x with
  | zero =>
    rw [Nat.zero_add, Nat.pow_one] at hx
    rw [← hx, if_pos rfl]
    rfl
  | succ n ih =>
    have hunits : prefixUnits (n + 1) arg
        = (Opcode.extendedArg.byte, UInt8.ofNat (arg / 256 ^ (n + 1))) :: prefixUnits n arg := by
      rw [prefixUnits, List.range_succ, List.reverse_append, List.reverse_singleton,
        List.singleton_append, List.map_cons, prefixUnits]
    have hbyte : Opcode.ofByte? Opcode.extendedArg.byte c.dialect = some .extendedArg :=
      Opcode.ofByte?_byte rfl
    rw [hunits, List.cons_append, fold, hbyte]
    dsimp only
    rw [ih]
    · rw [if_neg (Nat.succ_ne_zero n), Nat.add_assoc, Nat.add_comm 1 n]
      have hstart : (x.push u (UInt8.ofNat (arg / 256 ^ (n + 1)))).start = some (x.start.getD u) := rfl
      rw [hstart, Option.getD_some, ite_self]
    · have hdiv : arg / 256 ^ (n + 1 + 1) = arg / 256 ^ (n + 1) / 256 := by
        rw [Nat.pow_succ 256 (n + 1), Nat.div_div_eq_div_mul]
      rw [hdiv] at hx
      change (x.arg + (UInt8.ofNat (arg / 256 ^ (n + 1))).toNat) * 256 % wordLimit = _
      rw [UInt8.toNat_ofNat', hx]
      generalize arg / 256 ^ (n + 1) = q
      unfold wordLimit
      omega

/-- Bytes beyond the thirty-second bit are not written. -/
theorem encode_mod (op : Opcode) {size : Nat} (arg : Nat) (hsize : size ≤ 4) :
    encode op size (arg % wordLimit) = encode op size arg := by
  have hbyte : ∀ i < 4, UInt8.ofNat (arg % wordLimit / 256 ^ i) = UInt8.ofNat (arg / 256 ^ i) := by
    intro i hi
    refine UInt8.toNat_inj.mp ?_
    rw [UInt8.toNat_ofNat', UInt8.toNat_ofNat']
    unfold wordLimit
    interval_cases i <;> omega
  have hlast := hbyte 0 (by omega)
  rw [Nat.pow_zero, Nat.div_one, Nat.div_one] at hlast
  rw [encode, encode, hlast]
  refine congrArg (· ++ _) (List.flatMap_congr fun i hi => ?_)
  have hi := List.mem_range.mp (List.mem_reverse.mp hi)
  change [_, UInt8.ofNat (arg % wordLimit / 256 ^ (i + 1))] = _
  rw [hbyte (i + 1) (by omega)]
  rfl

theorem mod_lt_pow (arg : Nat) : arg % wordLimit < 256 ^ (1 + extensions arg) := by
  unfold extensions wordLimit
  split
  · change _ < 256
    omega
  · split
    · change _ < 65536
      omega
    · split
      · change _ < 16777216
        omega
      · exact Nat.mod_lt _ (by decide)

/-- The instruction that an opcode completes. -/
theorem complete_eq {c : CodeObject} {x : Extension} {unit u size arg : Nat} {op : Opcode} {b : UInt8}
    {target : Option Nat} (hsupported : op.isSupported = true) (hoffset : x.start.getD unit = u)
    (hsize : unit + 1 - u = size) (harg : x.arg + b.toNat = arg)
    (hplain : op.jumpKind? = none → target = none)
    (hjump : ∀ kind, op.jumpKind? = some kind →
      target.isSome = true ∧ resolveJump? c.dialect kind unit arg = target) :
    complete c x unit op b
      = .ok ⟨u, op, if op.hasArg then arg else 0, size, target, false, c.lineAt? u⟩ := by
  unfold complete
  simp only [hsupported, hoffset, hsize, harg, Bool.not_true, Bool.false_eq_true, if_false]
  cases hkind : op.jumpKind? with
  | none =>
    rw [hplain hkind]
  | some kind =>
    obtain ⟨hsome, hresolve⟩ := hjump kind hkind
    obtain ⟨t, rfl⟩ := Option.isSome_iff_exists.mp hsome
    rw [Opcode.hasArg_of_jumpKind? hkind, if_pos rfl]
    dsimp only
    rw [hresolve]

/-- **Reading back one instruction.** -/
theorem fold_encode {c : CodeObject} {op : Opcode} {size arg u : Nat} {target : Option Nat}
    {done : List Instruction} {rest : List UInt8} (hknown : op.existsIn c.dialect = true)
    (hsupported : op.isSupported = true) (hfits : 1 + extensions arg ≤ size) (hsize : size ≤ 4)
    (hplain : op.jumpKind? = none → target = none)
    (hjump : ∀ kind, op.jumpKind? = some kind →
      target.isSome = true ∧ resolveJump? c.dialect kind (u + size - 1) (arg % wordLimit) = target) :
    fold c u {} done (unitsOf (encode op size arg ++ rest))
      = fold c (u + size) {} (⟨u, op, if op.hasArg then arg % wordLimit else 0, size, target, false,
        c.lineAt? u⟩ :: done) (unitsOf rest) := by
  have hpos : 0 < size := by omega
  have hlt : arg % wordLimit < 256 ^ size :=
    Nat.lt_of_lt_of_le (mod_lt_pow arg) (Nat.pow_le_pow_right (by decide) hfits)
  have hword : arg % wordLimit < wordLimit := Nat.mod_lt _ (by decide)
  rw [← encode_mod op arg hsize]
  generalize arg % wordLimit = arg at hlt hword hjump ⊢
  rw [unitsOf_encode, fold_prefixUnits c arg (size - 1)]
  · have hext : op ≠ .extendedArg := by
      rintro rfl
      cases hsupported
    have hoffset : (if size - 1 = 0 then none else some u : Option Nat).getD (u + (size - 1)) = u := by
      split
      · rw [Option.getD_none]
        omega
      · rfl
    have harg : arg / 256 * 256 % wordLimit + (UInt8.ofNat arg).toNat = arg := by
      rw [UInt8.toNat_ofNat']
      unfold wordLimit at hword ⊢
      omega
    have hcomplete : complete c ⟨arg / 256 * 256 % wordLimit, if size - 1 = 0 then none else some u⟩
        (u + (size - 1)) op (UInt8.ofNat arg)
          = .ok ⟨u, op, if op.hasArg then arg else 0, size, target, false, c.lineAt? u⟩ := by
      refine complete_eq hsupported hoffset (by omega) harg hplain fun kind hkind => ?_
      rw [← Nat.add_sub_assoc hpos]
      exact hjump kind hkind
    rw [fold, Opcode.ofByte?_byte hknown]
    split
    · rename_i heq
      cases heq
    · rename_i heq
      cases heq
      exact absurd rfl hext
    · rename_i heq
      cases heq
      have hstart : (if size - 1 = 0 then ({} : Extension).start else
          some (({} : Extension).start.getD u)) = if size - 1 = 0 then none else some u := rfl
      rw [hstart, hcomplete]
      dsimp only
      rw [Nat.add_assoc, Nat.sub_add_cancel hpos]
  · rw [Nat.sub_add_cancel hpos, Nat.div_eq_of_lt hlt]
    rfl

end InstructionStream

namespace Assembler

open InstructionStream

variable {o : Nat} {items : List Resolved} {sizes args : List Nat} {p : Piece}

/-! ## 3. Lines -/

/-- The line of the first entry that covers an offset. -/
def lineIn (table : List LineEntry) (o : Nat) : Option Nat :=
  (table.find? fun e => e.start ≤ o && o < e.stop).map (·.line)

theorem lineIn_snoc (table : List LineEntry) (e : LineEntry) (o : Nat) : lineIn (table ++ [e]) o
    = (lineIn table o).or (if e.start ≤ o ∧ o < e.stop then some e.line else none) := by
  unfold lineIn
  rw [List.find?_append]
  cases table.find? fun e => e.start ≤ o && o < e.stop with
  | some e' => rfl
  | none =>
    rw [Option.none_or, Option.map_none, Option.none_or, List.find?_singleton]
    simp only [Bool.and_eq_true, decide_eq_true_eq]
    split <;> rfl

/-- The entries of a table (newest first) end by `u`, the newest of them at `u`. -/
structure EndsAt (u : Nat) (table : List LineEntry) : Prop where
  within : ∀ e ∈ table, e.start ≤ u ∧ e.stop ≤ u
  newest : ∀ e, table.head? = some e → e.stop = u

theorem EndsAt.lineIn_eq_none {u : Nat} {table : List LineEntry}
    (h : ∀ e ∈ table, e.start ≤ u ∧ e.stop ≤ u) : lineIn table.reverse u = none := by
  rw [lineIn, Option.map_eq_none_iff, List.find?_eq_none]
  intro e he
  have := (h e (List.mem_reverse.mp he)).2
  simp only [Bool.and_eq_true, decide_eq_true_eq]
  omega

/-- A line that is added covers its units and leaves those before alone. -/
theorem EndsAt.addLine {u s : Nat} {table : List LineEntry} (h : EndsAt u table) (hs : 0 < s)
    (line : Nat) : EndsAt (u + s) (addLine table u (u + s) line)
      ∧ (∀ o < u, lineIn (addLine table u (u + s) line).reverse o = lineIn table.reverse o)
      ∧ lineIn (addLine table u (u + s) line).reverse u = some line := by
  have hwithin : ∀ {table : List LineEntry}, (∀ e ∈ table, e.start ≤ u ∧ e.stop ≤ u) →
      ∀ e ∈ table, e.start ≤ u + s ∧ e.stop ≤ u + s := by
    intro table h e he
    have := h e he
    omega
  have hnew : EndsAt (u + s) (⟨u, u + s, line⟩ :: table)
      ∧ (∀ o < u, lineIn (⟨u, u + s, line⟩ :: table).reverse o = lineIn table.reverse o)
      ∧ lineIn (⟨u, u + s, line⟩ :: table).reverse u = some line := by
    refine ⟨⟨List.forall_mem_cons.mpr ⟨⟨Nat.le_add_right u s, Nat.le_refl _⟩, hwithin h.within⟩, ?_⟩, ?_, ?_⟩
    · rintro e ⟨⟩
      rfl
    · intro o ho
      rw [List.reverse_cons, lineIn_snoc, if_neg (by dsimp only; omega), Option.or_none]
    · rw [List.reverse_cons, lineIn_snoc, lineIn_eq_none h.within, Option.none_or,
        if_pos ⟨Nat.le_refl u, by dsimp only; omega⟩]
  cases table with
  | nil => exact hnew
  | cons e es =>
    rw [Assembler.addLine]
    split
    · rename_i hline
      obtain ⟨he, hes⟩ := List.forall_mem_cons.mp h.within
      have hstop := h.newest e rfl
      refine ⟨⟨List.forall_mem_cons.mpr ⟨⟨by dsimp only; omega, Nat.le_refl _⟩, hwithin hes⟩, ?_⟩, ?_, ?_⟩
      · rintro e' ⟨⟩
        rfl
      · intro o ho
        rw [List.reverse_cons, List.reverse_cons, lineIn_snoc, lineIn_snoc]
        have hcovers : (e.start ≤ o ∧ o < u + s) ↔ (e.start ≤ o ∧ o < e.stop) := by omega
        simp only [hcovers]
      · rw [List.reverse_cons, lineIn_snoc, EndsAt.lineIn_eq_none hes, Option.none_or, if_pos, hline]
        dsimp only
        omega
    · exact hnew

/-- Adds the line of an instruction to a table. -/
def addPiece (table : List LineEntry) (p : Piece) : List LineEntry :=
  addLine table p.offset (p.offset + p.size) p.item.line

theorem foldl_addLine (table : List LineEntry) (hsizes : sizes.length = items.length)
    (hargs : args.length = items.length) :
    (items.zip ((offsetsFrom o sizes).zip sizes)).foldl
        (fun table (item, o, s) => addLine table o (o + s) item.line) table
      = (place o items sizes args).foldl addPiece table := by
  induction items generalizing o sizes args table with
  | nil => rfl
  | cons item items ih =>
    obtain ⟨size, sizes, rfl⟩ := List.exists_cons_of_length_eq_add_one hsizes
    obtain ⟨arg, args, rfl⟩ := List.exists_cons_of_length_eq_add_one hargs
    rw [offsetsFrom, List.zip_cons_cons, List.zip_cons_cons, List.foldl_cons, place, List.foldl_cons]
    exact ih _ (Nat.succ.inj hsizes) (Nat.succ.inj hargs)

/-- **Every instruction finds its own line.** -/
theorem lineIn_place {table : List LineEntry} (h : EndsAt o table)
    (hpos : ∀ p ∈ place o items sizes args, 0 < p.size) :
    (∀ u < o, lineIn ((place o items sizes args).foldl addPiece table).reverse u
        = lineIn table.reverse u)
      ∧ ∀ p ∈ place o items sizes args,
        lineIn ((place o items sizes args).foldl addPiece table).reverse p.offset
          = some p.item.line := by
  induction items generalizing o sizes args table with
  | nil =>
    rw [place.eq_def]
    exact ⟨fun _ _ => rfl, List.forall_mem_nil _⟩
  | cons item items ih =>
    cases sizes with
    | nil => exact ⟨fun _ _ => rfl, List.forall_mem_nil _⟩
    | cons size sizes =>
      cases args with
      | nil => exact ⟨fun _ _ => rfl, List.forall_mem_nil _⟩
      | cons arg args =>
        rw [place] at hpos ⊢
        obtain ⟨hsize, hpos⟩ := List.forall_mem_cons.mp hpos
        obtain ⟨hends, hbefore, hhere⟩ := h.addLine hsize item.line
        obtain ⟨hkept, hlines⟩ := ih hends hpos
        rw [List.foldl_cons]
        refine ⟨fun u hu => (hkept u (by omega)).trans (hbefore u hu), List.forall_mem_cons.mpr ⟨?_, hlines⟩⟩
        exact (hkept o (Nat.lt_add_of_pos_right hsize)).trans hhere

/-! ## 4. Code -/

namespace Piece

/-- The bytes of an instruction. -/
def bytes (p : Piece) : List UInt8 := encode p.item.opcode p.size p.arg

/-- Where a jump lands, if position `k` starts at `starts k`. -/
def target? (starts : Nat → Nat) (p : Piece) : Option Nat :=
  match p.item.opcode.jumpKind?, p.item.operand with
  | some _, .inr t => some (starts t)
  | _, _ => none

theorem target?_eq_some {starts : Nat → Nat} {p : Piece} {x : Nat} : p.target? starts = some x
    ↔ ∃ t, p.item.opcode.jumpKind?.isSome = true ∧ p.item.operand = .inr t ∧ x = starts t := by
  unfold target?
  cases p.item.opcode.jumpKind? <;> cases p.item.operand <;> simp [eq_comm]

/-- The instruction that is read back. -/
def instruction (c : CodeObject) (starts : Nat → Nat) (p : Piece) : Instruction where
  offset := p.offset
  opcode := p.item.opcode
  arg := if p.item.opcode.hasArg then p.arg % wordLimit else 0
  size := p.size
  target := p.target? starts
  isJumpTarget := false
  line := c.lineAt? p.offset

/-- What makes an instruction readable. -/
structure Readable (c : CodeObject) (starts : Nat → Nat) (p : Piece) : Prop where
  known : p.item.opcode.existsIn c.dialect = true
  supported : p.item.opcode.isSupported = true
  fits : 1 + extensions p.arg ≤ p.size
  le_four : p.size ≤ 4
  jump : ∀ kind, p.item.opcode.jumpKind? = some kind → ∃ t, p.item.operand = .inr t
    ∧ resolveJump? c.dialect kind (p.offset + p.size - 1) (p.arg % wordLimit) = some (starts t)

theorem Readable.fold {c : CodeObject} {starts : Nat → Nat} (h : p.Readable c starts)
    {done : List Instruction} {rest : List UInt8} :
    fold c p.offset {} done (unitsOf (p.bytes ++ rest))
      = fold c (p.offset + p.size) {} (p.instruction c starts :: done) (unitsOf rest) := by
  refine fold_encode h.known h.supported h.fits h.le_four (fun hnone => ?_) fun kind hkind => ?_
  · rw [target?, hnone]
  · obtain ⟨t, ht, hresolve⟩ := h.jump kind hkind
    have htarget : p.target? starts = some (starts t) := by rw [target?, hkind, ht]
    rw [htarget]
    exact ⟨rfl, hresolve⟩

end Piece

theorem flatMap_encode (o : Nat) (hsizes : sizes.length = items.length)
    (hargs : args.length = items.length) :
    ((items.zip (sizes.zip args)).flatMap fun (i, s, arg) => encode i.opcode s arg)
      = (place o items sizes args).flatMap Piece.bytes := by
  induction items generalizing o sizes args with
  | nil => rfl
  | cons item items ih =>
    obtain ⟨size, sizes, rfl⟩ := List.exists_cons_of_length_eq_add_one hsizes
    obtain ⟨arg, args, rfl⟩ := List.exists_cons_of_length_eq_add_one hargs
    rw [List.zip_cons_cons, List.zip_cons_cons, List.flatMap_cons, place, List.flatMap_cons,
      ih (o + size) (Nat.succ.inj hsizes) (Nat.succ.inj hargs)]
    rfl

/-- **Reading back** what was placed. -/
theorem fold_place {c : CodeObject} {starts : Nat → Nat} {done : List Instruction}
    (h : ∀ p ∈ place o items sizes args, p.Readable c starts) :
    fold c o {} done (unitsOf ((place o items sizes args).flatMap Piece.bytes))
      = .ok (done.reverse ++ (place o items sizes args).map (Piece.instruction c starts)) := by
  induction items generalizing o sizes args done with
  | nil =>
    rw [place.eq_def, List.map_nil, List.append_nil]
    rfl
  | cons item items ih =>
    cases sizes with
    | nil => rw [place.eq_def, List.map_nil, List.append_nil]; rfl
    | cons size sizes =>
      cases args with
      | nil => rw [place.eq_def, List.map_nil, List.append_nil]; rfl
      | cons arg args =>
        rw [place] at h ⊢
        obtain ⟨hp, hrest⟩ := List.forall_mem_cons.mp h
        rw [List.flatMap_cons, hp.fold, ih hrest, List.map_cons, List.reverse_cons, List.append_assoc,
          List.singleton_append]

theorem length_encode (op : Opcode) {size : Nat} (arg : Nat) (h : 0 < size) :
    (encode op size arg).length = 2 * size := by
  have hflat : ∀ (xs : List Nat) (f : Nat → List UInt8), (∀ x, (f x).length = 2) →
      (xs.flatMap f).length = 2 * xs.length := by
    intro xs f hf
    induction xs with
    | nil => rfl
    | cons x xs ih =>
      rw [List.flatMap_cons, List.length_append, ih, hf, List.length_cons]
      omega
  rw [encode, List.length_append, hflat _ _ fun _ => rfl, List.length_reverse, List.length_range,
    List.length_cons, List.length_singleton]
  omega

theorem length_code (hsizes : sizes.length = items.length) (hargs : args.length = items.length)
    (hpos : ∀ p ∈ place o items sizes args, 0 < p.size) :
    ((place o items sizes args).flatMap Piece.bytes).length = 2 * sizes.sum := by
  induction items generalizing o sizes args with
  | nil =>
    rw [List.length_eq_zero_iff.mp hsizes]
    rfl
  | cons item items ih =>
    obtain ⟨size, sizes, rfl⟩ := List.exists_cons_of_length_eq_add_one hsizes
    obtain ⟨arg, args, rfl⟩ := List.exists_cons_of_length_eq_add_one hargs
    rw [place] at hpos ⊢
    obtain ⟨hp, hrest⟩ := List.forall_mem_cons.mp hpos
    rw [List.flatMap_cons, List.length_append, ih (Nat.succ.inj hsizes) (Nat.succ.inj hargs) hrest,
      Piece.bytes, length_encode _ _ hp, List.sum_cons]
    dsimp only
    omega

theorem place_offset_le (hp : p ∈ place o items sizes args) : o ≤ p.offset := by
  obtain ⟨k, hk⟩ := List.mem_iff_getElem?.mp hp
  obtain ⟨-, -, -, hoffset⟩ := getElem?_place hk
  omega

/-- The bytes of an instruction are found behind those of the instructions before. -/
theorem take_drop_place (hsizes : sizes.length = items.length) (hargs : args.length = items.length)
    (hpos : ∀ p ∈ place o items sizes args, 0 < p.size) (hp : p ∈ place o items sizes args) :
    (((place o items sizes args).flatMap Piece.bytes).drop (2 * (p.offset - o))).take (2 * p.size)
      = p.bytes := by
  induction items generalizing o sizes args with
  | nil =>
    rw [place.eq_def] at hp
    cases hp
  | cons item items ih =>
    obtain ⟨size, sizes, rfl⟩ := List.exists_cons_of_length_eq_add_one hsizes
    obtain ⟨arg, args, rfl⟩ := List.exists_cons_of_length_eq_add_one hargs
    rw [place] at hpos hp ⊢
    obtain ⟨hsize, hpos⟩ := List.forall_mem_cons.mp hpos
    rw [List.flatMap_cons]
    have hlength : (Piece.bytes ⟨item, o, size, arg⟩).length = 2 * size := length_encode _ _ hsize
    rcases List.mem_cons.mp hp with rfl | hp
    · rw [Nat.sub_self, Nat.mul_zero, List.drop_zero]
      exact List.take_left' hlength
    · have hle := place_offset_le hp
      have hoffset : 2 * (p.offset - o) = 2 * size + 2 * (p.offset - (o + size)) := by omega
      rw [hoffset, ← hlength, List.drop_length_add_append]
      exact ih (Nat.succ.inj hsizes) (Nat.succ.inj hargs) hpos hp

/-! ## 5. Jumps -/

theorem resolveJump?_jumpArg {d : Dialect} (kind : JumpKind) {units arg : Nat} (unit : Nat)
    (h : d.unitsToJumpArg? units = some arg) : resolveJump? d kind unit (arg % wordLimit)
      = match kind with
        | .absolute => some units
        | .relative => if units + (unit + 1) < wordLimit then some (units + (unit + 1)) else none := by
  unfold Dialect.unitsToJumpArg? at h
  dsimp only at h
  split at h
  · rename_i hword
    cases h
    have hunits : d.jumpArgToUnits? (units * 2 / d.jumpUnitBytes % wordLimit) = some units := by
      unfold Dialect.jumpArgToUnits? Dialect.jumpUnitBytes
      unfold wordLimit at hword ⊢
      cases d <;> dsimp only <;> rw [if_pos] <;> first | omega | (congr 1; omega)
    have heven : (d == .v39 && units * 2 / d.jumpUnitBytes % wordLimit % 2 != 0) = false := by
      cases d with
      | v310 => rfl
      | v39 =>
        have : units * 2 / 1 % wordLimit % 2 = 0 := by
          unfold wordLimit
          omega
        change (true && units * 2 / 1 % wordLimit % 2 != 0) = false
        rw [this]
        rfl
    rw [resolveJump?, heven, hunits]
    cases kind <;> rfl
  · cases h

theorem unitsToJumpArg?_lt {d : Dialect} {units arg : Nat} (h : d.unitsToJumpArg? units = some arg) :
    arg < wordLimit := by
  unfold Dialect.unitsToJumpArg? at h
  dsimp only at h
  split at h
  · cases h
    exact Nat.lt_of_le_of_lt (Nat.div_le_self _ _) ‹_›
  · cases h

theorem Settled.arg_inl {d : Dialect} {n : Nat} (hs : Settled d items sizes args)
    (hp : p ∈ place 0 items sizes args) (hn : p.item.operand = .inl n) : p.arg = n := by
  have hoperand := hs.operand p hp
  rw [operandOf, hn] at hoperand
  exact (Except.ok.inj hoperand).symm

/-- A label in the place of a number counts as its offset. -/
theorem Settled.arg_inr {d : Dialect} {t : Nat} (hs : Settled d items sizes args)
    (hp : p ∈ place 0 items sizes args) (hkind : p.item.opcode.jumpKind? = none)
    (ht : p.item.operand = .inr t) (hle : t ≤ items.length) :
    d.unitsToJumpArg? (sizes.take t).sum = some p.arg := by
  obtain ⟨-, harg⟩ := (operandOf_inr ht).mp (hs.operand p hp)
  rw [hkind, if_neg (by simp), getD_offsets (hs.sizes_length.symm ▸ hle)] at harg
  exact harg

/-- **A placed jump leads to the place of its target.** -/
theorem Settled.resolveJump?_eq {d : Dialect} {kind : JumpKind} {t : Nat}
    (hs : Settled d items sizes args) (htotal : sizes.sum < wordLimit)
    (hp : p ∈ place 0 items sizes args) (hkind : p.item.opcode.jumpKind? = some kind)
    (ht : p.item.operand = .inr t) (hle : t ≤ items.length) :
    resolveJump? d kind (p.offset + p.size - 1) (p.arg % wordLimit) = some (sizes.take t).sum := by
  obtain ⟨hforward, harg⟩ := (operandOf_inr ht).mp (hs.operand p hp)
  have hpos := hs.fits p hp
  have htarget := Nat.lt_of_le_of_lt (sum_take_le sizes t) htotal
  rw [getD_offsets (hs.sizes_length.symm ▸ hle), hkind] at hforward harg
  generalize (sizes.take t).sum = target at hforward harg htarget ⊢
  cases kind with
  | absolute =>
    rw [if_neg (by simp)] at harg
    exact resolveJump?_jumpArg .absolute _ harg
  | relative =>
    rw [if_pos rfl] at harg
    have hle := hforward rfl
    have hsum : target - (p.offset + p.size) + (p.offset + p.size - 1 + 1) = target := by omega
    rw [resolveJump?_jumpArg .relative _ harg]
    dsimp only
    rw [hsum, if_pos htarget]

end Assembler

end Stackwise
