import Stackwise.Proofs.Bytecode.ReadBack
import Stackwise.Proofs.Bytecode.Streams

/-!
# The grammar of instruction streams

Which byte strings are instruction streams, said without the decoder: a code object is spelled by
groups of code units, each some extensions and an opcode behind them.

* `UnitGroup`: the code units of one instruction, with the operand and the jump target that they
  spell.
* `UnitGroup.Spells`: a code object is the bytes of some groups, and every jump leads to the first
  unit of a group.
* `InstructionStream.Renders`: a stream has one instruction for each group, with all its parts.
* `InstructionStream.decode_iff_spells`: decoding accepts exactly what groups spell, and gives the
  stream that renders them.
-/

namespace Stackwise

/-! ## 1. Groups -/

/-- The code units of one instruction. -/
structure UnitGroup where
  /-- The operand bytes of its extensions. -/
  extensions : List UInt8
  /-- The operation. -/
  opcode : Opcode
  /-- The operand byte beside the opcode. -/
  operand : UInt8

/-- The code units that a jump operand counts. -/
def Dialect.unitsOfArg (d : Dialect) (arg : Nat) : Nat :=
  match d with
  | .v39 => arg / 2
  | .v310 => arg

/-- The offset that a jump operand names, `next` being the offset after the jump. -/
def Dialect.landing (d : Dialect) (next arg : Nat) : JumpKind → Nat
  | .relative => next + d.unitsOfArg arg
  | .absolute => d.unitsOfArg arg

namespace UnitGroup

/-- The code units. -/
def units (g : UnitGroup) : List (UInt8 × UInt8) :=
  (g.extensions.map fun b => (Opcode.extendedArg.byte, b)) ++ [(g.opcode.byte, g.operand)]

/-- The bytes of code units. -/
def bytesOf (us : List (UInt8 × UInt8)) : List UInt8 := us.flatMap fun u => [u.1, u.2]

/-- The bytes. -/
def bytes (g : UnitGroup) : List UInt8 := bytesOf g.units

/-- Number of code units. -/
def size (g : UnitGroup) : Nat := g.extensions.length + 1

/-- The number whose bytes follow those of `n`, the highest first. -/
def numberFrom (n : Nat) (bs : List UInt8) : Nat := bs.foldl (fun n b => n * 256 + b.toNat) n

/-- The operand: the low 32 bits of all operand bytes. -/
def arg (g : UnitGroup) : Nat :=
  if g.opcode.hasArg then numberFrom 0 (g.extensions ++ [g.operand]) % wordLimit else 0

/-- The offset that a jump leads to whose group starts at `o`. Relative jumps count from the end of
the group. -/
def target? (d : Dialect) (o : Nat) (g : UnitGroup) : Option Nat :=
  g.opcode.jumpKind?.map (d.landing (o + g.size) g.arg)

/-- The offset of group `k`: the sum of the sizes of the groups before it. -/
def groupOffset (gs : List UnitGroup) (k : Nat) : Nat := ((gs.take k).map size).sum

/-- Some group jumps to the offset `o`. -/
def JumpTo (gs : List UnitGroup) (d : Dialect) (o : Nat) : Prop :=
  ∃ (k : Nat) (g : UnitGroup), gs[k]? = some g ∧ g.target? d (groupOffset gs k) = some o

/-- Groups that spell a code object. -/
structure Spells (gs : List UnitGroup) (c : CodeObject) : Prop where
  code : c.code = gs.flatMap bytes
  /-- The dialect has the opcodes. -/
  known : ∀ g ∈ gs, g.opcode.existsIn c.dialect = true
  /-- Groups end where their extensions end. -/
  operation : ∀ g ∈ gs, g.opcode ≠ .extendedArg
  supported : ∀ g ∈ gs, g.opcode.isSupported = true
  /-- Where jumps count bytes, they lead to a whole unit. -/
  whole : ∀ g ∈ gs, g.opcode.jumpKind?.isSome = true → c.dialect = .v39 → g.arg % 2 = 0
  lands : ∀ (k : Nat) (g : UnitGroup) (t : Nat), gs[k]? = some g →
    g.target? c.dialect (groupOffset gs k) = some t → ∃ j < gs.length, t = groupOffset gs j

theorem groupOffset_cons (g : UnitGroup) (gs : List UnitGroup) (k : Nat) :
    groupOffset (g :: gs) (k + 1) = g.size + groupOffset gs k := by
  simp [groupOffset]

theorem size_pos (g : UnitGroup) : 0 < g.size := Nat.succ_pos _

theorem groupOffset_succ {gs : List UnitGroup} {k : Nat} {g : UnitGroup} (h : gs[k]? = some g) :
    groupOffset gs (k + 1) = groupOffset gs k + g.size := by
  induction gs generalizing k with
  | nil => cases h
  | cons g' gs ih =>
    cases k with
    | zero =>
      cases h
      simp [groupOffset]
    | succ k => rw [groupOffset_cons, groupOffset_cons, ih h, Nat.add_assoc]

theorem groupOffset_lt {gs : List UnitGroup} {j k : Nat} (h : j < k) (hk : k ≤ gs.length) :
    groupOffset gs j < groupOffset gs k := by
  induction k with
  | zero => cases h
  | succ k ih =>
    have hstep := groupOffset_succ (List.getElem?_eq_getElem hk)
    have hpos := gs[k].size_pos
    rcases Nat.lt_succ_iff_lt_or_eq.mp h with hlt | rfl
    · have := ih hlt (Nat.le_of_lt hk)
      omega
    · omega

end UnitGroup

/-! ## 2. Reading a group -/

theorem Opcode.ofByte?_eq_some {b : UInt8} {d : Dialect} {op : Opcode} :
    ofByte? b d = some op ↔ op.byte = b ∧ op.existsIn d = true := by
  constructor
  · intro h
    obtain ⟨hfind, hexists⟩ := Option.filter_eq_some_iff.mp h
    exact ⟨beq_iff_eq.mp (List.find?_some (p := fun op : Opcode => op.byte == b) hfind), hexists⟩
  · rintro ⟨rfl, hexists⟩
    exact ofByte?_byte hexists

namespace InstructionStream

theorem resolveJump?_eq_some {d : Dialect} {kind : JumpKind} {unit arg t : Nat} :
    resolveJump? d kind unit arg = some t ↔ (d = .v39 → arg % 2 = 0)
      ∧ arg * d.jumpUnitBytes < wordLimit ∧ (kind = .relative → t < wordLimit)
      ∧ t = d.landing (unit + 1) arg kind := by
  have hunits : arg * d.jumpUnitBytes / 2 = d.unitsOfArg arg := by
    cases d with
    | v39 => exact congrArg (· / 2) (Nat.mul_one arg)
    | v310 => exact Nat.mul_div_cancel arg (by decide)
  have hodd : ((d == .v39 && arg % 2 != 0) = true) ↔ ¬ (d = .v39 → arg % 2 = 0) := by
    simp
  unfold resolveJump? Dialect.jumpArgToUnits?
  by_cases hwhole : d = .v39 → arg % 2 = 0
  · rw [if_neg (fun h => hodd.mp h hwhole)]
    dsimp only
    by_cases hfits : arg * d.jumpUnitBytes < wordLimit
    · rw [if_pos hfits, Option.bind_some, hunits]
      cases kind with
      | absolute =>
        simp only [Option.some.injEq]
        exact ⟨fun h => ⟨hwhole, hfits, (fun h => nomatch h), h.symm⟩, fun h => h.2.2.2.symm⟩
      | relative =>
        dsimp only
        rw [Nat.add_comm (d.unitsOfArg arg) (unit + 1)]
        split
        · simp only [Option.some.injEq]
          exact ⟨fun h => ⟨hwhole, hfits, fun _ => h ▸ ‹_›, h.symm⟩, fun h => h.2.2.2.symm⟩
        · exact ⟨fun h => (by cases h), fun h => absurd (h.2.2.1 rfl) (h.2.2.2 ▸ ‹_›)⟩
    · rw [if_neg hfits]
      exact ⟨fun h => (by cases h), fun h => absurd h.2.1 hfits⟩
  · rw [if_pos (hodd.mpr hwhole)]
    exact ⟨fun h => (by cases h), fun h => absurd h.1 hwhole⟩

/-- What has been read after some extensions. -/
def extend : Nat → Extension → List UInt8 → Extension
  | _, x, [] => x
  | u, x, b :: bs => extend (u + 1) (x.push u b) bs

theorem fold_extensions (c : CodeObject) (bs : List UInt8) (u : Nat) (x : Extension)
    (done : List Instruction) (us : List (UInt8 × UInt8)) :
    fold c u x done ((bs.map fun b => (Opcode.extendedArg.byte, b)) ++ us)
      = fold c (u + bs.length) (extend u x bs) done us := by
  induction bs generalizing u x with
  | nil => rfl
  | cons b bs ih =>
    have hknown : Opcode.ofByte? Opcode.extendedArg.byte c.dialect = some .extendedArg :=
      Opcode.ofByte?_byte (by cases c.dialect <;> rfl)
    rw [List.map_cons, List.cons_append, fold, hknown]
    dsimp only
    rw [ih, extend, List.length_cons, Nat.add_right_comm, Nat.add_assoc]

theorem start_extend (bs : List UInt8) (u : Nat) (x : Extension) :
    (extend u x bs).start.getD (u + bs.length) = x.start.getD u := by
  induction bs generalizing u x with
  | nil => rfl
  | cons b bs ih =>
    rw [extend, List.length_cons, show u + (bs.length + 1) = u + 1 + bs.length by omega, ih]
    rfl

/-- Extensions keep the low 32 bits of the bytes so far, moved up by one byte. -/
theorem arg_extend (bs : List UInt8) (u n : Nat) (x : Extension) (h : x.arg = n * 256 % wordLimit) :
    (extend u x bs).arg = UnitGroup.numberFrom n bs * 256 % wordLimit := by
  induction bs generalizing u n x with
  | nil => exact h
  | cons b bs ih =>
    refine ih (u + 1) (n * 256 + b.toNat) _ ?_
    show (x.arg + b.toNat) * 256 % wordLimit = _
    rw [h]
    unfold wordLimit
    omega

end InstructionStream

namespace UnitGroup

open InstructionStream

variable {c : CodeObject} {g : UnitGroup} {gs : List UnitGroup} {u : Nat}

/-- The instruction of a group that starts at `o`, without the mark of a jump target. -/
def instruction (c : CodeObject) (o : Nat) (g : UnitGroup) : Instruction where
  offset := o
  opcode := g.opcode
  arg := g.arg
  size := g.size
  target := g.target? c.dialect o
  isJumpTarget := false
  line := c.lineAt? o

/-- What decoding makes of a group that starts at `u`. -/
def read (c : CodeObject) (u : Nat) (g : UnitGroup) : Except BytecodeError Instruction :=
  complete c (extend u {} g.extensions) (u + g.extensions.length) g.opcode g.operand

theorem arg_eq (g : UnitGroup) (u : Nat) : (if g.opcode.hasArg then
    (extend u {} g.extensions).arg + g.operand.toNat else 0) = g.arg := by
  have hhigh := arg_extend g.extensions u 0 {} rfl
  have hbyte := g.operand.toNat_lt
  have hall : numberFrom 0 (g.extensions ++ [g.operand])
      = numberFrom 0 g.extensions * 256 + g.operand.toNat := by
    rw [numberFrom, List.foldl_append]
    rfl
  unfold arg
  rw [hall, hhigh]
  unfold wordLimit
  split <;> omega

/-- A group is read as its instruction if its operation can be compiled and its jump, if it is one,
names a whole unit within reach. -/
theorem read_eq_ok {i : Instruction} : g.read c u = .ok i ↔ g.opcode.isSupported = true
    ∧ (∀ kind, g.opcode.jumpKind? = some kind → (c.dialect = .v39 → g.arg % 2 = 0)
      ∧ g.arg * c.dialect.jumpUnitBytes < wordLimit
      ∧ (kind = .relative → c.dialect.landing (u + g.size) g.arg kind < wordLimit))
    ∧ i = g.instruction c u := by
  have hstart : (extend u {} g.extensions).start.getD (u + g.extensions.length) = u :=
    start_extend g.extensions u {}
  have hsize : u + g.extensions.length + 1 - u = g.size := by
    unfold size
    omega
  have hend : u + g.extensions.length + 1 = u + g.size := by
    unfold size
    omega
  unfold read complete
  simp only [hstart, arg_eq, hsize]
  cases hsupported : g.opcode.isSupported with
  | false => exact ⟨fun h => (nomatch h), fun h => nomatch h.1⟩
  | true =>
    simp only [Bool.not_true, Bool.false_eq_true, if_false, true_and]
    cases hkind : g.opcode.jumpKind? with
    | none => simp [instruction, target?, hkind, eq_comm]
    | some kind =>
      have htarget : g.target? c.dialect u = some (c.dialect.landing (u + g.size) g.arg kind) := by
        rw [target?, hkind]
        rfl
      have hjump : ∀ t, resolveJump? c.dialect kind (u + g.extensions.length) g.arg = some t
          ↔ (c.dialect = .v39 → g.arg % 2 = 0) ∧ g.arg * c.dialect.jumpUnitBytes < wordLimit
            ∧ (kind = .relative → t < wordLimit) ∧ t = c.dialect.landing (u + g.size) g.arg kind := by
        intro t
        rw [resolveJump?_eq_some, hend]
      constructor
      · intro h
        dsimp only at h
        split at h
        · rename_i t ht
          obtain ⟨hwhole, hfits, hreach, rfl⟩ := (hjump t).mp ht
          cases h
          refine ⟨fun kind' hkind' => ?_, by rw [instruction, htarget]⟩
          cases hkind'
          exact ⟨hwhole, hfits, hreach⟩
        · cases h
      · rintro ⟨hall, rfl⟩
        obtain ⟨hwhole, hfits, hreach⟩ := hall kind rfl
        dsimp only
        rw [(hjump _).mpr ⟨hwhole, hfits, hreach, rfl⟩]
        dsimp only
        rw [instruction, htarget]

/-! ## 3. Bytes and units -/

theorem length_units (g : UnitGroup) : g.units.length = g.size := by
  simp [units, size]

theorem length_bytesOf (us : List (UInt8 × UInt8)) : (bytesOf us).length = 2 * us.length := by
  induction us with
  | nil => rfl
  | cons u us ih =>
    have hcons : bytesOf (u :: us) = u.1 :: u.2 :: bytesOf us := rfl
    rw [hcons, List.length_cons, List.length_cons, ih, List.length_cons]
    omega

theorem length_bytes (g : UnitGroup) : g.bytes.length = 2 * g.size := by
  rw [bytes, length_bytesOf, length_units]

theorem length_flatMap_bytes (gs : List UnitGroup) :
    (gs.flatMap bytes).length = 2 * groupOffset gs gs.length := by
  induction gs with
  | nil => rfl
  | cons g gs ih =>
    rw [List.flatMap_cons, List.length_append, ih, length_bytes, List.length_cons, groupOffset_cons,
      Nat.mul_add]

theorem flatMap_bytes (gs : List UnitGroup) : gs.flatMap bytes = bytesOf (gs.flatMap units) := by
  rw [bytesOf, List.flatMap_assoc]
  rfl

theorem unitsOf_bytesOf (us : List (UInt8 × UInt8)) : InstructionStream.unitsOf (bytesOf us) = us := by
  induction us with
  | nil => rfl
  | cons u us ih => exact congrArg (u :: ·) ih

theorem bytesOf_unitsOf : ∀ bs : List UInt8, bs.length % 2 = 0 →
    bytesOf (InstructionStream.unitsOf bs) = bs
  | [], _ => rfl
  | [_], h => nomatch h
  | a :: b :: rest, h => by
    rw [List.length_cons, List.length_cons, Nat.add_assoc, Nat.add_mod_right] at h
    exact congrArg (a :: b :: ·) (bytesOf_unitsOf rest h)

/-- The bytes of a group stand where it starts. -/
theorem take_drop_bytes {gs : List UnitGroup} {k : Nat} {g : UnitGroup} (h : gs[k]? = some g) :
    ((gs.flatMap bytes).drop (2 * groupOffset gs k)).take (2 * g.size) = g.bytes := by
  induction gs generalizing k with
  | nil => cases h
  | cons g' gs ih =>
    rw [List.flatMap_cons]
    cases k with
    | zero =>
      cases h
      rw [show groupOffset (g :: gs) 0 = 0 from rfl, Nat.mul_zero, List.drop_zero, ← length_bytes]
      exact List.take_left
    | succ k =>
      rw [groupOffset_cons, Nat.mul_add, ← length_bytes g', List.drop_length_add_append]
      exact ih h

/-! ## 4. Reading groups -/

/-- The instructions of groups, the first of which starts at `o`. -/
def instructionsFrom (c : CodeObject) : Nat → List UnitGroup → List Instruction
  | _, [] => []
  | o, g :: gs => g.instruction c o :: instructionsFrom c (o + g.size) gs

theorem getElem?_instructionsFrom (c : CodeObject) (o : Nat) (gs : List UnitGroup) (k : Nat) :
    (instructionsFrom c o gs)[k]? = gs[k]?.map fun g => g.instruction c (o + groupOffset gs k) := by
  induction gs generalizing o k with
  | nil => rfl
  | cons g gs ih =>
    cases k with
    | zero => rfl
    | succ k =>
      rw [instructionsFrom, List.getElem?_cons_succ, List.getElem?_cons_succ, ih, groupOffset_cons,
        Nat.add_assoc]

theorem length_instructionsFrom (c : CodeObject) (o : Nat) (gs : List UnitGroup) :
    (instructionsFrom c o gs).length = gs.length := by
  induction gs generalizing o with
  | nil => rfl
  | cons g gs ih => rw [instructionsFrom, List.length_cons, ih, List.length_cons]

/-- Whether all groups, the first of which starts at `o`, are read. -/
def Readable (c : CodeObject) (o : Nat) (gs : List UnitGroup) : Prop :=
  ∀ (k : Nat) (g : UnitGroup), gs[k]? = some g →
    g.read c (o + groupOffset gs k) = .ok (g.instruction c (o + groupOffset gs k))

theorem readable_cons {o : Nat} : Readable c o (g :: gs)
    ↔ g.read c o = .ok (g.instruction c o) ∧ Readable c (o + g.size) gs := by
  constructor
  · intro h
    refine ⟨h 0 g rfl, fun k g' hk => ?_⟩
    have := h (k + 1) g' hk
    rwa [groupOffset_cons, ← Nat.add_assoc] at this
  · rintro ⟨hfirst, hrest⟩ k g' hk
    cases k with
    | zero =>
      cases hk
      exact hfirst
    | succ k =>
      rw [groupOffset_cons, ← Nat.add_assoc]
      exact hrest k g' hk

/-- Folding the units of groups reads one group after the other. -/
theorem fold_units {done is : List Instruction}
    (hknown : ∀ g ∈ gs, g.opcode.existsIn c.dialect = true)
    (hop : ∀ g ∈ gs, g.opcode ≠ .extendedArg) (o : Nat) :
    fold c o {} done (gs.flatMap units) = .ok is
      ↔ Readable c o gs ∧ is = done.reverse ++ instructionsFrom c o gs := by
  induction gs generalizing o done with
  | nil =>
    show Except.ok done.reverse = .ok is ↔ _
    rw [instructionsFrom, List.append_nil, Except.ok.injEq, eq_comm (a := done.reverse)]
    exact ⟨fun h => ⟨fun k g hk => (by cases hk), h⟩, fun h => h.2⟩
  | cons g gs ih =>
    have hbyte := Opcode.ofByte?_byte (hknown g List.mem_cons_self)
    have hne := hop g List.mem_cons_self
    rw [List.flatMap_cons, units, List.append_assoc, fold_extensions, List.singleton_append, fold,
      hbyte]
    have hread : complete c (extend o {} g.extensions) (o + g.extensions.length) g.opcode g.operand
        = g.read c o := rfl
    have hnext : o + g.extensions.length + 1 = o + g.size := by
      unfold size
      omega
    simp only [hread, hnext]
    rw [readable_cons]
    cases hr : g.read c o with
    | error e =>
      simp
    | ok i =>
      obtain ⟨-, -, rfl⟩ := read_eq_ok.mp hr
      have ih : fold c (o + g.size) {} (g.instruction c o :: done) (gs.flatMap units) = .ok is ↔ _ :=
        ih (fun g hg => hknown g (List.mem_cons_of_mem _ hg))
          (fun g hg => hop g (List.mem_cons_of_mem _ hg)) (o + g.size)
      rw [List.reverse_cons, List.append_assoc, List.singleton_append] at ih
      simpa [instructionsFrom] using ih

/-- Units that are folded without a fault are those of groups. `x` is what has been read of the
first of them. -/
theorem exists_groups {us : List (UInt8 × UInt8)} {u : Nat} {x : Extension}
    {done is : List Instruction} (h : fold c u x done us = .ok is) : us = [] ∧ x.start = none
      ∨ ∃ g gs, us = (g :: gs).flatMap units
        ∧ ∀ g' ∈ g :: gs, g'.opcode.existsIn c.dialect = true ∧ g'.opcode ≠ .extendedArg := by
  induction us generalizing u x done with
  | nil =>
    rw [fold] at h
    split at h
    · cases h
    · exact .inl ⟨rfl, ‹_›⟩
  | cons unit us ih =>
    obtain ⟨a, b⟩ := unit
    rw [fold] at h
    split at h
    · cases h
    · rename_i hext
      obtain ⟨rfl, -⟩ := Opcode.ofByte?_eq_some.mp hext
      rcases ih h with ⟨-, hnone⟩ | ⟨g, gs, rfl, hall⟩
      · cases hnone
      · refine .inr ⟨{ g with extensions := b :: g.extensions }, gs, rfl, fun g' hg' => ?_⟩
        rcases List.mem_cons.mp hg' with rfl | hg'
        · exact hall g List.mem_cons_self
        · exact hall g' (List.mem_cons_of_mem _ hg')
    · rename_i op hne hop
      obtain ⟨rfl, hknown⟩ := Opcode.ofByte?_eq_some.mp hop
      have hfirst : op.existsIn c.dialect = true ∧ op ≠ .extendedArg :=
        ⟨hknown, hne⟩
      split at h
      · cases h
      · rcases ih h with ⟨rfl, -⟩ | ⟨g, gs, rfl, hall⟩
        · refine .inr ⟨⟨[], op, b⟩, [], rfl, fun g' hg' => ?_⟩
          rw [List.mem_singleton.mp hg']
          exact hfirst
        · refine .inr ⟨⟨[], op, b⟩, g :: gs, rfl, fun g' hg' => ?_⟩
          rcases List.mem_cons.mp hg' with rfl | hg'
          · exact hfirst
          · exact hall g' hg'

/-! ## 5. Decoding groups -/

theorem mem_instructionsFrom {i : Instruction} : i ∈ instructionsFrom c 0 gs
    ↔ ∃ (k : Nat) (g : UnitGroup), gs[k]? = some g ∧ i = g.instruction c (groupOffset gs k) := by
  simp only [List.mem_iff_getElem?, getElem?_instructionsFrom, Option.map_eq_some_iff, Nat.zero_add,
    eq_comm (a := i)]

theorem strayJump?_instructionsFrom : strayJump? (instructionsFrom c 0 gs) = none
    ↔ ∀ (k : Nat) (g : UnitGroup) (t : Nat), gs[k]? = some g →
      g.target? c.dialect (groupOffset gs k) = some t → ∃ j < gs.length, t = groupOffset gs j := by
  rw [strayJump?_eq_none]
  constructor
  · intro h k g t hk ht
    obtain ⟨i, hi, rfl⟩ := h _ (mem_instructionsFrom.mpr ⟨k, g, hk, rfl⟩) t ht
    obtain ⟨j, g', hj, rfl⟩ := mem_instructionsFrom.mp hi
    exact ⟨j, (List.getElem?_eq_some_iff.mp hj).1, rfl⟩
  · intro h i hi t ht
    obtain ⟨k, g, hk, rfl⟩ := mem_instructionsFrom.mp hi
    obtain ⟨j, hj, rfl⟩ := h k g t hk ht
    exact ⟨_, mem_instructionsFrom.mpr ⟨j, gs[j], List.getElem?_eq_getElem hj, rfl⟩, rfl⟩

/-- Bytes of groups decode to the instructions of the groups, if these are read and no jump
strays. -/
theorem decode_eq_ok_iff {s : InstructionStream} (hcode : c.code = gs.flatMap bytes)
    (hknown : ∀ g ∈ gs, g.opcode.existsIn c.dialect = true)
    (hop : ∀ g ∈ gs, g.opcode ≠ .extendedArg) : decode c = .ok s
      ↔ c.code ≠ [] ∧ Readable c 0 gs ∧ strayJump? (instructionsFrom c 0 gs) = none
        ∧ s = ⟨c.dialect, markTargets (instructionsFrom c 0 gs)⟩ := by
  have heven : c.code.length % 2 = 0 := by
    rw [hcode, length_flatMap_bytes]
    exact Nat.mul_mod_right 2 _
  have hunits : unitsOf c.code = gs.flatMap units := by
    rw [hcode, flatMap_bytes, unitsOf_bytesOf]
  rw [decode_eq_ok, hunits]
  simp only [heven, true_and, fold_units hknown hop, List.reverse_nil, List.nil_append]
  refine and_congr_right fun _ => ?_
  constructor
  · rintro ⟨is, ⟨hreadable, rfl⟩, hstray, hs⟩
    exact ⟨hreadable, hstray, hs⟩
  · rintro ⟨hreadable, hstray, hs⟩
    exact ⟨_, ⟨hreadable, rfl⟩, hstray, hs⟩

theorem arg_lt (g : UnitGroup) : g.arg < wordLimit := by
  unfold arg
  split
  · exact Nat.mod_lt _ (by decide)
  · decide

namespace Spells

/-- The groups fill the code. -/
theorem total (h : Spells gs c) : 2 * groupOffset gs gs.length = c.code.length := by
  rw [h.code, length_flatMap_bytes]

/-- Every group is read: jumps stay in the code, so their targets are within reach. -/
theorem readable (h : Spells gs c) (hsmall : c.units < 2 ^ 31) : Readable c 0 gs := by
  intro k g hk
  rw [Nat.zero_add]
  have hmem := List.mem_of_getElem? hk
  refine read_eq_ok.mpr ⟨h.supported g hmem, fun kind hkind => ?_, rfl⟩
  obtain ⟨j, hj, hlanding⟩ := h.lands k g (c.dialect.landing (groupOffset gs k + g.size) g.arg kind) hk
    (by rw [target?, hkind]; rfl)
  have hreach : groupOffset gs j < 2 ^ 31 := by
    have hbefore := groupOffset_lt hj (Nat.le_refl _)
    have htotal := h.total
    unfold CodeObject.units at hsmall
    omega
  refine ⟨h.whole g hmem (by rw [hkind]; rfl), ?_, fun _ => ?_⟩
  · have harg := g.arg_lt
    unfold wordLimit at harg ⊢
    cases hdialect : c.dialect with
    | v39 =>
      show g.arg * 1 < _
      omega
    | v310 =>
      rw [hdialect] at hlanding
      have hunits : g.arg ≤ groupOffset gs j := by
        rw [← hlanding]
        cases kind with
        | relative => exact Nat.le_add_left _ _
        | absolute => exact Nat.le_refl _
      show g.arg * 2 < _
      omega
  · rw [hlanding]
    unfold wordLimit
    omega

end Spells

/-- Code that decodes is spelled by groups. -/
theorem exists_spells {s : InstructionStream} (h : decode c = .ok s) : ∃ gs, Spells gs c := by
  obtain ⟨heven, hne, is, hfold, -, -⟩ := decode_eq_ok.mp h
  have hbytes := bytesOf_unitsOf c.code heven
  rcases exists_groups hfold with ⟨hempty, -⟩ | ⟨g, gs, hunits, hall⟩
  · rw [hempty] at hbytes
    exact absurd hbytes.symm hne
  · rw [hunits, ← flatMap_bytes] at hbytes
    obtain ⟨-, hreadable, hstray, -⟩ := (decode_eq_ok_iff hbytes.symm (fun g' hg' => (hall g' hg').1)
      (fun g' hg' => (hall g' hg').2)).mp h
    have hread : ∀ g' ∈ g :: gs, ∃ o, g'.read c o = .ok (g'.instruction c o) := by
      intro g' hg'
      obtain ⟨k, hk⟩ := List.mem_iff_getElem?.mp hg'
      exact ⟨_, hreadable k g' hk⟩
    refine ⟨g :: gs, hbytes.symm, fun g' hg' => (hall g' hg').1, fun g' hg' => (hall g' hg').2,
      fun g' hg' => ?_, fun g' hg' hjump => ?_, strayJump?_instructionsFrom.mp hstray⟩
    · obtain ⟨o, ho⟩ := hread g' hg'
      exact (read_eq_ok.mp ho).1
    · obtain ⟨o, ho⟩ := hread g' hg'
      obtain ⟨kind, hkind⟩ := Option.isSome_iff_exists.mp hjump
      exact ((read_eq_ok.mp ho).2.1 kind hkind).1

end UnitGroup

/-! ## 6. The grammar -/

namespace InstructionStream

open UnitGroup

/-- A stream with the instructions of groups. -/
structure Renders (s : InstructionStream) (gs : List UnitGroup) (c : CodeObject) : Prop where
  dialect : s.dialect = c.dialect
  length : s.instructions.length = gs.length
  /-- Each group has its instruction, which is marked exactly if some jump leads to the group. -/
  entry : ∀ (k : Nat) (g : UnitGroup), gs[k]? = some g → ∃ marked,
    s.instructions[k]? = some { g.instruction c (groupOffset gs k) with isJumpTarget := marked }
    ∧ (marked = true ↔ JumpTo gs c.dialect (groupOffset gs k))
  /-- An instruction covers the bytes of its group. -/
  covers : ∀ (k : Nat) (g : UnitGroup) (i : Instruction), gs[k]? = some g →
    s.instructions[k]? = some i → (c.code.drop (2 * i.offset)).take (2 * i.size) = g.bytes
  /-- The first instruction stands at the start, each next one where the one before ends, and the
  last one ends with the code. -/
  first : s.instructions.head?.map (·.offset) = some 0
  adjacent : ∀ (k : Nat) (i i' : Instruction), s.instructions[k]? = some i →
    s.instructions[k + 1]? = some i' → i'.offset = i.next
  last : 2 * s.endOffset = c.code.length
  /-- Offsets are looked up exactly where groups start. -/
  indexOf? : ∀ o k : Nat, s.indexOf? o = some k ↔ k < gs.length ∧ groupOffset gs k = o

/-- The instructions of the groups that spell a code object render them. -/
theorem renders_instructionsFrom {c : CodeObject} {gs : List UnitGroup} (h : Spells gs c)
    (hne : c.code ≠ []) : Renders ⟨c.dialect, markTargets (instructionsFrom c 0 gs)⟩ gs c := by
  have hlength : (markTargets (instructionsFrom c 0 gs)).length = gs.length := by
    rw [markTargets, List.length_map, length_instructionsFrom]
  have hentry : ∀ (k : Nat) (g : UnitGroup), gs[k]? = some g → ∃ marked,
      (markTargets (instructionsFrom c 0 gs))[k]?
        = some { g.instruction c (groupOffset gs k) with isJumpTarget := marked }
      ∧ (marked = true ↔ JumpTo gs c.dialect (groupOffset gs k)) := by
    intro k g hk
    have hinstruction : (instructionsFrom c 0 gs)[k]? = some (g.instruction c (groupOffset gs k)) := by
      rw [getElem?_instructionsFrom, hk, Nat.zero_add]
      rfl
    obtain ⟨marked, hmarked, htargeted⟩ := getElem?_markTargets hinstruction
    refine ⟨marked, hmarked, htargeted.trans ⟨?_, ?_⟩⟩
    · rintro ⟨i, hi, htarget⟩
      obtain ⟨j, g', hj, rfl⟩ := mem_instructionsFrom.mp hi
      exact ⟨j, g', hj, htarget⟩
    · rintro ⟨j, g', hj, htarget⟩
      exact ⟨_, mem_instructionsFrom.mpr ⟨j, g', hj, rfl⟩, htarget⟩
  -- every instruction of the stream is that of a group
  have hof : ∀ (k : Nat) (i : Instruction), (markTargets (instructionsFrom c 0 gs))[k]? = some i →
      ∃ g, gs[k]? = some g ∧ i.offset = groupOffset gs k ∧ i.size = g.size := by
    intro k i hi
    have hk : k < gs.length := hlength ▸ (List.getElem?_eq_some_iff.mp hi).1
    obtain ⟨marked, hmarked, -⟩ := hentry k gs[k] (List.getElem?_eq_getElem hk)
    rw [hmarked] at hi
    cases hi
    exact ⟨_, List.getElem?_eq_getElem hk, rfl, rfl⟩
  have hpos : 0 < gs.length := by
    refine List.length_pos_iff.mpr fun hnil => hne ?_
    rw [h.code, hnil]
    rfl
  refine ⟨rfl, hlength, hentry, fun k g i hk hi => ?_, ?_, fun k i i' hi hi' => ?_, ?_, fun o k => ?_⟩
  · obtain ⟨g', hk', hoffset, hsize⟩ := hof k i hi
    obtain rfl := Option.some.inj (hk.symm.trans hk')
    rw [hoffset, hsize, h.code]
    exact take_drop_bytes hk
  · obtain ⟨marked, hmarked, -⟩ := hentry 0 gs[0] (List.getElem?_eq_getElem hpos)
    rw [List.head?_eq_getElem?, hmarked]
    rfl
  · obtain ⟨g, hk, hoffset, hsize⟩ := hof k i hi
    obtain ⟨g', -, hoffset', -⟩ := hof (k + 1) i' hi'
    rw [hoffset', Instruction.next, hoffset, hsize, groupOffset_succ hk]
  · obtain ⟨k, hk⟩ : ∃ k, gs.length = k + 1 := ⟨gs.length - 1, by omega⟩
    obtain ⟨g, hg⟩ : ∃ g, gs[k]? = some g := ⟨_, List.getElem?_eq_getElem (by omega)⟩
    obtain ⟨marked, hmarked, -⟩ := hentry k g hg
    have hlast := (markTargets (instructionsFrom c 0 gs)).getLast?_eq_getElem?
    rw [hlength, hk, Nat.add_sub_cancel, hmarked] at hlast
    rw [endOffset, hlast, ← h.total, hk, groupOffset_succ hg]
    rfl
  · unfold InstructionStream.indexOf?
    rw [List.findIdx?_eq_some_iff_getElem]
    constructor
    · rintro ⟨hk, hfound, -⟩
      obtain ⟨g, -, hoffset, -⟩ := hof k _ (List.getElem?_eq_getElem hk)
      exact ⟨hlength ▸ hk, hoffset ▸ beq_iff_eq.mp hfound⟩
    · rintro ⟨hk, rfl⟩
      have hbound : k < (markTargets (instructionsFrom c 0 gs)).length := hlength ▸ hk
      refine ⟨hbound, ?_, fun j hj hfound => ?_⟩
      · obtain ⟨g, -, hoffset, -⟩ := hof k _ (List.getElem?_eq_getElem hbound)
        exact beq_iff_eq.mpr hoffset
      · obtain ⟨g, -, hoffset, -⟩ := hof j _ (List.getElem?_eq_getElem (Nat.lt_trans hj hbound))
        have := groupOffset_lt hj (Nat.le_of_lt hk)
        rw [← hoffset, beq_iff_eq.mp hfound] at this
        exact Nat.lt_irrefl _ this

/-- **Decoding accepts exactly the instruction grammar, and keeps all of it.** -/
theorem decode_iff_spells (c : CodeObject) (hsmall : c.units < 2 ^ 31) :
    ((∃ s, decode c = .ok s)
      ↔ c.code ≠ [] ∧ c.code.length % 2 = 0 ∧ ∃ gs, UnitGroup.Spells gs c)
    ∧ ∀ (s : InstructionStream) (gs : List UnitGroup), decode c = .ok s → UnitGroup.Spells gs c →
      s.Renders gs c := by
  refine ⟨⟨?_, ?_⟩, fun s gs h hgs => ?_⟩
  · rintro ⟨s, h⟩
    obtain ⟨heven, hne, -⟩ := decode_eq_ok.mp h
    exact ⟨hne, heven, exists_spells h⟩
  · rintro ⟨hne, -, gs, hgs⟩
    exact ⟨_, (decode_eq_ok_iff hgs.code hgs.known hgs.operation).mpr
      ⟨hne, hgs.readable hsmall, strayJump?_instructionsFrom.mpr hgs.lands, rfl⟩⟩
  · obtain ⟨hne, -, -, rfl⟩ := (decode_eq_ok_iff hgs.code hgs.known hgs.operation).mp h
    exact renders_instructionsFrom hgs hne

/-- Stacked extensions that are jumped to from both sides, and an extension of an operation without
an operand. -/
def extendedGroups : List UnitGroup :=
  [⟨[], .jumpForward, 0⟩, ⟨[1, 2], .loadConst, 3⟩, ⟨[9], .nop, 7⟩, ⟨[0], .jumpAbsolute, 1⟩,
    ⟨[], .returnValue, 0⟩]

/-- The code object that they spell. -/
def extendedCode : CodeObject :=
  { CodeObject.blank 0 "f" "f.py" with dialect := .v310, code := extendedGroups.flatMap bytes }

theorem decode_extendedCode : extendedCode.units < 2 ^ 31 ∧ ∃ s, decode extendedCode = .ok s
    ∧ s.Renders extendedGroups extendedCode ∧ s.instructions[1]?.map (·.arg) = some 66051
    ∧ s.indexOf? 4 = some 2 := by
  have hsmall : extendedCode.units < 2 ^ 31 := by decide
  have hspells : UnitGroup.Spells extendedGroups extendedCode := by
    refine ⟨rfl, by decide, by decide, by decide, by decide, strayJump?_instructionsFrom.mp ?_⟩
    rw [strayJump?_eq]
    decide
  obtain ⟨s, hs⟩ := (decode_iff_spells extendedCode hsmall).1.mpr
    ⟨by decide, by decide, _, hspells⟩
  have hrenders := (decode_iff_spells extendedCode hsmall).2 s _ hs hspells
  obtain ⟨marked, hsecond, -⟩ := hrenders.entry 1 _ rfl
  refine ⟨hsmall, s, hs, hrenders, ?_, (hrenders.indexOf? 4 2).mpr (by decide)⟩
  rw [hsecond]
  rfl

end InstructionStream

end Stackwise
