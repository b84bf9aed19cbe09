import Stackwise.Proofs.Body.Parallel
import Stackwise.Proofs.Bytecode.RoundTrip

/-!
# Dialects

The dialects lay one program out at different offsets, with different operands of its jumps. The body
that is decoded is the same.

* `Assembler.Forward`: relative jumps lead forward. A small program can be laid out exactly if they
  do, whatever the dialect.
* `Assembler.Portable`: programs that both dialects know.
* `Assembler.decode_dialects`: a portable program has the same body in both dialects.
-/

namespace Stackwise

namespace Assembler

open InstructionStream

variable {items : List Resolved} {sizes args : List Nat} {d : Dialect}

/-! ## 1. Laying out -/

/-- Relative jumps lead forward. -/
def Forward (items : List Resolved) : Prop :=
  ∀ (k : Nat) (r : Resolved) (t : Nat), items[k]? = some r → r.operand = .inr t →
    r.opcode.jumpKind? = some .relative → k < t

theorem unitsToJumpArg?_small (d : Dialect) {units : Nat} (h : units < 2 ^ 31) :
    ∃ arg, d.unitsToJumpArg? units = some arg := by
  refine ⟨_, if_pos ?_⟩
  unfold wordLimit
  omega

/-- The operands of a small program can be given exactly if its relative jumps lead forward. -/
theorem operandsOf_iff (hlength : sizes.length = items.length) (hpos : ∀ s ∈ sizes, 0 < s)
    (hsmall : sizes.sum < 2 ^ 31) (hlabels : ∀ r ∈ items, ∀ t, r.operand = .inr t → t ≤ items.length) :
    (∃ args, operandsOf d items sizes = .ok args) ↔ Forward items := by
  have htable : ∀ {k : Nat} {r : Resolved} {t : Nat}, items[k]? = some r → r.operand = .inr t →
      (offsetsFrom 0 sizes).toArray.getD t 0 = (sizes.take t).sum := fun hk ht =>
    getD_offsets (hlength ▸ hlabels _ (List.mem_of_getElem? hk) _ ht)
  constructor
  · rintro ⟨args, hargs⟩ k r t hk ht hkind
    obtain ⟨hargs_length, hoperand⟩ := (operandsOf_eq_ok hlength).mp hargs
    have hlt : k < (place 0 items sizes args).length := by
      rw [length_place 0 hlength hargs_length]
      exact (List.getElem?_eq_some_iff.mp hk).1
    have hp := List.getElem?_eq_getElem hlt
    obtain ⟨hitem, hsize, -, hoffset⟩ := getElem?_place hp
    obtain rfl := Option.some.inj (hk.symm.trans hitem)
    have hforward := ((operandOf_inr ht).mp (hoperand _ (List.mem_of_getElem? hp))).1 hkind
    rw [htable hk ht, hoffset, Nat.zero_add] at hforward
    by_contra hnot
    have hmono : (sizes.take t).sum ≤ (sizes.take k).sum := sum_take_mono (Nat.le_of_not_lt hnot)
    have := hpos _ (List.mem_of_getElem? hsize)
    omega
  · intro hforward
    refine exists_mapM_eq_ok fun x hx => ?_
    obtain ⟨item, offset, size⟩ := x
    obtain ⟨k, hk⟩ := List.mem_iff_getElem?.mp hx
    obtain ⟨hitem, hrest⟩ := List.getElem?_zip_eq_some.mp hk
    obtain ⟨hoffset, hsize⟩ := List.getElem?_zip_eq_some.mp hrest
    dsimp only at hitem hoffset hsize ⊢
    cases ht : item.operand with
    | inl n => exact ⟨n, by rw [operandOf, ht]⟩
    | inr t =>
      have htotal := sum_take_le sizes t
      obtain ⟨arg, harg⟩ := unitsToJumpArg?_small d (show (if item.opcode.jumpKind? = some .relative
          then (sizes.take t).sum - (offset + size) else (sizes.take t).sum) < 2 ^ 31 by
        split <;> omega)
      refine ⟨arg, (operandOf_inr ht).mpr ?_⟩
      rw [htable hitem ht]
      refine ⟨fun hkind => ?_, harg⟩
      have hlt := (List.getElem?_eq_some_iff.mp hsize).1
      rw [getElem?_offsetsFrom 0 hlt.le, Nat.zero_add, Option.some.injEq] at hoffset
      have hnext := sum_take_add_one hsize
      have hmono : (sizes.take (k + 1)).sum ≤ (sizes.take t).sum :=
        sum_take_mono (hforward k item t hitem ht hkind)
      omega

theorem operandsOf_of_settle {rounds : Nat} {r : List Nat × List Nat}
    (h : settle d items rounds sizes = .ok r) : ∃ args, operandsOf d items sizes = .ok args := by
  cases rounds <;> rw [settle] at h <;> split at h
  · cases h
  · exact ⟨_, ‹_›⟩
  · cases h
  · exact ⟨_, ‹_›⟩

/-- **A small program can be laid out exactly if its relative jumps lead forward.** -/
theorem finish_iff {a : Assembler} (serial : Nat) (hresolve : a.resolve = .ok items)
    (hsmall : ∀ sizes, Reached a.dialect items sizes → sizes.sum < 2 ^ 31)
    (hlabels : ∀ r ∈ items, ∀ t, r.operand = .inr t → t ≤ items.length) :
    (∃ c, a.finish serial = .ok c) ↔ Forward items := by
  have hoperands : ∀ sizes, Reached a.dialect items sizes →
      ((∃ args, operandsOf a.dialect items sizes = .ok args) ↔ Forward items) := fun sizes hr =>
    operandsOf_iff hr.length_eq hr.pos (hsmall sizes hr) hlabels
  constructor
  · rintro ⟨c, h⟩
    obtain ⟨items', hitems, h⟩ := bind_eq_ok.mp h
    cases hresolve.symm.trans hitems
    obtain ⟨r, hsettle, -⟩ := bind_eq_ok.mp h
    exact (hoperands _ .least).mp (operandsOf_of_settle hsettle)
  · intro hforward
    obtain ⟨r, hr⟩ := settle_ok (3 * items.length) .least fun sizes hr =>
      (hoperands sizes hr).mpr hforward
    exact ⟨_, bind_eq_ok.mpr ⟨items, hresolve, bind_eq_ok.mpr ⟨r, hr, rfl⟩⟩⟩

/-! ## 2. Programs -/

/-- The program in another dialect. -/
def inDialect (a : Assembler) (d : Dialect) : Assembler := { a with dialect := d }

/-- Programs that both dialects know. -/
structure Portable (name : String) (calls : List Call) : Prop where
  known : ∀ e ∈ emissions calls, e.opcode.isSupported = true
    ∧ e.opcode.existsIn .v39 = true ∧ e.opcode.existsIn .v310 = true
  /-- Labels are for jumps, and jumps have labels. -/
  jumps : ∀ e ∈ emissions calls, e.opcode.jumpKind?.isSome = e.passed.isLabel
  /-- The sizes that come up in either dialect stay small. -/
  small : ∀ items d sizes, (assemble name calls).resolve = .ok items → Reached d items sizes →
    sizes.sum < 2 ^ 31

namespace Portable

variable {name : String} {calls : List Call} (hp : Portable name calls)
  (h : (assemble name calls).resolve = .ok items)
include h

theorem labels_le {r : Resolved} (hr : r ∈ items) {t : Nat} (ht : r.operand = .inr t) :
    t ≤ items.length := by
  obtain ⟨k, hk⟩ := List.mem_iff_getElem?.mp hr
  obtain ⟨item, e, -, hmeets, hresolves⟩ := exists_emission h hk
  obtain ⟨l, -, hl⟩ := hresolves.inr hmeets ht
  exact length_resolved h ▸ labelPosition_le hl

include hp

theorem known_resolved (d : Dialect) {r : Resolved} (hr : r ∈ items) :
    r.opcode.existsIn d = true ∧ r.opcode.isSupported = true := by
  obtain ⟨k, hk⟩ := List.mem_iff_getElem?.mp hr
  obtain ⟨item, e, he, hmeets, hresolves⟩ := exists_emission h hk
  obtain ⟨hsupported, hold, hnew⟩ := hp.known e (List.mem_of_getElem? he)
  rw [hresolves.opcode, hmeets.opcode]
  cases d with
  | v39 => exact ⟨hold, hsupported⟩
  | v310 => exact ⟨hnew, hsupported⟩

theorem jump_iff {r : Resolved} (hr : r ∈ items) :
    r.opcode.jumpKind?.isSome = true ↔ ∃ t, r.operand = .inr t := by
  obtain ⟨k, hk⟩ := List.mem_iff_getElem?.mp hr
  obtain ⟨item, e, he, hmeets, hresolves⟩ := exists_emission h hk
  rw [hresolves.opcode, hmeets.opcode, hp.jumps e (List.mem_of_getElem? he), Passed.isLabel_iff]
  constructor
  · rintro ⟨l, hl⟩
    have hoperand := hmeets.operand
    rw [hl] at hoperand
    obtain ⟨t, -, ht⟩ := hresolves.label l hoperand
    exact ⟨t, ht⟩
  · rintro ⟨t, ht⟩
    obtain ⟨l, hl, -⟩ := hresolves.inr hmeets ht
    exact ⟨l, hl⟩

end Portable

/-! ## 3. Two layouts -/

section Layouts

variable {name : String} {calls : List Call} {d d' : Dialect} {sizes' args' : List Nat}
  {c c' : CodeObject} (hp : Portable name calls)
  (h : Assembled ((assemble name calls).inDialect d) items sizes args c)
  (h' : Assembled ((assemble name calls).inDialect d') items sizes' args' c')

include h h' in
theorem Assembled.sameTables : c.SameTables c' :=
  ⟨h'.constants.trans h.constants.symm, h'.names.trans h.names.symm,
    h'.varnames.trans h.varnames.symm, h'.cellvars.trans h.cellvars.symm,
    h'.freevars.trans h.freevars.symm⟩

include hp h in
/-- A portable program decodes unless it is empty or a label of a jump stands behind the last
instruction. -/
theorem Portable.decode_iff {s : InstructionStream} : InstructionStream.decode c = .ok s ↔ items ≠ []
    ∧ (∀ r ∈ items, r.opcode.jumpKind?.isSome = true → ∃ t < items.length, r.operand = .inr t)
    ∧ s = ⟨c.dialect, markTargets (unmarked c items sizes args)⟩ := by
  have hresolve : (assemble name calls).resolve = .ok items := h.resolved
  have htotal : sizes.sum < wordLimit := by
    have := hp.small items d sizes hresolve h.reached
    unfold wordLimit
    omega
  refine h.decode_iff htotal (fun r hr => hp.known_resolved hresolve d hr) fun r hr hjump => ?_
  obtain ⟨t, ht⟩ := (hp.jump_iff hresolve hr).mp hjump
  exact ⟨t, labels_le hresolve hr ht, ht⟩

include hp h h' in
/-- **Two layouts of a program are parallel.** -/
theorem Portable.parallel (hinside : ∀ r ∈ items, r.opcode.jumpKind?.isSome = true →
    ∃ t < items.length, r.operand = .inr t) :
    Parallel (markTargets (unmarked c items sizes args))
      (markTargets (unmarked c' items sizes' args')) := by
  -- instruction `k` of either layout is the same resolved instruction in its place
  have hpieces : ∀ {k : Nat} {i i' : Instruction},
      (markTargets (unmarked c items sizes args))[k]? = some i →
      (markTargets (unmarked c' items sizes' args'))[k]? = some i' →
      ∃ p p' marked marked', p ∈ place 0 items sizes args ∧ p' ∈ place 0 items sizes' args'
        ∧ p.item ∈ items ∧ p'.item = p.item
        ∧ i = { p.instruction c (fun t => (sizes.take t).sum) with isJumpTarget := marked }
        ∧ i' = { p'.instruction c' (fun t => (sizes'.take t).sum) with isJumpTarget := marked' } := by
    intro k i i' hi hi'
    have hlt : k < items.length := h.length_stream ▸ (List.getElem?_eq_some_iff.mp hi).1
    have hr := List.getElem?_eq_getElem hlt
    obtain ⟨p, hk, hitem, -⟩ := h.getElem?_piece hr
    obtain ⟨p', hk', hitem', -⟩ := h'.getElem?_piece hr
    obtain ⟨marked, hat, -⟩ := getElem?_stream (c := c) hk
    obtain ⟨marked', hat', -⟩ := getElem?_stream (c := c') hk'
    exact ⟨p, p', marked, marked', List.mem_of_getElem? hk, List.mem_of_getElem? hk',
      hitem ▸ List.getElem_mem hlt, hitem'.trans hitem.symm, Option.some.inj (hi.symm.trans hat),
      Option.some.inj (hi'.symm.trans hat')⟩
  have hresolve : (assemble name calls).resolve = .ok items := h.resolved
  refine ⟨by rw [h.length_stream, h'.length_stream], fun hi hi' => ?_, fun hi hi' hkind => ?_,
    fun hi hi' hjump => ?_⟩
  · obtain ⟨p, p', marked, marked', hmem, hmem', -, hsame, rfl, rfl⟩ := hpieces hi hi'
    refine ⟨congrArg Resolved.opcode hsame.symm, ?_⟩
    change c.lineAt? p.offset = c'.lineAt? p'.offset
    rw [h.lineAt?_eq hmem, h'.lineAt?_eq hmem', hsame]
  · obtain ⟨p, p', marked, marked', hmem, hmem', hitem, hsame, rfl, rfl⟩ := hpieces hi hi'
    cases hoperand : p.item.operand with
    | inr t =>
      have hjump := (hp.jump_iff hresolve hitem).mpr ⟨t, hoperand⟩
      rw [show p.item.opcode.jumpKind? = none from hkind] at hjump
      cases hjump
    | inl n =>
      change (if p.item.opcode.hasArg then p.arg % wordLimit else 0)
        = if p'.item.opcode.hasArg then p'.arg % wordLimit else 0
      rw [h.settled.arg_inl hmem hoperand, h'.settled.arg_inl hmem' (hsame ▸ hoperand), hsame]
  · obtain ⟨p, p', marked, marked', -, -, hitem, hsame, rfl, rfl⟩ := hpieces hi hi'
    obtain ⟨t, hlt, ht⟩ := hinside _ hitem hjump
    have hr := List.getElem?_eq_getElem hlt
    obtain ⟨q, hq, -, hoffset⟩ := h.getElem?_piece hr
    obtain ⟨q', hq', -, hoffset'⟩ := h'.getElem?_piece hr
    obtain ⟨markedq, hat, -⟩ := getElem?_stream (c := c) hq
    obtain ⟨markedq', hat', -⟩ := getElem?_stream (c := c') hq'
    refine ⟨t, _, _, hat, hat', ?_, ?_⟩
    · exact Piece.target?_eq_some.mpr ⟨t, hjump, ht, hoffset⟩
    · exact Piece.target?_eq_some.mpr ⟨t, hsame ▸ hjump, hsame ▸ ht, hoffset'⟩

include hp h h' in
/-- A body that one layout has, the other has too. -/
theorem Portable.decode_body {is : List Instr} {map : OffsetMap}
    (hbody : Body.decode c = .ok (is, map)) : ∃ is' map', Body.decode c' = .ok (is', map')
      ∧ is.map Instr.anywhere = is'.map Instr.anywhere := by
  obtain ⟨s, hs, -, -⟩ := Body.decode_decoded hbody
  obtain ⟨hne, hinside, rfl⟩ := (hp.decode_iff h).mp hs
  have hs' := (hp.decode_iff h').mpr ⟨hne, hinside, rfl⟩
  have hkind : c'.unsupportedKind? = none := by
    have hflags : c'.flags = c.flags := h'.flags.trans h.flags.symm
    have hkind : c.unsupportedKind? = none := by
      unfold Body.decode at hbody
      split at hbody
      · cases hbody
      · assumption
    unfold CodeObject.unsupportedKind? at hkind ⊢
    rw [hflags]
    exact hkind
  exact Body.decode_parallel (h.sameTables h') hkind hs hs' (hp.parallel h h' hinside) hbody

end Layouts

/-- **The body of a program does not depend on the dialect.** -/
theorem decode_dialects {name : String} {calls : List Call} (serial : Nat)
    (hp : Portable name calls) :
    ((∃ c, ((assemble name calls).inDialect .v39).finish serial = .ok c)
        ↔ ∃ c, ((assemble name calls).inDialect .v310).finish serial = .ok c)
      ∧ ∀ c c', ((assemble name calls).inDialect .v39).finish serial = .ok c →
        ((assemble name calls).inDialect .v310).finish serial = .ok c' →
        ((∃ e, Body.decode c = .error e) ∧ ∃ e, Body.decode c' = .error e)
          ∨ ∃ is map is' map', Body.decode c = .ok (is, map) ∧ Body.decode c' = .ok (is', map')
            ∧ Dense is ∧ is.map Instr.anywhere = is'.map Instr.anywhere := by
  constructor
  · cases hresolve : (assemble name calls).resolve with
    | error e =>
      have hnot : ∀ d c, ((assemble name calls).inDialect d).finish serial ≠ .ok c := by
        intro d c hc
        obtain ⟨items, hitems, -⟩ := bind_eq_ok.mp hc
        cases hresolve.symm.trans hitems
      refine ⟨?_, ?_⟩ <;>
      · rintro ⟨c, hc⟩
        exact absurd hc (hnot _ c)
    | ok items =>
      have hiff : ∀ d, (∃ c, ((assemble name calls).inDialect d).finish serial = .ok c)
          ↔ Forward items := fun d =>
        finish_iff serial hresolve (fun sizes => hp.small items d sizes hresolve)
          fun r hr t ht => Portable.labels_le hresolve hr ht
      rw [hiff, hiff]
  · intro c c' hc hc'
    obtain ⟨items, sizes, args, h⟩ := finish_eq_ok hc
    obtain ⟨items', sizes', args', h'⟩ := finish_eq_ok hc'
    cases h.resolved.symm.trans h'.resolved
    cases hbody : Body.decode c with
    | ok r =>
      obtain ⟨is, map⟩ := r
      obtain ⟨is', map', hbody', hsame⟩ := hp.decode_body h h' hbody
      exact .inr ⟨is, map, is', map', rfl, hbody', (Body.decode_fits hbody).1.dense, hsame⟩
    | error e =>
      refine .inl ⟨⟨e, rfl⟩, ?_⟩
      cases hbody' : Body.decode c' with
      | error e' => exact ⟨e', rfl⟩
      | ok r' =>
        obtain ⟨is', map'⟩ := r'
        obtain ⟨is, map, hok, -⟩ := hp.decode_body h' h hbody'
        cases hbody.symm.trans hok

/-- A jump over 130 instructions: its operand fits a byte in one dialect only. -/
def longJump : List Call := .emitJump .jumpForward 1 :: List.replicate 130 (.emit .nop 0)
  ++ [.bindLabel 1, .emitConstant .loadConst .none, .emit .returnValue 0]

/-- Its code has one more unit in the older dialect. -/
theorem longJump_layout :
    (match ((assemble "f" longJump).inDialect .v39).finish 0 with
      | .error _ => false
      | .ok c => c.code.length == 268 && (Body.decode c).isOk) = true
    ∧ (match ((assemble "f" longJump).inDialect .v310).finish 0 with
      | .error _ => false
      | .ok c => c.code.length == 266) = true := by
  simp only [Body.decode, InstructionStream.decode, strayJump?_eq]
  decide +kernel

theorem decode_dialects_longJump : ∃ c c' is map is' map',
    ((assemble "f" longJump).inDialect .v39).finish 0 = .ok c
      ∧ ((assemble "f" longJump).inDialect .v310).finish 0 = .ok c'
      ∧ c.code.length = 268 ∧ c'.code.length = 266
      ∧ Body.decode c = .ok (is, map) ∧ Body.decode c' = .ok (is', map')
      ∧ is.map Instr.anywhere = is'.map Instr.anywhere := by
  have hp : Portable "f" longJump := by
    refine ⟨by decide +kernel, by decide +kernel, fun items d sizes hresolve hreached => ?_⟩
    have hle := sum_le_of_le_four hreached.le_four
    have hlength : (emissions longJump).length = 133 := by decide +kernel
    rw [hreached.length_eq, length_resolved hresolve, hlength] at hle
    omega
  obtain ⟨hrun, hrun'⟩ := longJump_layout
  split at hrun
  · cases hrun
  · rename_i c hc
    split at hrun'
    · cases hrun'
    · rename_i c' hc'
      rw [Bool.and_eq_true, beq_iff_eq] at hrun
      rcases (decode_dialects 0 hp).2 c c' hc hc' with ⟨⟨e, he⟩, -⟩ | ⟨is, map, is', map', hbody, hbody', -, hsame⟩
      · rw [he] at hrun
        cases hrun.2
      · exact ⟨c, c', is, map, is', map', hc, hc', hrun.1, beq_iff_eq.mp hrun', hbody, hbody', hsame⟩

end Assembler

end Stackwise
