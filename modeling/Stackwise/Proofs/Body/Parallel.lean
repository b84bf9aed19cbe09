import Stackwise.Proofs.Body.Layout

/-!
# Bodies of parallel streams

Two streams that list the same instructions at different offsets decode to the same body.

* `InstructionStream.Parallel`: the same opcodes, operands and lines, and jumps to the same positions.
* `Body.decode_ok`: decoding a body fails only for its kind, its stream or one of its operands.
* `Body.decode_parallel`: bodies of parallel streams agree in all but their origins.
-/

namespace Stackwise

/-! ## 1. Operations -/

/-- Code objects whose tables are the same for operands. -/
structure CodeObject.SameTables (c c' : CodeObject) : Prop where
  constants : c'.constants = c.constants
  names : c'.names = c.names
  varnames : c'.varnames = c.varnames
  cellvars : c'.cellvars = c.cellvars
  freevars : c'.freevars = c.freevars

theorem CodeObject.SameTables.symm {c c' : CodeObject} (h : c.SameTables c') : c'.SameTables c :=
  ⟨h.constants.symm, h.names.symm, h.varnames.symm, h.cellvars.symm, h.freevars.symm⟩

namespace Op

theorem ite_eq_ok {α ε : Type} {p : Prop} [Decidable p] {a b : α} {e e' : ε}
    (h : (if p then Except.ok a else .error e) = .ok b) :
    (if p then Except.ok a else .error e') = .ok b := by
  split at h
  · rwa [if_pos ‹_›]
  · cases h

/-- An operation depends on the opcode, the operand and the tables only. -/
theorem decode_congr {i i' : Instruction} {c c' : CodeObject} {op : Op} (hc : c.SameTables c')
    (hopcode : i.opcode = i'.opcode) (harg : i.arg = i'.arg) (hjump : i.opcode.jumpOp? = none)
    (h : decode i c = .ok op) : decode i' c' = .ok op := by
  have hname : ∀ {n}, nameOf i c = .ok n → nameOf i' c' = .ok n := by
    intro n hn
    unfold nameOf at hn ⊢
    rw [hc.names, ← harg]
    cases hget : c.names[i.arg]? with
    | none =>
      rw [hget] at hn
      cases hn
    | some s =>
      rw [hget] at hn
      exact hn
  have hlocal : ∀ {n}, localOf i c = .ok n → localOf i' c' = .ok n := by
    intro n hn
    rw [localOf, hc.varnames, ← harg]
    exact ite_eq_ok hn
  have hcell : ∀ {n}, cellOf i c = .ok n → cellOf i' c' = .ok n := by
    intro n hn
    rw [cellOf, CodeObject.closureSize, hc.cellvars, hc.freevars, ← harg]
    exact ite_eq_ok hn
  have hconstant : ∀ {n}, constantOf i c = .ok n → constantOf i' c' = .ok n := by
    intro n hn
    rw [constantOf, hc.constants, ← harg]
    exact ite_eq_ok hn
  have hwhen : ∀ {ok n}, argWhen i ok = .ok n → argWhen i' ok = .ok n := by
    intro ok n hn
    rw [argWhen, ← harg]
    exact ite_eq_ok hn
  obtain ⟨offset, opcode, arg, size, target, mark, line⟩ := i
  obtain ⟨offset', opcode', arg', size', target', mark', line'⟩ := i'
  cases hopcode
  cases harg
  cases opcode
  all_goals first
    | exact h
    | (cases hjump; done)
    | (obtain ⟨n, hn, rfl⟩ := map_eq_ok.mp h
       first
       | exact map_eq_ok.mpr ⟨n, hname hn, rfl⟩
       | exact map_eq_ok.mpr ⟨n, hlocal hn, rfl⟩
       | exact map_eq_ok.mpr ⟨n, hcell hn, rfl⟩
       | exact map_eq_ok.mpr ⟨n, hconstant hn, rfl⟩
       | exact map_eq_ok.mpr ⟨n, hwhen hn, rfl⟩)
    | (unfold decode at h ⊢
       dsimp only at h ⊢
       split at h
       · exact h
       · cases h)

theorem retarget_jumpOp {opcode : Opcode} {f : Nat → Op} (h : opcode.jumpOp? = some f)
    (g : Nat → Nat) (t : Nat) : (f t).targets = [t] ∧ (f t).retarget g = f (g t) := by
  cases opcode <;> cases h <;> exact ⟨rfl, rfl⟩

end Op

/-! ## 2. Decoding a body -/

theorem Instr.markTargets_markTargets (is : List Instr) :
    markTargets (markTargets is) = markTargets is := by
  have htargets : (markTargets is).flatMap (fun i => i.op.targets)
      = is.flatMap fun i => i.op.targets := by
    rw [markTargets, List.flatMap_map]
  rw [markTargets, htargets]
  simp only [markTargets, List.map_map]
  rfl

namespace Body

theorem decode_marked {c : CodeObject} {is : List Instr} {map : OffsetMap}
    (h : decode c = .ok (is, map)) : Instr.markTargets is = is := by
  unfold decode at h
  split at h
  · cases h
  · split at h
    · cases h
    · split at h
      · cases h
      · obtain ⟨moved, -, h⟩ := bind_eq_ok.mp h
        cases h
        exact Instr.markTargets_markTargets moved

/-- A target of an operation is a target of its instruction. -/
theorem targets_of_decode {i : Instruction} {c : CodeObject} {op : Op} {t : Nat}
    (h : Op.decode i c = .ok op) (ht : t ∈ op.targets) : i.target = some t := by
  cases hjump : i.opcode.jumpOp? with
  | none =>
    rw [(Op.decode_shaped h).targets hjump] at ht
    cases ht
  | some f =>
    rw [Op.decode_jump c hjump] at h
    obtain ⟨t', ht', rfl⟩ := map_eq_ok.mp h
    rw [(Op.retarget_jumpOp hjump id t').1] at ht
    cases List.mem_singleton.mp ht
    unfold Op.targetOf at ht'
    split at ht'
    · cases ht'
      assumption
    · cases ht'

/-- **Decoding a body fails only for its kind, its stream or one of its operands.** -/
theorem decode_ok {c : CodeObject} {s : InstructionStream} (hkind : c.unsupportedKind? = none)
    (hs : InstructionStream.decode c = .ok s)
    (hops : ∀ i ∈ s.instructions, ∃ op, Op.decode i c = .ok op) :
    ∃ is map, decode c = .ok (is, map) := by
  obtain ⟨ops, hmap⟩ := exists_mapM_eq_ok hops
  have hforall := forall₂_of_mapM hmap
  have hascending := InstructionStream.decode_ascending hs
  have hwrite : write c .empty s.instructions = .ok (decodedWriter s.instructions ops) :=
    write_eq_ok.mpr ⟨ops, hforall, rfl⟩
  -- an operation that was written is that of an instruction
  have hwritten : ∀ op ∈ (decodedWriter s.instructions ops).ops,
      ∃ i ∈ s.instructions, Op.decode i c = .ok op := by
    intro op hop
    obtain ⟨j, hj, rfl⟩ := List.mem_map.mp hop
    obtain ⟨k, hk⟩ := List.mem_iff_getElem?.mp hj
    rw [Array.getElem?_toList] at hk
    have hlt := (Array.getElem?_eq_some_iff.mp hk).1
    rw [size_decodedWriter hforall hascending.order] at hlt
    obtain ⟨op, hdecode, hentry, -⟩ := getElem?_decodedWriter hforall hascending.order
      (List.getElem?_eq_getElem hlt)
    cases hk.symm.trans hentry
    exact ⟨_, List.getElem_mem hlt, hdecode⟩
  have hfinish : ∃ is, (decodedWriter s.instructions ops).finish
      = .ok (is, (decodedWriter s.instructions ops).map) := by
    refine BodyWriter.finish_ok (fun op hop => ?_) fun op hop t ht => ?_
    · obtain ⟨i, -, hi⟩ := hwritten op hop
      exact Op.isDispatch_of_plain (Op.decode_fits hi).2
    · obtain ⟨i, hmem, hi⟩ := hwritten op hop
      obtain ⟨j, hj, rfl⟩ := hascending.lands i hmem t (targets_of_decode hi ht)
      obtain ⟨k, hk⟩ := List.mem_iff_getElem?.mp hj
      obtain ⟨-, -, -, hmap⟩ := getElem?_decodedWriter hforall hascending.order hk
      exact Option.isSome_of_mem hmap
  obtain ⟨is, hfinish⟩ := hfinish
  refine ⟨is, (decodedWriter s.instructions ops).map, ?_⟩
  rw [decode, hkind, hs]
  dsimp only
  rw [hwrite]
  exact hfinish

end Body

/-! ## 3. Parallel streams -/

/-- Streams of the same instructions at different offsets. -/
structure InstructionStream.Parallel (raw raw' : List Instruction) : Prop where
  length : raw.length = raw'.length
  same : ∀ {k : Nat} {i i' : Instruction}, raw[k]? = some i → raw'[k]? = some i' →
    i.opcode = i'.opcode ∧ i.line = i'.line
  arg : ∀ {k : Nat} {i i' : Instruction}, raw[k]? = some i → raw'[k]? = some i' →
    i.opcode.jumpKind? = none → i.arg = i'.arg
  target : ∀ {k : Nat} {i i' : Instruction}, raw[k]? = some i → raw'[k]? = some i' →
    i.opcode.jumpKind?.isSome = true → ∃ (m : Nat) (j j' : Instruction),
      raw[m]? = some j ∧ raw'[m]? = some j'
      ∧ i.target = some j.offset ∧ i'.target = some j'.offset

theorem InstructionStream.Parallel.symm {raw raw' : List Instruction} (h : Parallel raw raw') :
    Parallel raw' raw where
  length := h.length.symm
  same hk hk' := ⟨(h.same hk' hk).1.symm, (h.same hk' hk).2.symm⟩
  arg hk hk' hkind := (h.arg hk' hk ((h.same hk' hk).1 ▸ hkind)).symm
  target hk hk' hkind := by
    obtain ⟨m, j, j', hj, hj', ht, ht'⟩ := h.target hk' hk ((h.same hk' hk).1 ▸ hkind)
    exact ⟨m, j', j, hj', hj, ht', ht⟩

/-- An instruction without the offset that it comes from. -/
def Instr.anywhere (i : Instr) : Instr := { i with origin := none }

/-- Dense and marked bodies with the same operations and lines are the same but for origins. -/
theorem Instr.map_anywhere_eq {is is' : List Instr} (hd : Dense is) (hd' : Dense is')
    (hm : markTargets is = is) (hm' : markTargets is' = is')
    (hsame : List.Forall₂ (fun j j' => j.op = j'.op ∧ j.line = j'.line) is is') :
    is.map anywhere = is'.map anywhere := by
  have htargets : is.flatMap (fun i => i.op.targets) = is'.flatMap fun i => i.op.targets := by
    clear hd hd' hm hm'
    induction hsame with
    | nil => rfl
    | cons hj _ ih => rw [List.flatMap_cons, List.flatMap_cons, ih, hj.1]
  rw [← hm, ← hm', markTargets, markTargets, htargets, List.map_map, List.map_map]
  generalize is'.flatMap (fun i => i.op.targets) = targets
  refine List.ext_getElem (by rw [List.length_map, List.length_map, hsame.length_eq])
    fun k hk hk' => ?_
  rw [List.length_map] at hk hk'
  have hop : is[k].op = is'[k].op := (hsame.get hk hk').1
  have hline : is[k].line = is'[k].line := (hsame.get hk hk').2
  have hoffset := hd k _ (List.getElem?_eq_getElem hk)
  have hoffset' := hd' k _ (List.getElem?_eq_getElem hk')
  rw [List.getElem_map, List.getElem_map]
  change (⟨is[k].offset, is[k].op, is[k].line, none, targets.contains is[k].offset⟩ : Instr)
    = ⟨is'[k].offset, is'[k].op, is'[k].line, none, targets.contains is'[k].offset⟩
  rw [hop, hline, hoffset, hoffset']

namespace Body

open InstructionStream (Parallel)

section Parallel

variable {c c' : CodeObject} {raw raw' : List Instruction} (hp : Parallel raw raw')
  (hc : c.SameTables c') {k : Nat} {i i' : Instruction} (hk : raw[k]? = some i)
  (hk' : raw'[k]? = some i')
include hp hc hk hk'

/-- Operations of parallel instructions: the same, or the same jump to parallel instructions. -/
theorem decode_op (hsupported : i.opcode.isSupported = true) {op : Op}
    (h : Op.decode i c = .ok op) : (op.targets = [] ∧ Op.decode i' c' = .ok op)
      ∨ ∃ (f : Nat → Op) (m : Nat) (j j' : Instruction), i.opcode.jumpOp? = some f
        ∧ raw[m]? = some j ∧ raw'[m]? = some j'
        ∧ op = f j.offset ∧ Op.decode i' c' = .ok (f j'.offset) := by
  have hopcode := (hp.same hk hk').1
  cases hjump : i.opcode.jumpOp? with
  | none =>
    have hkind : i.opcode.jumpKind? = none := by
      have hnone := Opcode.jumpOp?_isSome i.opcode
      rw [hjump, hsupported, Bool.true_and] at hnone
      exact Option.isNone_iff_eq_none.mp (Option.isSome_eq_false_iff.mp hnone.symm)
    exact .inl ⟨(Op.decode_shaped h).targets hjump,
      Op.decode_congr hc hopcode (hp.arg hk hk' hkind) hjump h⟩
  | some f =>
    have hkind : i.opcode.jumpKind?.isSome = true := by
      have hsome := Opcode.jumpOp?_isSome i.opcode
      rw [hjump, hsupported, Bool.true_and] at hsome
      exact hsome.symm
    obtain ⟨m, j, j', hj, hj', ht, ht'⟩ := hp.target hk hk' hkind
    refine .inr ⟨f, m, j, j', rfl, hj, hj', ?_, ?_⟩
    · rw [Op.decode_jump c hjump, Op.targetOf, ht] at h
      exact (Except.ok.inj h).symm
    · rw [Op.decode_jump c' (hopcode ▸ hjump), Op.targetOf, ht']
      rfl

/-- Parallel instructions become the same operation. -/
theorem decoded_op {is is' : List Instr} {map map' : OffsetMap} (hd : Decoded c raw is map)
    (hd' : Decoded c' raw' is' map') (hsupported : i.opcode.isSupported = true) :
    ∃ j j' : Instr, is[k]? = some j ∧ is'[k]? = some j' ∧ j.op = j'.op ∧ j.line = j'.line := by
  obtain ⟨op, j, hop, hj, hrelabel, hline, -⟩ := hd.entry hk
  obtain ⟨op', j', hop', hj', hrelabel', hline', -⟩ := hd'.entry hk'
  refine ⟨j, j', hj, hj', ?_, by rw [hline, hline', (hp.same hk hk').2]⟩
  obtain ⟨-, hmoved⟩ := (Op.relabel_eq_ok (Op.isDispatch_of_plain (Op.decode_fits hop).2)).mp hrelabel
  obtain ⟨-, hmoved'⟩ :=
    (Op.relabel_eq_ok (Op.isDispatch_of_plain (Op.decode_fits hop').2)).mp hrelabel'
  rcases decode_op hp hc hk hk' hsupported hop with ⟨htargets, hsame⟩ | ⟨f, m, t, t', hf, ht, ht', rfl, hsame⟩
  · cases hsame.symm.trans hop'
    have hself : ∀ g : Nat → Nat, op.retarget g = op := fun g =>
      Op.retarget_eq_self fun t ht => by
        rw [htargets] at ht
        cases ht
    rw [hmoved, hmoved', hself, hself]
  · cases hsame.symm.trans hop'
    rw [hmoved, hmoved', (Op.retarget_jumpOp hf _ _).2, (Op.retarget_jumpOp hf _ _).2,
      OffsetMap.image_eq (hd.map ht), OffsetMap.image_eq (hd'.map ht')]

end Parallel

/-- **Bodies of parallel streams** agree in all but their origins. -/
theorem decode_parallel {c c' : CodeObject} {s s' : InstructionStream} {is : List Instr}
    {map : OffsetMap} (hc : c.SameTables c') (hkind : c'.unsupportedKind? = none)
    (hs : InstructionStream.decode c = .ok s) (hs' : InstructionStream.decode c' = .ok s')
    (hp : Parallel s.instructions s'.instructions) (h : decode c = .ok (is, map)) :
    ∃ is' map', decode c' = .ok (is', map') ∧ is.map Instr.anywhere = is'.map Instr.anywhere := by
  obtain ⟨s₀, hs₀, hascending, hd⟩ := decode_decoded h
  cases hs.symm.trans hs₀
  have hops : ∀ i' ∈ s'.instructions, ∃ op, Op.decode i' c' = .ok op := by
    intro i' hi'
    obtain ⟨k, hk'⟩ := List.mem_iff_getElem?.mp hi'
    have hk := List.getElem?_eq_getElem (hp.length.symm ▸ (List.getElem?_eq_some_iff.mp hk').1)
    obtain ⟨op, -, hop, -⟩ := hd.entry hk
    have hsupported := (hascending.aimed _ (List.mem_of_getElem? hk)).supported
    rcases decode_op hp hc hk hk' hsupported hop with ⟨-, hsame⟩ | ⟨f, m, t, t', -, -, -, -, hsame⟩
    · exact ⟨op, hsame⟩
    · exact ⟨_, hsame⟩
  obtain ⟨is', map', h'⟩ := decode_ok hkind hs' hops
  obtain ⟨s₁, hs₁, -, hd'⟩ := decode_decoded h'
  cases hs'.symm.trans hs₁
  refine ⟨is', map', h', ?_⟩
  have hlength : is.length = is'.length := hd.length.trans (hp.length.trans hd'.length.symm)
  refine Instr.map_anywhere_eq hd.dense hd'.dense (decode_marked h) (decode_marked h') ?_
  refine List.forall₂_iff_get.mpr ⟨hlength, fun k hk hk' => ?_⟩
  have hi := List.getElem?_eq_getElem (hd.length ▸ hk)
  have hi' := List.getElem?_eq_getElem (hd'.length ▸ hk')
  obtain ⟨j, j', hj, hj', hsame⟩ := decoded_op hp hc hi hi' hd hd'
    (hascending.aimed _ (List.mem_of_getElem? hi)).supported
  have hat : is.get ⟨k, hk⟩ = j := (List.getElem?_eq_some_iff.mp hj).2
  have hat' : is'.get ⟨k, hk'⟩ = j' := (List.getElem?_eq_some_iff.mp hj').2
  rw [hat, hat']
  exact hsame

end Body

end Stackwise
