import Stackwise.Proofs.Body.Passes
import Stackwise.Proofs.Compile.Programs

/-!
# Offsets of a compiled body

Decoding, spelling out `with` and making a state machine renumber the instructions one after the
other. The offset map of a compiled body leads through all three.

* `CompiledBody.Pipeline`: a body after the three passes, with the chunks of each.
* `Pipeline.place`: where an instruction of the stream comes to stand. Places keep the order, and
  only an instruction that disappears shares its place with the next.
* `Pipeline.target_of`: the image of a jump names the image of its target.
* `CompiledBody.offsets_faithful`: the offset map of every compiled body is faithful.
-/

namespace Stackwise

namespace CompiledBody

/-! ## 1. The three passes together -/

/-- Whether an instruction disappears: the one that starts a generator, in a generator. -/
def drops (c : CodeObject) (i : Instruction) : Bool := c.isGenerator && i.opcode == .genStart

theorem drops_eq_false (c : CodeObject) {i : Instruction} (hi : InstructionStream.Aimed i) {t : Nat}
    (ht : i.target = some t) : drops c i = false := by
  have hkind := hi.target
  rw [ht, Option.isSome_some] at hkind
  rw [drops, Bool.and_eq_false_iff, beq_eq_false_iff_ne]
  refine .inr fun hop => ?_
  rw [hop] at hkind
  cases hkind

/-- A body that was decoded, entered and suspended, with what was written on the way. -/
structure Pipeline (c : CodeObject) (expands : Bool) (raw : List Instruction)
    (is mid out : List Instr) (m₀ m₁ m₂ map : OffsetMap) (cs ds : List Chunk) (base : Nat) :
    Prop where
  stream : InstructionStream.Ascending raw
  decoded : Body.Decoded c raw is m₀
  entered : Body.Laid 0 cs mid m₁
  enters : cs = is.map (Body.enteredChunk expands)
  suspended : Body.Laid base ds out m₂
  suspends : List.Forall₂ (Body.Suspended c.isGenerator) mid ds
  offsets : ∀ {o k : Nat}, m₀.get? o = some k → k < is.length →
    map.get? o = m₂.get? (Chunk.start cs k)

namespace Pipeline

variable {c : CodeObject} {expands : Bool} {raw : List Instruction} {is mid out : List Instr}
  {m₀ m₁ m₂ map : OffsetMap} {cs ds : List Chunk} {base k : Nat} {i : Instruction}

/-- Where instruction `k` of the stream comes to stand. -/
def place (cs ds : List Chunk) (base k : Nat) : Nat := base + Chunk.start ds (Chunk.start cs k)

section Stages

variable (h : Pipeline c expands raw is mid out m₀ m₁ m₂ map cs ds base)
include h

/-- After decoding: the operation keeps its kind, and a target is a position in the stream. -/
theorem after_decode (hk : raw[k]? = some i) : ∃ j, is[k]? = some j ∧ j.origin = some i.offset
    ∧ j.op.isGenStart = (i.opcode == .genStart) ∧ j.op.isWith = (i.opcode == .setupWith)
    ∧ j.op.isDispatch = false ∧ ∀ t, i.target = some t →
      ∃ k' i', raw[k']? = some i' ∧ i'.offset = t ∧ j.op.targets = [k'] := by
  obtain ⟨op, j, hop, hj, hrelabel, -, horigin⟩ := h.decoded.entry hk
  have hshape := Op.decode_shaped hop
  have hswitch := (Op.decode_fits hop).2
  obtain ⟨-, hj'⟩ := (Op.relabel_eq_ok (Op.isDispatch_of_plain hswitch)).mp hrelabel
  obtain ⟨hgen, hwith, -, hkind⟩ := Op.retarget_kind m₀.image op
  rw [← hj'] at hgen hwith hkind
  refine ⟨j, hj, horigin, hgen.trans hshape.isGenStart, hwith.trans hshape.isWith,
    Op.isDispatch_of_plain (hkind.trans hswitch), fun t ht => ?_⟩
  have hmem := List.mem_of_getElem? hk
  obtain ⟨i', hi', hoffset⟩ := h.stream.lands i hmem t ht
  obtain ⟨k', hk'⟩ := List.mem_iff_getElem?.mp hi'
  refine ⟨k', i', hk', hoffset, ?_⟩
  rw [hj', Op.targets_retarget, Op.decode_target (h.stream.aimed i hmem) hop ht, List.map_singleton,
    OffsetMap.image_eq (hoffset ▸ h.decoded.map hk')]

theorem entered_at {j : Instr} (hk : is[k]? = some j) :
    cs[k]? = some ⟨j.offset, Body.enteredOps expands j.op, j.line, j.origin⟩ := by
  rw [h.enters, List.getElem?_map, hk]
  rfl

/-- After the pass over `with` statements. -/
theorem after_enter {j : Instr} (hk : is[k]? = some j) {n : Nat} {op : Op}
    (hop : (Body.enteredOps expands j.op)[n]? = some op) (hd : op.isDispatch = false) :
    ∃ j', mid[Chunk.start cs k + n]? = some j' ∧ j'.op = op.retarget m₁.image
      ∧ j'.origin = j.origin := by
  obtain ⟨j', hj', hrelabel, -, horigin⟩ := h.entered.entry (h.entered_at hk) hop
  rw [Nat.zero_add] at hj'
  exact ⟨j', hj', ((Op.relabel_eq_ok hd).mp hrelabel).2, horigin⟩

theorem image_enter {j : Instr} (hk : is[k]? = some j) : m₁.get? k = some (Chunk.start cs k) := by
  have hentered := h.entered
  rw [h.enters] at hentered ⊢
  exact (Body.image_entered h.decoded.dense hentered hk).2

theorem suspended_at {p : Nat} {j : Instr} (hp : mid[p]? = some j) :
    ∃ d, ds[p]? = some d ∧ Body.Suspended c.isGenerator j d := by
  obtain ⟨hlt, rfl⟩ := List.getElem?_eq_some_iff.mp hp
  have hlt' : p < ds.length := h.suspends.length_eq ▸ hlt
  exact ⟨ds[p], List.getElem?_eq_getElem hlt', h.suspends.get hlt hlt'⟩

/-- One operation that stays takes one place. -/
theorem start_plain {p : Nat} {j : Instr} (hp : mid[p]? = some j) (hgen : j.op.isGenStart = false)
    (hyield : j.op.isYield = false) : Chunk.start ds (p + 1) = Chunk.start ds p + 1 := by
  obtain ⟨d, hd, hs⟩ := h.suspended_at hp
  rw [Chunk.start_succ hd, hs.plain (by rw [hgen, Bool.and_false]) hyield]
  rfl

/-- After the pass over generators. -/
theorem after_suspend {p : Nat} {j : Instr} (hp : mid[p]? = some j)
    (hkept : (c.isGenerator && j.op.isGenStart) = false) :
    ∃ j', out[base + Chunk.start ds p]? = some j' ∧ j'.origin = j.origin
      ∧ (j.op.isYield = false → j.op.relabel m₂ = .ok j'.op) := by
  obtain ⟨d, hd, hs⟩ := h.suspended_at hp
  obtain ⟨op, hop⟩ : ∃ op, d.ops[0]? = some op := ⟨_, List.getElem?_eq_getElem (hs.kept hkept)⟩
  obtain ⟨j', hj', hrelabel, -, horigin⟩ := h.suspended.entry hd hop
  refine ⟨j', hj', horigin.trans hs.origin, fun hyield => ?_⟩
  rw [hs.plain hkept hyield] at hop
  cases hop
  exact hrelabel

theorem image_suspend {p : Nat} {j : Instr} (hp : mid[p]? = some j) : m₂.get? p
    = if base + Chunk.start ds p < out.length then some (base + Chunk.start ds p) else none := by
  obtain ⟨d, hd, hs⟩ := h.suspended_at hp
  rw [← h.suspended.map hd, hs.old, h.entered.dense p j hp]

/-! ## 2. Places -/

/-- The first operation that an instruction became, before generators are suspended. -/
theorem first_of (hk : raw[k]? = some i) : ∃ j, mid[Chunk.start cs k]? = some j
    ∧ j.origin = some i.offset ∧ (c.isGenerator && j.op.isGenStart) = drops c i := by
  obtain ⟨j, hj, horigin, hgen, hwith, hdispatch, -⟩ := h.after_decode hk
  by_cases he : (expands && j.op.isWith) = true
  · rw [Bool.and_eq_true] at he
    obtain ⟨t, ht⟩ : ∃ t, j.op = .setupWith t := by
      revert he
      cases j.op <;> intro he <;> first | exact ⟨_, rfl⟩ | cases he.2
    have hop : (Body.enteredOps expands j.op)[0]? = some .dupTop := by
      rw [ht, Body.enteredOps, if_pos he.1]
      rfl
    obtain ⟨j', hj', hop', horigin'⟩ := h.after_enter hj hop rfl
    refine ⟨j', hj', horigin'.trans horigin, ?_⟩
    rw [drops, ← hgen, hop', ht]
    rfl
  · have hop : (Body.enteredOps expands j.op)[0]? = some j.op := by
      rw [Body.enteredOps_eq expands (Bool.eq_false_iff.mpr he)]
      rfl
    obtain ⟨j', hj', hop', horigin'⟩ := h.after_enter hj hop hdispatch
    refine ⟨j', hj', horigin'.trans horigin, ?_⟩
    rw [drops, ← hgen, hop', (Op.retarget_kind _ _).1]

theorem start_entered (hk : raw[k]? = some i) : ∃ n, 0 < n
    ∧ Chunk.start cs (k + 1) = Chunk.start cs k + n ∧ (drops c i = true → n = 1) := by
  obtain ⟨j, hj, -, hgen, hwith, -, -⟩ := h.after_decode hk
  refine ⟨_, Body.enteredOps_pos expands j.op, Chunk.start_succ (h.entered_at hj), fun hd => ?_⟩
  have hop : i.opcode = .genStart := beq_iff_eq.mp (Bool.and_eq_true_iff.mp hd).2
  rw [hop] at hwith
  rw [Body.enteredOps_eq expands (by rw [hwith]; exact Bool.and_false _)]
  rfl

theorem place_kept (hk : raw[k]? = some i) (hi : drops c i = false) :
    place cs ds base k < place cs ds base (k + 1) := by
  obtain ⟨n, hn, hstart, -⟩ := h.start_entered hk
  obtain ⟨j, hj, -, hdrop⟩ := h.first_of hk
  obtain ⟨d, hd, hs⟩ := h.suspended_at hj
  have hpos := hs.kept (hdrop.trans hi)
  have hnext := Chunk.start_succ hd
  have hmono := Chunk.start_mono ds (show Chunk.start cs k + 1 ≤ Chunk.start cs (k + 1) by omega)
  unfold place
  omega

theorem place_dropped (hk : raw[k]? = some i) (hi : drops c i = true) :
    place cs ds base (k + 1) = place cs ds base k := by
  obtain ⟨n, -, hstart, hn⟩ := h.start_entered hk
  obtain ⟨j, hj, -, hdrop⟩ := h.first_of hk
  obtain ⟨d, hd, hs⟩ := h.suspended_at hj
  have hnext := Chunk.start_succ hd
  rw [hs.dropped (hdrop.trans hi), List.length_nil, Nat.add_zero] at hnext
  rw [place, hstart, hn hi, hnext]
  rfl

omit h in
theorem place_mono {k' : Nat} (hle : k ≤ k') : place cs ds base k ≤ place cs ds base k' :=
  Nat.add_le_add_left (Chunk.start_mono ds (Chunk.start_mono cs hle)) base

theorem place_lt (hk : raw[k]? = some i) (hi : drops c i = false) :
    place cs ds base k < out.length := by
  refine Nat.lt_of_lt_of_le (h.place_kept hk hi) ?_
  obtain ⟨j, hj, -⟩ := h.after_decode hk
  have hlt := (List.getElem?_eq_some_iff.mp (h.entered_at hj)).1
  have hle := Chunk.start_mono cs (show k + 1 ≤ cs.length from hlt)
  have hlength := h.entered.length
  have hall := Chunk.start_mono ds (show Chunk.start cs (k + 1) ≤ ds.length by
    rw [← h.suspends.length_eq, h.entered.length]
    omega)
  rw [h.suspended.length]
  unfold place
  omega

/-- The image of an instruction of the stream. -/
theorem image (hk : raw[k]? = some i) : map.get? i.offset
    = if place cs ds base k < out.length then some (place cs ds base k) else none := by
  obtain ⟨j, hj, -⟩ := h.first_of hk
  have hlt : k < is.length := h.decoded.length ▸ (List.getElem?_eq_some_iff.mp hk).1
  rw [h.offsets (h.decoded.map hk) hlt]
  exact h.image_suspend hj

/-! ## 3. Targets -/

/-- A target of an operation that stays is moved to the place of the instruction it names. -/
theorem moved_target {p k' : Nat} {j : Instr} {i' : Instruction} (hp : mid[p]? = some j)
    (hdispatch : j.op.isDispatch = false) (ht : j.op.targets = [Chunk.start cs k'])
    (hk' : raw[k']? = some i') : ∃ j', out[base + Chunk.start ds p]? = some j'
      ∧ j'.op = j.op.retarget m₂.image ∧ m₂.image (Chunk.start cs k') = place cs ds base k'
      ∧ place cs ds base k' < out.length := by
  obtain ⟨hyield, hgen⟩ := Op.isYield_of_target ht
  obtain ⟨j', hj', -, hrelabel⟩ := h.after_suspend hp (by rw [hgen, Bool.and_false])
  obtain ⟨hmapped, hop⟩ := (Op.relabel_eq_ok hdispatch).mp (hrelabel hyield)
  obtain ⟨j'', hj'', -⟩ := h.first_of hk'
  have himage := h.image_suspend hj''
  have hsome := hmapped (Chunk.start cs k') (by rw [ht]; exact .head _)
  rw [himage] at hsome
  split at hsome
  · rename_i hlt
    rw [if_pos hlt] at himage
    exact ⟨j', hj', hop, OffsetMap.image_eq himage, hlt⟩
  · cases hsome

/-- The operations of an entry that is spelled out stay together. -/
theorem start_expansion {t : Nat} {j : Instr} (hk : is[k]? = some j) (hexpands : expands = true)
    (hop : j.op = .setupWith t) {n : Nat} (hn : n ≤ 5) :
    Chunk.start ds (Chunk.start cs k + n) = Chunk.start ds (Chunk.start cs k) + n := by
  induction n with
  | zero => rfl
  | succ n ih =>
    have hops : Body.enteredOps expands j.op = Body.expandOp (.setupWith t) := by
      rw [Body.enteredOps, if_pos hexpands, hop]
    have hlt : n < (Body.expandOp (.setupWith t)).length := Nat.lt_of_lt_of_le hn (Nat.le_succ 5)
    obtain ⟨hd, hgen, hyield⟩ := Body.expandOp_plain (List.getElem_mem hlt)
    obtain ⟨j', hj', hop', -⟩ := h.after_enter hk (by rw [hops]; exact List.getElem?_eq_getElem hlt) hd
    obtain ⟨hgen', -, hyield', -⟩ := Op.retarget_kind m₁.image (Body.expandOp (.setupWith t))[n]
    rw [← Nat.add_assoc, h.start_plain hj' (by rw [hop', hgen', hgen])
      (by rw [hop', hyield', hyield]), ih (Nat.le_of_succ_le hn), Nat.add_assoc]

/-- **The image of a jump names the image of its target.** -/
theorem target_of {t : Nat} (hk : raw[k]? = some i) (ht : i.target = some t) :
    ∃ k' i' j, raw[k']? = some i' ∧ i'.offset = t ∧ place cs ds base k' < out.length
      ∧ out[place cs ds base k + if expands && i.opcode == .setupWith then 5 else 0]? = some j
      ∧ j.op.targets = [place cs ds base k']
      ∧ ((expands && i.opcode == .setupWith) = true →
        j.op = .setupFinally (place cs ds base k') .withBlock 1) := by
  obtain ⟨j, hj, -, -, hwith, hdispatch, htarget⟩ := h.after_decode hk
  obtain ⟨k', i', hk', hoffset, htargets⟩ := htarget t ht
  obtain ⟨j₀, hj₀, -⟩ := h.after_decode hk'
  have himage : m₁.image k' = Chunk.start cs k' := OffsetMap.image_eq (h.image_enter hj₀)
  rw [← hwith]
  by_cases he : (expands && j.op.isWith) = true
  · obtain ⟨hexpands, hiswith⟩ := Bool.and_eq_true_iff.mp he
    have hop := Op.eq_setupWith hiswith htargets
    have hlast : (Body.enteredOps expands j.op)[5]? = some (.setupFinally k' .withBlock 1) := by
      rw [Body.enteredOps, if_pos hexpands, hop]
      rfl
    obtain ⟨j₁, hj₁, hop₁, -⟩ := h.after_enter hj hlast rfl
    rw [Op.retarget, himage] at hop₁
    obtain ⟨j₂, hj₂, hop₂, hplace, hlt⟩ := h.moved_target hj₁ (by rw [hop₁]; rfl)
      (by rw [hop₁]; rfl) hk'
    rw [h.start_expansion hj hexpands hop (Nat.le_refl 5), ← Nat.add_assoc] at hj₂
    rw [hop₁, Op.retarget, hplace] at hop₂
    rw [if_pos he]
    exact ⟨k', i', j₂, hk', hoffset, hlt, hj₂, by rw [hop₂]; rfl, fun _ => hop₂⟩
  · have hop : (Body.enteredOps expands j.op)[0]? = some j.op := by
      rw [Body.enteredOps_eq expands (Bool.eq_false_iff.mpr he)]
      rfl
    obtain ⟨j₁, hj₁, hop₁, -⟩ := h.after_enter hj hop hdispatch
    have htargets₁ : j₁.op.targets = [Chunk.start cs k'] := by
      rw [hop₁, Op.targets_retarget, htargets, List.map_singleton, himage]
    have hdispatch₁ : j₁.op.isDispatch = false := by
      rw [hop₁]
      cases hkind : j.op <;> first | rfl | (rw [hkind] at hdispatch; cases hdispatch)
    obtain ⟨j₂, hj₂, hop₂, hplace, hlt⟩ := h.moved_target hj₁ hdispatch₁ htargets₁ hk'
    rw [if_neg he]
    refine ⟨k', i', j₂, hk', hoffset, hlt, hj₂, ?_, fun h => absurd h he⟩
    rw [hop₂, Op.targets_retarget, htargets₁, List.map_singleton, hplace]

/-! ## 4. Order -/

theorem image_kept (hk : raw[k]? = some i) (hi : drops c i = false) :
    map.get? i.offset = some (place cs ds base k) := by
  rw [h.image hk, if_pos (h.place_lt hk hi)]

theorem origin_kept (hk : raw[k]? = some i) (hi : drops c i = false) :
    ∃ j, out[place cs ds base k]? = some j ∧ j.origin = some i.offset := by
  obtain ⟨j, hj, horigin, hdrop⟩ := h.first_of hk
  obtain ⟨j', hj', horigin', -⟩ := h.after_suspend hj (hdrop.trans hi)
  exact ⟨j', hj', horigin'.trans horigin⟩

theorem lt_of_offset_lt {k' : Nat} {i' : Instruction} (hk : raw[k]? = some i)
    (hk' : raw[k']? = some i') (hlt : i.offset < i'.offset) : k < k' := by
  by_contra hnot
  rcases Nat.lt_or_eq_of_le (Nat.le_of_not_lt hnot) with hkk | rfl
  · exact Nat.lt_asymm hlt (h.stream.offset_lt hkk hk' hk)
  · cases hk.symm.trans hk'
    exact Nat.lt_irrefl _ hlt

/-- Instructions that disappear share the place of the next one. -/
theorem place_removed {k' : Nat} (hle : k ≤ k')
    (hall : ∀ n i, k ≤ n → n < k' → raw[n]? = some i → drops c i = true)
    (hbound : k' ≤ raw.length) : place cs ds base k' = place cs ds base k := by
  induction hle with
  | refl => rfl
  | @step n hle ih =>
    have hn : raw[n]? = some raw[n] := List.getElem?_eq_getElem hbound
    rw [h.place_dropped hn (hall n _ hle (Nat.lt_succ_self n) hn)]
    exact ih (fun m i hkm hmn => hall m i hkm (Nat.lt_succ_of_lt hmn)) (Nat.le_of_succ_le hbound)

end Stages

end Pipeline

/-! ## 5. Compiled bodies -/

/-- The pass over `with` statements, whether it is called for or not. -/
theorem apply_expandWith {is : List Instr} {offsets : OffsetMap} {r : Passed} {expands : Bool}
    (hd : Dense is) (hplain : Body.Plain is)
    (hbound : ∀ i ∈ is, ∀ t ∈ i.op.targets, t < is.length)
    (h : Passed.apply ⟨is, offsets, false⟩ (expands && Body.hasWith is) Body.expandWith = .ok r) :
    ∃ map, Body.Laid 0 (is.map (Body.enteredChunk expands)) r.instrs map
      ∧ ∀ {o k}, offsets.get? o = some k → k < is.length → r.offsets.get? o = map.get? k := by
  rcases apply_eq_ok h with ⟨hunwanted, rfl⟩ | ⟨hwanted, -, map, hpass, hoffsets⟩
  · have hchunks : is.map (Body.enteredChunk expands) = is.map Body.plainChunk := by
      refine List.map_congr_left fun i hi => ?_
      rw [Body.enteredChunk, Body.enteredOps_eq expands (Body.isWith_eq_false hunwanted hi),
        Body.plainChunk]
    refine ⟨_, hchunks ▸ Body.plain_laid hd hplain hbound, fun {o k} ho hk => ?_⟩
    rw [OffsetMap.get?_identity List.nodup_range, if_pos (List.mem_range.mpr hk)]
    exact ho
  · refine ⟨map, ?_, fun {o k} ho _ => ?_⟩
    · rw [(Bool.and_eq_true_iff.mp hwanted).1]
      exact Body.expandWith_laid hd hpass
    · rw [hoffsets, OffsetMap.get?_andThen, ho, Option.bind_some]

/-- The pass over generators, whether it is called for or not. -/
theorem apply_toStateMachine {r r' : Passed} {generator : Bool} (hd : Dense r.instrs)
    (hplain : Body.Plain r.instrs)
    (hbound : generator = false → ∀ i ∈ r.instrs, ∀ t ∈ i.op.targets, t < r.instrs.length)
    (h : r.apply generator Body.toStateMachine = .ok r') :
    ∃ map ds base, Body.Laid base ds r'.instrs map
      ∧ List.Forall₂ (Body.Suspended generator) r.instrs ds
      ∧ ∀ {o k}, r.offsets.get? o = some k → k < r.instrs.length →
        r'.offsets.get? o = map.get? k := by
  rcases apply_eq_ok h with ⟨rfl, rfl⟩ | ⟨rfl, -, map, hpass, hoffsets⟩
  · refine ⟨_, _, 0, Body.plain_laid hd hplain (hbound rfl), ?_, fun {o k} ho hk => ?_⟩
    · rw [List.forall₂_map_right_iff, List.forall₂_same]
      exact fun i _ => Body.suspended_plainChunk i
    · rw [OffsetMap.get?_identity List.nodup_range, if_pos (List.mem_range.mpr hk)]
      exact ho
  · refine ⟨map, _, 1, Body.toStateMachine_laid hd hpass, Body.suspended_stateChunks _ _,
      fun {o k} ho _ => ?_⟩
    rw [hoffsets, OffsetMap.get?_andThen, ho, Option.bind_some]

/-- What compilation does to a body, one after the other. -/
theorem settle_passes {ty : Typer} {c : CodeObject} {entry : AbstractState} {r : Passed}
    {g : FlowGraph} {a : Analysis} (h : settle ty c entry = .ok (r, g, a)) :
    ∃ is m₀ g₀ r₁, Body.decode c = .ok (is, m₀) ∧ FlowGraph.build is = .ok g₀
      ∧ Passed.apply ⟨is, m₀, false⟩ (ty.config.desugarWith && Body.hasWith is) Body.expandWith
        = .ok r₁
      ∧ r₁.apply c.isGenerator Body.toStateMachine = .ok r := by
  obtain ⟨⟨is, m₀⟩, hdecode, h⟩ := bind_eq_ok.mp h
  obtain ⟨g₀, hg₀, h⟩ := bind_eq_ok.mp h
  obtain ⟨a₀, -, h⟩ := bind_eq_ok.mp h
  obtain ⟨r₁, hr₁, h⟩ := bind_eq_ok.mp h
  obtain ⟨r₂, hr₂, h⟩ := bind_eq_ok.mp h
  have hr : r₂ = r := by
    split at h
    · obtain ⟨g₁, -, h⟩ := bind_eq_ok.mp h
      obtain ⟨a₁, -, h⟩ := bind_eq_ok.mp h
      cases h
      rfl
    · cases h
      rfl
  exact ⟨is, m₀, g₀, r₁, hdecode, hg₀, hr₁, hr ▸ hr₂⟩

/-- Compilation runs the three passes. -/
theorem settle_pipeline {ty : Typer} {c : CodeObject} {entry : AbstractState} {r : Passed}
    {g : FlowGraph} {a : Analysis} (h : settle ty c entry = .ok (r, g, a)) :
    ∃ s is mid m₀ m₁ m₂ cs ds base, InstructionStream.decode c = .ok s
      ∧ Pipeline c ty.config.desugarWith s.instructions is mid r.instrs m₀ m₁ m₂ r.offsets cs ds
        base := by
  have hfinal := (settle_eq_ok h).2.1
  obtain ⟨is, m₀, g₀, r₁, hdecode, hg₀, hr₁, hr₂⟩ := settle_passes h
  obtain ⟨s, hs, hascending, hdecoded⟩ := Body.decode_decoded hdecode
  obtain ⟨hfits, hplain⟩ := Body.decode_fits hdecode
  have hmid : Body.Plain r₁.instrs := by
    rcases apply_eq_ok hr₁ with ⟨-, rfl⟩ | ⟨-, -, map, hpass, -⟩
    · exact hplain
    · exact (Body.expandWith_fits hfits hplain hpass).2
  obtain ⟨m₁, hentered, hoffsets₁⟩ := apply_expandWith hdecoded.dense hplain
    (fun i hi t ht => FlowGraph.build_target_lt hg₀ hi ht) hr₁
  have hlast : c.isGenerator = false → r = r₁ := by
    intro hgen
    rcases apply_eq_ok hr₂ with ⟨-, rfl⟩ | ⟨hwanted, -⟩
    · rfl
    · exact absurd (hgen.symm.trans hwanted) Bool.false_ne_true
  obtain ⟨m₂, ds, base, hsuspended, hforall, hoffsets₂⟩ := apply_toStateMachine hentered.dense hmid
    (fun hgen i hi t ht => FlowGraph.build_target_lt (hlast hgen ▸ hfinal) hi ht) hr₂
  refine ⟨s, is, r₁.instrs, m₀, m₁, m₂, _, ds, base, hs, hascending, hdecoded, hentered, rfl,
    hsuspended, hforall, fun {o k} ho hk => ?_⟩
  obtain ⟨hlt, himage⟩ := Body.image_entered hdecoded.dense hentered (List.getElem?_eq_getElem hk)
  exact hoffsets₂ ((hoffsets₁ ho hk).trans himage) hlt

/-- What the offset map of a body says about the stream that the body was compiled from. -/
structure Faithful (c : CodeObject) (expands : Bool) (raw : List Instruction) (b : CompiledBody) :
    Prop where
  /-- The instructions stand at `0`, `1`, and so on. -/
  dense : Dense b.instrs
  /-- An instruction that is kept has an image, and the image knows where it comes from. -/
  kept : ∀ i ∈ raw, drops c i = false → ∃ o j, b.offsets.get? i.offset = some o
    ∧ b.instrs[o]? = some j ∧ j.origin = some i.offset
  /-- Instructions that are kept stay in order. -/
  ordered : ∀ i ∈ raw, ∀ i' ∈ raw, drops c i = false → drops c i' = false →
    i.offset < i'.offset → ∀ o o', b.offsets.get? i.offset = some o →
      b.offsets.get? i'.offset = some o' → o < o'
  /-- An instruction that disappears maps to where the next one that is kept went. -/
  removed : ∀ i ∈ raw, drops c i = true → ∀ i' ∈ raw, drops c i' = false →
    i.offset < i'.offset →
    (∀ j ∈ raw, i.offset < j.offset → j.offset < i'.offset → drops c j = true) →
      b.offsets.get? i.offset = b.offsets.get? i'.offset
  /-- The image of a jump or a block setup, or the last instruction of a `with` statement that was
  spelled out, names the image of its target. -/
  target : ∀ i ∈ raw, ∀ t, i.target = some t → ∃ o t' j, b.offsets.get? i.offset = some o
    ∧ b.offsets.get? t = some t'
    ∧ b.instrs[o + if expands && i.opcode == .setupWith then 5 else 0]? = some j
    ∧ j.op.targets = [t']
    ∧ ((expands && i.opcode == .setupWith) = true → j.op = .setupFinally t' .withBlock 1)
  /-- No target lies outside. -/
  bounded : ∀ j ∈ b.instrs, ∀ t ∈ j.op.targets, t < b.instrs.length

theorem Pipeline.faithful {c : CodeObject} {expands : Bool} {raw : List Instruction}
    {is mid : List Instr} {m₀ m₁ m₂ : OffsetMap} {cs ds : List Chunk} {base : Nat}
    {b : CompiledBody} {g : FlowGraph}
    (h : Pipeline c expands raw is mid b.instrs m₀ m₁ m₂ b.offsets cs ds base)
    (hg : FlowGraph.build b.instrs = .ok g) : Faithful c expands raw b where
  dense := h.suspended.dense
  kept i hi hdrop := by
    obtain ⟨k, hk⟩ := List.mem_iff_getElem?.mp hi
    obtain ⟨j, hj, horigin⟩ := h.origin_kept hk hdrop
    exact ⟨_, j, h.image_kept hk hdrop, hj, horigin⟩
  ordered i hi i' hi' hdrop hdrop' hlt o o' ho ho' := by
    obtain ⟨k, hk⟩ := List.mem_iff_getElem?.mp hi
    obtain ⟨k', hk'⟩ := List.mem_iff_getElem?.mp hi'
    cases (h.image_kept hk hdrop).symm.trans ho
    cases (h.image_kept hk' hdrop').symm.trans ho'
    exact Nat.lt_of_lt_of_le (h.place_kept hk hdrop) (place_mono (h.lt_of_offset_lt hk hk' hlt))
  removed i hi _ i' hi' hdrop' hlt hbetween := by
    obtain ⟨k, hk⟩ := List.mem_iff_getElem?.mp hi
    obtain ⟨k', hk'⟩ := List.mem_iff_getElem?.mp hi'
    have hkk := h.lt_of_offset_lt hk hk' hlt
    have hplace : place cs ds base k' = place cs ds base k := by
      refine h.place_removed hkk.le (fun n j hkn hnk hn => ?_) (List.getElem?_eq_some_iff.mp hk').1.le
      rcases Nat.lt_or_eq_of_le hkn with hkn | rfl
      · exact hbetween j (List.mem_of_getElem? hn) (h.stream.offset_lt hkn hk hn)
          (h.stream.offset_lt hnk hn hk')
      · cases hk.symm.trans hn
        assumption
    rw [h.image hk, h.image hk', hplace]
  target i hi t ht := by
    obtain ⟨k, hk⟩ := List.mem_iff_getElem?.mp hi
    obtain ⟨k', i', j, hk', rfl, hlt, hj, htargets, hwith⟩ := h.target_of hk ht
    have hdrop := drops_eq_false c (h.stream.aimed i hi) ht
    refine ⟨_, _, j, h.image_kept hk hdrop, ?_, hj, htargets, hwith⟩
    rw [h.image hk', if_pos hlt]
  bounded j hj t ht := FlowGraph.build_target_lt hg hj ht

/-- **The offsets of a compiled body are faithful** to the instructions of its code object. -/
theorem offsets_faithful {m : TypeModel} {config : Config} {c : CodeObject} {s : CallSignature}
    {b : CompiledBody} (h : analyze m config c s = .ok b) :
    ∃ stream, InstructionStream.decode c = .ok stream
      ∧ Faithful c config.desugarWith stream.instructions b := by
  unfold analyze at h
  split at h
  · rename_i b' hb
    cases h
    obtain ⟨⟨r, g, a⟩, hsettle, hb⟩ := bind_eq_ok.mp hb
    cases hb
    obtain ⟨stream, is, mid, m₀, m₁, m₂, cs, ds, base, hstream, hpipeline⟩ := settle_pipeline hsettle
    exact ⟨stream, hstream, hpipeline.faithful (settle_eq_ok hsettle).2.1⟩
  · cases h

/-- A generator that yields in a `with` statement: `with None: yield None`. -/
def yieldInWith : CodeObject :=
  { CodeObject.blank 0 "g" "g.py" with
    code := [129, 0, 100, 0, 143, 8, 1, 0, 100, 0, 86, 0, 1, 0, 87, 0, 100, 0, 83, 0, 1, 0, 100, 0,
      100, 0, 83, 0]
    constants := [.none]
    flags := ⟨0x63⟩ }

/-- Its start disappears, its `with` becomes six operations, and its handler moves from 11 to 17. -/
theorem offsets_faithful_yieldInWith : ∃ b stream,
    analyze TypeModel.empty {} yieldInWith .dynamic = .ok b
      ∧ InstructionStream.decode yieldInWith = .ok stream
      ∧ Faithful yieldInWith true stream.instructions b
      ∧ b.offsets.get? 0 = some 1 ∧ b.offsets.get? 1 = some 1 ∧ b.offsets.get? 2 = some 2
      ∧ b.offsets.get? 11 = some 17
      ∧ (b.instrs[7]?.map (·.op)) = some (.setupFinally 17 .withBlock 1) := by
  have hrun : (match analyze TypeModel.empty {} yieldInWith .dynamic with
      | .error _ => false
      | .ok b => b.offsets.get? 0 == some 1 && b.offsets.get? 1 == some 1
        && b.offsets.get? 2 == some 2 && b.offsets.get? 11 == some 17
        && (b.instrs[7]?.map (·.op)) == some (.setupFinally 17 .withBlock 1)) = true := by
    simp only [analyze, build, settle, Body.decode, InstructionStream.decode,
      InstructionStream.strayJump?_eq]
    decide +kernel
  split at hrun
  · cases hrun
  · rename_i b hb
    simp only [Bool.and_eq_true, beq_iff_eq] at hrun
    obtain ⟨⟨⟨⟨hstart, hfirst⟩, hwith⟩, hhandler⟩, hop⟩ := hrun
    obtain ⟨stream, hstream, hfaithful⟩ := offsets_faithful hb
    exact ⟨b, stream, hb, hstream, hfaithful, hstart, hfirst, hwith, hhandler, hop⟩

end CompiledBody

end Stackwise
