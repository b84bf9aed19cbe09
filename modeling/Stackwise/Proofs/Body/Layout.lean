import Stackwise.Proofs.Body.StateMachine
import Stackwise.Proofs.Bytecode.Streams

/-!
# Where passes put instructions

Every pass over a body writes the operations of one old instruction after those of the one before,
and maps old offsets to the first operation that follows.

* `Chunk`: the operations that are written for one instruction; `Chunk.start` counts those before.
* `BodyWriter.Holds`: what a writer holds after some chunks, by induction on the chunks.
* `Body.Laid`: the same of a finished body, with targets moved.
* `Body.decode_decoded`, `Body.expandWith_laid`, `Body.toStateMachine_laid`: the chunks of each pass.
-/

namespace Stackwise

/-! ## 1. Chunks -/

/-- What a pass writes for one old instruction. -/
structure Chunk where
  /-- The old offset. -/
  old : Nat
  /-- The operations. -/
  ops : List Op
  /-- Their source line. -/
  line : Option Nat
  /-- The offset in the code object that they come from. -/
  origin : Option Nat

namespace Chunk

/-- The number of operations in the first `k` chunks. -/
def start (cs : List Chunk) (k : Nat) : Nat := ((cs.take k).map fun c => c.ops.length).sum

variable {cs ds : List Chunk} {c : Chunk} {k k' : Nat}

theorem start_succ (hk : cs[k]? = some c) : start cs (k + 1) = start cs k + c.ops.length := by
  rw [start, List.take_add_one, hk, List.map_append, List.sum_append]
  rfl

theorem start_append (hk : k ≤ cs.length) : start (cs ++ ds) k = start cs k := by
  rw [start, List.take_append_of_le_length hk, start]

theorem start_le_succ (cs : List Chunk) (k : Nat) : start cs k ≤ start cs (k + 1) := by
  cases hk : cs[k]? with
  | none =>
    rw [start, start, List.take_add_one, hk]
    exact Nat.le_of_eq (by simp)
  | some c =>
    rw [start_succ hk]
    exact Nat.le_add_right _ _

theorem start_mono (cs : List Chunk) (h : k ≤ k') : start cs k ≤ start cs k' := by
  induction h with
  | refl => exact Nat.le_refl _
  | step _ ih => exact ih.trans (start_le_succ cs _)

theorem getElem?_snoc {d : Chunk} (hk : (cs ++ [c])[k]? = some d) :
    (k = cs.length ∧ d = c) ∨ cs[k]? = some d := by
  rcases Nat.lt_or_ge k cs.length with hlt | hge
  · rw [List.getElem?_append_left hlt] at hk
    exact .inr hk
  · rw [List.getElem?_append_right hge, List.getElem?_singleton] at hk
    split at hk
    · cases hk
      exact .inl ⟨by omega, rfl⟩
    · cases hk

theorem start_snoc {d : Chunk} (hk : cs[k]? = some d) : start (cs ++ [c]) k = start cs k :=
  start_append (List.getElem?_eq_some_iff.mp hk).1.le

theorem start_snoc_length (cs : List Chunk) (c : Chunk) :
    start (cs ++ [c]) (cs ++ [c]).length = start cs cs.length + c.ops.length := by
  rw [List.length_append, ← start_append (Nat.le_refl cs.length)]
  exact start_succ List.getElem?_concat_length

/-- A chunk with operations starts before the end. -/
theorem start_lt (hk : cs[k]? = some c) (hpos : 0 < c.ops.length) :
    start cs k < start cs cs.length := by
  have hmono := start_mono cs (Nat.succ_le_of_lt (List.getElem?_eq_some_iff.mp hk).1)
  rw [Nat.succ_eq_add_one, start_succ hk] at hmono
  omega

/-- Chunks of one operation each start at their own position. -/
theorem start_singletons (h : ∀ c ∈ cs, c.ops.length = 1) (hk : k ≤ cs.length) :
    start cs k = k := by
  induction k with
  | zero => rfl
  | succ k ih =>
    have hc := List.getElem?_eq_getElem (Nat.lt_of_succ_le hk)
    rw [start_succ hc, ih (Nat.le_of_succ_le hk), h _ (List.getElem_mem _)]

/-- Every operation belongs to a chunk. -/
theorem exists_of_lt {p : Nat} (hp : p < start cs cs.length) : ∃ k c j op, cs[k]? = some c
    ∧ c.ops[j]? = some op ∧ p = start cs k + j := by
  -- the last chunk that starts at or before the operation holds it
  have hfind : ∀ n ≤ cs.length, p < start cs n → ∃ k < n, start cs k ≤ p ∧ p < start cs (k + 1) := by
    intro n
    induction n with
    | zero => exact fun _ h => absurd h (Nat.not_lt_zero p)
    | succ n ih =>
      intro hn hlt
      rcases Nat.lt_or_ge p (start cs n) with h | h
      · obtain ⟨k, hk, hle, hlt⟩ := ih (Nat.le_of_succ_le hn) h
        exact ⟨k, Nat.lt_succ_of_lt hk, hle, hlt⟩
      · exact ⟨n, Nat.lt_succ_self n, h, hlt⟩
  obtain ⟨k, hk, hle, hlt⟩ := hfind cs.length (Nat.le_refl _) hp
  have hc := List.getElem?_eq_getElem hk
  rw [start_succ hc] at hlt
  have hj : p - start cs k < cs[k].ops.length := by omega
  exact ⟨k, cs[k], p - start cs k, _, hc, List.getElem?_eq_getElem hj, by omega⟩

end Chunk

/-! ## 2. Writing chunks -/

theorem OffsetMap.get?_insertAll (m : OffsetMap) (olds : List Nat) (new k : Nat) :
    (olds.foldl (fun m old => m.insert old new) m).get? k
      = if k ∈ olds then some new else m.get? k := by
  induction olds generalizing m with
  | nil => rw [List.foldl_nil, if_neg List.not_mem_nil]
  | cons old olds ih =>
    rw [List.foldl_cons, ih, get?_insert]
    by_cases hk : k ∈ olds
    · rw [if_pos hk, if_pos (List.mem_cons_of_mem _ hk)]
    · rw [if_neg hk]
      by_cases hold : old = k
      · rw [if_pos hold, if_pos (List.mem_cons.mpr (.inl hold.symm))]
      · rw [if_neg hold, if_neg]
        rw [List.mem_cons]
        exact fun h => h.elim (fun h => hold h.symm) hk

namespace BodyWriter

/-- Writes one chunk. -/
def chunk (r : BodyWriter) (c : Chunk) : BodyWriter :=
  c.ops.foldl (fun r op => r.push op c.line c.origin) (r.startOn c.old)

/-- Writing operations one after the other: the first of them takes the offsets that wait. -/
theorem foldl_push {ops : List Op} (line origin : Option Nat) (r : BodyWriter) (hops : ops ≠ []) :
    let r' := ops.foldl (fun r op => r.push op line origin) r
    r'.out = r.out ++ (ops.mapIdx fun j op => ⟨r.out.size + j, op, line, origin, false⟩).toArray
      ∧ r'.map = r.pending.foldl (fun m old => m.insert old r.out.size) r.map ∧ r'.pending = [] := by
  induction ops generalizing r with
  | nil => exact absurd rfl hops
  | cons op ops ih =>
    dsimp only
    rw [List.foldl_cons]
    cases ops with
    | nil => exact ⟨by simp [push, next], rfl, rfl⟩
    | cons op' ops =>
      obtain ⟨hout, hmap, hpending⟩ := ih (r.push op line origin) (List.cons_ne_nil _ _)
      refine ⟨hout.trans ?_, hmap, hpending⟩
      have hsize : (r.push op line origin).out.size = r.out.size + 1 := Array.size_push ..
      apply Array.toList_inj.mp
      rw [hsize]
      simp only [push, next, List.mapIdx_cons, Array.toList_append, Array.toList_push,
        List.append_assoc, List.singleton_append, Nat.add_zero, Nat.add_assoc, Nat.add_comm 1]

/-- What a writer holds after chunks that were written behind `base` instructions. -/
structure Holds (base : Nat) (cs : List Chunk) (r : BodyWriter) : Prop where
  size : r.out.size = base + Chunk.start cs cs.length
  entry : ∀ {k c j op}, cs[k]? = some c → c.ops[j]? = some op →
    r.out[base + Chunk.start cs k + j]?
      = some ⟨base + Chunk.start cs k + j, op, c.line, c.origin, false⟩
  map : ∀ {k c}, cs[k]? = some c → r.map.get? c.old
    = if base + Chunk.start cs k < r.out.size then some (base + Chunk.start cs k) else none
  mapped : ∀ {old t}, r.map.get? old = some t → ∃ c ∈ cs, c.old = old
  pending : ∀ {old}, old ∈ r.pending ↔ ∃ k c, cs[k]? = some c ∧ c.old = old
    ∧ base + Chunk.start cs k = r.out.size

variable {base : Nat} {cs : List Chunk} {c : Chunk} {r : BodyWriter}

theorem Holds.nil (hsize : r.out.size = base) (hmap : r.map = OffsetMap.empty)
    (hpending : r.pending = []) : Holds base [] r where
  size := hsize
  entry h := by cases h
  map h := by cases h
  mapped h := by
    rw [hmap] at h
    cases h
  pending := by simp [hpending]

theorem Holds.start_le (h : Holds base cs r) {k : Nat} (hk : cs[k]? = some c) :
    base + Chunk.start cs k ≤ r.out.size := by
  rw [h.size]
  exact Nat.add_le_add_left (Chunk.start_mono cs (List.getElem?_eq_some_iff.mp hk).1.le) _

/-- The offset of a chunk waits as long as nothing is written from it on. -/
theorem Holds.waits (h : Holds base cs r) {k : Nat} (hk : cs[k]? = some c) :
    c.old ∈ r.pending ↔ base + Chunk.start cs k = r.out.size := by
  constructor
  · intro hmem
    obtain ⟨k', d, hk', hold, hpos⟩ := h.pending.mp hmem
    have hnone := h.map hk'
    rw [hold, hpos, if_neg (Nat.lt_irrefl _), h.map hk] at hnone
    have hle := h.start_le hk
    split at hnone
    · cases hnone
    · omega
  · exact fun hpos => h.pending.mpr ⟨k, c, hk, rfl, hpos⟩

section Snoc

variable (h : Holds base cs r) (hnew : ∀ d ∈ cs, d.old ≠ c.old)
include h hnew

/-- A chunk without operations: its offset waits. -/
theorem Holds.skip (hops : c.ops = []) : Holds base (cs ++ [c]) (r.chunk c) := by
  have heq : r.chunk c = r.startOn c.old := by rw [chunk, hops, List.foldl_nil]
  have hend : base + Chunk.start (cs ++ [c]) cs.length = r.out.size := by
    rw [Chunk.start_append (Nat.le_refl _), h.size]
  rw [heq]
  refine ⟨?_, ?_, ?_, ?_, ?_⟩
  · rw [Chunk.start_snoc_length, hops, List.length_nil, Nat.add_zero]
    exact h.size
  · intro k d j op hk hj
    rcases Chunk.getElem?_snoc hk with ⟨-, rfl⟩ | hk
    · rw [hops] at hj
      cases hj
    · rw [Chunk.start_snoc hk]
      exact h.entry hk hj
  · intro k d hk
    rcases Chunk.getElem?_snoc hk with ⟨rfl, rfl⟩ | hk
    · rw [hend]
      change r.map.get? d.old = if r.out.size < r.out.size then some r.out.size else none
      rw [if_neg (Nat.lt_irrefl _)]
      cases hget : r.map.get? d.old with
      | none => rfl
      | some t =>
        obtain ⟨d', hd', hold⟩ := h.mapped hget
        exact absurd hold (hnew d' hd')
    · rw [Chunk.start_snoc hk]
      exact h.map hk
  · intro old t hget
    obtain ⟨d, hd, hold⟩ := h.mapped hget
    exact ⟨d, List.mem_append_left _ hd, hold⟩
  · intro old
    change old ∈ r.pending ++ [c.old] ↔ _
    rw [List.mem_append, List.mem_singleton, h.pending]
    constructor
    · rintro (⟨k, d, hk, rfl, hpos⟩ | rfl)
      · refine ⟨k, d, ?_, rfl, by rw [Chunk.start_snoc hk]; exact hpos⟩
        rw [List.getElem?_append_left (List.getElem?_eq_some_iff.mp hk).1]
        exact hk
      · exact ⟨cs.length, c, List.getElem?_concat_length, rfl, hend⟩
    · rintro ⟨k, d, hk, rfl, hpos⟩
      rcases Chunk.getElem?_snoc hk with ⟨-, rfl⟩ | hk
      · exact .inr rfl
      · rw [Chunk.start_snoc hk] at hpos
        exact .inl ⟨k, d, hk, rfl, hpos⟩

/-- A chunk with operations: the first of them takes all offsets that wait. -/
theorem Holds.write (hops : c.ops ≠ []) : Holds base (cs ++ [c]) (r.chunk c) := by
  obtain ⟨hout, hmap, hpending⟩ := foldl_push c.line c.origin (r.startOn c.old) hops
  change (r.chunk c).out = r.out ++ _ at hout
  change (r.chunk c).map = (r.pending ++ [c.old]).foldl
    (fun m old => m.insert old r.out.size) r.map at hmap
  change (r.chunk c).pending = [] at hpending
  have hend : base + Chunk.start (cs ++ [c]) cs.length = r.out.size := by
    rw [Chunk.start_append (Nat.le_refl _), h.size]
  have hsize : (r.chunk c).out.size = r.out.size + c.ops.length := by
    rw [hout]
    simp
  have hpos : 0 < c.ops.length := List.length_pos_iff.mpr hops
  refine ⟨?_, ?_, ?_, ?_, ?_⟩
  · rw [Chunk.start_snoc_length, ← Nat.add_assoc, ← h.size, hsize]
  · intro k d j op hk hj
    rcases Chunk.getElem?_snoc hk with ⟨rfl, rfl⟩ | hk
    · rw [hend, hout, Array.getElem?_append_right (Nat.le_add_right _ _), Nat.add_sub_cancel_left]
      simp [hj, startOn]
    · rw [Chunk.start_snoc hk]
      have hentry := h.entry hk hj
      rw [hout, Array.getElem?_append_left (Array.getElem?_eq_some_iff.mp hentry).1]
      exact hentry
  · intro k d hk
    rw [hmap, OffsetMap.get?_insertAll, hsize]
    rcases Chunk.getElem?_snoc hk with ⟨rfl, rfl⟩ | hk
    · rw [hend, if_pos (List.mem_append_right _ (List.mem_singleton.mpr rfl)), if_pos (by omega)]
    · have hle := h.start_le hk
      have hwaits := h.waits hk
      rw [Chunk.start_snoc hk, if_pos (show _ < r.out.size + c.ops.length by omega)]
      by_cases hmem : d.old ∈ r.pending
      · rw [if_pos (List.mem_append_left _ hmem), hwaits.mp hmem]
      · rw [if_neg, h.map hk, if_pos]
        · have := mt hwaits.mpr hmem
          omega
        · rw [List.mem_append, List.mem_singleton]
          exact fun hor => hor.elim hmem (hnew d (List.mem_of_getElem? hk))
  · intro old t hget
    rw [hmap, OffsetMap.get?_insertAll] at hget
    split at hget
    · rename_i hmem
      rcases List.mem_append.mp hmem with hmem | hmem
      · obtain ⟨k, d, hk, hold, -⟩ := h.pending.mp hmem
        exact ⟨d, List.mem_append_left _ (List.mem_of_getElem? hk), hold⟩
      · exact ⟨c, List.mem_append_right _ (.head _), (List.mem_singleton.mp hmem).symm⟩
    · obtain ⟨d, hd, hold⟩ := h.mapped hget
      exact ⟨d, List.mem_append_left _ hd, hold⟩
  · intro old
    rw [hpending, hsize]
    constructor
    · intro hmem
      cases hmem
    · rintro ⟨k, d, hk, -, hpos'⟩
      rcases Chunk.getElem?_snoc hk with ⟨rfl, rfl⟩ | hk
      · omega
      · rw [Chunk.start_snoc hk] at hpos'
        have := h.start_le hk
        omega

end Snoc

/-- **After any chunks of distinct offsets**, a writer holds them. -/
theorem holds_foldl (r₀ : BodyWriter) (hmap : r₀.map = OffsetMap.empty) (hpending : r₀.pending = [])
    (hnodup : (cs.map (·.old)).Nodup) : Holds r₀.out.size cs (cs.foldl chunk r₀) := by
  induction cs using List.reverseRecOn with
  | nil => exact .nil rfl hmap hpending
  | append_singleton cs c ih =>
    rw [List.map_append, List.nodup_append] at hnodup
    have hnew : ∀ d ∈ cs, d.old ≠ c.old := fun d hd =>
      hnodup.2.2 _ (List.mem_map_of_mem hd) _ (List.mem_singleton.mpr rfl)
    rw [List.foldl_append]
    by_cases hops : c.ops = []
    · exact (ih hnodup.1).skip hnew hops
    · exact (ih hnodup.1).write hnew hops

end BodyWriter

/-! ## 3. Moving targets -/

/-- Where an offset went; one that is not mapped stays. -/
def OffsetMap.image (m : OffsetMap) (o : Nat) : Nat := (m.get? o).getD o

theorem OffsetMap.image_eq {m : OffsetMap} {o t : Nat} (h : m.get? o = some t) : m.image o = t := by
  rw [image, h, Option.getD_some]

namespace Op

/-- The operation with every offset moved by a function. -/
def retarget (f : Nat → Nat) : Op → Op
  | .forIter e => .forIter (f e)
  | .jump t => .jump (f t)
  | .popJumpIf on t => .popJumpIf on (f t)
  | .jumpIfOrPop on t => .jumpIfOrPop on (f t)
  | .jumpIfNotExcMatch t => .jumpIfNotExcMatch (f t)
  | .setupFinally h k r => .setupFinally (f h) k r
  | .setupWith h => .setupWith (f h)
  | .delegate s e => .delegate s (f e)
  | .resumeDispatch states => .resumeDispatch (states.map fun p => (p.1, f p.2))
  | op => op

theorem targets_retarget (f : Nat → Nat) (op : Op) : (op.retarget f).targets = op.targets.map f := by
  cases op with
  | resumeDispatch states =>
    simp only [retarget, targets, branchTarget?, handlerTarget?, Option.toList_none, List.nil_append,
      List.map_map]
    rfl
  | _ => rfl

theorem retarget_eq_self {f : Nat → Nat} {op : Op} (h : ∀ t ∈ op.targets, f t = t) :
    op.retarget f = op := by
  cases op with
  | forIter t | jump t | popJumpIf _ t | jumpIfOrPop _ t | jumpIfNotExcMatch t | setupFinally t _ _
  | setupWith t | delegate _ t => rw [retarget, h t (.head _)]
  | resumeDispatch states =>
    have hstates : ∀ p ∈ states, (p.1, f p.2) = id p := fun p hp =>
      Prod.ext rfl (h p.2 (List.mem_map.mpr ⟨p, hp, rfl⟩))
    exact congrArg resumeDispatch ((List.map_congr_left hstates).trans (List.map_id states))
  | _ => rfl

theorem place_eq_ok_iff {m : OffsetMap} {old new : Nat} :
    place m old = .ok new ↔ m.get? old = some new := by
  refine ⟨place_eq_ok, fun h => ?_⟩
  rw [place, h]

theorem map_place_eq_ok {m : OffsetMap} {t : Nat} {f : Nat → Op} {op' : Op} :
    (place m t).map f = .ok op' ↔ (m.get? t).isSome = true ∧ op' = f (m.image t) := by
  rw [map_eq_ok]
  constructor
  · rintro ⟨new, hnew, rfl⟩
    rw [place_eq_ok_iff] at hnew
    exact ⟨Option.isSome_of_mem hnew, by rw [OffsetMap.image_eq hnew]⟩
  · rintro ⟨hsome, rfl⟩
    obtain ⟨new, hnew⟩ := Option.isSome_iff_exists.mp hsome
    exact ⟨new, place_eq_ok_iff.mpr hnew, by rw [OffsetMap.image_eq hnew]⟩

/-- **Relabelling moves the targets**, and fails only for a target that is not mapped. -/
theorem relabel_eq_ok {m : OffsetMap} {op op' : Op} (hdispatch : op.isDispatch = false) :
    op.relabel m = .ok op'
      ↔ (∀ t ∈ op.targets, (m.get? t).isSome = true) ∧ op' = op.retarget m.image := by
  cases op with
  | forIter t | jump t | popJumpIf _ t | jumpIfOrPop _ t | jumpIfNotExcMatch t | setupFinally t _ _
  | setupWith t | delegate _ t =>
    refine map_place_eq_ok.trans (and_congr_left fun _ => ?_)
    change _ ↔ ∀ t' ∈ [t], _
    rw [List.forall_mem_singleton]
  | resumeDispatch _ => cases hdispatch
  | _ =>
    refine ⟨fun h => ?_, fun h => by rw [h.2]; rfl⟩
    cases h
    exact ⟨List.forall_mem_nil _, rfl⟩

end Op

namespace BodyWriter

variable {r : BodyWriter} {out : List Instr} {map : OffsetMap}

theorem finish_map (h : r.finish = .ok (out, map)) : map = r.map := by
  obtain ⟨moved, -, h⟩ := bind_eq_ok.mp h
  cases h
  rfl

theorem moved_eq_ok {i : Instr} {m : OffsetMap} {op' : Op} (h : i.op.relabel m = .ok op') :
    (match i.op.relabel m with
      | .ok op => .ok { i with op }
      | .error target => .error (.invalidJumpTarget i.offset target) : Except BodyError Instr)
      = .ok { i with op := op' } := by
  rw [h]

/-- A body whose operations can all be relabelled can be finished. -/
theorem exists_finish (h : ∀ op ∈ r.ops, ∃ op', op.relabel r.map = .ok op') :
    ∃ out, r.finish = .ok (out, r.map) := by
  obtain ⟨moved, hmoved⟩ := exists_mapM_eq_ok fun i (hi : i ∈ r.out.toList) => by
    obtain ⟨op', hop'⟩ := h i.op (List.mem_map.mpr ⟨i, hi, rfl⟩)
    exact ⟨_, moved_eq_ok hop'⟩
  exact ⟨_, bind_eq_ok.mpr ⟨moved, hmoved, rfl⟩⟩

/-- A body whose targets are all mapped can be finished. -/
theorem finish_ok (hplain : ∀ op ∈ r.ops, op.isDispatch = false)
    (hmapped : ∀ op ∈ r.ops, ∀ t ∈ op.targets, (r.map.get? t).isSome = true) :
    ∃ out, r.finish = .ok (out, r.map) :=
  exists_finish fun op hop => ⟨_, (Op.relabel_eq_ok (hplain op hop)).mpr ⟨hmapped op hop, rfl⟩⟩

end BodyWriter

/-! ## 4. Finished bodies -/

/-- A body that consists of chunks, behind `base` instructions of another kind. -/
structure Body.Laid (base : Nat) (cs : List Chunk) (out : List Instr) (map : OffsetMap) : Prop where
  dense : Dense out
  length : out.length = base + Chunk.start cs cs.length
  entry : ∀ {k c j op}, cs[k]? = some c → c.ops[j]? = some op →
    ∃ i, out[base + Chunk.start cs k + j]? = some i ∧ op.relabel map = .ok i.op
      ∧ i.line = c.line ∧ i.origin = c.origin
  map : ∀ {k c}, cs[k]? = some c → map.get? c.old
    = if base + Chunk.start cs k < out.length then some (base + Chunk.start cs k) else none

theorem BodyWriter.Holds.laid {base : Nat} {cs : List Chunk} {r : BodyWriter} {out : List Instr}
    {map : OffsetMap} (h : r.Holds base cs) (hr : r.Ordered) (hfinish : r.finish = .ok (out, map)) :
    Body.Laid base cs out map := by
  have hmoved := finish_eq_ok hfinish
  have hlength : out.length = r.out.size := hmoved.length_eq.symm
  obtain rfl := finish_map hfinish
  refine ⟨Instr.dense_of_moved hmoved hr, hlength.trans h.size, fun hk hj => ?_, fun hk => ?_⟩
  · have hentry := h.entry hk hj
    rw [← Array.getElem?_toList] at hentry
    obtain ⟨i, hi, hm⟩ := Instr.moved_of_exists hmoved hentry
    exact ⟨i, hi, hm.op, hm.line, hm.origin⟩
  · rw [hlength]
    exact h.map hk

namespace BodyWriter

theorem ops_chunks (r : BodyWriter) (cs : List Chunk) :
    (cs.foldl BodyWriter.chunk r).ops = r.ops ++ cs.flatMap (·.ops) := by
  induction cs generalizing r with
  | nil => exact (List.append_nil _).symm
  | cons c cs ih =>
    have hchunk : (r.chunk c).ops = r.ops ++ c.ops :=
      ops_pushAll (r.startOn c.old) c.ops ⟨c.old, .nop, c.line, c.origin, false⟩
    rw [List.foldl_cons, ih, hchunk, List.append_assoc, List.flatMap_cons]

theorem Ordered.chunk {r : BodyWriter} (h : r.Ordered) (c : Chunk) : (r.chunk c).Ordered := by
  unfold BodyWriter.chunk
  have hstart := h.startOn c.old
  generalize r.startOn c.old = r' at hstart
  induction c.ops generalizing r' with
  | nil => exact hstart
  | cons op ops ih => exact ih _ (hstart.push op c.line c.origin)

theorem Ordered.chunks {r : BodyWriter} (h : r.Ordered) (cs : List Chunk) :
    (cs.foldl BodyWriter.chunk r).Ordered := by
  induction cs generalizing r with
  | nil => exact h
  | cons c cs ih => exact ih (h.chunk c)

end BodyWriter

namespace Body

/-! ## 5. The passes -/

/-- What decoding writes for an instruction. -/
def decodedChunk (i : Instruction) (op : Op) : Chunk := ⟨i.offset, [op], i.line, some i.offset⟩

theorem write_eq_ok {c : CodeObject} {is : List Instruction} {r r' : BodyWriter} :
    write c r is = .ok r' ↔ ∃ ops, List.Forall₂ (fun i op => Op.decode i c = .ok op) is ops
      ∧ r' = (List.zipWith decodedChunk is ops).foldl BodyWriter.chunk r := by
  induction is generalizing r with
  | nil =>
    constructor
    · intro h
      cases h
      exact ⟨[], .nil, rfl⟩
    · rintro ⟨ops, hops, rfl⟩
      cases hops
      rfl
  | cons i is ih =>
    rw [write]
    constructor
    · intro h
      split at h
      · cases h
      · rename_i op hop
        obtain ⟨ops, hops, rfl⟩ := ih.mp h
        exact ⟨op :: ops, .cons hop hops, rfl⟩
    · rintro ⟨ops, hops, rfl⟩
      cases hops with
      | cons hop hops =>
        rw [hop]
        exact ih.mpr ⟨_, hops, rfl⟩

/-- A body of one operation for each instruction of a stream. -/
structure Decoded (c : CodeObject) (raw : List Instruction) (is : List Instr) (map : OffsetMap) :
    Prop where
  dense : Dense is
  length : is.length = raw.length
  entry : ∀ {k : Nat} {i : Instruction}, raw[k]? = some i → ∃ (op : Op) (j : Instr),
    Op.decode i c = .ok op ∧ is[k]? = some j ∧ op.relabel map = .ok j.op ∧ j.line = i.line
      ∧ j.origin = some i.offset
  map : ∀ {k : Nat} {i : Instruction}, raw[k]? = some i → map.get? i.offset = some k

/-- What is written for the instructions of a stream. -/
def decodedWriter (raw : List Instruction) (ops : List Op) : BodyWriter :=
  (List.zipWith decodedChunk raw ops).foldl BodyWriter.chunk .empty

section DecodedChunks

variable {c : CodeObject} {raw : List Instruction} {ops : List Op}
  (hops : List.Forall₂ (fun i op => Op.decode i c = .ok op) raw ops)
include hops

theorem length_decodedChunks : (List.zipWith decodedChunk raw ops).length = raw.length := by
  rw [List.length_zipWith, ← hops.length_eq, Nat.min_self]

theorem getElem?_decodedChunks {k : Nat} {i : Instruction} (hk : raw[k]? = some i) : ∃ op,
    Op.decode i c = .ok op
      ∧ (List.zipWith decodedChunk raw ops)[k]? = some (decodedChunk i op) := by
  obtain ⟨hlt, rfl⟩ := List.getElem?_eq_some_iff.mp hk
  have hlt' : k < ops.length := hops.length_eq ▸ hlt
  refine ⟨ops[k], hops.get hlt hlt', ?_⟩
  rw [List.getElem?_zipWith, List.getElem?_eq_getElem hlt, List.getElem?_eq_getElem hlt']

theorem start_decodedChunks {k : Nat} (hk : k ≤ raw.length) :
    Chunk.start (List.zipWith decodedChunk raw ops) k = k := by
  refine Chunk.start_singletons (fun d hd => ?_) (length_decodedChunks hops ▸ hk)
  obtain ⟨k, hk, rfl⟩ := List.mem_iff_getElem.mp hd
  rw [List.getElem_zipWith]
  rfl

theorem holds_decodedChunks (horder : raw.Pairwise (·.offset < ·.offset)) :
    (decodedWriter raw ops).Holds 0 (List.zipWith decodedChunk raw ops) := by
  refine BodyWriter.holds_foldl .empty rfl rfl ?_
  have hold : (List.zipWith decodedChunk raw ops).map (·.old) = raw.map (·.offset) := by
    refine List.ext_getElem (by rw [List.length_map, length_decodedChunks hops, List.length_map])
      fun k hk _ => ?_
    rw [List.getElem_map, List.getElem_zipWith, List.getElem_map]
    rfl
  rw [hold]
  exact (List.pairwise_map.mpr horder).imp Nat.ne_of_lt

/-- What was written for instruction `k`. -/
theorem getElem?_decodedWriter (horder : raw.Pairwise (·.offset < ·.offset)) {k : Nat}
    {i : Instruction} (hk : raw[k]? = some i) : ∃ op, Op.decode i c = .ok op
      ∧ (decodedWriter raw ops).out[k]? = some ⟨k, op, i.line, some i.offset, false⟩
      ∧ (decodedWriter raw ops).map.get? i.offset = some k := by
  have hholds := holds_decodedChunks hops horder
  obtain ⟨op, hop, hc⟩ := getElem?_decodedChunks hops hk
  have hlt := (List.getElem?_eq_some_iff.mp hk).1
  have hentry := hholds.entry (j := 0) hc rfl
  have hmap := hholds.map hc
  rw [start_decodedChunks hops hlt.le, Nat.zero_add, Nat.add_zero] at hentry
  rw [hholds.size, length_decodedChunks hops, start_decodedChunks hops (Nat.le_refl _),
    start_decodedChunks hops hlt.le, Nat.zero_add, Nat.zero_add, if_pos hlt] at hmap
  exact ⟨op, hop, hentry, hmap⟩

theorem size_decodedWriter (horder : raw.Pairwise (·.offset < ·.offset)) :
    (decodedWriter raw ops).out.size = raw.length := by
  rw [(holds_decodedChunks hops horder).size, length_decodedChunks hops,
    start_decodedChunks hops (Nat.le_refl _), Nat.zero_add]

/-- Finished chunks of one operation for each instruction. -/
theorem decoded_of_finish {is : List Instr} {map : OffsetMap}
    (horder : raw.Pairwise (·.offset < ·.offset))
    (h : (decodedWriter raw ops).finish = .ok (is, map)) : Decoded c raw is map := by
  have hmoved := BodyWriter.finish_eq_ok h
  obtain rfl := BodyWriter.finish_map h
  have hordered : (decodedWriter raw ops).Ordered :=
    BodyWriter.Ordered.chunks BodyWriter.ordered_empty _
  refine ⟨Instr.dense_of_moved hmoved hordered, ?_, fun {k i} hk => ?_, fun {k i} hk => ?_⟩
  · exact hmoved.length_eq.symm.trans (size_decodedWriter hops horder)
  · obtain ⟨op, hop, hentry, -⟩ := getElem?_decodedWriter hops horder hk
    rw [← Array.getElem?_toList] at hentry
    obtain ⟨j, hj, hm⟩ := Instr.moved_of_exists hmoved hentry
    exact ⟨op, j, hop, hj, hm.op, hm.line, hm.origin⟩
  · obtain ⟨op, -, -, hmap⟩ := getElem?_decodedWriter hops horder hk
    exact hmap

end DecodedChunks

/-- **Decoding** lays one operation for each instruction. -/
theorem decode_decoded {c : CodeObject} {is : List Instr} {map : OffsetMap}
    (h : decode c = .ok (is, map)) : ∃ s, InstructionStream.decode c = .ok s
      ∧ InstructionStream.Ascending s.instructions ∧ Decoded c s.instructions is map := by
  unfold decode at h
  split at h
  · cases h
  · split at h
    · cases h
    · rename_i s hs
      split at h
      · cases h
      · rename_i r hr
        obtain ⟨ops, hops, rfl⟩ := write_eq_ok.mp hr
        have hascending := InstructionStream.decode_ascending hs
        exact ⟨s, hs, hascending, decoded_of_finish hops hascending.order h⟩

/-- What spelling out `with` writes for an instruction. -/
def expandedChunk (i : Instr) : Chunk := ⟨i.offset, expandOp i.op, i.line, i.origin⟩

theorem nodup_offsets {is : List Instr} (hd : Dense is) : (is.map (·.offset)).Nodup := by
  have hrange : is.map (·.offset) = List.range is.length := by
    refine List.ext_getElem (by simp) fun k hk _ => ?_
    rw [List.length_map] at hk
    rw [List.getElem_map, List.getElem_range]
    exact hd k is[k] (List.getElem?_eq_getElem hk)
  rw [hrange]
  exact List.nodup_range

theorem holds_expanded {is : List Instr} (hd : Dense is) :
    (expanded is .empty).Holds 0 (is.map expandedChunk) := by
  have hfold : expanded is .empty = (is.map expandedChunk).foldl BodyWriter.chunk .empty := by
    rw [List.foldl_map]
    rfl
  rw [hfold]
  refine BodyWriter.holds_foldl .empty rfl rfl ?_
  rw [List.map_map]
  exact nodup_offsets hd

/-- **Spelling out `with`** lays the expansions one after the other. -/
theorem expandWith_laid {is out : List Instr} {map : OffsetMap} (hd : Dense is)
    (h : expandWith is = .ok (out, map)) : Laid 0 (is.map expandedChunk) out map := by
  exact (holds_expanded hd).laid (ordered_expanded BodyWriter.ordered_empty is) h

/-- What is written for the instructions of a generator; `state` is the next free state. -/
def stateChunks : Nat → List Instr → List Chunk
  | _, [] => []
  | state, i :: is =>
    ⟨i.offset, (stateChunk state i).1, i.line, i.origin⟩ :: stateChunks (stateChunk state i).2 is

theorem foldl_writeState_eq (is : List Instr) (r : BodyWriter) (state : Nat) :
    (is.foldl (fun (r, state) i => writeState r state i) (r, state)).1
      = (stateChunks state is).foldl BodyWriter.chunk r := by
  induction is generalizing r state with
  | nil => rfl
  | cons i is ih =>
    rw [List.foldl_cons]
    change (is.foldl _ (writeState r state i)).1 = _
    rw [writeState_eq]
    exact ih _ _

theorem map_old_stateChunks (is : List Instr) (state : Nat) :
    (stateChunks state is).map (·.old) = is.map (·.offset) := by
  induction is generalizing state with
  | nil => rfl
  | cons i is ih => rw [stateChunks, List.map_cons, List.map_cons, ih]

/-- **The state machine of a generator** lays its parts behind the dispatcher. -/
theorem toStateMachine_laid {is out : List Instr} {map : OffsetMap} (hd : Dense is)
    (h : toStateMachine is = .ok (out, map)) : Laid 1 (stateChunks 1 is) out map := by
  obtain ⟨⟨moved, _⟩, hfinish, h⟩ := bind_eq_ok.mp h
  cases h
  rw [foldl_writeState_eq] at hfinish
  have hlaid : Laid 1 (stateChunks 1 is) moved map := by
    refine BodyWriter.Holds.laid (BodyWriter.holds_foldl
      (BodyWriter.empty.push (.resumeDispatch []) (is.head?.bind (·.line)) none) rfl rfl ?_)
      (.chunks (BodyWriter.Ordered.push BodyWriter.ordered_empty _ _ _) _) hfinish
    rw [map_old_stateChunks]
    exact nodup_offsets hd
  -- filling the dispatcher and marking targets touch neither offsets nor what is behind it
  have hbehind : ∀ p i, moved[p]? = some i → ∃ j, (Instr.markTargets (fillDispatcher moved))[p]? = some j
      ∧ j.offset = i.offset ∧ j.line = i.line ∧ j.origin = i.origin ∧ (0 < p → j.op = i.op) := by
    intro p i hp
    rw [Instr.markTargets, List.getElem?_map]
    cases moved with
    | nil => cases hp
    | cons first rest =>
      cases p with
      | zero =>
        cases hp
        exact ⟨_, rfl, rfl, rfl, rfl, fun h => absurd h (Nat.lt_irrefl 0)⟩
      | succ p =>
        rw [fillDispatcher, List.getElem?_cons_succ, (List.getElem?_cons_succ ..).symm.trans hp]
        exact ⟨_, rfl, rfl, rfl, rfl, fun _ => rfl⟩
  have hlength : (Instr.markTargets (fillDispatcher moved)).length = moved.length := by
    rw [Instr.markTargets, List.length_map]
    cases moved <;> rfl
  refine ⟨fun p j hj => ?_, hlength.trans hlaid.length, fun hk hj => ?_, fun hk => ?_⟩
  · have hp : p < moved.length := hlength ▸ (List.getElem?_eq_some_iff.mp hj).1
    obtain ⟨j', hj', hoffset, -⟩ := hbehind p _ (List.getElem?_eq_getElem hp)
    cases hj.symm.trans hj'
    rw [hoffset]
    exact hlaid.dense p _ (List.getElem?_eq_getElem hp)
  · obtain ⟨i, hi, hop, hline, horigin⟩ := hlaid.entry hk hj
    obtain ⟨i', hi', -, hline', horigin', hop'⟩ := hbehind _ i hi
    exact ⟨i', hi', by rw [hop' (by omega)]; exact hop, hline'.trans hline, horigin'.trans horigin⟩
  · rw [hlength]
    exact hlaid.map hk

end Body

end Stackwise
