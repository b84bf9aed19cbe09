import Stackwise.Proofs.Analysis.Anchored

/-!
# The order of the passes

Spelling out `with` comes before a generator becomes a state machine. In the other order the two
passes would come to the same instructions: the state machine of a body with `with` spelled out is the
state machine of the body, with `with` spelled out.

* `Body.EntriesSpelled`: one body is another one with every entry of a `with` block spelled out.
* `Body.entriesSpelled_of_laid`: the pass over `with` statements gives such a body.
* `Body.place_moved`: offsets go the same way through both passes, in either order.
* `Body.EntriesSpelled.stateMachine`: the state machines of two such bodies are two such bodies.
-/

namespace Stackwise

/-! ## 1. Operations through both passes -/

namespace Op

theorem retarget_retarget (f g : Nat → Nat) (op : Op) :
    (op.retarget f).retarget g = op.retarget (g ∘ f) := by
  cases op with
  | resumeDispatch states => exact congrArg resumeDispatch (List.map_map ..)
  | _ => rfl

theorem retarget_congr {f g : Nat → Nat} {op : Op} (h : ∀ t ∈ op.targets, f t = g t) :
    op.retarget f = op.retarget g := by
  cases op with
  | forIter t | jump t | popJumpIf _ t | jumpIfOrPop _ t | jumpIfNotExcMatch t | setupFinally t _ _
  | setupWith t | delegate _ t => simp only [retarget, h t (.head _)]
  | resumeDispatch states =>
    exact congrArg resumeDispatch (List.map_congr_left fun p hp =>
      Prod.ext rfl (h p.2 (List.mem_map.mpr ⟨p, hp, rfl⟩)))
  | _ => rfl

theorem isDispatch_retarget (f : Nat → Nat) (op : Op) :
    (op.retarget f).isDispatch = op.isDispatch := by
  cases op <;> rfl

end Op

namespace Body

variable {is mid out out' : List Instr} {map : OffsetMap} {i i' : Instr} {j k n o state : Nat}
  {op : Op} {f : Nat → Nat}

theorem expandOp_retarget (f : Nat → Nat) (op : Op) :
    expandOp (op.retarget f) = (expandOp op).map (Op.retarget f) := by
  cases op <;> rfl

theorem expandOp_of_isWith {op : Op} (h : op.isWith = false) : expandOp op = [op] :=
  enteredOps_eq true h

/-- What stands for an instruction that was moved. -/
theorem stateChunk_retarget (hop : i'.op = i.op.retarget f) (ho : i'.offset = f i.offset)
    (hnext : i.op = .yieldFrom → f (i.offset + 1) = f i.offset + 1) (state : Nat) :
    (stateChunk state i').1 = (stateChunk state i).1.map (Op.retarget f) := by
  unfold stateChunk
  cases h : i.op with
  | yieldFrom =>
    rw [hop, h]
    simp only [Op.retarget, List.map_cons, List.map_nil, ho, hnext h]
  | _ =>
    rw [hop, h]
    rfl

theorem width_retarget (hop : i'.op = i.op.retarget f) : width i' = width i := by
  unfold width
  rw [hop]
  cases i.op <;> rfl

theorem yields_retarget (hop : i'.op = i.op.retarget f) : yields i' = yields i := by
  rw [yields, hop, (Op.retarget_kind f i.op).2.2.1, yields]

/-- No entry of a `with` block stands for another instruction. -/
theorem isWith_of_mem_stateChunk (hi : i.op.isWith = false) (hop : op ∈ (stateChunk state i).1) :
    op.isWith = false := by
  unfold stateChunk at hop
  split at hop
  · cases hop
  · simp only [List.mem_cons, List.not_mem_nil, or_false] at hop
    rcases hop with rfl | rfl <;> rfl
  · simp only [List.mem_cons, List.not_mem_nil, or_false] at hop
    rcases hop with rfl | rfl | rfl <;> rfl
  · rw [List.mem_singleton.mp hop]
    exact hi

theorem stateChunk_of_isWith (hi : i.op.isWith = true) (state : Nat) :
    (stateChunk state i).1 = [i.op] := by
  unfold stateChunk
  cases hop : i.op <;> first | rfl | (rw [hop] at hi; cases hi)

theorem yieldState_succ (ho : is[o]? = some i) :
    yieldState is (o + 1) = yieldState is o + yieldCount [i] := by
  have htake : yieldCount (is.take (o + 1)) = yieldCount (is.take o) + yieldCount [i] := by
    rw [List.take_add_one, ho]
    exact List.countP_append
  rw [yieldState, yieldState, htake]
  omega

/-! ## 2. Entries that are spelled out -/

/-- The body `out` is the body `is` with every entry of a `with` block spelled out, and all offsets
moved; of the dispatcher of a state machine, only that it stays one. -/
structure EntriesSpelled (is out : List Instr) : Prop where
  dense : Dense out
  entry : ∀ {o i j op}, is[o]? = some i → (expandOp i.op)[j]? = some op → op.isDispatch = false →
    ∃ i', out[place is o + j]? = some i' ∧ i'.op = op.retarget (place is) ∧ i'.line = i.line
  dispatcher : ∀ {o i}, is[o]? = some i → i.op.isDispatch = true →
    ∃ i', out[place is o]? = some i' ∧ i'.op.isDispatch = true

/-- The pass over `with` statements spells every entry out. -/
theorem entriesSpelled_of_laid (hd : Dense is) (hplain : Plain is)
    (hbound : ∀ i ∈ is, ∀ t ∈ i.op.targets, t < is.length)
    (hl : Laid 0 (is.map (enteredChunk true)) out map) : EntriesSpelled is out := by
  have himage : ∀ {t}, t < is.length → map.image t = place is t := fun ht =>
    OffsetMap.image_eq (image_entered hd hl (List.getElem?_eq_getElem ht)).2
  refine ⟨hl.dense, fun {o i j op} hi hj hop => ?_, fun {o i} hi hdispatch => ?_⟩
  · have hmem := List.mem_of_getElem? hi
    have hchunk : (is.map (enteredChunk true))[o]? = some (enteredChunk true i) := by
      rw [List.getElem?_map, hi]
      rfl
    obtain ⟨i', hi', hrelabel, hline, -⟩ := hl.entry hchunk hj
    rw [Nat.zero_add] at hi'
    refine ⟨i', hi', ?_, hline⟩
    rw [((Op.relabel_eq_ok hop).mp hrelabel).2]
    refine Op.retarget_congr fun t ht => himage ?_
    rcases expandOp_cases hj with ⟨-, htargets, -⟩ | ⟨-, hnone, -⟩
    · exact hbound i hmem t (htargets ▸ ht)
    · rw [hnone] at ht
      cases ht
  · rw [Op.isDispatch_of_plain (hplain i (List.mem_of_getElem? hi))] at hdispatch
    cases hdispatch

/-- What stands where in a state machine, with the offsets by counting. -/
structure Machined (is out : List Instr) : Prop where
  dense : Dense out
  length : out.length = moved is is.length
  first : ∃ i, out[0]? = some i ∧ i.op.isDispatch = true
  entry : ∀ {k i n op}, is[k]? = some i → (stateChunk (yieldState is k) i).1[n]? = some op →
    ∃ j, out[moved is k + n]? = some j ∧ j.op = op.retarget (moved is) ∧ j.line = i.line
      ∧ op.isDispatch = false
  behind : ∀ {p}, 0 < p → p < out.length → ∃ k i n op, is[k]? = some i
    ∧ (stateChunk (yieldState is k) i).1[n]? = some op ∧ p = moved is k + n

theorem machined_of_toStateMachine {c : CodeObject} (hfits : Fits c is) (hplain : Plain is)
    (h : toStateMachine is = .ok (out, map)) : Machined is out := by
  have hd := hfits.dense
  have hl := toStateMachine_laid hd h
  have hanchored := (toStateMachine_iff hd hplain).mp ⟨out, map, h⟩
  obtain ⟨first, hfirst, hdispatch⟩ := (toStateMachine_shape hfits hplain h).1.dispatcher
  have hlength : out.length = moved is is.length := by
    rw [hl.length, length_stateChunks, start_stateChunks]
  refine ⟨hl.dense, hlength, ⟨first, hfirst, by rw [hdispatch]; rfl⟩, fun {k i n op} hk hop => ?_,
    fun hpos hp => exists_chunk hd hl hpos hp⟩
  have hmem := List.mem_of_getElem? hop
  have hkind := isDispatch_of_mem_stateChunk (hplain i (List.mem_of_getElem? hk)) hmem
  obtain ⟨⟨j, hj, -, hjop, hline, -⟩, hmapped⟩ := stands_at hd hl hk hop hkind
  refine ⟨j, hj, hjop.trans (Op.retarget_congr fun t ht => ?_), hline, hkind⟩
  -- a target that is mapped is mapped to where it is moved
  have hlt : t < is.length := by
    rcases targets_stateChunk hmem ht with hmention | ⟨rfl, -⟩
    · exact (hanchored k i hk t (hd k i hk ▸ hmention)).lt
    · rw [hd k i hk]
      exact (List.getElem?_eq_some_iff.mp hk).1
  have hget := hmapped t ht
  rw [map_at hd hl (List.getElem?_eq_getElem hlt)] at hget
  split at hget
  · exact (Option.some.inj hget).symm
  · cases hget

/-! ## 3. Both passes -/

theorem isWith_of_isDispatch {op : Op} (h : op.isDispatch = true) : op.isWith = false := by
  cases op <;> first | rfl | cases h

theorem width_one (hgen : i.op.isGenStart = false) (hyield : i.op.isYield = false) :
    width i = 1 := by
  have hchunk : (stateChunk 0 i).1 = [i.op] :=
    (suspended_stateChunk 0 i).plain (by rw [hgen]; rfl) hyield
  rw [← width_eq 0, hchunk]
  rfl

/-- Nothing is counted behind the end. -/
theorem counts_behind (hk : is[k]? = none) : place is (k + 1) = place is k
    ∧ moved is (k + 1) = moved is k ∧ yieldState is (k + 1) = yieldState is k := by
  have htake : is.take (k + 1) = is.take k := by
    rw [List.take_add_one, hk]
    exact List.append_nil _
  refine ⟨?_, by rw [moved, htake, moved], by rw [yieldState, htake, yieldState]⟩
  rw [place, Chunk.start, Chunk.start, ← List.map_take, htake, ← List.map_take]

section Order

variable (hs : EntriesSpelled is mid)
include hs

/-- Nothing in the place of an entry suspends a generator or starts one. -/
theorem EntriesSpelled.entered (hk : is[k]? = some i) (hi : i.op.isWith = true)
    (hj : (expandOp i.op)[j]? = some op) : ∃ i', mid[place is k + j]? = some i'
      ∧ i'.op = op.retarget (place is) ∧ i'.line = i.line
      ∧ i'.op.isGenStart = false ∧ i'.op.isYield = false := by
  obtain ⟨handler, hop⟩ := Op.exists_of_isWith hi
  have hmem := List.mem_of_getElem? hj
  rw [hop] at hmem
  obtain ⟨hdispatch, hgen, hyield⟩ := expandOp_plain hmem
  obtain ⟨i', hi', hop', hline⟩ := hs.entry hk hj hdispatch
  obtain ⟨hgen', -, hyield', -⟩ := Op.retarget_kind (place is) op
  exact ⟨i', hi', hop', hline, by rw [hop', hgen', hgen], by rw [hop', hyield', hyield]⟩

/-- The operations of an entry stay together in the state machine, and none of them has a state. -/
theorem EntriesSpelled.run (hk : is[k]? = some i) (hi : i.op.isWith = true)
    (hj : j ≤ (expandOp i.op).length) : moved mid (place is k + j) = moved mid (place is k) + j
      ∧ yieldState mid (place is k + j) = yieldState mid (place is k) := by
  induction j with
  | zero => exact ⟨rfl, rfl⟩
  | succ j ih =>
    obtain ⟨hmoved, hstate⟩ := ih (Nat.le_of_succ_le hj)
    obtain ⟨i', hi', -, -, hgen, hyield⟩ :=
      hs.entered hk hi (List.getElem?_eq_getElem (Nat.lt_of_succ_le hj))
    constructor
    · rw [← Nat.add_assoc, moved_succ hi', width_one hgen hyield, hmoved]
      rfl
    · have hcount : yieldCount [i'] = 0 := by
        rw [yieldCount, List.countP_singleton, yields, hyield]
        rfl
      rw [← Nat.add_assoc, yieldState_succ hi', hcount, hstate]
      rfl

variable (hplain : Plain is)
include hplain

/-- An instruction that is no entry stays one instruction. -/
theorem EntriesSpelled.kept (hk : is[k]? = some i) (hi : i.op.isWith = false) :
    ∃ i', mid[place is k]? = some i' ∧ i'.op = i.op.retarget (place is) ∧ i'.line = i.line
      ∧ place is (k + 1) = place is k + 1 := by
  have hexpand := expandOp_of_isWith hi
  have hfirst : (expandOp i.op)[0]? = some i.op := by
    rw [hexpand]
    rfl
  obtain ⟨i', hi', hop, hline⟩ := hs.entry hk hfirst
    (Op.isDispatch_of_plain (hplain i (List.mem_of_getElem? hk)))
  exact ⟨i', hi', hop, hline, by rw [place_succ hk, hexpand]; rfl⟩

/-- The yields have the same states. -/
theorem EntriesSpelled.yieldState (k : Nat) :
    Body.yieldState mid (place is k) = Body.yieldState is k := by
  induction k with
  | zero => rfl
  | succ k ih =>
    cases hk : is[k]? with
    | none =>
      obtain ⟨hplace, -, hstate⟩ := counts_behind hk
      rw [hplace, hstate, ih]
    | some i =>
      rw [yieldState_succ hk, ← ih]
      cases hi : i.op.isWith with
      | true =>
        have hcount : yieldCount [i] = 0 := by
          obtain ⟨handler, hop⟩ := Op.exists_of_isWith hi
          rw [yieldCount, List.countP_singleton, yields, hop]
          rfl
        rw [place_succ hk, (hs.run hk hi (Nat.le_refl _)).2, hcount]
        rfl
      | false =>
        obtain ⟨i', hi', hop, -, hplace⟩ := hs.kept hplain hk hi
        rw [hplace, yieldState_succ hi', yieldCount, yieldCount, List.countP_singleton,
          List.countP_singleton, yields_retarget hop]

variable (hm : Machined is out)
include hm

omit hs hplain in
/-- Places in the state machine, inside of what stands for an instruction other than an entry. -/
theorem Machined.run (hk : is[k]? = some i) (hi : i.op.isWith = false) (hn : n ≤ width i) :
    place out (moved is k + n) = place out (moved is k) + n := by
  induction n with
  | zero => rfl
  | succ n ih =>
    have hlt : n < (stateChunk (Body.yieldState is k) i).1.length := by
      rw [width_eq]
      exact hn
    obtain ⟨j, hj, hop, -⟩ := hm.entry hk (List.getElem?_eq_getElem hlt)
    have hwith : j.op.isWith = false := by
      rw [hop, (Op.retarget_kind _ _).2.1]
      exact isWith_of_mem_stateChunk hi (List.getElem_mem hlt)
    rw [← Nat.add_assoc, place_succ hj, expandOp_of_isWith hwith, ih (Nat.le_of_succ_le hn)]
    rfl

/-- **Offsets go the same way through both passes, in either order.** -/
theorem place_moved (k : Nat) : place out (moved is k) = moved mid (place is k) := by
  induction k with
  | zero =>
    obtain ⟨first, hfirst, hdispatch⟩ := hm.first
    have hplace : place out 1 = place out 0 + 1 := by
      rw [place_succ hfirst, expandOp_of_isWith (isWith_of_isDispatch hdispatch)]
      rfl
    exact hplace
  | succ k ih =>
    cases hk : is[k]? with
    | none =>
      obtain ⟨hplace, hmoved, -⟩ := counts_behind hk
      rw [hplace, hmoved, ih]
    | some i =>
      cases hi : i.op.isWith with
      | true =>
        have hone : (stateChunk (Body.yieldState is k) i).1[0]? = some i.op := by
          rw [stateChunk_of_isWith hi]
          rfl
        obtain ⟨j, hj, hop, -⟩ := hm.entry hk hone
        have hwidth : width i = 1 := by
          rw [← width_eq 0, stateChunk_of_isWith hi]
          rfl
        rw [moved_succ hk, hwidth, place_succ hj, hop, expandOp_retarget, List.length_map,
          Nat.add_zero, ih, place_succ hk, (hs.run hk hi (Nat.le_refl _)).1]
      | false =>
        obtain ⟨i', hi', hop, -, hplace⟩ := hs.kept hplain hk hi
        rw [moved_succ hk, hm.run hk hi (Nat.le_refl _), ih, hplace, moved_succ hi',
          width_retarget hop]

/-- An instruction has a place in both state machines, or in none. -/
theorem moved_lt_iff (hm' : Machined mid out') (hlength : mid.length = place is is.length)
    (hk : k ≤ is.length) : moved mid (place is k) < out'.length ↔ moved is k < out.length := by
  have hend : out'.length = place out out.length := by
    rw [hm'.length, hm.length, place_moved hs hplain hm, hlength]
  have hle : moved is k ≤ out.length := by
    rw [hm.length, ← start_stateChunks 1, ← start_stateChunks 1]
    exact Nat.add_le_add_left (Chunk.start_mono _ hk) 1
  rw [← place_moved hs hplain hm, hend]
  refine ⟨fun h => Nat.lt_of_le_of_ne hle fun heq => ?_, fun h => place_lt h (Nat.le_refl _)⟩
  rw [heq] at h
  exact Nat.lt_irrefl _ h

/-- The same for the operations. -/
theorem retarget_moved (op : Op) : (op.retarget (moved is)).retarget (place out)
    = (op.retarget (place is)).retarget (moved mid) := by
  rw [Op.retarget_retarget, Op.retarget_retarget]
  exact congrArg op.retarget (funext (place_moved hs hplain hm))

variable (hm' : Machined mid out')
include hm'

/-- An entry of a state machine is spelled out where the state machine of the body that is spelled
out has the operations. -/
theorem Machined.entered (hk : is[k]? = some i) (hi : i.op.isWith = true)
    (hj : (expandOp i.op)[j]? = some op) : ∃ y, out'[place out (moved is k) + j]? = some y
      ∧ y.op = (op.retarget (moved is)).retarget (place out) ∧ y.line = i.line := by
  obtain ⟨i', hi', hop, hline, hgen, hyield⟩ := hs.entered hk hi hj
  have hchunk : (stateChunk (Body.yieldState mid (place is k + j)) i').1[0]? = some i'.op := by
    have hone : (stateChunk (Body.yieldState mid (place is k + j)) i').1 = [i'.op] :=
      (suspended_stateChunk _ i').plain (by rw [hgen]; rfl) hyield
    rw [hone]
    rfl
  obtain ⟨y, hy, hyop, hyline, -⟩ := hm'.entry hi' hchunk
  rw [Nat.add_zero, (hs.run hk hi (List.getElem?_eq_some_iff.mp hj).1.le).1,
    ← place_moved hs hplain hm] at hy
  refine ⟨y, hy, ?_, hyline.trans hline⟩
  rw [hyop, hop, retarget_moved hs hplain hm]

/-- What stands for any other instruction stays. -/
theorem Machined.kept (hd : Dense is) (hk : is[k]? = some i) (hi : i.op.isWith = false)
    (hn : (stateChunk (Body.yieldState is k) i).1[n]? = some op) :
    ∃ y, out'[place out (moved is k + n)]? = some y
      ∧ y.op = (op.retarget (moved is)).retarget (place out) ∧ y.line = i.line := by
  obtain ⟨i', hi', hop, hline, hplace⟩ := hs.kept hplain hk hi
  have hchunk : (stateChunk (Body.yieldState mid (place is k)) i').1
      = (stateChunk (Body.yieldState is k) i).1.map (Op.retarget (place is)) := by
    rw [hs.yieldState hplain]
    refine stateChunk_retarget hop ?_ (fun _ => ?_) _
    · rw [hs.dense _ i' hi', hd k i hk]
    · rw [hd k i hk, hplace]
  obtain ⟨y, hy, hyop, hyline, -⟩ := hm'.entry hi' (n := n) (by rw [hchunk, List.getElem?_map, hn]; rfl)
  have hlt := (List.getElem?_eq_some_iff.mp hn).1
  rw [width_eq] at hlt
  rw [← place_moved hs hplain hm, ← hm.run hk hi hlt.le] at hy
  refine ⟨y, hy, ?_, hyline.trans hline⟩
  rw [hyop, retarget_moved hs hplain hm]

/-- **The state machine of a body that is spelled out** is the state machine of the body, spelled
out. -/
theorem EntriesSpelled.stateMachine (hd : Dense is) : EntriesSpelled out out' := by
  obtain ⟨first, hfirst, hdispatch⟩ := hm.first
  have hbehind : ∀ {o x}, out[o]? = some x → o ≠ 0 → ∃ k i n op, is[k]? = some i
      ∧ (stateChunk (Body.yieldState is k) i).1[n]? = some op ∧ o = moved is k + n
      ∧ x.op = op.retarget (moved is) ∧ x.line = i.line ∧ op.isDispatch = false := by
    intro o x hx hne
    obtain ⟨k, i, n, op, hk, hop, rfl⟩ :=
      hm.behind (Nat.pos_of_ne_zero hne) (List.getElem?_eq_some_iff.mp hx).1
    obtain ⟨x', hx', hrest⟩ := hm.entry hk hop
    cases hx.symm.trans hx'
    exact ⟨k, i, n, op, hk, hop, rfl, hrest⟩
  refine ⟨hm'.dense, fun {o x j op} hx hj hop => ?_, fun {o x} hx hdisp => ?_⟩
  · have hne : o ≠ 0 := by
      rintro rfl
      cases hx.symm.trans hfirst
      rw [expandOp_of_isWith (isWith_of_isDispatch hdispatch)] at hj
      rw [List.mem_singleton.mp (List.mem_of_getElem? hj), hdispatch] at hop
      cases hop
    obtain ⟨k, i, n, op₀, hk, hop₀, rfl, hxop, hline, -⟩ := hbehind hx hne
    rw [hline]
    cases hi : i.op.isWith with
    | true =>
      rw [stateChunk_of_isWith hi] at hop₀
      obtain ⟨rfl, rfl⟩ : n = 0 ∧ i.op = op₀ := by
        cases n with
        | zero => exact ⟨rfl, Option.some.inj hop₀⟩
        | succ n => cases hop₀
      rw [hxop, expandOp_retarget, List.getElem?_map] at hj
      obtain ⟨op₁, hj₁, rfl⟩ := Option.map_eq_some_iff.mp hj
      exact hm.entered hs hplain hm' hk hi hj₁
    | false =>
      have hwith : x.op.isWith = false := by
        rw [hxop, (Op.retarget_kind _ _).2.1]
        exact isWith_of_mem_stateChunk hi (List.mem_of_getElem? hop₀)
      rw [expandOp_of_isWith hwith] at hj
      obtain ⟨rfl, rfl⟩ : j = 0 ∧ x.op = op := by
        cases j with
        | zero => exact ⟨rfl, Option.some.inj hj⟩
        | succ j => cases hj
      rw [hxop]
      exact hm.kept hs hplain hm' hd hk hi hop₀
  · have hzero : o = 0 := by
      by_contra hne
      obtain ⟨-, -, -, op, -, -, -, hop, -, hkind⟩ := hbehind hx hne
      rw [hop, Op.isDispatch_retarget, hkind] at hdisp
      cases hdisp
    rw [hzero]
    exact hm'.first

end Order

end Body

end Stackwise
