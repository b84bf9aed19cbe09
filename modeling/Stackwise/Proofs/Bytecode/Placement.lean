import Mathlib.Algebra.GroupWithZero.Nat
import Stackwise.Bytecode.Assembler
import Stackwise.Proofs.Outcome

/-!
# Placing instructions

Where the assembler puts its instructions.

* `Assembler.place`: instructions with their offsets, sizes and operands, one behind the other.
* `Assembler.Settled`: every operand is the one that its place gives, and fits its size.
* `Assembler.settle_settled`: the rounds that are granted always suffice to settle.
* `Assembler.Reached`: the sizes that come up on the way.
-/

namespace Stackwise

namespace Assembler

/-! ## 1. Places -/

/-- An instruction in its place. -/
structure Piece where
  /-- The instruction. -/
  item : Resolved
  /-- Its first code unit. -/
  offset : Nat
  /-- The number of its code units. -/
  size : Nat
  /-- Its operand. -/
  arg : Nat

/-- Instructions one behind the other from an offset on. -/
def place (o : Nat) : List Resolved → List Nat → List Nat → List Piece
  | item :: items, size :: sizes, arg :: args =>
    ⟨item, o, size, arg⟩ :: place (o + size) items sizes args
  | _, _, _ => []

variable {o k : Nat} {items : List Resolved} {sizes args : List Nat} {p : Piece}

theorem length_place (o : Nat) (hsizes : sizes.length = items.length)
    (hargs : args.length = items.length) : (place o items sizes args).length = items.length := by
  induction items generalizing o sizes args with
  | nil => rfl
  | cons item items ih =>
    obtain ⟨size, sizes, rfl⟩ := List.exists_cons_of_length_eq_add_one hsizes
    obtain ⟨arg, args, rfl⟩ := List.exists_cons_of_length_eq_add_one hargs
    rw [place, List.length_cons, List.length_cons,
      ih (o + size) (Nat.succ.inj hsizes) (Nat.succ.inj hargs)]

theorem getElem?_place (h : (place o items sizes args)[k]? = some p) :
    items[k]? = some p.item ∧ sizes[k]? = some p.size ∧ args[k]? = some p.arg
      ∧ p.offset = o + (sizes.take k).sum := by
  induction items generalizing o sizes args k with
  | nil =>
    rw [place.eq_def] at h
    cases h
  | cons item items ih =>
    cases sizes with
    | nil => cases h
    | cons size sizes =>
      cases args with
      | nil => cases h
      | cons arg args =>
        rw [place] at h
        cases k with
        | zero =>
          cases h
          exact ⟨rfl, rfl, rfl, rfl⟩
        | succ k =>
          obtain ⟨hitem, hsize, harg, hoffset⟩ := ih h
          refine ⟨hitem, hsize, harg, ?_⟩
          rw [List.take_succ_cons, List.sum_cons, hoffset, Nat.add_assoc]

theorem map_size_place (o : Nat) (hsizes : sizes.length = items.length)
    (hargs : args.length = items.length) : (place o items sizes args).map (·.size) = sizes := by
  induction items generalizing o sizes args with
  | nil => exact (List.length_eq_zero_iff.mp hsizes).symm
  | cons item items ih =>
    obtain ⟨size, sizes, rfl⟩ := List.exists_cons_of_length_eq_add_one hsizes
    obtain ⟨arg, args, rfl⟩ := List.exists_cons_of_length_eq_add_one hargs
    rw [place, List.map_cons, ih (o + size) (Nat.succ.inj hsizes) (Nat.succ.inj hargs)]

theorem getElem?_offsetsFrom (o : Nat) (hk : k ≤ sizes.length) :
    (offsetsFrom o sizes)[k]? = some (o + (sizes.take k).sum) := by
  induction sizes generalizing o k with
  | nil =>
    cases Nat.le_zero.mp hk
    rfl
  | cons size sizes ih =>
    cases k with
    | zero => rfl
    | succ k =>
      rw [offsetsFrom, List.getElem?_cons_succ, ih (o + size) (Nat.le_of_succ_le_succ hk),
        List.take_succ_cons, List.sum_cons, Nat.add_assoc]

theorem getD_offsets (hk : k ≤ sizes.length) :
    (offsetsFrom 0 sizes).toArray.getD k 0 = (sizes.take k).sum := by
  rw [Array.getD_eq_getD_getElem?, List.getElem?_toArray, getElem?_offsetsFrom 0 hk,
    Option.getD_some, Nat.zero_add]

theorem sum_take_le (sizes : List Nat) (k : Nat) : (sizes.take k).sum ≤ sizes.sum := by
  conv_rhs => rw [← List.take_append_drop k sizes, List.sum_append]
  exact Nat.le_add_right _ _

theorem sum_take_add_one {s : Nat} (hk : sizes[k]? = some s) :
    (sizes.take (k + 1)).sum = (sizes.take k).sum + s := by
  rw [List.take_add_one, hk, List.sum_append]
  rfl

theorem sum_take_mono {k' : Nat} (h : k ≤ k') : (sizes.take k).sum ≤ (sizes.take k').sum := by
  have hle := sum_take_le (sizes.take k') k
  rwa [List.take_take, Nat.min_eq_left h] at hle

/-- Instructions of at least one unit stand at different offsets. -/
theorem sum_take_lt {k' : Nat} (hpos : ∀ s ∈ sizes, 0 < s) (h : k < k') (hk' : k' ≤ sizes.length) :
    (sizes.take k).sum < (sizes.take k').sum := by
  have hk := List.getElem?_eq_getElem (Nat.lt_of_lt_of_le h hk')
  have hnext := sum_take_add_one hk
  have hsize := hpos _ (List.getElem_mem (Nat.lt_of_lt_of_le h hk'))
  have hmono : (sizes.take (k + 1)).sum ≤ (sizes.take k').sum := sum_take_mono h
  omega

theorem eq_of_sum_take_eq {k' : Nat} (hpos : ∀ s ∈ sizes, 0 < s) (hk : k ≤ sizes.length)
    (hk' : k' ≤ sizes.length) (heq : (sizes.take k).sum = (sizes.take k').sum) : k = k' := by
  rcases Nat.lt_trichotomy k k' with hlt | hsame | hlt
  · exact absurd heq (Nat.ne_of_lt (sum_take_lt hpos hlt hk'))
  · exact hsame
  · exact absurd heq.symm (Nat.ne_of_lt (sum_take_lt hpos hlt hk))

/-! ## 2. Operands -/

/-- The operand of a jump counts from behind it if it is relative, and from the start if not. A
relative jump leads forward. -/
theorem operandOf_inr {d : Dialect} {table : Array Nat} {item : Resolved} {size arg t : Nat}
    (ht : item.operand = .inr t) : operandOf d table item o size = .ok arg
      ↔ (item.opcode.jumpKind? = some .relative → o + size ≤ table.getD t 0)
        ∧ d.unitsToJumpArg? (if item.opcode.jumpKind? = some .relative
          then table.getD t 0 - (o + size) else table.getD t 0) = some arg := by
  unfold operandOf
  rw [ht]
  dsimp only
  generalize table.getD t 0 = target
  cases item.opcode.jumpKind? with
  | none =>
    simp only [reduceCtorEq, if_false, false_implies, true_and]
    cases d.unitsToJumpArg? target <;> simp
  | some kind =>
    cases kind with
    | absolute =>
      simp only [Option.some.injEq, reduceCtorEq, if_false, false_implies, true_and]
      cases d.unitsToJumpArg? target <;> simp
    | relative =>
      simp only [if_true, true_implies]
      by_cases hbehind : target < o + size
      · simp only [if_pos hbehind, reduceCtorEq, false_iff]
        exact fun h => absurd h.1 (Nat.not_le_of_lt hbehind)
      · simp only [if_neg hbehind]
        cases d.unitsToJumpArg? (target - (o + size)) <;> simp [Nat.le_of_not_lt hbehind]

/-- The operands of instructions are those that their places give. -/
theorem mapM_operandOf {d : Dialect} {table : Array Nat} (o : Nat)
    (hsizes : sizes.length = items.length) :
    ((items.zip ((offsetsFrom o sizes).zip sizes)).mapM fun (item, offset, size) =>
        operandOf d table item offset size) = .ok args
      ↔ args.length = items.length ∧ ∀ p ∈ place o items sizes args,
        operandOf d table p.item p.offset p.size = .ok p.arg := by
  induction items generalizing o sizes args with
  | nil =>
    rw [List.zip_nil_left, List.mapM_nil]
    refine pure_eq_ok.trans ⟨fun h => ?_, fun h => (List.length_eq_zero_iff.mp h.1).symm⟩
    rw [← h]
    exact ⟨rfl, List.forall_mem_nil _⟩
  | cons item items ih =>
    obtain ⟨size, sizes, rfl⟩ := List.exists_cons_of_length_eq_add_one hsizes
    rw [offsetsFrom, List.zip_cons_cons, List.zip_cons_cons, List.mapM_cons, bind_eq_ok]
    constructor
    · rintro ⟨arg, harg, h⟩
      obtain ⟨args', hargs, h⟩ := bind_eq_ok.mp h
      cases h
      obtain ⟨hlength, hall⟩ := (ih (o + size) (Nat.succ.inj hsizes)).mp hargs
      exact ⟨congrArg (· + 1) hlength, List.forall_mem_cons.mpr ⟨harg, hall⟩⟩
    · rintro ⟨hlength, hall⟩
      obtain ⟨arg, args, rfl⟩ := List.exists_cons_of_length_eq_add_one hlength
      obtain ⟨harg, hall⟩ := List.forall_mem_cons.mp hall
      exact ⟨arg, harg, bind_eq_ok.mpr ⟨args, (ih (o + size) (Nat.succ.inj hsizes)).mpr
        ⟨Nat.succ.inj hlength, hall⟩, rfl⟩⟩

theorem operandsOf_eq_ok {d : Dialect} (hsizes : sizes.length = items.length) :
    operandsOf d items sizes = .ok args ↔ args.length = items.length
      ∧ ∀ p ∈ place 0 items sizes args,
        operandOf d (offsetsFrom 0 sizes).toArray p.item p.offset p.size = .ok p.arg :=
  mapM_operandOf 0 hsizes

/-! ## 3. Growing -/

theorem extensions_le (arg : Nat) : extensions arg ≤ 3 := by
  unfold extensions
  split
  · omega
  · split
    · omega
    · split <;> omega

theorem extensions_mono {arg arg' : Nat} (h : arg ≤ arg') : extensions arg ≤ extensions arg' := by
  unfold extensions
  repeat' split
  all_goals omega

theorem length_grow (h : args.length = sizes.length) : (grow sizes args).length = sizes.length := by
  rw [grow, List.length_map, List.length_zip, h, Nat.min_self]

theorem grow_le_four (h : ∀ s ∈ sizes, s ≤ 4) : ∀ s ∈ grow sizes args, s ≤ 4 := by
  intro s hs
  obtain ⟨q, hq, rfl⟩ := List.mem_map.mp hs
  have hle := h _ (List.of_mem_zip hq).1
  have hext := extensions_le q.2
  dsimp only
  omega

/-- A round enlarges something or leaves all as it is. -/
theorem grow_sum (h : args.length = sizes.length) :
    grow sizes args = sizes ∨ sizes.sum < (grow sizes args).sum := by
  induction sizes generalizing args with
  | nil => exact .inl rfl
  | cons size sizes ih =>
    obtain ⟨arg, args, rfl⟩ := List.exists_cons_of_length_eq_add_one h
    change max size (1 + extensions arg) :: grow sizes args = _
      ∨ _ < (max size (1 + extensions arg) :: grow sizes args).sum
    rw [List.sum_cons, List.sum_cons]
    have hmax := Nat.le_max_left size (1 + extensions arg)
    rcases ih (Nat.succ.inj h) with heq | hlt
    · rw [heq]
      rcases Nat.lt_or_eq_of_le hmax with hlt | heq'
      · exact .inr (by omega)
      · exact .inl (by rw [← heq'])
    · exact .inr (by omega)

/-- Sizes that a round leaves as they are hold their operands. -/
theorem fits_of_grow (h : grow sizes args = sizes) (hp : p ∈ place o items sizes args) :
    1 + extensions p.arg ≤ p.size := by
  obtain ⟨k, hk⟩ := List.mem_iff_getElem?.mp hp
  obtain ⟨-, hsize, harg, -⟩ := getElem?_place hk
  have hgrown : (grow sizes args)[k]? = some (max p.size (1 + extensions p.arg)) := by
    have hzip : (sizes.zip args)[k]? = some (p.size, p.arg) :=
      List.getElem?_zip_eq_some.mpr ⟨hsize, harg⟩
    rw [grow, List.getElem?_map, hzip]
    rfl
  rw [h, hsize, Option.some.injEq] at hgrown
  omega

/-! ## 4. Settling -/

/-- Sizes and operands that agree. -/
structure Settled (d : Dialect) (items : List Resolved) (sizes args : List Nat) : Prop where
  sizes_length : sizes.length = items.length
  args_length : args.length = items.length
  operand : ∀ p ∈ place 0 items sizes args,
    operandOf d (offsetsFrom 0 sizes).toArray p.item p.offset p.size = .ok p.arg
  fits : ∀ p ∈ place 0 items sizes args, 1 + extensions p.arg ≤ p.size
  pos : ∀ s ∈ sizes, 0 < s
  le_four : ∀ s ∈ sizes, s ≤ 4

/-- The sizes that come up in the rounds. -/
inductive Reached (d : Dialect) (items : List Resolved) : List Nat → Prop where
  /-- The least sizes. -/
  | least : Reached d items (items.map leastSize)
  /-- The sizes after another round. -/
  | grown {sizes args : List Nat} (h : Reached d items sizes)
    (hargs : operandsOf d items sizes = .ok args) : Reached d items (grow sizes args)

theorem leastSize_pos (item : Resolved) : 0 < leastSize item := by
  unfold leastSize
  split <;> omega

theorem Reached.length_eq {d : Dialect} (h : Reached d items sizes) :
    sizes.length = items.length := by
  induction h with
  | least => exact List.length_map _
  | grown _ hargs ih => rw [length_grow (((operandsOf_eq_ok ih).mp hargs).1.trans ih.symm), ih]

theorem Reached.le_four {d : Dialect} (h : Reached d items sizes) : ∀ s ∈ sizes, s ≤ 4 := by
  induction h with
  | least =>
    intro s hs
    obtain ⟨item, -, rfl⟩ := List.mem_map.mp hs
    unfold leastSize
    split
    · rename_i n _
      have := extensions_le n
      omega
    · omega
  | grown _ _ ih => exact grow_le_four ih

theorem Reached.pos {d : Dialect} (h : Reached d items sizes) : ∀ s ∈ sizes, 0 < s := by
  intro s hs
  cases h with
  | least =>
    obtain ⟨item, -, rfl⟩ := List.mem_map.mp hs
    exact leastSize_pos item
  | grown _ _ =>
    obtain ⟨q, -, rfl⟩ := List.mem_map.mp hs
    dsimp only
    omega

theorem sum_le_of_le_four (h : ∀ s ∈ sizes, s ≤ 4) : sizes.sum ≤ 4 * sizes.length := by
  induction sizes with
  | nil => exact Nat.le_refl 0
  | cons size sizes ih =>
    obtain ⟨hsize, hsizes⟩ := List.forall_mem_cons.mp h
    have := ih hsizes
    rw [List.sum_cons, List.length_cons]
    omega

/-- **Settling ends settled.** Each round enlarges a size, and no size exceeds four. -/
theorem settle_settled {d : Dialect} {rounds : Nat} {sizes' : List Nat} (hr : Reached d items sizes)
    (hrounds : 4 * items.length ≤ rounds + sizes.sum)
    (h : settle d items rounds sizes = .ok (sizes', args)) :
    Reached d items sizes' ∧ Settled d items sizes' args := by
  have hend : ∀ {sizes args}, Reached d items sizes → operandsOf d items sizes = .ok args →
      grow sizes args = sizes → Reached d items sizes ∧ Settled d items sizes args := by
    intro sizes args hr hargs hgrow
    obtain ⟨hlength, hoperand⟩ := (operandsOf_eq_ok hr.length_eq).mp hargs
    exact ⟨hr, hr.length_eq, hlength, hoperand, fun p hp => fits_of_grow hgrow hp, hr.pos, hr.le_four⟩
  induction rounds generalizing sizes with
  | zero =>
    rw [settle] at h
    split at h
    · cases h
    · rename_i args' hargs
      cases h
      have hlength := hr.length_eq
      refine hend hr hargs ?_
      have hargs_length := ((operandsOf_eq_ok hlength).mp hargs).1.trans hlength.symm
      refine (grow_sum hargs_length).resolve_right fun hlt => ?_
      have := sum_le_of_le_four (hr.grown hargs).le_four
      rw [length_grow hargs_length] at this
      omega
  | succ rounds ih =>
    rw [settle] at h
    split at h
    · cases h
    · rename_i args' hargs
      dsimp only at h
      split at h
      · cases h
        exact hend hr hargs ‹_›
      · rename_i hchanged
        have hlength := hr.length_eq
        have hlt := (grow_sum (((operandsOf_eq_ok hlength).mp hargs).1.trans hlength.symm)).resolve_left
          hchanged
        exact ih (.grown hr hargs) (by omega) h

/-- Sizes whose operands can always be given settle. -/
theorem settle_ok {d : Dialect} (rounds : Nat) (hr : Reached d items sizes)
    (hall : ∀ sizes, Reached d items sizes → ∃ args, operandsOf d items sizes = .ok args) :
    ∃ r, settle d items rounds sizes = .ok r := by
  induction rounds generalizing sizes with
  | zero =>
    obtain ⟨args, hargs⟩ := hall sizes hr
    exact ⟨(sizes, args), by rw [settle, hargs]⟩
  | succ rounds ih =>
    obtain ⟨args, hargs⟩ := hall sizes hr
    rw [settle, hargs]
    dsimp only
    split
    · exact ⟨_, rfl⟩
    · exact ih (.grown hr hargs)

theorem sum_leastSize (items : List Resolved) : items.length ≤ (items.map leastSize).sum := by
  induction items with
  | nil => exact Nat.le_refl 0
  | cons item items ih =>
    have hpos := leastSize_pos item
    rw [List.map_cons, List.sum_cons, List.length_cons]
    omega

end Assembler

end Stackwise
