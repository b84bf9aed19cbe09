import Mathlib.Algebra.Order.BigOperators.Group.List
import Stackwise.Proofs.Body.Dialects

/-!
# The least layout

The operand of a jump depends on the sizes of other instructions, and its own size on its operand,
so growing one jump may make others grow. The sizes that the rounds end at are nevertheless the
least with which every instruction is exactly as long as it needs to be.

* `Assembler.Rounds`: the rounds as they are, without a bound on their number;
  `Assembler.rounds_iff`: they end, within the number that is granted;
* `Assembler.operandAt`, `Assembler.needed`: the operands and sizes that given sizes call for;
* `Assembler.needed_mono`: larger sizes call for larger ones;
* `Assembler.grow_eq_needed`: so a round takes the sizes that the last ones call for;
* `Assembler.Reached.le_needed`, `Assembler.Reached.le_exact`: sizes never exceed what they call
  for, nor any exact sizes;
* `Assembler.finish_iff_forward`: which programs can be laid out;
* `Assembler.LeastLayout`, `Assembler.finish_least`: the layout of a program.
-/

namespace Stackwise

namespace Assembler

variable {d : Dialect} {items : List Resolved} {sizes sizes' args : List Nat} {k : Nat}

/-! ## 1. Rounds -/

/-- The rounds from given sizes on, until a fault or until nothing grows. -/
inductive Rounds (d : Dialect) (items : List Resolved) :
    List Nat → Except BytecodeError (List Nat × List Nat) → Prop where
  /-- An operand cannot be given. -/
  | fault {sizes : List Nat} {e : BytecodeError} :
    operandsOf d items sizes = .error e → Rounds d items sizes (.error e)
  /-- Every operand fits. -/
  | settled {sizes args : List Nat} : operandsOf d items sizes = .ok args →
    grow sizes args = sizes → Rounds d items sizes (.ok (sizes, args))
  /-- Some operand does not, and another round follows. -/
  | grown {sizes args : List Nat} {r : Except BytecodeError (List Nat × List Nat)} :
    operandsOf d items sizes = .ok args → grow sizes args ≠ sizes →
    Rounds d items (grow sizes args) r → Rounds d items sizes r

theorem Rounds.unique {r r' : Except BytecodeError (List Nat × List Nat)}
    (h : Rounds d items sizes r) (h' : Rounds d items sizes r') : r = r' := by
  induction h with
  | fault he =>
    cases h' with
    | fault he' => exact congrArg Except.error (Except.error.inj (he.symm.trans he'))
    | settled hargs _ => cases he.symm.trans hargs
    | grown hargs _ _ => cases he.symm.trans hargs
  | settled hargs hsame =>
    cases h' with
    | fault he => cases he.symm.trans hargs
    | settled hargs' _ =>
      cases hargs.symm.trans hargs'
      rfl
    | grown hargs' hne _ =>
      cases hargs.symm.trans hargs'
      exact absurd hsame hne
  | grown hargs hne _ ih =>
    cases h' with
    | fault he => cases he.symm.trans hargs
    | settled hargs' hsame =>
      cases hargs.symm.trans hargs'
      exact absurd hsame hne
    | grown hargs' _ hrest =>
      cases hargs.symm.trans hargs'
      exact ih hrest

/-- **The rounds end.** Each of them enlarges a size, and no size exceeds four. -/
theorem rounds_settle {rounds : Nat} (hr : Reached d items sizes)
    (hrounds : 4 * items.length ≤ rounds + sizes.sum) :
    Rounds d items sizes (settle d items rounds sizes) := by
  induction rounds generalizing sizes with
  | zero =>
    rw [settle]
    cases hargs : operandsOf d items sizes with
    | error e => exact .fault hargs
    | ok args =>
      have hlength := ((operandsOf_eq_ok hr.length_eq).mp hargs).1.trans hr.length_eq.symm
      refine .settled hargs ((grow_sum hlength).resolve_right fun hlt => ?_)
      have hle := sum_le_of_le_four (hr.grown hargs).le_four
      rw [length_grow hlength, hr.length_eq] at hle
      omega
  | succ rounds ih =>
    rw [settle]
    cases hargs : operandsOf d items sizes with
    | error e => exact .fault hargs
    | ok args =>
      dsimp only
      split
      · exact .settled hargs ‹_›
      · rename_i hne
        have hlength := ((operandsOf_eq_ok hr.length_eq).mp hargs).1.trans hr.length_eq.symm
        have hlt := (grow_sum hlength).resolve_left hne
        exact .grown hargs hne (ih (hr.grown hargs) (by omega))

/-- The rounds that are granted give what the rounds end with. -/
theorem rounds_iff {r : Except BytecodeError (List Nat × List Nat)} :
    Rounds d items (items.map leastSize) r
      ↔ settle d items (3 * items.length) (items.map leastSize) = r := by
  have hrounds : 4 * items.length ≤ 3 * items.length + (items.map leastSize).sum := by
    have := sum_leastSize items
    omega
  have hends := rounds_settle (d := d) .least hrounds
  exact ⟨hends.unique, fun h => h ▸ hends⟩

/-! ## 2. What sizes call for -/

/-- The operand of the instruction at position `k`, given the sizes of all instructions: a relative
jump counts the units between itself and its target, any other jump those in front of its target. -/
def operandAt (d : Dialect) (sizes : List Nat) (k : Nat) (item : Resolved) : Nat :=
  match item.operand with
  | .inl n => n
  | .inr t =>
    let passed := if item.opcode.jumpKind? = some .relative then (sizes.take t).drop (k + 1)
      else sizes.take t
    passed.sum * 2 / d.jumpUnitBytes

/-- The sizes that the operands need. -/
def needed (d : Dialect) (items : List Resolved) (sizes : List Nat) : List Nat :=
  items.mapIdx fun k item => 1 + extensions (operandAt d sizes k item)

theorem getElem?_needed : (needed d items sizes)[k]?
    = items[k]?.map fun item => 1 + extensions (operandAt d sizes k item) :=
  List.getElem?_mapIdx

theorem length_needed : (needed d items sizes).length = items.length := List.length_mapIdx

/-- Lists of one length, compared position by position. -/
theorem forall₂_le_iff : List.Forall₂ (· ≤ ·) sizes sizes' ↔ sizes.length = sizes'.length
    ∧ ∀ (k : Nat) s s', sizes[k]? = some s → sizes'[k]? = some s' → s ≤ s' := by
  rw [List.forall₂_iff_get]
  refine and_congr_right fun hlength => ⟨fun h k s s' hs hs' => ?_, fun h k hk hk' => ?_⟩
  · obtain ⟨hk, rfl⟩ := List.getElem?_eq_some_iff.mp hs
    obtain ⟨hk', rfl⟩ := List.getElem?_eq_some_iff.mp hs'
    exact h k hk hk'
  · exact h k _ _ (List.getElem?_eq_getElem hk) (List.getElem?_eq_getElem hk')

theorem operandAt_mono (h : List.Forall₂ (· ≤ ·) sizes sizes') (k : Nat) (item : Resolved) :
    operandAt d sizes k item ≤ operandAt d sizes' k item := by
  unfold operandAt
  cases item.operand with
  | inl n => exact Nat.le_refl n
  | inr t =>
    refine Nat.div_le_div_right (Nat.mul_le_mul_right 2 ?_)
    split
    · exact (List.forall₂_drop _ (List.forall₂_take t h)).sum_le_sum
    · exact (List.forall₂_take t h).sum_le_sum

/-- **Larger sizes call for larger ones.** -/
theorem needed_mono (h : List.Forall₂ (· ≤ ·) sizes sizes') :
    List.Forall₂ (· ≤ ·) (needed d items sizes) (needed d items sizes') := by
  refine forall₂_le_iff.mpr ⟨length_needed.trans length_needed.symm, fun k s s' hs hs' => ?_⟩
  rw [getElem?_needed] at hs hs'
  obtain ⟨item, hitem, rfl⟩ := Option.map_eq_some_iff.mp hs
  obtain ⟨item', hitem', rfl⟩ := Option.map_eq_some_iff.mp hs'
  cases hitem.symm.trans hitem'
  exact Nat.add_le_add_left (extensions_mono (operandAt_mono h k item)) 1

/-- The least sizes are below whatever is called for. -/
theorem least_le_needed (sizes : List Nat) :
    List.Forall₂ (· ≤ ·) (items.map leastSize) (needed d items sizes) := by
  refine forall₂_le_iff.mpr ⟨(List.length_map _).trans length_needed.symm, fun k s s' hs hs' => ?_⟩
  rw [getElem?_needed] at hs'
  rw [List.getElem?_map] at hs
  obtain ⟨item, hitem, rfl⟩ := Option.map_eq_some_iff.mp hs
  obtain ⟨item', hitem', rfl⟩ := Option.map_eq_some_iff.mp hs'
  cases hitem.symm.trans hitem'
  unfold leastSize operandAt
  cases item.operand with
  | inl n => exact Nat.le_refl _
  | inr t => exact Nat.le_add_right 1 _

/-! ## 3. The operands that are given -/

theorem sum_between (sizes : List Nat) (t j : Nat) :
    ((sizes.take t).drop j).sum = (sizes.take t).sum - (sizes.take j).sum := by
  by_cases hjt : j ≤ t
  · have hsplit := List.sum_take_add_sum_drop (sizes.take t) j
    rw [List.take_take, Nat.min_eq_left hjt] at hsplit
    omega
  · have hle : (sizes.take t).length ≤ j := by
      rw [List.length_take]
      omega
    rw [List.drop_eq_nil_of_le hle, List.sum_nil]
    exact (Nat.sub_eq_zero_of_le (sum_take_mono (Nat.le_of_not_le hjt))).symm

theorem eq_of_unitsToJumpArg? {units arg : Nat} (h : d.unitsToJumpArg? units = some arg) :
    units * 2 / d.jumpUnitBytes = arg := by
  rw [Dialect.unitsToJumpArg?] at h
  exact Option.some.inj (Option.ite_none_right_eq_some.mp h).2

/-- The operands that are given are those that the sizes call for. -/
theorem operands_eq (hlength : sizes.length = items.length)
    (hlabels : ∀ r ∈ items, ∀ t, r.operand = .inr t → t ≤ items.length)
    (hargs : operandsOf d items sizes = .ok args) : args = items.mapIdx (operandAt d sizes) := by
  obtain ⟨hargs_length, hoperand⟩ := (operandsOf_eq_ok hlength).mp hargs
  refine List.ext_getElem (hargs_length.trans List.length_mapIdx.symm) fun k hk _ => ?_
  have hlt : k < (place 0 items sizes args).length := by
    rw [length_place 0 hlength hargs_length, ← hargs_length]
    exact hk
  have hp := List.getElem?_eq_getElem hlt
  obtain ⟨hitem, hsize, harg, hoffset⟩ := getElem?_place hp
  have hgiven := hoperand _ (List.mem_of_getElem? hp)
  generalize (place 0 items sizes args)[k] = p at hitem hsize harg hoffset hgiven
  obtain ⟨_, hitem'⟩ := List.getElem?_eq_some_iff.mp hitem
  obtain ⟨_, harg'⟩ := List.getElem?_eq_some_iff.mp harg
  rw [List.getElem_mapIdx, hitem', harg', operandAt]
  cases ht : p.item.operand with
  | inl n =>
    rw [operandOf, ht] at hgiven
    exact (Except.ok.inj hgiven).symm
  | inr t =>
    have htable : (offsetsFrom 0 sizes).toArray.getD t 0 = (sizes.take t).sum :=
      getD_offsets (hlength ▸ hlabels _ (List.mem_of_getElem? hitem) t ht)
    have hgiven := ((operandOf_inr ht).mp hgiven).2
    have hnext := sum_take_add_one hsize
    rw [htable, hoffset, Nat.zero_add, ← hnext] at hgiven
    dsimp only
    rw [← eq_of_unitsToJumpArg? hgiven]
    split
    · rw [sum_between]
    · rfl

/-! ## 4. Rounds of a monotone step -/

/-- Sizes with which every instruction is exactly as long as its operand needs. -/
def Exact (d : Dialect) (items : List Resolved) (sizes : List Nat) : Prop :=
  needed d items sizes = sizes

/-- Sizes that hold no operand with room to spare become what the operands need. -/
theorem grow_of_le (h : List.Forall₂ (fun s arg => s ≤ 1 + extensions arg) sizes args) :
    grow sizes args = args.map fun arg => 1 + extensions arg := by
  induction h with
  | nil => rfl
  | @cons s arg sizes args hle _ ih =>
    change max s (1 + extensions arg) :: grow sizes args = _
    rw [Nat.max_eq_right hle, ih, List.map_cons]

section Labels

variable (hlabels : ∀ r ∈ items, ∀ t, r.operand = .inr t → t ≤ items.length)
include hlabels

theorem needed_eq (hlength : sizes.length = items.length)
    (hargs : operandsOf d items sizes = .ok args) :
    needed d items sizes = args.map fun arg => 1 + extensions arg := by
  rw [operands_eq hlength hlabels hargs]
  refine List.ext_getElem? fun k => ?_
  rw [getElem?_needed, List.getElem?_map, List.getElem?_mapIdx, Option.map_map]
  rfl

/-- A round takes the sizes that the last ones call for, if these are not smaller. -/
theorem grow_eq_needed (hlength : sizes.length = items.length)
    (hle : List.Forall₂ (· ≤ ·) sizes (needed d items sizes))
    (hargs : operandsOf d items sizes = .ok args) : grow sizes args = needed d items sizes := by
  rw [needed_eq hlabels hlength hargs] at hle ⊢
  exact grow_of_le (List.forall₂_map_right_iff.mp hle)

/-- **Sizes never exceed what they call for.** -/
theorem Reached.le_needed (hr : Reached d items sizes) :
    List.Forall₂ (· ≤ ·) sizes (needed d items sizes) := by
  induction hr with
  | least => exact least_le_needed _
  | grown hr hargs ih =>
    rw [grow_eq_needed hlabels hr.length_eq ih hargs]
    exact needed_mono ih

/-- **Sizes never exceed exact sizes.** -/
theorem Reached.le_exact (hr : Reached d items sizes) (hexact : Exact d items sizes') :
    List.Forall₂ (· ≤ ·) sizes sizes' := by
  induction hr with
  | least => exact hexact ▸ least_le_needed sizes'
  | grown hr hargs ih =>
    rw [grow_eq_needed hlabels hr.length_eq (hr.le_needed hlabels) hargs, ← hexact]
    exact needed_mono ih

end Labels

/-- Sizes and operands of a layout in which no instruction is longer than it needs to be. -/
structure LeastLayout (d : Dialect) (items : List Resolved) (sizes args : List Nat) : Prop where
  /-- The operands are those that the sizes call for. -/
  args_eq : args = items.mapIdx (operandAt d sizes)
  /-- Every size is that of its operand. -/
  exact : Exact d items sizes
  /-- No other such sizes are smaller anywhere. -/
  least : ∀ sizes', Exact d items sizes' → List.Forall₂ (· ≤ ·) sizes sizes'

theorem Rounds.ends (h : Rounds d items sizes (.ok (sizes', args))) (hr : Reached d items sizes) :
    Reached d items sizes' ∧ operandsOf d items sizes' = .ok args ∧ grow sizes' args = sizes' := by
  generalize hok : (Except.ok (sizes', args) : Except BytecodeError _) = r at h
  induction h with
  | fault _ => cases hok
  | settled hargs hsame =>
    cases hok
    exact ⟨hr, hargs, hsame⟩
  | grown hargs _ _ ih => exact ih (hr.grown hargs) hok

/-- **The rounds end at the least layout.** -/
theorem Rounds.leastLayout (h : Rounds d items (items.map leastSize) (.ok (sizes, args)))
    (hlabels : ∀ r ∈ items, ∀ t, r.operand = .inr t → t ≤ items.length) :
    LeastLayout d items sizes args := by
  obtain ⟨hr, hargs, hsame⟩ := h.ends .least
  refine ⟨operands_eq hr.length_eq hlabels hargs, ?_, fun sizes' => hr.le_exact hlabels⟩
  rw [Exact, ← grow_eq_needed hlabels hr.length_eq (hr.le_needed hlabels) hargs, hsame]

/-! ## 5. Programs -/

/-- Every label that is used is bound. -/
def LabelsBound (calls : List Call) : Prop :=
  ∀ e ∈ emissions calls, ∀ l, e.passed = .label l → ∃ t, labelPosition l calls = some t

/-- The label of a relative jump is bound behind the jump. -/
def LeadsForward (calls : List Call) : Prop :=
  ∀ (k : Nat) (e : Emission) (l t : Nat), (emissions calls)[k]? = some e →
    e.opcode.jumpKind? = some .relative → e.passed = .label l → labelPosition l calls = some t →
    k < t

section Programs

variable {name : String} {calls : List Call}

theorem Meets.passed_eq {a : Assembler} {item : AsmItem} {e : Emission} {l : Nat}
    (h : Meets a item e) (hl : item.operand = .label l) : e.passed = .label l := by
  have hoperand := h.operand
  rw [hl] at hoperand
  cases hpassed : e.passed with
  | label l' =>
    rw [hpassed] at hoperand
    cases hoperand
    rfl
  | word n =>
    rw [hpassed] at hoperand
    cases hoperand
  | constant c | name c | localVar c =>
    rw [hpassed] at hoperand
    obtain ⟨n, hn, -⟩ := hoperand
    cases hn

theorem resolve_iff : (∃ items, (assemble name calls).resolve = .ok items) ↔ LabelsBound calls := by
  constructor
  · rintro ⟨items, h⟩ e he l hl
    obtain ⟨k, hk⟩ := List.mem_iff_getElem?.mp he
    obtain ⟨item, r, hmeets, -, hresolves⟩ := exists_resolved h hk
    have hoperand := hmeets.operand
    rw [hl] at hoperand
    obtain ⟨t, ht, -⟩ := hresolves.label l hoperand
    exact ⟨t, lookup_labels name calls l ▸ ht⟩
  · intro hbound
    refine exists_mapM_eq_ok fun item hitem => ?_
    cases hoperand : item.operand with
    | immediate n => exact ⟨_, rfl⟩
    | label l =>
      have hmeets := assemble_items name calls
      obtain ⟨k, hk, rfl⟩ := List.mem_iff_getElem.mp hitem
      have hk' := hmeets.length_eq ▸ hk
      obtain ⟨t, ht⟩ := hbound _ (List.getElem_mem hk') l ((hmeets.get hk hk').passed_eq hoperand)
      rw [← lookup_labels name calls l] at ht
      dsimp only
      rw [ht]
      exact ⟨_, rfl⟩

theorem forward_iff (h : (assemble name calls).resolve = .ok items) :
    Forward items ↔ LeadsForward calls := by
  constructor
  · intro hforward k e l t he hkind hl ht
    obtain ⟨item, r, hmeets, hr, hresolves⟩ := exists_resolved h he
    have hoperand := hmeets.operand
    rw [hl] at hoperand
    obtain ⟨t', ht', hinr⟩ := hresolves.label l hoperand
    rw [lookup_labels, ht] at ht'
    cases ht'
    refine hforward k r t hr hinr ?_
    rw [hresolves.opcode, hmeets.opcode, hkind]
  · intro hforward k r t hr ht hkind
    obtain ⟨item, e, he, hmeets, hresolves⟩ := exists_emission h hr
    obtain ⟨l, hl, hposition⟩ := hresolves.inr hmeets ht
    refine hforward k e l t he ?_ hl hposition
    rw [← hmeets.opcode, ← hresolves.opcode, hkind]

/-- **Which programs can be laid out**: those whose labels are bound, the ones of relative jumps
behind the jump. -/
theorem finish_iff_forward (serial : Nat) (hfew : (emissions calls).length < 2 ^ 29) :
    (∃ c, (assemble name calls).finish serial = .ok c)
      ↔ LabelsBound calls ∧ LeadsForward calls := by
  cases hresolve : (assemble name calls).resolve with
  | error e =>
    refine iff_of_false ?_ fun h => ?_
    · rintro ⟨c, hc⟩
      obtain ⟨items, hitems, -⟩ := bind_eq_ok.mp hc
      cases hresolve.symm.trans hitems
    · obtain ⟨items, hitems⟩ := resolve_iff.mpr h.1
      cases hresolve.symm.trans hitems
  | ok items =>
    have hsmall : ∀ sizes, Reached (assemble name calls).dialect items sizes →
        sizes.sum < 2 ^ 31 := by
      intro sizes hr
      have hle := sum_le_of_le_four hr.le_four
      rw [hr.length_eq, length_resolved hresolve] at hle
      omega
    rw [finish_iff serial hresolve hsmall fun r hr t => Portable.labels_le hresolve hr,
      forward_iff hresolve, and_iff_right (resolve_iff.mp ⟨items, hresolve⟩)]

/-- **Programs get the least layout.** A program of fewer than 2^29 instructions can be laid out
exactly if its labels are bound, those of relative jumps behind the jump. The rounds end in any
case, and the code is made of the sizes and operands that they end with, which are the least that
agree. -/
theorem finish_least (serial : Nat) (hfew : (emissions calls).length < 2 ^ 29) :
    ((∃ c, (assemble name calls).finish serial = .ok c) ↔ LabelsBound calls ∧ LeadsForward calls)
    ∧ ∀ items, (assemble name calls).resolve = .ok items →
      (∃ r, Rounds (assemble name calls).dialect items (items.map leastSize) r)
      ∧ ∀ c, (assemble name calls).finish serial = .ok c → ∃ sizes args,
        Rounds (assemble name calls).dialect items (items.map leastSize) (.ok (sizes, args))
        ∧ LeastLayout (assemble name calls).dialect items sizes args
        ∧ c.code = (items.zip (sizes.zip args)).flatMap fun (i, s, arg) =>
          encode i.opcode s arg := by
  refine ⟨finish_iff_forward serial hfew, fun items hresolve => ⟨⟨_, rounds_iff.mpr rfl⟩,
    fun c hc => ?_⟩⟩
  obtain ⟨items', hitems, hc⟩ := bind_eq_ok.mp hc
  cases hresolve.symm.trans hitems
  obtain ⟨⟨sizes, args⟩, hsettle, hc⟩ := bind_eq_ok.mp hc
  have hrounds := rounds_iff.mpr hsettle
  cases hc
  have hlabels := fun r hr t => Portable.labels_le (r := r) (t := t) hresolve hr
  exact ⟨sizes, args, hrounds, hrounds.leastLayout hlabels, rfl⟩

end Programs

/-- A relative jump over 127 instructions; the last one is an absolute jump to the same target. -/
def cascade : List Call :=
  .setDialect .v39 :: .emitJump .jumpForward 1 :: List.replicate 126 (.emit .nop 0)
    ++ [.emitJump .jumpAbsolute 1, .bindLabel 1, .emitConstant .loadConst .none,
      .emit .returnValue 0]

/-- The absolute jump outgrows one unit, and that makes the relative one outgrow its own. -/
theorem finish_least_cascade : (emissions cascade).length < 2 ^ 29
    ∧ LabelsBound cascade ∧ LeadsForward cascade
    ∧ ∃ items sizes args c, (assemble "f" cascade).resolve = .ok items
      ∧ (assemble "f" cascade).finish 0 = .ok c ∧ c.code.length = 2 * (items.length + 2)
      ∧ LeastLayout .v39 items sizes args := by
  have hfew : (emissions cascade).length < 2 ^ 29 := by decide +kernel
  have hlayout : ((assemble "f" cascade).finish 0).toOption.map (·.code.length)
      = some (2 * ((emissions cascade).length + 2)) := by decide +kernel
  obtain ⟨c, hc, hlength⟩ := Option.map_eq_some_iff.mp hlayout
  replace hc := toOption_eq_some.mp hc
  obtain ⟨items, hresolve, -⟩ := bind_eq_ok.mp hc
  obtain ⟨hiff, hends⟩ := @finish_least "f" cascade 0 hfew
  obtain ⟨hbound, hforward⟩ := hiff.mp ⟨c, hc⟩
  obtain ⟨sizes, args, -, hleast, -⟩ := (hends items hresolve).2 c hc
  have hdialect : (assemble "f" cascade).dialect = .v39 := by decide +kernel
  refine ⟨hfew, hbound, hforward, items, sizes, args, c, hresolve, hc, ?_, hdialect ▸ hleast⟩
  rw [length_resolved hresolve]
  exact hlength

end Assembler

end Stackwise
