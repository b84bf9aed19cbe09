import Mathlib.Data.Finset.Card
import Mathlib.Data.List.Range
import Mathlib.Data.Nat.Bitwise
import Stackwise.Analysis.BitSet

/-!
# Members of bit sets

What each operation on bit sets does to the words, and from that to the members. A word that was
not set aside reads as zero, so no statement about words asks how many of them there are.

* `hasBit_eq`: the bit of a number in a word is a bit of the vector.
* `word_insert`, `word_union` and so on: the words after an operation.
* `contains_insert`, `contains_union` and so on: the members after an operation; all other modules
  look only at these.
* `mem_toList`, `pairwise_toList`: the list of members, in increasing order.
* `commands_exact`: after any commands to any number of sets, they answer as sets of numbers do.
-/

namespace Stackwise

namespace BitSet

variable (s t : BitSet) (i j k : Nat) (v w : UInt64)

/-! ## 1. Bits of words -/

theorem toBitVec_bit : (bit i).toBitVec = BitVec.twoPow 64 (i % 64) := by
  have hlt : i % 64 < 2 ^ 64 := (Nat.mod_lt i (by decide)).trans (by decide)
  have hshift : ((BitVec.ofNat 64 (i % 64)) % 64).toNat = i % 64 := by
    rw [BitVec.toNat_umod, BitVec.toNat_ofNat, Nat.mod_eq_of_lt hlt]
    exact Nat.mod_mod i 64
  rw [bit, UInt64.toBitVec_shiftLeft, UInt64.toBitVec_ofNat, UInt64.toBitVec_ofNat',
    BitVec.twoPow_eq, BitVec.shiftLeft_eq', hshift]

/-- The bit of a number in a word is a bit of the vector. -/
theorem hasBit_eq : hasBit w i = w.toBitVec.getLsbD (i % 64) := by
  have hlt : i % 64 < 64 := Nat.mod_lt i (by decide)
  have hand : (w &&& bit i).toBitVec
      = if w.toBitVec.getLsbD (i % 64) then BitVec.twoPow 64 (i % 64) else 0#64 := by
    rw [UInt64.toBitVec_and, toBitVec_bit, BitVec.and_twoPow]
  cases hw : w.toBitVec.getLsbD (i % 64) with
  | false =>
    rw [hw, if_neg Bool.false_ne_true] at hand
    have hzero : w &&& bit i = 0 := UInt64.eq_of_toBitVec_eq hand
    rw [hasBit, hzero]
    rfl
  | true =>
    rw [hw, if_pos rfl] at hand
    refine bne_iff_ne.mpr fun hzero => ?_
    rw [hzero] at hand
    have hbit := congrArg (BitVec.getLsbD · (i % 64)) hand
    rw [BitVec.getLsbD_twoPow, decide_eq_true hlt, decide_eq_true rfl] at hbit
    exact absurd hbit (by simp)

@[simp] theorem hasBit_zero : hasBit 0 i = false := by
  rw [hasBit_eq]
  exact BitVec.getLsbD_zero

@[simp] theorem hasBit_or : hasBit (v ||| w) i = (hasBit v i || hasBit w i) := by
  simp only [hasBit_eq, UInt64.toBitVec_or, BitVec.getLsbD_or]

@[simp] theorem hasBit_without : hasBit (v &&& ~~~w) i = (hasBit v i && !hasBit w i) := by
  have hlt : i % 64 < 64 := Nat.mod_lt i (by decide)
  simp only [hasBit_eq, UInt64.toBitVec_and, UInt64.toBitVec_not, BitVec.getLsbD_and,
    BitVec.getLsbD_not, decide_eq_true hlt, Bool.true_and]

@[simp] theorem hasBit_bit : hasBit (bit i) j = decide (j % 64 = i % 64) := by
  have hlt : i % 64 < 64 := Nat.mod_lt i (by decide)
  rw [hasBit_eq, toBitVec_bit, BitVec.getLsbD_twoPow, decide_eq_true hlt, Bool.true_and]
  exact decide_eq_decide.mpr eq_comm

/-- The bit of a number depends on its place in the word alone. -/
theorem hasBit_mod : hasBit w (i % 64) = hasBit w i := by
  rw [hasBit_eq, hasBit_eq, Nat.mod_mod]

variable {v w} in
/-- Words with the same bits are the same. -/
theorem eq_of_hasBit (h : ∀ b < 64, hasBit v b = hasBit w b) : v = w := by
  refine UInt64.eq_of_toBitVec_eq (BitVec.eq_of_getLsbD_eq fun b hb => ?_)
  have hbit := h b hb
  rwa [hasBit_eq, hasBit_eq, Nat.mod_eq_of_lt hb] at hbit

theorem mem_bitsOf : i ∈ bitsOf w ↔ i < 64 ∧ hasBit w i = true := by
  rw [bitsOf, List.mem_filter, List.mem_range]

/-! ## 2. Words of sets -/

/-- A change of one word, where a zero word stays zero or is set aside. -/
theorem getD_modify (ws : List UInt64) (f : UInt64 → UInt64) (h : i < ws.length ∨ f 0 = 0) :
    (ws.modify i f).getD k 0 = if k = i then f (ws.getD k 0) else ws.getD k 0 := by
  rw [List.getD_eq_getElem?_getD, List.getD_eq_getElem?_getD, List.getElem?_modify]
  by_cases hk : k = i
  · subst hk
    rw [if_pos rfl]
    cases hw : ws[k]? with
    | some w => simp
    | none =>
      have hlen := List.getElem?_eq_none_iff.mp hw
      exact (h.resolve_left (by omega)).symm
  · rw [if_neg hk]
    simp only [if_neg (Ne.symm hk), id_map']

variable {s k w} in
/-- A word that was set aside is read as it is. -/
theorem word_of_getElem? (h : s.words[k]? = some w) : s.word k = w := by
  rw [word, List.getD_eq_getElem?_getD, h, Option.getD_some]

variable {s k} in
theorem word_eq_zero (h : s.words[k]? = none) : s.word k = 0 := by
  rw [word, List.getD_eq_getElem?_getD, h, Option.getD_none]

@[simp] theorem word_withCapacity (n : Nat) : (withCapacity n).word k = 0 := by
  rw [word, withCapacity, List.getD_eq_getElem?_getD, List.getElem?_replicate]
  split <;> rfl

@[simp] theorem word_reserve (n : Nat) : (s.reserve n).word k = s.word k := by
  rw [word, word, reserve, List.getD_eq_getElem?_getD, List.getD_eq_getElem?_getD,
    List.getElem?_append]
  split
  · rfl
  · rename_i hk
    rw [List.getElem?_eq_none (Nat.le_of_not_lt hk), List.getElem?_replicate]
    split <;> rfl

theorem length_reserve (n : Nat) : (s.reserve n).words.length = max s.words.length n := by
  rw [reserve, List.length_append, List.length_replicate]
  omega

theorem word_insert :
    (s.insert i).word k = if k = i / 64 then s.word k ||| bit i else s.word k := by
  have hroom : i / 64 < (s.reserve (wordsFor (i + 1))).words.length := by
    rw [length_reserve, wordsFor]
    omega
  rw [insert, word, getD_modify _ _ _ _ (.inl hroom), ← word, word_reserve]

theorem word_erase :
    (s.erase i).word k = if k = i / 64 then s.word k &&& ~~~bit i else s.word k :=
  getD_modify _ _ _ _ (.inr (UInt64.zero_and))

/-- The longer operand says how far the words of a union reach. -/
theorem word_union : (s.union t).word k = s.word k ||| t.word k := by
  have hword := s.word_reserve k t.words.length
  have hlen := s.length_reserve t.words.length
  rw [word, List.getD_eq_getElem?_getD] at hword
  rw [union, word, List.getD_eq_getElem?_getD, List.getElem?_mapIdx, ← hword]
  cases hk : (s.reserve t.words.length).words[k]? with
  | some w => rfl
  | none =>
    have hle := List.getElem?_eq_none_iff.mp hk
    rw [word_eq_zero (List.getElem?_eq_none (by omega))]
    rfl

theorem word_subtract : (s.subtract t).word k = s.word k &&& ~~~t.word k := by
  rw [subtract, word, word, List.getD_eq_getElem?_getD, List.getD_eq_getElem?_getD,
    List.getElem?_mapIdx]
  cases s.words[k]? with
  | some w => rfl
  | none => exact UInt64.zero_and.symm

/-! ## 3. Members -/

@[simp] theorem contains_empty : empty.contains i = false := hasBit_zero i

@[simp] theorem contains_withCapacity (n : Nat) : (withCapacity n).contains i = false := by
  rw [contains, word_withCapacity, hasBit_zero]

@[simp] theorem contains_insert : (s.insert i).contains j = (decide (j = i) || s.contains j) := by
  rw [contains, contains, word_insert]
  split
  · rename_i hword
    rw [hasBit_or, hasBit_bit, Bool.or_comm]
    exact congrArg (· || _) (decide_eq_decide.mpr (by omega))
  · rename_i hword
    rw [decide_eq_false (by omega), Bool.false_or]

@[simp] theorem contains_erase : (s.erase i).contains j = (!decide (j = i) && s.contains j) := by
  rw [contains, contains, word_erase]
  split
  · rename_i hword
    rw [hasBit_without, hasBit_bit, Bool.and_comm]
    exact congrArg (! · && _) (decide_eq_decide.mpr (by omega))
  · rename_i hword
    rw [decide_eq_false (by omega), Bool.not_false, Bool.true_and]

@[simp] theorem contains_union : (s.union t).contains j = (s.contains j || t.contains j) := by
  rw [contains, word_union, hasBit_or]
  rfl

@[simp] theorem contains_subtract :
    (s.subtract t).contains j = (s.contains j && !t.contains j) := by
  rw [contains, word_subtract, hasBit_without]
  rfl

theorem isFresh_eq : s.isFresh i = !s.contains i := by
  rw [contains, hasBit, isFresh, bne, Bool.not_not]

/-- The bits of a word are the members between its bounds. -/
theorem hasBit_word {b : Nat} (hb : b < 64) : hasBit (s.word k) b = s.contains (64 * k + b) := by
  rw [contains, ← hasBit_mod (64 * k + b), Nat.mul_add_div (by decide), Nat.div_eq_of_lt hb,
    Nat.add_zero, Nat.mul_add_mod, Nat.mod_eq_of_lt hb]

variable {s t i}

/-- A word that was not set aside may be asked all the same. -/
theorem growsBy_eq_false_iff_words :
    s.growsBy t = false ↔ ∀ k, s.word k ||| t.word k = s.word k := by
  rw [growsBy, List.any_eq_false]
  constructor
  · intro h k
    cases hw : t.words[k]? with
    | none => rw [word_eq_zero hw, UInt64.or_zero]
    | some w =>
      have hsame := h (w, k) (List.mem_zipIdx_iff_getElem?.mpr hw)
      rw [word_of_getElem? hw]
      exact bne_eq_false_iff_eq.mp (Bool.eq_false_iff.mpr hsame)
  · rintro h ⟨w, k⟩ hmem hne
    have hw : t.word k = w := word_of_getElem? (List.mem_zipIdx_iff_getElem?.mp hmem)
    rw [← hw] at hne
    exact bne_iff_ne.mp hne (h k)

theorem growsBy_eq_false :
    s.growsBy t = false ↔ ∀ i, t.contains i = true → s.contains i = true := by
  rw [growsBy_eq_false_iff_words]
  constructor
  · intro h i hi
    rw [contains, ← h, hasBit_or]
    exact Bool.or_eq_true_iff.mpr (.inr hi)
  · intro h k
    refine eq_of_hasBit fun b hb => ?_
    rw [hasBit_or, hasBit_word s k hb, hasBit_word t k hb]
    cases ht : t.contains (64 * k + b) with
    | false => exact Bool.or_false _
    | true => rw [h _ ht, Bool.or_true]

/-- A set that another one does not enlarge has its members. -/
theorem contains_of_growsBy_eq_false (h : s.growsBy t = false) (hi : t.contains i = true) :
    s.contains i = true := growsBy_eq_false.mp h i hi

theorem exists_of_growsBy (h : s.growsBy t = true) :
    ∃ i, t.contains i = true ∧ s.contains i = false := by
  by_contra hnone
  refine absurd (growsBy_eq_false.mpr fun i ht => ?_) (by rw [h]; exact nofun)
  by_contra hs
  exact hnone ⟨i, ht, Bool.eq_false_iff.mpr hs⟩

theorem contains_foldl_union {α : Type} (xs : List α) {f : α → BitSet} :
    (xs.foldl (fun s x => s.union (f x)) s).contains i = true
      ↔ s.contains i = true ∨ ∃ x ∈ xs, (f x).contains i = true := by
  induction xs generalizing s with
  | nil => simp
  | cons y xs ih =>
    rw [List.foldl_cons, ih, contains_union, Bool.or_eq_true, or_assoc]
    simp only [List.mem_cons, exists_eq_or_imp]

theorem contains_foldl_insert {is : List Nat} :
    (is.foldl insert s).contains i = true ↔ i ∈ is ∨ s.contains i = true := by
  induction is generalizing s with
  | nil => simp
  | cons j is ih =>
    rw [List.foldl_cons, ih, contains_insert, List.mem_cons, Bool.or_eq_true, decide_eq_true_iff,
      or_left_comm, or_assoc]

theorem contains_ofList {is : List Nat} : (ofList is).contains i = true ↔ i ∈ is := by
  rw [ofList, contains_foldl_insert]
  simp

/-! ## 4. Lists of members -/

theorem isEmpty_iff : s.isEmpty = true ↔ ∀ i, s.contains i = false := by
  rw [isEmpty, List.all_eq_true]
  constructor
  · intro h i
    cases hw : s.words[i / 64]? with
    | none => rw [contains, word_eq_zero hw, hasBit_zero]
    | some w =>
      have hzero : w = 0 := beq_iff_eq.mp (h w (List.mem_of_getElem? hw))
      rw [contains, word_of_getElem? hw, hzero, hasBit_zero]
  · intro h w hmem
    obtain ⟨k, hw⟩ := List.mem_iff_getElem?.mp hmem
    refine beq_iff_eq.mpr (eq_of_hasBit fun b hb => ?_)
    rw [← word_of_getElem? hw, hasBit_word s k hb, h, hasBit_zero]

theorem mem_toList : i ∈ s.toList ↔ s.contains i = true := by
  rw [toList, List.mem_flatMap]
  constructor
  · rintro ⟨⟨w, k⟩, hmem, hi⟩
    obtain ⟨b, hb, rfl⟩ := List.mem_map.mp hi
    obtain ⟨hlt, hbit⟩ := (mem_bitsOf b w).mp hb
    rwa [← hasBit_word s k hlt, word_of_getElem? (List.mem_zipIdx_iff_getElem?.mp hmem)]
  · intro hi
    cases hw : s.words[i / 64]? with
    | none =>
      rw [contains, word_eq_zero hw, hasBit_zero] at hi
      cases hi
    | some w =>
      refine ⟨(w, i / 64), List.mem_zipIdx_iff_getElem?.mpr hw, List.mem_map.mpr ⟨i % 64, ?_, ?_⟩⟩
      · rw [contains, word_of_getElem? hw, ← hasBit_mod] at hi
        exact (mem_bitsOf _ w).mpr ⟨Nat.mod_lt i (by decide), hi⟩
      · exact Nat.div_add_mod i 64

/-- Bits of a word in order, and words in order. -/
theorem pairwise_toList (s : BitSet) : s.toList.Pairwise (· < ·) := by
  refine List.pairwise_flatMap.mpr ⟨fun p _ => ?_, ?_⟩
  · have hbits : (bitsOf p.1).Pairwise (· < ·) := List.Pairwise.filter _ List.pairwise_lt_range
    exact List.pairwise_map.mpr (hbits.imp (Nat.add_lt_add_left · _))
  · have hwords : s.words.zipIdx.Pairwise (·.2 < ·.2) := by
      refine List.pairwise_map.mp ?_
      rw [List.zipIdx_map_snd]
      exact List.pairwise_lt_range'
    refine hwords.imp fun {p q} hlt x hx y hy => ?_
    obtain ⟨b, hb, rfl⟩ := List.mem_map.mp hx
    obtain ⟨c, -, rfl⟩ := List.mem_map.mp hy
    have hb := ((mem_bitsOf b p.1).mp hb).1
    omega

theorem foldl_length_bitsOf (ws : List UInt64) (k n : Nat) :
    ws.foldl (fun n w => n + (bitsOf w).length) n
      = n + ((ws.zipIdx k).flatMap fun (w, k) => (bitsOf w).map (64 * k + ·)).length := by
  induction ws generalizing k n with
  | nil => rfl
  | cons w ws ih =>
    rw [List.foldl_cons, ih (k + 1), List.zipIdx_cons, List.flatMap_cons, List.length_append,
      List.length_map, Nat.add_assoc]

/-- The count of the bits is the length of the list. -/
theorem size_eq (s : BitSet) : s.size = s.toList.length :=
  (foldl_length_bitsOf s.words 0 0).trans (Nat.zero_add _)

/-! ## 5. Commands -/

/-- An operation on numbered sets. -/
inductive Command where
  /-- Set `k` starts anew, with or without room. -/
  | create (k : Nat) (capacity : Option Nat)
  | insert (k i : Nat)
  | erase (k i : Nat)
  /-- Set `k` gets the members of set `l`. -/
  | union (k l : Nat)
  /-- Set `k` loses the members of set `l`. -/
  | subtract (k l : Nat)
  /-- Set `k` becomes a copy of set `l`. -/
  | clone (k l : Nat)

namespace Command

/-- What a command does to bit sets. -/
def apply (sets : Nat → BitSet) : Command → Nat → BitSet
  | .create k capacity => Function.update sets k (capacity.elim empty withCapacity)
  | .insert k i => Function.update sets k ((sets k).insert i)
  | .erase k i => Function.update sets k ((sets k).erase i)
  | .union k l => Function.update sets k ((sets k).union (sets l))
  | .subtract k l => Function.update sets k ((sets k).subtract (sets l))
  | .clone k l => Function.update sets k (sets l)

/-- Whether a command reports a change of its set; not all report. -/
def report? (sets : Nat → BitSet) : Command → Option Bool
  | .insert k i => some ((sets k).isFresh i)
  | .union k l => some ((sets k).growsBy (sets l))
  | _ => none

/-- What a command does to sets of numbers. -/
def meaning (members : Nat → Finset Nat) : Command → Nat → Finset Nat
  | .create k _ => Function.update members k ∅
  | .insert k i => Function.update members k (Insert.insert i (members k))
  | .erase k i => Function.update members k ((members k).erase i)
  | .union k l => Function.update members k (members k ∪ members l)
  | .subtract k l => Function.update members k (members k \ members l)
  | .clone k l => Function.update members k (members l)

/-- Whether a command that reports enlarges its set. -/
def growth? (members : Nat → Finset Nat) (c : Command) : Option Bool :=
  match c with
  | .insert k _ | .union k _ => some (decide (members k ⊂ c.meaning members k))
  | _ => none

end Command

/-- The bit set answers every question as a set of numbers does. -/
structure Implements (s : BitSet) (members : Finset Nat) : Prop where
  contains : ∀ i, s.contains i = decide (i ∈ members)
  size : s.size = members.card
  isEmpty : s.isEmpty = decide (members = ∅)
  increasing : s.toList.Pairwise (· < ·)
  toList : ∀ i, i ∈ s.toList ↔ i ∈ members

/-- Membership decides the other answers. -/
theorem implements_of_contains {members : Finset Nat}
    (h : ∀ i, s.contains i = true ↔ i ∈ members) : s.Implements members := by
  have hlist : ∀ i, i ∈ s.toList ↔ i ∈ members := fun i => mem_toList.trans (h i)
  have hnodup : s.toList.Nodup := s.pairwise_toList.imp Nat.ne_of_lt
  have hfinset : s.toList.toFinset = members := Finset.ext fun i => by
    rw [List.mem_toFinset, hlist]
  refine ⟨fun i => ?_, ?_, ?_, s.pairwise_toList, hlist⟩
  · exact Bool.eq_iff_iff.mpr ((h i).trans decide_eq_true_iff.symm)
  · rw [size_eq, ← hfinset, List.toFinset_card_of_nodup hnodup]
  · refine Bool.eq_iff_iff.mpr (isEmpty_iff.trans (Iff.trans ?_ decide_eq_true_iff.symm))
    rw [Finset.eq_empty_iff_forall_notMem]
    exact forall_congr' fun i => Bool.eq_false_iff.trans (not_congr (h i))

/-- The members of numbered sets. -/
def Agree (sets : Nat → BitSet) (members : Nat → Finset Nat) : Prop :=
  ∀ k i, (sets k).contains i = true ↔ i ∈ members k

variable {sets : Nat → BitSet} {members : Nat → Finset Nat}

theorem Agree.update (h : Agree sets members) (k : Nat) {s : BitSet} {m : Finset Nat}
    (hs : ∀ i, s.contains i = true ↔ i ∈ m) :
    Agree (Function.update sets k s) (Function.update members k m) := by
  intro l i
  by_cases hl : l = k
  · subst hl
    rw [Function.update_self, Function.update_self]
    exact hs i
  · rw [Function.update_of_ne hl, Function.update_of_ne hl]
    exact h l i

/-- One command keeps the members right. -/
theorem Agree.apply (h : Agree sets members) (c : Command) :
    Agree (c.apply sets) (c.meaning members) := by
  cases c with
  | create k capacity =>
    refine h.update k fun i => ?_
    cases capacity <;> simp
  | insert k i => exact h.update k fun j => by simp [h k j]
  | erase k i => exact h.update k fun j => by simp [h k j]
  | union k l => exact h.update k fun j => by simp [h k j, h l j]
  | subtract k l => exact h.update k fun j => by simp [← h k j, ← h l j]
  | clone k l => exact h.update k (h l)

/-- A report of a change is a report of growth. -/
theorem Agree.report (h : Agree sets members) (c : Command) :
    c.report? sets = c.growth? members := by
  cases c with
  | insert k i =>
    refine congrArg some (Bool.eq_iff_iff.mpr ?_)
    rw [isFresh_eq, decide_eq_true_iff, Command.meaning, Function.update_self, Bool.not_eq_true',
      Bool.eq_false_iff, Ne, h k i]
    exact ⟨Finset.ssubset_insert, fun hlt hi => hlt.ne (Finset.insert_eq_of_mem hi).symm⟩
  | union k l =>
    refine congrArg some (Bool.eq_iff_iff.mpr ?_)
    rw [decide_eq_true_iff, Command.meaning, Function.update_self, ← not_iff_not, Bool.not_eq_true,
      growsBy_eq_false, Finset.ssubset_iff_subset_ne, not_and_not_right]
    simp only [h k, h l, Finset.subset_union_left, true_imp_iff]
    exact Finset.left_eq_union.symm
  | create k capacity => rfl
  | erase k i => rfl
  | subtract k l => rfl
  | clone k l => rfl

theorem Agree.run (h : Agree sets members) (cs : List Command) :
    Agree (cs.foldl Command.apply sets) (cs.foldl Command.meaning members) := by
  induction cs generalizing sets members with
  | nil => exact h
  | cons c cs ih => exact ih (h.apply c)

/-- **Whatever was done to any number of bit sets, they answer as the sets of numbers do to which
the same was done, and the next command reports a change exactly if it enlarges its set.** -/
theorem commands_exact (cs : List Command) :
    let sets := cs.foldl Command.apply fun _ => empty
    let members := cs.foldl Command.meaning fun _ => ∅
    (∀ k, (sets k).Implements (members k)) ∧ ∀ c : Command, c.report? sets = c.growth? members := by
  have hstart : Agree (fun _ => empty) fun _ => ∅ := fun k i => by simp
  have hrun := hstart.run cs
  exact ⟨fun k => implements_of_contains (hrun k), hrun.report⟩

end BitSet

end Stackwise
