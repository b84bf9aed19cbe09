import Mathlib.Data.List.TakeWhile
import Stackwise.Machine.Construct
import Stackwise.Machine.Formatting
import Stackwise.Proofs.Machine.Calm
import Stackwise.Proofs.Machine.Stepping
import Stackwise.Proofs.Machine.Words

/-!
# Integers as texts

A word is written as a sign and the digits of its magnitude, and read as one. Reading takes blanks,
underscores and marks of a base away first; among the digits of a base there is nothing of the kind.
The magnitude is read before the sign counts, so the least word is written but not read.

* `Halts`: a text does not go on with a character of a class, so a run of the class ends there.
* `Decimal.digitsValue_toDigits_ten`: decimal digits, read without a check, have their value.
* `integerChars`: the characters of an integer in a base.
* `digitsValue_toDigits`: digits have the value that they were written for.
* `readInteger_chars`: what is read from the characters of an integer.
* `Machine.texts_read_back`: the machine reads what it wrote, but for the least word.
-/

namespace Stackwise

section Runs

variable {p : Char → Bool} {cs ds xs ys rest : List Char} {n : Nat}

/-! ## 1. Runs of a class -/

/-- A text does not go on with a character of a class. -/
def Halts (p : Char → Bool) (cs : List Char) : Prop := ∀ c ∈ cs.head?, p c = false

theorem Halts.nil : Halts p [] := nofun

theorem Halts.cons {c : Char} (h : p c = false) : Halts p (c :: rest) := by
  rintro _ ⟨⟩
  exact h

theorem Halts.append (hx : Halts p xs) (hy : Halts p ys) : Halts p (xs ++ ys) := by
  cases xs with
  | nil => exact hy
  | cons x xs => exact hx

theorem Halts.of_forall (h : ∀ c ∈ cs, p c = false) : Halts p cs :=
  fun c hc => h c (List.mem_of_mem_head? hc)

/-- The characters of a class up to a text that does not go on with it. -/
theorem Halts.takeWhile (h : Halts p rest) (hds : ∀ c ∈ ds, p c = true) :
    (ds ++ rest).takeWhile p = ds := by
  rw [List.takeWhile_append_of_pos hds]
  cases rest with
  | nil => exact List.append_nil ds
  | cons c rest =>
    rw [List.takeWhile_cons_of_neg (Bool.not_eq_true _ ▸ h c rfl), List.append_nil]

theorem Halts.dropWhile (h : Halts p rest) (hds : ∀ c ∈ ds, p c = true) :
    (ds ++ rest).dropWhile p = rest := by
  rw [List.dropWhile_append_of_pos hds]
  cases rest with
  | nil => rfl
  | cons c rest => exact List.dropWhile_cons_of_neg (Bool.not_eq_true _ ▸ h c rfl)

/-! ## 2. Decimal digits -/

namespace Decimal

theorem isDigit_of_mem_toDigits (n : Nat) : ∀ c ∈ Nat.toDigits 10 n, c.isDigit = true :=
  fun _ => Nat.isDigit_of_mem_toDigits (by decide) (by decide)

theorem isEmpty_toDigits (n : Nat) : (Nat.toDigits 10 n).isEmpty = false :=
  List.isEmpty_eq_false_iff.mpr Nat.toDigits_ne_nil

theorem digitsValue_toDigits_ten (n : Nat) : digitsValue (Nat.toDigits 10 n) = n := by
  have hcomm : digitsValue (Nat.toDigits 10 n) = Nat.ofDigitChars 10 (Nat.toDigits 10 n) 0 := by
    rw [digitsValue, Nat.ofDigitChars]
    simp only [Nat.mul_comm]
  rw [hcomm, Nat.ofDigitChars_toDigits (by decide) (by decide)]

/-- Only zero is written with a zero in front. -/
theorem halts_zero_toDigits (hn : n ≠ 0) : Halts (· == '0') (Nat.toDigits 10 n) := by
  induction n using Nat.strongRecOn with
  | ind n ih =>
    rw [Nat.toDigits_eq_if (by decide)]
    split
    · rename_i hlt
      have hdigit : ∀ d < 10, d ≠ 0 → (Nat.digitChar d == '0') = false := by decide
      rintro c ⟨⟩
      exact hdigit n hlt hn
    · rename_i hge
      have hfirst := ih (n / 10) (by omega) (by omega)
      cases hds : Nat.toDigits 10 (n / 10) with
      | nil => exact absurd hds Nat.toDigits_ne_nil
      | cons d ds =>
        rw [hds] at hfirst
        exact hfirst

end Decimal

end Runs

/-- The characters of an integer in a base: the sign and the digits of the magnitude. -/
def integerChars (base : Nat) (n : Int) : List Char :=
  (if n < 0 then ['-'] else []) ++ Nat.toDigits base n.natAbs

namespace NumberText

variable {base m d : Nat} {c : Char} {cs : List Char} {n : Int}

/-! ## 3. Digits -/

/-- Characters that are digits of a base. -/
def AreDigits (base : Nat) (cs : List Char) : Prop := ∀ c ∈ cs, ∃ d < base, c = Nat.digitChar d

theorem areDigits_toDigits (hbase : 1 < base) (m : Nat) : AreDigits base (Nat.toDigits base m) := by
  induction m using Nat.strongRecOn with
  | ind m ih =>
    intro c hc
    rw [Nat.toDigits_eq_if hbase] at hc
    split at hc
    · rename_i hlt
      exact ⟨m, hlt, List.mem_singleton.mp hc⟩
    · rename_i hle
      rcases List.mem_append.mp hc with hc | hc
      · exact ih _ (Nat.div_lt_self (by omega) hbase) c hc
      · exact ⟨m % base, Nat.mod_lt m (by omega), List.mem_singleton.mp hc⟩

theorem digit_digitChar : ∀ d < 16, digit? (Nat.digitChar d) = some d := by decide

/-- No digit is taken away, or taken for a sign or a mark. -/
theorem digitChar_plain : ∀ d < 16, Text.isBlank (Nat.digitChar d) = false
    ∧ Nat.digitChar d ∉ ['_', '-', '+', 'x', 'X', 'o', 'O', 'B'] := by decide

/-- The next digit counts in its own place. -/
theorem digitsValue_concat (hd : d < base) (hdigits : base ≤ 16) (cs : List Char) :
    digitsValue? base (cs ++ [Nat.digitChar d]) = (digitsValue? base cs).map (· * base + d) := by
  unfold digitsValue?
  rw [List.foldlM_append]
  simp only [List.foldlM_cons, List.foldlM_nil, digit_digitChar d (by omega), if_pos hd]
  cases List.foldlM (m := Option) _ 0 cs <;> rfl

/-- **Digits have the value that they were written for.** -/
theorem digitsValue_toDigits (hbase : 1 < base) (hdigits : base ≤ 16) (m : Nat) :
    digitsValue? base (Nat.toDigits base m) = some m := by
  induction m using Nat.strongRecOn with
  | ind m ih =>
    rw [Nat.toDigits_eq_if hbase]
    split
    · rename_i hlt
      refine (digitsValue_concat hlt hdigits []).trans ?_
      rw [digitsValue?, List.foldlM_nil]
      exact congrArg some ((congrArg (· + m) (Nat.zero_mul base)).trans (Nat.zero_add m))
    · rename_i hle
      rw [digitsValue_concat (Nat.mod_lt m (by omega)) hdigits,
        ih _ (Nat.div_lt_self (by omega) hbase), Option.map_some, Nat.mul_comm, Nat.div_add_mod]

/-! ## 4. Reading -/

theorem dropWhile_eq_self {p : Char → Bool} (h : ∀ c ∈ cs, p c = false) : cs.dropWhile p = cs := by
  cases cs with
  | nil => rfl
  | cons c cs => rw [List.dropWhile_cons, h c List.mem_cons_self, if_neg Bool.false_ne_true]

/-- Nothing is taken away from characters that all count. -/
theorem significant_ofList (h : ∀ c ∈ cs, Text.isBlank c = false ∧ c ≠ '_') :
    significant (String.ofList cs) = cs := by
  have hfront : cs.dropWhile Text.isBlank = cs := dropWhile_eq_self fun c hc => (h c hc).1
  have hback : cs.reverse.dropWhile Text.isBlank = cs.reverse :=
    dropWhile_eq_self fun c hc => (h c (List.mem_reverse.mp hc)).1
  unfold significant Text.trim Text.trimMatches Text.trimChars
  rw [String.toList_ofList, String.toList_ofList, hfront, hback, List.reverse_reverse]
  exact List.filter_eq_self.mpr fun c hc => bne_iff_ne.mpr (h c hc).2

/-- The characters of an integer all count. -/
theorem significant_chars (hbase : 1 < base) (hdigits : base ≤ 16) (n : Int) :
    significant (String.ofList (integerChars base n)) = integerChars base n := by
  refine significant_ofList fun c hc => ?_
  rcases List.mem_append.mp hc with hc | hc
  · split at hc
    · rw [List.mem_singleton.mp hc]
      decide
    · cases hc
  · obtain ⟨d, hd, rfl⟩ := areDigits_toDigits hbase _ c hc
    obtain ⟨hblank, hplain⟩ := digitChar_plain d (by omega)
    exact ⟨hblank, fun h => hplain (h ▸ List.mem_cons_self)⟩

theorem digit_no_sign (hdigits : base ≤ 16) (hc : ∃ d < base, c = Nat.digitChar d) :
    c ≠ '-' ∧ c ≠ '+' := by
  obtain ⟨d, hd, rfl⟩ := hc
  obtain ⟨-, hplain⟩ := digitChar_plain d (by omega)
  exact ⟨fun h => hplain (by rw [h]; decide), fun h => hplain (by rw [h]; decide)⟩

/-- A sign is read as it was written, whatever stands behind the digits. -/
theorem readSign_chars (hbase : 1 < base) (hdigits : base ≤ 16) (n : Int) (rest : List Char) :
    Decimal.readSign (integerChars base n ++ rest)
      = (decide (n < 0), Nat.toDigits base n.natAbs ++ rest) := by
  unfold integerChars
  by_cases hneg : n < 0
  · rw [if_pos hneg, decide_eq_true hneg]
    rfl
  · rw [if_neg hneg, decide_eq_false hneg, List.nil_append]
    have hdigit := areDigits_toDigits hbase n.natAbs
    cases hcs : Nat.toDigits base n.natAbs with
    | nil => exact absurd hcs Nat.toDigits_ne_nil
    | cons c cs =>
      rw [hcs] at hdigit
      obtain ⟨hminus, hplus⟩ := digit_no_sign hdigits (hdigit c List.mem_cons_self)
      unfold Decimal.readSign
      split
      · rename_i heq
        exact absurd (List.cons.inj heq).1 hminus
      · rename_i heq
        exact absurd (List.cons.inj heq).1 hplus
      · rfl

/-- Digits of a base have no mark of it. -/
theorem splitBase_of_digits (hbase : 1 < base) (hdigits : base ≤ 16) (h : AreDigits base cs) :
    splitBase? base cs = some (base, cs) := by
  have hzero : ((base : Int) == 0) = false := beq_eq_false_iff_ne.mpr (by omega)
  have hrange : (decide (2 ≤ (base : Int)) && decide ((base : Int) ≤ 36)) = true := by
    rw [Bool.and_eq_true, decide_eq_true_iff, decide_eq_true_iff]
    omega
  unfold splitBase?
  simp only [hzero, hrange, Int.toNat_natCast, Bool.false_eq_true, if_false, if_true, Bool.false_or]
  split
  · rename_i mark rest
    obtain ⟨d, hd, hmark⟩ := h mark (List.mem_cons_of_mem _ List.mem_cons_self)
    have hplain := (digitChar_plain d (by omega)).2
    rw [← hmark] at hplain
    split
    · exact absurd (by decide) hplain
    · exact absurd (by decide) hplain
    · exact absurd (by decide) hplain
    · exact absurd (by decide) hplain
    · -- the only mark that is a digit, though not of the base that it marks
      have hd' : d = 11 := Nat.b_eq_digitChar.mp hmark
      have hother : ((base : Int) == (2 : Nat)) = false := beq_eq_false_iff_ne.mpr (by omega)
      rw [hother, if_neg Bool.false_ne_true]
    · exact absurd (by decide) hplain
    · rfl
  · rfl

/-- **What is read from the characters of an integer**: the integer, if its magnitude is a word. -/
theorem readInteger_chars (hbase : 1 < base) (hdigits : base ≤ 16) (n : Int) :
    readInteger? (String.ofList (integerChars base n)) base
      = if n.natAbs < 2 ^ 63 then some (Int64.ofInt n) else none := by
  have hsigned : (if decide (n < 0) = true then -(n.natAbs : Int) else n.natAbs) = n := by
    split
    · rename_i hneg
      have := of_decide_eq_true hneg
      omega
    · rename_i hpos
      have := of_decide_eq_false (Bool.eq_false_of_not_eq_true hpos)
      omega
  have hsign := readSign_chars hbase hdigits n []
  rw [List.append_nil, List.append_nil] at hsign
  unfold readInteger?
  rw [significant_chars hbase hdigits, hsign]
  dsimp only
  rw [splitBase_of_digits hbase hdigits (areDigits_toDigits hbase _), Option.bind_eq_bind,
    Option.bind_some]
  dsimp only
  rw [if_neg (by simp), digitsValue_toDigits hbase hdigits, Option.bind_eq_bind, Option.bind_some,
    hsigned]
  rfl

end NumberText

namespace Machine

variable {n radix : Int64} {kind : String} {ctx : Context} {s : Store}

/-! ## 5. Writing -/

/-- The kinds of a specification that write an integer in another base than ten, and the base. -/
def spellings : List (String × Int64) := [("x", 16), ("o", 8), ("b", 2)]

theorem toString_chars (n : Int) : toString n = String.ofList (integerChars 10 n) := by
  cases n with
  | ofNat m => exact Nat.repr_eq_ofList_toDigits
  | negSucc m =>
    unfold integerChars
    rw [if_pos (Int.negSucc_lt_zero m), Int.natAbs_negSucc, String.ofList_append]
    exact congrArg ("-" ++ ·) Nat.repr_eq_ofList_toDigits

theorem newStr_run (t : String) (ctx : Context) (s : Store) :
    newStr t ctx s = .ok (.str s.newIdent.1 t) s.newIdent.2 := rfl

theorem str_run (n : Int64) (ctx : Context) (s : Store) : constructWith TypeId.str [.int n] [] ctx s
    = newStr (String.ofList (integerChars 10 n.toInt)) ctx s := by
  have htext : s.display ctx.compiler.model (.int n) = toString n.toInt := by
    unfold Store.display
    cases s.size <;> rfl
  change newStr (s.display ctx.compiler.model (.int n)) ctx s = _
  rw [htext, toString_chars]

/-- A specification of a kind alone neither pads the digits nor writes another sign. -/
theorem lay_kind (k : Char) (n : Int64) (body : String) :
    ({ kind := some k } : FormatSpec).lay true (n < 0) body
      = (if n.toInt < 0 then "-" else "") ++ body := by
  have hneg : n < 0 ↔ n.toInt < 0 := Int64.lt_iff_toInt_lt
  have hsign : ({ kind := some k } : FormatSpec).signText true (n < 0)
      = if n.toInt < 0 then "-" else "" := by
    unfold FormatSpec.signText
    simp only [decide_eq_true_iff, hneg]
    rfl
  unfold FormatSpec.lay
  rw [hsign]
  dsimp only
  rw [Nat.zero_sub]
  change "" ++ _ ++ body = _
  rw [String.empty_append]

theorem format_chars (h : (kind, radix) ∈ spellings) (n : Int64) (ctx : Context) (s : Store) :
    ∃ base : Nat, radix.toInt = base ∧ 1 < base ∧ base ≤ 16
      ∧ format (.int n) kind ctx s = .ok (String.ofList (integerChars base n.toInt)) s := by
  have hchars (b : Nat) : (if n.toInt < 0 then "-" else "")
      ++ String.ofList (Nat.toDigits b n.toInt.natAbs)
        = String.ofList (integerChars b n.toInt) := by
    unfold integerChars
    rw [String.ofList_append]
    split <;> rfl
  simp only [spellings, List.mem_cons, List.not_mem_nil, or_false, Prod.mk.injEq] at h
  rcases h with ⟨rfl, rfl⟩ | ⟨rfl, rfl⟩ | ⟨rfl, rfl⟩
  · exact ⟨16, rfl, by decide, by decide,
      congrArg (EStateM.Result.ok · s) ((lay_kind 'x' n _).trans (hchars 16))⟩
  · exact ⟨8, rfl, by decide, by decide,
      congrArg (EStateM.Result.ok · s) ((lay_kind 'o' n _).trans (hchars 8))⟩
  · exact ⟨2, rfl, by decide, by decide,
      congrArg (EStateM.Result.ok · s) ((lay_kind 'b' n _).trans (hchars 2))⟩

/-! ## 6. Reading back -/

/-- Writes an integer and reads the text. -/
def reread (n : Int64) : Action Value := do
  construct TypeId.int [← construct TypeId.str [.int n] []] []

/-- Writes an integer in a base and reads the text in it. -/
def rereadIn (kind : String) (radix n : Int64) : Action Value := do
  construct TypeId.int [← newStr (← format (.int n) kind), .int radix] []

theorem arity_run {args : List Value} {low high : Nat} (name : String) (hlow : low ≤ args.length)
    (hhigh : args.length ≤ high) : arity name args low high ctx s = .ok () s := by
  unfold arity
  rw [decide_eq_true hlow, decide_eq_true hhigh]
  rfl

/-- A class that is no exception makes its instance of as many arguments as it takes. -/
theorem construct_run {t : TypeId} (hplain : ctx.compiler.model.isException t = false)
    (args : List Value) {low high : Nat} (harity : constructorArity? t = some (low, high))
    (hlow : low ≤ args.length) (hhigh : args.length ≤ high) :
    construct t args [] ctx s = constructWith t args [] ctx s := by
  have hcounted : (do
      arity (ctx.compiler.model.name t) args low high
      constructWith t args [] : Action Value) ctx s = constructWith t args [] ctx s := by
    rw [run_bind, arity_run _ hlow hhigh]
  unfold construct
  rw [harity]
  change (if ctx.compiler.model.isException t = true then _ else _ : Action Value) ctx s = _
  rw [if_neg (by rw [hplain]; exact Bool.false_ne_true)]
  split
  · exact hcounted
  · exact hcounted

theorem constructWith_int (args : List Value) : constructWith TypeId.int args [] = makeInt args :=
  if_pos rfl

/-- **A word is read from its own characters**, unless it is the least one. -/
theorem intOfText_chars {base : Nat} (hradix : radix.toInt = base) (hbase : 1 < base)
    (hdigits : base ≤ 16) (n : Int64) (ctx : Context) (s : Store) :
    (∃ s', intOfText (String.ofList (integerChars base n.toInt)) radix ctx s = .ok (.int n) s')
      ↔ n ≠ Int64.minValue := by
  have hleast : n = Int64.minValue ↔ n.toInt = -2 ^ 63 :=
    (Int64.toInt_inj (y := Int64.minValue)).symm
  have hlo := n.le_toInt
  have hhi := n.toInt_lt
  unfold intOfText
  rw [hradix, NumberText.readInteger_chars hbase hdigits, Int64.ofInt_toInt]
  by_cases hsmall : n.toInt.natAbs < 2 ^ 63
  · rw [if_pos hsmall]
    exact iff_of_true ⟨s, rfl⟩ (mt hleast.mp (by omega))
  · rw [if_neg hsmall]
    exact iff_of_false nofun fun hne => hne (hleast.mpr (by omega))

variable (hint : ctx.compiler.model.isException TypeId.int = false)
include hint

theorem int_of_text (id : Ident) (t : String) (s : Store) :
    construct TypeId.int [.str id t] [] ctx s = intOfText t 10 ctx s := by
  rw [construct_run hint [.str id t] (by decide) (Nat.zero_le _) (Nat.le_succ 1),
    constructWith_int]
  rfl

theorem int_of_text_in (id : Ident) (t : String) (radix : Int64) (s : Store) :
    construct TypeId.int [.str id t, .int radix] [] ctx s = intOfText t radix ctx s := by
  have hbase : intArg "int" (.int radix) ctx s = .ok radix s := rfl
  rw [construct_run hint [.str id t, .int radix] (by decide) (Nat.zero_le _) (Nat.le_refl 2),
    constructWith_int, makeInt, run_bind, hbase]

theorem reread_run (hstr : ctx.compiler.model.isException TypeId.str = false) (n : Int64)
    (s : Store) : reread n ctx s
      = intOfText (String.ofList (integerChars 10 n.toInt)) 10 ctx s.newIdent.2 := by
  have hwritten : construct TypeId.str [.int n] [] ctx s
      = newStr (String.ofList (integerChars 10 n.toInt)) ctx s := by
    rw [construct_run hstr [.int n] (by decide) (Nat.zero_le _) (Nat.le_refl 1)]
    exact str_run n ctx s
  rw [reread, run_bind, hwritten, newStr_run]
  dsimp only
  rw [int_of_text hint]

theorem rereadIn_run {t : String} (hwritten : format (.int n) kind ctx s = .ok t s)
    (radix : Int64) : rereadIn kind radix n ctx s = intOfText t radix ctx s.newIdent.2 := by
  rw [rereadIn, run_bind, hwritten]
  dsimp only
  rw [run_bind, newStr_run]
  dsimp only
  rw [int_of_text_in hint]

/-- **What was written is read as the same integer**, with every kind of digits and for all words
but the least one. -/
theorem texts_read_back (hstr : ctx.compiler.model.isException TypeId.str = false) (n : Int64)
    (s : Store) :
    ((∃ s', reread n ctx s = .ok (.int n) s') ↔ n ≠ Int64.minValue)
      ∧ ∀ kind radix, (kind, radix) ∈ spellings →
        ((∃ s', rereadIn kind radix n ctx s = .ok (.int n) s') ↔ n ≠ Int64.minValue) := by
  constructor
  · rw [reread_run hint hstr]
    exact intOfText_chars rfl (by decide) (by decide) n ctx _
  · intro kind radix h
    obtain ⟨base, hradix, hbase, hdigits, hwritten⟩ := format_chars h n ctx s
    rw [rereadIn_run hint hwritten]
    exact intOfText_chars hradix hbase hdigits n ctx _

omit hint

theorem plainContext_plain : (plainContext 0).compiler.model.isException TypeId.int = false
    ∧ (plainContext 0).compiler.model.isException TypeId.str = false := by
  decide +kernel

/-- Minus two hundred and fifty-five. -/
theorem texts_read_back_bytes : (plainContext 0).compiler.model.isException TypeId.int = false
    ∧ (plainContext 0).compiler.model.isException TypeId.str = false
    ∧ (∃ s', reread (-255) (plainContext 0) default = .ok (.int (-255)) s')
    ∧ (∃ s', rereadIn "x" 16 (-255) (plainContext 0) default = .ok (.int (-255)) s')
    ∧ ∃ s', rereadIn "b" 2 (-255) (plainContext 0) default = .ok (.int (-255)) s' := by
  obtain ⟨hint, hstr⟩ := plainContext_plain
  obtain ⟨hten, hother⟩ := texts_read_back hint hstr (-255) default
  exact ⟨hint, hstr, hten.mpr (by decide), (hother "x" 16 (by decide)).mpr (by decide),
    (hother "b" 2 (by decide)).mpr (by decide)⟩

/-- **The least word is written but not read.** Its magnitude is no positive word. -/
theorem least_not_read : toString Int64.minValue.toInt = "-9223372036854775808"
    ∧ ∃ ref s', reread Int64.minValue (plainContext 0) default
      = .error (.raised ⟨ref, TypeId.valueError⟩) s' := by
  refine ⟨rfl, ?_⟩
  rw [reread_run plainContext_plain.1 plainContext_plain.2, intOfText]
  have hten : (10 : Int64).toInt = (10 : Nat) := rfl
  rw [hten, NumberText.readInteger_chars (by decide) (by decide), if_neg (by decide)]
  exact ⟨_, _, rfl⟩

end Machine

end Stackwise
