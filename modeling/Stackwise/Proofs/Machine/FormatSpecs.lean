import Stackwise.Machine.FormatSpec
import Stackwise.Proofs.Machine.IntegerTexts

/-!
# Format specifications read back

A specification is written as optional parts in a fixed order, and a reader recognises each part by
its first character, or for the fill by the second. So a specification is read as it was written if
no part begins like one that may stand before it.

* `FormatSpec.Writable`: the specifications that have a text.
* `readAlign_append`, `readOne_append`, `readPrecision_append`: each part is read off the front and
  the rest is left.
* `FormatSpec.parse_text`: reading gives back what was written.
-/

namespace Stackwise

variable {p q : Char → Bool} {c : Char} {rest : List Char} {n : Nat}

/-! ## 1. Counts -/

/-- A count of 64 bits is read back from its digits. -/
theorem NumberText.readCount_digits (hn : n < 2 ^ 64) :
    readCount? (Nat.toDigits 10 n) = some n := by
  have hall : (Nat.toDigits 10 n).all Char.isDigit = true :=
    List.all_eq_true.mpr (Decimal.isDigit_of_mem_toDigits n)
  rw [readCount?, Decimal.isEmpty_toDigits, hall, Decimal.digitsValue_toDigits_ten]
  exact if_pos hn

namespace FormatSpec

variable {o fill align : Option Char} {d : Char} {f : FormatSpec}

/-! ## 2. Classes of characters -/

/-- The characters that name a way of writing: the letters of ASCII, and the percent sign. -/
def isKind (c : Char) : Bool := c.isAlpha || c == '%'

theorem beq_eq_false_of_class (hc : q c = true) (hd : q d = false) : (c == d) = false :=
  beq_eq_false_iff_ne.mpr fun h => Bool.false_ne_true (hd.symm.trans (h ▸ hc))

/-- A class without the four alignments has nothing in common with them. -/
theorem isAlign_eq_false (hc : q c = true) (hq : ['<', '>', '^', '='].any q = false) :
    isAlign c = false := by
  simp only [List.any_cons, Bool.or_eq_false_iff] at hq
  obtain ⟨hleft, hright, hcentre, hfill, -⟩ := hq
  rw [isAlign, beq_eq_false_of_class hc hleft, beq_eq_false_of_class hc hright,
    beq_eq_false_of_class hc hcentre, beq_eq_false_of_class hc hfill]
  rfl

/-- A class without the three signs has nothing in common with them. -/
theorem isSign_eq_false (hc : q c = true) (hq : ['+', '-', ' '].any q = false) :
    isSign c = false := by
  simp only [List.any_cons, Bool.or_eq_false_iff] at hq
  obtain ⟨hplus, hminus, hblank, -⟩ := hq
  rw [isSign, beq_eq_false_of_class hc hplus, beq_eq_false_of_class hc hminus,
    beq_eq_false_of_class hc hblank]
  rfl

theorem isDigit_of_isKind (h : isKind c = true) : c.isDigit = false := by
  rcases Bool.or_eq_true_iff.mp h with h | h
  · refine Bool.eq_false_iff.mpr fun hdigit => ?_
    have hle : c.toNat ≤ 57 := of_decide_eq_true (Bool.and_eq_true_iff.mp hdigit).2
    rcases Bool.or_eq_true_iff.mp h with hupper | hlower
    · have hge : 65 ≤ c.toNat := (of_decide_eq_true hupper).1
      omega
    · have hge : 97 ≤ c.toNat := of_decide_eq_true (Bool.and_eq_true_iff.mp hlower).1
      omega
  · rw [beq_iff_eq.mp h]
    rfl

/-! ## 3. Parts -/

/-- A character that is written if something holds. -/
def mark (b : Bool) (c : Char) : Option Char := if b then some c else none

theorem eq_of_mem_mark {b : Bool} (h : d ∈ mark b c) : d = c := by
  cases b with
  | false => cases h
  | true => exact (Option.some.inj h).symm

/-- The characters of a width. -/
def widthChars (n : Nat) : List Char := if n == 0 then [] else Nat.toDigits 10 n

/-- The characters of a precision. -/
def precisionChars : Option Nat → List Char
  | some p => '.' :: Nat.toDigits 10 p
  | none => []

/-- What stands behind the comma. -/
def afterGrouping (f : FormatSpec) : List Char := precisionChars f.precision ++ f.kind.toList

/-- What stands behind the width. -/
def afterWidth (f : FormatSpec) : List Char := (mark f.grouping ',').toList ++ f.afterGrouping

/-- What stands behind the mark for zeros. -/
def afterZero (f : FormatSpec) : List Char := widthChars f.width ++ f.afterWidth

/-- What stands behind the sign. -/
def afterSign (f : FormatSpec) : List Char := (mark f.zero '0').toList ++ f.afterZero

theorem chars_eq (f : FormatSpec) :
    f.chars = f.fill.toList ++ (f.align.toList ++ (f.sign.toList ++ f.afterSign)) := by
  obtain ⟨fill, align, sign, zero, width, grouping, precision, kind⟩ := f
  cases zero <;> cases grouping <;> cases precision <;>
    simp [chars, afterSign, afterZero, afterWidth, afterGrouping, mark, widthChars, precisionChars]

/-- The specifications that have a text: a fill stands beside an alignment, alignment and sign are
what their names say, counts have at most 64 bits, and the kind is a letter of ASCII or a percent
sign. -/
structure Writable (f : FormatSpec) : Prop where
  fill : f.fill.isSome = true → f.align.isSome = true
  align : ∀ c ∈ f.align, isAlign c = true
  sign : ∀ c ∈ f.sign, isSign c = true
  width : f.width < 2 ^ 64
  precision : ∀ n ∈ f.precision, n < 2 ^ 64
  kind : ∀ c ∈ f.kind, isKind c = true

theorem widthChars_areDigits : ∀ c ∈ widthChars n, c.isDigit = true := by
  rw [widthChars]
  split
  · exact nofun
  · exact Decimal.isDigit_of_mem_toDigits n

theorem halts_mark {b : Bool} (h : p c = false) : Halts p (mark b c).toList :=
  .of_forall fun _ hd => eq_of_mem_mark (Option.mem_toList.mp hd) ▸ h

/-- A class without point and kinds does not go on behind the comma. -/
theorem Writable.halts_afterGrouping (h : f.Writable) (hdot : p '.' = false)
    (hkind : ∀ c, isKind c = true → p c = false) : Halts p f.afterGrouping := by
  refine .append ?_ (.of_forall fun c hc => hkind c (h.kind c (Option.mem_toList.mp hc)))
  cases f.precision with
  | none => exact .nil
  | some n => exact .cons hdot

/-- A class that has no comma either does not go on behind the width. -/
theorem Writable.halts_afterWidth (h : f.Writable) (hcomma : p ',' = false) (hdot : p '.' = false)
    (hkind : ∀ c, isKind c = true → p c = false) : Halts p f.afterWidth :=
  (halts_mark hcomma).append (h.halts_afterGrouping hdot hkind)

/-! ## 4. Reading parts -/

theorem readOne_append (ho : ∀ c ∈ o, p c = true) (hrest : Halts p rest) :
    readOne p (o.toList ++ rest) = (o, rest) := by
  cases o with
  | some c => exact if_pos (ho c rfl)
  | none =>
    cases rest with
    | nil => rfl
    | cons c rest => exact if_neg (Bool.not_eq_true _ ▸ hrest c rfl)

/-- An alignment is recognised as the second character, or as the first. -/
theorem readAlign_append (hfill : fill.isSome = true → align.isSome = true)
    (halign : ∀ c ∈ align, isAlign c = true) (hrest : ∀ c ∈ rest, isAlign c = false) :
    readAlign (fill.toList ++ (align.toList ++ rest)) = (fill, align, rest) := by
  cases align with
  | some a =>
    have ha := halign a rfl
    cases fill with
    | some c => exact if_pos ha
    | none =>
      cases rest with
      | nil => exact if_pos ha
      | cons d rest => exact (if_neg (Bool.not_eq_true _ ▸ hrest d (.head _))).trans (if_pos ha)
  | none =>
    cases fill with
    | some c => exact absurd (hfill rfl) Bool.false_ne_true
    | none =>
      match rest, hrest with
      | [], _ => rfl
      | [c], h => exact if_neg (Bool.not_eq_true _ ▸ h c (.head _))
      | c :: d :: rest, h =>
        exact (if_neg (Bool.not_eq_true _ ▸ h d (.tail _ (.head _)))).trans
          (if_neg (Bool.not_eq_true _ ▸ h c (.head _)))

theorem readPrecision_append {n : Option Nat} (hn : ∀ m ∈ n, m < 2 ^ 64)
    (hdigit : Halts Char.isDigit rest) (hdot : Halts (· == '.') rest) :
    readPrecision? (precisionChars n ++ rest) = some (n, rest) := by
  cases n with
  | some n =>
    have hds := Decimal.isDigit_of_mem_toDigits n
    rw [precisionChars, List.cons_append, readPrecision?, hdigit.takeWhile hds,
      hdigit.dropWhile hds, NumberText.readCount_digits (hn n rfl)]
    rfl
  | none =>
    rw [precisionChars, List.nil_append]
    unfold readPrecision?
    split
    · rename_i rest'
      exact absurd (hdot '.' rfl) (by decide)
    · rfl

/-- No width is a width of zero. -/
theorem readWidth_digits (hn : n < 2 ^ 64) :
    (NumberText.readCount? (widthChars n)).getD 0 = n := by
  rw [widthChars]
  split
  · rename_i hzero
    rw [beq_iff_eq.mp hzero]
    rfl
  · rw [NumberText.readCount_digits hn, Option.getD_some]

/-! ## 5. Reading a specification -/

/-- Nothing behind the fill looks like an alignment. -/
theorem Writable.no_align (h : f.Writable) :
    ∀ c ∈ f.sign.toList ++ f.afterSign, isAlign c = false := by
  have hmark : ∀ {b : Bool} {d : Char}, isAlign d = false →
      ∀ c ∈ (mark b d).toList, isAlign c = false :=
    fun hd c hc => eq_of_mem_mark (Option.mem_toList.mp hc) ▸ hd
  have hdigit : ∀ c, c.isDigit = true → isAlign c = false :=
    fun c hc => isAlign_eq_false hc rfl
  have hprecision : ∀ c ∈ precisionChars f.precision, isAlign c = false := by
    intro c hc
    cases hn : f.precision with
    | none =>
      rw [hn] at hc
      cases hc
    | some n =>
      rw [hn] at hc
      rcases List.mem_cons.mp hc with rfl | hc
      · rfl
      · exact hdigit c (Decimal.isDigit_of_mem_toDigits n c hc)
  intro c hc
  simp only [afterSign, afterZero, afterWidth, afterGrouping, List.mem_append] at hc
  rcases hc with hc | hc | hc | hc | hc | hc
  · exact isAlign_eq_false (h.sign c (Option.mem_toList.mp hc)) rfl
  · exact hmark rfl c hc
  · exact hdigit c (widthChars_areDigits c hc)
  · exact hmark rfl c hc
  · exact hprecision c hc
  · exact isAlign_eq_false (h.kind c (Option.mem_toList.mp hc)) rfl

theorem Writable.read_sign (h : f.Writable) :
    readOne isSign (f.sign.toList ++ f.afterSign) = (f.sign, f.afterSign) := by
  refine readOne_append h.sign (.append (halts_mark rfl) (.append (.of_forall fun c hc => ?_) ?_))
  · exact isSign_eq_false (widthChars_areDigits c hc) rfl
  · exact h.halts_afterWidth rfl rfl fun c hc => isSign_eq_false hc rfl

/-- A zero in front of the width is the mark, because no width begins with one. -/
theorem Writable.read_zero (h : f.Writable) :
    readOne (· == '0') f.afterSign = (mark f.zero '0', f.afterZero) := by
  refine readOne_append (fun c hc => beq_iff_eq.mpr (eq_of_mem_mark hc)) (.append ?_ ?_)
  · rw [widthChars]
    split
    · exact .nil
    · rename_i hne
      exact Decimal.halts_zero_toDigits (ne_of_beq_false (Bool.eq_false_iff.mpr hne))
  · exact h.halts_afterWidth rfl rfl fun c hc => beq_eq_false_of_class hc rfl

theorem Writable.read_comma (h : f.Writable) :
    readOne (· == ',') f.afterWidth = (mark f.grouping ',', f.afterGrouping) :=
  readOne_append (fun _ hc => beq_iff_eq.mpr (eq_of_mem_mark hc))
    (h.halts_afterGrouping rfl fun _ hc => beq_eq_false_of_class hc rfl)

theorem Writable.read_precision (h : f.Writable) :
    readPrecision? f.afterGrouping = some (f.precision, f.kind.toList) := by
  have hkind : ∀ c ∈ f.kind.toList, isKind c = true :=
    fun c hc => h.kind c (Option.mem_toList.mp hc)
  refine readPrecision_append h.precision (.of_forall fun c hc => ?_) (.of_forall fun c hc => ?_)
  · exact isDigit_of_isKind (hkind c hc)
  · exact beq_eq_false_of_class (hkind c hc) rfl

theorem read_kind (o : Option Char) : readOne (fun _ => true) o.toList = (o, []) := by
  cases o <;> rfl

theorem isSome_mark (b : Bool) : (mark b c).isSome = b := by
  cases b <;> rfl

/-- **A specification is read back from its text.** -/
theorem parse_text (h : f.Writable) : parse? f.text = some f := by
  have halign := readAlign_append h.fill h.align h.no_align
  have hdigits : Halts Char.isDigit f.afterWidth :=
    h.halts_afterWidth rfl rfl fun _ => isDigit_of_isKind
  have hwidth : f.afterZero.takeWhile Char.isDigit = widthChars f.width :=
    hdigits.takeWhile widthChars_areDigits
  have hrest : f.afterZero.dropWhile Char.isDigit = f.afterWidth :=
    hdigits.dropWhile widthChars_areDigits
  -- The parts come off the front in the order in which they were written.
  rw [parse?, text, String.toList_ofList, chars_eq, parseChars?, halign]
  simp only [h.read_sign, h.read_zero, hwidth, hrest, h.read_comma, h.read_precision,
    Option.bind_eq_bind, Option.bind_some, read_kind, isSome_mark, readWidth_digits h.width]
  rfl

/-- The fill is a sign of alignment, the width begins behind a zero, and every part is there. -/
theorem parse_text_everyPart :
    let f : FormatSpec := ⟨some '<', some '^', some '+', true, 120, true, some 30, some '%'⟩
    f.Writable ∧ f.text = "<^+0120,.30%" ∧ parse? f.text = some f := by
  intro f
  have hf : f.Writable := ⟨fun _ => rfl, by rintro c ⟨⟩; rfl, by rintro c ⟨⟩; rfl, by decide,
    by decide, by rintro c ⟨⟩; rfl⟩
  exact ⟨hf, by decide, parse_text hf⟩

end FormatSpec

end Stackwise
