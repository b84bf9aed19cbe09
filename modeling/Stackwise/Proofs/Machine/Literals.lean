import Stackwise.Machine.Rendering
import Stackwise.Proofs.Machine.IntegerTexts

/-!
# Literals

The written form of `None`, truth values, integers, texts, byte strings and tuples says everything
about them but where they lie. A reader finds out the kind from the first character, the end of a
text from the quote that is not escaped, and the end of an item from the comma or parenthesis that
cannot belong to it.

* `Literal`: what such a value says. `Value.literal?`: what a value says, if it is one of them.
* `Literal.read?`: what a written form says.
* `Literal.readsBack`: the reader undoes the writing, whatever stands behind but a digit.
* `Store.repr_unambiguous`: values with one written form say the same.
-/

namespace Stackwise

/-! ## 1. What values say -/

/-- What a value says that a program can write down. -/
inductive Literal where
  | none
  | bool (b : Bool)
  | int (n : Int64)
  | text (t : String)
  | bytes (bs : List UInt8)
  | tuple (items : List Literal)

namespace Value

mutual

/-- What a value says, if it is built from `None`, truth values, integers, texts, byte strings and
tuples. -/
def literal? : Value → Option Literal
  | .none => some .none
  | .bool b => some (.bool b)
  | .int n => some (.int n)
  | .str _ t => some (.text t)
  | .bytes _ bs => some (.bytes bs)
  | .tuple _ items => (literals? items).map .tuple
  | _ => Option.none

/-- What several values say. -/
def literals? : List Value → Option (List Literal)
  | [] => some []
  | v :: vs => (literal? v).bind fun a => (literals? vs).map (a :: ·)

end

end Value

namespace Literal

/-! ## 2. Reading -/

/-- What a character means behind a backslash. -/
def unescape : Char → Char
  | 'n' => '\n'
  | 'r' => '\r'
  | 't' => '\t'
  | c => c

/-- The characters up to the quote that is not escaped, and what stands behind it. -/
def readText? (quote : Char) : List Char → Option (List Char × List Char)
  | [] => Option.none
  | '\\' :: 'x' :: a :: b :: cs =>
    match NumberText.digit? a, NumberText.digit? b with
    | some m, some n =>
      (readText? quote cs).map fun (t, rest) => (Char.ofNat (16 * m + n) :: t, rest)
    | _, _ => Option.none
  | '\\' :: c :: cs => (readText? quote cs).map fun (t, rest) => (unescape c :: t, rest)
  | c :: cs =>
    if c = quote then some ([], cs)
    else (readText? quote cs).map fun (t, rest) => (c :: t, rest)

/-- A sign and digits. -/
def readInteger? (cs : List Char) : Option (Literal × List Char) :=
  let (negative, cs) := Decimal.readSign cs
  let ds := cs.takeWhile Char.isDigit
  let n : Int := Decimal.digitsValue ds
  if ds.isEmpty then Option.none
  else some (.int (Int64.ofInt (if negative then -n else n)), cs.dropWhile Char.isDigit)

/-- A word or an integer. -/
def readScalar? : List Char → Option (Literal × List Char)
  | 'N' :: 'o' :: 'n' :: 'e' :: cs => some (.none, cs)
  | 'T' :: 'r' :: 'u' :: 'e' :: cs => some (.bool true, cs)
  | 'F' :: 'a' :: 'l' :: 's' :: 'e' :: cs => some (.bool false, cs)
  | cs => readInteger? cs

mutual

/-- What stands at the front of a text, looking at most `fuel` steps deep, and what stands behind
it. -/
def readFront? : Nat → List Char → Option (Literal × List Char)
  | 0, _ => Option.none
  | fuel + 1, '(' :: cs => (readItems? fuel cs).map fun (items, rest) => (.tuple items, rest)
  | _ + 1, '\'' :: cs => (readText? '\'' cs).map fun (t, rest) => (.text (String.ofList t), rest)
  | _ + 1, '"' :: cs => (readText? '"' cs).map fun (t, rest) => (.text (String.ofList t), rest)
  | _ + 1, 'b' :: '\'' :: cs =>
    (readText? '\'' cs).map fun (t, rest) => (.bytes (t.map fun c => UInt8.ofNat c.toNat), rest)
  | _ + 1, cs => readScalar? cs

/-- The items up to the parenthesis that closes a tuple. -/
def readItems? : Nat → List Char → Option (List Literal × List Char)
  | 0, _ => Option.none
  | _ + 1, ')' :: cs => some ([], cs)
  | fuel + 1, cs =>
    match readFront? fuel cs with
    | some (a, ',' :: ' ' :: cs) => (readItems? fuel cs).map fun (items, rest) => (a :: items, rest)
    | some (a, ',' :: ')' :: cs) | some (a, ')' :: cs) => some ([a], cs)
    | _ => Option.none

end

/-- What a written form says. -/
def read? (s : String) : Option Literal :=
  match readFront? (2 * s.toList.length + 1) s.toList with
  | some (a, []) => some a
  | _ => Option.none

/-! ## 3. Writing -/

mutual

/-- The characters of a literal. -/
def chars : Literal → List Char
  | .none => ['N', 'o', 'n', 'e']
  | .bool true => ['T', 'r', 'u', 'e']
  | .bool false => ['F', 'a', 'l', 's', 'e']
  | .int n => integerChars 10 n.toInt
  | .text t => (Text.literal t).toList
  | .bytes bs => (Text.literalBytes bs).toList
  | .tuple [] => ['(', ')']
  | .tuple [a] => '(' :: (chars a ++ [',', ')'])
  | .tuple (a :: b :: as) => '(' :: (chars a ++ furtherChars (b :: as))

/-- The characters behind the first item of a tuple. -/
def furtherChars : List Literal → List Char
  | [] => [')']
  | a :: as => ',' :: ' ' :: (chars a ++ furtherChars as)

end

/-! ## 4. Texts -/

section Texts

variable {quote c d : Char} {rest : List Char} {n : Nat}

/-- A character that is no backslash ends the text or stands for itself. -/
theorem readText_cons (hslash : c ≠ '\\') (cs : List Char) : readText? quote (c :: cs)
    = if c = quote then some ([], cs)
      else (readText? quote cs).map fun (t, rest) => (c :: t, rest) := by
  rw [readText?]
  · exact fun _ _ _ h => absurd h hslash
  · exact fun _ _ h => absurd h hslash

/-- Between these quotes the characters stand for the character `c`. -/
def Spells (quote c : Char) (cs : List Char) : Prop :=
  ∀ rest, readText? quote (cs ++ rest)
    = (readText? quote rest).map fun (t, rest) => (c :: t, rest)

theorem spells_plain (hquote : c ≠ quote) (hslash : c ≠ '\\') : Spells quote c [c] :=
  fun rest => (readText_cons hslash rest).trans (if_neg hquote)

theorem spells_escape (hd : unescape d = c) (hx : d ≠ 'x') : Spells quote c ['\\', d] := by
  subst hd
  intro rest
  rw [List.cons_append, List.cons_append, List.nil_append, readText?]
  exact fun _ _ _ h => absurd h hx

theorem toList_pushn (fill : Char) (n : Nat) :
    ("".pushn fill n).toList = List.replicate n fill := by
  induction n with
  | zero => rfl
  | succ n ih =>
    change (("".pushn fill n).push fill).toList = _
    rw [String.toList_push, ih, List.replicate_succ']

/-- A number below 256 is written with two digits, the first of which may be a zero. -/
theorem hex_chars (hn : n < 256) : ("\\x" ++ Text.padLeft 2 '0' (Text.hex n)).toList
    = ['\\', 'x', Nat.digitChar (n / 16), Nat.digitChar (n % 16)] := by
  rw [String.toList_append, Text.padLeft, String.toList_append, toList_pushn, Text.hex,
    String.length_ofList, Nat.toDigits_eq_if (by decide)]
  split
  · rename_i hsmall
    rw [Nat.div_eq_of_lt hsmall, Nat.mod_eq_of_lt hsmall]
    simp only [String.toList_ofList]
    rfl
  · rw [Nat.toDigits_eq_if (by decide), if_pos (by omega)]
    simp only [String.toList_ofList]
    rfl

theorem spells_hex (hn : n < 256) :
    Spells quote (Char.ofNat n) ("\\x" ++ Text.padLeft 2 '0' (Text.hex n)).toList := by
  intro rest
  rw [hex_chars hn]
  simp only [List.cons_append, List.nil_append, readText?,
    NumberText.digit_digitChar (n / 16) (by omega), NumberText.digit_digitChar (n % 16) (by omega),
    Nat.div_add_mod]

/-- Every character of a text is read as itself. -/
theorem spells_literalChar (hquote : quote = '\'' ∨ quote = '"') (c : Char) :
    Spells quote c (Text.literalChar quote c).toList := by
  unfold Text.literalChar
  split_ifs with hslash hline hreturn htab hq hcontrol
  · rw [beq_iff_eq.mp hslash]
    exact spells_escape (d := '\\') rfl (by decide)
  · rw [beq_iff_eq.mp hline]
    exact spells_escape (d := 'n') rfl (by decide)
  · rw [beq_iff_eq.mp hreturn]
    exact spells_escape (d := 'r') rfl (by decide)
  · rw [beq_iff_eq.mp htab]
    exact spells_escape (d := 't') rfl (by decide)
  · rw [beq_iff_eq.mp hq, String.toList_append, Char.toString_eq_singleton,
      String.toList_singleton]
    rcases hquote with rfl | rfl
    · exact spells_escape (d := '\'') rfl (by decide)
    · exact spells_escape (d := '"') rfl (by decide)
  · have hn : c.toNat < 256 := by
      rw [Bool.or_eq_true, decide_eq_true_iff, beq_iff_eq] at hcontrol
      omega
    have hspells : Spells quote (Char.ofNat c.toNat) _ := spells_hex hn
    rwa [Char.ofNat_toNat] at hspells
  · rw [Char.toString_eq_singleton, String.toList_singleton]
    exact spells_plain (fun h => hq (beq_iff_eq.mpr h)) fun h => hslash (beq_iff_eq.mpr h)

/-- Every byte is read as the character with its number. -/
theorem spells_literalByte (b : UInt8) :
    Spells '\'' (Char.ofNat b.toNat) (Text.literalByte b).toList := by
  rw [Text.literalByte]
  split_ifs with hslash hq hline hplain
  · rw [beq_iff_eq.mp hslash]
    exact spells_escape (d := '\\') rfl (by decide)
  · rw [beq_iff_eq.mp hq]
    exact spells_escape (d := '\'') rfl (by decide)
  · rw [beq_iff_eq.mp hline]
    exact spells_escape (d := 'n') rfl (by decide)
  · rw [Char.toString_eq_singleton, String.toList_singleton]
    exact spells_plain (fun h => hq (beq_iff_eq.mpr h)) fun h => hslash (beq_iff_eq.mpr h)
  · exact spells_hex b.toNat_lt

/-- A text ends at the quote that its characters leave alone. -/
theorem readText_flatMap {α : Type} {f : α → Char} {g : α → List Char}
    (h : ∀ x, Spells quote (f x) (g x)) (hslash : quote ≠ '\\') (xs : List α) :
    readText? quote (xs.flatMap g ++ quote :: rest) = some (xs.map f, rest) := by
  induction xs with
  | nil => exact (readText_cons hslash rest).trans (if_pos rfl)
  | cons x xs ih => rw [List.flatMap_cons, List.append_assoc, h, ih, Option.map_some, List.map_cons]

theorem literal_chars (s : String) : ∃ quote, (quote = '\'' ∨ quote = '"')
    ∧ (Text.literal s).toList
      = quote :: (s.toList.flatMap (fun c => (Text.literalChar quote c).toList) ++ [quote]) := by
  refine ⟨if s.contains '\'' && !s.contains '"' then '"' else '\'', ?_, ?_⟩
  · split
    · exact .inr rfl
    · exact .inl rfl
  · rw [Text.literal]
    simp only [String.toList_append, String.toList_join, List.flatMap_map,
      Char.toString_eq_singleton, String.toList_singleton, List.cons_append, List.nil_append]

theorem literalBytes_chars (bs : List UInt8) : (Text.literalBytes bs).toList
    = 'b' :: '\'' :: (bs.flatMap (fun b => (Text.literalByte b).toList) ++ ['\'']) := by
  rw [Text.literalBytes]
  simp only [String.toList_append, String.toList_join, List.flatMap_map]
  rfl

theorem ofNat_toNat_byte (b : UInt8) : UInt8.ofNat (Char.ofNat b.toNat).toNat = b := by
  have hvalid : b.toNat.isValidChar := .inl (b.toNat_lt.trans (by decide))
  have hchar : (Char.ofNat b.toNat).toNat = b.toNat := by
    rw [Char.ofNat, dif_pos hvalid]
    rfl
  rw [hchar, UInt8.ofNat_toNat]

end Texts

/-! ## 5. Reading back -/

section ReadBack

variable {cs rest : List Char} {fuel : Nat}

theorem readFront_text (t : String) :
    readFront? (fuel + 1) ((Text.literal t).toList ++ rest) = some (.text t, rest) := by
  obtain ⟨quote, hquote, hchars⟩ := literal_chars t
  have hslash : quote ≠ '\\' := by rcases hquote with rfl | rfl <;> decide
  have hread : readText? quote (t.toList.flatMap (fun c => (Text.literalChar quote c).toList)
      ++ quote :: rest) = some (t.toList.map id, rest) :=
    readText_flatMap (spells_literalChar hquote) hslash _
  rw [List.map_id] at hread
  rw [hchars, List.cons_append, List.append_assoc, List.cons_append, List.nil_append]
  rcases hquote with rfl | rfl <;>
    simp only [readFront?, hread, Option.map_some, String.ofList_toList]

theorem readFront_bytes (bs : List UInt8) :
    readFront? (fuel + 1) ((Text.literalBytes bs).toList ++ rest) = some (.bytes bs, rest) := by
  have hread : readText? '\'' (bs.flatMap (fun b => (Text.literalByte b).toList) ++ '\'' :: rest)
      = some (bs.map fun b => Char.ofNat b.toNat, rest) :=
    readText_flatMap spells_literalByte (by decide) bs
  rw [literalBytes_chars, List.cons_append, List.cons_append, List.append_assoc, List.cons_append,
    List.nil_append, readFront?, hread, Option.map_some]
  dsimp only
  rw [List.map_map]
  have hback : (fun c : Char => UInt8.ofNat c.toNat) ∘ (fun b : UInt8 => Char.ofNat b.toNat) = id :=
    funext ofNat_toNat_byte
  rw [hback, List.map_id]

/-- An integer begins with its sign or a digit. -/
theorem head_integerChars (n : Int) (rest : List Char) :
    ∀ c ∈ (integerChars 10 n ++ rest).head?, c = '-' ∨ c.isDigit = true := by
  rw [integerChars]
  split
  · rintro c ⟨⟩
    exact .inl rfl
  · cases hds : Nat.toDigits 10 n.natAbs with
    | nil => exact absurd hds Nat.toDigits_ne_nil
    | cons d ds =>
      rintro c ⟨⟩
      exact .inr (Decimal.isDigit_of_mem_toDigits n.natAbs d (hds ▸ List.mem_cons_self))

/-- What begins with no bracket, quote or mark of bytes is a word or an integer. -/
theorem readFront_scalar (h : ∀ c ∈ cs.head?, c ∉ ['(', '\'', '"', 'b']) :
    readFront? (fuel + 1) cs = readScalar? cs := by
  rw [readFront?]
  · rintro cs rfl
    exact h '(' rfl (by decide)
  · rintro cs rfl
    exact h '\'' rfl (by decide)
  · rintro cs rfl
    exact h '"' rfl (by decide)
  · rintro cs rfl
    exact h 'b' rfl (by decide)

theorem readScalar_integer (h : ∀ c ∈ cs.head?, c ∉ ['N', 'T', 'F']) :
    readScalar? cs = readInteger? cs := by
  rw [readScalar?]
  · rintro cs rfl
    exact h 'N' rfl (by decide)
  · rintro cs rfl
    exact h 'T' rfl (by decide)
  · rintro cs rfl
    exact h 'F' rfl (by decide)

theorem readInteger_append (n : Int64) (hrest : Halts Char.isDigit rest) :
    readInteger? (integerChars 10 n.toInt ++ rest) = some (.int n, rest) := by
  have hdigits := Decimal.isDigit_of_mem_toDigits n.toInt.natAbs
  have hsigned : (if n.toInt < 0 then -(n.toInt.natAbs : Int) else n.toInt.natAbs) = n.toInt := by
    split <;> omega
  rw [readInteger?, NumberText.readSign_chars (by decide) (by decide)]
  simp only [hrest.takeWhile hdigits, hrest.dropWhile hdigits, Decimal.isEmpty_toDigits,
    Decimal.digitsValue_toDigits_ten, decide_eq_true_eq, hsigned, Int64.ofInt_toInt]
  rfl

theorem readFront_integer (n : Int64) (hrest : Halts Char.isDigit rest) :
    readFront? (fuel + 1) (integerChars 10 n.toInt ++ rest) = some (.int n, rest) := by
  have hhead {marks : List Char} (hminus : '-' ∉ marks)
      (hmarks : marks.any Char.isDigit = false) :
      ∀ c ∈ (integerChars 10 n.toInt ++ rest).head?, c ∉ marks := by
    intro c hc hmark
    rcases head_integerChars n.toInt rest c hc with rfl | hdigit
    · exact hminus hmark
    · exact List.any_eq_false.mp hmarks c hmark hdigit
  rw [readFront_scalar (hhead (by decide) rfl), readScalar_integer (hhead (by decide) rfl),
    readInteger_append n hrest]

/-! ## 6. Nested tuples -/

section Nested

variable {a : Literal} {as : List Literal} {tail : List Char}

/-- A literal is read from its characters, whatever stands behind them but a digit. -/
def ReadsBack (a : Literal) : Prop := ∀ fuel rest, Halts Char.isDigit rest →
  2 * (chars a).length ≤ fuel → readFront? (fuel + 1) (chars a ++ rest) = some (a, rest)

theorem ReadsBack.word {c : Char} {cs : List Char} (hchars : chars a = c :: cs)
    (hc : c ∉ ['(', '\'', '"', 'b'])
    (hread : ∀ rest, readScalar? (chars a ++ rest) = some (a, rest)) : ReadsBack a := by
  intro fuel rest _ _
  rw [readFront_scalar, hread]
  rw [hchars]
  rintro d ⟨⟩
  exact hc

/-- No item begins like the end of a tuple: nothing could be read there. -/
theorem ReadsBack.ne_close (h : ReadsBack a) (htail : Halts Char.isDigit tail) :
    ∀ cs, chars a ++ tail = ')' :: cs → False := by
  intro cs hclose
  have hread := h _ tail htail (Nat.le_refl _)
  rw [hclose] at hread
  cases hread

theorem ReadsBack.last (h : ReadsBack a) (hfuel : 2 * (chars a).length ≤ fuel) :
    readItems? (fuel + 2) (chars a ++ ')' :: rest) = some ([a], rest) := by
  have htail : Halts Char.isDigit (')' :: rest) := .cons rfl
  rw [readItems?, h _ _ htail hfuel]
  · rfl
  · exact h.ne_close htail

theorem ReadsBack.single (h : ReadsBack a) (hfuel : 2 * (chars a).length ≤ fuel) :
    readItems? (fuel + 2) (chars a ++ ',' :: ')' :: rest) = some ([a], rest) := by
  have htail : Halts Char.isDigit (',' :: ')' :: rest) := .cons rfl
  rw [readItems?, h _ _ htail hfuel]
  · rfl
  · exact h.ne_close htail

theorem ReadsBack.next (h : ReadsBack a) (hfuel : 2 * (chars a).length ≤ fuel)
    (hcs : readItems? (fuel + 1) cs = some (as, rest)) :
    readItems? (fuel + 2) (chars a ++ ',' :: ' ' :: cs) = some (a :: as, rest) := by
  have htail : Halts Char.isDigit (',' :: ' ' :: cs) := .cons rfl
  rw [readItems?, h _ _ htail hfuel]
  · change (readItems? (fuel + 1) cs).map _ = _
    rw [hcs, Option.map_some]
  · exact h.ne_close htail

/-- A tuple is read when its items are. -/
theorem ReadsBack.tuple {cs : List Char} (hchars : chars (.tuple as) = '(' :: cs)
    (hitems : ∀ fuel rest, 2 * cs.length ≤ fuel →
      readItems? (fuel + 2) (cs ++ rest) = some (as, rest)) : ReadsBack (.tuple as) := by
  intro fuel rest _ hfuel
  rw [hchars, List.length_cons] at hfuel
  obtain ⟨fuel, rfl⟩ := Nat.exists_eq_add_of_le' (show 2 ≤ fuel by omega)
  rw [hchars, List.cons_append, readFront?, hitems fuel rest (by omega), Option.map_some]

mutual

/-- **What was written is read**, whatever stands behind it but a digit. -/
theorem readsBack : (a : Literal) → ReadsBack a
  | .none => .word rfl (by decide) fun _ => rfl
  | .bool true => .word rfl (by decide) fun _ => rfl
  | .bool false => .word rfl (by decide) fun _ => rfl
  | .int n => fun _ _ hrest _ => readFront_integer n hrest
  | .text t => fun _ _ _ _ => readFront_text t
  | .bytes bs => fun _ _ _ _ => readFront_bytes bs
  | .tuple [] => .tuple rfl fun _ _ _ => rfl
  | .tuple [a] => by
    refine .tuple rfl fun fuel rest hfuel => ?_
    rw [List.length_append] at hfuel
    rw [List.append_assoc]
    exact (readsBack a).single (by omega)
  | .tuple (a :: b :: as) => .tuple rfl fun fuel rest hfuel =>
    readItems_chars (b :: as) (readsBack a) fuel rest hfuel

/-- The items of a tuple are read one by one. -/
theorem readItems_chars : (as : List Literal) → ∀ {a : Literal}, ReadsBack a →
    ∀ fuel rest, 2 * (chars a ++ furtherChars as).length ≤ fuel →
      readItems? (fuel + 2) (chars a ++ furtherChars as ++ rest) = some (a :: as, rest)
  | [], a, ha, fuel, rest, hfuel => by
    rw [List.length_append] at hfuel
    rw [List.append_assoc]
    exact ha.last (by omega)
  | b :: bs, a, ha, fuel, rest, hfuel => by
    have hlength : (furtherChars (b :: bs)).length = (chars b ++ furtherChars bs).length + 2 := rfl
    rw [List.length_append, hlength] at hfuel
    obtain ⟨fuel, rfl⟩ := Nat.exists_eq_add_of_le' (show 1 ≤ fuel by omega)
    rw [List.append_assoc]
    exact ha.next (by omega) (readItems_chars bs (readsBack b) fuel rest (by omega))

end

end Nested

end ReadBack

end Literal

/-! ## 7. Values -/

section Values

variable {m : TypeModel} {below : Value → String} {a b : Literal}

/-- Items stand behind each other as the characters behind the first item say. -/
theorem toList_intercalate_items {text : String} {texts : List String} {as : List Literal}
    (h : List.Forall₂ (fun t a => t.toList = a.chars) texts as) :
    (", ".intercalate (text :: texts)).toList ++ [')']
      = text.toList ++ Literal.furtherChars as := by
  rw [String.toList_intercalate]
  induction h generalizing text with
  | nil =>
    rw [List.map_cons, List.map_nil, List.intercalate_singleton]
    rfl
  | cons hhead htail ih =>
    rw [List.map_cons, List.map_cons, List.intercalate_cons_cons, List.append_assoc,
      List.append_assoc, ← List.map_cons, ih, hhead]
    rfl

theorem literals_cons {v : Value} {vs : List Value} {as : List Literal} :
    Value.literals? (v :: vs) = some as
      ↔ ∃ b bs, as = b :: bs ∧ v.literal? = some b ∧ Value.literals? vs = some bs := by
  rw [Value.literals?, Option.bind_eq_some_iff]
  simp only [Option.map_eq_some_iff]
  constructor
  · rintro ⟨b, hb, bs, hbs, rfl⟩
    exact ⟨b, bs, rfl, hb, hbs⟩
  · rintro ⟨b, bs, rfl, hb, hbs⟩
    exact ⟨b, hb, bs, hbs, rfl⟩

theorem literal_tuple {id : Ident} {vs : List Value} :
    (Value.tuple id vs).literal? = some a ↔ ∃ as, a = .tuple as ∧ Value.literals? vs = some as := by
  rw [Value.literal?, Option.map_eq_some_iff]
  exact exists_congr fun as => and_comm.trans (and_congr_left' eq_comm)

theorem reprWith_none : Value.none.reprWith m below = "None" := rfl

theorem reprWith_bool (b : Bool) :
    (Value.bool b).reprWith m below = if b then "True" else "False" := rfl

theorem reprWith_empty (id : Ident) : (Value.tuple id []).reprWith m below = "()" := rfl

theorem reprWith_single (id : Ident) (v : Value) : (Value.tuple id [v]).reprWith m below
    = "(" ++ v.reprWith m below ++ ",)" := rfl

theorem reprWith_tuple (id : Ident) (v w : Value) (vs : List Value) :
    (Value.tuple id (v :: w :: vs)).reprWith m below
      = "(" ++ ", ".intercalate (Value.reprItems m below (v :: w :: vs)) ++ ")" := rfl

mutual

/-- A value is written with the characters of what it says. -/
theorem toList_reprWith : (v : Value) → ∀ {a : Literal}, v.literal? = some a →
    (v.reprWith m below).toList = a.chars
  | .none, _, rfl => congrArg String.toList reprWith_none
  | .bool b, _, rfl => by
    rw [reprWith_bool]
    cases b <;> rfl
  | .int n, _, rfl => (congrArg String.toList (Machine.toString_chars n.toInt)).trans
      String.toList_ofList
  | .str _ t, _, rfl => rfl
  | .bytes _ bs, _, rfl => rfl
  | .tuple id [], _, rfl => congrArg String.toList (reprWith_empty id)
  | .tuple _ [v], a, h => by
    obtain ⟨as, rfl, has⟩ := literal_tuple.mp h
    obtain ⟨b, bs, rfl, hb, hbs⟩ := literals_cons.mp has
    cases hbs
    rw [reprWith_single, String.toList_append, String.toList_append, toList_reprWith v hb]
    rfl
  | .tuple _ (v :: w :: vs), a, h => by
    obtain ⟨as, rfl, has⟩ := literal_tuple.mp h
    obtain ⟨b, bs, rfl, hb, hbs⟩ := literals_cons.mp has
    have hitems := toList_reprItems (w :: vs) hbs
    obtain ⟨c, cs, rfl, -, -⟩ := literals_cons.mp hbs
    rw [reprWith_tuple, String.toList_append, String.toList_append, List.append_assoc,
      Value.reprItems]
    refine congrArg ('(' :: ·) ((toList_intercalate_items hitems).trans ?_)
    rw [toList_reprWith v hb]
  | .ellipsis, _, h | .float _, _, h | .list _, _, h | .dict _, _, h | .set _, _, h
  | .slice _ _ _ _, _, h | .range _, _, h | .iter _, _, h | .classObject _, _, h
  | .exception _ _, _, h | .traceback _ _, _, h | .function _, _, h | .method _ _ _ _, _, h
  | .builtin _ _, _, h | .generator _, _, h | .cell _, _, h | .code _, _, h
  | .native _ _, _, h => nomatch h

theorem toList_reprItems : (vs : List Value) → ∀ {as : List Literal},
    Value.literals? vs = some as →
      List.Forall₂ (fun t a => t.toList = a.chars) (Value.reprItems m below vs) as
  | [], _, rfl => .nil
  | v :: vs, as, h => by
    obtain ⟨b, bs, rfl, hb, hbs⟩ := literals_cons.mp h
    exact .cons (toList_reprWith v hb) (toList_reprItems vs hbs)

end

namespace Store

variable {v w : Value}

theorem toList_repr (m : TypeModel) (s : Store) (h : v.literal? = some a) :
    (s.repr m v).toList = a.chars := by
  unfold repr
  cases s.size with
  | zero => exact toList_reprWith v h
  | succ fuel => exact toList_reprWith v h

/-- **What a value says is read from its text.** -/
theorem read_repr (m : TypeModel) (s : Store) (h : v.literal? = some a) :
    Literal.read? (s.repr m v) = some a := by
  have hread := Literal.readsBack a (2 * a.chars.length) [] .nil (Nat.le_refl _)
  rw [List.append_nil] at hread
  rw [Literal.read?, toList_repr m s h, hread]

/-- **Written forms are unambiguous.** Values built from `None`, truth values, integers, texts, byte
strings and tuples have the same written form exactly if they say the same, in whatever stores they
lie; and what they say can be read from it. -/
theorem repr_unambiguous (m m' : TypeModel) (s s' : Store) (hv : v.literal? = some a)
    (hw : w.literal? = some b) :
    (s.repr m v = s'.repr m' w ↔ a = b) ∧ Literal.read? (s.repr m v) = some a := by
  have hread := read_repr m s hv
  refine ⟨⟨fun heq => ?_, fun heq => ?_⟩, hread⟩
  · rw [heq, read_repr m' s' hw] at hread
    exact (Option.some.inj hread).symm
  · subst heq
    exact String.toList_inj.mp ((toList_repr m s hv).trans (toList_repr m' s' hw).symm)

/-- One text with a separator inside it is not written like two texts. -/
theorem repr_unambiguous_separator :
    let one : Value := .tuple default [.str default "a', 'b", .tuple default [.int (-5)]]
    let two : Value := .tuple default [.str default "a", .str default "b", .none]
    let saidOne : Literal := .tuple [.text "a', 'b", .tuple [.int (-5)]]
    let saidTwo : Literal := .tuple [.text "a", .text "b", .none]
    one.literal? = some saidOne ∧ two.literal? = some saidTwo
      ∧ repr .withBuiltins default one ≠ repr .withBuiltins default two
      ∧ Literal.read? (repr .withBuiltins default one) = some saidOne := by
  intro one two saidOne saidTwo
  have hone : one.literal? = some saidOne := rfl
  have htwo : two.literal? = some saidTwo := rfl
  have hne : saidOne ≠ saidTwo := by
    rw [Ne, Literal.tuple.injEq]
    exact fun heq => absurd (congrArg List.length heq) (by decide)
  obtain ⟨hsame, hread⟩ := repr_unambiguous .withBuiltins .withBuiltins default default hone htwo
  exact ⟨hone, htwo, mt hsame.mp hne, hread⟩

end Store

end Values

end Stackwise
