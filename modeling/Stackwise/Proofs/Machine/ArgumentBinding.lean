import Mathlib.Data.List.Nodup
import Mathlib.Data.List.Perm.Basic
import Stackwise.Proofs.Machine.Stepping

/-!
# Arguments of a call

A call gives positional arguments and keyword arguments. Binding puts each of them into a variable,
or finds that the call does not fit.

* `Function.argument?`, `Function.declaredDefault?`: what a parameter gets, by the rules.
  `Function.Admits`: the calls that the rules allow.
* `bindNamed_eq_ok`: named parameters are bound by these rules. `Function.held_perm`: no argument is
  lost or used twice.
* `bind_gathered`: binding goes from the named parameters to the collected arguments to the declared
  types. `bind_size`: the variables are those of the code object.
* `arguments_bound`: a call of a function without declared types succeeds if and only if the rules
  allow it, and then the variables hold what the rules say.
-/

namespace Stackwise

open scoped List

namespace Function

variable {c : CodeObject} {f : Function} {s : Store} {args : List Value} {kwargs : List Keyword}
  {name : String} {i : Nat}

/-! ## 1. The rules -/

/-- A keyword names a parameter: one that can be given by keyword. -/
def Names (c : CodeObject) (keyword : String) (i : Nat) : Prop :=
  c.posonlyCount ≤ i ∧ i < c.namedParams ∧ c.varnames[i]? = some keyword

instance (c : CodeObject) (keyword : String) (i : Nat) : Decidable (Names c keyword i) :=
  inferInstanceAs (Decidable (_ ∧ _ ∧ _))

/-- The argument of a parameter: the one at its position, else the one that is given to its name. -/
def argument? (c : CodeObject) (args : List Value) (kwargs : List Keyword) (i : Nat) :
    Option Value :=
  (args.take c.argCount)[i]?.or ((kwargs.find? fun k => Names c k.name i).map (·.value))

/-- The default of a parameter. The defaults of positional parameters are counted from the last one;
the others are found by name. -/
def declaredDefault? (f : Function) (i : Nat) : Option Value :=
  if i < f.code.argCount then f.defaults.reverse[f.code.argCount - 1 - i]?
  else f.code.varnames[i]?.bind fun name =>
    (f.kwdefaults.find? fun p => p.1.asText? = some name).map (·.2)

/-- The keyword arguments that name no parameter. -/
def unmatched (c : CodeObject) (kwargs : List Keyword) : List Keyword :=
  kwargs.filter fun k => ∀ i < c.namedParams, ¬Names c k.name i

/-! ## 2. Keyword arguments -/

theorem Names.parameter (hd : (c.varnames.take c.namedParams).Nodup) (h : Names c name i) {j : Nat}
    (hj : Names c name j) : i = j := by
  have hat : ∀ {k}, Names c name k → (c.varnames.take c.namedParams)[k]? = some name := by
    rintro k ⟨-, hk, hname⟩
    rw [List.getElem?_take, if_pos hk, hname]
  have hi := List.getElem?_eq_some_iff.mp (hat h)
  have hj := List.getElem?_eq_some_iff.mp (hat hj)
  exact (List.getElem_inj hd).mp (hi.2.trans hj.2.symm)

theorem parameter?_names (h : parameter? c name = some i) : Names c name i := by
  have hi := List.mem_range.mp (List.mem_of_find?_eq_some h)
  have hnamed := List.find?_some h
  simp only [Bool.and_eq_true, decide_eq_true_eq, beq_iff_eq] at hnamed
  exact ⟨hnamed.1, hi, hnamed.2⟩

theorem parameter?_eq_none : parameter? c name = none ↔ ∀ i < c.namedParams, ¬Names c name i := by
  simp only [parameter?, List.find?_eq_none, List.mem_range, Bool.and_eq_true, decide_eq_true_eq,
    beq_iff_eq, Names]
  exact forall_congr' fun i => imp_congr_right fun hi => by simp [hi]

theorem parameter?_eq_some (hd : (c.varnames.take c.namedParams).Nodup) :
    parameter? c name = some i ↔ Names c name i := by
  refine ⟨parameter?_names, fun h => ?_⟩
  cases hfound : parameter? c name with
  | none => exact absurd h (parameter?_eq_none.mp hfound i h.2.1)
  | some j => rw [h.parameter hd (parameter?_names hfound)]

/-- Two keywords of one parameter have its name. -/
theorem Names.unique {name' : String} (h : Names c name i) (h' : Names c name' i) : name = name' :=
  Option.some.inj (h.2.2.symm.trans h'.2.2)

theorem placeKeyword_eq_ok {slots : Array (Option Value)} {extra : List Keyword} {k : Keyword}
    {out : Array (Option Value) × List Keyword} : placeKeyword c (slots, extra) k = .ok out
      ↔ (∃ i, parameter? c k.name = some i ∧ slots[i]?.join = none
          ∧ out = (slots.setIfInBounds i (some k.value), extra))
        ∨ (parameter? c k.name = none ∧ c.hasVarkeywords = true ∧ out = (slots, extra ++ [k])) := by
  cases hp : parameter? c k.name with
  | some i =>
    have hplace : placeKeyword c (slots, extra) k = if slots[i]?.join.isSome
        then .error (.multiple k.name) else .ok (slots.setIfInBounds i (some k.value), extra) := by
      simp only [placeKeyword, hp]
    rw [hplace]
    cases hslot : slots[i]?.join with
    | some v => simp [hslot]
    | none => simp [hslot, eq_comm (a := out)]
  | none =>
    have hplace : placeKeyword c (slots, extra) k = if c.hasVarkeywords
        then .ok (slots, extra ++ [k]) else .error (.unexpected k.name) := by
      simp only [placeKeyword, hp]
    rw [hplace]
    cases hkw : c.hasVarkeywords with
    | true => simp [eq_comm (a := out)]
    | false => simp

theorem join_setIfInBounds_ne {slots : Array (Option Value)} {i j : Nat} {x : Option Value}
    (hij : i ≠ j) : (slots.setIfInBounds i x)[j]?.join = slots[j]?.join := by
  rw [Array.getElem?_setIfInBounds_ne hij]

/-- **Keyword arguments can be placed** exactly if each goes into a parameter that is still free, or
is collected. -/
theorem exists_placeKeywords (hk : (kwargs.map (·.name)).Nodup) {slots : Array (Option Value)}
    {extra : List Keyword} : (∃ out, kwargs.foldlM (placeKeyword c) (slots, extra) = .ok out)
      ↔ ∀ k ∈ kwargs, (∃ i, parameter? c k.name = some i ∧ slots[i]?.join = none)
        ∨ (parameter? c k.name = none ∧ c.hasVarkeywords = true) := by
  induction kwargs generalizing slots extra with
  | nil => exact iff_of_true ⟨_, rfl⟩ (List.forall_mem_nil _)
  | cons k kwargs ih =>
    obtain ⟨hnew, hrest⟩ := List.nodup_cons.mp hk
    -- a keyword that is placed keeps no other one out
    have hother : ∀ {i}, parameter? c k.name = some i →
        ∀ l ∈ kwargs, parameter? c l.name ≠ some i := by
      intro i hi l hl hli
      have hsame := (parameter?_names hi).unique (parameter?_names hli)
      exact hnew (List.mem_map.mpr ⟨l, hl, hsame.symm⟩)
    rw [List.forall_mem_cons]
    constructor
    · rintro ⟨out, h⟩
      rw [List.foldlM_cons] at h
      obtain ⟨next, hnext, h⟩ := bind_eq_ok.mp h
      rcases placeKeyword_eq_ok.mp hnext with ⟨i, hi, hfree, rfl⟩ | ⟨hnone, hcollects, rfl⟩
      · refine ⟨.inl ⟨i, hi, hfree⟩, fun l hl => ?_⟩
        refine ((ih hrest).mp ⟨out, h⟩ l hl).imp_left ?_
        rintro ⟨j, hj, hjfree⟩
        have hij : i ≠ j := fun hij => hother hi l hl (hij ▸ hj)
        exact ⟨j, hj, by rwa [join_setIfInBounds_ne hij] at hjfree⟩
      · exact ⟨.inr ⟨hnone, hcollects⟩, (ih hrest).mp ⟨out, h⟩⟩
    · rintro ⟨hhead, htail⟩
      rcases hhead with ⟨i, hi, hfree⟩ | ⟨hnone, hcollects⟩
      · obtain ⟨out, hout⟩ : ∃ out, kwargs.foldlM (placeKeyword c)
            (slots.setIfInBounds i (some k.value), extra) = .ok out :=
          (ih hrest).mpr fun l hl => (htail l hl).imp_left fun ⟨j, hj, hjfree⟩ => by
            have hij : i ≠ j := fun hij => hother hi l hl (hij ▸ hj)
            exact ⟨j, hj, by rwa [join_setIfInBounds_ne hij]⟩
        refine ⟨out, ?_⟩
        rw [List.foldlM_cons]
        exact bind_eq_ok.mpr ⟨_, placeKeyword_eq_ok.mpr (.inl ⟨i, hi, hfree, rfl⟩), hout⟩
      · obtain ⟨out, hout⟩ : ∃ out, kwargs.foldlM (placeKeyword c) (slots, extra ++ [k])
            = .ok out := (ih hrest).mpr htail
        refine ⟨out, ?_⟩
        rw [List.foldlM_cons]
        exact bind_eq_ok.mpr ⟨_, placeKeyword_eq_ok.mpr (.inr ⟨hnone, hcollects, rfl⟩), hout⟩

theorem placeKeywords_size {given out : Array (Option Value) × List Keyword}
    (h : kwargs.foldlM (placeKeyword c) given = .ok out) : out.1.size = given.1.size := by
  induction kwargs generalizing given with
  | nil =>
    cases h
    rfl
  | cons k kwargs ih =>
    rw [List.foldlM_cons] at h
    obtain ⟨next, hnext, h⟩ := bind_eq_ok.mp h
    rw [ih h]
    rcases placeKeyword_eq_ok.mp hnext with ⟨i, -, -, rfl⟩ | ⟨-, -, rfl⟩
    · exact Array.size_setIfInBounds
    · rfl

/-- **What lies in a parameter after the keyword arguments:** what lay there before, or else the
argument that is given to its name. -/
theorem placeKeywords_slot {slots : Array (Option Value)} {extra : List Keyword}
    {out : Array (Option Value) × List Keyword}
    (h : kwargs.foldlM (placeKeyword c) (slots, extra) = .ok out) (hi : i < slots.size) :
    out.1[i]?.join = slots[i]?.join.or
      ((kwargs.find? fun k => parameter? c k.name = some i).map (·.value)) := by
  induction kwargs generalizing slots extra with
  | nil =>
    cases h
    exact (Option.or_none).symm
  | cons k kwargs ih =>
    rw [List.foldlM_cons] at h
    obtain ⟨next, hnext, h⟩ := bind_eq_ok.mp h
    rcases placeKeyword_eq_ok.mp hnext with ⟨j, hj, hfree, rfl⟩ | ⟨hnone, -, rfl⟩
    · rw [ih h (by rwa [Array.size_setIfInBounds])]
      by_cases hji : j = i
      · subst hji
        rw [Array.getElem?_setIfInBounds_self_of_lt hi, hfree,
          List.find?_cons_of_pos (by simp [hj])]
        rfl
      · rw [join_setIfInBounds_ne hji, List.find?_cons_of_neg (by simp [hj, hji])]
    · rw [ih h hi, List.find?_cons_of_neg (by simp [hnone])]

/-! ## 3. Defaults -/

theorem equal_text (s : Store) (v : Value) (id : Ident) (name : String) :
    s.equal v (.str id name) = decide (v.asText? = some name) := by
  unfold Store.equal
  cases s.size <;> cases v <;>
    simp [Store.equalWithin, Value.equalWith, Value.asText?, Value.equalNumbers?, Value.asInt?,
      Value.asDouble?, Value.same, Value.place, beq_eq_decide]

/-- The default that is found is the declared one. -/
theorem default?_eq (s : Store) (h : f.defaults.length ≤ f.code.argCount) (i : Nat) :
    default? s f i = declaredDefault? f i := by
  unfold default? declaredDefault?
  dsimp only
  by_cases hi : i < f.code.argCount
  · rw [if_pos hi, if_pos hi]
    by_cases hfirst : i < f.code.argCount - f.defaults.length
    · rw [if_pos hfirst, List.getElem?_eq_none]
      rw [List.length_reverse]
      omega
    · rw [if_neg hfirst, List.getElem?_reverse (by omega)]
      congr 1
      omega
  · rw [if_neg hi, if_neg hi]
    simp only [Store.lookup?, equal_text]

theorem fillDefault_eq_ok {slot x : Option Value} : fillDefault s f slot i = .ok x
    ↔ ∃ v, slot.or (default? s f i) = some v ∧ x = some v := by
  unfold fillDefault
  cases slot with
  | some v => simp [eq_comm (a := x)]
  | none =>
    cases default? s f i with
    | some v => simp [eq_comm (a := x)]
    | none => simp

/-! ## 4. Named parameters -/

/-- The rules of a call: what it must give, and what it must not. -/
structure Admits (f : Function) (args : List Value) (kwargs : List Keyword) : Prop where
  /-- Surplus positional arguments are given only where they are collected. -/
  positional : args.length ≤ f.code.argCount ∨ f.code.hasVarargs = true
  /-- No keyword names a parameter that its position fills. -/
  single : ∀ k ∈ kwargs, ∀ i, Names f.code k.name i → (args.take f.code.argCount).length ≤ i
  /-- A keyword names a parameter, or is collected. -/
  known : ∀ k ∈ kwargs, (∃ i, Names f.code k.name i) ∨ f.code.hasVarkeywords = true
  /-- A parameter without argument has a default. -/
  complete : ∀ i < f.code.namedParams, argument? f.code args kwargs i = none →
    (declaredDefault? f i).isSome = true

/-- The positional arguments in their parameters. -/
def given (c : CodeObject) (args : List Value) : Array (Option Value) :=
  ((List.range c.namedParams).map fun i => if i < c.argCount then args[i]? else none).toArray

theorem given_join (c : CodeObject) (args : List Value) (i : Nat) :
    (given c args)[i]?.join = (args.take c.argCount)[i]? := by
  rw [given, List.getElem?_toArray, List.getElem?_map, List.getElem?_take]
  by_cases hi : i < c.namedParams
  · rw [List.getElem?_range hi]
    rfl
  · have harg : ¬i < c.argCount := fun h => hi (Nat.lt_of_lt_of_le h (Nat.le_add_right _ _))
    rw [if_neg harg, List.getElem?_eq_none (by rw [List.length_range]; exact Nat.not_lt.mp hi)]
    rfl

theorem bindNamed_iff {named : List (Option Value)} {extra : List Keyword} :
    f.bindNamed s args kwargs = .ok (named, extra)
      ↔ (args.length ≤ f.code.argCount ∨ f.code.hasVarargs = true)
        ∧ ∃ slots, kwargs.foldlM (placeKeyword f.code) (given f.code args, []) = .ok (slots, extra)
          ∧ slots.toList.zipIdx.mapM (fun p => fillDefault s f p.1 p.2) = .ok named := by
  unfold bindNamed
  dsimp only
  split
  · rename_i hmany
    simp only [Bool.and_eq_true, Bool.not_eq_true', decide_eq_true_eq] at hmany
    refine iff_of_false nofun ?_
    rintro ⟨hle | hcollects, -⟩
    · omega
    · rw [hmany.1] at hcollects
      cases hcollects
  · rename_i hfew
    simp only [Bool.and_eq_true, Bool.not_eq_true', decide_eq_true_eq, not_and, not_lt] at hfew
    have hpositional : args.length ≤ f.code.argCount ∨ f.code.hasVarargs = true := by
      cases hvar : f.code.hasVarargs with
      | true => exact .inr rfl
      | false => exact .inl (hfew hvar)
    rw [and_iff_right hpositional]
    constructor
    · intro h
      obtain ⟨⟨slots, extra'⟩, hslots, h⟩ := bind_eq_ok.mp h
      obtain ⟨filled, hfilled, h⟩ := bind_eq_ok.mp h
      cases h
      exact ⟨slots, hslots, hfilled⟩
    · rintro ⟨slots, hslots, hfilled⟩
      exact bind_eq_ok.mpr ⟨_, hslots, bind_eq_ok.mpr ⟨_, hfilled, rfl⟩⟩

/-- What is filled in. -/
theorem fillDefaults_iff {slots : List (Option Value × Nat)} {named : List (Option Value)} :
    slots.mapM (fun p => fillDefault s f p.1 p.2) = .ok named
      ↔ (∀ p ∈ slots, (p.1.or (default? s f p.2)).isSome = true)
        ∧ named = slots.map fun p => p.1.or (default? s f p.2) := by
  constructor
  · intro h
    have hall := forall₂_of_mapM h
    clear h
    induction hall with
    | nil => exact ⟨List.forall_mem_nil _, rfl⟩
    | cons hfill _ ih =>
      obtain ⟨v, hv, rfl⟩ := fillDefault_eq_ok.mp hfill
      obtain ⟨hsome, rfl⟩ := ih
      refine ⟨List.forall_mem_cons.mpr ⟨by rw [hv]; rfl, hsome⟩, ?_⟩
      rw [List.map_cons, hv]
  · rintro ⟨hall, rfl⟩
    refine mapM_of_forall₂ (List.forall₂_map_right_iff.mpr (List.forall₂_same.mpr fun p hp => ?_))
    obtain ⟨v, hv⟩ := Option.isSome_iff_exists.mp (hall p hp)
    exact fillDefault_eq_ok.mpr ⟨v, hv, hv⟩

theorem bindNamed_length {named : List (Option Value)} {extra : List Keyword}
    (h : f.bindNamed s args kwargs = .ok (named, extra)) : named.length = f.code.namedParams := by
  obtain ⟨-, slots, hslots, hfilled⟩ := bindNamed_iff.mp h
  rw [← (forall₂_of_mapM hfilled).length_eq, List.length_zipIdx, Array.length_toList,
    placeKeywords_size hslots, given, List.size_toArray, List.length_map, List.length_range]

/-- A named parameter is always bound. -/
theorem bindNamed_bound {named : List (Option Value)} {extra : List Keyword}
    (h : f.bindNamed s args kwargs = .ok (named, extra)) : ∀ x ∈ named, ∃ v, x = some v := by
  obtain ⟨-, slots, -, hfilled⟩ := bindNamed_iff.mp h
  obtain ⟨hall, rfl⟩ := fillDefaults_iff.mp hfilled
  exact List.forall_mem_map.mpr fun p hp => Option.isSome_iff_exists.mp (hall p hp)

theorem zipIdx_map_range {α : Type} (n : Nat) (g : Nat → α) :
    ((List.range n).map g).zipIdx = (List.range n).map fun i => (g i, i) := by
  refine List.ext_getElem (by simp) fun i h₁ h₂ => ?_
  simp

theorem unmatched_eq (c : CodeObject) (kwargs : List Keyword) :
    unmatched c kwargs = kwargs.filter fun k => (parameter? c k.name).isNone := by
  unfold unmatched
  congr 1
  funext k
  rw [Bool.eq_iff_iff, decide_eq_true_eq, Option.isNone_iff_eq_none, parameter?_eq_none]

/-- The keyword arguments that are left over are those that no parameter takes. -/
theorem placeKeyword_foldlM {given out : Array (Option Value) × List Keyword}
    (h : kwargs.foldlM (placeKeyword c) given = .ok out) :
    out.2 = given.2 ++ kwargs.filter fun k => (parameter? c k.name).isNone := by
  induction kwargs generalizing given with
  | nil =>
    cases h
    exact (List.append_nil _).symm
  | cons k kwargs ih =>
    rw [List.foldlM_cons] at h
    obtain ⟨next, hnext, h⟩ := bind_eq_ok.mp h
    rw [ih h, List.filter_cons]
    rcases placeKeyword_eq_ok.mp hnext with ⟨i, hi, -, rfl⟩ | ⟨hnone, -, rfl⟩
    · rw [hi]
      rfl
    · rw [hnone]
      exact List.append_assoc _ _ _

/-- After the keyword arguments each parameter holds its argument. -/
theorem placed_slots (hd : (c.varnames.take c.namedParams).Nodup) {slots : Array (Option Value)}
    {extra : List Keyword}
    (h : kwargs.foldlM (placeKeyword c) (given c args, []) = .ok (slots, extra)) :
    slots.toList = (List.range c.namedParams).map (argument? c args kwargs) := by
  have hgiven : (given c args).size = c.namedParams := by simp [given]
  have hsize : slots.size = c.namedParams := (placeKeywords_size h).trans hgiven
  refine List.ext_getElem (by simp [hsize]) fun i h₁ h₂ => ?_
  have hi : i < c.namedParams := by simpa using h₂
  have hslot := placeKeywords_slot h (hgiven.symm ▸ hi)
  rw [given_join, Array.getElem?_eq_getElem (hsize.symm ▸ hi)] at hslot
  simp only [Array.getElem_toList, List.getElem_map, List.getElem_range]
  rw [argument?]
  simpa only [Option.join_some, parameter?_eq_some hd] using hslot

/-- **Named parameters are bound by the rules:** exactly the calls that they admit succeed, each
parameter holds its argument or else its default, and the keyword arguments that name none are left
over. -/
theorem bindNamed_eq_ok (hd : (f.code.varnames.take f.code.namedParams).Nodup)
    (hdefaults : f.defaults.length ≤ f.code.argCount) (hk : (kwargs.map (·.name)).Nodup)
    {named : List (Option Value)} {extra : List Keyword} :
    f.bindNamed s args kwargs = .ok (named, extra)
      ↔ f.Admits args kwargs ∧ extra = unmatched f.code kwargs
        ∧ named = (List.range f.code.namedParams).map fun i =>
          (argument? f.code args kwargs i).or (declaredDefault? f i) := by
  have hfilled : ∀ {slots extra}, kwargs.foldlM (placeKeyword f.code) (given f.code args, [])
      = .ok (slots, extra) → ∀ {named},
      (slots.toList.zipIdx.mapM (fun p => fillDefault s f p.1 p.2) = .ok named
        ↔ (∀ i < f.code.namedParams, argument? f.code args kwargs i = none →
            (declaredDefault? f i).isSome = true)
          ∧ named = (List.range f.code.namedParams).map fun i =>
            (argument? f.code args kwargs i).or (declaredDefault? f i)) := by
    intro slots extra hslots named
    rw [placed_slots hd hslots, zipIdx_map_range, fillDefaults_iff, List.map_map]
    simp only [List.forall_mem_map, List.mem_range, default?_eq s hdefaults, Function.comp_def]
    refine and_congr_left fun _ => forall_congr' fun i => imp_congr_right fun _ => ?_
    cases argument? f.code args kwargs i <;> simp
  have hplaced : (∃ out, kwargs.foldlM (placeKeyword f.code) (given f.code args, []) = .ok out)
      ↔ (∀ k ∈ kwargs, ∀ i, Names f.code k.name i → (args.take f.code.argCount).length ≤ i)
        ∧ ∀ k ∈ kwargs, (∃ i, Names f.code k.name i) ∨ f.code.hasVarkeywords = true := by
    rw [exists_placeKeywords hk, ← forall₂_and]
    refine forall_congr' fun k => forall_congr' fun _ => ?_
    simp only [given_join, List.getElem?_eq_none_iff]
    cases hp : parameter? f.code k.name with
    | some i =>
      have hi := parameter?_names hp
      have hsame : ∀ j, Names f.code k.name j ↔ j = i := fun j =>
        ⟨fun hj => hj.parameter hd hi, fun hj => hj ▸ hi⟩
      simp [hsame]
    | none =>
      have hnone : ∀ j, ¬Names f.code k.name j := fun j hj => parameter?_eq_none.mp hp j hj.2.1 hj
      simp [hnone]
  have hextra : ∀ {slots extra}, kwargs.foldlM (placeKeyword f.code) (given f.code args, [])
      = .ok (slots, extra) → extra = unmatched f.code kwargs := fun hslots =>
    (placeKeyword_foldlM hslots).trans (unmatched_eq f.code kwargs).symm
  rw [bindNamed_iff]
  constructor
  · rintro ⟨hpositional, slots, hslots, hfill⟩
    obtain ⟨hsingle, hknown⟩ := hplaced.mp ⟨_, hslots⟩
    obtain ⟨hcomplete, hnamed⟩ := (hfilled hslots).mp hfill
    exact ⟨⟨hpositional, hsingle, hknown, hcomplete⟩, hextra hslots, hnamed⟩
  · rintro ⟨hadmits, hleft, hnamed⟩
    obtain ⟨⟨slots, extra'⟩, hslots⟩ := hplaced.mpr ⟨hadmits.single, hadmits.known⟩
    obtain rfl : extra' = extra := (hextra hslots).trans hleft.symm
    exact ⟨hadmits.positional, slots, hslots, (hfilled hslots).mpr ⟨hadmits.complete, hnamed⟩⟩

/-! ## 5. Declared types -/

/-- The check of one variable. -/
def checkType (m : TypeModel) (s : Store) (f : Function) (locals : Array (Option Value)) :
    TypeId × Nat → Except BindError (Array (Option Value))
  | (declared, i) =>
    match locals[i]?.join with
    | none => .ok locals
    | some v =>
      match Machine.coerce? m v declared with
      | some w => .ok (locals.setIfInBounds i (some w))
      | none =>
        .error (.wrongType (f.code.varnames.getD i "") (m.name declared) (s.typeName m v))

theorem checkTypes_eq (m : TypeModel) (s : Store) (f : Function) (locals : Array (Option Value)) :
    f.checkTypes m s locals = f.signature.params.zipIdx.foldlM (checkType m s f) locals := rfl

theorem checkType_eq_ok {m : TypeModel} {locals locals' : Array (Option Value)}
    {p : TypeId × Nat} : checkType m s f locals p = .ok locals'
      ↔ (locals[p.2]?.join = none ∧ locals' = locals)
        ∨ ∃ v w, locals[p.2]?.join = some v ∧ Machine.coerce? m v p.1 = some w
          ∧ locals' = locals.setIfInBounds p.2 (some w) := by
  unfold checkType
  cases hv : locals[p.2]?.join with
  | none => simp [hv, eq_comm (a := locals')]
  | some v =>
    cases hw : Machine.coerce? m v p.1 with
    | none => simp [hv, hw]
    | some w => simp [hv, hw, eq_comm (a := locals')]

/-! ## 6. Nothing is lost -/

/-- The arguments that a call leaves in the variables: those of the parameters, and the collected
ones. -/
def held (c : CodeObject) (args : List Value) (kwargs : List Keyword) : List Value :=
  (List.range c.namedParams).filterMap (argument? c args kwargs)
    ++ (if c.hasVarargs then args.drop c.argCount else [])
    ++ (if c.hasVarkeywords then (unmatched c kwargs).map (·.value) else [])

theorem filterMap_range_getElem? {α : Type} (xs : List α) :
    (List.range xs.length).filterMap (xs[·]?) = xs := by
  induction xs with
  | nil => rfl
  | cons x xs ih =>
    rw [List.length_cons, List.range_succ_eq_map, List.filterMap_cons, List.getElem?_cons_zero,
      List.filterMap_map]
    simpa [Function.comp_def] using ih

/-- The parameters behind the positional arguments hold the keyword arguments that name them. -/
theorem named_perm (hd : (c.varnames.take c.namedParams).Nodup) (hk : (kwargs.map (·.name)).Nodup)
    {p m : Nat} (hn : c.namedParams = p + m)
    (hsingle : ∀ k ∈ kwargs, ∀ i, Names c k.name i → p ≤ i) :
    (((List.range m).map (p + ·)).filterMap fun i => kwargs.find? fun k => Names c k.name i).Perm
      (kwargs.filter fun k => ¬∀ i < c.namedParams, ¬Names c k.name i) := by
  have hfound : ∀ {i k}, (kwargs.find? fun k => Names c k.name i) = some k →
      k ∈ kwargs ∧ Names c k.name i := fun h =>
    ⟨List.mem_of_find?_eq_some h, by simpa using List.find?_some h⟩
  have hrange : ((List.range m).map (p + ·)).Nodup :=
    List.nodup_range.map fun i j hij => Nat.add_left_cancel hij
  refine (List.perm_ext_iff_of_nodup (hrange.filterMap fun i j k hi hj => ?_)
    ((List.Nodup.of_map _ hk).filter _)).mpr fun k => ?_
  · exact (hfound hi).2.parameter hd (hfound hj).2
  · simp only [List.mem_filterMap, List.mem_map, List.mem_range, List.mem_filter,
      decide_eq_true_eq, not_forall, not_not]
    constructor
    · rintro ⟨_, _, hfind⟩
      obtain ⟨hmem, hnames⟩ := hfound hfind
      exact ⟨hmem, _, hnames.2.1, hnames⟩
    · rintro ⟨hmem, i, hi, hnames⟩
      have hle := hsingle k hmem i hnames
      refine ⟨i, ⟨i - p, by omega, by omega⟩, ?_⟩
      have hsome : (kwargs.find? fun k => Names c k.name i).isSome = true :=
        List.find?_isSome.mpr ⟨k, hmem, by simpa using hnames⟩
      obtain ⟨l, hfind⟩ := Option.isSome_iff_exists.mp hsome
      obtain ⟨hl, hlnames⟩ := hfound hfind
      rw [hfind, List.inj_on_of_nodup_map hk hl hmem (hlnames.unique hnames)]

/-- **No argument is lost or used twice.** -/
theorem held_perm (hd : (f.code.varnames.take f.code.namedParams).Nodup)
    (hk : (kwargs.map (·.name)).Nodup) (h : f.Admits args kwargs) :
    (held f.code args kwargs).Perm (args ++ kwargs.map (·.value)) := by
  have hle : (args.take f.code.argCount).length ≤ f.code.namedParams := by
    rw [List.length_take, CodeObject.namedParams]
    omega
  obtain ⟨m, hn⟩ := Nat.exists_eq_add_of_le hle
  have hsurplus : (if f.code.hasVarargs then args.drop f.code.argCount else [])
      = args.drop f.code.argCount := by
    split
    · rfl
    · rename_i hvar
      exact (List.drop_eq_nil_of_le (h.positional.resolve_right hvar)).symm
  have hcollected : (if f.code.hasVarkeywords then (unmatched f.code kwargs).map (·.value) else [])
      = (unmatched f.code kwargs).map (·.value) := by
    split
    · rfl
    · rename_i hkw
      rw [unmatched, List.filter_eq_nil_iff.mpr, List.map_nil]
      intro k hmem
      obtain ⟨i, hi⟩ := (h.known k hmem).resolve_right hkw
      simpa using ⟨i, hi.2.1, hi⟩
  have hparams : (List.range f.code.namedParams).filterMap (argument? f.code args kwargs)
      = args.take f.code.argCount
        ++ (((List.range m).map ((args.take f.code.argCount).length + ·)).filterMap fun i =>
          kwargs.find? fun k => Names f.code k.name i).map (·.value) := by
    rw [hn, List.range_add, List.filterMap_append, List.map_filterMap]
    congr 1
    · refine Eq.trans (List.filterMap_congr fun i hi => ?_) (filterMap_range_getElem? _)
      rw [argument?, List.getElem?_eq_getElem (List.mem_range.mp hi), Option.some_or]
    · refine List.filterMap_congr fun i hi => ?_
      obtain ⟨j, -, rfl⟩ := List.mem_map.mp hi
      rw [argument?, List.getElem?_eq_none (Nat.le_add_right _ _), Option.none_or]
  have hmatched := named_perm hd hk hn h.single
  have hsplit : ((kwargs.filter fun k => ¬∀ i < f.code.namedParams, ¬Names f.code k.name i)
      ++ unmatched f.code kwargs).Perm kwargs := by
    refine List.perm_append_comm.trans ?_
    have := List.filter_append_perm
      (fun k : Keyword => decide (∀ i < f.code.namedParams, ¬Names f.code k.name i)) kwargs
    simpa only [unmatched, decide_not] using this
  rw [held, hsurplus, hcollected, hparams]
  set matched := ((List.range m).map ((args.take f.code.argCount).length + ·)).filterMap fun i =>
    kwargs.find? fun k => Names f.code k.name i
  have hswap : (args.take f.code.argCount ++ matched.map (·.value) ++ args.drop f.code.argCount)
      ~ args ++ matched.map (·.value) := by
    conv_rhs => rw [← List.take_append_drop f.code.argCount args, List.append_assoc]
    rw [List.append_assoc]
    exact List.perm_append_comm.append_left _
  calc args.take f.code.argCount ++ matched.map (·.value) ++ args.drop f.code.argCount
        ++ (unmatched f.code kwargs).map (·.value)
    _ ~ args ++ matched.map (·.value) ++ (unmatched f.code kwargs).map (·.value) :=
      hswap.append_right _
    _ = args ++ (matched ++ unmatched f.code kwargs).map (·.value) := by
      rw [List.map_append, List.append_assoc]
    _ ~ args ++ kwargs.map (·.value) :=
      (((hmatched.append_right _).trans hsplit).map _).append_left _

end Function

namespace Machine

/-! ## 7. Binding -/

/-- A new object in a variable, if one is wanted. -/
def madeIf (wanted : Bool) (f : Store → Value × Store) (s : Store) : List (Option Value) × Store :=
  if wanted then ([some (f s).1], (f s).2) else ([], s)

/-- The variables of a call before their types are checked, and the store with the collected
arguments. -/
def gathered (fn : Function) (args : List Value) (named : List (Option Value))
    (extra : List Keyword) (s : Store) : List (Option Value) × Store :=
  let surplus := madeIf fn.code.hasVarargs (Store.newTuple (args.drop fn.code.argCount)) s
  let unmatched := madeIf fn.code.hasVarkeywords
    (Store.newDict (extra.map fun k => (Value.str k.id k.name, k.value))) surplus.2
  let params := named ++ surplus.1 ++ unmatched.1
  (params ++ List.replicate (fn.code.localCount - params.length) none, unmatched.2)

theorem bound_iff {α : Type} {fn : Function} {x : Except BindError α} {ctx : Context}
    {s s' : Store} {v : α} : bound fn x ctx s = .ok v s' ↔ x = .ok v ∧ s = s' := by
  cases x with
  | ok w =>
    constructor
    · intro h
      cases h
      exact ⟨rfl, rfl⟩
    · rintro ⟨h, rfl⟩
      cases h
      rfl
  | error e =>
    constructor
    · intro h
      cases h
    · rintro ⟨h, -⟩
      cases h

theorem bind_gathered {fn : Function} {args : List Value} {kwargs : List Keyword} {ctx : Context}
    {s s' : Store} {locals : Array (Option Value)} : bind fn args kwargs ctx s = .ok locals s'
      ↔ fn.code.totalParams ≤ fn.code.localCount ∧ ∃ named extra,
        fn.bindNamed s args kwargs = .ok (named, extra)
          ∧ fn.checkTypes ctx.compiler.model s' (gathered fn args named extra s).1.toArray
            = .ok locals
          ∧ (gathered fn args named extra s).2 = s' := by
  -- what is left when the named parameters are bound
  have hrest : ∀ named extra, (do
      let surplus ← if fn.code.hasVarargs then do
          pure [some (← newTuple (args.drop fn.code.argCount))]
        else pure []
      let unmatched ← if fn.code.hasVarkeywords then do
          let pairs := extra.map fun k => (Value.str k.id k.name, k.value)
          pure [some (← make (Store.newDict pairs))]
        else pure []
      let params := named ++ surplus ++ unmatched
      let locals := params ++ List.replicate (fn.code.localCount - params.length) none
      bound fn (fn.checkTypes (← model) (← get) locals.toArray)
      : Action (Array (Option Value))) ctx s
        = bound fn (fn.checkTypes ctx.compiler.model (gathered fn args named extra s).2
          (gathered fn args named extra s).1.toArray) ctx (gathered fn args named extra s).2 := by
    intro named extra
    dsimp only [gathered, madeIf]
    cases fn.code.hasVarargs <;> cases fn.code.hasVarkeywords <;> rfl
  unfold bind
  dsimp only
  split
  · rename_i hfew
    exact iff_of_false nofun fun h => Nat.not_le_of_lt hfew h.1
  · rename_i hroom
    rw [and_iff_right (Nat.not_lt.mp hroom), run_bind_eq_ok]
    constructor
    · rintro ⟨st, s₁, hget, h⟩
      cases hget
      obtain ⟨⟨named, extra⟩, s₂, hbound, h⟩ := run_bind_eq_ok.mp h
      obtain ⟨hnamed, rfl⟩ := bound_iff.mp hbound
      obtain ⟨hchecked, rfl⟩ := bound_iff.mp ((hrest named extra).symm.trans h)
      exact ⟨named, extra, hnamed, hchecked, rfl⟩
    · rintro ⟨named, extra, hnamed, hchecked, rfl⟩
      refine ⟨s, s, rfl, run_bind_eq_ok.mpr ⟨(named, extra), s, bound_iff.mpr ⟨hnamed, rfl⟩, ?_⟩⟩
      exact (hrest named extra).trans (bound_iff.mpr ⟨hchecked, rfl⟩)

/-! ## 8. Variables of a call -/

section Gathered

variable {fn : Function} {args : List Value} {kwargs : List Keyword} {named : List (Option Value)}
  {extra : List Keyword} {s : Store} {i : Nat}

theorem madeIf_length (wanted : Bool) (g : Store → Value × Store) (s : Store) :
    (madeIf wanted g s).1.length = wanted.toNat := by
  cases wanted <;> rfl

theorem gathered_length (args : List Value) (extra : List Keyword) (s : Store)
    (hroom : fn.code.totalParams ≤ fn.code.localCount)
    (hnamed : named.length = fn.code.namedParams) :
    (gathered fn args named extra s).1.length = fn.code.localCount := by
  unfold CodeObject.totalParams at hroom
  simp only [gathered, List.length_append, List.length_replicate, madeIf_length, hnamed]
  omega

theorem gathered_parameter (hi : i < named.length) :
    (gathered fn args named extra s).1[i]? = named[i]? := by
  simp only [gathered, List.append_assoc]
  exact List.getElem?_append_left hi

/-- The surplus positional arguments are collected behind the named parameters. -/
theorem gathered_surplus (args : List Value) (named : List (Option Value)) (extra : List Keyword)
    (s : Store) (hvar : fn.code.hasVarargs = true) :
    ∃ id, (gathered fn args named extra s).1[named.length]?
      = some (some (.tuple id (args.drop fn.code.argCount))) := by
  simp only [gathered, madeIf, hvar, if_true, List.append_assoc]
  rw [List.getElem?_append_right (Nat.le_refl _), Nat.sub_self]
  exact ⟨_, rfl⟩

/-- The keyword arguments that no parameter takes are collected behind these. -/
theorem gathered_unmatched (args : List Value) (named : List (Option Value)) (extra : List Keyword)
    (s : Store) (hkw : fn.code.hasVarkeywords = true) :
    ∃ r, (gathered fn args named extra s).1[named.length + fn.code.hasVarargs.toNat]?
        = some (some (.dict r))
      ∧ (gathered fn args named extra s).2.dicts.get r
        = extra.map fun k => (.str k.id k.name, k.value) := by
  unfold gathered
  dsimp only
  rw [hkw]
  generalize hsurplus : madeIf fn.code.hasVarargs (Store.newTuple (args.drop fn.code.argCount)) s
    = surplus
  have hbefore : named.length + fn.code.hasVarargs.toNat = (named ++ surplus.1).length := by
    rw [List.length_append, ← hsurplus, madeIf_length]
  rw [hbefore, List.append_assoc (named ++ surplus.1), List.getElem?_append_right (Nat.le_refl _),
    Nat.sub_self]
  exact ⟨_, rfl, by simp [madeIf, Store.newDict, Table.add, Table.get]⟩

/-- What is no parameter is unbound. -/
theorem gathered_unbound (hnamed : named.length = fn.code.namedParams)
    (hi : fn.code.totalParams ≤ i) (hlt : i < fn.code.localCount) :
    (gathered fn args named extra s).1[i]? = some none := by
  unfold CodeObject.totalParams at hi
  have hparams := gathered_length args extra s (Nat.le_of_lt (Nat.lt_of_le_of_lt hi hlt)) hnamed
  simp only [gathered] at hparams ⊢
  rw [List.getElem?_append_right, List.getElem?_replicate, if_pos]
  all_goals
    simp only [List.length_append, madeIf_length, hnamed]
    omega

end Gathered

/-! ## 9. Calls by the rules -/

theorem checkTypes_size {m : TypeModel} {s : Store} {fn : Function}
    {locals locals' : Array (Option Value)} (h : fn.checkTypes m s locals = .ok locals') :
    locals'.size = locals.size := by
  rw [Function.checkTypes_eq] at h
  generalize fn.signature.params.zipIdx = ps at h
  induction ps generalizing locals with
  | nil =>
    cases h
    rfl
  | cons p ps ih =>
    rw [List.foldlM_cons] at h
    obtain ⟨locals₁, hp, h⟩ := bind_eq_ok.mp h
    rw [ih h]
    rcases Function.checkType_eq_ok.mp hp with ⟨-, rfl⟩ | ⟨v, w, -, -, rfl⟩
    · rfl
    · exact Array.size_setIfInBounds

/-- **The variables of a call** are those of its code object. -/
theorem bind_size {fn : Function} {args : List Value} {kwargs : List Keyword} {ctx : Context}
    {s s' : Store} {locals : Array (Option Value)}
    (h : bind fn args kwargs ctx s = .ok locals s') : locals.size = fn.code.localCount := by
  obtain ⟨hroom, named, extra, hnamed, hchecked, -⟩ := bind_gathered.mp h
  rw [checkTypes_size hchecked, List.size_toArray,
    gathered_length args extra s hroom (Function.bindNamed_length hnamed)]

end Machine

namespace Function

/-- A function whose parameters have names of their own and variables to lie in, at most one default
for each positional parameter, and no declared types. -/
structure Plain (f : Function) : Prop where
  distinct : (f.code.varnames.take f.code.namedParams).Nodup
  room : f.code.totalParams ≤ f.code.localCount
  defaults : f.defaults.length ≤ f.code.argCount
  undeclared : f.signature.params = []

/-- The variables hold what the rules say. -/
structure Holds (f : Function) (args : List Value) (kwargs : List Keyword)
    (locals : Array (Option Value)) (s : Store) : Prop where
  size : locals.size = f.code.localCount
  /-- A parameter holds its argument, or else its default. -/
  parameter : ∀ i < f.code.namedParams, ∃ v, locals[i]? = some (some v)
    ∧ (argument? f.code args kwargs i).or (declaredDefault? f i) = some v
  /-- The surplus positional arguments are collected in their order. -/
  surplus : f.code.hasVarargs = true → ∃ id,
    locals[f.code.namedParams]? = some (some (.tuple id (args.drop f.code.argCount)))
  /-- The keyword arguments that name no parameter are collected in their order. -/
  unmatched : f.code.hasVarkeywords = true → ∃ r,
    locals[f.code.namedParams + f.code.hasVarargs.toNat]? = some (some (.dict r))
      ∧ s.dicts.get r = (Function.unmatched f.code kwargs).map fun k => (.str k.id k.name, k.value)
  /-- What is no parameter is unbound. -/
  unbound : ∀ i, f.code.totalParams ≤ i → i < f.code.localCount → locals[i]? = some none

/-- **Arguments are bound by the rules.** Exactly the calls that the rules allow succeed; each
parameter then holds its argument or its default, the others are collected, and none is lost or used
twice. -/
theorem arguments_bound {f : Function} {args : List Value} {kwargs : List Keyword} (hf : f.Plain)
    (hk : (kwargs.map (·.name)).Nodup) (ctx : Context) (s : Store) :
    ((∃ locals s', Machine.bind f args kwargs ctx s = .ok locals s') ↔ f.Admits args kwargs)
      ∧ ∀ locals s', Machine.bind f args kwargs ctx s = .ok locals s' →
        f.Holds args kwargs locals s' ∧ held f.code args kwargs ~ args ++ kwargs.map (·.value) := by
  have hnamed : ∀ named extra, f.bindNamed s args kwargs = .ok (named, extra) ↔ _ := fun _ _ =>
    bindNamed_eq_ok hf.distinct hf.defaults hk
  have hfree : ∀ {m s' raw}, f.checkTypes m s' raw = .ok raw := by
    intro m s' raw
    rw [checkTypes, hf.undeclared]
    rfl
  refine ⟨⟨?_, fun h => ?_⟩, fun locals s' h => ?_⟩
  · rintro ⟨locals, s', h⟩
    obtain ⟨-, named, extra, hbound, -⟩ := Machine.bind_gathered.mp h
    exact ((hnamed _ _).mp hbound).1
  · have hbound := (hnamed _ _).mpr ⟨h, rfl, rfl⟩
    exact ⟨_, _, Machine.bind_gathered.mpr ⟨hf.room, _, _, hbound, hfree, rfl⟩⟩
  · have hsize := Machine.bind_size h
    obtain ⟨-, named, extra, hbound, hchecked, rfl⟩ := Machine.bind_gathered.mp h
    obtain rfl := Except.ok.inj (hfree.symm.trans hchecked)
    have hlen := bindNamed_length hbound
    have hsome := bindNamed_bound hbound
    obtain ⟨hadmits, rfl, hvalues⟩ := (hnamed _ _).mp hbound
    refine ⟨⟨hsize, fun i hi => ?_, ?_, ?_, fun i hi hlt => ?_⟩, held_perm hf.distinct hk hadmits⟩
    · obtain ⟨v, hv⟩ := hsome _ (List.getElem_mem (hlen.symm ▸ hi))
      have hat : named[i]? = some (some v) := by rw [List.getElem?_eq_getElem (hlen.symm ▸ hi), hv]
      refine ⟨v, ?_, ?_⟩
      · rw [List.getElem?_toArray, Machine.gathered_parameter (hlen.symm ▸ hi), hat]
      · rw [hvalues, List.getElem?_map, List.getElem?_range hi] at hat
        exact Option.some.inj hat
    · rw [← hlen, List.getElem?_toArray]
      exact Machine.gathered_surplus _ _ _ _
    · rw [← hlen, List.getElem?_toArray]
      exact Machine.gathered_unmatched _ _ _ _
    · rw [List.getElem?_toArray]
      exact Machine.gathered_unbound hlen hi hlt

/-- A code object with every kind of parameter: one that can only be given by position, one of
either kind, one that can only be given by keyword, and the two that collect. -/
def everyKind : CodeObject :=
  { CodeObject.blank 0 "f" "m.py" with
    varnames := ["a", "b", "c", "args", "kwargs", "local"]
    argCount := 2
    posonlyCount := 1
    kwonlyCount := 1
    flags := ⟨CodeFlags.function.bits ||| CodeFlags.varargsBit ||| CodeFlags.varkeywordsBit⟩ }

/-- A function over it, with defaults of the last two named parameters. -/
def withDefaults : Function :=
  { ofCode everyKind default default with
    defaults := [.int 7]
    kwdefaults := [(.str default "c", .int 8)] }

/-- Keyword arguments, the first of which names the parameter that is given by position only. -/
def positionalByName : List Keyword := [⟨default, "a", .int 5⟩, ⟨default, "c", .int 6⟩]

theorem arguments_bound_everyKind : withDefaults.Plain ∧ (positionalByName.map (·.name)).Nodup
    ∧ ∃ locals s', Machine.bind withDefaults [.int 1, .int 2, .int 3, .int 4] positionalByName
        (Machine.plainContext 1) {} = .ok locals s'
      ∧ withDefaults.Admits [.int 1, .int 2, .int 3, .int 4] positionalByName
      ∧ withDefaults.Holds [.int 1, .int 2, .int 3, .int 4] positionalByName locals s'
      ∧ [Value.int 1, .int 2, .int 6, .int 3, .int 4, .int 5]
        ~ [.int 1, .int 2, .int 3, .int 4, .int 5, .int 6] := by
  have hplain : withDefaults.Plain := ⟨by decide, by decide, by decide, rfl⟩
  have hk : (positionalByName.map (·.name)).Nodup := by decide
  have hsome : (answer? (Machine.bind withDefaults [.int 1, .int 2, .int 3, .int 4]
      positionalByName (Machine.plainContext 1) {})).isSome = true := by
    decide +kernel
  obtain ⟨⟨locals, s'⟩, hbound⟩ := Option.isSome_iff_exists.mp hsome
  rw [answer?_eq_some] at hbound
  obtain ⟨hadmits, hholds⟩ := arguments_bound hplain hk (Machine.plainContext 1) {}
  obtain ⟨hholds, hperm⟩ := hholds locals s' hbound
  exact ⟨hplain, hk, locals, s', hbound, hadmits.mp ⟨_, _, hbound⟩, hholds, hperm⟩

end Function

end Stackwise
