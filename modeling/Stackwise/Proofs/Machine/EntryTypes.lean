import Mathlib.Data.Option.Basic
import Stackwise.Proofs.Machine.ArgumentBinding
import Stackwise.Proofs.Machine.Typing

/-!
# Types at the entry

The analysis of a function starts with what its signature says of the variables. Binding sees to it
that this is true.

* `Value.Widens`, `coerce?_eq_some`: only integers and truth values are converted, and only to
  floats.
* `checkTypes_at`: what the check of the declared types leaves in a variable.
* `bind_typed`: variables are bound where the analysis takes them to be bound, to values of the
  types that it has for them.
* `bind_conforms`: and nothing else is changed in what a function without declared types would get.
-/

namespace Stackwise

/-- The number as a float, for a value that is no float. -/
inductive Value.Widens : Value → Value → Prop
  | int (n : Int64) : Widens (.int n) (.float (.ofInt n.toInt))
  | bool (b : Bool) : Widens (.bool b) (.float (if b then .one else .zero))

namespace Machine

/-! ## 1. Conversions -/

section Coercions

variable {m : TypeModel} {v w : Value} {declared : TypeId}

theorem coerce?_eq_some : coerce? m v declared = some w
    ↔ m.isSubtype v.type declared = true ∧ w = v
      ∨ m.isSubtype v.type declared = false ∧ declared = .float ∧ v.Widens w := by
  unfold coerce?
  cases hsub : m.isSubtype v.type declared with
  | true => simp [eq_comm (a := w)]
  | false =>
    by_cases hfloat : declared = .float
    · subst hfloat
      simp only [Bool.false_eq_true, if_false, beq_self_eq_true, if_true, false_and, true_and,
        false_or]
      constructor
      · intro h
        obtain ⟨n, hn, h⟩ := Option.bind_eq_some_iff.mp h
        obtain ⟨x, hx, rfl⟩ := Option.map_eq_some_iff.mp h
        cases v with
        | int n =>
          cases hx
          exact .int n
        | bool b =>
          cases hx
          exact .bool b
        | _ => cases hn
      · rintro (n | b)
        · rfl
        · rfl
    · simp [hfloat]

theorem coerce?_object (m : TypeModel) (v : Value) : coerce? m v .object = some v :=
  coerce?_eq_some.mpr (.inl ⟨TypeModel.isSubtype_iff.mpr (.inr (.inl rfl)), rfl⟩)

/-- Only numbers are converted. -/
theorem coerce?_type (h : coerce? m v declared = some w) :
    w = v ∨ v.type = .int ∨ v.type = .bool := by
  rcases coerce?_eq_some.mp h with ⟨-, rfl⟩ | ⟨-, -, n | b⟩
  · exact .inl rfl
  · exact .inr (.inl rfl)
  · exact .inr (.inr rfl)

end Coercions

/-! ## 2. The check -/

section Check

variable {m : TypeModel} {st : Store} {fn : Function} {locals locals' : Array (Option Value)}
  {x : Option Value} {i k : Nat}

/-- What a check leaves in a variable: an unbound one stays so. -/
abbrev Checked (m : TypeModel) (declared : TypeId) : Option Value → Option Value → Prop :=
  Option.Rel fun v w => coerce? m v declared = some w

theorem checked_object {y : Option Value} : Checked m .object x y ↔ x = y := by
  constructor
  · intro h
    cases h with
    | none => rfl
    | some h => rw [← h, coerce?_object]
  · rintro rfl
    cases x with
    | none => exact .none
    | some v => exact .some (coerce?_object m v)

/-- The check of one variable leaves the others as they are. -/
theorem checkType_at {declared : TypeId}
    (h : fn.checkType m st locals (declared, k) = .ok locals') (hx : locals[i]? = some x) :
    ∃ y, locals'[i]? = some y ∧ Checked m (if k = i then declared else .object) x y := by
  by_cases hki : k = i
  · subst hki
    rw [if_pos rfl]
    rcases Function.checkType_eq_ok.mp h with ⟨hunbound, rfl⟩ | ⟨v, w, hv, hw, rfl⟩
    · rw [hx] at hunbound
      obtain rfl : x = none := hunbound
      exact ⟨none, hx, .none⟩
    · rw [hx] at hv
      obtain rfl : x = some v := hv
      have hk := (Array.getElem?_eq_some_iff.mp hx).1
      exact ⟨some w, Array.getElem?_setIfInBounds_self_of_lt hk, .some hw⟩
  · rw [if_neg hki]
    refine ⟨x, ?_, checked_object.mpr rfl⟩
    rcases Function.checkType_eq_ok.mp h with ⟨-, rfl⟩ | ⟨v, w, -, -, rfl⟩
    · exact hx
    · rwa [Array.getElem?_setIfInBounds_ne hki]

/-- **What the check of the declared types leaves in a variable.** -/
theorem checkTypes_at (h : fn.checkTypes m st locals = .ok locals') (hx : locals[i]? = some x) :
    ∃ y, locals'[i]? = some y ∧ Checked m (fn.signature.params.getD i .object) x y := by
  suffices hfrom : ∃ y, locals'[i]? = some y ∧ Checked m
      (if 0 ≤ i then fn.signature.params.getD (i - 0) .object else .object) x y by
    rwa [if_pos (Nat.zero_le i), Nat.sub_zero] at hfrom
  -- the types that are still to be checked start at `k`
  rw [Function.checkTypes_eq] at h
  generalize fn.signature.params = ts at h ⊢
  generalize 0 = k at h ⊢
  induction ts generalizing k locals x with
  | nil =>
    cases h
    rw [List.getD_nil, ite_self]
    exact ⟨x, hx, checked_object.mpr rfl⟩
  | cons t ts ih =>
    rw [List.zipIdx_cons, List.foldlM_cons] at h
    obtain ⟨locals₁, hstep, h⟩ := bind_eq_ok.mp h
    obtain ⟨y, hy, hfirst⟩ := checkType_at hstep hx
    obtain ⟨z, hz, hlater⟩ := ih hy _ h
    refine ⟨z, hz, ?_⟩
    by_cases hki : k = i
    · subst hki
      rw [if_neg (by omega)] at hlater
      rw [if_pos rfl, checked_object.mp hlater] at hfirst
      rwa [if_pos (Nat.le_refl k), Nat.sub_self, List.getD_cons_zero]
    · rw [if_neg hki] at hfirst
      rw [checked_object.mp hfirst]
      by_cases hle : k ≤ i
      · rw [if_pos (by omega)] at hlater
        rwa [if_pos hle, show i - k = i - (k + 1) + 1 by omega, List.getD_cons_succ]
      · rw [if_neg (by omega)] at hlater
        rwa [if_neg hle]

end Check

/-! ## 3. The entry -/

section Entry

variable {fn : Function} {args : List Value} {kwargs : List Keyword} {ctx : Context}
  {s s' : Store} {locals : Array (Option Value)} {i : Nat}

/-- A variable is bound if the analysis has a type for it, to a value of a subtype. -/
abbrev Typed (m : TypeModel) : Option Value → Option Slot → Prop :=
  Option.Rel fun v slot => m.isSubtype v.type slot.runtimeType = true

theorem bind_typed_at (h : bind fn args kwargs ctx s = .ok locals s')
    (hi : i < fn.code.localCount) :
    ∃ y, locals[i]? = some y ∧ Typed ctx.compiler.model y (fn.signature.entryLocal fn.code i) := by
  obtain ⟨-, named, extra, hnamed, hchecked, -⟩ := bind_gathered.mp h
  have hlen := Function.bindNamed_length hnamed
  have hat : ∀ {x}, (gathered fn args named extra s).1[i]? = some x → ∃ y, locals[i]? = some y
      ∧ Checked ctx.compiler.model (fn.signature.params.getD i .object) x y := fun hx =>
    checkTypes_at hchecked (by rwa [List.getElem?_toArray])
  -- an object that collects arguments is no number, so it is not converted
  have hcollects : ∀ {v t}, (gathered fn args named extra s).1[i]? = some (some v) → v.type = t →
      t ≠ .int → t ≠ .bool →
      ∃ y, locals[i]? = some y ∧ Typed ctx.compiler.model y (some (.value t)) := by
    intro v t hv ht hint hbool
    obtain ⟨y, hy, hcoerce⟩ := hat hv
    cases hcoerce with
    | some hcoerce =>
      rcases coerce?_type hcoerce with rfl | hnumber | hnumber
      · exact ⟨_, hy, .some (ht ▸ TypeModel.isSubtype_refl _ _)⟩
      · exact absurd (ht.symm.trans hnumber) hint
      · exact absurd (ht.symm.trans hnumber) hbool
  unfold CallSignature.entryLocal
  dsimp only
  split
  · rename_i hkeywords
    rw [Bool.and_eq_true, beq_iff_eq] at hkeywords
    obtain ⟨hkw, rfl⟩ := hkeywords
    rw [← hlen] at hcollects ⊢
    obtain ⟨r, hr, -⟩ := gathered_unmatched args named extra s hkw
    exact hcollects hr rfl (by decide) (by decide)
  · rename_i hnokeywords
    split
    · rename_i hsurplus
      rw [Bool.and_eq_true, beq_iff_eq] at hsurplus
      obtain ⟨hvar, rfl⟩ := hsurplus
      rw [← hlen] at hcollects ⊢
      obtain ⟨id, hid⟩ := gathered_surplus args named extra s hvar
      exact hcollects hid rfl (by decide) (by decide)
    · rename_i hnosurplus
      split
      · rename_i hparam
        have hi : i < named.length := by
          rw [CodeObject.totalParams] at hparam
          cases hvar : fn.code.hasVarargs <;> cases hkw : fn.code.hasVarkeywords <;>
            simp [hvar, hkw] at hparam hnokeywords hnosurplus <;> omega
        obtain ⟨v, hv⟩ := Function.bindNamed_bound hnamed _ (List.getElem_mem hi)
        have hx : (gathered fn args named extra s).1[i]? = some (some v) := by
          rw [gathered_parameter hi, List.getElem?_eq_getElem hi, hv]
        obtain ⟨y, hy, hcoerce⟩ := hat hx
        cases hcoerce with
        | some hcoerce => exact ⟨_, hy, .some (coerce?_isSubtype hcoerce)⟩
      · rename_i hbeyond
        obtain ⟨y, hy, hnone⟩ := hat (gathered_unbound hlen (Nat.not_lt.mp hbeyond) hi)
        cases hnone
        exact ⟨none, hy, .none⟩

/-- **Variables are bound as the analysis takes them to be bound.** -/
theorem bind_typed (h : bind fn args kwargs ctx s = .ok locals s') :
    List.Forall₂ (Typed ctx.compiler.model) locals.toList (fn.signature.entryLocals fn.code) := by
  have hsize := bind_size h
  refine List.forall₂_iff_get.mpr ⟨?_, fun i hi hi' => ?_⟩
  · rw [Array.length_toList, hsize, CallSignature.entryLocals, List.length_map, List.length_range]
  · rw [Array.length_toList] at hi
    obtain ⟨y, hy, htyped⟩ := bind_typed_at h (hsize ▸ hi)
    rw [Array.getElem?_eq_getElem hi] at hy
    simpa [CallSignature.entryLocals, Option.some.inj hy] using htyped

/-- **Binding conforms to the state at the entry.** A variable is bound to a value of a subtype of
the type that the analysis has for it, or is unbound if it has none. But for integers and truth
values where a float is declared, the values are those that a function without declared types
gets. -/
theorem bind_conforms (h : bind fn args kwargs ctx s = .ok locals s') :
    List.Forall₂ (Typed ctx.compiler.model) locals.toList (fn.signature.entryLocals fn.code)
      ∧ ∃ given, bind { fn with signature := .dynamic } args kwargs ctx s = .ok given s'
        ∧ ∀ (i : Nat) (v : Value), given[i]? = some (some v) → locals[i]? = some (some v)
          ∨ fn.signature.params[i]? = some .float
            ∧ ctx.compiler.model.isSubtype v.type .float = false
            ∧ ∃ w, v.Widens w ∧ locals[i]? = some (some w) := by
  refine ⟨bind_typed h, ?_⟩
  obtain ⟨hroom, named, extra, hnamed, hchecked, hstore⟩ := bind_gathered.mp h
  refine ⟨_, bind_gathered.mpr ⟨hroom, named, extra, hnamed, rfl, hstore⟩, fun i v hv => ?_⟩
  obtain ⟨y, hy, hcoerce⟩ := checkTypes_at hchecked hv
  cases hcoerce with
  | some hcoerce =>
    rcases coerce?_eq_some.mp hcoerce with ⟨-, rfl⟩ | ⟨hsub, hfloat, hwidens⟩
    · exact .inl hy
    · refine .inr ⟨?_, hfloat ▸ hsub, _, hwidens, hy⟩
      rw [List.getD_eq_getElem?_getD] at hfloat
      cases hdeclared : fn.signature.params[i]? with
      | none =>
        rw [hdeclared] at hfloat
        cases hfloat
      | some t =>
        rw [hdeclared] at hfloat
        exact congrArg some hfloat

/-- A function with fewer declared types than parameters. -/
def declaring : Function :=
  { Function.withDefaults with signature := { params := [.float, .int] } }

theorem bind_conforms_declaring : ∃ locals given s',
    bind declaring [.int 1] [] (plainContext 1) {} = .ok locals s'
      ∧ List.Forall₂ (Typed .withBuiltins) locals.toList [some (.value .float), some (.value .int),
        some (.value .object), some (.value .tuple), some (.value .dict), none]
      ∧ bind Function.withDefaults [.int 1] [] (plainContext 1) {} = .ok given s'
      ∧ (locals[0]?.join.any fun v => v.type == .float) = true := by
  have hsome : (answer? (bind declaring [.int 1] [] (plainContext 1) {})).any
      (fun r => r.1[0]?.join.any fun v => v.type == .float) = true := by
    decide +kernel
  obtain ⟨⟨locals, s'⟩, hbound, hfloat⟩ := (Option.any_eq_true _ _).mp hsome
  rw [answer?_eq_some] at hbound
  obtain ⟨htyped, given, hgiven, -⟩ := bind_conforms hbound
  exact ⟨locals, given, s', hbound, htyped, hgiven, hfloat⟩

end Entry

end Machine

end Stackwise
