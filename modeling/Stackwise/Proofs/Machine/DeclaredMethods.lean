import Stackwise.Proofs.Machine.MethodResults

/-!
# Declared methods

The table of the builtin types declares what methods and functions give, and what they give is of
the declared types, but for integer powers and the views of mappings.

* `Builtins.table_checked`: the types of results are below the declared ones, whatever the kinds of
  the receiver and of the arguments.
* `results_declared`: what a method or a function of the table gives.
-/

namespace Stackwise

/-! ## 1. The table -/

namespace Builtins

variable {m : TypeModel} {declared : TypeId}

/-- Whether something holds of the kinds of all values of a declared type. An exception may be of
any type. -/
def onKinds (declared : TypeId) (P : TypeId → Bool) : Bool :=
  Value.kinds.all fun k =>
    !(k == .baseException || TypeModel.withBuiltins.isSubtype k declared) || P k

/-- Whether something holds of the kinds of all arguments of the declared types. -/
def onArgs : List TypeId → (List TypeId → Bool) → Bool
  | [], P => P []
  | p :: ps, P => onKinds p fun k => onArgs ps fun ks => P (k :: ks)

/-- The methods whose results are not of their declared types: integer powers may be floats, and the
views of mappings are lists. -/
def isUntyped (owner : TypeId) (name : String) : Bool :=
  owner == .int && name == "__pow__"
    || owner == .dict && (name == "keys" || name == "values" || name == "items")

/-- Whether the types of what a method gives are below the declared one. -/
def methodDeclared (owner : TypeId) (name : String) (s : Signature) : Bool :=
  s.returns == .object
    || (name != "with_traceback" || TypeModel.withBuiltins.isSubtype owner s.returns)
      && onKinds owner fun k => onArgs s.params fun ks =>
        (methodTypes name k ks).all (TypeModel.withBuiltins.isSubtype · s.returns)

/-- Whether the type of what a builtin function gives is below the declared one. -/
def functionDeclared (name : String) (s : Signature) : Bool :=
  s.returns == .object || onArgs s.params fun ks =>
    (functionType? name ks).all (TypeModel.withBuiltins.isSubtype · s.returns)

/-- Whether a declaration keeps to the types of results. -/
def isDeclared : Declaration → Bool
  | .method owner name s => isUntyped owner name
      || methodDeclared owner name s && (owner != .builtins || functionDeclared name s)
  | _ => true

/-- **The table keeps to the types of results,** and the types of values are builtin ones. -/
theorem table_checked : (Value.types.all (fun t => t.raw < TypeModel.withBuiltins.size)
    && table.all isDeclared) = true := by
  decide +kernel

theorem types_known {t : TypeId} (ht : t ∈ Value.types) : t.raw < TypeModel.withBuiltins.size := by
  obtain ⟨hknown, -⟩ := Bool.and_eq_true_iff.mp table_checked
  exact of_decide_eq_true (List.all_eq_true.mp hknown t ht)

/-- What the check says of one method of the table. -/
theorem table_declared {owner : TypeId} {name : String} {s : Signature}
    (hs : Declaration.method owner name s ∈ table) (huntyped : isUntyped owner name = false) :
    methodDeclared owner name s = true ∧ (owner = .builtins → functionDeclared name s = true) := by
  obtain ⟨-, htable⟩ := Bool.and_eq_true_iff.mp table_checked
  have hcheck := List.all_eq_true.mp htable _ hs
  rw [isDeclared, huntyped, Bool.false_or, Bool.and_eq_true] at hcheck
  refine ⟨hcheck.1, ?_⟩
  rintro rfl
  simpa only [bne_self_eq_false, Bool.false_or] using hcheck.2

theorem of_onKinds (hm : m.ExtendsBuiltins) {P : TypeId → Bool} (h : onKinds declared P = true)
    {v : Value} (hv : v.isHost = false) (hsub : m.isSubtype v.type declared = true) :
    P v.kind = true := by
  have hbelow : (v.kind == .baseException
      || TypeModel.withBuiltins.isSubtype v.kind declared) = true := by
    rcases Value.kind_cases hv with hk | ⟨hk, hmem⟩
    · rw [hk]
      rfl
    · rw [hk, ← hm.isSubtype_eq (types_known hmem), hsub, Bool.or_true]
  have hall := List.all_eq_true.mp h v.kind (Value.kind_mem hv)
  rwa [hbelow, Bool.not_true, Bool.false_or] at hall

theorem of_onArgs (hm : m.ExtendsBuiltins) {params : List TypeId} {args : List Value}
    (hargs : List.Forall₂ (fun a p => a.isHost = false ∧ m.isSubtype a.type p = true) args params) :
    ∀ {P : List TypeId → Bool}, onArgs params P = true → P (args.map Value.kind) = true := by
  induction hargs with
  | nil => exact id
  | cons harg _ ih => exact fun h => ih (of_onKinds hm h harg.1 harg.2)

end Builtins

/-! ## 2. Calls of declared methods -/

namespace Machine

open Builtins

/-- **What a declared method or function gives is of the declared type,** but for integer powers and
the views of mappings, if the receiver is of a type below the owner and the arguments are of types
below those of the parameters, and none of them is a host object. -/
theorem results_declared {owner : TypeId} {name : String} {sig : Signature}
    (hsig : Declaration.method owner name sig ∈ table)
    (hpower : ¬(owner = .int ∧ name = "__pow__"))
    (hviews : ¬(owner = .dict ∧ name ∈ ["keys", "values", "items"]))
    {ctx : Context} (hm : ctx.compiler.model.ExtendsBuiltins) {args : List Value}
    (hargs : List.Forall₂ (fun a p => a.isHost = false
      ∧ ctx.compiler.model.isSubtype a.type p = true) args sig.params)
    (kwargs : List Keyword) {s s' : Store} {x : Value} :
    (∀ v : Value, v.isHost = false → ctx.compiler.model.isSubtype v.type owner = true →
        callTypeMethod v name args kwargs ctx s = .ok x s' →
        ctx.compiler.model.isSubtype x.type sig.returns = true)
      ∧ (owner = .builtins → callBuiltin name args kwargs ctx s = .ok x s' →
        ctx.compiler.model.isSubtype x.type sig.returns = true) := by
  have huntyped : isUntyped owner name = false := by
    rw [Bool.eq_false_iff]
    intro h
    simp only [isUntyped, Bool.or_eq_true, Bool.and_eq_true, beq_iff_eq] at h
    rcases h with h | ⟨howner, hname⟩
    · exact hpower h
    · exact hviews ⟨howner, by simpa [or_assoc] using hname⟩
  obtain ⟨hmethod, hfunction⟩ := table_declared hsig huntyped
  have hhosts : ∀ a ∈ args, a.isHost = false := fun a ha => by
    obtain ⟨i, hi⟩ := List.mem_iff_getElem?.mp ha
    obtain ⟨p, -, hhost, -⟩ := forall₂_getElem? hargs hi
    exact hhost
  have htrans : ∀ {t : TypeId}, ctx.compiler.model.isSubtype x.type t = true →
      TypeModel.withBuiltins.isSubtype t sig.returns = true →
      ctx.compiler.model.isSubtype x.type sig.returns = true :=
    fun hx ht => TypeModel.isSubtype_trans hm.built.ordered hx (hm.isSubtype_mono ht)
  refine ⟨fun v hv howner h => ?_, fun hbuiltins h => ?_⟩
  · rw [methodDeclared, Bool.or_eq_true, Bool.and_eq_true, Bool.or_eq_true, beq_iff_eq, bne_iff_ne]
      at hmethod
    rcases hmethod with hobject | ⟨hself, hmethod⟩
    · exact TypeModel.isSubtype_iff.mpr (.inr (.inl hobject))
    · rcases callTypeMethod_gives kwargs hv hhosts ctx rfl s x s' h with ⟨hname, rfl⟩ | ⟨t, ht, hx⟩
      · exact htrans howner (hself.resolve_left (not_not_intro hname))
      · have hall := of_onArgs hm hargs (of_onKinds hm hmethod hv howner)
        exact htrans hx (List.all_eq_true.mp hall t ht)
  · have hcovered := hfunction hbuiltins
    rw [functionDeclared, Bool.or_eq_true, beq_iff_eq] at hcovered
    rcases hcovered with hobject | hcovered
    · exact TypeModel.isSubtype_iff.mpr (.inr (.inl hobject))
    · obtain ⟨t, ht, hx⟩ := callBuiltin_gives kwargs hhosts ctx rfl s x s' h
      have hall := of_onArgs hm hargs hcovered
      rw [Option.mem_def.mp ht] at hall
      exact htrans hx hall

/-- The iterator over a generator is declared to be an iterator, and is the generator. The
conjunction of two truth values is one. -/
theorem results_declared_subtypes : ∃ x y : Value,
    callTypeMethod (.bool true) "__and__" [.bool true] [] (plainContext 1) {} = .ok x {}
      ∧ (plainContext 1).compiler.model.isSubtype x.type .bool = true
      ∧ callBuiltin "iter" [.generator 0] [] (plainContext 1) {} = .ok y {} ∧ y.type = .generator
      ∧ (plainContext 1).compiler.model.isSubtype y.type .iterator = true := by
  have hm : (plainContext 1).compiler.model.ExtendsBuiltins := .builtins
  have hbool : (plainContext 1).compiler.model.isSubtype (Value.bool true).type .bool = true :=
    TypeModel.isSubtype_refl _ _
  have hobject : (plainContext 1).compiler.model.isSubtype (Value.generator 0).type .object
      = true := TypeModel.isSubtype_iff.mpr (.inr (.inl rfl))
  have hand : Declaration.method .bool "__and__" { params := [.bool], returns := .bool }
      ∈ table := by
    simp [table, members, numberMembers, each, method]
  have hiter : Declaration.method .builtins "iter" { params := [.object], returns := .iterator }
      ∈ table := by
    simp [table, members, functions, method]
  have hconjunction : callTypeMethod (.bool true) "__and__" [.bool true] [] (plainContext 1) {}
      = .ok (.bool true) {} := rfl
  have hsame : callBuiltin "iter" [.generator 0] [] (plainContext 1) {}
      = .ok (.generator 0) {} := rfl
  exact ⟨.bool true, .generator 0, hconjunction,
    (results_declared hand (by simp) (by simp) hm (.cons ⟨rfl, hbool⟩ .nil) []).1 _ rfl hbool
      hconjunction, hsame, rfl,
    (results_declared hiter (by simp) (by simp) hm (.cons ⟨rfl, hobject⟩ .nil) []).2 rfl hsame⟩

end Machine

end Stackwise
