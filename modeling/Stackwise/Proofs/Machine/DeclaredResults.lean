import Stackwise.Proofs.Analysis.ForetoldResults
import Stackwise.Proofs.Machine.OperatorResults
import Stackwise.Proofs.Machine.TypedOperations

/-!
# Declared results

The table of the builtin types declares what operators give, and the analysis relies on it. Here the
declarations are compared with what the machine computes.

* `TypeModel.checks`: whether every declared overload passes a check.
* `Typer.resolveMethod_declared`: a resolved call is one of a declared overload.
* `Builtins.checks_covered`: the declared results of operators are above what they give.
* `Op.trusted`: the operations whose results the analysis takes on trust.
* `result_fits`: in the model of the builtin types every other result fits what the analysis knows of
  it.
-/

namespace Stackwise

/-! ## 1. Declared overloads -/

namespace TypeModel

/-- Whether every declared overload passes a check of its owner, its name and its signature. -/
def checks (m : TypeModel) (check : TypeId → String → Signature → Bool) : Bool :=
  m.types.toList.zipIdx.all fun d => d.1.methods.all fun x => x.2.all fun s => check ⟨d.2⟩ x.1 s

theorem mem_of_declared {m : TypeModel} {o : TypeId} {name : String} {ss : List Signature}
    (h : m.declared? o name = some ss) : ∃ d, m.get? o = some d ∧ (name, ss) ∈ d.methods := by
  obtain ⟨d, hd, hss⟩ := Option.bind_eq_some_iff.mp h
  obtain ⟨l₁, l₂, hmethods, -⟩ := List.lookup_eq_some_iff.mp hss
  exact ⟨d, hd, by rw [hmethods]; simp⟩

theorem check_of_declared {m : TypeModel} {check : TypeId → String → Signature → Bool}
    (h : m.checks check = true) {o : TypeId} {name : String} {s : Signature}
    (hs : s ∈ (m.declared? o name).getD []) : check o name s = true := by
  cases hss : m.declared? o name with
  | none =>
    rw [hss] at hs
    cases hs
  | some ss =>
    rw [hss] at hs
    obtain ⟨d, hd, hmem⟩ := mem_of_declared hss
    have hat : (d, o.raw) ∈ m.types.toList.zipIdx := by
      rw [List.mk_mem_zipIdx_iff_getElem?, Array.getElem?_toList]
      exact hd
    exact List.all_eq_true.mp (List.all_eq_true.mp (List.all_eq_true.mp h _ hat) _ hmem) s hs

end TypeModel

/-- **The overload of a resolved call** is declared by a type above the receiver, and its parameters
are above the arguments. -/
theorem Typer.resolveMethod_declared {ty : Typer} {receiver : TypeId} {name : String}
    {args : List Slot} {res : Resolved} (h : ty.resolveMethod receiver name args [] = some res) :
    ∃ o, ∃ s ∈ (ty.model.declared? o name).getD [], ty.model.isSubtype receiver o = true
      ∧ List.Forall₂ (fun a p => ty.model.isSubtype a p = true) (args.map Slot.runtimeType) s.params
      ∧ res.result = .value s.returns := by
  obtain ⟨-, hmem, haccepts⟩ := resolveMethod_accepts h
  obtain ⟨o, ho, hdeclared⟩ := List.mem_flatMap.mp hmem
  have hbelow : ty.model.isSubtype receiver o = true := TypeModel.isSubtype_iff.mpr (.inr (.inr ho))
  refine ⟨o, res.signature, hdeclared, hbelow,
    List.forall₂_iff_zip.mpr ⟨haccepts.arity.symm, fun {a p} hzip => ?_⟩, rfl⟩
  obtain ⟨i, hi⟩ := List.mem_iff_getElem?.mp hzip
  obtain ⟨ha, hp⟩ := List.getElem?_zip_eq_some.mp hi
  exact haccepts.positional i a p (List.getElem?_eq_some_iff.mp ha).1 ha hp

theorem Typer.resolveMethod_one {ty : Typer} {receiver : TypeId} {name : String} {arg : Slot}
    {res : Resolved} (h : ty.resolveMethod receiver name [arg] [] = some res) :
    ∃ o p, ∃ s ∈ (ty.model.declared? o name).getD [], s.params = [p]
      ∧ ty.model.isSubtype receiver o = true ∧ ty.model.isSubtype arg.runtimeType p = true
      ∧ res.result = .value s.returns := by
  obtain ⟨o, s, hs, ho, hparams, hresult⟩ := resolveMethod_declared h
  cases hp : s.params with
  | nil =>
    rw [hp] at hparams
    cases hparams
  | cons p rest =>
    rw [hp] at hparams
    cases hparams with
    | cons harg hrest =>
      cases hrest
      exact ⟨o, p, s, hs, hp, ho, harg, hresult⟩

/-! ## 2. The table -/

namespace Builtins

/-- Whether something holds of the types of all values of a declared type. -/
def onTypes (declared : TypeId) (P : TypeId → Bool) : Bool :=
  !TypeModel.lent.contains declared
    && Value.types.all fun t => !TypeModel.withBuiltins.isSubtype t declared || P t

/-- Whether a declared result is above what is given. -/
def covers (returns : TypeId) (t? : Option TypeId) : Bool :=
  t?.all fun t => TypeModel.withBuiltins.isSubtype t returns

/-- The declared results of unary operators are above what they give. -/
def unaryCovered (o : TypeId) (name : String) (s : Signature) : Bool :=
  [UnaryOp.positive, .negative, .invert].all fun op => op.method? != some name
    || onTypes o fun t => covers s.returns (op.resultType? t)

/-- The declared results of binary operators are above what they give: by the method of the left
operand, by the one that changes it in place, and by the exchanged method of the right operand. -/
def binaryCovered (o : TypeId) (name : String) (s : Signature) : Bool :=
  BinaryOp.all.all fun op => op == .power || s.params.all fun p =>
    [false, true].all fun inplace =>
      (name != op.method || onTypes o fun l => onTypes p fun r =>
        covers s.returns (op.resultType? inplace l r))
      && (!inplace || name != op.inplace || onTypes o fun l => onTypes p fun r =>
        covers s.returns (op.resultType? inplace l r))
      && (name != op.reflected || onTypes o fun r => onTypes p fun l =>
        covers s.returns (op.resultType? inplace l r))

/-- The declared results of comparisons are truth values. -/
def comparisonCovered (_ : TypeId) (name : String) (s : Signature) : Bool :=
  Comparison.all.all fun op => name != op.method || covers s.returns (some .bool)

/-- The declared items of containers are above those that they have. -/
def itemCovered (o : TypeId) (name : String) (s : Signature) : Bool :=
  name != "__getitem__" || s.params.all fun p => onTypes o fun container => onTypes p fun key =>
    covers s.returns (itemType? container key)

/-- The declared iterators are above those that are made, and nothing is declared of what comes out
of an iterator or a context manager. -/
def iterationCovered (o : TypeId) (name : String) (s : Signature) : Bool :=
  (name != "__iter__" || onTypes o fun t => covers s.returns (iterType? t))
    && (name != "__next__" || s.returns == .object) && name != "__enter__"

/-- **What the table declares of operators holds of the machine.** -/
theorem checks_covered : TypeModel.withBuiltins.checks (fun o name s =>
    unaryCovered o name s && binaryCovered o name s && comparisonCovered o name s
      && itemCovered o name s && iterationCovered o name s) = true := by
  decide +kernel

theorem covered {o : TypeId} {name : String} {s : Signature}
    (hs : s ∈ (TypeModel.withBuiltins.declared? o name).getD []) :
    unaryCovered o name s = true ∧ binaryCovered o name s = true
      ∧ comparisonCovered o name s = true ∧ itemCovered o name s = true
      ∧ iterationCovered o name s = true := by
  have hcheck := TypeModel.check_of_declared checks_covered hs
  simpa only [Bool.and_eq_true, and_assoc] using hcheck

theorem of_onTypes {declared : TypeId} {P : TypeId → Bool} (h : onTypes declared P = true) {v : Value}
    (hv : v.Fits .withBuiltins declared) (hplain : v.isForeign = false) : P v.type = true := by
  rw [onTypes, Bool.and_eq_true, Bool.not_eq_true'] at h
  obtain ⟨hlent, hall⟩ := h
  have hsub : TypeModel.withBuiltins.isSubtype v.type declared = true := by
    refine hv.resolve_right fun hstands => ?_
    rw [List.contains_iff_mem.mpr hstands.mem] at hlent
    cases hlent
  have hP := List.all_eq_true.mp hall v.type (Value.type_mem hplain)
  rwa [hsub, Bool.not_true, Bool.false_or] at hP

theorem fits_of_covers {returns : TypeId} {t? : Option TypeId} (h : covers returns t? = true)
    {x : Value} (hx : ∃ t ∈ t?, TypeModel.withBuiltins.isSubtype x.type t = true) :
    x.FitsSlot .withBuiltins (.value returns) := by
  obtain ⟨t, rfl, hsub⟩ := hx
  exact Value.Fits.mono .builtins (.inl hsub) h

/-- The types of the data attributes of builtin values. -/
def dataType? : String → Option TypeId
  | "__class__" => some .type
  | "__name__" | "__qualname__" | "co_name" => some .str
  | "__code__" => some .code
  | "args" => some .tuple
  | "__traceback__" => some .traceback
  | "start" | "stop" | "step" | "value" | "__defaults__" | "__self__" | "cell_contents" =>
    some .object
  | _ => none

/-- **What the table declares of attributes holds of the machine:** no method has the name of a data
attribute, and the types of attributes are above those of the data. -/
theorem members_covered : TypeModel.withBuiltins.types.toList.all (fun d =>
    d.methods.all (fun x => (dataType? x.1).isNone)
      && d.attributes.all fun x => (dataType? x.1).any fun t =>
        TypeModel.withBuiltins.isSubtype t x.2) = true := by
  decide +kernel

theorem member_covered {t : TypeId} {d : TypeDef} (h : TypeModel.withBuiltins.get? t = some d) :
    (∀ x ∈ d.methods, dataType? x.1 = none) ∧ ∀ x ∈ d.attributes,
      ∃ u, dataType? x.1 = some u ∧ TypeModel.withBuiltins.isSubtype u x.2 = true := by
  have hcheck := List.all_eq_true.mp members_covered d
    (Array.mem_toList_iff.mpr (Array.mem_of_getElem? h))
  rw [Bool.and_eq_true] at hcheck
  refine ⟨fun x hx => ?_, fun x hx => ?_⟩
  · exact Option.isNone_iff_eq_none.mp (List.all_eq_true.mp hcheck.1 x hx)
  · exact (Option.any_eq_true _ _).mp (List.all_eq_true.mp hcheck.2 x hx)

theorem dataType?_of_hasMethod {t : TypeId} {name : String}
    (h : TypeModel.withBuiltins.hasMethod t name = true) : dataType? name = none := by
  obtain ⟨o, -, ho⟩ := List.any_eq_true.mp h
  obtain ⟨ss, hss⟩ := Option.isSome_iff_exists.mp ho
  obtain ⟨d, hd, hmem⟩ := TypeModel.mem_of_declared hss
  exact (member_covered hd).1 _ hmem

theorem dataType?_of_lookupAttribute {t a : TypeId} {name : String}
    (h : TypeModel.withBuiltins.lookupAttribute t name = some a) :
    ∃ u, dataType? name = some u ∧ TypeModel.withBuiltins.isSubtype u a = true := by
  obtain ⟨o, -, ho⟩ := List.exists_of_findSome?_eq_some h
  obtain ⟨d, hd, ha⟩ := Option.bind_eq_some_iff.mp ho
  obtain ⟨l₁, l₂, hattributes, -⟩ := List.lookup_eq_some_iff.mp ha
  exact (member_covered hd).2 (name, a) (by rw [hattributes]; simp)

end Builtins

/-! ## 3. Operators -/

namespace Machine

open Builtins

variable {ty : Typer} {x v w l r : Value} {lhs rhs : Slot}

/-- A result fits what is known of it if it fits every overload that the call can resolve to. -/
theorem fits_resultOf {res? : Option Resolved}
    (h : ∀ res, res? = some res → x.FitsSlot .withBuiltins res.result) :
    x.FitsSlot .withBuiltins (Resolved.resultOf res?) := by
  cases res? with
  | none => exact Value.fitsSlot_object _ x
  | some res => exact h res rfl

theorem unary_fits (hty : ty.model = .withBuiltins) {op : UnaryOp} (hop : op ≠ .not)
    (hv : v.FitsSlot .withBuiltins lhs) (hplain : v.isForeign = false) :
    Yields .withBuiltins (unary op v) fun x =>
      x.FitsSlot .withBuiltins (Resolved.resultOf (ty.resolveUnary op lhs)) := by
  intro ctx hc st x st' h
  have hgiven := unary_gives hop (Value.isHost_of_isForeign hplain) ctx hc st x st' h
  refine fits_resultOf fun res hres => ?_
  obtain ⟨name, hname, hres⟩ := Option.bind_eq_some_iff.mp hres
  obtain ⟨o, s, hs, ho, -, hresult⟩ := Typer.resolveMethod_declared hres
  rw [hty] at hs ho
  have hop' := List.all_eq_true.mp (covered hs).1 op (by cases op <;> simp at hop ⊢)
  rw [hname, bne_self_eq_false, Bool.false_or] at hop'
  rw [hresult]
  exact fits_of_covers (of_onTypes hop' (Value.Fits.mono .builtins hv ho) hplain) hgiven

theorem binary_covered {op : BinaryOp} (hop : op ≠ .power) (inplace : Bool) {o p : TypeId}
    {name : String} {s : Signature} (hs : s ∈ (TypeModel.withBuiltins.declared? o name).getD [])
    (hp : s.params = [p]) :
    (name = op.method → onTypes o (fun l => onTypes p fun r =>
        covers s.returns (op.resultType? inplace l r)) = true)
      ∧ (inplace = true → name = op.inplace → onTypes o (fun l => onTypes p fun r =>
        covers s.returns (op.resultType? inplace l r)) = true)
      ∧ (name = op.reflected → onTypes o (fun r => onTypes p fun l =>
        covers s.returns (op.resultType? inplace l r)) = true) := by
  have hall := List.all_eq_true.mp (covered hs).2.1 op (by cases op <;> decide)
  rw [hp, beq_eq_false_iff_ne.mpr hop, Bool.false_or, List.all_cons, List.all_nil, Bool.and_true]
    at hall
  have hone := List.all_eq_true.mp hall inplace (by cases inplace <;> decide)
  rw [Bool.and_eq_true, Bool.and_eq_true] at hone
  obtain ⟨⟨hmethod, hinplace⟩, hreflected⟩ := hone
  refine ⟨?_, ?_, ?_⟩
  · rintro rfl
    rwa [bne_self_eq_false, Bool.false_or] at hmethod
  · rintro rfl rfl
    rwa [bne_self_eq_false, Bool.not_true, Bool.false_or, Bool.false_or] at hinplace
  · rintro rfl
    rwa [bne_self_eq_false, Bool.false_or] at hreflected

theorem binary_fits (hty : ty.model = .withBuiltins) {op : BinaryOp} (hop : op ≠ .power)
    (hl : l.FitsSlot .withBuiltins lhs) (hr : r.FitsSlot .withBuiltins rhs)
    (hlplain : l.isForeign = false) (hrplain : r.isForeign = false) (inplace : Bool) :
    Yields .withBuiltins (binary op l r inplace) fun x =>
      x.FitsSlot .withBuiltins (Resolved.resultOf (ty.resolveBinary op inplace lhs rhs)) := by
  intro ctx hc st x st' h
  have hgiven := binary_gives hop (Value.isHost_of_isForeign hlplain)
    (Value.isHost_of_isForeign hrplain) inplace ctx hc st x st' h
  refine fits_resultOf fun res hres => ?_
  have hcases : (inplace = true ∧ ty.resolveMethod lhs.runtimeType op.inplace [rhs] [] = some res)
      ∨ ty.resolveMethod lhs.runtimeType op.method [rhs] [] = some res
      ∨ ty.resolveMethod rhs.runtimeType op.reflected [lhs] [] = some res := by
    simp only [Typer.resolveBinary, Option.or_eq_some_iff] at hres
    rcases hres with hupdated | ⟨-, hres⟩
    · split at hupdated
      · exact .inl ⟨‹_›, hupdated⟩
      · cases hupdated
    · split at hres
      · rcases Option.or_eq_some_iff.mp hres with hreflected | ⟨-, hforward⟩
        · exact .inr (.inr hreflected)
        · exact .inr (.inl hforward)
      · rcases Option.or_eq_some_iff.mp hres with hforward | ⟨-, hreflected⟩
        · exact .inr (.inl hforward)
        · exact .inr (.inr hreflected)
  rcases hcases with ⟨hinplace, hres⟩ | hres | hres
  all_goals
    obtain ⟨o, p, s, hs, hp, ho, hp', hresult⟩ := Typer.resolveMethod_one hres
    rw [hty] at hs ho hp'
    obtain ⟨hmethod, hupdate, hreflected⟩ := binary_covered hop inplace hs hp
    rw [hresult]
  · exact fits_of_covers (of_onTypes (of_onTypes (hupdate hinplace rfl)
      (Value.Fits.mono .builtins hl ho) hlplain) (Value.Fits.mono .builtins hr hp') hrplain) hgiven
  · exact fits_of_covers (of_onTypes (of_onTypes (hmethod rfl)
      (Value.Fits.mono .builtins hl ho) hlplain) (Value.Fits.mono .builtins hr hp') hrplain) hgiven
  · exact fits_of_covers (of_onTypes (of_onTypes (hreflected rfl)
      (Value.Fits.mono .builtins hr ho) hrplain) (Value.Fits.mono .builtins hl hp') hlplain) hgiven

theorem compare_fits (hty : ty.model = .withBuiltins) {op : Comparison} (hl : l.isHost = false)
    (hr : r.isHost = false) : Yields .withBuiltins (compare op l r) fun x =>
      x.FitsSlot .withBuiltins (Resolved.resultOf (ty.resolveCompare op lhs rhs)) := by
  intro ctx hc st x st' h
  have hgiven := compare_gives hl hr ctx hc st x st' h
  refine fits_resultOf fun res hres => ?_
  have hdeclared : ∀ {op : Comparison} {receiver arg : Slot},
      ty.resolveMethod receiver.runtimeType op.method [arg] [] = some res →
      x.FitsSlot .withBuiltins res.result := by
    intro op receiver arg hres
    obtain ⟨o, s, hs, -, -, hresult⟩ := Typer.resolveMethod_declared hres
    rw [hty] at hs
    have hop := List.all_eq_true.mp (covered hs).2.2.1 op (by cases op <;> decide)
    rw [bne_self_eq_false, Bool.false_or] at hop
    rw [hresult]
    exact fits_of_covers hop hgiven
  rcases Option.or_eq_some_iff.mp hres with hres | ⟨-, hres⟩
  · exact hdeclared hres
  · exact hdeclared hres

theorem getItem_fits (hty : ty.model = .withBuiltins) (hl : l.FitsSlot .withBuiltins lhs)
    (hr : r.FitsSlot .withBuiltins rhs) (hlplain : l.isForeign = false)
    (hrplain : r.isForeign = false) : Yields .withBuiltins (getItem l r) fun x =>
      x.FitsSlot .withBuiltins
        (Resolved.resultOf (ty.resolveMethod lhs.runtimeType "__getitem__" [rhs] [])) := by
  intro ctx hc st x st' h
  have hgiven := getItem_gives (Value.isHost_of_isForeign hlplain) ctx hc st x st' h
  refine fits_resultOf fun res hres => ?_
  obtain ⟨o, p, s, hs, hp, ho, hp', hresult⟩ := Typer.resolveMethod_one hres
  rw [hty] at hs ho hp'
  have hitem := (covered hs).2.2.2.1
  rw [itemCovered, bne_self_eq_false, Bool.false_or, hp, List.all_cons, List.all_nil, Bool.and_true]
    at hitem
  rw [hresult]
  exact fits_of_covers (of_onTypes (of_onTypes hitem (Value.Fits.mono .builtins hl ho) hlplain)
    (Value.Fits.mono .builtins hr hp') hrplain) hgiven

theorem iter_fits (hty : ty.model = .withBuiltins) (hv : v.FitsSlot .withBuiltins lhs)
    (hplain : v.isForeign = false) : Yields .withBuiltins (iter v) fun x =>
      x.FitsSlot .withBuiltins (ty.iterSlot lhs) := by
  intro ctx hc st x st' h
  have hgiven := iter_gives (Value.isHost_of_isForeign hplain) ctx hc st x st' h
  refine fits_resultOf fun res hres => ?_
  obtain ⟨o, s, hs, ho, -, hresult⟩ := Typer.resolveMethod_declared hres
  rw [hty] at hs ho
  have hiter := (covered hs).2.2.2.2
  rw [iterationCovered, bne_self_eq_false, Bool.false_or, Bool.and_eq_true, Bool.and_eq_true]
    at hiter
  rw [hresult]
  exact fits_of_covers (of_onTypes hiter.1.1 (Value.Fits.mono .builtins hv ho) hplain) hgiven

/-- The iterator over a generator is the generator. -/
theorem yieldFromIter_fits (hty : ty.model = .withBuiltins) (hv : v.FitsSlot .withBuiltins lhs)
    (hplain : v.isForeign = false) : Yields .withBuiltins (iter v) fun x =>
      x.FitsSlot .withBuiltins
        (if ty.model.isSubtype lhs.runtimeType TypeId.generator then lhs else ty.iterSlot lhs) := by
  intro ctx hc st x st' h
  split
  · rename_i hgenerator
    rw [hty] at hgenerator
    have hsame : onTypes .generator (fun t => iterType? t == some t) = true := by decide +kernel
    have htype := of_onTypes hsame (Value.Fits.mono .builtins hv hgenerator) hplain
    obtain ⟨t, ht, hsub⟩ := iter_gives (Value.isHost_of_isForeign hplain) ctx hc st x st' h
    rw [beq_iff_eq.mp htype] at ht
    cases ht
    rcases hv with hv | hstands
    · exact Value.Fits.mono .builtins (.inl hsub) hv
    · rcases TypeModel.ExtendsBuiltins.builtins.eq_of_lent hstands.mem hgenerator with heq | heq
      · have hmem := hstands.mem
        rw [← heq] at hmem
        exact absurd hmem (by decide)
      · cases heq
  · exact iter_fits hty hv hplain ctx hc st x st' h

/-- Nothing is known of what comes out of an iterator. -/
theorem nextSlot_eq (hty : ty.model = .withBuiltins) (slot : Slot) :
    (ty.nextSlot slot).runtimeType = .object := by
  unfold Typer.nextSlot
  cases hres : ty.resolveMethod slot.runtimeType "__next__" [] [] with
  | none => rfl
  | some res =>
    obtain ⟨o, s, hs, -, -, hresult⟩ := Typer.resolveMethod_declared hres
    rw [hty] at hs
    have hnext := (covered hs).2.2.2.2
    rw [iterationCovered, bne_self_eq_false, Bool.false_or, Bool.and_eq_true, Bool.and_eq_true,
      beq_iff_eq] at hnext
    rw [Resolved.resultOf, hresult, Slot.runtimeType, hnext.1.2]

/-- Nothing is known of what a context manager is entered with. -/
theorem resolveEnter_eq (hty : ty.model = .withBuiltins) (receiver : TypeId) :
    ty.resolveMethod receiver "__enter__" [] [] = none := by
  cases hres : ty.resolveMethod receiver "__enter__" [] [] with
  | none => rfl
  | some res =>
    obtain ⟨o, s, hs, -⟩ := Typer.resolveMethod_declared hres
    rw [hty] at hs
    have henter := (covered hs).2.2.2.2
    rw [iterationCovered, bne_self_eq_false, Bool.and_false] at henter
    cases henter

/-! ## 4. Attributes and global names -/

variable {m : TypeModel} {name : String}

/-- The value is of the type that data attributes of this name have. -/
def IsData (m : TypeModel) (name : String) (x : Value) : Prop :=
  ∃ t ∈ dataType? name, m.isSubtype x.type t = true

theorem isData_of_type (h : dataType? name = some x.type) : IsData m name x :=
  ⟨_, h, m.isSubtype_refl _⟩

theorem isData_of_object (h : dataType? name = some .object) : IsData m name x :=
  ⟨.object, h, TypeModel.isSubtype_iff.mpr (.inr (.inl rfl))⟩

theorem functionAttribute?_isData {f : Function} (h : functionAttribute? f name = some x) :
    IsData m name x := by
  unfold functionAttribute? at h
  split at h
  · cases h
    exact isData_of_type rfl
  · cases h
    exact isData_of_type rfl
  · cases h
    exact isData_of_type rfl
  · exact isData_of_object rfl
  · cases h

theorem exceptionAttribute?_isData {ref : Nat} {t : TypeId} :
    Yields m (exceptionAttribute? ref t name) fun x? => ∀ x ∈ x?, IsData m name x := by
  intro ctx _ st x? st' h x hx
  subst hx
  obtain ⟨s, s₁, -, h⟩ := run_bind_eq_ok.mp h
  split at h
  · cases h
    exact isData_of_type rfl
  · cases h
    exact isData_of_type rfl
  · exact isData_of_object rfl
  · cases h

/-- The data attributes of builtin values are of their types. -/
theorem dataAttribute?_isData :
    Yields m (dataAttribute? v name) fun x? => ∀ x ∈ x?, IsData m name x := by
  intro ctx hc st x? st' h x hx
  subst hx
  obtain ⟨s, s₁, -, h⟩ := run_bind_eq_ok.mp h
  split at h
  · rename_i hname
    rw [beq_iff_eq] at hname
    subst hname
    cases h
    exact isData_of_type rfl
  · split at h
    · exact exceptionAttribute?_isData ctx hc _ _ _ h x rfl
    · cases h
      exact isData_of_type rfl
    · exact isData_of_object rfl
    · exact isData_of_object rfl
    · exact isData_of_object rfl
    · exact isData_of_object rfl
    · exact isData_of_object rfl
    · exact isData_of_object rfl
    · exact functionAttribute?_isData (EStateM.Result.ok.inj h).1
    · exact isData_of_object rfl
    · cases h
      exact isData_of_type rfl
    · cases h
      exact isData_of_type rfl
    · cases h
      exact isData_of_type rfl
    · exact isData_of_object rfl
    · cases h
      exact isData_of_type rfl
    · cases h

/-- An attribute of a builtin value is data or a method. -/
theorem getAttr_cases (hv : v.isHost = false) : Yields m (getAttr v name) fun x =>
    IsData m name x ∨ hasTypeMethod m v name = true ∧ x.type = .method := by
  intro ctx hc st x st' h
  obtain ⟨native?, s₁, hnative, h⟩ := run_bind_eq_ok.mp h
  have hnone : native? = none := by
    cases v with
    | native _ _ => cases hv
    | _ =>
      cases hnative
      rfl
  subst hnone
  obtain ⟨data?, s₂, hdata, h⟩ := run_bind_eq_ok.mp h
  cases data? with
  | some y =>
    cases h
    exact .inl (dataAttribute?_isData ctx hc _ _ _ hdata x rfl)
  | none =>
    obtain ⟨m', s₃, hm', h⟩ := run_bind_eq_ok.mp h
    cases hm'
    split at h
    · rename_i hmethod
      cases h
      exact .inr ⟨hc ▸ hmethod, rfl⟩
    · obtain ⟨_, _, -, h⟩ := run_bind_eq_ok.mp h
      cases h

theorem hasMethod_of_hasTypeMethod (h : hasTypeMethod m v name = true) :
    m.hasMethod v.type name = true := by
  unfold hasTypeMethod at h
  split at h
  · cases h
  · cases h
  · exact h

/-- A method is found unless there are data of its name. -/
theorem getAttr_method (hv : v.isHost = false) (hname : dataType? name = none) :
    Yields m (getAttr v name) fun x => x.type = .method := by
  intro ctx hc st x st' h
  rcases getAttr_cases hv ctx hc st x st' h with ⟨t, ht, -⟩ | ⟨-, hmethod⟩
  · rw [hname] at ht
    cases ht
  · exact hmethod

theorem getAttr_fits (hty : ty.model = .withBuiltins) (hv : v.isHost = false) :
    Yields .withBuiltins (getAttr v name) fun x =>
      x.FitsSlot .withBuiltins (ty.attrSlot lhs name) := by
  intro ctx hc st x st' h
  unfold Typer.attrSlot
  rw [hty]
  split
  · dsimp only
    split
    · rename_i hmethod
      exact Value.fits_of_type (getAttr_method hv (dataType?_of_hasMethod hmethod) ctx hc st x st' h)
    · split
      · rename_i a ha
        obtain ⟨u, hu, hsub⟩ := dataType?_of_lookupAttribute ha
        rcases getAttr_cases hv ctx hc st x st' h with ⟨t, ht, hdata⟩ | ⟨hmethod, -⟩
        · rw [hu] at ht
          cases ht
          exact Value.Fits.mono .builtins (.inl hdata) hsub
        · rw [dataType?_of_hasMethod (hasMethod_of_hasTypeMethod hmethod)] at hu
          cases hu
      · exact Value.fitsSlot_object _ x
  · exact Value.fitsSlot_object _ x

/-- A name that is not shadowed is what the model says. -/
theorem loadGlobal_fits (hty : ty.model = .withBuiltins) {nameId : Ident} {ctx : Context}
    (hc : ctx.compiler.model = .withBuiltins) {st st' : Store}
    (hfree : TypeModel.withBuiltins.lookupGlobal name = none ∨ st.globals.lookup name = none)
    (h : loadGlobal nameId name ctx st = .ok x st') :
    x.FitsSlot .withBuiltins (ty.globalSlot name) := by
  have hbuiltin : ∀ {g : GlobalBinding}, TypeModel.withBuiltins.lookupGlobal name = some g →
      (∃ t, g = .classObject t ∧ x = .classObject t) ∨ g = .function ∧ x = .builtin nameId name := by
    intro g hg
    rcases hfree with hnone | hnone
    · rw [hg] at hnone
      cases hnone
    · obtain ⟨s, s₁, hs, h⟩ := run_bind_eq_ok.mp h
      cases hs
      rw [hnone] at h
      obtain ⟨m, s₂, hm, h⟩ := run_bind_eq_ok.mp h
      cases hm
      rw [hc, hg] at h
      cases g with
      | classObject t =>
        cases h
        exact .inl ⟨t, rfl, rfl⟩
      | function =>
        cases h
        exact .inr ⟨rfl, rfl⟩
  unfold Typer.globalSlot
  rw [hty]
  split
  · split
    · rename_i t hglobal
      obtain ⟨u, hu, rfl⟩ | ⟨hu, -⟩ := hbuiltin hglobal
      · exact Value.fits_of_type rfl
      · cases hu
    · rename_i hglobal
      obtain ⟨u, hu, -⟩ | ⟨-, rfl⟩ := hbuiltin hglobal
      · cases hu
      · exact .inr rfl
    · exact Value.fitsSlot_object _ x
  · exact Value.fitsSlot_object _ x

end Machine

/-! ## 5. Results -/

/-- The operations whose results the analysis takes on trust: powers and calls, what host objects
answer, data that go by the name of a method, and names that shadow a builtin one. -/
def Op.trusted (stack : List Value) (globals : List (String × Value)) : Op → Bool
  | .unary _ | .getIter | .getYieldFromIter => (stack.take 1).any Value.isForeign
  | .binary op _ => op == .power || (stack.take 2).any Value.isForeign
  | .binarySubscr => (stack.take 2).any Value.isForeign
  | .compare _ => (stack.take 2).any Value.isHost
  | .loadAttr _ => (stack.take 1).any Value.isHost
  | .loadMethod name => (Builtins.dataType? name).isSome || (stack.take 1).any Value.isHost
  | .loadGlobal name _ | .loadName name _ =>
    (TypeModel.withBuiltins.lookupGlobal name).isSome && (globals.lookup name).isSome
  | .callFunction _ | .callFunctionKw _ | .callFunctionEx _ | .callMethod _
  | .withExceptStart => true
  | _ => false

namespace Machine

open Builtins

variable {ty : Typer} {x v : Value}
  {p : Program} {s t : AbstractState} {f : Frame} {ctx : Context} {st : Store}
  {a : Activation} {op : Op} {o : Nat} {tr : Transfer} {lowering : Lowering}

theorem pop_eq_ok (h : pop ctx ⟨f, st⟩ = .ok v a) :
    ∃ rest, f.stack = v :: rest ∧ a = ⟨{ f with stack := rest }, st⟩ := by
  unfold pop at h
  rw [onStack_run] at h
  cases hf : f.stack with
  | nil =>
    rw [hf] at h
    cases h
  | cons top rest =>
    rw [hf] at h
    cases h
    exact ⟨rest, rfl, rfl⟩

theorem lift_eq_ok {α : Type} {act : Action α} {y : α}
    (h : (liftM act : FrameAction α) ctx ⟨f, st⟩ = .ok y a) :
    ∃ st', act ctx st = .ok y st' ∧ a = ⟨f, st'⟩ := by
  change inFrame act ctx ⟨f, st⟩ = .ok y a at h
  unfold inFrame at h
  dsimp only at h
  split at h
  · rename_i y' st' hact
    cases h
    exact ⟨st', hact, rfl⟩
  · cases h

theorem pushed_eq_ok {act : Action Value}
    (h : (do push (← act) : FrameAction Unit) ctx ⟨f, st⟩ = .ok () a) :
    ∃ x st', act ctx st = .ok x st' ∧ a.frame.stack = x :: f.stack := by
  obtain ⟨x, a₁, hx, h⟩ := run_bind_eq_ok.mp h
  obtain ⟨st', hact, rfl⟩ := lift_eq_ok hx
  cases h
  exact ⟨x, st', hact, rfl⟩

theorem typed_top {m : TypeModel} (hf : f.Typed m p s) {vs : List Value}
    (hstack : f.stack = v :: vs) {slot : Slot} (hslot : s.stack[0]? = some slot) :
    v.FitsSlot m slot := by
  obtain ⟨slot', hslot', hv⟩ := forall₂_getElem? hf.stack (i := 0) (a := v) (by rw [hstack]; rfl)
  rw [hslot] at hslot'
  cases hslot'
  exact hv

/-- The top of a stack fits if the topmost value does. -/
theorem forall₂_top {m : TypeModel} {vs : List Value} {slots : List Slot} {slot : Slot}
    (h : x.FitsSlot m slot) : List.Forall₂ (Value.FitsSlot m) ((x :: vs).take 1)
      ((slot :: slots).take 1) :=
  .cons h .nil

theorem next_goOn {s t : AbstractState} (h : (.next, t) ∈ Op.goOn s) : t = s := by
  cases h with
  | head => rfl
  | tail _ hmem => cases hmem

theorem next_branch {s t u : AbstractState} {target : Nat}
    (h : (.next, t) ∈ Op.branch s target u) : t = s := by
  cases h with
  | head => rfl
  | tail _ hmem =>
    cases hmem with
    | tail _ hmem => cases hmem

/-- The result of an operator on the top value. -/
theorem mapTop_fits {m : TypeModel} (hc : ctx.compiler.model = m) (hf : f.Typed m p s)
    {g : Slot → Slot} (he : Op.mapTop g o s = .ok tr) (ht : (.next, t) ∈ tr)
    {act : Value → Action Value}
    (h : (do push (← act (← pop)) : FrameAction Unit) ctx ⟨f, st⟩ = .ok () a)
    (hact : ∀ {v slot}, f.stack.take 1 = [v] → v.FitsSlot m slot →
      Yields m (act v) fun x => x.FitsSlot m (g slot)) :
    List.Forall₂ (Value.FitsSlot m) (a.frame.stack.take 1) (t.stack.take 1) := by
  obtain ⟨-, slot, hslot, rfl⟩ := Op.mapTop_less he
  obtain rfl := next_goOn ht
  obtain ⟨v, a₁, hv, h⟩ := run_bind_eq_ok.mp h
  obtain ⟨rest, hstack, rfl⟩ := pop_eq_ok hv
  obtain ⟨x, st', hx, ha⟩ := pushed_eq_ok h
  rw [ha]
  exact forall₂_top (hact (by rw [hstack]; rfl) (typed_top hf hstack hslot) ctx hc st x st' hx)

/-- The result of an operator on the two topmost values. -/
theorem mapTwo_fits {m : TypeModel} (hc : ctx.compiler.model = m) (hf : f.Typed m p s)
    {g : Slot → Slot → Slot} (he : Op.mapTwo g o s = .ok tr) (ht : (.next, t) ∈ tr)
    {act : Value → Value → Action Value}
    (h : (do
      let r ← pop
      let l ← pop
      push (← act l r) : FrameAction Unit) ctx ⟨f, st⟩ = .ok () a)
    (hact : ∀ {l r lhs rhs}, f.stack.take 2 = [r, l] → l.FitsSlot m lhs →
      r.FitsSlot m rhs → Yields m (act l r) fun x => x.FitsSlot m (g lhs rhs)) :
    List.Forall₂ (Value.FitsSlot m) (a.frame.stack.take 1) (t.stack.take 1) := by
  obtain ⟨-, lhs, rhs, hlhs, hrhs, rfl⟩ := Op.mapTwo_less he
  obtain rfl := next_goOn ht
  obtain ⟨r, a₁, hr, h⟩ := run_bind_eq_ok.mp h
  obtain ⟨rest₁, hstack₁, rfl⟩ := pop_eq_ok hr
  obtain ⟨l, a₂, hl, h⟩ := run_bind_eq_ok.mp h
  obtain ⟨rest, hstack, rfl⟩ := pop_eq_ok hl
  dsimp only at hstack
  subst hstack
  obtain ⟨x, st', hx, ha⟩ := pushed_eq_ok h
  have hstack := hf.stack
  rw [hstack₁] at hstack
  obtain ⟨slot, hslot, hrfits⟩ := forall₂_getElem? hstack (i := 0) (a := r) rfl
  rw [hrhs] at hslot
  cases hslot
  obtain ⟨slot, hslot, hlfits⟩ := forall₂_getElem? hstack (i := 1) (a := l) rfl
  rw [hlhs] at hslot
  cases hslot
  rw [ha]
  exact forall₂_top (hact (by rw [hstack₁]; rfl) hlfits hrfits ctx hc st x st' hx)

theorem performed_eq_ok {c : Nat × Nat} (hc : op.arity? = some c) (hs : op.isSwitch = false)
    (h : operate op lowering ctx ⟨f, st⟩ = .ok .next a) :
    perform op lowering ctx ⟨f, st⟩ = .ok () a := by
  rw [operate_of_arity hc hs] at h
  obtain ⟨_, a₁, hperform, h⟩ := run_bind_eq_ok.mp h
  cases h
  exact hperform

theorem enterWith_eq_ok (h : enterWith ctx ⟨f, st⟩ = .ok () a) :
    ∃ x rest, a.frame.stack = x :: rest := by
  obtain ⟨manager, a₁, -, h⟩ := run_bind_eq_ok.mp h
  obtain ⟨exit, a₂, -, h⟩ := run_bind_eq_ok.mp h
  obtain ⟨enter, a₃, -, h⟩ := run_bind_eq_ok.mp h
  obtain ⟨_, a₄, -, h⟩ := run_bind_eq_ok.mp h
  obtain ⟨x, st', -, hx⟩ := pushed_eq_ok h
  exact ⟨x, _, hx⟩

/-- **Results are of their declared types** in the model of the builtin types, unless the analysis
takes them on trust. -/
theorem result_fits (hty : ty.model = .withBuiltins) (hc : ctx.compiler.model = .withBuiltins)
    (hf : f.Typed .withBuiltins p s) (he : op.effect ty o s = .ok tr)
    (h : operate op lowering ctx ⟨f, st⟩ = .ok .next a)
    (htrusted : op.trusted f.stack st.globals = false) (ht : (.next, t) ∈ tr) :
    List.Forall₂ (Value.FitsSlot .withBuiltins) (a.frame.stack.take op.vouched)
      (t.stack.take op.vouched) := by
  have hplain : f.Typed .withBuiltins p { s with keywords := none } :=
    ⟨hf.program, hf.stack, hf.locals⟩
  unfold Op.effect at he
  cases op with
  | unary op =>
    cases op with
    | not => exact .nil
    | positive | negative | invert =>
      refine mapTop_fits hc hplain he ht (performed_eq_ok rfl rfl h) fun hstack hv =>
        unary_fits hty (by decide) hv ?_
      simpa only [Op.trusted, hstack, List.any_cons, List.any_nil, Bool.or_false] using htrusted
  | getIter =>
    refine mapTop_fits hc hplain he ht (performed_eq_ok rfl rfl h) fun hstack hv =>
      iter_fits hty hv ?_
    simpa only [Op.trusted, hstack, List.any_cons, List.any_nil, Bool.or_false] using htrusted
  | getYieldFromIter =>
    refine mapTop_fits hc hplain he ht (performed_eq_ok rfl rfl h) fun hstack hv =>
      yieldFromIter_fits hty hv ?_
    simpa only [Op.trusted, hstack, List.any_cons, List.any_nil, Bool.or_false] using htrusted
  | loadAttr name =>
    refine mapTop_fits hc hplain he ht (performed_eq_ok rfl rfl h) fun hstack hv =>
      getAttr_fits hty ?_
    simpa only [Op.trusted, hstack, List.any_cons, List.any_nil, Bool.or_false] using htrusted
  | binary op inplace =>
    refine mapTwo_fits hc hplain he ht (performed_eq_ok rfl rfl h) fun hstack hl hr => ?_
    simp only [Op.trusted, hstack, List.any_cons, List.any_nil, Bool.or_false, Bool.or_eq_false_iff,
      beq_eq_false_iff_ne] at htrusted
    exact binary_fits hty htrusted.1 hl hr htrusted.2.2 htrusted.2.1 inplace
  | binarySubscr =>
    refine mapTwo_fits hc hplain he ht (performed_eq_ok rfl rfl h) fun hstack hl hr => ?_
    simp only [Op.trusted, hstack, List.any_cons, List.any_nil, Bool.or_false,
      Bool.or_eq_false_iff] at htrusted
    exact getItem_fits hty hl hr htrusted.2 htrusted.1
  | compare op =>
    refine mapTwo_fits hc hplain he ht (performed_eq_ok rfl rfl h) fun hstack hl hr => ?_
    simp only [Op.trusted, hstack, List.any_cons, List.any_nil, Bool.or_false,
      Bool.or_eq_false_iff] at htrusted
    exact compare_fits hty htrusted.2 htrusted.1
  | loadGlobal name entry | loadName name entry =>
    cases he
    obtain rfl := next_goOn ht
    obtain ⟨g, a₁, hg, h⟩ := run_bind_eq_ok.mp (performed_eq_ok rfl rfl h)
    cases hg
    obtain ⟨x, st', hx, ha⟩ := pushed_eq_ok h
    rw [ha]
    refine forall₂_top (loadGlobal_fits hty hc ?_ hx)
    simpa only [Op.trusted, Bool.and_eq_false_iff, Option.isSome_eq_false_iff,
      Option.isNone_iff_eq_none] using htrusted
  | loadMethod name =>
    obtain ⟨⟨slot, rest⟩, hpop, he⟩ := bind_eq_ok.mp he
    cases he
    obtain rfl := next_goOn ht
    obtain ⟨-, hslot, -⟩ := Op.pop_less hpop
    obtain ⟨v, a₁, hv, h⟩ := run_bind_eq_ok.mp (performed_eq_ok rfl rfl h)
    obtain ⟨vs, hstack, rfl⟩ := pop_eq_ok hv
    obtain ⟨method, a₂, hlift, h⟩ := run_bind_eq_ok.mp h
    obtain ⟨st', hmethod, rfl⟩ := lift_eq_ok hlift
    cases h
    rw [hstack] at htrusted
    have hfits := typed_top hf hstack hslot
    simp only [Op.trusted, List.take_succ_cons, List.take_zero, List.any_cons, List.any_nil,
      Bool.or_false, Bool.or_eq_false_iff, Option.isSome_eq_false_iff, Option.isNone_iff_eq_none]
      at htrusted
    have htype := getAttr_method htrusted.2 htrusted.1 ctx hc _ _ _ hmethod
    exact .cons hfits (.cons (Value.fits_of_type htype) .nil)
  | forIter exit =>
    obtain ⟨⟨slot, rest⟩, hpop, he⟩ := bind_eq_ok.mp he
    cases he
    obtain rfl := next_branch ht
    obtain ⟨v, a₁, hv, h⟩ := run_bind_eq_ok.mp h
    obtain ⟨item, a₂, hitem, h⟩ := run_bind_eq_ok.mp h
    cases item with
    | none =>
      obtain ⟨_, a₃, -, h⟩ := run_bind_eq_ok.mp h
      cases h
    | some x =>
      cases h
      refine forall₂_top ?_
      rw [Value.FitsSlot, nextSlot_eq hty]
      exact Value.fits_object _ x
  | setupWith handler =>
    obtain ⟨⟨slot, rest⟩, hpop, he⟩ := bind_eq_ok.mp he
    obtain ⟨taken, -, he⟩ := bind_eq_ok.mp he
    cases he
    obtain rfl := next_branch ht
    rw [resolveEnter_eq hty]
    obtain ⟨_, a₁, henter, h⟩ := run_bind_eq_ok.mp h
    cases h
    obtain ⟨x, vs, hx⟩ := enterWith_eq_ok henter
    rw [hx]
    exact forall₂_top (Value.fitsSlot_object _ x)
  | callFunction _ | callFunctionKw _ | callFunctionEx _ | callMethod _ | withExceptStart =>
    cases htrusted
  | _ => exact .nil

end Machine

end Stackwise
