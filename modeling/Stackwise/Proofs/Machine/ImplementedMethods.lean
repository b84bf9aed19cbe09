import Stackwise.Proofs.Machine.DeclaredMethods
import Stackwise.Proofs.Machine.DirectCalls
import Stackwise.Proofs.Types.SearchOrders
import Stackwise.Proofs.Types.Overloads

/-!
# Declared methods are implemented

The table declares methods of types, and a call looks for them by the kind of the receiver. Which of
the declared methods a call finds, whatever the arguments are.

* `refusal`: what a call ends in that finds no method. `callTypeMethodOr`: calls with anything else
  in its place.
* `lacksMethod`: truth values do not count their bits, although integers do, and exceptions have no
  methods of other builtin types.
* `kindMethod_finds`: the methods that the values of a kind have of their own.
* `Builtins.table_implemented`: the table declares no others, but for special methods.
* `declared_methods_implemented`: the methods of the table are found unless they are lacking, as
  attributes and by calls.
* `truth_value_lacks_bit_length`: a method that is declared and not found.
-/

namespace Stackwise

/-! ## 1. Declarations of extended models -/

namespace TypeModel

variable {m m' : TypeModel} {t owner : TypeId} {name : String} {sig : Signature}

/-- What declarations do to the overloads of a method. -/
theorem overloads_extend {ds : List Declaration} (hds : m.extend ds = .ok m') (t : TypeId)
    (name : String) : m'.overloads t name = m.overloads t name ++ ds.flatMap (·.added t name) := by
  induction ds generalizing m with
  | nil =>
    cases hds
    exact (List.append_nil _).symm
  | cons d ds ih =>
    rw [extend] at hds
    split at hds
    · rename_i hd
      rw [ih hds, overloads_declareOne hd, List.append_assoc, List.flatMap_cons]
    · cases hds

/-- No declaration of the table is refused. -/
theorem extend_table : empty.extend Builtins.table = .ok withBuiltins := by
  cases h : empty.extend Builtins.table with
  | ok m => rw [withBuiltins, h]
  | error e =>
    have hsize : 1 < withBuiltins.size := ExtendsBuiltins.builtins.size
    have hempty : withBuiltins = empty := by rw [withBuiltins, h]
    rw [hempty] at hsize
    exact absurd hsize (by decide)

/-- Every model that extends that of the builtin types has the methods of the table. -/
theorem ExtendsBuiltins.mem_overloads (hm : m.ExtendsBuiltins)
    (hsig : Declaration.method owner name sig ∈ Builtins.table) :
    { sig with owner } ∈ m.overloads owner name := by
  induction hm with
  | builtins =>
    rw [overloads_extend extend_table]
    refine List.mem_append_right _ (List.mem_flatMap.mpr ⟨_, hsig, ?_⟩)
    rw [Declaration.added, if_pos ⟨rfl, rfl⟩]
    exact List.mem_singleton_self _
  | @call m d _ ih =>
    rcases m.call_cases d with ⟨answer, -, hd⟩ | ⟨e, -, -, hm⟩
    · rw [overloads_declareOne hd]
      exact List.mem_append_left _ ih
    · rwa [hm]

/-- The search order of a type leads to every known type above it. -/
theorem Built.mem_order (hm : m.Built) (howner : owner.raw < m.size)
    (h : m.isSubtype t owner = true) : owner ∈ m.order t := by
  by_cases ht : t.raw < m.size
  · exact (hm.rooted.isSubtype_iff_mem ht).mp h
  · have hunknown : m.get? t = none := Array.getElem?_eq_none (Nat.le_of_not_lt ht)
    have horder : m.order t = [TypeId.object] := by rw [order, hunknown]
    rcases isSubtype_iff.mp h with rfl | rfl | hmem
    · exact absurd howner ht
    · rw [horder]
      exact .head _
    · exact hmem

/-- The types below the owner of a method have it. -/
theorem Built.hasMethod (hm : m.Built) (hsig : sig ∈ m.overloads owner name)
    (h : m.isSubtype t owner = true) : m.hasMethod t name = true := by
  rw [overloads] at hsig
  cases hdeclared : m.declared? owner name with
  | none =>
    rw [hdeclared] at hsig
    cases hsig
  | some ss =>
    obtain ⟨d, hd, -⟩ := Option.bind_eq_some_iff.mp hdeclared
    have hknown : owner.raw < m.size := get?_isSome_iff.mp (Option.isSome_of_eq_some hd)
    refine List.any_eq_true.mpr ⟨owner, hm.mem_order hknown h, ?_⟩
    rw [hdeclared]
    rfl

end TypeModel

namespace Machine

variable {v : Value} {name : String} {args : List Value} {kwargs : List Keyword}

/-! ## 2. Calls with another end -/

/-- Raises the exception of a method that is declared and not found. -/
def unimplemented (v : Value) (name : String) : Action Value := do
  raiseText TypeId.notImplementedError
    ("'" ++ (← typeName v) ++ "." ++ name ++ "' is not implemented")

/-- What the call of a method ends in that is not found. -/
def refusal (v : Value) (name : String) : Action Value := do
  if (← model).hasMethod v.type name then unimplemented v name
  else attributeError (← typeName v) name

/-- Calls a method without keyword arguments; `last` is for methods that are not found. -/
def callPlainMethodOr (last : Action Value) (v : Value) (name : String) (args : List Value) :
    Action Value := do
  match ← kindMethod? v name args with
  | some result => return result
  | none =>
    match specialMethod? v name args with
    | some act => act
    | none => last

/-- Calls a method; `last` is for methods that are not found. -/
def callTypeMethodOr (last : Action Value) (v : Value) (name : String) (args : List Value)
    (kwargs : List Keyword) : Action Value := do
  match v, name with
  | .list r, "sort" => sortList r args kwargs
  | v, name =>
    noKeywords name kwargs
    callPlainMethodOr last v name args

/-- Calls of all methods but that of sorting. -/
theorem callTypeMethod_plain (h : ∀ r, v = .list r → name = "sort" → False) :
    callTypeMethod v name args kwargs
      = (do noKeywords name kwargs; callPlainMethod v name args) := by
  unfold callTypeMethod
  split
  · exact (h _ rfl rfl).elim
  · rfl

theorem callTypeMethodOr_refusal (v : Value) (name : String) (args : List Value)
    (kwargs : List Keyword) :
    callTypeMethodOr (refusal v name) v name args kwargs = callTypeMethod v name args kwargs := by
  unfold callTypeMethodOr
  split
  · rfl
  · rename_i hsort
    exact (callTypeMethod_plain hsort).symm

/-- The names of special methods that are no binary operators. -/
def protocolNames : List String := ["__neg__", "__pos__", "__invert__", "__abs__", "__bool__",
  "__len__", "__contains__", "__getitem__", "__setitem__", "__delitem__", "__iter__", "__next__",
  "__repr__", "__str__", "__hash__", "__float__", "__int__"]

theorem protocolMethod?_isSome (v : Value) (name : String) (args : List Value) :
    (protocolMethod? v name args).isSome = protocolNames.contains name := by
  unfold protocolMethod?
  split
  case h_18 => simp_all [protocolNames]
  all_goals rfl

/-- Whether a name is that of a binary operator. -/
def isOperator (name : String) : Bool :=
  (Comparison.all.find? (·.method == name)).isSome || (BinaryOp.all.find? (·.method == name)).isSome
    || (BinaryOp.all.find? (·.reflected == name)).isSome
    || (BinaryOp.all.find? (·.inplace == name)).isSome

theorem operatorMethod?_isSome (v : Value) (name : String) (args : List Value) :
    (operatorMethod? v name args).isSome = isOperator name := by
  unfold operatorMethod? isOperator
  cases Comparison.all.find? (·.method == name) with
  | some _ => rfl
  | none =>
    cases BinaryOp.all.find? (·.method == name) with
    | some _ => rfl
    | none =>
      cases BinaryOp.all.find? (·.reflected == name) with
      | some _ => rfl
      | none => exact Option.isSome_map

/-- Whether a name is that of a special method. -/
def isSpecial (name : String) : Bool :=
  Text.beginsWith name "__" && (isOperator name || protocolNames.contains name)

/-- Whether a special method is found depends on its name only. -/
theorem specialMethod?_isSome (v : Value) (name : String) (args : List Value) :
    (specialMethod? v name args).isSome = isSpecial name := by
  unfold isSpecial specialMethod?
  rw [← operatorMethod?_isSome v name args, ← protocolMethod?_isSome v name args,
    ← Option.isSome_or]
  cases Text.beginsWith name "__" with
  | true => rfl
  | false => rfl

/-! ## 3. Methods that a kind of values has -/

/-- The action finds a method, whatever becomes of it. -/
def Finds (act : Action (Option Value)) : Prop :=
  ∀ ctx s x? s', act ctx s = .ok x? s' → x?.isSome = true

theorem finds_pure (v : Value) : Finds (pure (some v)) := by
  intro ctx s x? s' h
  cases h
  rfl

theorem finds_bind {α : Type} {act : Action α} {f : α → Action (Option Value)}
    (hf : ∀ a, Finds (f a)) : Finds (act >>= f) := by
  intro ctx s x? s' h
  obtain ⟨a, s₁, -, h⟩ := run_bind_eq_ok.mp h
  exact hf a ctx s₁ x? s' h

theorem finds_raiseText {t : TypeId} {message : String} : Finds (raiseText t message) := by
  intro ctx s x? s' h
  cases h

theorem finds_valueError {message : String} : Finds (valueError message) := finds_raiseText

theorem finds_typeError {message : String} : Finds (typeError message) := finds_raiseText

theorem finds_keyError {key : Value} : Finds (keyError key) := by
  intro ctx s x? s' h
  cases h

attribute [grind ←] finds_pure finds_bind finds_raiseText finds_valueError finds_typeError
  finds_keyError

theorem strMethod_finds (t : String) (h : (strType? name).isSome = true) :
    Finds (strMethod? t name args) := by
  unfold strType? at h
  unfold strMethod?
  split
  case h_11 => split at h <;> simp_all
  all_goals grind

theorem bytesMethod_finds (b : List UInt8) (h : name = "decode") :
    Finds (bytesMethod? b name args) := by
  subst h
  unfold bytesMethod?
  grind

theorem sequenceMethod_finds (items : List Value) (missing : Value → Action String)
    (h : (sequenceType? name).isSome = true) : Finds (sequenceMethod? items name args missing) := by
  unfold sequenceType? at h
  unfold sequenceMethod?
  split
  case h_3 => split at h <;> simp_all
  all_goals grind

theorem position?_lt {index : Int64} {size i : Nat} (h : position? index size = some i) :
    i < size := by
  unfold position? at h
  grind

/-- Taking an item out of a list. -/
theorem finds_popAt (r : Nat) (old : Array Value) (index : Int64) :
    Finds (match position? index old.size with
      | some i => do
        putList r (old.eraseIdxIfInBounds i)
        return old[i]?
      | none => raiseText TypeId.indexError "pop index out of range") := by
  split
  · rename_i i hi
    rw [Array.getElem?_eq_getElem (position?_lt hi)]
    exact finds_bind fun _ => finds_pure _
  · exact finds_raiseText

/-- The methods of lists but for `sort`, which is called in another way. -/
theorem listMethod_finds (r : Nat) (hsort : name ≠ "sort") (h : (listType? name).isSome = true) :
    Finds (listMethod? r name args) := by
  unfold listMethod?
  dsimp only
  split
  case h_4 =>
    refine finds_bind fun _ => finds_bind fun old => ?_
    split
    · exact finds_raiseText
    · split
      · exact finds_bind fun index => finds_popAt r old index
      · exact finds_bind fun index => finds_popAt r old index
  case h_7 =>
    refine finds_bind fun _ => sequenceMethod_finds _ _ ?_
    unfold listType? at h
    rw [Option.isSome_or, Bool.or_eq_true] at h
    refine h.resolve_right fun hother => ?_
    split at hother <;> simp_all
  all_goals grind

theorem dictMethod_finds (r : Nat) (h : (dictType? name).isSome = true) :
    Finds (dictMethod? r name args) := by
  unfold dictType? at h
  unfold dictMethod?
  dsimp only
  split
  case h_7 => split at h <;> simp_all
  all_goals grind

theorem setMethod_finds (r : Nat) (h : name = "add" ∨ name = "discard") :
    Finds (setMethod? r name args) := by
  unfold setMethod?
  split
  case h_3 => simp_all
  all_goals grind

theorem generatorMethod_finds (g : Nat) (h : (generatorType? name).isSome = true) :
    Finds (generatorMethod? g name args) := by
  unfold generatorType? at h
  unfold generatorMethod?
  split
  case h_5 => split at h <;> simp_all
  all_goals grind

theorem exceptionMethod_finds (v : Value) (ref : Nat) (h : name = "with_traceback") :
    Finds (exceptionMethod? v ref name args) := by
  subst h
  unfold exceptionMethod?
  dsimp only
  grind

/-- The methods that the values of a kind have of their own are found. -/
theorem kindMethod_finds (hv : v.isHost = false) (hsort : name ≠ "sort")
    (h : (kindType? v.kind name).isSome = true) : Finds (kindMethod? v name args) := by
  have hown : ∀ {b : Bool} {t : TypeId}, (if b then some t else none).isSome = true → b = true := by
    intro b t hb
    cases b with
    | true => rfl
    | false => cases hb
  cases v with
  | native _ _ => cases hv
  | str _ t => exact strMethod_finds t h
  | bytes _ b => exact bytesMethod_finds b (beq_iff_eq.mp (hown h))
  | tuple _ items =>
    exact sequenceMethod_finds items (fun _ => return "tuple.index(x): x not in tuple") h
  | list r => exact listMethod_finds r hsort h
  | dict r => exact dictMethod_finds r h
  | set r =>
    refine setMethod_finds r ?_
    have hname := hown h
    rwa [Bool.or_eq_true, beq_iff_eq, beq_iff_eq] at hname
  | generator g => exact generatorMethod_finds g h
  | float x =>
    show Finds (if name == "is_integer" then _ else _)
    rw [if_pos (hown h)]
    exact finds_pure _
  | int n =>
    show Finds (if name == "bit_length" then _ else _)
    rw [if_pos (hown h)]
    exact finds_pure _
  | _ => cases h

/-- Other methods are not found, but for those of exceptions. -/
theorem kindMethod_unfound (hv : v.isHost = false) (hname : name ≠ "with_traceback")
    (h : kindType? v.kind name = none) (ctx : Context) (s : Store) :
    kindMethod? v name args ctx s = .ok none s := by
  have hsequence : ∀ items missing, sequenceType? name = none →
      sequenceMethod? items name args missing ctx s = .ok none s := by
    intro items missing h
    unfold sequenceMethod?
    split
    case h_3 => rfl
    all_goals cases h
  cases v with
  | native _ _ => cases hv
  | str _ t =>
    show strMethod? t name args ctx s = _
    unfold strMethod?
    split
    case h_11 => rfl
    all_goals cases h
  | bytes _ b =>
    show bytesMethod? b name args ctx s = _
    unfold bytesMethod?
    split
    · cases h
    · rfl
  | tuple _ items =>
    exact hsequence items (fun _ => return "tuple.index(x): x not in tuple") h
  | list r =>
    show listMethod? r name args ctx s = _
    unfold listMethod?
    split
    case h_7 =>
      exact hsequence (s.lists.get r).toList (fun v => return (← repr v) ++ " is not in list")
        (Option.or_eq_none_iff.mp h).1
    all_goals cases h
  | dict r =>
    show dictMethod? r name args ctx s = _
    unfold dictMethod?
    split
    case h_7 => rfl
    all_goals cases h
  | set r =>
    show setMethod? r name args ctx s = _
    unfold setMethod?
    split
    case h_3 => rfl
    all_goals cases h
  | generator g =>
    show generatorMethod? g name args ctx s = _
    unfold generatorMethod?
    split
    case h_5 => rfl
    all_goals cases h
  | exception ref t =>
    show exceptionMethod? _ ref name args ctx s = _
    unfold exceptionMethod?
    split
    · exact absurd rfl hname
    · rfl
  | float x =>
    show (if name == "is_integer" then _ else pure none : Action (Option Value)) ctx s = _
    split
    · rename_i hown
      rw [beq_iff_eq.mp hown] at h
      cases h
    · rfl
  | int n =>
    show (if name == "bit_length" then _ else pure none : Action (Option Value)) ctx s = _
    split
    · rename_i hown
      rw [beq_iff_eq.mp hown] at h
      cases h
    · rfl
  | _ => rfl

/-! ## 4. Methods that are found -/

/-- Whether the values of a kind have a method. -/
def isFound (kind : TypeId) (name : String) : Bool :=
  isSpecial name || (kindType? kind name).isSome
    || kind == .baseException && name == "with_traceback"

section Calls

variable {ctx : Context} {s : Store}

theorem callPlainMethodOr_of_finds (h : Finds (kindMethod? v name args))
    (last last' : Action Value) :
    callPlainMethodOr last v name args ctx s = callPlainMethodOr last' v name args ctx s := by
  rw [callPlainMethodOr, callPlainMethodOr, run_bind, run_bind]
  cases hrun : kindMethod? v name args ctx s with
  | error e s' => rfl
  | ok x? s' =>
    obtain ⟨x, rfl⟩ := Option.isSome_iff_exists.mp (h ctx s x? s' hrun)
    rfl

theorem callPlainMethodOr_of_special (h : isSpecial name = true) (last last' : Action Value) :
    callPlainMethodOr last v name args = callPlainMethodOr last' v name args := by
  rw [← specialMethod?_isSome v name args] at h
  obtain ⟨act, hact⟩ := Option.isSome_iff_exists.mp h
  rw [callPlainMethodOr, callPlainMethodOr, hact]

/-- **A call that finds its method does not come to the last resort.** -/
theorem callTypeMethodOr_eq (hv : v.isHost = false) (h : isFound v.kind name = true)
    (last : Action Value) :
    callTypeMethodOr last v name args kwargs ctx s = callTypeMethod v name args kwargs ctx s := by
  rw [← callTypeMethodOr_refusal]
  unfold callTypeMethodOr
  split
  · rfl
  · rename_i hsort
    rw [run_bind, run_bind]
    cases noKeywords name kwargs ctx s with
    | error e s' => rfl
    | ok _ s' =>
      rw [isFound, Bool.or_eq_true, Bool.or_eq_true, Bool.and_eq_true, beq_iff_eq, beq_iff_eq,
        or_assoc] at h
      rcases h with hspecial | hown | ⟨hexception, hname⟩
      · exact congrFun (congrFun (callPlainMethodOr_of_special hspecial _ _) ctx) s'
      · refine callPlainMethodOr_of_finds (kindMethod_finds hv ?_ hown) _ _
        -- Only lists have a method of this name, and theirs is called in another way.
        rintro rfl
        cases v with
        | list r => exact hsort r rfl rfl
        | native _ _ => cases hv
        | _ => cases hown
      · cases v with
        | exception ref t =>
          have hfinds : Finds (kindMethod? (.exception ref t) name args) :=
            exceptionMethod_finds _ ref hname
          exact callPlainMethodOr_of_finds hfinds _ _
        | native _ _ => cases hv
        | _ => cases hexception

/-! ## 5. Methods that are lacking -/

/-- Whether the values of a kind lack a method that their types may declare: truth values do not
count their bits, and exceptions have no methods of builtin types that are no exceptions. -/
def isLacking (kind : TypeId) (name : String) : Bool :=
  kind == .bool && name == "bit_length"
    || kind == .baseException && name != "with_traceback" && !isSpecial name

/-- A call that is not one of the methods of a kind. -/
theorem callTypeMethod_of_unfound (h : kindType? v.kind name = none) :
    callTypeMethod v name args kwargs
      = (do noKeywords name kwargs; callPlainMethod v name args) := by
  refine callTypeMethod_plain fun r hlist hsort => ?_
  subst hlist hsort
  cases h

theorem callPlainMethod_eq_special {act : Action Value} (hv : v.isHost = false)
    (hname : name ≠ "with_traceback") (h : kindType? v.kind name = none)
    (hact : specialMethod? v name args = some act) :
    callPlainMethod v name args ctx s = act ctx s := by
  rw [callPlainMethod, run_bind, kindMethod_unfound hv hname h]
  dsimp only
  rw [hact]

theorem callPlainMethod_eq_refusal (hv : v.isHost = false) (hname : name ≠ "with_traceback")
    (h : kindType? v.kind name = none) (hspecial : isSpecial name = false) :
    callPlainMethod v name args ctx s = refusal v name ctx s := by
  have hnone : specialMethod? v name args = none := by
    rw [← Option.not_isSome_iff_eq_none, specialMethod?_isSome, hspecial]
    exact Bool.false_ne_true
  rw [callPlainMethod, run_bind, kindMethod_unfound hv hname h]
  dsimp only
  rw [hnone]
  rfl

theorem callTypeMethod_eq_refusal (hv : v.isHost = false) (h : isLacking v.kind name = true) :
    callTypeMethod v name args [] ctx s = refusal v name ctx s := by
  simp only [isLacking, Bool.or_eq_true, Bool.and_eq_true, beq_iff_eq, bne_iff_ne,
    Bool.not_eq_true'] at h
  rcases h with ⟨hbool, rfl⟩ | ⟨⟨hexception, hname⟩, hspecial⟩
  · have hkind : kindType? v.kind "bit_length" = none := by rw [hbool]; rfl
    rw [callTypeMethod_of_unfound hkind]
    exact callPlainMethod_eq_refusal hv (by decide) hkind (by decide)
  · have hkind : kindType? v.kind name = none := by rw [hexception]; rfl
    rw [callTypeMethod_of_unfound hkind]
    exact callPlainMethod_eq_refusal hv hname hkind hspecial

end Calls

end Machine

/-! ## 6. The table -/

namespace Builtins

open Machine

/-- The search order of a kind of values. -/
def kindOrder (k : TypeId) : List TypeId :=
  if k == .object then [.object]
  else if k == .bool then [.bool, .int, .object]
  else if k == .generator then [.generator, .iterator, .object]
  else [k, .object]

theorem order_kind : ∀ k ∈ Value.kinds, TypeModel.withBuiltins.order k = kindOrder k := by
  decide +kernel

variable {owner : TypeId} {name : String} {sig : Signature} {m : TypeModel} {v : Value}

/-- Whether something holds of the kinds of all values of a declared type. -/
def onKindsBelow (declared : TypeId) (P : TypeId → Bool) : Bool :=
  Value.kinds.all fun k =>
    !(k == .baseException || k == declared || declared == .object
      || (kindOrder k).contains declared)
      || P k

theorem onKindsBelow_eq (declared : TypeId) (P : TypeId → Bool) :
    onKindsBelow declared P = onKinds declared P := by
  rw [Bool.eq_iff_iff, onKindsBelow, onKinds, List.all_eq_true, List.all_eq_true]
  refine forall₂_congr fun k hk => ?_
  rw [TypeModel.isSubtype, order_kind k hk]
  simp only [Bool.or_assoc]

theorem of_onKindsBelow (hm : m.ExtendsBuiltins) {P : TypeId → Bool}
    (h : onKindsBelow owner P = true) (hv : v.isHost = false)
    (howner : m.isSubtype v.type owner = true) : P v.kind = true :=
  of_onKinds hm (onKindsBelow_eq owner P ▸ h) hv howner

/-- Whether all values of a type have a method or lack it, and no data have its name. -/
def isImplemented (owner : TypeId) (name : String) : Bool :=
  (isSpecial name || onKindsBelow owner fun k => isFound k name || isLacking k name)
    && (dataType? name).isNone

/-- **The table declares what is implemented,** but for methods that are known to be lacking. -/
theorem table_implemented : table.all (fun
    | .method owner name _ => isImplemented owner name
    | _ => true) = true := by
  decide +kernel

theorem found_or_lacking (hsig : Declaration.method owner name sig ∈ table)
    (hm : m.ExtendsBuiltins) (hv : v.isHost = false) (howner : m.isSubtype v.type owner = true) :
    isFound v.kind name = true ∨ isLacking v.kind name = true := by
  have hcheck : isImplemented owner name = true := List.all_eq_true.mp table_implemented _ hsig
  rw [isImplemented, Bool.and_eq_true, Bool.or_eq_true] at hcheck
  rcases hcheck.1 with hspecial | hkinds
  · left
    rw [isFound, hspecial, Bool.true_or, Bool.true_or]
  · exact Bool.or_eq_true_iff.mp (of_onKindsBelow hm hkinds hv howner)

theorem dataType?_of_table (hsig : Declaration.method owner name sig ∈ table) :
    dataType? name = none := by
  have hcheck : isImplemented owner name = true := List.all_eq_true.mp table_implemented _ hsig
  exact Option.isNone_iff_eq_none.mp (Bool.and_eq_true_iff.mp hcheck).2

/-- What the table declares is declared by every model that extends it. -/
theorem hasMethod_of_table (hsig : Declaration.method owner name sig ∈ table)
    (hm : m.ExtendsBuiltins) {t : TypeId} (howner : m.isSubtype t owner = true) :
    m.hasMethod t name = true :=
  hm.built.hasMethod (hm.mem_overloads hsig) howner

end Builtins

namespace Machine

variable {v : Value} {name : String} {ctx : Context} {s : Store}

theorem model_bind {α : Type} (f : TypeModel → Action α) :
    (model >>= f) ctx s = f ctx.compiler.model ctx s := rfl

theorem get_bind {α : Type} (f : Store → Action α) : (get >>= f : Action α) ctx s = f s ctx s := rfl

/-- There are no data with a name that is not one of data. -/
theorem dataAttribute?_eq_none (hname : Builtins.dataType? name = none) :
    dataAttribute? v name ctx s = .ok none s := by
  have hclass : ¬((name == "__class__") = true) := by
    rw [beq_iff_eq]
    rintro rfl
    cases hname
  unfold dataAttribute?
  rw [get_bind, if_neg hclass]
  split
  · unfold exceptionAttribute?
    rw [get_bind]
    split
    · cases hname
    · cases hname
    · cases hname
    · rfl
  case h_9 =>
    show EStateM.Result.ok (functionAttribute? _ name) s = _
    unfold functionAttribute?
    split
    · cases hname
    · cases hname
    · cases hname
    · cases hname
    · rfl
  case h_16 => rfl
  all_goals cases hname

/-- A method that is declared is found as an attribute. -/
theorem getAttr_of_declared (hv : v.isHost = false) (hclass : ∀ t, v ≠ .classObject t)
    (hname : Builtins.dataType? name = none)
    (hmethod : ctx.compiler.model.hasMethod v.type name = true) :
    hasTypeMethod ctx.compiler.model v name = true
      ∧ ∃ id nameId s', getAttr v name ctx s = .ok (.method id v nameId name) s' := by
  have hdeclared : hasTypeMethod ctx.compiler.model v name = true := by
    cases v with
    | native _ _ => cases hv
    | classObject t => exact absurd rfl (hclass t)
    | _ => exact hmethod
  have hnative : nativeAttribute? v name ctx s = .ok none s := by
    cases v with
    | native _ _ => cases hv
    | _ => rfl
  have hgiven : getAttr v name ctx s = newMethod v name ctx s := by
    unfold getAttr
    rw [run_bind, hnative]
    dsimp only
    rw [run_bind, dataAttribute?_eq_none hname]
    dsimp only
    rw [model_bind, if_pos hdeclared]
  exact ⟨hdeclared, _, _, _, hgiven⟩

/-! ## 7. Every method of the table -/

/-- **Declared methods are implemented:** for every method that the table declares and every
receiver of a type below its owner that is no object of the host, whatever the arguments are, the
call of the method never comes to the last resort, where it is found to have no implementation or to
be no attribute, unless the method is one of those that are lacking; then it always does. The method
is also found by its name, and called by it, but on classes, which are not asked for the methods of
their type. -/
theorem declared_methods_implemented {owner : TypeId} {sig : Signature}
    (hsig : Declaration.method owner name sig ∈ Builtins.table)
    (hm : ctx.compiler.model.ExtendsBuiltins) (hv : v.isHost = false)
    (howner : ctx.compiler.model.isSubtype v.type owner = true) (args : List Value)
    (kwargs : List Keyword) (s : Store) :
    (isLacking v.kind name = false → ∀ last, callTypeMethodOr last v name args kwargs ctx s
        = callTypeMethod v name args kwargs ctx s)
      ∧ (isLacking v.kind name = true →
        callTypeMethod v name args [] ctx s = unimplemented v name ctx s)
      ∧ ((∀ t, v ≠ .classObject t) →
        callMethod v name args ctx s = callTypeMethod v name args [] ctx s
          ∧ ∃ id nameId s', getAttr v name ctx s = .ok (.method id v nameId name) s') := by
  have hmethod := Builtins.hasMethod_of_table hsig hm howner
  refine ⟨fun hfound last => ?_, fun hlacking => ?_, fun hclass => ?_⟩
  · refine callTypeMethodOr_eq hv ?_ last
    refine (Builtins.found_or_lacking hsig hm hv howner).resolve_right fun h => ?_
    rw [hfound] at h
    cases h
  · rw [callTypeMethod_eq_refusal hv hlacking, refusal, model_bind, if_pos hmethod]
  · obtain ⟨hdeclared, hattribute⟩ :=
      getAttr_of_declared hv hclass (Builtins.dataType?_of_table hsig) hmethod
    refine ⟨?_, hattribute⟩
    unfold callMethod
    rw [hook?_eq hv, pure_bind]
    dsimp only
    rw [model_bind, if_pos hdeclared]

theorem bit_length_declared :
    Declaration.method .int "bit_length" { params := [], returns := .int } ∈ Builtins.table := by
  simp [Builtins.table, Builtins.members, Builtins.numberMembers, Builtins.method]

theorem bool_below_int (b : Bool) :
    (plainContext 0).compiler.model.isSubtype (Value.bool b).type .int = true := by
  have horder : TypeModel.withBuiltins.order .bool = [.bool, .int, .object] :=
    Builtins.order_kind .bool (by decide)
  exact TypeModel.isSubtype_iff.mpr (.inr (.inr (horder ▸ by decide)))

/-- Integers count their bits, and truth values, which are integers, do not. -/
theorem declared_methods_implemented_bit_length :
    (∀ last,
        callTypeMethodOr last (.int 5) "bit_length" [] [] (plainContext 0) {} = .ok (.int 3) {})
      ∧ callTypeMethod (.bool true) "bit_length" [] [] (plainContext 0) {}
        = unimplemented (.bool true) "bit_length" (plainContext 0) {} := by
  have hint : (plainContext 0).compiler.model.isSubtype (Value.int 5).type .int = true :=
    TypeModel.isSubtype_refl _ _
  exact ⟨(declared_methods_implemented bit_length_declared .builtins rfl hint [] [] {}).1
      (by decide),
    (declared_methods_implemented bit_length_declared .builtins rfl (bool_below_int true) [] []
      {}).2.1 (by decide)⟩

/-- **A declared method without implementation:** truth values are integers, which are declared to
count their bits. -/
theorem truth_value_lacks_bit_length :
    Declaration.method .int "bit_length" { params := [], returns := .int } ∈ Builtins.table
      ∧ (plainContext 0).compiler.model.isSubtype (Value.bool true).type .int = true
      ∧ ∃ e s', callTypeMethod (.bool true) "bit_length" [] [] (plainContext 0) {}
          = .error (.raised e) s' ∧ e.type = .notImplementedError := by
  have hbelow := bool_below_int true
  refine ⟨bit_length_declared, hbelow, ?_⟩
  have hmethod : (plainContext 0).compiler.model.hasMethod (Value.bool true).type "bit_length"
      = true := Builtins.hasMethod_of_table bit_length_declared .builtins hbelow
  rw [callTypeMethod_eq_refusal rfl (by decide), refusal, model_bind, if_pos hmethod]
  exact ⟨_, _, rfl, rfl⟩

end Machine

end Stackwise
