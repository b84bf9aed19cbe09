import Stackwise.Machine.Builtin
import Stackwise.Proofs.Machine.OperatorResults

/-!
# Results of builtin methods and functions

The type of what a builtin method or function gives is known from its name and from the types of its
receiver and its arguments, unless a host object answers it.

* `Value.kind`: the type of a value, as far as methods tell it apart.
* `kindType?`, `operatorType?`, `protocolType?`, `functionType?`: the types of results.
* `kindMethod_gives`, `operatorMethod_gives`, `protocolMethod_gives`: the ways to find a method keep
  to them.
* `callTypeMethod_gives`, `callBuiltin_gives`: so do calls.
-/

namespace Stackwise

/-! ## 1. Kinds of values -/

namespace Value

/-- The type of a value, as far as methods tell it apart: exceptions of all classes are alike. -/
def kind : Value → TypeId
  | .exception _ _ => .baseException
  | v => v.type

/-- The kinds of values other than host objects. -/
def kinds : List TypeId := .baseException :: types

theorem kind_cases {v : Value} (h : v.isHost = false) :
    v.kind = .baseException ∨ v.kind = v.type ∧ v.type ∈ types := by
  cases v with
  | native _ _ => cases h
  | exception _ _ => exact .inl rfl
  | _ => exact .inr ⟨rfl, type_mem rfl⟩

theorem kind_mem {v : Value} (h : v.isHost = false) : v.kind ∈ kinds := by
  rcases kind_cases h with hk | ⟨hk, hmem⟩
  · rw [hk]
    exact .head _
  · rw [hk]
    exact .tail _ hmem

theorem exception_or_kind (v : Value) : (∃ ref t, v = .exception ref t) ∨ v.kind = v.type := by
  cases v with
  | exception ref t => exact .inl ⟨ref, t, rfl⟩
  | _ => exact .inr rfl

theorem headD_kind (args : List Value) : (args.map kind).headD .none = (args.headD .none).kind := by
  cases args <;> rfl

theorem headD_isHost {args : List Value} (h : ∀ a ∈ args, a.isHost = false) :
    (args.headD .none).isHost = false := by
  cases args with
  | nil => rfl
  | cons a _ => exact h a (.head _)

end Value

/-! ## 2. Types of results -/

/-- The type of a power; any number may come of two integers. -/
def powerType? (l r : TypeId) : Option TypeId :=
  if l.isNumber && r.isNumber then some (if l.isInt && r.isInt then .object else .float) else none

/-- The type of the result of any binary operator. -/
def BinaryOp.givenType? (op : BinaryOp) (inplace : Bool) (l r : TypeId) : Option TypeId :=
  if op == .power then powerType? l r else op.resultType? inplace l r

/-- The type of the items of a container under keys of a kind: no exception is a position. -/
def keyedType? (container key : TypeId) : Option TypeId :=
  if key == .baseException && (container == .tuple || container == .list) then none
  else itemType? container key

/-- The types of what the methods of texts give. -/
def strType? : String → Option TypeId
  | "upper" | "lower" | "title" | "strip" | "join" | "replace" => some .str
  | "split" => some .list
  | "startswith" | "endswith" => some .bool
  | "find" => some .int
  | _ => none

/-- The types of what the methods that all sequences have give. -/
def sequenceType? : String → Option TypeId
  | "count" | "index" => some .int
  | _ => none

/-- The types of what the methods of lists give. -/
def listType? (name : String) : Option TypeId :=
  (sequenceType? name).or (match name with
    | "append" | "extend" | "insert" | "reverse" | "sort" => some .none
    | "pop" => some .object
    | "copy" => some .list
    | _ => none)

/-- The types of what the methods of mappings give. -/
def dictType? : String → Option TypeId
  | "get" | "pop" => some .object
  | "keys" | "values" | "items" => some .list
  | "copy" => some .dict
  | _ => none

/-- The types of what the methods of generators give. -/
def generatorType? : String → Option TypeId
  | "send" | "throw" | "__next__" => some .object
  | "close" => some .none
  | _ => none

/-- The type of what a method gives that the values of a kind have of their own. -/
def kindType? (kind : TypeId) (name : String) : Option TypeId :=
  if kind == .str then strType? name
  else if kind == .bytes then if name == "decode" then some .str else none
  else if kind == .tuple then sequenceType? name
  else if kind == .list then listType? name
  else if kind == .dict then dictType? name
  else if kind == .set then if name == "add" || name == "discard" then some .none else none
  else if kind == .generator then generatorType? name
  else if kind == .float then if name == "is_integer" then some .bool else none
  else if kind == .int then if name == "bit_length" then some .int else none
  else none

/-- The type of what a special method gives that stands for a binary operator. -/
def operatorType? (name : String) (kind : TypeId) (args : List TypeId) : Option TypeId :=
  match Comparison.all.find? (·.method == name) with
  | some _ => some .bool
  | none =>
    match BinaryOp.all.find? (·.method == name) with
    | some op => op.givenType? false kind (args.headD .none)
    | none =>
      match BinaryOp.all.find? (·.reflected == name) with
      | some op => op.givenType? false (args.headD .none) kind
      | none =>
        (BinaryOp.all.find? (·.inplace == name)).bind fun op =>
          op.givenType? true kind (args.headD .none)

/-- The type of what another special method gives. -/
def protocolType? (name : String) (kind : TypeId) (args : List TypeId) : Option TypeId :=
  match name with
  | "__neg__" | "__pos__" | "__invert__" | "__abs__" => UnaryOp.positive.resultType? kind
  | "__bool__" | "__contains__" => some .bool
  | "__len__" | "__hash__" | "__int__" => some .int
  | "__getitem__" => keyedType? kind (args.headD .none)
  | "__setitem__" | "__delitem__" => some .none
  | "__iter__" => iterType? kind
  | "__next__" => some .object
  | "__repr__" | "__str__" => some .str
  | "__float__" => some .float
  | _ => none

/-- The type of what a builtin function gives. -/
def functionType? (name : String) (args : List TypeId) : Option TypeId :=
  match name with
  | "len" | "hash" | "id" | "ord" => some .int
  | "abs" => UnaryOp.positive.resultType? (args.headD .none)
  | "iter" => iterType? (args.headD .none)
  | "repr" | "chr" => some .str
  | "isinstance" | "callable" | "hasattr" => some .bool
  | "print" => some .none
  | "sorted" => some .list
  | "next" | "getattr" | "min" | "max" | "sum" => some .object
  | _ => none

/-- The types of what a method may give. -/
def methodTypes (name : String) (kind : TypeId) (args : List TypeId) : List TypeId :=
  (kindType? kind name).toList ++ (operatorType? name kind args).toList
    ++ (protocolType? name kind args).toList

namespace Machine

variable {m : TypeModel} {α β : Type} {t : TypeId} {t? u? : Option TypeId}

/-! ## 3. Actions -/

theorem yields_pure {P : α → Prop} {a : α} (h : P a) : Yields m (pure a) P := by
  intro ctx _ s x s' hrun
  cases hrun
  exact h

theorem Yields.bind {P : α → Prop} {Q : β → Prop} {act : Action α} {f : α → Action β}
    (hact : Yields m act P) (hf : ∀ a, P a → Yields m (f a) Q) : Yields m (act >>= f) Q := by
  intro ctx hc s x s' hrun
  obtain ⟨a, s₁, ha, hrun⟩ := run_bind_eq_ok.mp hrun
  exact hf a (hact ctx hc s a s₁ ha) ctx hc s₁ x s' hrun

/-- Whatever an action gives that comes first. -/
theorem yields_bind {Q : β → Prop} {act : Action α} {f : α → Action β}
    (hf : ∀ a, Yields m (f a) Q) : Yields m (act >>= f) Q :=
  Yields.bind (P := fun _ => True) (fun _ _ _ _ _ _ => trivial) fun a _ => hf a

theorem gives_of_type {act : Action Value} (h : Yields m act fun v => v.type = t) :
    Gives m act (some t) := by
  intro ctx hc s x s' hrun
  refine ⟨t, rfl, ?_⟩
  rw [h ctx hc s x s' hrun]
  exact m.isSubtype_refl t

theorem gives_pure {v : Value} : Gives m (pure v) (some v.type) :=
  gives_of_type (yields_pure rfl)

theorem gives_object {act : Action Value} : Gives m act (some .object) :=
  fun _ _ _ _ _ _ => ⟨.object, rfl, TypeModel.isSubtype_iff.mpr (.inr (.inl rfl))⟩

theorem gives_newStr {text : String} : Gives m (newStr text) (some .str) :=
  gives_of_type (yields_make fun _ => rfl)

theorem gives_newList {items : List Value} : Gives m (newList items) (some .list) :=
  gives_of_type (yields_make fun _ => rfl)

/-- What the action gives, if it gives anything, is of the type. -/
def MayGive (m : TypeModel) (act : Action (Option Value)) (t? : Option TypeId) : Prop :=
  Yields m act fun v? => ∀ v ∈ v?, ∃ t ∈ t?, m.isSubtype v.type t = true

theorem mayGive_none : MayGive m (pure none) t? := yields_pure nofun

theorem mayGive_pure {v : Value} : MayGive m (pure (some v)) (some v.type) := by
  refine yields_pure fun w hw => ?_
  cases hw
  exact ⟨v.type, rfl, m.isSubtype_refl _⟩

theorem mayGive_object {act : Action (Option Value)} : MayGive m act (some .object) :=
  fun _ _ _ _ _ _ _ _ => ⟨.object, rfl, TypeModel.isSubtype_iff.mpr (.inr (.inl rfl))⟩

theorem mayGive_some {act : Action Value} (h : Gives m act t?) :
    MayGive m (act >>= fun v => pure (some v)) t? :=
  Yields.bind h fun v hv => yields_pure fun w hw => by
    cases hw
    exact hv

theorem MayGive.or {act : Action (Option Value)} (h : MayGive m act t?) :
    MayGive m act (t?.or u?) := by
  intro ctx hc s v? s' hrun v hv
  obtain ⟨t, rfl, hsub⟩ := h ctx hc s v? s' hrun v hv
  exact ⟨t, rfl, hsub⟩

theorem mayGive_ite {b : Bool} {v : Value} :
    MayGive m (if b then pure (some v) else pure none) (if b then some v.type else none) := by
  cases b with
  | true => exact mayGive_pure
  | false => exact mayGive_none

/-- The method gives a value of one of its types, or its receiver. -/
def Answers (m : TypeModel) (name : String) (v : Value) (args : List Value) (x : Value) : Prop :=
  (name = "with_traceback" ∧ x = v)
    ∨ ∃ t ∈ methodTypes name v.kind (args.map Value.kind), m.isSubtype x.type t = true

section Answers

variable {name : String} {v x : Value} {args : List Value}

theorem Answers.of_kind (h : ∃ t ∈ kindType? v.kind name, m.isSubtype x.type t = true) :
    Answers m name v args x := by
  obtain ⟨t, ht, hsub⟩ := h
  exact .inr ⟨t, by rw [methodTypes, ht]; exact .head _, hsub⟩

theorem Answers.of_operator (h : ∃ t ∈ operatorType? name v.kind (args.map Value.kind),
    m.isSubtype x.type t = true) : Answers m name v args x := by
  obtain ⟨t, ht, hsub⟩ := h
  exact .inr ⟨t, List.mem_append_left _ (List.mem_append_right _ (Option.mem_toList.mpr ht)), hsub⟩

theorem Answers.of_protocol (h : ∃ t ∈ protocolType? name v.kind (args.map Value.kind),
    m.isSubtype x.type t = true) : Answers m name v args x := by
  obtain ⟨t, ht, hsub⟩ := h
  exact .inr ⟨t, List.mem_append_right _ (Option.mem_toList.mpr ht), hsub⟩

end Answers

/-! ## 4. Methods that a kind of values has -/

theorem strMethod_gives (t name : String) (args : List Value) :
    MayGive m (strMethod? t name args) (strType? name) := by
  unfold strMethod?
  split
  · exact mayGive_some gives_newStr
  · exact mayGive_some gives_newStr
  · exact mayGive_some gives_newStr
  · refine yields_bind fun _ => ?_
    split
    · exact mayGive_some gives_newStr
    · exact mayGive_some gives_newStr
    · exact yields_bind fun _ => mayGive_some gives_newStr
  · exact yields_bind fun _ => yields_bind fun _ => yields_bind fun _ => mayGive_some gives_newStr
  · have hvalues : ∀ parts, MayGive m (do
        let values ← make (Store.newStrs parts)
        return some (← newList values)) (some .list) :=
      fun _ => yields_bind fun _ => mayGive_some gives_newList
    refine yields_bind fun _ => ?_
    dsimp only
    split
    · exact yields_bind hvalues
    · exact yields_bind hvalues
    · refine yields_bind fun sep => ?_
      split
      · exact yields_bind hvalues
      · exact yields_bind hvalues
  · exact yields_bind fun _ => yields_bind fun _ => mayGive_pure
  · exact yields_bind fun _ => yields_bind fun _ => mayGive_pure
  · exact yields_bind fun _ => yields_bind fun _ => yields_bind fun _ => mayGive_some gives_newStr
  · refine yields_bind fun _ => yields_bind fun _ => ?_
    split
    · exact mayGive_pure
    · exact mayGive_pure
  · exact mayGive_none

theorem bytesMethod_gives (b : List UInt8) (name : String) (args : List Value) :
    MayGive m (bytesMethod? b name args) (if name == "decode" then some .str else none) := by
  unfold bytesMethod?
  split
  · refine yields_bind fun _ => ?_
    split
    · exact mayGive_some gives_newStr
    · exact yields_raiseText
  · exact mayGive_none

theorem sequenceMethod_gives (items : List Value) (name : String) (args : List Value)
    (missing : Value → Action String) :
    MayGive m (sequenceMethod? items name args missing) (sequenceType? name) := by
  unfold sequenceMethod?
  split
  · exact yields_bind fun _ => yields_bind fun _ => mayGive_pure
  · refine yields_bind fun _ => yields_bind fun _ => ?_
    split
    · exact mayGive_pure
    · exact yields_bind fun _ => yields_raiseText
  · exact mayGive_none

theorem listMethod_gives (r : Nat) (name : String) (args : List Value) :
    MayGive m (listMethod? r name args) (listType? name) := by
  unfold listMethod?
  dsimp only
  split
  · exact yields_bind fun _ => yields_bind fun _ => mayGive_pure
  · exact yields_bind fun _ => yields_bind fun _ => yields_bind fun _ => mayGive_pure
  · exact yields_bind fun _ => yields_bind fun _ => yields_bind fun _ => yields_bind fun _ =>
      mayGive_pure
  · exact mayGive_object
  · exact yields_bind fun _ => yields_bind fun _ => mayGive_some gives_newList
  · exact yields_bind fun _ => yields_bind fun _ => mayGive_pure
  · exact yields_bind fun _ => (sequenceMethod_gives _ _ _ _).or

theorem dictMethod_gives (r : Nat) (name : String) (args : List Value) :
    MayGive m (dictMethod? r name args) (dictType? name) := by
  unfold dictMethod?
  dsimp only
  split
  · exact mayGive_object
  · exact yields_bind fun _ => mayGive_some gives_newList
  · exact yields_bind fun _ => mayGive_some gives_newList
  · exact yields_bind fun _ => yields_bind fun _ => mayGive_some gives_newList
  · exact mayGive_object
  · exact yields_bind fun _ => yields_bind fun _ =>
      mayGive_some (gives_of_type (yields_make fun _ => rfl))
  · exact mayGive_none

theorem setMethod_gives (r : Nat) (name : String) (args : List Value) :
    MayGive m (setMethod? r name args)
      (if name == "add" || name == "discard" then some .none else none) := by
  unfold setMethod?
  split
  · exact yields_bind fun _ => yields_bind fun _ => yields_bind fun _ => yields_bind fun _ =>
      mayGive_pure
  · exact yields_bind fun _ => yields_bind fun _ => yields_bind fun _ => mayGive_pure
  · exact mayGive_none

theorem generatorMethod_gives (g : Nat) (name : String) (args : List Value) :
    MayGive m (generatorMethod? g name args) (generatorType? name) := by
  unfold generatorMethod?
  split
  · exact mayGive_object
  · exact mayGive_object
  · exact yields_bind fun _ => yields_bind fun _ => mayGive_pure
  · exact mayGive_object
  · exact mayGive_none

/-- The methods that the values of a kind have of their own. -/
theorem kindMethod_gives (v : Value) (name : String) (args : List Value) :
    Yields m (kindMethod? v name args) fun x? => ∀ x ∈ x?, Answers m name v args x := by
  have hgives : ∀ {act : Action (Option Value)}, MayGive m act (kindType? v.kind name) →
      Yields m act fun x? => ∀ x ∈ x?, Answers m name v args x :=
    fun h ctx hc s x? s' hrun x hx => .of_kind (h ctx hc s x? s' hrun x hx)
  cases v with
  | str id t => exact hgives (strMethod_gives t name args)
  | bytes id b => exact hgives (bytesMethod_gives b name args)
  | tuple id items =>
    exact hgives (sequenceMethod_gives items name args
      fun _ => return "tuple.index(x): x not in tuple")
  | list r => exact hgives (listMethod_gives r name args)
  | dict r => exact hgives (dictMethod_gives r name args)
  | set r => exact hgives (setMethod_gives r name args)
  | generator g => exact hgives (generatorMethod_gives g name args)
  | float x => exact hgives mayGive_ite
  | int n => exact hgives mayGive_ite
  | exception ref t =>
    have hself : ∀ entries : List TraceEntry, Yields m (do
        modify fun s => { s with exceptions := s.exceptions.update ref fun e =>
          { e with traceback := entries } }
        return some (.exception ref t) : Action (Option Value)) fun x? => ∀ x ∈ x?,
          Answers m "with_traceback" (.exception ref t) args x :=
      fun _ => yields_bind fun _ => yields_pure fun x hx => by
        cases hx
        exact .inl ⟨rfl, rfl⟩
    show Yields m (exceptionMethod? (.exception ref t) ref name args) _
    unfold exceptionMethod?
    split
    · refine yields_bind fun _ => ?_
      dsimp only
      split
      · exact hself _
      · exact hself _
      · exact yields_raiseText
    · exact yields_pure nofun
  | _ => exact hgives mayGive_none

/-! ## 5. Operators -/

theorem unary_given {op : UnaryOp} (hop : op ≠ .not) {v : Value} (hv : v.isHost = false) :
    Gives m (unary op v) (op.resultType? v.kind) := by
  cases v with
  | exception ref t =>
    intro ctx _ s x s' h
    cases op with
    | not => exact absurd rfl hop
    | positive | negative | invert => cases h
  | _ => exact unary_gives hop hv

theorem abs_gives {v : Value} (hv : v.isHost = false) :
    Gives m (abs v) (UnaryOp.positive.resultType? v.kind) := by
  have hnumber : ∀ n, Gives m (do return number (← arith (Integer.magnitude n)) : Action Value)
      (some .int) := by
    intro n
    refine gives_of_type fun ctx _ s x s' h => ?_
    obtain ⟨k, s₁, hk, h⟩ := run_bind_eq_ok.mp h
    obtain ⟨w, rfl, -⟩ := Integer.exact_eq_ok (arith_eq_ok hk)
    cases h
    rfl
  cases v with
  | native _ _ => cases hv
  | int n => exact hnumber n
  | bool b => exact hnumber _
  | float x => exact gives_pure
  | _ =>
    intro ctx _ s x s' h
    cases h

theorem iter_given {v : Value} (hv : v.isHost = false) : Gives m (iter v) (iterType? v.kind) := by
  cases v with
  | exception ref t =>
    intro ctx _ s x s' h
    cases h
  | _ => exact iter_gives hv

theorem getItem_given {container key : Value} (hc : container.isHost = false)
    (hk : key.isHost = false) :
    Gives m (getItem container key) (keyedType? container.kind key.kind) := by
  intro ctx hm s x s' h
  have hgiven := getItem_gives hc ctx hm s x s' h
  rcases container.exception_or_kind with ⟨ref, t, rfl⟩ | hkind
  · cases h
  rw [hkind]
  cases key with
  | native _ _ => cases hk
  | exception ref t =>
    cases container with
    | native _ _ => cases hc
    | exception _ _ | tuple _ _ => cases h
    | list r =>
      obtain ⟨items, s₁, -, h⟩ := run_bind_eq_ok.mp h
      cases h
    | _ => exact hgiven
  | _ => exact hgiven

/-- Powers of integers may be any numbers; others are floats. -/
theorem power_type {l r x : Value} (h : numeric? .power l r = .ok (some x)) :
    ∃ t ∈ powerType? l.type r.type, m.isSubtype x.type t = true := by
  have hfloats : ∀ {a b : Double}, (Real.binary .power a b).map (fun x => x.map Value.float)
      = .ok (some x) → x.type = .float := by
    intro a b h
    obtain ⟨y, -, hx⟩ := map_eq_ok.mp h
    obtain ⟨z, -, rfl⟩ := Option.map_eq_some_iff.mp hx
    rfl
  have hobject : ∀ x : Value, m.isSubtype x.type .object = true :=
    fun _ => TypeModel.isSubtype_iff.mpr (.inr (.inl rfl))
  cases l with
  | bool a | int a =>
    cases r with
    | bool b | int b => exact ⟨.object, rfl, hobject x⟩
    | float y => exact ⟨.float, rfl, by rw [hfloats h]; exact m.isSubtype_refl _⟩
    | _ => cases h
  | float y =>
    cases r with
    | bool b | int b | float z => exact ⟨.float, rfl, by rw [hfloats h]; exact m.isSubtype_refl _⟩
    | _ => cases h
  | _ => cases h

section Exceptions

variable {op : BinaryOp} {l r x : Value} {inplace : Bool} {ctx : Context} {s s' : Store}
  {ref : Nat}

theorem numeric?_exception (h : l = .exception ref t ∨ r = .exception ref t) :
    numeric? op l r = .ok none := by
  rcases h with rfl | rfl
  · rfl
  · cases l <;> rfl

/-- Of exceptions, operators make nothing but texts that they are put into. -/
theorem sequence?_exception (hexception : l = .exception ref t ∨ r = .exception ref t)
    (h : sequence? op l r inplace ctx s = .ok (some x) s') :
    op = .modulo ∧ l.kind = .str ∧ x.type = .str := by
  rcases hexception with rfl | rfl
  · cases op <;> cases h
  · cases op with
    | modulo =>
      cases l with
      | str id template =>
        obtain ⟨text, s₁, -, h⟩ := run_bind_eq_ok.mp h
        cases h
        exact ⟨rfl, rfl, rfl⟩
      | _ => cases h
    | add =>
      cases l with
      | list a =>
        cases inplace with
        | true =>
          obtain ⟨more, s₁, hmore, -⟩ := run_bind_eq_ok.mp h
          cases hmore
        | false => cases h
      | _ => cases h
    | _ => cases l <;> cases h

theorem binary_exception (hl : l.isHost = false) (hr : r.isHost = false)
    (hexception : l = .exception ref t ∨ r = .exception ref t)
    (h : binary op l r inplace ctx s = .ok x s') :
    op = .modulo ∧ l.kind = .str ∧ x.type = .str := by
  obtain ⟨first, s₁, hfirst, h⟩ := run_bind_eq_ok.mp h
  rw [numeric?_exception hexception] at hfirst
  cases hfirst
  obtain ⟨second, s₂, hsecond, h⟩ := run_bind_eq_ok.mp h
  cases second with
  | some v =>
    cases h
    exact sequence?_exception hexception hsecond
  | none =>
    obtain ⟨third, s₃, hthird, h⟩ := run_bind_eq_ok.mp h
    obtain rfl := nativeBinary_eq hl hr hthird
    cases h

end Exceptions

theorem power_given {l r : Value} (hl : l.isHost = false) (hr : r.isHost = false) (inplace : Bool) :
    Gives m (binary .power l r inplace) (powerType? l.type r.type) := by
  intro ctx _ s x s' h
  obtain ⟨first, s₁, hfirst, h⟩ := run_bind_eq_ok.mp h
  cases first with
  | some v =>
    cases h
    exact power_type (arith_eq_ok hfirst)
  | none =>
    obtain ⟨second, s₂, hsecond, h⟩ := run_bind_eq_ok.mp h
    have hnone : second = none := by
      cases l <;> first | cases hsecond; rfl | cases r <;> cases hsecond <;> rfl
    subst hnone
    obtain ⟨third, s₃, hthird, h⟩ := run_bind_eq_ok.mp h
    obtain rfl := nativeBinary_eq hl hr hthird
    cases h

theorem binary_given (op : BinaryOp) {l r : Value} (hl : l.isHost = false) (hr : r.isHost = false)
    (inplace : Bool) : Gives m (binary op l r inplace) (op.givenType? inplace l.kind r.kind) := by
  intro ctx hm s x s' h
  have hexception : ∀ {ref t}, l = .exception ref t ∨ r = .exception ref t →
      ∃ t ∈ op.givenType? inplace l.kind r.kind, m.isSubtype x.type t = true := by
    intro ref t hex
    obtain ⟨rfl, hstr, hx⟩ := binary_exception hl hr hex h
    rw [hstr, hx]
    exact ⟨.str, rfl, m.isSubtype_refl _⟩
  rcases l.exception_or_kind with ⟨ref, t, hl'⟩ | hl'
  · exact hexception (.inl hl')
  rcases r.exception_or_kind with ⟨ref, t, hr'⟩ | hr'
  · exact hexception (.inr hr')
  rw [hl', hr', BinaryOp.givenType?]
  split
  · rename_i hop
    obtain rfl := beq_iff_eq.mp hop
    exact power_given hl hr inplace ctx hm s x s' h
  · rename_i hop
    exact binary_gives (fun heq => hop (beq_iff_eq.mpr heq)) hl hr inplace ctx hm s x s' h

/-! ## 6. Special methods -/

section Special

variable {v : Value} {name : String} {args : List Value} {act : Action Value}

theorem withOne_gives {name : String} {args : List Value} {f : Value → Action Value}
    (h : Gives m (f (args.headD .none)) t?) : Gives m (withOne name args f) t? :=
  yields_bind fun _ => h

theorem operatorMethod_gives (h : operatorMethod? v name args = some act) (hv : v.isHost = false)
    (hargs : ∀ a ∈ args, a.isHost = false) :
    Gives m act (operatorType? name v.kind (args.map Value.kind)) := by
  have hfirst := Value.headD_isHost hargs
  unfold operatorMethod? at h
  unfold operatorType?
  rw [Value.headD_kind]
  cases hcompare : Comparison.all.find? (·.method == name) with
  | some op =>
    rw [hcompare] at h
    cases h
    exact withOne_gives (compare_gives hv hfirst)
  | none =>
    rw [hcompare] at h
    dsimp only at h ⊢
    cases hmethod : BinaryOp.all.find? (·.method == name) with
    | some op =>
      rw [hmethod] at h
      cases h
      exact withOne_gives (binary_given op hv hfirst false)
    | none =>
      rw [hmethod] at h
      dsimp only at h ⊢
      cases hreflected : BinaryOp.all.find? (·.reflected == name) with
      | some op =>
        rw [hreflected] at h
        cases h
        exact withOne_gives (binary_given op hfirst hv false)
      | none =>
        rw [hreflected] at h
        obtain ⟨op, hop, rfl⟩ := Option.map_eq_some_iff.mp h
        rw [hop]
        exact withOne_gives (binary_given op hv hfirst true)

theorem protocolMethod_gives (h : protocolMethod? v name args = some act) (hv : v.isHost = false)
    (hargs : ∀ a ∈ args, a.isHost = false) :
    Gives m act (protocolType? name v.kind (args.map Value.kind)) := by
  unfold protocolMethod? at h
  split at h
  · cases h
    exact unary_given (by decide) hv
  · cases h
    exact unary_given (by decide) hv
  · cases h
    exact unary_given (by decide) hv
  · cases h
    exact abs_gives hv
  · cases h
    exact yields_bind fun _ => gives_pure
  · cases h
    exact yields_bind fun _ => gives_pure
  · cases h
    exact withOne_gives (yields_bind fun _ => gives_pure)
  · cases h
    show Gives m _ (keyedType? v.kind ((args.map Value.kind).headD .none))
    rw [Value.headD_kind]
    exact withOne_gives (getItem_given hv (Value.headD_isHost hargs))
  · cases h
    exact yields_bind fun _ => yields_bind fun _ => gives_pure
  · cases h
    exact withOne_gives (yields_bind fun _ => gives_pure)
  · cases h
    exact iter_given hv
  · cases h
    exact gives_object
  · cases h
    exact yields_bind fun _ => gives_newStr
  · cases h
    exact yields_bind fun _ => gives_newStr
  · cases h
    exact yields_bind fun _ => gives_pure
  · cases h
    split
    · exact gives_pure
    · exact yields_raiseText
  · cases h
    split
    · exact gives_pure
    · exact yields_raiseText
  · cases h

end Special

/-! ## 7. Calls -/

/-- The sort method of lists gives nothing. -/
theorem sortList_gives (r : Nat) (args : List Value) (kwargs : List Keyword) :
    Gives m (sortList r args kwargs) (some .none) := by
  unfold sortList
  refine yields_bind fun _ => yields_bind fun _ => yields_bind fun _ => ?_
  dsimp only
  split
  · exact yields_bind fun _ => yields_bind fun _ => yields_bind fun _ => gives_pure
  · exact yields_bind fun _ => yields_bind fun _ => yields_bind fun _ => gives_pure

theorem sorted_gives (args : List Value) (kwargs : List Keyword) :
    Gives m (sorted args kwargs) (some .list) := by
  unfold sorted
  refine yields_bind fun _ => yields_bind fun _ => yields_bind fun _ => ?_
  dsimp only
  split
  · exact yields_bind fun _ => yields_bind fun _ => gives_newList
  · exact yields_bind fun _ => yields_bind fun _ => gives_newList

section Calls

variable {v : Value} {name : String} {args : List Value}

theorem specialMethod_gives {act : Action Value} (h : specialMethod? v name args = some act)
    (hv : v.isHost = false) (hargs : ∀ a ∈ args, a.isHost = false) :
    Yields m act (Answers m name v args) := by
  intro ctx hc s x s' hrun
  unfold specialMethod? at h
  split at h
  · rcases Option.or_eq_some_iff.mp h with h | ⟨-, h⟩
    · exact .of_operator (operatorMethod_gives h hv hargs ctx hc s x s' hrun)
    · exact .of_protocol (protocolMethod_gives h hv hargs ctx hc s x s' hrun)
  · cases h

theorem callPlainMethod_gives (hv : v.isHost = false) (hargs : ∀ a ∈ args, a.isHost = false) :
    Yields m (callPlainMethod v name args) (Answers m name v args) := by
  refine Yields.bind (kindMethod_gives v name args) fun found hfound => ?_
  cases found with
  | some x => exact yields_pure (hfound x rfl)
  | none =>
    dsimp only
    cases hspecial : specialMethod? v name args with
    | some act => exact specialMethod_gives hspecial hv hargs
    | none =>
      refine yields_bind fun _ => ?_
      split
      · exact yields_bind fun _ => yields_raiseText
      · exact yields_bind fun _ => yields_raiseText

/-- **What a method gives** is of one of its types, or is its receiver. -/
theorem callTypeMethod_gives (kwargs : List Keyword) (hv : v.isHost = false)
    (hargs : ∀ a ∈ args, a.isHost = false) :
    Yields m (callTypeMethod v name args kwargs) (Answers m name v args) := by
  unfold callTypeMethod
  split
  · exact fun ctx hc s x s' h => .of_kind (sortList_gives _ args kwargs ctx hc s x s' h)
  · exact yields_bind fun _ => callPlainMethod_gives hv hargs

/-- **What a builtin function gives** is of its type. -/
theorem callPlainBuiltin_gives (hargs : ∀ a ∈ args, a.isHost = false) :
    Gives m (callPlainBuiltin name args) (functionType? name (args.map Value.kind)) := by
  have hfirst := Value.headD_isHost hargs
  unfold callPlainBuiltin
  dsimp only
  split
  · exact yields_bind fun _ => yields_bind fun _ => gives_pure
  · show Gives m _ (UnaryOp.positive.resultType? ((args.map Value.kind).headD .none))
    rw [Value.headD_kind]
    exact yields_bind fun _ => abs_gives hfirst
  · show Gives m _ (iterType? ((args.map Value.kind).headD .none))
    rw [Value.headD_kind]
    exact yields_bind fun _ => iter_given hfirst
  · exact gives_object
  · exact yields_bind fun _ => yields_bind fun _ => gives_newStr
  · exact yields_bind fun _ => yields_bind fun _ => gives_pure
  · exact yields_bind fun _ => yields_bind fun _ => gives_pure
  · refine yields_bind fun _ => yields_bind fun _ => ?_
    split
    · exact gives_pure
    · exact yields_raiseText
  · exact yields_bind fun _ => yields_bind fun _ => gives_pure
  · exact yields_bind fun _ => yields_bind fun _ => yields_bind fun _ => gives_pure
  · exact gives_object
  · refine yields_bind fun _ => yields_bind fun _ => ?_
    split
    · exact gives_pure
    · exact yields_raiseText
  · refine yields_bind fun _ => yields_bind fun _ => ?_
    split
    · exact gives_newStr
    · exact yields_raiseText
  · exact yields_raiseText

theorem callBuiltin_gives (kwargs : List Keyword) (hargs : ∀ a ∈ args, a.isHost = false) :
    Gives m (callBuiltin name args kwargs) (functionType? name (args.map Value.kind)) := by
  unfold callBuiltin
  split
  · exact yields_bind fun _ => yields_bind fun _ => yields_bind fun _ => yields_bind fun _ =>
      yields_bind fun _ => gives_pure
  · exact gives_object
  · exact gives_object
  · exact gives_object
  · exact sorted_gives args kwargs
  · exact yields_bind fun _ => callPlainBuiltin_gives hargs

end Calls

end Machine

end Stackwise
