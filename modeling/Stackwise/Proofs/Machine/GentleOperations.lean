import Stackwise.Machine.Run
import Stackwise.Proofs.Machine.Calm

/-!
# Gentle operations

Most of what an operation on values does leaves generators, lists, mappings and sets alone: it takes
operands, iterates, asks host objects, compares, checks keys, makes exceptions.

* `GentleUnder`: the actions that are put together from steps of this kind, with the faults that they
  may raise of their own accord. A list may be new, as nothing refers to it yet; a new mapping or set
  is left out, as a property of all mappings would be a property of the new one.
* `Gentle`: the actions that are so whatever is tolerated.
* The rules are tagged for `grind`, so that an action made of gentle ones is gentle by unfolding it.
* One statement for each gentle operation that an instruction or a call can come to, in the order of
  their definitions. Each follows from the rules along the definition; those on loops go by
  induction on what the loop runs over.

What holds of all gentle actions need not be proved of these operations one by one.
-/

namespace Stackwise

/-- The part of a store that gentle actions leave alone: the generators, how deep frames are nested,
the lists, the mappings and the sets. -/
@[grind =] def Store.settled (s : Store) :
    Table Generator × Nat × Table (Array Value) × Table (List (Value × Value))
      × Table (List Value) :=
  (s.generators, s.depth, s.lists, s.dicts, s.sets)

namespace Machine

/-! ## 1. Rules -/

/-- The actions that touch generators by their protocol only, change no list, mapping or set, and
raise tolerated faults of their own accord. What a fault as a value goes on with may rely on it
being tolerated. -/
inductive GentleUnder (W : Tolerance) : {α : Type} → Action α → Prop where
  | pure {α : Type} (a : α) : GentleUnder W (pure a : Action α)
  | throw {α : Type} {e : Fault} (he : W.fault e) : GentleUnder W (throw e : Action α)
  | get : GentleUnder W (get : Action Store)
  | read : GentleUnder W (read : Action Context)
  | make {α : Type} {f : Store → α × Store} (hf : ∀ s, (f s).2.settled = s.settled) :
      GentleUnder W (make f)
  | makeList (items : Array Value) : GentleUnder W (make (Store.newList items))
  | callWith (callee : Value) (args : List Value) (kwargs : List Keyword) :
      GentleUnder W (callWith callee args kwargs)
  | hasNext (g : Nat) : GentleUnder W (hasNext g)
  | send (g : Nat) (v : Value) : GentleUnder W (send g v)
  | resumeThrow (g : Nat) (e : Raised) : GentleUnder W (guarded g do
      dropLookahead g
      resume g (.throw e))
  | close (g : Nat) : GentleUnder W (close g)
  | bind {α β : Type} {x : Action β} {f : β → Action α} (hx : GentleUnder W x)
      (hf : ∀ a, GentleUnder W (f a)) : GentleUnder W (x >>= f)
  | attempt_bind {α β : Type} {x : Action β} {f : Except Fault β → Action α} (hx : GentleUnder W x)
      (hok : ∀ a, GentleUnder W (f (.ok a)))
      (herror : ∀ e, W.fault e → GentleUnder W (f (.error e))) : GentleUnder W (attempt x >>= f)

/-- The actions that are gentle whatever is tolerated. -/
def Gentle {α : Type} (act : Action α) : Prop := ∀ W, GentleUnder W act

section Rules

variable {W : Tolerance} {α β : Type}

theorem Gentle.under {act : Action α} (h : Gentle act) : GentleUnder W act := h W

theorem Gentle.bind {x : Action β} {f : β → Action α} (hx : Gentle x) (hf : ∀ a, Gentle (f a)) :
    Gentle (x >>= f) :=
  fun W => (hx W).bind fun a => hf a W

theorem gentle_pure (a : α) : Gentle (pure a : Action α) := fun _ => .pure a

theorem gentle_throw {e : Fault} (he : e.ofFrame = false) : Gentle (throw e : Action α) :=
  fun W => .throw (W.other e he)

theorem gentle_look (f : Store → α) : Gentle (look f) := fun _ => .bind .get fun _ => .pure _

theorem gentle_model : Gentle model := fun _ => .bind .read fun _ => .pure _

theorem gentleUnder_model : GentleUnder W model := gentle_model W

theorem gentle_make {f : Store → α × Store} (hf : ∀ s, (f s).2.settled = s.settled) :
    Gentle (make f) :=
  fun _ => .make hf

theorem gentle_makeList (items : Array Value) : Gentle (make (Store.newList items)) :=
  fun _ => .makeList items

/-- A change of the store that leaves generators, lists, mappings and sets alone. -/
theorem gentle_modify {f : Store → Store} (hf : ∀ s, (f s).settled = s.settled) :
    Gentle (modify f : Action Unit) :=
  fun _ => .make hf

theorem gentleUnder_modify {f : Store → Store} (hf : ∀ s, (f s).settled = s.settled) :
    GentleUnder W (modify f : Action Unit) :=
  .make hf

/-- In the form in which a change of the store stands before what follows. -/
theorem GentleUnder.modify_bind {f : Store → Store} {k : PUnit → Action α}
    (hf : ∀ s, (f s).settled = s.settled) (hk : GentleUnder W (k ⟨⟩)) :
    GentleUnder W (modify f >>= k) :=
  (gentleUnder_modify hf).bind fun _ => hk

/-- What comes after a fault is not reached. -/
theorem gentleUnder_throw_bind {e : Fault} {k : β → Action α} (he : W.fault e) :
    GentleUnder W (throw e >>= k) :=
  .throw he

theorem gentle_call (callee : Value) (args : List Value) : Gentle (call callee args) :=
  fun _ => .callWith callee args []

theorem GentleUnder.attempt {act : Action α} (h : GentleUnder W act) :
    GentleUnder W (attempt act) := by
  rw [← bind_pure (Machine.attempt act)]
  exact h.attempt_bind (fun _ => .pure _) fun _ _ => .pure _

theorem gentleUnder_mapM {xs : List β} {f : β → Action α} (hf : ∀ x, GentleUnder W (f x)) :
    GentleUnder W (xs.mapM f) := by
  induction xs with
  | nil => exact .pure _
  | cons x xs ih =>
    rw [List.mapM_cons]
    exact (hf x).bind fun _ => ih.bind fun _ => .pure _

theorem gentleUnder_foldlM {xs : List β} {f : α → β → Action α} {a : α}
    (hf : ∀ a x, GentleUnder W (f a x)) : GentleUnder W (xs.foldlM f a) := by
  induction xs generalizing a with
  | nil => exact .pure _
  | cons x xs ih =>
    rw [List.foldlM_cons]
    exact (hf a x).bind fun _ => ih

end Rules

attribute [grind =] Fault.ofFrame Broken.ofFrame

attribute [grind ←] Tolerance.other GentleUnder.pure GentleUnder.throw GentleUnder.get
  GentleUnder.read GentleUnder.make GentleUnder.makeList GentleUnder.callWith GentleUnder.hasNext
  GentleUnder.send GentleUnder.close GentleUnder.bind GentleUnder.attempt_bind
  GentleUnder.modify_bind GentleUnder.attempt gentleUnder_model gentleUnder_modify
  gentleUnder_throw_bind gentleUnder_mapM gentleUnder_foldlM

attribute [grind ←] Gentle.bind gentle_pure

attribute [grind! ←] gentle_look gentle_call gentle_makeList

-- what is known of an operation is used where it stands in an action
grind_pattern Gentle.under => Gentle act, GentleUnder W act

end Machine

namespace Store

/-! ## 2. New objects leave the rest alone -/

section New

variable (s : Store)

@[grind =] theorem settled_newStrs (ts : List String) : (s.newStrs ts).2.settled = s.settled := rfl
@[grind =] theorem settled_newBytes (b : List UInt8) : (s.newBytes b).2.settled = s.settled := rfl
@[grind =] theorem settled_newSlice (a b c : Value) :
    (s.newSlice a b c).2.settled = s.settled := rfl
@[grind =] theorem settled_newTraceback (es : List TraceEntry) :
    (s.newTraceback es).2.settled = s.settled := rfl
@[grind =] theorem settled_newIter (c : Cursor) : (s.newIter c).2.settled = s.settled := rfl
@[grind =] theorem settled_newFunction (f : Function) :
    (s.newFunction f).2.settled = s.settled := rfl

end New

mutual

theorem settled_ofConstant (code : Nat) (path : List Nat) (s : Store) (c : Constant) :
    (ofConstant code path s c).2.settled = s.settled := by
  cases c with
  | tuple items =>
    rw [ofConstant]
    exact settled_ofConstants code path 0 s items
  | _ => simp only [ofConstant]

theorem settled_ofConstants (code : Nat) (path : List Nat) (i : Nat) (s : Store)
    (cs : List Constant) : (ofConstants code path i s cs).2.settled = s.settled := by
  cases cs with
  | nil => simp only [ofConstants]
  | cons c cs =>
    rw [ofConstants]
    dsimp only
    rw [settled_ofConstants, settled_ofConstant]

end

attribute [grind =] settled_ofConstant

end Store

namespace Machine

variable {α β : Type}

/-! ## 3. Raising and looking -/

@[grind! ←] theorem gentle_newStr (t : String) : Gentle (newStr t) :=
  gentle_make fun _ => rfl

@[grind! ←] theorem gentle_newTuple (vs : List Value) : Gentle (newTuple vs) :=
  gentle_make fun _ => rfl

@[grind! ←] theorem gentle_newList (vs : List Value) : Gentle (newList vs) :=
  gentle_makeList _

@[grind! ←] theorem gentle_newMethod (v : Value) (n : String) : Gentle (newMethod v n) :=
  gentle_make fun _ => rfl

@[grind! ←] theorem gentle_newException (t : TypeId) (vs : List Value) :
    Gentle (newException t vs) :=
  gentle_model.bind fun _ => gentle_make fun _ => rfl

@[grind! ←] theorem gentle_raise (t : TypeId) (vs : List Value) : Gentle (raise t vs : Action α) :=
  (gentle_newException t vs).bind fun _ => gentle_throw rfl

@[grind! ←] theorem gentle_raiseText (t : TypeId) (m : String) :
    Gentle (raiseText t m : Action α) :=
  (gentle_newStr m).bind fun _ => gentle_raise t _

@[grind! ←] theorem gentle_typeError (m : String) : Gentle (typeError m : Action α) :=
  gentle_raiseText _ _

@[grind! ←] theorem gentle_valueError (m : String) : Gentle (valueError m : Action α) :=
  gentle_raiseText _ _

@[grind! ←] theorem gentle_attributeError (t n : String) : Gentle (attributeError t n : Action α) :=
  gentle_raiseText _ _

@[grind! ←] theorem gentle_arith (r : Except ArithError α) : Gentle (arith r) := by
  intro W
  unfold arith
  grind

@[grind! ←] theorem gentle_outOfFuel : Gentle (outOfFuel : Action α) :=
  gentle_throw rfl

@[grind! ←] theorem gentle_typeName (v : Value) : Gentle (typeName v) :=
  fun W => .bind .get fun _ => (gentle_model W).bind fun _ => .pure _

@[grind! ←] theorem gentle_nativeHas (v : Value) (n : String) : Gentle (nativeHas v n) :=
  gentle_look _

@[grind! ←] theorem gentle_equal (a b : Value) : Gentle (equal a b) :=
  gentle_look _

@[grind! ←] theorem gentle_checkHashable (v : Value) : Gentle (checkHashable v) := by
  intro W
  unfold checkHashable
  grind

theorem gentleUnder_catchable {W : Tolerance} {e : Fault} (he : W.fault e) :
    GentleUnder W (catchable e) := by
  unfold catchable
  grind

@[grind! ←] theorem gentle_makeException (v : Value) : Gentle (makeException v) := by
  intro W
  unfold makeException
  grind [makeException.refuse]

@[grind! ←] theorem gentle_exceptionMatches (a b : Value) : Gentle (exceptionMatches a b) := by
  intro W
  unfold exceptionMatches
  grind

@[grind! ←] theorem gentle_write (t : String) : Gentle (write t) :=
  gentle_modify fun _ => rfl

@[grind! ←] theorem gentle_setGlobal (n : String) (v : Value) : Gentle (setGlobal n v) :=
  gentle_modify fun _ => rfl

@[grind! ←] theorem gentle_nameError (n : String) : Gentle (nameError n : Action α) :=
  gentle_raiseText _ _

@[grind! ←] theorem gentle_loadGlobal (i : Ident) (n : String) : Gentle (loadGlobal i n) := by
  intro W
  unfold loadGlobal
  grind

@[grind! ←] theorem gentle_deleteGlobal (n : String) : Gentle (deleteGlobal n) := by
  intro W
  unfold deleteGlobal
  grind

/-! ## 4. Generators -/

@[grind! ←] theorem gentle_nextOf (g : Nat) : Gentle (nextOf g) := fun _ => .send g .none

@[grind! ←] theorem gentle_throwInto (g : Nat) (v : Value) : Gentle (throwInto g v) :=
  fun W => (gentle_makeException v W).bind fun e => .resumeThrow g e

/-! ## 5. Objects of the host -/

mutual

theorem gentle_runScript (self : Value) (args : List Value) :
    ∀ script, Gentle (runScript self args script)
  | .give _ | .raise _ _ | .stop _ | .argument _ | .self | .call _ => by
    intro W
    unfold runScript
    grind
  | .sequence counter scripts => by
    intro W
    unfold runScript
    exact .bind (.make fun _ => rfl) fun n => gentle_runTurn self args n scripts W

theorem gentle_runTurn (self : Value) (args : List Value) :
    ∀ n scripts, Gentle (runTurn self args n scripts)
  | _, [] => gentle_pure _
  | _, [script] => gentle_runScript self args script
  | 0, script :: _ :: _ => gentle_runScript self args script
  | n + 1, _ :: script :: rest => gentle_runTurn self args n (script :: rest)

end

attribute [grind! ←] gentle_runScript

@[grind! ←] theorem gentle_runLogged (r : Nat) (n : Native) (w : String) (c : Script)
    (args : List Value) : Gentle (runLogged r n w c args) := by
  intro W
  unfold runLogged
  grind

@[grind! ←] theorem gentle_callNativeMethod (r : Nat) (n : String) (args : List Value) :
    Gentle (callNativeMethod r n args) := by
  intro W
  unfold callNativeMethod
  grind

@[grind! ←] theorem gentle_callNative (r : Nat) (args : List Value) :
    Gentle (callNative r args) := by
  intro W
  unfold callNative
  grind

@[grind! ←] theorem gentle_setNativeAttribute (r : Nat) (n : String) (v : Value) :
    Gentle (setNativeAttribute r n v) := by
  intro W
  unfold setNativeAttribute
  grind

@[grind! ←] theorem gentle_hook (v : Value) (n : String) (args : List Value) :
    Gentle (hook? v n args) := by
  intro W
  unfold hook?
  grind

/-! ## 6. Protocols -/

@[grind! ←] theorem gentle_length (v : Value) : Gentle (length v) := by
  intro W
  unfold length
  grind

@[grind! ←] theorem gentle_truthy (v : Value) : Gentle (truthy v) := by
  intro W
  unfold truthy
  grind

@[grind! ←] theorem gentle_textOf (h : String) (v : Value) : Gentle (textOf h v) := by
  intro W
  unfold textOf
  grind

@[grind! ←] theorem gentle_repr (v : Value) : Gentle (repr v) := by
  intro W
  unfold repr
  grind

@[grind! ←] theorem gentle_display (v : Value) : Gentle (display v) := by
  intro W
  unfold display
  grind

@[grind! ←] theorem gentle_iter (v : Value) : Gentle (iter v) := by
  intro W
  unfold iter
  grind

@[grind! ←] theorem gentle_next (v : Value) : Gentle (next v) := by
  intro W
  unfold next
  grind [next.refuse]

@[grind! ←] theorem gentle_drain (it : Value) (fuel : Nat) (items : List Value) :
    Gentle (drain it fuel items) := by
  induction fuel generalizing items with
  | zero => exact gentle_outOfFuel
  | succ fuel ih =>
    intro W
    unfold drain
    grind

@[grind! ←] theorem gentle_collect (v : Value) : Gentle (collect v) := by
  intro W
  unfold collect
  grind

/-! ## 7. Arguments and attributes -/

@[grind! ←] theorem gentle_arity (n : String) (args : List Value) (l h : Nat) :
    Gentle (arity n args l h) := by
  intro W
  unfold arity
  grind

@[grind! ←] theorem gentle_noKeywords (n : String) (ks : List Keyword) :
    Gentle (noKeywords n ks) := by
  intro W
  unfold noKeywords
  grind

@[grind! ←] theorem gentle_onlyKeywords (n : String) (ks : List Keyword) (ns : List String) :
    Gentle (onlyKeywords n ks ns) := by
  intro W
  unfold onlyKeywords
  grind

@[grind! ←] theorem gentle_intArg (n : String) (v : Value) : Gentle (intArg n v) := by
  intro W
  unfold intArg
  grind

@[grind! ←] theorem gentle_textArg (n : String) (v : Value) : Gentle (textArg n v) := by
  intro W
  unfold textArg
  grind

@[grind! ←] theorem gentle_exceptionAttribute (r : Nat) (t : TypeId) (n : String) :
    Gentle (exceptionAttribute? r t n) := by
  intro W
  unfold exceptionAttribute?
  grind

@[grind! ←] theorem gentle_dataAttribute (v : Value) (n : String) :
    Gentle (dataAttribute? v n) := by
  intro W
  unfold dataAttribute?
  grind

@[grind! ←] theorem gentle_nativeAttribute (v : Value) (n : String) :
    Gentle (nativeAttribute? v n) := by
  intro W
  unfold nativeAttribute?
  grind

@[grind! ←] theorem gentle_getAttr (v : Value) (n : String) : Gentle (getAttr v n) := by
  intro W
  unfold getAttr
  grind

@[grind! ←] theorem gentle_setAttr (v : Value) (n : String) (c : Value) :
    Gentle (setAttr v n c) := by
  intro W
  unfold setAttr
  grind

@[grind! ←] theorem gentle_special (v : Value) (n : String) : Gentle (special v n) := by
  intro W
  unfold special
  grind

@[grind! ←] theorem gentle_addMember (ms : List Value) (v : Value) : Gentle (addMember ms v) := by
  intro W
  unfold addMember
  grind

/-! ## 8. Comparing -/

@[grind! ←] theorem gentle_order (l r : Value) (c : String) : Gentle (order l r c) := by
  intro W
  unfold order
  grind

@[grind! ←] theorem gentle_nativeCompare (op : Comparison) (l r : Value) :
    Gentle (nativeCompare? op l r) := by
  intro W
  unfold nativeCompare?
  grind

@[grind! ←] theorem gentle_compare (op : Comparison) (l r : Value) : Gentle (compare op l r) := by
  intro W
  unfold compare
  grind

@[grind! ←] theorem gentle_search (it item : Value) (fuel : Nat) :
    Gentle (search it item fuel) := by
  induction fuel with
  | zero => exact gentle_outOfFuel
  | succ fuel ih =>
    intro W
    unfold search
    grind

@[grind! ←] theorem gentle_contains (c v : Value) : Gentle (contains c v) := by
  intro W
  unfold contains
  refine .bind .get fun s => ?_
  split <;> grind

@[grind! ←] theorem gentle_keysOf (k : Option Value) (vs : List Value) : Gentle (keysOf k vs) := by
  intro W
  unfold keysOf
  grind

@[grind! ←] theorem gentle_sortValues (vs : List Value) (k : Option Value) (b : Bool) :
    Gentle (sortValues vs k b) := by
  intro W
  unfold sortValues
  grind

mutual

theorem gentle_hashKey : ∀ v, Gentle (hashKey v)
  | .tuple _ items => by
    have hitems := gentle_hashKeys items
    intro W
    unfold hashKey
    grind
  | .none | .bool _ | .int _ | .float _ | .str _ _ | .bytes _ _ | .list _ | .dict _ | .set _
  | .range _ | .slice _ _ _ _ | .iter _ | .classObject _ | .function _ | .method _ _ _ _
  | .builtin _ _ | .generator _ | .exception _ _ | .traceback _ _ | .cell _ | .code _ | .ellipsis
  | .native _ _ => by
    intro W
    unfold hashKey
    grind

theorem gentle_hashKeys : ∀ vs, Gentle (hashKeys vs)
  | [] => gentle_pure _
  | v :: vs => by
    have hv := gentle_hashKey v
    have hvs := gentle_hashKeys vs
    intro W
    unfold hashKeys
    grind

end

attribute [grind! ←] gentle_hashKey

@[grind! ←] theorem gentle_hash (v : Value) : Gentle (hash v) := by
  intro W
  unfold hash
  grind

@[grind! ←] theorem gentle_identity (v : Value) : Gentle (identity v) := by
  intro W
  unfold identity
  grind

/-! ## 9. Subscripts -/

@[grind! ←] theorem gentle_intIndex (k : Value) (w : String) : Gentle (intIndex k w) := by
  intro W
  unfold intIndex
  grind

@[grind! ←] theorem gentle_indexOf (i : Int64) (n : Nat) (w : String) : Gentle (indexOf i n w) := by
  intro W
  unfold indexOf
  grind

@[grind! ←] theorem gentle_itemAt (xs : Array α) (k : Value) (c w : String) :
    Gentle (itemAt xs k c w) := by
  intro W
  unfold itemAt
  grind

@[grind! ←] theorem gentle_sliceBound (v : Value) : Gentle (sliceBound v) := by
  intro W
  unfold sliceBound
  grind

@[grind! ←] theorem gentle_sliceIndices (a b c : Value) (n : Nat) :
    Gentle (sliceIndices a b c n) := by
  intro W
  unfold sliceIndices
  grind

@[grind! ←] theorem gentle_keyError (k : Value) : Gentle (keyError k : Action α) := by
  intro W
  unfold keyError
  grind

@[grind! ←] theorem gentle_getItem (c k : Value) : Gentle (getItem c k) := by
  intro W
  unfold getItem
  grind

/-! ## 10. Formatting and operators -/

@[grind! ←] theorem gentle_badSpec (v : Value) (t : String) : Gentle (badSpec v t : Action α) := by
  intro W
  unfold badSpec
  grind

@[grind! ←] theorem gentle_formatFloat (v : Value) (t : String) (f : FormatSpec) (x : Double) :
    Gentle (formatFloat v t f x) := by
  intro W
  unfold formatFloat
  grind

@[grind! ←] theorem gentle_format (v : Value) (t : String) : Gentle (format v t) := by
  intro W
  unfold format
  grind

@[grind! ←] theorem gentle_convert (fs : List Char) (c : Char) (v : Value) :
    Gentle (convert fs c v) := by
  intro W
  unfold convert
  grind

@[grind! ←] theorem gentle_fill (ps : List Piece) (args : List Value) : Gentle (fill ps args) := by
  intro W
  fun_induction fill ps args <;> grind

@[grind! ←] theorem gentle_percentFormat (t : String) (v : Value) : Gentle (percentFormat t v) := by
  intro W
  unfold percentFormat
  grind

@[grind! ←] theorem gentle_unary (op : UnaryOp) (v : Value) : Gentle (unary op v) := by
  intro W
  unfold unary
  grind

@[grind! ←] theorem gentle_nativeBinary (op : BinaryOp) (l r : Value) (b : Bool) :
    Gentle (nativeBinary? op l r b) := by
  intro W
  unfold nativeBinary?
  grind

/-! ## 11. Methods -/

@[grind! ←] theorem gentle_joinTexts (c : String) (vs : List Value) : Gentle (joinTexts c vs) := by
  intro W
  unfold joinTexts
  grind

@[grind! ←] theorem gentle_strMethod (t n : String) (args : List Value) :
    Gentle (strMethod? t n args) := by
  intro W
  unfold strMethod?
  split
  case h_6 =>
    refine (gentle_arity _ _ _ _ W).bind fun _ => ?_
    dsimp only
    split <;> grind
  all_goals grind

@[grind! ←] theorem gentle_bytesMethod (b : List UInt8) (n : String) (args : List Value) :
    Gentle (bytesMethod? b n args) := by
  intro W
  unfold bytesMethod?
  grind

@[grind! ←] theorem gentle_sequenceMethod (vs : List Value) (n : String) (args : List Value)
    {missing : Value → Action String} (h : ∀ v, Gentle (missing v)) :
    Gentle (sequenceMethod? vs n args missing) := by
  intro W
  unfold sequenceMethod?
  grind

@[grind! ←] theorem gentle_generatorMethod (g : Nat) (n : String) (args : List Value) :
    Gentle (generatorMethod? g n args) := by
  intro W
  unfold generatorMethod?
  grind

@[grind! ←] theorem gentle_exceptionMethod (v : Value) (r : Nat) (n : String) (args : List Value) :
    Gentle (exceptionMethod? v r n args) := by
  intro W
  unfold exceptionMethod?
  grind

@[grind! ←] theorem gentle_abs (v : Value) : Gentle (abs v) := by
  intro W
  unfold abs
  grind

/-! ## 12. Builtin functions -/

@[grind! ←] theorem gentle_printOption (v : Option Value) (t : String) :
    Gentle (printOption v t) := by
  intro W
  unfold printOption
  grind

@[grind! ←] theorem gentle_print (args : List Value) (ks : List Keyword) :
    Gentle (print args ks) := by
  intro W
  unfold print
  grind

theorem typeError_bind (m : String) (f : β → Action α) : (typeError m >>= f) = typeError m := rfl

@[grind! ←] theorem gentle_nextOr (it : Value) (v : Option Value) : Gentle (nextOr it v) := by
  intro W
  unfold nextOr
  dsimp only
  split
  · refine .attempt_bind (gentle_nextOf _ W) (fun a => ?_) fun e he => ?_
    · grind
    · grind
  · grind
  · grind
  · refine .bind (gentle_typeName _ W) fun n => ?_
    rw [typeError_bind]
    exact gentle_typeError _ W

@[grind! ←] theorem gentle_findAttr (v : Value) (n : String) : Gentle (findAttr? v n) := by
  intro W
  unfold findAttr?
  grind

@[grind! ←] theorem gentle_bestOf (key : Option Value) (want : Ordering) (c : String)
    (vs : List Value) (best : Option (Value × Value)) : Gentle (bestOf key want c vs best) := by
  induction vs generalizing best with
  | nil => exact gentle_pure _
  | cons v vs ih =>
    intro W
    have hrest := fun best => ih best W
    unfold bestOf
    grind

@[grind! ←] theorem gentle_extremum (n : String) (args : List Value) (ks : List Keyword)
    (o : Ordering) : Gentle (extremum n args ks o) := by
  intro W
  unfold extremum
  grind

@[grind! ←] theorem gentle_sorted (args : List Value) (ks : List Keyword) :
    Gentle (sorted args ks) := by
  intro W
  unfold sorted
  refine (gentle_onlyKeywords _ _ _ W).bind fun _ => (gentle_arity _ _ _ _ W).bind fun _ => ?_
  grind

@[grind! ←] theorem gentle_ord (v : Value) : Gentle (ord v) := by
  intro W
  unfold ord
  grind

@[grind! ←] theorem gentle_chr (v : Value) : Gentle (chr v) := by
  intro W
  unfold chr
  grind

/-! ## 13. Parts of instructions -/

@[grind! ←] theorem gentle_buildPairs (ps : List (Value × Value)) : Gentle (buildPairs ps) := by
  intro W
  unfold buildPairs
  grind

@[grind! ←] theorem gentle_pieceText (v : Value) : Gentle (pieceText v) := by
  intro W
  unfold pieceText
  grind

@[grind! ←] theorem gentle_converted (n : Nat) (v : Value) : Gentle (converted n v) := by
  intro W
  unfold converted
  grind

@[grind! ←] theorem gentle_mappingKeywords (v : Value) : Gentle (mappingKeywords v) := by
  intro W
  unfold mappingKeywords
  grind

@[grind! ←] theorem gentle_checkReturn (p : Program) (v : Value) : Gentle (checkReturn p v) := by
  intro W
  unfold checkReturn
  grind

@[grind! ←] theorem gentle_unboundLocal (n : String) : Gentle (unboundLocal n : Action α) := by
  intro W
  unfold unboundLocal
  grind

@[grind! ←] theorem gentle_unboundCell (c : CodeObject) (i : Nat) :
    Gentle (unboundCell c i : Action α) := by
  intro W
  unfold unboundCell
  grind

@[grind! ←] theorem gentle_setCell (r : Nat) (v : Option Value) : Gentle (setCell r v) := by
  intro W
  unfold setCell
  grind

@[grind! ←] theorem gentle_triple (e : Option Raised) : Gentle (triple e) := by
  intro W
  unfold triple
  grind

@[grind! ←] theorem gentle_record (e : Raised) (t : TraceEntry) : Gentle (record e t) := by
  intro W
  unfold record
  grind

/-! ## 14. Calls -/

@[grind! ←] theorem gentle_intOfFloat (x : Double) : Gentle (intOfFloat x) := by
  intro W
  unfold intOfFloat
  grind

@[grind! ←] theorem gentle_intOfText (t : String) (base : Int64) : Gentle (intOfText t base) := by
  intro W
  unfold intOfText
  grind

@[grind! ←] theorem gentle_makeInt (args : List Value) : Gentle (makeInt args) := by
  intro W
  unfold makeInt
  split <;> grind

@[grind! ←] theorem gentle_makeFloat (args : List Value) : Gentle (makeFloat args) := by
  intro W
  unfold makeFloat
  split <;> grind

@[grind! ←] theorem gentle_makeRange (args : List Value) : Gentle (makeRange args) := by
  intro W
  unfold makeRange
  refine .bind (gentleUnder_mapM fun v => ?_) fun ints => ?_
  · grind
  · grind

@[grind! ←] theorem gentle_byteOf (v : Value) : Gentle (byteOf v) := by
  intro W
  unfold byteOf
  grind

@[grind! ←] theorem gentle_makeBytes (args : List Value) : Gentle (makeBytes args) := by
  intro W
  unfold makeBytes
  split <;> grind

@[grind! ←] theorem gentle_addPair (ps : List (Value × Value)) (v : Value) :
    Gentle (addPair ps v) := by
  intro W
  unfold addPair
  grind

@[grind! ←] theorem gentle_makeSlice (args : List Value) : Gentle (makeSlice args) := by
  intro W
  unfold makeSlice
  split <;> exact .make fun _ => rfl

@[grind! ←] theorem gentle_bound (f : Function) (r : Except BindError α) : Gentle (bound f r) := by
  intro W
  unfold bound
  grind

@[grind! ←] theorem gentle_programFor (code : CodeObject) (signature : CallSignature) :
    Gentle (programFor code signature) := by
  intro W
  unfold programFor
  grind

theorem gentle_ownCells (c : CodeObject) (locals : Array (Option Value)) :
    Gentle (ownCells c locals) :=
  fun _ => gentleUnder_mapM fun _ => .make fun _ => rfl

@[grind! ←] theorem gentle_newFrame (program : Program) (f : Function)
    (locals : Array (Option Value)) : Gentle (newFrame program f locals) := by
  intro W
  unfold newFrame
  dsimp only
  split
  · exact gentleUnder_throw_bind (W.other _ rfl)
  · exact .bind (gentle_ownCells _ _ W) fun cells => .pure _

end Machine

end Stackwise
