import Stackwise.Machine.Action

/-!
# Binding arguments

How the arguments of a call come into the local variables. Named parameters are filled by position,
then by keyword, then by default; surplus arguments are collected where the function asks for them.

* `Function.bindNamed`: the named parameters and the keyword arguments that no parameter takes, or
  the reason why the call does not fit. It makes no objects.
* `Function.checkTypes`: enforces the declared types.
* `Machine.bind`: the local variables at the start of a call.
-/

namespace Stackwise

/-- Why a call does not fit a function. -/
inductive BindError where
  /-- There are more positional arguments than parameters. -/
  | tooMany (parameters given : Nat)
  /-- A keyword argument names a parameter that has its argument. -/
  | multiple (name : String)
  /-- A keyword argument names no parameter. -/
  | unexpected (name : String)
  /-- A parameter has neither argument nor default. -/
  | missing (name : String)
  /-- An argument is not of the declared type. -/
  | wrongType (name declared actual : String)
  deriving DecidableEq, Repr

/-- The text of a call that does not fit. -/
def BindError.message (function : String) : BindError → String
  | .tooMany parameters given =>
    function ++ "() takes " ++ toString parameters ++ " positional arguments but "
      ++ toString given ++ " were given"
  | .multiple name => function ++ "() got multiple values for argument '" ++ name ++ "'"
  | .unexpected name => function ++ "() got an unexpected keyword argument '" ++ name ++ "'"
  | .missing name => function ++ "() missing required argument '" ++ name ++ "'"
  | .wrongType name declared actual =>
    function ++ "() argument '" ++ name ++ "' must be " ++ declared ++ ", not " ++ actual

namespace Function

/-! ## 1. Signatures -/

/-- The type that annotations give to a name, the last one that is a class: they alternate names
and types. -/
def annotated (name : String) : List Value → Option TypeId
  | .str _ n :: .classObject t :: rest =>
    (annotated name rest).or (if n == name then some t else none)
  | _ :: _ :: rest => annotated name rest
  | _ => none

/-- The signature that annotations declare. What is not annotated by a class can be anything. -/
def signatureOf (c : CodeObject) (annotations : List Value) : CallSignature :=
  let params := c.varnames.take c.totalParams
  { params := (List.range c.totalParams).map fun i =>
      ((params[i]?.filter fun n => params.idxOf n == i && n != "return").bind
        fun n => annotated n annotations).getD TypeId.object
    returns := (annotated "return" annotations).getD TypeId.object }

/-- A function over a code object that captures nothing. -/
def ofCode (c : CodeObject) (qualnameId defaultsId : Ident) : Function where
  code := c
  qualname := c.qualname
  qualnameId := qualnameId
  defaults := []
  defaultsId := defaultsId
  kwdefaults := []
  closure := []
  signature := .dynamic

/-! ## 2. Named parameters -/

/-- The parameter that a keyword argument names; some can only be given by position. -/
def parameter? (c : CodeObject) (name : String) : Option Nat :=
  (List.range c.namedParams).find? fun i => c.posonlyCount ≤ i && c.varnames[i]? == some name

/-- Puts a keyword argument into its parameter, or among those that no parameter takes. -/
def placeKeyword (c : CodeObject) :
    Array (Option Value) × List Keyword → Keyword →
      Except BindError (Array (Option Value) × List Keyword)
  | (slots, extra), k =>
    match parameter? c k.name with
    | some i =>
      if (slots[i]?.join).isSome then .error (.multiple k.name)
      else .ok (slots.setIfInBounds i (some k.value), extra)
    | none =>
      if c.hasVarkeywords then .ok (slots, extra ++ [k]) else .error (.unexpected k.name)

/-- The default of a parameter. -/
def default? (s : Store) (f : Function) (i : Nat) : Option Value :=
  let positional := f.code.argCount
  let first := positional - f.defaults.length
  if i < positional then if i < first then none else f.defaults[i - first]?
  else
    f.code.varnames[i]?.bind fun name => s.lookup? f.kwdefaults (.str default name)

/-- The argument of a parameter, or its default. -/
def fillDefault (s : Store) (f : Function) (slot : Option Value) (i : Nat) :
    Except BindError (Option Value) :=
  match slot with
  | some v => .ok (some v)
  | none =>
    match default? s f i with
    | some v => .ok (some v)
    | none => .error (.missing (f.code.varnames.getD i ""))

/-- The named parameters of a call, and the keyword arguments that no parameter takes. -/
def bindNamed (s : Store) (f : Function) (args : List Value) (kwargs : List Keyword) :
    Except BindError (List (Option Value) × List Keyword) := do
  let c := f.code
  if !c.hasVarargs && c.argCount < args.length then throw (.tooMany c.argCount args.length)
  let given := (List.range c.namedParams).map fun i => if i < c.argCount then args[i]? else none
  let (slots, extra) ← kwargs.foldlM (placeKeyword c) (given.toArray, [])
  let filled ← slots.toList.zipIdx.mapM fun (slot, i) => fillDefault s f slot i
  return (filled, extra)

/-! ## 3. Declared types -/

/-- Enforces the declared types of local variables that are bound; integers become floats where one
is declared. -/
def checkTypes (m : TypeModel) (s : Store) (f : Function) (locals : Array (Option Value)) :
    Except BindError (Array (Option Value)) :=
  f.signature.params.zipIdx.foldlM (fun locals (declared, i) =>
    match locals[i]?.join with
    | none => .ok locals
    | some v =>
      match Machine.coerce? m v declared with
      | some w => .ok (locals.setIfInBounds i (some w))
      | none =>
        .error (.wrongType (f.code.varnames.getD i "") (m.name declared) (s.typeName m v))) locals

end Function

namespace Machine

/-- The outcome of a binding step, or its exception. -/
def bound {α : Type} (f : Function) : Except BindError α → Action α
  | .ok a => return a
  | .error e => typeError (e.message f.qualname)

/-- The local variables at the start of a call. -/
def bind (f : Function) (args : List Value) (kwargs : List Keyword) :
    Action (Array (Option Value)) := do
  let c := f.code
  if c.localCount < c.totalParams then throw (.broken f.qualname 0 .fewLocals)
  let (named, extra) ← bound f (f.bindNamed (← get) args kwargs)
  let surplus ← if c.hasVarargs then do pure [some (← newTuple (args.drop c.argCount))] else pure []
  let unmatched ←
    if c.hasVarkeywords then do
      let pairs := extra.map fun k => (Value.str k.id k.name, k.value)
      pure [some (← make (Store.newDict pairs))]
    else pure []
  let params := named ++ surplus ++ unmatched
  let locals := params ++ List.replicate (c.localCount - params.length) none
  bound f (f.checkTypes (← model) (← get) locals.toArray)

end Machine

end Stackwise
