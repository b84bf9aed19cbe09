import Stackwise.Machine.Builtin
import Stackwise.Machine.Frame

/-!
# Instructions

What each operation does to its frame and to the store. An operation that the analysis elided does
nothing; a call that it resolved goes straight to the builtin that it resolved to.
-/

namespace Stackwise

/-- Where control goes after an instruction. -/
inductive Flow where
  | next
  | jump (target : Nat)
  /-- The function ends with a value. -/
  | leave (v : Value)
  /-- The generator hands a value to its caller. -/
  | yields (v : Value)

namespace Machine

/-! ## 1. Building collections -/

/-- Pairs from keys and values, later values in place of earlier ones. -/
def buildPairs (entries : List (Value × Value)) : Action (List (Value × Value)) :=
  entries.foldlM (fun pairs (k, v) => do
    checkHashable k
    look fun s => s.insert pairs k v) []

/-- Neighbours as pairs. -/
def pairUp : List Value → List (Value × Value)
  | k :: v :: rest => (k, v) :: pairUp rest
  | _ => []

/-- The text of a piece of a formatted string. -/
def pieceText : Value → Action String
  | .str _ t => return t
  | v => display v

/-- Takes values and builds a collection of them. -/
def build (shape : Shape) (n : Nat) : FrameAction Value := do
  match shape with
  | .tuple => newTuple (← popMany n)
  | .list => newList (← popMany n)
  | .set =>
    let members ← (← popMany n).foldlM (fun ms v => inFrame (addMember ms v)) []
    make (Store.newSet members)
  | .map =>
    let pairs ← buildPairs (pairUp (← popMany (2 * n)))
    make (Store.newDict pairs)
  | .constKeyMap =>
    let keys ← pop
    let values ← popMany n
    match keys with
    | .tuple _ keys =>
      let pairs ← buildPairs (keys.zip values)
      make (Store.newDict pairs)
    | _ => broken .keysNotTuple
  | .string =>
    let texts ← (← popMany n).mapM fun v => inFrame (pieceText v)
    newStr (String.join texts)
  | .slice =>
    let step ← if n == 3 then pop else pure .none
    let stop ← pop
    let start ← pop
    make (Store.newSlice start stop step)

/-! ## 2. Updating collections -/

/-- Adds the pairs of a mapping to another one, pair by pair. Where the pairs are keyword arguments
of a call, a key that is there already is refused; what came before it has been added. -/
def mergeInto (r : Nat) (merge : Bool) : List (Value × Value) → Action Unit
  | [] => return
  | (k, v) :: rest => do
    if merge && (← look fun s => (s.position? (s.dicts.get r) k).isSome) then
      typeError ("got multiple values for keyword argument '" ++ (← display k) ++ "'")
    else
      modify fun s => { s with dicts := s.dicts.put r (s.insert (s.dicts.get r) k v) }
      mergeInto r merge rest

/-- Takes the operands of an update and changes the collection further down the stack. -/
def update (kind : Update) (depth : Nat) : FrameAction Unit := do
  let misplaced {α : Type} : FrameAction α := broken (.updateTarget kind)
  match kind with
  | .listAppend =>
    let v ← pop
    match ← target depth with
    | .list r => appendTo r #[v]
    | _ => misplaced
  | .listExtend =>
    let items ← collect (← pop)
    match ← target depth with
    | .list r => appendTo r items.toArray
    | _ => misplaced
  | .setAdd =>
    let v ← pop
    match ← target depth with
    | .set r => addTo r [v]
    | _ => misplaced
  | .setUpdate =>
    let items ← collect (← pop)
    match ← target depth with
    | .set r => addTo r items
    | _ => misplaced
  | .mapAdd =>
    let value ← pop
    let key ← pop
    checkHashable key
    match ← target depth with
    | .dict r => mergeInto r false [(key, value)]
    | _ => misplaced
  | .dictUpdate | .dictMerge =>
    let other ← pop
    let incoming ← match other with
      | .dict r => look fun s => s.dicts.get r
      | v => do typeError ("'" ++ (← typeName v) ++ "' object is not a mapping")
    match ← target depth with
    | .dict r => mergeInto r (kind == .dictMerge) incoming
    | _ => misplaced
where
  /-- Adds items at the end of a list. -/
  appendTo (r : Nat) (items : Array Value) : Action Unit :=
    modify fun s => { s with lists := s.lists.update r (· ++ items) }
  /-- Adds members to a set, all or none. -/
  addTo (r : Nat) (items : List Value) : Action Unit := do
    let members ← items.foldlM addMember (← look fun s => s.sets.get r)
    modify fun s => { s with sets := s.sets.put r members }

/-- Takes a sequence and puts its items on the stack, the first on top. -/
def unpackSequence (n : Nat) : FrameAction Unit := do
  let items ← collect (← pop)
  if items.length < n then
    valueError ("not enough values to unpack (expected " ++ toString n ++ ", got "
      ++ toString items.length ++ ")")
  else if n < items.length then
    valueError ("too many values to unpack (expected " ++ toString n ++ ")")
  else pushAll items

/-- Takes a sequence and puts on the stack its first items, a list of those in the middle, and its
last items, the first on top. -/
def unpackEx (before after : Nat) : FrameAction Unit := do
  let items ← collect (← pop)
  if items.length < before + after then
    valueError ("not enough values to unpack (expected at least " ++ toString (before + after)
      ++ ", got " ++ toString items.length ++ ")")
  else
    let middle ← newList ((items.drop before).take (items.length - before - after))
    pushAll (items.take before ++ middle :: items.drop (items.length - after))

/-! ## 3. Formatting -/

/-- The value that a formatting operation formats: converted to a text if its operand says so. -/
def converted (flags : Nat) (v : Value) : Action Value := do
  match flags &&& 3 with
  | 1 => newStr (← display v)
  | 2 => newStr (← repr v)
  | 3 => newStr (Text.ascii (← repr v))
  | _ => return v

/-- Takes a value, and a specification above it if there is one, and puts the text on the stack. -/
def formatTop (flags : Nat) : FrameAction Unit := do
  let spec ←
    if flags &&& Op.formatHasSpec != 0 then
      match ← pop with
      | .str _ t => pure t
      | _ => broken .specNotText
    else pure ""
  let v ← converted flags (← pop)
  push (← newStr (← format v spec))

/-! ## 4. Calls -/

/-- A call of the value below the arguments. -/
def callTop (lowering : Lowering) (argc : Nat) : FrameAction Unit := do
  let args ← popMany argc
  let callee ← pop
  match lowering, callee with
  | .directCall owner name _, .builtin _ b =>
    if owner == TypeId.builtins && b == name then push (← callBuiltin name args [])
    else push (← call callee args)
  | _, _ => push (← call callee args)

/-- Names and values as keyword arguments. -/
def keywordsOf : List Value → List Value → Option (List Keyword)
  | .str id name :: names, value :: values =>
    (keywordsOf names values).map ({ id, name, value } :: ·)
  | _ :: _, _ :: _ => none
  | _, _ => some []

/-- A call whose last arguments are named by the tuple on top of the stack. -/
def callKeywords (argc : Nat) : FrameAction Unit := do
  let names ← pop
  let args ← popMany argc
  let callee ← pop
  match names with
  | .tuple _ names =>
    if args.length < names.length then broken .moreKeywords
    else
      let positional := args.length - names.length
      match keywordsOf names (args.drop positional) with
      | some kwargs => push (← callWith callee (args.take positional) kwargs)
      | none => broken .keywordNotText
  | _ => broken .keywordsNotTuple

/-- The keyword arguments that a mapping stands for. -/
def mappingKeywords (mapping : Value) : Action (List Keyword) := do
  match mapping with
  | .dict r =>
    match ((← get).dicts.get r).mapM fun
      | (.str id name, value) => some ({ id, name, value } : Keyword)
      | _ => none with
    | some kwargs => return kwargs
    | none => typeError "keywords must be strings"
  | v => typeError ("argument after ** must be a mapping, not " ++ (← typeName v))

/-- A call with an iterable of arguments, and a mapping of keyword arguments if there is one. -/
def callUnpacked (hasMapping : Bool) : FrameAction Unit := do
  let mapping ← if hasMapping then pure (some (← pop)) else pure none
  let iterable ← pop
  let callee ← pop
  let args ← collect iterable
  let kwargs ← match mapping with
    | some v => mappingKeywords v
    | none => pure []
  push (← callWith callee args kwargs)

/-- A call of a method that lies below its receiver and the arguments. -/
def callMethodTop (lowering : Lowering) (argc : Nat) : FrameAction Unit := do
  let args ← popMany argc
  let receiver ← pop
  let method ← pop
  let direct? : Option String := match lowering, receiver with
    | _, .native _ _ => none
    | .directCall owner name _, _ => if owner == TypeId.object then none else some name
    | _, _ => none
  match direct? with
  | some name => push (← callTypeMethod receiver name args [])
  | none => push (← call method args)

/-! ## 5. Making functions -/

/-- The cells of a closure tuple. -/
def closureCells (v : Value) : Except Broken (List Nat) :=
  match v with
  | .tuple _ cells => cells.mapM fun
    | .cell r => .ok r
    | _ => .error .closureNotCell
  | _ => .error .closureNotTuple

/-- The annotations as alternating names and types. -/
def annotationItems (s : Store) : Value → Except Broken (List Value)
  | .tuple _ items => .ok items
  | .dict r => .ok ((s.dicts.get r).flatMap fun (k, v) => [k, v])
  | _ => .error .annotationsKind

/-- The outcome of a check, or a broken rule. -/
def checked {α : Type} : Except Broken α → FrameAction α
  | .ok a => pure a
  | .error cause => broken cause

/-- Takes a name, a code object and the parts that the operand asks for, and makes a function. -/
def makeFunction (flags : Nat) : FrameAction Unit := do
  let qualname ← pop
  let code ← pop
  match qualname, code with
  | .str id name, .code c =>
    let has (bit : Nat) : Bool := flags &&& bit != 0
    let closure ← if has 8 then do checked (closureCells (← pop)) else pure []
    let signature ←
      if has 4 then do
        let v ← pop
        let items ← checked (annotationItems (← look fun s => s) v)
        pure (Function.signatureOf c items)
      else pure .dynamic
    let kwdefaults ←
      if has 2 then
        match ← pop with
        | .dict r => look fun s => s.dicts.get r
        | _ => broken .kwdefaultsNotDict
      else pure []
    let (defaultsId, defaults) ←
      if has 1 then
        match ← pop with
        | .tuple id items => pure (id, items)
        | _ => broken .defaultsNotTuple
      else pure (default, [])
    let f : Function := {
      Function.ofCode c id defaultsId with qualname := name, defaults, kwdefaults, closure, signature }
    push (← make (Store.newFunction f))
  | _, _ => broken .functionParts

/-! ## 6. Exceptions and generators -/

/-- The result of a function with a declared type. -/
def checkReturn (p : Program) (v : Value) : Action Value := do
  let m ← model
  match coerce? m v p.signature.returns with
  | some w => return w
  | none =>
    typeError (p.name ++ "() returned " ++ (← typeName v) ++ ", expected "
      ++ m.name p.signature.returns)

/-- Enters a context manager: its exit method and what its enter method returns come to lie on the
stack. -/
def enterWith : FrameAction Unit := do
  let manager ← pop
  let exit ← special manager "__exit__"
  let enter ← special manager "__enter__"
  push exit
  push (← call enter [])

/-- The exception that a triple on the stack raises again. -/
def reraised : FrameAction Raised := do
  let type ← pop
  let value ← pop
  let _ ← pop
  match value with
  | .exception ref type => return { ref, type }
  | _ => makeException type

/-- The exception of a `raise` with a number of operands; the cause is dropped. -/
def raisedBy (n : Nat) : FrameAction Raised := do
  match n with
  | 0 =>
    match (← frame).handled with
    | some e => return e
    | none => raiseText TypeId.runtimeError "No active exception to reraise"
  | 1 => makeException (← pop)
  | _ =>
    let _ ← pop
    makeException (← pop)

/-- One step of the iterator of a `yield from`: what it yields, or the fault that ends it. -/
def delegateStep (receiver sent : Value) : Action (Except Fault Value) := do
  match receiver with
  | .generator g => attempt (send g sent)
  | receiver =>
    if sent.isNone then
      match receiver with
      | .iter _ =>
        match ← next receiver with
        | some v => return .ok v
        | none => return .error (.stopIteration none)
      | receiver => attempt (callMethod receiver "__next__" [])
    else attempt (callMethod receiver "send" [sent])

/-- The result of an iterator whose end a fault reports. -/
def delegateResult? (m : TypeModel) (s : Store) : Fault → Option Value
  | .stopIteration v => some (v.getD .none)
  | .raised e =>
    if m.isSubtype e.type TypeId.stopIteration then
      some ((s.exceptions.get e.ref).args.headD .none)
    else none
  | _ => none

/-- Hands the top value to the iterator below it: suspends on what it yields, or goes on with its
result in its place. -/
def delegate (state exit : Nat) : FrameAction Flow := do
  let sent ← pop
  let receiver ← peek 0
  match ← delegateStep receiver sent with
  | .ok v =>
    updateFrame fun f => { f with state }
    return .yields v
  | .error e =>
    match delegateResult? (← model) (← look fun s => s) e with
    | some result =>
      let _ ← pop
      push result
      return .jump exit
    | none => throw e

/-- Goes on after a suspension with what the frame was given. -/
def resumePoint : FrameAction Unit := do
  let given := (← frame).resumption
  updateFrame fun f => { f with resumption := none }
  match given with
  | some (.send v) => push v
  | some (.throw e) => throw (.raised e)
  | none => broken .noResumption

/-- Where a resumed generator goes on. -/
def dispatch (states : List (Nat × Nat)) : FrameAction Flow := do
  let state := (← frame).state
  if state == 0 then return .next
  match states.lookup state with
  | some offset => return .jump offset
  | none => broken (.noResumePoint state)

/-! ## 7. Operations -/

/-- Operations after which control always comes to the next one. -/
def perform (op : Op) (lowering : Lowering) : FrameAction Unit := do
  match op with
  | .popTop => let _ ← pop
  | .rotTwo => rotate 2
  | .rotThree => rotate 3
  | .rotFour => rotate 4
  | .rotN n => rotate n
  | .dupTop => push (← peek 0)
  | .dupTopTwo =>
    let second ← peek 1
    let top ← peek 0
    pushAll [top, second]
  | .unary op => push (← unary op (← pop))
  | .binary op inplace =>
    let r ← pop
    let l ← pop
    push (← binary op l r inplace)
  | .binarySubscr =>
    let key ← pop
    let container ← pop
    push (← getItem container key)
  | .storeSubscr =>
    let key ← pop
    let container ← pop
    let value ← pop
    setItem container key value
  | .deleteSubscr =>
    let key ← pop
    let container ← pop
    delItem container key
  | .compare op =>
    let r ← pop
    let l ← pop
    push (← compare op l r)
  | .isOp invert =>
    let r ← pop
    let l ← pop
    push (.bool (l.same r != invert))
  | .containsOp invert =>
    let container ← pop
    let item ← pop
    push (.bool ((← contains container item) != invert))
  | .getIter => push (← iter (← pop))
  | .getYieldFromIter => push (← iter (← pop))
  | .loadConst index =>
    let c := (← frame).program.code
    match c.constants[index]? with
    | some constant => push (← make fun s => s.ofConstant c.serial [index] constant)
    | none => broken (.constantOutOfRange index)
  | .loadFast slot => push (← getLocal slot)
  | .storeFast slot => setLocal slot (some (← pop))
  | .deleteFast slot =>
    let _ ← getLocal slot
    setLocal slot none
  | .loadDeref slot | .loadClassDeref slot => push (← getCell slot)
  | .storeDeref slot =>
    let v ← pop
    setCell (← cellAt slot) (some v)
  | .deleteDeref slot =>
    let _ ← getCell slot
    setCell (← cellAt slot) none
  | .loadClosure slot => push (.cell (← cellAt slot))
  | .loadGlobal name entry | .loadName name entry =>
    let c := (← frame).program.code
    push (← loadGlobal (.symbol c.serial entry) name)
  | .storeGlobal name | .storeName name => setGlobal name (← pop)
  | .deleteGlobal name | .deleteName name => deleteGlobal name
  | .loadAttr name => push (← getAttr (← pop) name)
  | .storeAttr name =>
    let v ← pop
    let content ← pop
    setAttr v name content
  | .deleteAttr name =>
    let v ← pop
    raiseText TypeId.attributeError
      ("cannot delete attribute '" ++ name ++ "' of '" ++ (← typeName v) ++ "' object")
  | .loadMethod name =>
    let receiver ← pop
    let method ← getAttr receiver name
    pushAll [receiver, method]
  | .loadAssertionError => push (.classObject TypeId.assertionError)
  | .loadBuildClass | .importName _ | .importFrom _ | .importStar | .setupAnnotations =>
    raiseText TypeId.notImplementedError (op.mnemonic ++ " is not supported")
  | .printExpr =>
    let v ← pop
    unless v.isNone do write ((← repr v) ++ "\n")
  | .build shape n => push (← build shape n)
  | .listToTuple => push (← newTuple (← collect (← pop)))
  | .update kind depth => update kind depth
  | .unpackSequence n => unpackSequence n
  | .unpackEx before after => unpackEx before after
  | .formatValue flags => formatTop flags
  | .callFunction argc => callTop lowering argc
  | .callFunctionKw argc => callKeywords argc
  | .callFunctionEx kwargs => callUnpacked kwargs
  | .callMethod argc => callMethodTop lowering argc
  | .makeFunction flags => makeFunction flags
  | .setupWith _ => enterWith
  | .popExcept =>
    let handled := handledOf (← popMany 3)
    updateFrame fun f => { f with handled }
  | .withExceptStart =>
    let exit ← peek 6
    let type ← peek 0
    let value ← peek 1
    let traceback ← peek 2
    push (← call exit [type, value, traceback])
  | .yieldValue | .yieldFrom => broken (.survived op.mnemonic)
  | .loadSpecial name => push (← special (← pop) name)
  | .resumePoint _ => resumePoint
  | _ => return

/-- An operation and where control goes after it. -/
def operate (op : Op) (lowering : Lowering) : FrameAction Flow := do
  match op with
  | .forIter exit =>
    match ← next (← peek 0) with
    | some v =>
      push v
      return .next
    | none =>
      let _ ← pop
      return .jump exit
  | .jump target => return .jump target
  | .popJumpIf on target =>
    return if (← truthy (← pop)) == on then .jump target else .next
  | .jumpIfOrPop on target =>
    if (← truthy (← peek 0)) == on then return .jump target
    let _ ← pop
    return .next
  | .jumpIfNotExcMatch target =>
    let handler ← pop
    let raised ← pop
    return if ← exceptionMatches raised handler then .next else .jump target
  | .returnValue =>
    let v ← pop
    match lowering with
    | .return_ true => return .leave (← checkReturn (← frame).program v)
    | _ => return .leave v
  | .reraise _ => throw (.raised (← reraised))
  | .raiseVarargs n => throw (.raised (← raisedBy n))
  | .resumeDispatch states => dispatch states
  | .suspend state =>
    let v ← pop
    updateFrame fun f => { f with state }
    return .yields v
  | .delegate state exit => delegate state exit
  | op =>
    perform op lowering
    return .next

/-- Carries out one instruction. -/
def execute (step : Step) : FrameAction Flow :=
  if step.lowering = .elided then return .next else operate step.op step.lowering

end Machine

end Stackwise
