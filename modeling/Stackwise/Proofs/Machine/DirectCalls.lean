import Stackwise.Proofs.Machine.Returns

/-!
# Direct calls

A call that is resolved at compile time goes by the callee on the stack, and runs the operation of
its name. That is what calling the callee does.

* `AtCall`: a frame at a call instruction, by its callee and its arguments; the method that is called
  was read from the receiver.
* `dataType?_of_lowerCall`: no resolved call has the name of a data attribute, so that
  `getAttr_eq_method`: what is read by this name from a value is a method of the value.
* `directCall_answers`: a resolved call gives what calling the callee gives.
-/

namespace Stackwise

/-! ## 1. Resolved names -/

theorem Typer.resolveCall_eq_method {ty : Typer} {callee : Slot} {args : List Slot}
    {keywords : List String} {res : Resolved}
    (h : ty.resolveCall callee args keywords = .method res) :
    ∃ receiver, ty.resolveMethod receiver res.name args keywords = some res := by
  unfold Typer.resolveCall at h
  split at h
  · rename_i hspecialize
    cases callee with
    | classObject t =>
      dsimp only at h
      split at h <;> cases h
    | value t => cases h
    | method receiver name =>
      dsimp only at h
      split at h
      · rename_i found hfound
        cases h
        have hname : res.name = name := by
          rw [Typer.resolveMethod, if_pos hspecialize] at hfound
          obtain ⟨_, -, rfl⟩ := Option.map_eq_some_iff.mp hfound
          rfl
        exact ⟨receiver, hname ▸ hfound⟩
      · cases h
  · cases h

/-- What a call is resolved to is a method that was found by its name. -/
theorem Op.lowerCall_eq_directCall {ty : Typer} {s : AbstractState} {argc under : Nat}
    {owner : TypeId} {name : String} {signature : Signature}
    (h : Op.lowerCall ty s argc under = .directCall owner name signature) :
    ∃ receiver args res, ty.resolveMethod receiver name args [] = some res := by
  unfold Op.lowerCall at h
  split at h
  · cases h
  · dsimp only at h
    split at h
    · rename_i res hres
      cases h
      obtain ⟨receiver, hreceiver⟩ := Typer.resolveCall_eq_method hres
      exact ⟨receiver, _, res, hreceiver⟩
    · cases h
    · cases h

/-- No resolved call has the name of a data attribute. -/
theorem dataType?_of_lowerCall {ty : Typer} (hty : ty.model = .withBuiltins) {s : AbstractState}
    {argc under : Nat} {owner : TypeId} {name : String} {signature : Signature}
    (h : Op.lowerCall ty s argc under = .directCall owner name signature) :
    Builtins.dataType? name = none := by
  obtain ⟨receiver, args, res, hresolved⟩ := Op.lowerCall_eq_directCall h
  obtain ⟨o, signature, hdeclared, -⟩ := Typer.resolveMethod_declared hresolved
  rw [hty] at hdeclared
  cases hss : TypeModel.withBuiltins.declared? o name with
  | none =>
    rw [hss] at hdeclared
    cases hdeclared
  | some ss =>
    obtain ⟨d, hd, hmem⟩ := TypeModel.mem_of_declared hss
    exact (Builtins.member_covered hd).1 _ hmem

namespace Machine

variable {f : Frame} {ctx : Context} {s s' : Store} {v x : Value} {args rest : List Value}
  {name : String}

/-! ## 2. Methods -/

/-- What is read by a name that is not one of data is a method. -/
theorem getAttr_eq_method (hv : v.isHost = false) (hname : Builtins.dataType? name = none)
    (h : getAttr v name ctx s = .ok x s') : ∃ id nameId, x = .method id v nameId name := by
  obtain ⟨native?, s₁, hnative, h⟩ := run_bind_eq_ok.mp h
  have hnone : native? = none := by
    cases v with
    | native _ _ => cases hv
    | _ =>
      cases hnative
      rfl
  subst hnone
  obtain ⟨data?, s₂, hdata, h⟩ := run_bind_eq_ok.mp h
  cases data? with
  | some y =>
    obtain ⟨t, ht, -⟩ := dataAttribute?_isData (m := ctx.compiler.model) ctx rfl _ _ _ hdata y rfl
    rw [hname] at ht
    cases ht
  | none =>
    obtain ⟨m, s₃, -, h⟩ := run_bind_eq_ok.mp h
    split at h
    · cases h
      exact ⟨_, _, rfl⟩
    · obtain ⟨_, _, -, h⟩ := run_bind_eq_ok.mp h
      cases h

/-- Calling a method of a builtin value runs the operation of its name. -/
theorem callValue_method (hv : v.isHost = false) (id nameId : Ident) (name : String)
    (args : List Value) :
    callValue (.method id v nameId name) args [] = callTypeMethod v name args [] := by
  cases v with
  | native _ _ => cases hv
  | _ => rfl

/-! ## 3. Call instructions -/

/-- A stack with a callee and its arguments above `rest`, at a call instruction. A method lies below
its receiver, from which it was read at some time by the given name. -/
inductive AtCall (m : TypeModel) (name : String) (callee : Value) (args rest : List Value) :
    Op → List Value → Prop where
  | function : AtCall m name callee args rest (.callFunction args.length)
      (args.reverse ++ callee :: rest)
  | method {receiver : Value} {ctx : Context} {s s' : Store} (hm : ctx.compiler.model = m)
      (hread : getAttr receiver name ctx s = .ok callee s') :
      AtCall m name callee args rest (.callMethod args.length)
        (args.reverse ++ receiver :: callee :: rest)

/-- How an instruction ends whose operands lay above `rest`, and that answers with a value. -/
def answered (f : Frame) (rest : List Value) :
    EStateM.Result Fault Store Value → EStateM.Result Fault Activation Flow
  | .ok v s => .ok .next ⟨{ f with stack := v :: rest }, s⟩
  | .error e s => .error e ⟨{ f with stack := rest }, s⟩

theorem popMany_run (hstack : f.stack = args.reverse ++ rest) (ctx : Context) (s : Store) :
    popMany args.length ctx ⟨f, s⟩ = .ok args ⟨{ f with stack := rest }, s⟩ := by
  have hpop : Stack.popMany? f.stack args.length = some (args, rest) := by
    rw [hstack, Stack.popMany?, if_pos (by simp), ← args.length_reverse, List.take_left,
      List.drop_left, List.reverse_reverse]
  rw [popMany, onStack_run, hpop]
  rfl

theorem pop_run (hstack : f.stack = v :: rest) (ctx : Context) (s : Store) :
    pop ctx ⟨f, s⟩ = .ok v ⟨{ f with stack := rest }, s⟩ := by
  rw [pop, onStack_run, hstack]
  rfl

theorem push_run (act : Action Value) (ctx : Context) (s : Store) :
    ((do push (← act)
         return .next) : FrameAction Flow) ctx ⟨{ f with stack := rest }, s⟩
      = answered f rest (act ctx s) := by
  rw [run_lift_bind]
  cases act ctx s <;> rfl

/-- What a resolved call of a function runs. -/
def functionCall (owner : TypeId) (name : String) (callee : Value) (args : List Value) :
    Action Value :=
  match callee with
  | .builtin _ b =>
    if owner == TypeId.builtins && b == name then callBuiltin name args [] else call callee args
  | _ => call callee args

/-- What a resolved call of a method runs. -/
def methodCall (owner : TypeId) (name : String) (receiver method : Value) (args : List Value) :
    Action Value :=
  if owner == TypeId.object || receiver.isHost then call method args
  else callTypeMethod receiver name args []

theorem callTop_eq (owner : TypeId) (name : String) (signature : Signature) (argc : Nat) :
    callTop (.directCall owner name signature) argc = (do
      let args ← popMany argc
      let callee ← pop
      push (← functionCall owner name callee args)) := by
  unfold callTop
  refine congrArg _ (funext fun args => congrArg _ (funext fun callee => ?_))
  cases callee with
  | builtin id b =>
    dsimp only [functionCall]
    split <;> rfl
  | _ => rfl

theorem callMethodTop_eq (owner : TypeId) (name : String) (signature : Signature) (argc : Nat) :
    callMethodTop (.directCall owner name signature) argc = (do
      let args ← popMany argc
      let receiver ← pop
      let method ← pop
      push (← methodCall owner name receiver method args)) := by
  unfold callMethodTop
  refine congrArg _ (funext fun args => congrArg _ (funext fun receiver =>
    congrArg _ (funext fun method => ?_)))
  cases receiver with
  | native ref t =>
    rw [methodCall, show (owner == TypeId.object || (Value.native ref t).isHost) = true from
      Bool.or_true _]
    rfl
  | _ =>
    simp only [methodCall, Value.isHost, Bool.or_false]
    cases owner == TypeId.object <;> rfl

theorem execute_callFunction {callee : Value} (hstack : f.stack = args.reverse ++ callee :: rest)
    (owner : TypeId) (name : String) (signature : Signature) (line : Option Nat) (ctx : Context)
    (s : Store) :
    execute ⟨.callFunction args.length, .directCall owner name signature, line⟩ ctx ⟨f, s⟩
      = answered f rest (functionCall owner name callee args ctx s) := by
  have hexecute : execute ⟨.callFunction args.length, .directCall owner name signature, line⟩
      = (do callTop (.directCall owner name signature) args.length
            return .next) := rfl
  rw [hexecute, callTop_eq]
  simp only [bind_assoc]
  rw [run_bind, popMany_run hstack]
  dsimp only
  rw [run_bind, pop_run rfl]
  exact push_run _ ctx s

theorem execute_callMethod {receiver method : Value}
    (hstack : f.stack = args.reverse ++ receiver :: method :: rest) (owner : TypeId) (name : String)
    (signature : Signature) (line : Option Nat) (ctx : Context) (s : Store) :
    execute ⟨.callMethod args.length, .directCall owner name signature, line⟩ ctx ⟨f, s⟩
      = answered f rest (methodCall owner name receiver method args ctx s) := by
  have hexecute : execute ⟨.callMethod args.length, .directCall owner name signature, line⟩
      = (do callMethodTop (.directCall owner name signature) args.length
            return .next) := rfl
  rw [hexecute, callMethodTop_eq]
  simp only [bind_assoc]
  rw [run_bind, popMany_run hstack]
  dsimp only
  rw [run_bind, pop_run rfl]
  dsimp only
  rw [run_bind, pop_run rfl]
  exact push_run _ ctx s

/-! ## 4. Agreement -/

/-- **A call that was resolved at compile time gives what calling the callee gives,** value or
fault, and does the same to the store. It spends one level of nesting or none. -/
theorem directCall_answers {c : Compiler} (hc : c.model = .withBuiltins) {code : CodeObject}
    {sig : CallSignature} {p : Program} (hp : compile c code sig = .ok p) {o : Nat} {step : Step}
    (hstep : p.step? o = some step) {owner : TypeId} {signature : Signature}
    (hdirect : step.lowering = .directCall owner name signature) {callee : Value}
    (hcall : AtCall c.model name callee args rest step.op f.stack) (digest : Digest) :
    ∃ k ≤ 1, ∀ n s, execute step (context c digest (n + k)) ⟨f, s⟩
      = answered f rest (callValue callee args [] (context c digest n) s) := by
  obtain ⟨b, hb, hp⟩ := bind_eq_ok.mp hp
  have hof := Program.of_emit (CompiledBody.analyze_accepted hb).2.2 hp
  obtain ⟨i, -, -, hsite⟩ := (hof.step _ _).mp hstep
  obtain ⟨op, lowering, line⟩ := step
  obtain ⟨hop, hlowering, -⟩ := Step.mk.inj hsite
  cases hdirect
  have hcalled : ∀ n, call callee args (context c digest (n + 1))
      = callValue callee args [] (context c digest n) := fun _ => rfl
  generalize hstack : f.stack = stack at hcall
  cases hcall with
  | function =>
    have hrun := fun n => execute_callFunction hstack owner name signature line (context c digest n)
    by_cases hthis : ∃ id, owner = TypeId.builtins ∧ callee = .builtin id name
    · obtain ⟨id, rfl, rfl⟩ := hthis
      have hdirectly : functionCall TypeId.builtins name (.builtin id name) args
          = callValue (.builtin id name) args [] := if_pos (by simp)
      exact ⟨0, Nat.zero_le 1, fun n s => hdirectly ▸ hrun n s⟩
    · have hcalls : functionCall owner name callee args = call callee args := by
        unfold functionCall
        split
        · rename_i id b
          refine if_neg fun h => hthis ⟨id, ?_⟩
          rw [Bool.and_eq_true, beq_iff_eq, beq_iff_eq] at h
          exact ⟨h.1, by rw [h.2]⟩
        · rfl
      exact ⟨1, Nat.le_refl 1, fun n s => (hrun (n + 1) s).trans (by rw [hcalls, ← hcalled])⟩
  | @method receiver ctx s₁ s₂ hm hread =>
    have hrun := fun n => execute_callMethod hstack owner name signature line (context c digest n)
    cases hdynamic : owner == TypeId.object || receiver.isHost with
    | true =>
      have hcalls : methodCall owner name receiver callee args = call callee args := if_pos hdynamic
      exact ⟨1, Nat.le_refl 1, fun n s => (hrun (n + 1) s).trans (by rw [hcalls, ← hcalled])⟩
    | false =>
      have hv : receiver.isHost = false := (Bool.or_eq_false_iff.mp hdynamic).2
      rw [← hop] at hlowering
      have hname := dataType?_of_lowerCall hc hlowering.symm
      obtain ⟨id, nameId, rfl⟩ := getAttr_eq_method hv hname hread
      have hdirectly : methodCall owner name receiver (.method id receiver nameId name) args
          = callValue (.method id receiver nameId name) args [] := by
        rw [callValue_method hv]
        exact if_neg (by rw [hdynamic]; exact Bool.false_ne_true)
      exact ⟨0, Nat.zero_le 1, fun n s => hdirectly ▸ hrun n s⟩

/-- The index of the first one of a list. -/
def indexOfOne : CodeObject :=
  { CodeObject.blank 0 "f" "f.py" with
    code := [124, 0, 160, 0, 100, 0, 161, 1, 83, 0]
    constants := [.int 1]
    names := ["index"]
    argCount := 1
    varnames := ["xs"] }

/-- A tuple in place of the list. -/
def ones : Value := .tuple (.made 0) [.int 1, .int 1]

/-- A frame that is about to call a method of it. -/
def indexingFrame (p : Program) (method : Value) : Frame where
  program := p
  locals := #[some ones]
  cells := #[]
  stack := [.int 1, ones, method]
  pc := 3
  state := 0
  handled := none
  resumption := none

/-- Whether a call is resolved to an operation of a type. -/
def goesTo (owner : TypeId) (name : String) : Lowering → Bool
  | .directCall o n _ => o == owner && n == name
  | _ => false

theorem goesTo_eq_true {owner : TypeId} {name : String} {lowering : Lowering}
    (h : goesTo owner name lowering = true) :
    ∃ signature, lowering = .directCall owner name signature := by
  cases lowering with
  | directCall o n signature =>
    rw [goesTo, Bool.and_eq_true, beq_iff_eq, beq_iff_eq] at h
    obtain ⟨rfl, rfl⟩ := h
    exact ⟨signature, rfl⟩
  | _ => cases h

theorem directCall_answers_indexOfOne : ∃ (p : Program) (step : Step) (sig : Signature)
    (method : Value), compile (.ofModel .withBuiltins {}) indexOfOne { params := [.list] } = .ok p
      ∧ p.step? 3 = some step ∧ step.op = .callMethod 1
      ∧ step.lowering = .directCall .list "index" sig ∧ ∃ k ≤ 1, ∀ n s,
        execute step (context (.ofModel .withBuiltins {}) Digest.standard (n + k))
            ⟨indexingFrame p method, s⟩
          = answered (indexingFrame p method) [] (callValue method [.int 1] []
            (context (.ofModel .withBuiltins {}) Digest.standard n) s) := by
  have hcompile : (compile (.ofModel .withBuiltins {}) indexOfOne
      { params := [.list] }).toOption.any (fun p => (p.step? 3).any fun step =>
        step.op == .callMethod 1 && goesTo .list "index" step.lowering) = true := by
    simp only [compile, Compiler.analyze, CompiledBody.analyze, CompiledBody.build,
      CompiledBody.settle, Body.decode, InstructionStream.decode, InstructionStream.strayJump?_eq]
    decide +kernel
  obtain ⟨p, hp, hstep⟩ := (Option.any_eq_true _ _).mp hcompile
  obtain ⟨⟨op, lowering, line⟩, hstep, hcall⟩ := (Option.any_eq_true _ _).mp hstep
  rw [Bool.and_eq_true, beq_iff_eq] at hcall
  obtain ⟨rfl, hdirect⟩ := hcall
  obtain ⟨sig, rfl⟩ := goesTo_eq_true hdirect
  obtain ⟨method, s', hread⟩ : ∃ method s', getAttr ones "index"
      (context (.ofModel .withBuiltins {}) Digest.standard 0) {} = .ok method s' := by
    have hmethod : hasTypeMethod .withBuiltins ones "index" = true := by decide +kernel
    exact ⟨_, _, run_bind_eq_ok.mpr ⟨none, {}, rfl, run_bind_eq_ok.mpr ⟨none, {}, rfl,
      run_bind_eq_ok.mpr ⟨.withBuiltins, {}, rfl, by rw [if_pos hmethod]; rfl⟩⟩⟩⟩
  have hcall : AtCall (.withBuiltins) "index" method [.int 1] [] (.callMethod 1)
      (indexingFrame p method).stack := .method rfl hread
  exact ⟨p, _, sig, method, toOption_eq_some.mp hp, hstep, rfl, rfl,
    directCall_answers rfl (toOption_eq_some.mp hp) hstep rfl hcall Digest.standard⟩

end Machine

end Stackwise
