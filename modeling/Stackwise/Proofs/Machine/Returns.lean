import Stackwise.Proofs.Machine.DeclaredResults
import Stackwise.Proofs.Machine.EntryTypes

/-!
# Returned values

A function is compiled for the types of its parameters, and what the analysis knows of the value that
it returns decides whether the return is checked.

* `bind_fits`: the variables of a call fit the state at the entry.
* `Strays`: the steps at which a run can leave what the analysis knows.
* `step_typed`, `run_typed`: every other step keeps a frame that fits its state, and a value that
  leaves such a frame fits the declared type.
* `returned_fits`: a call gives a value of the declared type, or its run has strayed.
-/

namespace Stackwise

namespace Machine

/-! ## 1. Variables of a call -/

/-- **The variables of a call fit the state at the entry.** -/
theorem bind_fits {fn : Function} {args : List Value} {kwargs : List Keyword} {ctx : Context}
    {s s' : Store} {locals : Array (Option Value)}
    (h : bind fn args kwargs ctx s = .ok locals s') :
    List.Forall₂ (Value.FitsVar ctx.compiler.model) locals.toList
      (fn.signature.entryLocals fn.code) := by
  refine (bind_typed h).imp fun y slot htyped w hw x hx => ?_
  cases htyped with
  | none => cases hw
  | some htyped =>
    cases hw
    cases hx
    exact .inl htyped

/-! ## 2. Handlers -/

variable {m : TypeModel} {p : Program} {n : Nat} {s : AbstractState} {f : Frame}

/-- A class, an exception and a traceback lie where the analysis expects them. -/
theorem triple_fits {e : Option Raised} {ctx : Context} {st st' : Store} {vs : List Value}
    (h : triple e ctx st = .ok vs st') : List.Forall₂ (Value.FitsSlot m) vs
      [.value .type, .value .baseException, .value .traceback] := by
  cases e with
  | none =>
    cases h
    exact .cons (.inr (.inl rfl)) (.cons (.inr (.inr (.inl rfl)))
      (.cons (.inr (.inr (.inr rfl))) .nil))
  | some e =>
    cases h
    exact .cons (Value.fits_of_type rfl) (.cons (.inr rfl) (.cons (Value.fits_of_type rfl) .nil))

/-- What lies below a level is as it was before the operation that raised. -/
theorem Remains.cut (h : Remains m p n s f) {level : Nat} (hleft : level + n ≤ s.depth)
    (hheld : level ≤ f.stack.length) :
    List.Forall₂ (Value.FitsSlot m) (Stack.cut f.stack level) (Stack.cut s.stack level) := by
  have hsame : ∀ {t : AbstractState} {k : Nat} (top : List Slot), f.Typed m p t →
      t.stack = top ++ s.stack.drop k → level ≤ (s.stack.drop k).length →
      List.Forall₂ (Value.FitsSlot m) (Stack.cut f.stack level) (Stack.cut s.stack level) := by
    intro t k top hf ht hle
    have hcut := cut_append (s.stack.take k) hle
    rw [List.take_append_drop] at hcut
    rw [hcut, ← cut_append top hle, ← ht, Stack.cut, Stack.cut, hf.stack.length_eq]
    exact List.forall₂_drop _ hf.stack
  rcases h with ⟨k, hf⟩ | ⟨new, hnew, hf⟩
  · exact hsame [] hf rfl (hf.stack.length_eq ▸ hheld)
  · refine hsame new hf rfl ?_
    rw [List.length_drop]
    exact Nat.le_sub_of_add_le hleft

/-- **A handler starts with a frame that fits the state that the analysis has for it.** -/
theorem startHandler_typed {t : AbstractState} (hprogram : f.program = p)
    (hlocals : List.Forall₂ (Value.FitsVar m) f.locals.toList t.locals) {level : Nat}
    (hcut : level ≤ f.stack.length → List.Forall₂ (Value.FitsSlot m) (Stack.cut f.stack level)
      (Stack.cut t.stack level)) {e : Raised} {handler : Nat} {restoreAt : Option Nat}
    {ctx : Context} {st : Store} {a : Activation}
    (h : startHandler e handler level restoreAt ctx ⟨f, st⟩ = .ok () a) :
    a.frame.pc = handler
      ∧ a.frame.Typed m p { t with stack := exceptionSlots ++ Stack.cut t.stack level } := by
  obtain ⟨hreach, hshort⟩ := startHandler_run e handler level restoreAt ctx f st
  rcases Nat.lt_or_ge f.stack.length level with hlt | hle
  · obtain ⟨a', ha'⟩ := hshort hlt
    rw [ha'] at h
    cases h
  · obtain ⟨before, now, s₁, s₂, hbefore, hnow, -, -, hok⟩ := hreach hle
    rw [hok] at h
    cases h
    exact ⟨rfl, hprogram, List.rel_append (List.rel_append (triple_fits hnow) (triple_fits hbefore))
      (hcut hle), hlocals⟩

/-! ## 3. Steps -/

/-- The steps at which a run can leave what the analysis knows. -/
inductive Strays (m : TypeModel) (b : CompiledBody) (p : Program) (ctx : Context) (a : Activation)
    (step : Step) : Prop
  /-- A result is not of the type that the type model declares for it. In the model of the builtin
  types only those can be that the analysis takes on trust. -/
  | result {a' : Activation} (h : execute step ctx a = .ok .next a')
    (hfit : ¬ List.Forall₂ (Value.FitsSlot m) (a'.frame.stack.take step.op.vouched)
      ((b.analysis.state (a.frame.pc + 1)).stack.take step.op.vouched))
    (htrusted : m = .withBuiltins → step.op.trusted a.frame.stack a.store.globals = true)
  /-- An exception comes to a handler although the analysis holds that nothing is raised. -/
  | unforeseen {e : Fault} {a' : Activation} {region : Region}
    (h : execute step ctx a = .error e a') (he : e.isCatchable = true)
    (hregion : Region.find? p.regions a.frame.pc = some region)
    (hop : step.op = .listToTuple ∨ step.op = .returnValue)
  /-- A handler keeps what was put in place of a value below its level. -/
  | exchanged {e : Fault} {a' : Activation} {region : Region}
    (h : execute step ctx a = .error e a') (he : e.isCatchable = true)
    (hregion : Region.find? p.regions a.frame.pc = some region)
    (hlevel : a.frame.stack.length < region.level + step.op.exchanges)

/-- What is left of a frame that fits its state when it takes a step. -/
def Kept (m : TypeModel) (b : CompiledBody) (p : Program) :
    EStateM.Result Fault Activation (Option Exit) → Prop
  | .ok none a => a.frame.Typed m p (b.analysis.state a.frame.pc)
  | .ok (some (.returns v)) _ => v.Fits m p.signature.returns
  | .ok (some (.yields _)) _ => False
  | .error _ _ => True

/-- What the compilation of a plain function gives. -/
structure Settled (m : TypeModel) (config : Config) (b : CompiledBody) (p : Program) : Prop where
  types : m.ExtendsBuiltins
  plain : b.code.isGenerator = false
  body : b.Accepted (CompiledBody.typerFor m config b.code)
  program : p.Of (CompiledBody.typerFor m config b.code) b
  solves : b.analysis.Solves (CompiledBody.typerFor m config b.code) b.instrs
    (CompiledBody.entryState b.code b.signature) fun s t => AbstractState.isWithin m s t = true

theorem Settled.returnType {config : Config} {b : CompiledBody} (h : Settled m config b p) :
    b.returnType = p.signature.returns := by
  rw [CompiledBody.returnType, h.body.generator, h.plain, h.program.signature]
  rfl

theorem Remains.program (h : Remains m p n s f) : f.program = p := by
  rcases h with ⟨k, hf⟩ | ⟨new, -, hf⟩
  · exact hf.program
  · exact hf.program

theorem Remains.locals (h : Remains m p n s f) :
    List.Forall₂ (Value.FitsVar m) f.locals.toList s.locals := by
  rcases h with ⟨k, hf⟩ | ⟨new, -, hf⟩
  · exact hf.locals
  · exact hf.locals

/-- The state of a handler, as far as a frame has to fit it. -/
theorem exceptionState?_alike {e : AbstractState} {o h : Nat}
    (he : s.exceptionState? o = .ok (some (h, e))) : ∃ u, s.unwind? = some u ∧ e.dead = s.dead
      ∧ AbstractState.Alike { s with stack := exceptionSlots ++ Stack.cut s.stack u.level } e := by
  unfold AbstractState.exceptionState? at he
  split at he
  · cases he
  · rename_i u hu
    obtain ⟨cut, hc, he⟩ := bind_eq_ok.mp he
    cases he
    unfold AbstractState.truncate at hc
    split at hc
    · cases hc
      exact ⟨u, hu, rfl, rfl, rfl⟩
    · cases hc

section Steps

variable {config : Config} {b : CompiledBody} {ctx : Context} {st : Store}

/-- A fault leaves a frame at a handler that it fits, unless it strays. -/
theorem fault_typed (hset : Settled m config b p) (hlocked : f.Locked b p)
    (hf : f.Typed m p (b.analysis.state f.pc)) {step : Step} (hstep : p.step? f.pc = some step)
    (hstays : ¬ Strays m b p ctx ⟨f, st⟩ step) {e : Fault} {a : Activation}
    (h : execute step ctx ⟨f, st⟩ = .error e a)
    (hleft : Remains m p step.op.exchanges (b.analysis.state f.pc) a.frame) :
    Kept m b p (routeFault step f.pc e ctx a) := by
  have hlive := locked_live hset.body hlocked
  cases he : e.isCatchable with
  | false =>
    cases e with
    | raised _ | stopIteration _ | alreadyRunning => cases he
    | compile _ | broken _ _ _ | outOfFuel => trivial
  | true =>
    obtain ⟨raised, st', hroute⟩ := routeFault_eq_unwind he step f.pc ctx a.frame a.store
    obtain ⟨hprogram, hpc⟩ := execute_stays hset.body hset.program hlocked hstep h
    have hunwind := unwind_run raised ctx a.frame st'
    rw [show a = ⟨a.frame, a.store⟩ from rfl, hroute]
    simp only [Bind.bind, ReaderT.bind, EStateM.bind, hunwind]
    rw [hprogram, hpc]
    cases hfind : Region.find? p.regions f.pc with
    | none => trivial
    | some region =>
      dsimp only
      cases hstart : startHandler raised region.handler region.level region.restoreAt ctx
          ⟨a.frame, st'⟩ with
      | error e' a' => trivial
      | ok _ a' =>
        change Kept m b p (.ok none a')
        obtain ⟨u, hu, haim⟩ := unwind?_of_find hset.body hset.program hlive hfind
        simp only [Unwind.aim, Region.aim, Prod.mk.injEq] at haim
        obtain ⟨hhandler, hlevel, -⟩ := haim
        obtain ⟨j, hj, -, rfl⟩ := (hset.program.step _ _).mp hstep
        have hmay : j.op.mayRaise = true := by
          have hraised := h
          rw [execute_eq_operate] at hraised
          rcases raises_of_operate hraised he with hmay | hop
          · exact hmay
          · exact absurd (.unforeseen h he hfind hop) hstays
        obtain ⟨entry, hentry, -, hwithin⟩ :=
          hset.solves.exception f.pc j u hj hlive hmay hu
        obtain ⟨u', hu', hdead, halike⟩ := exceptionState?_alike hentry
        obtain rfl : u = u' := Option.some.inj (hu.symm.trans hu')
        have hroom : region.level + j.op.exchanges ≤ (b.analysis.state f.pc).depth := by
          refine Nat.le_of_not_lt fun hlt => hstays (.exchanged h he hfind ?_)
          exact hf.stack.length_eq.trans_lt hlt
        obtain ⟨hpc', htyped⟩ := startHandler_typed (t := b.analysis.state f.pc) hleft.program
          hleft.locals (fun hheld => hleft.cut hroom hheld) hstart
        rw [Kept, hpc', ← hhandler]
        rw [← hlevel] at htyped
        exact (htyped.alike halike).mono hset.types
          ((AbstractState.isWithin_iff (hdead.trans hlive)).mp hwithin)

/-- **A step that does not stray keeps a frame that fits its state,** and a value that is returned
fits the declared type. -/
theorem step_typed (hset : Settled m config b p) (hc : ctx.compiler.model = m)
    (hlocked : f.Locked b p) (hf : f.Typed m p (b.analysis.state f.pc)) {step : Step}
    (hstep : p.step? f.pc = some step) (hstays : ¬ Strays m b p ctx ⟨f, st⟩ step) :
    Kept m b p (stepOnce ctx ⟨f, st⟩) := by
  obtain ⟨i, hi, hlive, hstep'⟩ := (hset.program.step _ _).mp hstep
  obtain ⟨tr, htr, hall⟩ := hset.solves.outcome f.pc i hi hlive
  have hcovered : ∀ {w}, w ∈ tr →
      w.2.Within m (b.analysis.state (w.1.target f.pc)) := by
    intro w hw
    refine (AbstractState.isWithin_iff ?_).mp (hall w hw).2
    exact ((Op.effect_follows htr).2 w hw).dead.trans hlive
  have hmem := List.mem_of_getElem? hi
  have hconst : p.code.constants = b.code.constants := by rw [hset.program.code]
  have htracks := operate_tracks (p := p) hset.types rfl hconst (hset.body.plain hset.plain i hmem)
    (hset.body.fits.op i hmem) htr ctx hc f st hf
  have hexecute : execute step ctx ⟨f, st⟩ = operate i.op (i.op.lowering
      (CompiledBody.typerFor m config b.code) (b.analysis.state f.pc) p.signature.returns) ctx
      ⟨f, st⟩ := by
    rw [hstep', execute_eq_operate, hset.returnType]
  rw [← hexecute] at htracks
  have hop : step.op = i.op := by rw [hstep']
  rw [stepOnce_run (by rw [hf.program]; exact hstep)]
  cases hres : execute step ctx ⟨f, st⟩ with
  | error e a =>
    rw [hres] at htracks
    exact fault_typed hset hlocked hf hstep hstays hres (hop ▸ htracks)
  | ok flow a =>
    rw [hres] at htracks
    obtain ⟨t, ha, hlands⟩ := htracks
    cases flow with
    | next =>
      obtain ⟨t', ht', halike⟩ := hlands
      have htyped : a.frame.Typed m p (b.analysis.state (f.pc + 1)) := by
        refine (ha.alike halike).of_vague hset.types (hcovered ht') ?_
        by_contra hnot
        refine hstays (.result hres (hop ▸ hnot) ?_)
        rintro rfl
        rw [hop]
        by_contra htrusted
        rw [Bool.not_eq_true] at htrusted
        have hfits := result_fits rfl hc hf htr (hexecute ▸ hres) htrusted ht'
        exact hnot (forall₂_comp (fun _ _ _ hv hslot => hv.within hset.types hslot) hfits
          (List.forall₂_take _ (hcovered ht').stack))
      exact ⟨htyped.program, htyped.stack, htyped.locals⟩
    | jump o =>
      obtain ⟨t', ht', halike⟩ := hlands
      have htyped := (ha.alike halike).mono hset.types (hcovered ht')
      exact ⟨htyped.program, htyped.stack, htyped.locals⟩
    | leave v => exact hlands
    | yields v => exact hlands.elim

end Steps

/-! ## 4. Runs -/

/-- Some step of a run from an activation strays. -/
def RunStrays (m : TypeModel) (b : CompiledBody) (p : Program) (ctx : Context) (a : Activation) :
    Prop :=
  ∃ n a' step, after ctx n a = some a' ∧ p.step? a'.frame.pc = some step
    ∧ Strays m b p ctx a' step

theorem RunStrays.later {b : CompiledBody} {ctx : Context} {a a' : Activation}
    (hstep : stepOnce ctx a = .ok none a') (h : RunStrays m b p ctx a') : RunStrays m b p ctx a := by
  obtain ⟨n, a'', step, hafter, hrest⟩ := h
  refine ⟨n + 1, a'', step, ?_, hrest⟩
  rw [after, hstep]
  exact hafter

/-- **A run that does not stray returns a value that fits the declared type.** -/
theorem run_typed {config : Config} {b : CompiledBody} {ctx : Context}
    (hset : Settled m config b p) (hc : ctx.compiler.model = m) {st : Store}
    (hlocked : f.Locked b p) (hf : f.Typed m p (b.analysis.state f.pc)) {fuel : Nat} {v : Value}
    {a : Activation} (h : runSteps ctx fuel ⟨f, st⟩ = .ok (.returns v) a) :
    v.Fits m p.signature.returns ∨ RunStrays m b p ctx ⟨f, st⟩ := by
  induction fuel generalizing f st with
  | zero => cases h
  | succ fuel ih =>
    obtain ⟨step, hstep⟩ : ∃ step, p.step? f.pc = some step := by
      obtain ⟨i, -, hstep⟩ := step?_of_live hset.body hset.program (locked_live hset.body hlocked)
      exact ⟨_, hstep⟩
    by_cases hstrays : Strays m b p ctx ⟨f, st⟩ step
    · exact .inr ⟨0, _, step, rfl, hstep, hstrays⟩
    have hkept := step_typed hset hc hlocked hf hstep hstrays
    have hnext := step_locked hset.body hset.program hlocked (Tolerance.all_context ctx)
      (Tolerance.all_store st)
    rw [runSteps] at h
    cases hres : stepOnce ctx ⟨f, st⟩ with
    | error e a' =>
      rw [hres] at h
      cases h
    | ok exit a' =>
      rw [hres] at h hkept hnext
      cases exit with
      | some exit =>
        cases h
        exact .inl hkept
      | none =>
        obtain ⟨-, hfit, hrun⟩ := hnext
        rcases ih ⟨hfit, .inl hrun⟩ hkept h with hfits | hlater
        · exact .inl hfits
        · exact .inr (hlater.later hres)

/-! ## 5. Calls -/

/-- A call starts with a frame that fits the state at the entry. -/
theorem call_typed {config : Config} {b : CompiledBody} {ctx : Context}
    (hset : Settled m config b p) (hc : ctx.compiler.model = m) {fn : Function}
    (hcode : b.code = fn.code) (hsig : b.signature = fn.signature) {args : List Value}
    {kwargs : List Keyword} {s₀ s₁ s₂ : Store} {locals : Array (Option Value)}
    (hbind : bind fn args kwargs ctx s₀ = .ok locals s₁)
    (hnew : newFrame p fn locals ctx s₁ = .ok f s₂) :
    f.Locked b p ∧ f.Typed m p (b.analysis.state f.pc) := by
  obtain ⟨hprogram, hlocals, -, hstack, hpc, -, -⟩ := newFrame_eq_ok hnew
  have hof := Frame.of_call (by rw [hset.program.code, hcode]) hbind hnew
  refine ⟨locked_of hset.body hset.program hof, ?_⟩
  have hentry : f.Typed m p (CompiledBody.entryState b.code b.signature) := by
    refine ⟨hprogram, ?_, ?_⟩
    · rw [hstack]
      exact .nil
    · rw [hlocals, ← hc, hcode, hsig]
      exact bind_fits hbind
  rw [hpc]
  exact hentry.mono hset.types ((AbstractState.isWithin_iff rfl).mp hset.solves.entry)

/-- The activation that a call runs. -/
def Starts (p : Program) (fn : Function) (args : List Value) (kwargs : List Keyword) (ctx : Context)
    (s : Store) (a : Activation) : Prop :=
  ∃ locals s₁ s₂, bind fn args kwargs ctx s = .ok locals s₁
    ∧ newFrame p fn locals ctx s₁ = .ok a.frame s₂ ∧ a.store = s₂.enter

/-- What is left of a call when the function is compiled. -/
def callCompiled (p : Program) (fn : Function) (args : List Value) (kwargs : List Keyword) :
    Action Value := do
  let locals ← bind fn args kwargs
  let f ← newFrame p fn locals
  if p.isGenerator then
    make (Store.newGenerator {
      name := p.name
      nameId := p.code.qualnameId
      progress := .created f
      lookahead := none
      running := false })
  else
    match ← runFrame f with
    | (.returns v, _) => return v
    | (.yields _, _) => throw (.broken fn.qualname 0 .plainYield)

theorem callFunction_run {fn : Function} {ctx : Context} {s s₀ : Store}
    (hkept : programFor fn.code fn.signature ctx s = .ok p s₀) (args : List Value)
    (kwargs : List Keyword) :
    callFunction fn args kwargs ctx s = callCompiled p fn args kwargs ctx s₀ := by
  change (programFor fn.code fn.signature >>= fun p => callCompiled p fn args kwargs) ctx s = _
  simp only [Bind.bind, ReaderT.bind, EStateM.bind, hkept]

/-- A call of a plain function that gives a value ran its frame. -/
theorem callCompiled_eq_ok {fn : Function} {args : List Value} {kwargs : List Keyword}
    {ctx : Context} {s s' : Store} {v : Value} (hplain : p.isGenerator = false)
    (h : callCompiled p fn args kwargs ctx s = .ok v s') :
    ∃ a a', Starts p fn args kwargs ctx s a ∧ runSteps ctx ctx.fuel a = .ok (.returns v) a' := by
  obtain ⟨locals, s₁, hbind, h⟩ := run_bind_eq_ok.mp h
  obtain ⟨f, s₂, hnew, h⟩ := run_bind_eq_ok.mp h
  rw [hplain] at h
  obtain ⟨⟨exit, f'⟩, s₃, hrun, h⟩ := run_bind_eq_ok.mp h
  unfold runFrame at hrun
  split at hrun
  · cases hrun
  · split at hrun
    · rename_i exit' a' hsteps
      cases hrun
      cases exit with
      | yields _ => cases h
      | returns w =>
        cases h
        exact ⟨⟨f, s₂.enter⟩, a', ⟨locals, s₁, s₂, hbind, hnew, rfl⟩, hsteps⟩
    · cases hrun

/-- **Values are returned as declared.** Whatever call of a plain function gives a value: it is of the
declared type, or stands in for a value of that type, or the run has a step at which the machine did
what the analysis does not know of: an operator, a method, an attribute or a global name gave what the
type model does not declare, or an exception came to a handler that was not prepared for it. -/
theorem returned_fits {fn : Function} {args : List Value} {kwargs : List Keyword} {ctx : Context}
    {s s₀ s' : Store} {b : CompiledBody} {v : Value} (hm : ctx.compiler.model.ExtendsBuiltins)
    (hplain : fn.code.isGenerator = false)
    (hb : ctx.compiler.analyze fn.code fn.signature = .ok b)
    (hp : ctx.compiler.emit b Program.emitter none = .ok p)
    (hkept : programFor fn.code fn.signature ctx s = .ok p s₀)
    (hcall : callFunction fn args kwargs ctx s = .ok v s') :
    ctx.compiler.model.isSubtype v.type fn.signature.returns = true
      ∨ v.StandsIn fn.signature.returns
      ∨ ∃ a, Starts p fn args kwargs ctx s₀ a ∧ RunStrays ctx.compiler.model b p ctx a := by
  obtain ⟨hcode, hsig, haccepted⟩ := CompiledBody.analyze_accepted hb
  have hof := Program.of_emit haccepted hp
  have hset : Settled ctx.compiler.model ctx.compiler.config b p :=
    ⟨hm, hcode ▸ hplain, haccepted, hof, CompiledBody.analyze_solves
      (AbstractState.ascending_isWithin hm.built.ordered) hb⟩
  have hgenerator : p.isGenerator = false := by
    rw [Program.isGenerator, hof.generator, haccepted.generator, hset.plain]
    rfl
  rw [callFunction_run hkept] at hcall
  obtain ⟨a, a', hstarts, hrun⟩ := callCompiled_eq_ok hgenerator hcall
  obtain ⟨locals, s₁, s₂, hbind, hnew, hstore⟩ := hstarts
  obtain ⟨hlocked, htyped⟩ := call_typed hset rfl hcode hsig hbind hnew
  have hreturns : p.signature.returns = fn.signature.returns := by rw [hof.signature, hsig]
  rcases run_typed hset rfl hlocked htyped hrun with (hsub | hstands) | hstrays
  · exact .inl (hreturns ▸ hsub)
  · exact .inr (.inl (hreturns ▸ hstands))
  · exact .inr (.inr ⟨a, ⟨locals, s₁, s₂, hbind, hnew, hstore⟩, hstrays⟩)

/-! ## 6. First calls -/

/-- Where nothing is compiled yet, the function is compiled. -/
theorem programFor_first {code : CodeObject} {sig : CallSignature} {ctx : Context} {s : Store}
    (hempty : s.programs = .empty) (h : compile ctx.compiler code sig = .ok p) :
    programFor code sig ctx s
      = .ok p { s with programs := s.programs.insert (ctx.compiler.number code sig) p } := by
  have hfetch : s.programs.fetch (ctx.compiler.number code sig) code
      (fun _ => compile ctx.compiler code sig)
      = .ok (⟨p, true⟩, s.programs.insert (ctx.compiler.number code sig) p) := by
    have hnone : s.programs.get? (ctx.compiler.number code sig) = none := by
      rw [hempty]
      exact Std.HashMap.getElem?_empty
    unfold Cache.fetch
    rw [hnone, h]
    rfl
  refine run_bind_eq_ok.mpr ⟨ctx, s, rfl, run_bind_eq_ok.mpr ⟨s.programs, s, rfl, ?_⟩⟩
  rw [hfetch]
  rfl

/-- What is compiled for the first call of a function, and what the call gives. -/
structure FirstCall where
  /-- The analysed body. -/
  body : CompiledBody
  /-- The program. -/
  program : Program
  /-- The value. -/
  value : Value

/-- The first call of a function in a fresh store. -/
def firstCall? (c : Compiler) (fn : Function) (args : List Value) (fuel : Nat) :
    Option FirstCall := do
  let body ← (c.analyze fn.code fn.signature).toOption
  let program ← (c.emit body Program.emitter none).toOption
  let programs := Cache.empty.insert (c.number fn.code fn.signature) program
  match callCompiled program fn args [] (context c Digest.standard fuel) { programs } with
  | .ok value _ => some { body, program, value }
  | .error _ _ => none

/-- The parts of the first call of a function. -/
structure FirstCall.Of (r : FirstCall) (ctx : Context) (fn : Function) (args : List Value) :
    Prop where
  body : ctx.compiler.analyze fn.code fn.signature = .ok r.body
  program : ctx.compiler.emit r.body Program.emitter none = .ok r.program
  value : ∃ s s', programFor fn.code fn.signature ctx {} = .ok r.program s
    ∧ callFunction fn args [] ctx {} = .ok r.value s'

theorem context_compiler (c : Compiler) (digest : Digest) (fuel : Nat) :
    (context c digest fuel).compiler = c := by
  cases fuel <;> rfl

theorem exists_firstCall {c : Compiler} {fn : Function} {args : List Value} {fuel : Nat}
    {P : FirstCall → Bool} (h : (firstCall? c fn args fuel).any P = true) :
    ∃ r : FirstCall, r.Of (context c Digest.standard fuel) fn args ∧ P r = true := by
  obtain ⟨r, hr, hP⟩ := (Option.any_eq_true P _).mp h
  refine ⟨r, ?_, hP⟩
  obtain ⟨b, hb, hr⟩ := Option.bind_eq_some_iff.mp hr
  obtain ⟨p, hp, hr⟩ := Option.bind_eq_some_iff.mp hr
  dsimp only at hr
  split at hr
  · rename_i v s' hcall
    cases hr
    have hcompile : compile c fn.code fn.signature = .ok p := by
      unfold compile
      rw [toOption_eq_some.mp hb]
      exact toOption_eq_some.mp hp
    have hctx := context_compiler c Digest.standard fuel
    have hkept : programFor fn.code fn.signature (context c Digest.standard fuel) {} = .ok p
        { programs := Cache.empty.insert (c.number fn.code fn.signature) p } := by
      rw [programFor_first rfl (by rw [hctx]; exact hcompile), hctx]
    refine ⟨by rw [hctx]; exact toOption_eq_some.mp hb, by rw [hctx]; exact toOption_eq_some.mp hp,
      _, s', hkept, ?_⟩
    rw [callFunction_run hkept]
    exact hcall
  · cases hr

/-- The argument plus one, of integers. -/
def addOne : Function :=
  { Function.ofCode { CodeObject.blank 0 "f" "f.py" with
      code := [124, 0, 100, 0, 23, 0, 83, 0]
      constants := [.int 1]
      argCount := 1
      varnames := ["x"] } default default with
    signature := { params := [.int], returns := .int } }

theorem returned_fits_addOne : ∃ (r : FirstCall) (s : Store),
    r.Of (context (.ofModel .withBuiltins {}) Digest.standard 9) addOne [.int 41]
      ∧ r.value.type = .int ∧ addOne.code.isGenerator = false
      ∧ (TypeModel.withBuiltins.isSubtype r.value.type .int = true ∨ r.value.StandsIn .int
        ∨ ∃ a, Starts r.program addOne [.int 41] []
            (context (.ofModel .withBuiltins {}) Digest.standard 9) s a
          ∧ RunStrays .withBuiltins r.body r.program
            (context (.ofModel .withBuiltins {}) Digest.standard 9) a) := by
  have hcall : (firstCall? (.ofModel .withBuiltins {}) addOne [.int 41] 9).any (fun r =>
      r.value.type == .int) = true := by
    simp only [firstCall?, Compiler.analyze, CompiledBody.analyze, CompiledBody.build,
      CompiledBody.settle, Body.decode, InstructionStream.decode, InstructionStream.strayJump?_eq]
    decide +kernel
  obtain ⟨r, hr, hint⟩ := exists_firstCall hcall
  obtain ⟨s, s', hkept, hvalue⟩ := hr.value
  exact ⟨r, s, hr, beq_iff_eq.mp hint, rfl,
    returned_fits .builtins rfl hr.body hr.program hkept hvalue⟩

/-- The power `2 ** -1`, declared to be an integer. -/
def oneHalf : Function :=
  { Function.ofCode { CodeObject.blank 0 "f" "f.py" with
      code := [100, 0, 100, 1, 19, 0, 83, 0]
      constants := [.int 2, .int (-1)] } default default with
    signature := { returns := .int } }

/-- **A power of integers is returned as an integer that it is not:** its type is taken on trust, so
the return is not checked. -/
theorem power_returned_unchecked : ∃ r : FirstCall,
    r.Of (context (.ofModel .withBuiltins {}) Digest.standard 9) oneHalf []
      ∧ oneHalf.signature.returns = .int ∧ r.value.type = .float
      ∧ TypeModel.withBuiltins.isSubtype r.value.type .int = false
      ∧ ¬ r.value.StandsIn .int := by
  have hcall : (firstCall? (.ofModel .withBuiltins {}) oneHalf [] 9).any (fun r =>
      r.value.type == .float && !TypeModel.withBuiltins.isSubtype r.value.type .int) = true := by
    simp only [firstCall?, Compiler.analyze, CompiledBody.analyze, CompiledBody.build,
      CompiledBody.settle, Body.decode, InstructionStream.decode, InstructionStream.strayJump?_eq]
    decide +kernel
  obtain ⟨r, hr, hfloat⟩ := exists_firstCall hcall
  rw [Bool.and_eq_true, beq_iff_eq, Bool.not_eq_true'] at hfloat
  refine ⟨r, hr, rfl, hfloat.1, hfloat.2, fun hstands => ?_⟩
  exact absurd hstands.mem (by decide)

end Machine

end Stackwise
