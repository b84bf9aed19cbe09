import Stackwise.Proofs.Machine.Returns
import Stackwise.Proofs.Machine.TidyFrames

/-!
# Keys stay unique

No two keys of a mapping and no two members of a set are equal, whatever is run: but for the mapping
of surplus keyword arguments, which takes them as the call gives them.

* `Store.UniqueKeys`: stores of such mappings and sets, with an exception for certain pairs.
* `Function.repeats`: calls that give a surplus keyword argument twice. `refusing`: the machine that
  refuses them.
* `tidy_bind`, `tidy_callFunction`: binding and calls keep a store tidy, but for these.
* `Run`: what the machine does on a store, up to any point of it.
* `keys_stay_unique`: every run keeps the members of sets unique, and the keys of mappings but for
  texts; these as well if no call had to be refused.
* `keys_repeat`: a call that gives a mapping with one key twice.
-/

namespace Stackwise

/-! ## 1. Unique keys -/

/-- The keys of every mapping and the members of every set can be keys, and no two of them are
equal, but for keys that are excepted. -/
structure Store.UniqueKeys (excepted : Value → Value → Prop) (s : Store) : Prop where
  keys : ∀ r, ∀ p ∈ s.dicts.get r, p.1.isHashable = true
  unequal : ∀ r, (s.dicts.get r).Pairwise fun p q =>
    s.equal p.1 q.1 = false ∧ s.equal q.1 p.1 = false ∨ excepted p.1 q.1
  members : ∀ r, ∀ v ∈ s.sets.get r, v.isHashable = true
  distinct : ∀ r, (s.sets.get r).Pairwise fun v w => s.equal v w = false ∧ s.equal w v = false

/-- Keys are apart if they are hashable and unequal both ways. -/
theorem apart_iff {T : Value → Value → Prop} {ks : List Value} (s : Store) : Apart T ks
    ↔ (∀ k ∈ ks, k.isHashable = true)
      ∧ ks.Pairwise fun a b => s.equal a b = false ∧ s.equal b a = false ∨ T a b := by
  have hequal : (∀ k ∈ ks, k.isHashable = true) → ∀ {a b}, a ∈ ks → b ∈ ks →
      (a.keyEqual b = false ↔ s.equal a b = false ∧ s.equal b a = false) := by
    intro hall a b ha hb
    rw [s.equal_of_hashable (hall a ha), s.equal_of_hashable (hall b hb),
      Value.keyEqual_comm b a (hall b hb) (hall a ha), and_self]
  constructor
  · rintro ⟨hall, hunequal⟩
    exact ⟨hall, hunequal.imp_of_mem fun ha hb h => h.imp_left (hequal hall ha hb).mp⟩
  · rintro ⟨hall, hunequal⟩
    exact ⟨hall, hunequal.imp_of_mem fun ha hb h => h.imp_left (hequal hall ha hb).mpr⟩

theorem Table.exists_get {α : Type} [Inhabited α] {t : Table α} {x : α} (h : x ∈ t.rows) :
    ∃ i, t.get i = x := by
  obtain ⟨i, hi⟩ := Array.mem_iff_getElem?.mp h
  exact ⟨i, Table.get_of_row hi⟩

/-- Tidy stores in terms of the equality that programs see. -/
theorem Store.uniqueKeys_iff {T : Value → Value → Prop} {s : Store} :
    s.UniqueKeys T ↔ s.Tidy T := by
  constructor
  · rintro ⟨hkeys, hunequal, hmembers, hdistinct⟩
    refine ⟨fun pairs hpairs => ?_, fun members hset => ?_⟩
    · obtain ⟨r, rfl⟩ := Table.exists_get hpairs
      exact (apart_iff s).mpr
        ⟨List.forall_mem_map.mpr (hkeys r), List.pairwise_map.mpr (hunequal r)⟩
    · obtain ⟨r, rfl⟩ := Table.exists_get hset
      exact (apart_iff s).mpr ⟨hmembers r, (hdistinct r).imp .inl⟩
  · intro h
    have hdict := fun r => (apart_iff s).mp (h.getDict r)
    have hset := fun r => (apart_iff s).mp (h.getSet r)
    exact ⟨fun r => List.forall_mem_map.mp (hdict r).1, fun r => List.pairwise_map.mp (hdict r).2,
      fun r => (hset r).1, fun r => (hset r).2.imp fun h => h.resolve_right id⟩

/-! ## 2. Surplus keyword arguments -/

namespace Function

/-- The keyword arguments that no parameter takes. -/
def surplus (f : Function) (kwargs : List Keyword) : List Keyword :=
  kwargs.filter fun k => (parameter? f.code k.name).isNone

/-- Whether a surplus keyword argument is given twice to a function that collects them. -/
def repeats (f : Function) (kwargs : List Keyword) : Bool :=
  f.code.hasVarkeywords && !decide ((f.surplus kwargs).map (·.name)).Nodup

/-- Binding leaves over what no parameter takes, in the order of the call. -/
theorem bindNamed_surplus {s : Store} {f : Function} {args : List Value}
    {kwargs extra : List Keyword} {named : List (Option Value)}
    (h : f.bindNamed s args kwargs = .ok (named, extra)) : extra = f.surplus kwargs := by
  obtain ⟨-, slots, hplaced, -⟩ := bindNamed_iff.mp h
  exact placeKeyword_foldlM hplaced

end Function

/-- Two texts. -/
def BothTexts (v w : Value) : Prop := ∃ i s j t, v = .str i s ∧ w = .str j t

/-- The keys of the mapping of surplus keyword arguments. -/
theorem apart_keywords {T : Value → Value → Prop} {extra : List Keyword}
    (h : (∀ v w, BothTexts v w → T v w) ∨ (extra.map (·.name)).Nodup) :
    Apart T ((extra.map fun k => (Value.str k.id k.name, k.value)).map (·.1)) := by
  rw [List.map_map]
  constructor
  · intro v hv
    obtain ⟨k, -, rfl⟩ := List.mem_map.mp hv
    rfl
  · rcases h with htexts | hnodup
    · exact List.pairwise_map.mpr (List.pairwise_of_forall fun k l =>
        .inr (htexts _ _ ⟨k.id, k.name, l.id, l.name, rfl, rfl⟩))
    · exact List.pairwise_map.mpr ((List.pairwise_map.mp hnodup).imp fun hne =>
        .inl (beq_eq_false_iff_ne.mpr hne))

/-! ## 3. Calls of functions -/

namespace Machine

variable {α : Type} {T : Value → Value → Prop}

/-- Binding keeps a store tidy if texts are tolerated, or no surplus keyword argument is given
twice. -/
theorem tidy_bind {f : Function} {kwargs : List Keyword} (args : List Value)
    (h : (∀ v w, BothTexts v w → T v w) ∨ f.repeats kwargs = false) :
    Tidy T (bind f args kwargs) := by
  have hextra : f.code.hasVarkeywords = true →
      (∀ v w, BothTexts v w → T v w) ∨ ((f.surplus kwargs).map (·.name)).Nodup := by
    intro hcollects
    refine h.imp_right fun hrepeats => ?_
    rw [Function.repeats, hcollects, Bool.true_and, Bool.not_eq_false', decide_eq_true_eq] at hrepeats
    exact hrepeats
  have hnamed : ∀ s, Supplies T (bound f (f.bindNamed s args kwargs)) fun given =>
      given.2 = f.surplus kwargs := by
    intro s
    cases hbind : f.bindNamed s args kwargs with
    | ok given => exact supplies_pure (Function.bindNamed_surplus hbind)
    | error e => exact supplies_raiseText _ _
  have hlocals : ∀ params : List (Option Value), Tidy T (do
      let locals := params ++ List.replicate (f.code.localCount - params.length) none
      bound f (f.checkTypes (← model) (← get) locals.toArray)) := fun _ =>
    tidy_model.bind fun _ => tidy_get.bind fun _ => (gentle_bound _ _).tidy
  have hunmatched : ∀ taken : List (Option Value), Tidy T (do
      let unmatched ←
        if f.code.hasVarkeywords then do
          let pairs := (f.surplus kwargs).map fun k => (Value.str k.id k.name, k.value)
          pure [some (← make (Store.newDict pairs))]
        else pure []
      let params := taken ++ unmatched
      let locals := params ++ List.replicate (f.code.localCount - params.length) none
      bound f (f.checkTypes (← model) (← get) locals.toArray)) := by
    intro taken
    dsimp only
    split
    · rename_i hcollects
      exact (tidy_make_of fun s hs => hs.newDict (apart_keywords (hextra hcollects))).bind fun _ =>
        (tidy_pure _).bind fun _ => hlocals _
    · exact (tidy_pure _).bind fun _ => hlocals _
  unfold bind
  dsimp only
  split
  · exact tidy_throw _
  · refine Tidy.bind tidy_get fun s => (hnamed s).tidy_bind fun given hgiven => ?_
    rw [hgiven]
    split
    · exact (gentle_newTuple _).tidy.bind fun _ => (tidy_pure _).bind fun _ => hunmatched _
    · exact (tidy_pure _).bind fun _ => hunmatched _

/-- What is done in a call of a function. -/
theorem tidy_callFunction {f : Function} {kwargs : List Keyword} (args : List Value)
    (h : (∀ v w, BothTexts v w → T v w) ∨ f.repeats kwargs = false) :
    Tidy T (callFunction f args kwargs) := by
  unfold callFunction
  refine (gentle_programFor _ _).tidy.bind fun p => (tidy_bind args h).bind fun locals =>
    (gentle_newFrame p f locals).tidy.bind fun frame => ?_
  split
  · exact tidy_make fun _ => rfl
  · refine (tidy_runFrame frame).bind fun left => ?_
    split
    · exact tidy_pure _
    · exact tidy_throw _

/-! ## 4. Runs -/

/-- Whether a call gives a surplus keyword argument twice to a function that collects them. -/
def repeats (callee : Value) (kwargs : List Keyword) (s : Store) : Bool :=
  match callee with
  | .function r => (s.functions.get r).repeats kwargs
  | _ => false

theorem callValue_tidy {ctx : Context} {callee : Value} {kwargs : List Keyword} {s : Store}
    (args : List Value) (hc : ctx.Tidy T) (hs : s.Tidy T)
    (h : (∀ v w, BothTexts v w → T v w) ∨ repeats callee kwargs s = false) :
    (endState (callValue callee args kwargs ctx s)).Tidy T := by
  cases callee with
  | function r => exact (tidy_callFunction args h).ends hc hs
  | classObject t => exact (tidy_construct t args kwargs).ends hc hs
  | builtin _ name => exact (tidy_callBuiltin name args kwargs).ends hc hs
  | _ =>
    refine Tidy.ends ?_ hc hs
    unfold callValue
    grind

/-- The machine that refuses calls in which a surplus keyword argument is given twice. -/
def refusing (c : Compiler) (d : Digest) : Nat → Context
  | 0 => context c d 0
  | n + 1 => { context c d (n + 1) with
      call := fun callee args kwargs s =>
        if repeats callee kwargs s then .error .outOfFuel s
        else callValue callee args kwargs (refusing c d n) s
      resume := fun g r => resumeFrame g r (refusing c d n) }

variable (c : Compiler) (d : Digest) (n : Nat)

/-- Other calls are carried out. -/
theorem refusing_call {callee : Value} {kwargs : List Keyword} {s : Store} (args : List Value)
    (h : repeats callee kwargs s = false) : (refusing c d (n + 1)).call callee args kwargs s
      = callValue callee args kwargs (refusing c d n) s :=
  if_neg (by rw [h]; exact Bool.false_ne_true)

/-- The machine repeats no keys but texts. -/
theorem context_tidy (htexts : ∀ v w, BothTexts v w → T v w) : (context c d n).Tidy T := by
  induction n with
  | zero => exact ⟨fun _ _ _ _ hs => hs, fun _ _ _ hs => hs⟩
  | succ n ih =>
    exact ⟨fun _ args _ _ hs => callValue_tidy args ih hs (.inl htexts),
      fun g r _ hs => (tidy_resumeFrame g r).ends ih hs⟩

/-- The machine that refuses such calls repeats no keys. -/
theorem refusing_tidy : (refusing c d n).Tidy T := by
  induction n with
  | zero => exact ⟨fun _ _ _ _ hs => hs, fun _ _ _ hs => hs⟩
  | succ n ih =>
    refine ⟨fun callee args kwargs s hs => ?_, fun g r _ hs => (tidy_resumeFrame g r).ends ih hs⟩
    cases hrepeats : repeats callee kwargs s with
    | true =>
      have hrefused : (refusing c d (n + 1)).call callee args kwargs s = .error .outOfFuel s :=
        if_pos hrepeats
      rw [hrefused]
      exact hs
    | false =>
      rw [refusing_call c d n args hrepeats]
      exact callValue_tidy args ih hs (.inr hrepeats)

/-! ## 5. Keys stay unique -/

/-- A run of the machine, from the store on which it starts. -/
inductive Run where
  /-- A value is called, or a generator resumed. -/
  | enters (q : Entry)
  /-- Instructions of a frame are carried out, at most as many as are given. -/
  | goes (steps : Nat) (a : Activation)

namespace Run

/-- The store on which a run starts. -/
def start : Run → Store
  | enters q => q.store
  | goes _ a => a.store

/-- The store that a run leaves, whatever comes of it. -/
def finish (ctx : Context) : Run → Store
  | enters q => endState (ctx.answer q)
  | goes steps a => (endState (runSteps ctx steps a)).store

theorem finish_tidy {ctx : Context} (hc : ctx.Tidy T) {run : Run} (h : run.start.Tidy T) :
    (run.finish ctx).Tidy T := by
  cases run with
  | goes steps a => exact runSteps_tidy hc steps h
  | enters q =>
    cases q with
    | call v args kwargs s => exact hc.call v args kwargs s h
    | resume g r s => exact hc.resume g r s h

end Run

/-- **Keys stay unique.** No run makes two members of a set equal, nor two keys of a mapping that are
not excepted, if all pairs of texts are, or if the run leaves the same store on the machine that
refuses to take a surplus keyword argument twice. -/
theorem keys_stay_unique {excepted : Value → Value → Prop} {run : Run}
    (h : run.start.UniqueKeys excepted)
    (hcalls : (∀ v w, BothTexts v w → excepted v w)
      ∨ run.finish (refusing c d n) = run.finish (context c d n)) :
    (run.finish (context c d n)).UniqueKeys excepted := by
  rw [Store.uniqueKeys_iff] at h ⊢
  rcases hcalls with htexts | hsame
  · exact Run.finish_tidy (context_tidy c d n htexts) h
  · rw [← hsame]
    exact Run.finish_tidy (refusing_tidy c d n) h

/-- Gives the mapping of its keyword arguments. -/
def collector : Function :=
  Function.ofCode { CodeObject.blank 0 "g" "g.py" with
    code := [124, 0, 83, 0]
    varnames := ["kw"]
    flags := ⟨CodeFlags.varkeywordsBit⟩ } default default

/-- The store in which this function is the only object. -/
def collecting : Store := (Store.newFunction collector {}).2

/-- A keyword argument that is given twice. -/
def givenTwice : List Keyword := [⟨default, "a", .int 1⟩, ⟨default, "a", .int 2⟩]

/-- The machine with the builtin types. -/
def builtinMachine (n : Nat) : Context := context (.ofModel .withBuiltins {}) Digest.standard n

theorem collecting_uniqueKeys (T : Value → Value → Prop) : collecting.UniqueKeys T :=
  Store.uniqueKeys_iff.mpr (Store.tidy_collections Store.tidy_empty rfl)

/-- Two keyword arguments that are collected have unique keys, and one that is given twice has them but
for texts. -/
theorem keys_stay_unique_collected :
    let run kwargs := Run.enters (.call (.function 0) [] kwargs collecting)
    let differing : List Keyword := [⟨default, "a", .int 1⟩, ⟨default, "b", .int 2⟩]
    collecting.UniqueKeys (fun _ _ => False)
      ∧ (run differing).finish (refusing (.ofModel .withBuiltins {}) Digest.standard 1)
        = (run differing).finish (builtinMachine 1)
      ∧ ((run differing).finish (builtinMachine 1)).UniqueKeys (fun _ _ => False)
      ∧ ((run givenTwice).finish (builtinMachine 9)).UniqueKeys BothTexts := by
  intro run differing
  have hsame : (run differing).finish (refusing (.ofModel .withBuiltins {}) Digest.standard 1)
      = (run differing).finish (builtinMachine 1) := by
    have hrepeats : repeats (.function 0) differing collecting = false := by decide
    exact congrArg endState (refusing_call _ _ 0 [] hrepeats)
  exact ⟨collecting_uniqueKeys _, hsame,
    keys_stay_unique _ _ _ (collecting_uniqueKeys _) (.inr hsame),
    keys_stay_unique _ _ _ (collecting_uniqueKeys _) (.inl fun _ _ => id)⟩

/-- Whether a call gives a mapping of two texts that are equal. -/
def repeatsText : EStateM.Result Fault Store Value → Bool
  | .ok (.dict r) s =>
    match s.dicts.get r with
    | [(.str _ t, _), (.str _ u, _)] => t == u
    | _ => false
  | _ => false

theorem not_uniqueKeys_of_texts {s : Store} {r : Nat} {i j : Ident} {t : String} {v w : Value}
    (h : s.dicts.get r = [(.str i t, v), (.str j t, w)]) :
    ¬ s.UniqueKeys fun _ _ => False := by
  intro hunique
  have hunequal := hunique.unequal r
  rw [h] at hunequal
  have hne : s.equal (.str i t) (.str j t) = false :=
    ((List.rel_of_pairwise_cons hunequal List.mem_cons_self).resolve_right id).1
  rw [s.equal_of_hashable rfl] at hne
  exact Bool.false_ne_true (hne.symm.trans (beq_self_eq_true t))

theorem repeatsText_eq_true {res : EStateM.Result Fault Store Value} (h : repeatsText res = true) :
    ∃ r s, res = .ok (.dict r) s ∧ ¬ s.UniqueKeys fun _ _ => False := by
  unfold repeatsText at h
  split at h
  · split at h
    · rename_i hpairs
      rw [beq_iff_eq] at h
      subst h
      exact ⟨_, _, rfl, not_uniqueKeys_of_texts hpairs⟩
    · cases h
  · cases h

/-- **A call repeats a key:** the mapping that it gives has the keyword argument twice. -/
theorem keys_repeat : collecting.UniqueKeys (fun _ _ => False)
    ∧ ∃ r s, (builtinMachine 9).call (.function 0) [] givenTwice collecting = .ok (.dict r) s
      ∧ ¬ s.UniqueKeys fun _ _ => False := by
  refine ⟨collecting_uniqueKeys _, repeatsText_eq_true ?_⟩
  let c : Compiler := .ofModel .withBuiltins {}
  have hrun : (compile c collector.code .dynamic).toOption.any (fun p =>
      repeatsText (callCompiled p collector [] givenTwice (builtinMachine 8) { collecting with
        programs := collecting.programs.insert (c.number collector.code .dynamic) p })) = true := by
    simp only [compile, Compiler.analyze, CompiledBody.analyze, CompiledBody.build,
      CompiledBody.settle, Body.decode, InstructionStream.decode, InstructionStream.strayJump?_eq]
    decide +kernel
  obtain ⟨p, hp, hrepeats⟩ := (Option.any_eq_true _ _).mp hrun
  have hkept : programFor collector.code collector.signature (builtinMachine 8) collecting = .ok p _ :=
    programFor_first rfl (toOption_eq_some.mp hp)
  show repeatsText (callFunction collector [] givenTwice (builtinMachine 8) collecting) = true
  rw [callFunction_run hkept]
  exact hrepeats

end Machine

end Stackwise
