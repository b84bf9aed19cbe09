import Stackwise.Proofs.Analysis.Anchored
import Stackwise.Proofs.Compile.Programs

/-!
# Rewriting what was validated

A function is analysed as it was decoded, and then its `with` statements are spelled out and a
generator becomes a state machine. What the first analysis found is a plan of the body, and the
rewrites keep to it.

* `Body.Closed`: a body that names no offset outside; the rewrites keep it so.
* `Plan.Ready`: a body with a plan from its entry on; the rewrites keep it so if every yield stands
  above the level of the block around it.
* `CompiledBody.rewrite_iff`: when the rewrites succeed.
* `CompiledBody.build_of_validated`: what succeeds behind them.
-/

namespace Stackwise

/-! ## 1. Bodies that are closed -/

namespace Body

variable {c : CodeObject} {is out : List Instr} {map : OffsetMap}

/-- A body of a code object that names no offset outside. -/
structure Closed (c : CodeObject) (is : List Instr) : Prop where
  fits : Fits c is
  nonempty : is ≠ []
  inside : ∀ i ∈ is, ∀ t ∈ i.op.targets, t < is.length

theorem Closed.exists_expandWith (h : Closed c is) (hplain : Plain is) :
    ∃ out map, expandWith is = .ok (out, map) :=
  Body.exists_expandWith h.fits.dense hplain h.inside

theorem Closed.expandWith (h : Closed c is) (hplain : Plain is)
    (hout : expandWith is = .ok (out, map)) : Closed c out ∧ Plain out ∧ Spelled is out map := by
  have hspelled := expandWith_spelled h.fits hplain hout
  have hpos : 0 < out.length :=
    Nat.lt_of_lt_of_le (List.length_pos_of_ne_nil h.nonempty) hspelled.length_le
  exact ⟨⟨(expandWith_fits h.fits hplain hout).1, List.ne_nil_of_length_pos hpos,
    fun i' hi' t' ht' => hspelled.target_lt h.inside hi' ht'⟩, hspelled.plain, hspelled⟩

theorem Closed.toStateMachine (h : Closed c is) (hplain : Plain is)
    (hout : toStateMachine is = .ok (out, map)) : Closed c out ∧ StateMachine out := by
  obtain ⟨hm, hfits⟩ := toStateMachine_shape h.fits hplain hout
  refine ⟨⟨hfits, ?_, fun i' hi' t' ht' =>
    toStateMachine_target_lt h.fits.dense hplain hout hm hi' ht'⟩, hm⟩
  rintro rfl
  obtain ⟨i, hi, -⟩ := hm.dispatcher
  cases hi

end Body

/-! ## 2. Bodies on a plan -/

namespace Plan

/-- A body with a plan from its entry on. No stack of it is deeper than those of the plan `P₀`. -/
structure Ready (P₀ P : Plan) (is : List Instr) (locals cells d : Nat) : Prop where
  sound : P.Sound is locals cells
  entry : P 0 (d, [])
  shallow : ∀ {D}, (∀ {o d bs}, P₀ o (d, bs) → d ≤ D) → ∀ {o d bs}, P o (d, bs) → d ≤ D

namespace Ready

variable {P₀ P : Plan} {c : CodeObject} {is out : List Instr} {map : OffsetMap}
  {locals cells d : Nat}

section Rewrites

variable (h : P₀.Ready P is locals cells d) (hclosed : Body.Closed c is) (hplain : Body.Plain is)
include h hclosed hplain

theorem expandWith (hout : Body.expandWith is = .ok (out, map)) :
    ∃ P', P₀.Ready P' out locals cells d ∧ (P.YieldsAbove is → P'.YieldsAbove out) := by
  have hlaying := h.sound.expanding hclosed.fits.dense hplain hout
  refine ⟨_, ⟨hlaying.soundOut, hlaying.start h.entry, fun hD => ?_⟩, hlaying.yieldsAbove⟩
  intro o d bs hp
  exact h.sound.expanded_le (h.shallow hD) hp

theorem toStateMachine (habove : P.YieldsAbove is) (hout : Body.toStateMachine is = .ok (out, map)) :
    ∃ P', P₀.Ready P' out locals cells d := by
  obtain ⟨hm, -⟩ := Body.toStateMachine_shape hclosed.fits hplain hout
  refine ⟨_, h.sound.transformed hclosed.fits.dense hplain habove h.entry hm hout, .inr ⟨rfl, rfl⟩,
    fun hD => ?_⟩
  intro o d bs hp
  exact h.sound.transformed_le (h.shallow hD) h.entry hp

end Rewrites

end Ready

end Plan

namespace CompiledBody

variable {m : TypeModel} {config : Config} {c : CodeObject} {s : CallSignature} {is : List Instr}
  {offsets : OffsetMap} {g : FlowGraph} {a : Analysis} {r : Passed}

/-! ## 3. Validated functions -/

/-- A function has passed validation: it was decoded, its graph was built and the first analysis
succeeded. -/
structure Validated (m : TypeModel) (config : Config) (c : CodeObject) (s : CallSignature)
    (is : List Instr) (offsets : OffsetMap) (g : FlowGraph) (a : Analysis) : Prop where
  decoded : Body.decode c = .ok (is, offsets)
  graph : FlowGraph.build is = .ok g
  analyzed : Fixpoint.analyze (typerFor m config c) is g (entryState c s) = .ok a

/-- Decoding, the graph and the first analysis. -/
def validate (m : TypeModel) (config : Config) (c : CodeObject) (s : CallSignature) :
    Except BodyError (List Instr × OffsetMap × FlowGraph × Analysis) := do
  let (is, offsets) ← Body.decode c
  let g ← FlowGraph.build is
  let a ← Fixpoint.analyze (typerFor m config c) is g (entryState c s)
  return (is, offsets, g, a)

theorem validate_eq_ok (h : validate m config c s = .ok (is, offsets, g, a)) :
    Validated m config c s is offsets g a := by
  obtain ⟨⟨is', offsets'⟩, hdecode, h⟩ := bind_eq_ok.mp h
  obtain ⟨g', hg, h⟩ := bind_eq_ok.mp h
  obtain ⟨a', ha, h⟩ := bind_eq_ok.mp h
  cases h
  exact ⟨hdecode, hg, ha⟩

/-- Where unreached code names an offset, or leaves a delegation, an instruction stays at the offset
or behind it. -/
def UnreachedAnchored (is : List Instr) (a : Analysis) : Prop :=
  ∀ (o : Nat) (i : Instr), is[o]? = some i → (a.state o).dead = true →
    ∀ t ∈ i.op.mentions o, Body.Stays is t

/-- A yield that control comes to stands above the level of the block around it. -/
def SuspendsAbove (is : List Instr) (a : Analysis) : Prop :=
  ∀ (o : Nat) (i : Instr) (u : Unwind), is[o]? = some i → (a.state o).dead = false →
    i.op.isYield = true → (a.state o).unwind? = some u → u.level < (a.state o).depth

instance (is : List Instr) (a : Analysis) : Decidable (UnreachedAnchored is a) :=
  decidable_of_iff (∀ o < is.length, ∀ i ∈ is[o]?, (a.state o).dead = true →
      ∀ t ∈ i.op.mentions o, Body.Stays is t)
    ⟨fun h o i hi => h o (List.getElem?_eq_some_iff.mp hi).1 i hi, fun h o _ i hi => h o i hi⟩

instance (is : List Instr) (a : Analysis) : Decidable (SuspendsAbove is a) :=
  decidable_of_iff (∀ o < is.length, ∀ i ∈ is[o]?, (a.state o).dead = false →
      i.op.isYield = true → ∀ u ∈ (a.state o).unwind?, u.level < (a.state o).depth)
    ⟨fun h o i u hi hl hy hu => h o (List.getElem?_eq_some_iff.mp hi).1 i hi hl hy u hu,
      fun h o _ i hi hl hy u hu => h o i u hi hl hy hu⟩

theorem SuspendsAbove.yieldsAbove (habove : SuspendsAbove is a) : a.planned.YieldsAbove is := by
  intro o i d bs u hi ho hyield hu
  obtain ⟨hlive, hF⟩ := ho
  cases hF
  exact habove o i u hi hlive hyield hu

/-- Both rewrites. -/
def rewrite (config : Config) (c : CodeObject) (r : Passed) : Except BodyError Passed := do
  let r ← r.apply (config.desugarWith && Body.hasWith r.instrs) Body.expandWith
  r.apply c.isGenerator Body.toStateMachine

theorem apply_wanted {pass : List Instr → Except BodyError (List Instr × OffsetMap)}
    {out : List Instr} {map : OffsetMap} (h : pass r.instrs = .ok (out, map)) :
    r.apply true pass = .ok ⟨out, r.offsets.andThen map, true⟩ := bind_eq_ok.mpr ⟨_, h, rfl⟩

namespace Validated

variable (h : Validated m config c s is offsets g a)
include h

theorem closed : Body.Closed c is ∧ Body.Plain is := by
  obtain ⟨hfits, hplain⟩ := Body.decode_fits h.decoded
  exact ⟨⟨hfits, (FlowGraph.build_eq_ok h.graph).1,
    fun i hi t ht => FlowGraph.build_target_lt h.graph hi ht⟩, hplain⟩

/-- What the first analysis found is a plan. -/
theorem ready : a.planned.Ready a.planned is (entryState c s).locals.length
    (entryState c s).cells.length (entryState c s).depth := by
  have hs := Fixpoint.analyze_solves (AbstractState.ascending_keepsForm _)
    h.closed.1.fits.dense h.graph rfl h.analyzed
  obtain ⟨hlive, hform⟩ := hs.entry rfl
  exact ⟨hs.sound rfl rfl fun o => hs.variables rfl, ⟨hlive, Prod.ext hform.depth hform.blocks⟩,
    fun hD => hD⟩

theorem anchored_iff : Body.Anchored is ↔ UnreachedAnchored is a := by
  refine ⟨fun hall o i hi _ => hall o i hi, fun hdead => h.ready.sound.anchored h.closed.2 ?_⟩
  intro o i hi hnone
  refine hdead o i hi ?_
  by_contra hlive
  exact hnone _ ⟨Bool.eq_false_iff.mpr hlive, rfl⟩

/-- After validation come the rewrites and, if they changed anything, another analysis. -/
theorem settle_eq (hr : rewrite config c ⟨is, offsets, false⟩ = .ok r) :
    settle (typerFor m config c) c (entryState c s) = if r.changed then do
        let graph ← FlowGraph.build r.instrs
        let analysis ← Fixpoint.analyze (typerFor m config c) r.instrs graph (entryState c s)
        return (r, graph, analysis)
      else .ok (r, g, a) := by
  obtain ⟨r₁, hr₁, hr₂⟩ := bind_eq_ok.mp hr
  unfold settle
  rw [h.decoded]
  change (FlowGraph.build is >>= _) = _
  rw [h.graph]
  change (Fixpoint.analyze (typerFor m config c) is g (entryState c s) >>= _) = _
  rw [h.analyzed]
  change (Passed.apply ⟨is, offsets, false⟩ (config.desugarWith && Body.hasWith is) Body.expandWith
    >>= _) = _
  rw [hr₁]
  change (r₁.apply c.isGenerator Body.toStateMachine >>= _) = _
  rw [hr₂]
  rfl

/-- The body after the first rewrite, with all that the second one needs. -/
theorem exists_spelled : ∃ r₁ P, Passed.apply ⟨is, offsets, false⟩
      (config.desugarWith && Body.hasWith is) Body.expandWith = .ok r₁
    ∧ Body.Closed c r₁.instrs ∧ Body.Plain r₁.instrs
    ∧ (Body.Anchored r₁.instrs ↔ UnreachedAnchored is a)
    ∧ a.planned.Ready P r₁.instrs (entryState c s).locals.length (entryState c s).cells.length
      (entryState c s).depth
    ∧ (SuspendsAbove is a → P.YieldsAbove r₁.instrs) := by
  obtain ⟨hclosed, hplain⟩ := h.closed
  cases config.desugarWith && Body.hasWith is with
  | false => exact ⟨_, _, rfl, hclosed, hplain, h.anchored_iff, h.ready, (·.yieldsAbove)⟩
  | true =>
    obtain ⟨out, map, hout⟩ := hclosed.exists_expandWith hplain
    obtain ⟨hclosed', hplain', hspelled⟩ := hclosed.expandWith hplain hout
    obtain ⟨P, hready, habove⟩ := h.ready.expandWith hclosed hplain hout
    exact ⟨_, P, apply_wanted hout, hclosed', hplain',
      (hspelled.anchored_iff hclosed.inside).trans h.anchored_iff, hready,
      fun ha => habove ha.yieldsAbove⟩

/-- **The rewrites succeed** exactly if the function is no generator or its unreached code is
anchored. -/
theorem rewrite_iff : (∃ r, rewrite config c ⟨is, offsets, false⟩ = .ok r)
    ↔ (c.isGenerator = true → UnreachedAnchored is a) := by
  obtain ⟨r₁, -, hr₁, hclosed, hplain, hanchored, -⟩ := h.exists_spelled
  rw [← hanchored, ← Body.toStateMachine_iff hclosed.fits.dense hplain]
  constructor
  · rintro ⟨r, hr⟩ hc
    obtain ⟨r₁', hr₁', hr₂⟩ := bind_eq_ok.mp hr
    cases hr₁.symm.trans hr₁'
    rcases apply_eq_ok hr₂ with ⟨hno, -⟩ | ⟨-, -, map, hpass, -⟩
    · cases hc.symm.trans hno
    · exact ⟨_, map, hpass⟩
  · intro hgen
    suffices hr : ∃ r, r₁.apply c.isGenerator Body.toStateMachine = .ok r by
      obtain ⟨r, hr⟩ := hr
      exact ⟨r, bind_eq_ok.mpr ⟨r₁, hr₁, hr⟩⟩
    cases hc : c.isGenerator with
    | false => exact ⟨r₁, rfl⟩
    | true =>
      obtain ⟨out, map, hout⟩ := hgen hc
      exact ⟨_, apply_wanted hout⟩

/-- What the rewrites leave is closed, and on a plan if yields stand above the levels around them. -/
theorem rewritten (hr : rewrite config c ⟨is, offsets, false⟩ = .ok r) : Body.Closed c r.instrs
    ∧ ((c.isGenerator = true → SuspendsAbove is a) → ∃ P, a.planned.Ready P r.instrs
      (entryState c s).locals.length (entryState c s).cells.length (entryState c s).depth) := by
  obtain ⟨r₁, P, hr₁, hclosed, hplain, -, hready, habove⟩ := h.exists_spelled
  obtain ⟨r₁', hr₁', hr₂⟩ := bind_eq_ok.mp hr
  cases hr₁.symm.trans hr₁'
  rcases apply_eq_ok hr₂ with ⟨-, rfl⟩ | ⟨hc, -, map, hpass, -⟩
  · exact ⟨hclosed, fun _ => ⟨P, hready⟩⟩
  · exact ⟨(hclosed.toStateMachine hplain hpass).1,
      fun ha => hready.toStateMachine hclosed hplain (habove (ha hc)) hpass⟩

end Validated

/-! ## 4. What follows the rewrites -/

/-- **What was validated is rewritten and analysed again.** The rewrites succeed exactly if unreached
code of a generator is anchored. Behind them the graph can be built. If all yields of a generator that
control comes to stand above the level of the block around them, all that can fail is the second
analysis, at its bound; and it does not if no stack is deeper than the new body is long. -/
theorem build_of_validated (hm : m.ExtendsBuiltins) (hc : config.maxSteps = none)
    (h : Validated m config c s is offsets g a) :
    ((∃ r, rewrite config c ⟨is, offsets, false⟩ = .ok r)
        ↔ (c.isGenerator = true → UnreachedAnchored is a))
      ∧ ∀ r, rewrite config c ⟨is, offsets, false⟩ = .ok r →
        ∃ g', FlowGraph.build r.instrs = .ok g' ∧ ((c.isGenerator = true → SuspendsAbove is a) →
          (∀ e, build m config c s = .error e → r.changed = true ∧ ∃ k, e = .noFixedPoint k)
          ∧ (Fixpoint.allowance m g'.size r.instrs.length (entryState c s) ≤ Fixpoint.maxBound →
            (∀ o, (a.state o).dead = false → (a.state o).depth ≤ r.instrs.length) →
            ∃ b, build m config c s = .ok b)) := by
  refine ⟨h.rewrite_iff, fun r hr => ?_⟩
  obtain ⟨hclosed, hplanned⟩ := h.rewritten hr
  obtain ⟨g', hg'⟩ := FlowGraph.exists_build hclosed.nonempty hclosed.inside
  refine ⟨g', hg', fun habove => ?_⟩
  obtain ⟨P, hready⟩ := hplanned habove
  refine ⟨fun e he => ?_, fun hfits hdeep => ?_⟩
  · rcases bind_eq_error he with he | ⟨x, -, he⟩
    · rw [h.settle_eq hr] at he
      split at he
      · rename_i hchanged
        refine ⟨hchanged, ?_⟩
        rcases bind_eq_error he with he | ⟨g'', hg'', he⟩
        · cases hg'.symm.trans he
        · cases hg'.symm.trans hg''
          rcases bind_eq_error he with he | ⟨a', -, he⟩
          · exact Fixpoint.analyze_of_sound hready.sound hclosed.fits.dense hg' rfl hready.entry he
          · cases he
      · cases he
    · cases he
  · have hshallow : ∀ {o d bs}, P o (d, bs) → d ≤ r.instrs.length := hready.shallow fun ho => by
      obtain ⟨hlive, hF⟩ := ho
      cases hF
      exact hdeep _ hlive
    obtain ⟨a', ha'⟩ : ∃ a', Fixpoint.analyze (typerFor m config c) r.instrs g' (entryState c s)
        = .ok a' := Fixpoint.exists_analyze hready.sound hclosed.fits.dense hg' rfl hready.entry hm hc
      hfits hshallow
    have hsettle : ∃ x, settle (typerFor m config c) c (entryState c s) = .ok x := by
      rw [h.settle_eq hr]
      split
      · exact ⟨_, bind_eq_ok.mpr ⟨g', hg', bind_eq_ok.mpr ⟨a', ha', rfl⟩⟩⟩
      · exact ⟨_, rfl⟩
    obtain ⟨x, hx⟩ := hsettle
    exact ⟨_, bind_eq_ok.mpr ⟨x, hx, rfl⟩⟩

/-- A generator that yields inside a `with` statement, with a jump back that nothing reaches:
`with None: yield None`. -/
def guardedYield : CodeObject :=
  { CodeObject.blank 0 "g" "g.py" with
    code := [129, 0, 100, 0, 143, 7, 1, 0, 100, 0, 86, 0, 1, 0, 87, 0, 100, 0, 83, 0, 100, 0, 83, 0,
      113, 8]
    constants := [.none]
    flags := ⟨0x63⟩ }

theorem build_of_validated_guardedYield : TypeModel.withBuiltins.ExtendsBuiltins
    ∧ ∃ is offsets g a r b, Validated .withBuiltins {} guardedYield .dynamic is offsets g a
      ∧ (a.state 12).dead = true ∧ UnreachedAnchored is a ∧ SuspendsAbove is a
      ∧ rewrite {} guardedYield ⟨is, offsets, false⟩ = .ok r ∧ r.changed = true
      ∧ build .withBuiltins {} guardedYield .dynamic = .ok b := by
  have hrun : (validate .withBuiltins {} guardedYield .dynamic).toOption.any
      (fun (is, offsets, _, a) => (a.state 12).dead && decide (UnreachedAnchored is a)
        && decide (SuspendsAbove is a)
        && (rewrite {} guardedYield ⟨is, offsets, false⟩).toOption.any fun r =>
          r.changed && (FlowGraph.build r.instrs).toOption.any fun g' =>
            decide (Fixpoint.allowance .withBuiltins g'.size r.instrs.length
              (entryState guardedYield .dynamic) ≤ Fixpoint.maxBound)
            && decide (∀ o < is.length, (a.state o).dead = false →
              (a.state o).depth ≤ r.instrs.length)) = true := by
    simp only [validate, Body.decode, InstructionStream.decode, InstructionStream.strayJump?_eq]
    decide +kernel
  obtain ⟨⟨is, offsets, g, a⟩, hvalid, hrun⟩ := (Option.any_eq_true _ _).mp hrun
  have h := validate_eq_ok (toOption_eq_some.mp hvalid)
  simp only [Bool.and_eq_true, decide_eq_true_eq] at hrun
  obtain ⟨⟨⟨hdead, hanchored⟩, habove⟩, hrun⟩ := hrun
  obtain ⟨r, hr, hrun⟩ := (Option.any_eq_true _ _).mp hrun
  rw [toOption_eq_some] at hr
  obtain ⟨hchanged, hrun⟩ := Bool.and_eq_true_iff.mp hrun
  obtain ⟨g', hg', hrun⟩ := (Option.any_eq_true _ _).mp hrun
  rw [toOption_eq_some] at hg'
  simp only [Bool.and_eq_true, decide_eq_true_eq] at hrun
  obtain ⟨hfits, hdeep⟩ := hrun
  obtain ⟨-, hrest⟩ := build_of_validated .builtins rfl h
  obtain ⟨g'', hg'', hbuild⟩ := hrest r hr
  cases hg'.symm.trans hg''
  obtain ⟨b, hb⟩ := (hbuild fun _ => habove).2 hfits fun o ho =>
    hdeep o (h.ready.sound.lt (o := o) ⟨ho, rfl⟩) ho
  exact ⟨.builtins, is, offsets, g, a, r, b, h, hdead, hanchored, habove, hr, hchanged, hb⟩

/-- Whether a function passes validation with a property and is then rejected with an error. -/
def rejects (m : TypeModel) (c : CodeObject) (p : List Instr → Analysis → Bool) (e : BodyError) :
    Bool :=
  (validate m {} c .dynamic).toOption.any (fun (is, _, _, a) => p is a)
    && match build m {} c .dynamic with
      | .ok _ => false
      | .error e' => e' == e

theorem validated_of_rejects {p : List Instr → Analysis → Bool} {e : BodyError}
    (h : rejects m c p e = true) :
    (∃ is offsets g a, Validated m {} c .dynamic is offsets g a ∧ p is a = true)
      ∧ build m {} c .dynamic = .error e := by
  obtain ⟨hvalid, hbuild⟩ := Bool.and_eq_true_iff.mp h
  obtain ⟨⟨is, offsets, g, a⟩, hv, hp⟩ := (Option.any_eq_true _ _).mp hvalid
  refine ⟨⟨is, offsets, g, a, validate_eq_ok (toOption_eq_some.mp hv), hp⟩, ?_⟩
  split at hbuild
  · cases hbuild
  · rename_i e' he
    rw [he, eq_of_beq hbuild]

/-- A generator that ends in a delegation that nothing reaches. -/
def deadDelegation : CodeObject :=
  { CodeObject.blank 0 "g" "g.py" with
    code := [129, 0, 100, 0, 83, 0, 72, 0]
    constants := [.none]
    flags := ⟨0x63⟩ }

/-- **It passes validation and is rejected**: the rewrite gives its delegation the exit 4, and nothing
stays there. -/
theorem build_rejects_deadDelegation :
    (∃ is offsets g a, Validated .withBuiltins {} deadDelegation .dynamic is offsets g a
      ∧ (a.state 3).dead = true)
      ∧ build .withBuiltins {} deadDelegation .dynamic = .error (.invalidJumpTarget 3 4) := by
  refine validated_of_rejects (p := fun _ a => (a.state 3).dead) ?_
  simp only [rejects, validate, build, settle, Body.decode, InstructionStream.decode,
    InstructionStream.strayJump?_eq]
  decide +kernel

/-- A generator that yields the value below a `try` statement inside it. -/
def yieldAtLevel : CodeObject :=
  { CodeObject.blank 0 "g" "g.py" with
    code := [100, 0, 122, 3, 86, 0, 87, 0, 83, 0, 1, 0, 1, 0, 1, 0, 89, 0, 83, 0]
    constants := [.int 1]
    flags := ⟨0x63⟩ }

/-- It passes validation too. The yield takes the value, and the resume point behind it may raise with
a stack that is lower than the level of the block. -/
theorem build_rejects_yieldAtLevel :
    (∃ is offsets g a, Validated .withBuiltins {} yieldAtLevel .dynamic is offsets g a
      ∧ decide (UnreachedAnchored is a) = true)
      ∧ build .withBuiltins {} yieldAtLevel .dynamic = .error (.stackUnderflow 4) := by
  refine validated_of_rejects (p := fun is a => decide (UnreachedAnchored is a)) ?_
  simp only [rejects, validate, build, settle, Body.decode, InstructionStream.decode,
    InstructionStream.strayJump?_eq]
  decide +kernel

end CompiledBody

end Stackwise
