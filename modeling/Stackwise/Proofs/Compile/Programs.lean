import Stackwise.Compile.Program
import Stackwise.Proofs.Analysis.Handlers
import Stackwise.Proofs.Body.StateMachine

/-!
# Compiled bodies and programs

What is known of a function that was compiled.

* `CompiledBody.Accepted`: its instructions are dense and fit the code object, its states are a
  fixed point, its tables are those of the fixed point, and a generator is a state machine.
* `CompiledBody.analyze_accepted`: every compiled body is accepted; `CompiledBody.analyze_solves`: its
  states are a fixed point in other orders as well.
* `Program.Of`: a program has the instructions of the live offsets, each with its lowering, and the
  tables of its body.
* `Program.of_emit`: so has every program that is emitted.
-/

namespace Stackwise

namespace CompiledBody

/-! ## 1. Bodies -/

/-- What compilation establishes. -/
structure Accepted (ty : Typer) (b : CompiledBody) : Prop where
  fits : Body.Fits b.code b.instrs
  solves : b.analysis.Solves ty b.instrs (entryState b.code b.signature) AbstractState.KeepsForm
  graph : ∃ g, FlowGraph.build b.instrs = .ok g
    ∧ b.graph = g.addExceptionEdges b.analysis.exceptionEdges
  regions : b.regions = Region.table b.instrs b.analysis
  generator : b.generator = if b.code.isGenerator then
    some (.describe b.instrs b.graph b.analysis b.code.localCount) else none
  machine : b.code.isGenerator = true → Body.StateMachine b.instrs
  plain : b.code.isGenerator = false → Body.Plain b.instrs

theorem apply_eq_ok {r r' : Passed} {wanted : Bool}
    {pass : List Instr → Except BodyError (List Instr × OffsetMap)}
    (h : r.apply wanted pass = .ok r') :
    (wanted = false ∧ r' = r)
      ∨ (wanted = true ∧ r'.changed = true ∧ ∃ map, pass r.instrs = .ok (r'.instrs, map)
        ∧ r'.offsets = r.offsets.andThen map) := by
  unfold Passed.apply at h
  split at h
  · obtain ⟨⟨is, map⟩, hpass, h⟩ := bind_eq_ok.mp h
    cases h
    exact .inr ⟨‹_›, rfl, map, hpass, rfl⟩
  · cases h
    exact .inl ⟨Bool.eq_false_iff.mpr ‹_›, rfl⟩

/-- The final instructions come with their own graph and fixed point. -/
theorem settle_eq_ok {ty : Typer} {c : CodeObject} {entry : AbstractState} {r : Passed}
    {g : FlowGraph} {a : Analysis} (h : settle ty c entry = .ok (r, g, a)) :
    Body.Fits c r.instrs ∧ FlowGraph.build r.instrs = .ok g
      ∧ Fixpoint.analyze ty r.instrs g entry = .ok a
      ∧ (c.isGenerator = true → Body.StateMachine r.instrs)
      ∧ (c.isGenerator = false → Body.Plain r.instrs) := by
  obtain ⟨⟨is, offsets⟩, hdecode, h⟩ := bind_eq_ok.mp h
  obtain ⟨g₀, hg₀, h⟩ := bind_eq_ok.mp h
  obtain ⟨a₀, ha₀, h⟩ := bind_eq_ok.mp h
  obtain ⟨r₁, hr₁, h⟩ := bind_eq_ok.mp h
  obtain ⟨r₂, hr₂, h⟩ := bind_eq_ok.mp h
  obtain ⟨hfits, hplain⟩ := Body.decode_fits hdecode
  -- the pass over `with` statements
  have hwith : Body.Fits c r₁.instrs ∧ Body.Plain r₁.instrs
      ∧ (r₁.changed = true ∨ r₁.instrs = is) := by
    rcases apply_eq_ok hr₁ with ⟨-, rfl⟩ | ⟨-, hchanged, map, hpass, -⟩
    · exact ⟨hfits, hplain, .inr rfl⟩
    · obtain ⟨hf, hp⟩ := Body.expandWith_fits hfits hplain hpass
      exact ⟨hf, hp, .inl hchanged⟩
  -- the pass over generators
  have hmachine : Body.Fits c r₂.instrs ∧ (c.isGenerator = true → Body.StateMachine r₂.instrs)
      ∧ (c.isGenerator = false → Body.Plain r₂.instrs)
      ∧ (r₂.changed = true ∨ r₂.instrs = is) := by
    obtain ⟨hf, hp, hc⟩ := hwith
    rcases apply_eq_ok hr₂ with ⟨hgen, rfl⟩ | ⟨hgen, hchanged, map, hpass, -⟩
    · exact ⟨hf, (fun h => nomatch hgen.symm.trans h), fun _ => hp, hc⟩
    · obtain ⟨hm, hf⟩ := Body.toStateMachine_shape hf hp hpass
      exact ⟨hf, fun _ => hm, (fun h => nomatch hgen.symm.trans h), .inl hchanged⟩
  obtain ⟨hf, hm, hp, hc⟩ := hmachine
  split at h
  · obtain ⟨g₁, hg₁, h⟩ := bind_eq_ok.mp h
    obtain ⟨a₁, ha₁, h⟩ := bind_eq_ok.mp h
    cases h
    exact ⟨hf, hg₁, ha₁, hm, hp⟩
  · rename_i hunchanged
    have his := hc.resolve_left hunchanged
    cases h
    rw [his]
    exact ⟨his ▸ hf, hg₀, ha₀, his ▸ hm, his ▸ hp⟩

/-- The states of a compiled body are a fixed point in the sense of every relation that joins
ascend. -/
theorem analyze_solves {m : TypeModel} {config : Config} {c : CodeObject} {s : CallSignature}
    {b : CompiledBody} {R : AbstractState → AbstractState → Prop}
    (hR : AbstractState.Ascending m R) (h : analyze m config c s = .ok b) :
    b.analysis.Solves (typerFor m config b.code) b.instrs (entryState b.code b.signature) R := by
  unfold analyze at h
  split at h
  · rename_i b' hb
    cases h
    obtain ⟨⟨r, g, a⟩, hsettle, hb⟩ := bind_eq_ok.mp hb
    cases hb
    obtain ⟨hf, hg, ha, -⟩ := settle_eq_ok hsettle
    exact Fixpoint.analyze_solves hR hf.dense hg rfl ha
  · cases h

/-- **Every compiled body is accepted.** -/
theorem analyze_accepted {m : TypeModel} {config : Config} {c : CodeObject} {s : CallSignature}
    {b : CompiledBody} (h : analyze m config c s = .ok b) :
    b.code = c ∧ b.signature = s ∧ b.Accepted (typerFor m config b.code) := by
  have hsolves := analyze_solves (AbstractState.ascending_keepsForm m) h
  unfold analyze at h
  split at h
  · rename_i b' hb
    cases h
    obtain ⟨⟨r, g, a⟩, hsettle, hb⟩ := bind_eq_ok.mp hb
    cases hb
    obtain ⟨hf, hg, -, hm, hp⟩ := settle_eq_ok hsettle
    exact ⟨rfl, rfl, hf, hsolves, ⟨g, hg, rfl⟩, rfl, rfl, hm, hp⟩
  · cases h

end CompiledBody

/-! ## 2. Programs -/

namespace Program

/-- The instruction that a site asks for. -/
def stepOf (site : EmitSite) : Step where
  op := site.instr.op
  lowering := site.lowering
  line := site.instr.line

/-- What emission leaves alone. -/
structure SameUnit (p p' : Program) : Prop where
  code : p'.code = p.code
  signature : p'.signature = p.signature
  regions : p'.regions = p.regions
  generator : p'.generator = p.generator

theorem place_eq_ok {p p' : Program} {site : EmitSite} (h : p.place site = .ok p') :
    SameUnit p p' ∧ p.step? site.instr.offset = none
      ∧ ∀ o, p'.step? o = if o = site.instr.offset then some (stepOf site) else p.step? o := by
  unfold place at h
  dsimp only at h
  split at h
  · cases h
  · cases h
  · rename_i hfree
    cases h
    obtain ⟨hlt, -⟩ := Array.getElem?_eq_some_iff.mp hfree
    refine ⟨⟨rfl, rfl, rfl, rfl⟩, ?_, fun o => ?_⟩
    · rw [step?, hfree]
      rfl
    · simp only [step?]
      rw [Array.getElem?_setIfInBounds]
      by_cases ho : o = site.instr.offset
      · rw [if_pos ho, if_pos ho.symm, if_pos hlt]
        rfl
      · rw [if_neg ho, if_neg (Ne.symm ho)]

/-- Emitting sites one after the other. -/
theorem foldlM_emit {sites : List EmitSite} {p : Program} {s : Option Program}
    (h : sites.foldlM (fun s site => emitter.emit site s) (some p) = .ok s) :
    ∃ p', s = some p' ∧ SameUnit p p' ∧ ∀ o st, p'.step? o = some st
      ↔ p.step? o = some st ∨ ∃ site ∈ sites, site.instr.offset = o ∧ stepOf site = st := by
  induction sites generalizing p with
  | nil =>
    cases h
    exact ⟨p, rfl, ⟨rfl, rfl, rfl, rfl⟩, fun o st => by simp⟩
  | cons site sites ih =>
    rw [List.foldlM_cons] at h
    obtain ⟨s₁, hs₁, h⟩ := bind_eq_ok.mp h
    obtain ⟨p₁, hp₁, rfl⟩ := map_eq_ok.mp hs₁
    obtain ⟨hsame₁, hfree, hstep₁⟩ := place_eq_ok hp₁
    obtain ⟨p', rfl, hsame, hstep⟩ := ih h
    refine ⟨p', rfl, ⟨hsame.code.trans hsame₁.code, hsame.signature.trans hsame₁.signature,
      hsame.regions.trans hsame₁.regions, hsame.generator.trans hsame₁.generator⟩, fun o st => ?_⟩
    rw [hstep, hstep₁]
    by_cases ho : o = site.instr.offset
    · rw [if_pos ho, ho, hfree, Option.some.injEq]
      simp
    · rw [if_neg ho]
      simp [Ne.symm ho]

/-- There is a site for each live offset. -/
theorem mem_sites {m : TypeModel} {config : Config} {b : CompiledBody}
    (hb : b.Accepted (CompiledBody.typerFor m config b.code)) {site : EmitSite} :
    site ∈ b.sites m config ↔ ∃ o i, b.instrs[o]? = some i ∧ (b.analysis.state o).dead = false
      ∧ site = ⟨i, b.analysis.state o,
        i.op.lowering (CompiledBody.typerFor m config b.code) (b.analysis.state o) b.returnType⟩ := by
  have hstate : ∀ o s, b.analysis.states.toList[o]? = some s → b.analysis.state o = s := by
    intro o s hs
    rw [Array.getElem?_toList] at hs
    rw [Analysis.state, Array.getD_eq_getD_getElem?, hs, Option.getD_some]
  simp only [CompiledBody.sites, List.mem_filterMap]
  constructor
  · rintro ⟨⟨i, s⟩, hzip, hsite⟩
    obtain ⟨o, ho⟩ := List.mem_iff_getElem?.mp hzip
    obtain ⟨hi, hs⟩ := List.getElem?_zip_eq_some.mp ho
    dsimp only at hsite
    split at hsite
    · cases hsite
    · rename_i hlive
      cases hsite
      have hs' := hstate o s hs
      subst hs'
      exact ⟨o, i, hi, Bool.eq_false_iff.mpr hlive, rfl⟩
  · rintro ⟨o, i, hi, hlive, rfl⟩
    have hlt : o < b.analysis.states.size := by
      rw [hb.solves.size]
      exact (List.getElem?_eq_some_iff.mp hi).1
    have hs : b.analysis.states.toList[o]? = some (b.analysis.state o) := by
      rw [Array.getElem?_toList, Array.getElem?_eq_getElem hlt, Analysis.state,
        Array.getD_eq_getD_getElem?, Array.getElem?_eq_getElem hlt, Option.getD_some]
    refine ⟨(i, b.analysis.state o), ?_, if_neg (Bool.eq_false_iff.mp hlive)⟩
    exact List.mem_iff_getElem?.mpr ⟨o, List.getElem?_zip_eq_some.mpr ⟨hi, hs⟩⟩

/-- A program with the instructions and the tables of a body. -/
structure Of (ty : Typer) (b : CompiledBody) (p : Program) : Prop where
  code : p.code = b.code
  signature : p.signature = b.signature
  regions : p.regions = b.regions
  generator : p.generator = b.generator
  step : ∀ o st, p.step? o = some st ↔ ∃ i, b.instrs[o]? = some i
    ∧ (b.analysis.state o).dead = false
    ∧ st = ⟨i.op, i.op.lowering ty (b.analysis.state o) b.returnType, i.line⟩

/-- **An emitted program is one of its body.** -/
theorem of_emit {m : TypeModel} {config : Config} {b : CompiledBody} {p : Program}
    (hb : b.Accepted (CompiledBody.typerFor m config b.code))
    (h : b.emit m config emitter none = .ok p) : Of (CompiledBody.typerFor m config b.code) b p := by
  unfold CompiledBody.emit at h
  split at h
  · rename_i p' hfeed
    cases h
    obtain ⟨s₀, hstart, hfeed⟩ := bind_eq_ok.mp hfeed
    obtain ⟨s₁, hemit, hfeed⟩ := bind_eq_ok.mp hfeed
    obtain ⟨⟨p', s₂⟩, hfinish, hfeed⟩ := bind_eq_ok.mp hfeed
    cases hfeed
    have hs₀ : s₀ = some (ofHeader b.header) := by
      simp only [emitter] at hstart
      split at hstart
      · cases hstart
      · cases hstart
        rfl
    rw [hs₀] at hemit
    obtain ⟨p₁, rfl, hsame, hstep⟩ := foldlM_emit hemit
    cases hfinish
    refine ⟨hsame.code, hsame.signature, hsame.regions, hsame.generator, fun o st => ?_⟩
    have hempty : (ofHeader b.header).step? o = none := by
      simp only [step?, ofHeader, Array.getElem?_replicate]
      split <;> rfl
    rw [hstep, hempty]
    constructor
    · rintro (h | ⟨site, hsite, rfl, rfl⟩)
      · cases h
      · obtain ⟨o, i, hi, hlive, rfl⟩ := (mem_sites hb).mp hsite
        have hoffset := hb.fits.dense o i hi
        dsimp only
        rw [hoffset]
        exact ⟨i, hi, hlive, rfl⟩
    · rintro ⟨i, hi, hlive, rfl⟩
      exact .inr ⟨_, (mem_sites hb).mpr ⟨o, i, hi, hlive, rfl⟩, hb.fits.dense o i hi, rfl⟩
  · cases h

end Program

end Stackwise
