import Stackwise.Compile.Compiler
import Stackwise.Proofs.Analysis.PassOrder
import Stackwise.Proofs.Compile.Offsets

/-!
# Bodies with `with` spelled out

A function can be compiled with the entries of its `with` blocks spelled out, or with the one
instruction for them kept.

* `Compiler.spelling`: the compiler that does the one or the other.
* `CompiledBody.Spells`: the one body is the other one with every entry spelled out, and the offsets of
  the code object went to corresponding places.
* `CompiledBody.spells_of_analyze`: this is so for the two bodies of every function.
-/

namespace Stackwise

/-- The compiler that spells the entries of `with` blocks out, or keeps them. -/
def Compiler.spelling (c : Compiler) (on : Bool) : Compiler :=
  { c with config := { c.config with desugarWith := on } }

namespace CompiledBody

/-- The body `b'` is the body `b` with every entry of a `with` block spelled out. -/
structure Spells (b b' : CompiledBody) : Prop where
  code : b'.code = b.code
  signature : b'.signature = b.signature
  entries : Body.EntriesSpelled b.instrs b'.instrs
  offsets : ∀ {s}, InstructionStream.decode b.code = .ok s → ∀ i ∈ s.instructions,
    b'.offsets.get? i.offset = (b.offsets.get? i.offset).map (Body.place b.instrs)

section Settled

variable {ty ty' : Typer} {c : CodeObject} {entry entry' : AbstractState} {r r' : Passed}
  {g g' : FlowGraph} {a a' : Analysis}

/-- The two bodies that come of a code object. -/
theorem settle_spelled (h : settle ty c entry = .ok (r, g, a)) (hoff : ty.config.desugarWith = false)
    (h' : settle ty' c entry' = .ok (r', g', a')) (hon : ty'.config.desugarWith = true) :
    Body.EntriesSpelled r.instrs r'.instrs ∧ ∀ {s}, InstructionStream.decode c = .ok s →
      ∀ i ∈ s.instructions,
        r'.offsets.get? i.offset = (r.offsets.get? i.offset).map (Body.place r.instrs) := by
  obtain ⟨is, m₀, g₀, r₁, hdecode, hg₀, hr₁, hr⟩ := settle_passes h
  obtain ⟨_, _, _, r₁', hdecode', -, hr₁', hr'⟩ := settle_passes h'
  cases hdecode.symm.trans hdecode'
  obtain ⟨hfits, hplain⟩ := Body.decode_fits hdecode
  obtain ⟨s, hs, -, hdecoded⟩ := Body.decode_decoded hdecode
  have hd := hfits.dense
  have hbound : ∀ i ∈ is, ∀ t ∈ i.op.targets, t < is.length :=
    fun i hi t ht => FlowGraph.build_target_lt hg₀ hi ht
  rw [hoff, Bool.false_and] at hr₁
  cases hr₁
  -- the body before generators, with the entries spelled out
  obtain ⟨m₁, hlaid, hoffsets⟩ := apply_expandWith hd hplain hbound hr₁'
  rw [hon] at hlaid
  have hspelled := Body.entriesSpelled_of_laid hd hplain hbound hlaid
  have hmid : Body.Fits c r₁'.instrs ∧ Body.Plain r₁'.instrs := by
    rcases apply_eq_ok hr₁' with ⟨-, rfl⟩ | ⟨-, -, map, hpass, -⟩
    · exact ⟨hfits, hplain⟩
    · exact Body.expandWith_fits hfits hplain hpass
  have hplace : ∀ {k i}, s.instructions[k]? = some i → ∃ j, is[k]? = some j
      ∧ m₀.get? i.offset = some k ∧ r₁'.offsets.get? i.offset = some (Body.place is k) := by
    intro k i hk
    obtain ⟨op, j, -, hj, -⟩ := hdecoded.entry hk
    have himage := (Body.image_entered hd hlaid hj).2
    exact ⟨j, hj, hdecoded.map hk, (hoffsets (hdecoded.map hk)
      (List.getElem?_eq_some_iff.mp hj).1).trans himage⟩
  rcases apply_eq_ok hr with ⟨hgen, rfl⟩ | ⟨hgen, -, m₂, hpass, hm₂⟩
  · rcases apply_eq_ok hr' with ⟨-, rfl⟩ | ⟨hgen', -⟩
    · refine ⟨hspelled, fun {s'} hs' i hi => ?_⟩
      cases hs.symm.trans hs'
      obtain ⟨k, hk⟩ := List.mem_iff_getElem?.mp hi
      obtain ⟨j, -, hold, hnew⟩ := hplace hk
      rw [hnew, hold]
      rfl
    · exact absurd (hgen.symm.trans hgen') Bool.false_ne_true
  · rcases apply_eq_ok hr' with ⟨hgen', -⟩ | ⟨-, -, m₂', hpass', hm₂'⟩
    · exact absurd (hgen'.symm.trans hgen) Bool.false_ne_true
    · have hm := Body.machined_of_toStateMachine hfits hplain hpass
      have hm' := Body.machined_of_toStateMachine hmid.1 hmid.2 hpass'
      refine ⟨hspelled.stateMachine hplain hm hm' hd, fun {s'} hs' i hi => ?_⟩
      cases hs.symm.trans hs'
      obtain ⟨k, hk⟩ := List.mem_iff_getElem?.mp hi
      obtain ⟨j, hj, hold, hnew⟩ := hplace hk
      have hlength : r₁'.instrs.length = Body.place is is.length := by
        rw [hlaid.length, Nat.zero_add, List.length_map]
        rfl
      have hlt := (List.getElem?_eq_some_iff.mp hj).1
      have hlt' : Body.place is k < r₁'.instrs.length :=
        hlength ▸ Body.place_lt hlt (Nat.le_refl _)
      rw [hm₂', hm₂, OffsetMap.get?_andThen, OffsetMap.get?_andThen, hnew, hold, Option.bind_some,
        Option.bind_some, Body.map_at hd (Body.toStateMachine_laid hd hpass) hj,
        Body.map_at hmid.1.dense (Body.toStateMachine_laid hmid.1.dense hpass')
          (List.getElem?_eq_getElem hlt')]
      simp only [Body.moved_lt_iff hspelled hplain hm hm' hlength hlt.le]
      split
      · exact congrArg some (Body.place_moved hspelled hplain hm k).symm
      · rfl

end Settled

/-- **The two bodies of a function.** -/
theorem spells_of_analyze {c : Compiler} {code : CodeObject} {sig : CallSignature}
    {b b' : CompiledBody} (h : (c.spelling false).analyze code sig = .ok b)
    (h' : (c.spelling true).analyze code sig = .ok b') : Spells b b' := by
  unfold Compiler.analyze analyze at h h'
  split at h
  · split at h'
    · rename_i hb _ _ hb'
      cases h
      cases h'
      obtain ⟨⟨r, g, a⟩, hsettle, hb⟩ := bind_eq_ok.mp hb
      obtain ⟨⟨r', g', a'⟩, hsettle', hb'⟩ := bind_eq_ok.mp hb'
      cases hb
      cases hb'
      obtain ⟨hentries, hoffsets⟩ := settle_spelled hsettle rfl hsettle' rfl
      exact ⟨rfl, rfl, hentries, hoffsets⟩
    · cases h'
  · cases h

end CompiledBody

end Stackwise
