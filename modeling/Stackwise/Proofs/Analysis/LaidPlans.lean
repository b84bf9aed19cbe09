import Stackwise.Proofs.Analysis.Plans
import Stackwise.Proofs.Analysis.Retarget

/-!
# Plans of bodies that are laid out anew

A pass writes some operations in the place of each one. If these lead, inside the blocks around
them, from the form before the one to the forms behind it, a plan of the old body becomes a plan of
the new one.

* `Op.moves_retarget`: the table of `Op.moves` for moved operations.
* `Plan.StandsFor`: operations that stand for one at an offset of a plan.
* `Plan.laid`: the plan of the new body; `Plan.Laying.sound`: the new body keeps to it.
* `Plan.Sound.dispatched`: a dispatcher in front of it.
-/

namespace Stackwise

/-! ## 1. Forms of moved operations -/

namespace Op

/-- A way on with all its offsets moved. -/
def retargetWay (f : Nat → Nat) (w : Successor × Nat × List Block) : Successor × Nat × List Block :=
  (w.1.retarget f, w.2.1, w.2.2.map (Block.retarget f))

theorem arity?_retarget (f : Nat → Nat) (op : Op) : (op.retarget f).arity? = op.arity? := by
  cases op <;> rfl

theorem handlerTarget?_retarget (f : Nat → Nat) (op : Op) :
    (op.retarget f).handlerTarget? = op.handlerTarget?.map f := by
  cases op <;> rfl

theorem apt_retarget {locals cells : Nat} {op : Op} (f : Nat → Nat) (h : op.Apt locals cells) :
    (op.retarget f).Apt locals cells := by
  cases op <;> exact h

/-- **A moved operation changes forms as before.** -/
theorem moves_retarget (f : Nat → Nat) (op : Op) (d : Nat) (bs : List Block) :
    (op.retarget f).moves d (bs.map (Block.retarget f))
      = (op.moves d bs).map (List.map (retargetWay f)) := by
  cases ha : op.arity? with
  | some a =>
    obtain ⟨taken, left⟩ := a
    rw [moves_of_arity ha, moves_of_arity ((arity?_retarget f op).trans ha)]
    split <;> rfl
  | none =>
    cases op with
    | jump _ => rfl
    | forIter _ | popJumpIf _ _ | jumpIfOrPop _ _ | jumpIfNotExcMatch _ | returnValue
    | setupFinally _ _ _ | setupWith _ | reraise _ | raiseVarargs _ | delegate _ _ =>
      simp only [retarget, moves]
      split <;> rfl
    | popBlock =>
      cases bs with
      | nil => rfl
      | cons b bs => cases b <;> rfl
    | popExcept =>
      cases bs with
      | nil => rfl
      | cons b bs =>
        cases b with
        | protect _ _ _ => rfl
        | handling _ =>
          simp only [retarget, moves, List.map_cons, Block.retarget]
          split <;> rfl
    | _ => cases ha

end Op

/-- Blocks around a moved block were moved. -/
theorem exists_of_suffix_retarget {f : Nat → Nat} {bs rest' : List Block} {h' l : Nat}
    {k : BlockKind} (h : (.protect h' l k :: rest') <:+ bs.map (Block.retarget f)) :
    ∃ h rest, (.protect h l k :: rest) <:+ bs ∧ h' = f h ∧ rest' = rest.map (Block.retarget f) := by
  induction bs with
  | nil => cases List.suffix_nil.mp h
  | cons b bs ih =>
    rw [List.map_cons] at h
    rcases List.suffix_cons_iff.mp h with heq | h
    · cases b with
      | protect hd lv kd =>
        cases heq
        exact ⟨hd, bs, List.suffix_refl _, rfl, rfl⟩
      | handling lv => cases heq
    · obtain ⟨hd, rest, hsuf, hh, hrest⟩ := ih h
      exact ⟨hd, rest, hsuf.trans (List.suffix_cons _ _), hh, hrest⟩

/-- An operation belongs to one chunk. -/
theorem Chunk.start_inj {cs : List Chunk} {k k' j j' : Nat} {c c' : Chunk} (hk : cs[k]? = some c)
    (hk' : cs[k']? = some c') (hj : j < c.ops.length) (hj' : j' < c'.ops.length)
    (h : start cs k + j = start cs k' + j') : k = k' ∧ j = j' := by
  have hs := start_succ hk
  have hs' := start_succ hk'
  rcases Nat.lt_trichotomy k k' with hlt | rfl | hlt
  · have : start cs (k + 1) ≤ start cs k' := start_mono cs hlt
    omega
  · exact ⟨rfl, Nat.add_left_cancel h⟩
  · have : start cs (k' + 1) ≤ start cs k := start_mono cs hlt
    omega

/-! ## 2. The plan -/

namespace Plan

/-- Operations stand for one at the offset `o`: from depth to depth, inside the blocks that are open
there, they lead to where the plan goes on. -/
structure StandsFor (P : Plan) (locals cells o d : Nat) (bs : List Block) (ops : List Op)
    (depths : List Nat) : Prop where
  length : depths.length = ops.length
  first : ∀ {d'}, depths[0]? = some d' → d' = d
  /-- Without any operation the plan goes on in the same form. -/
  none : ops = [] → P (o + 1) (d, bs)
  plain : ∀ op ∈ ops, op.isDispatch = false ∧ op.Apt locals cells
  moves : ∀ {j d' : Nat} {op : Op}, ops[j]? = some op → depths[j]? = some d' → ∃ ws, op.moves d' bs = some ws
    ∧ ∀ {succ F}, (succ, F) ∈ ws → (∃ t, succ = .jump t ∧ P t F)
      ∨ succ = .next ∧ j + 1 = ops.length ∧ P (o + 1) F
      ∨ succ = .next ∧ ∃ d'', depths[j + 1]? = some d'' ∧ F = (d'', bs)
  above : ∀ {j d' : Nat} {op : Op} {u : Unwind}, ops[j]? = some op → depths[j]? = some d' → op.mayRaise = true →
    AbstractState.unwindFrom Option.none bs = some u → u.level ≤ d'

/-- The plan of a body that is laid out in chunks: the depths inside a chunk are given, the blocks
are those before it. -/
def laid (P : Plan) (f : Nat → Nat) (base : Nat) (cs : List Chunk) (depths : Nat → Nat → List Nat) :
    Plan :=
  fun p F => ∃ k d bs j d', P k (d, bs) ∧ (depths k d)[j]? = some d'
    ∧ p = base + Chunk.start cs k + j ∧ F = (d', bs.map (Block.retarget f))

/-- A body with a sound plan is laid out anew, and chunks stand for its operations. -/
structure Laying (P : Plan) (is : List Instr) (locals cells base : Nat) (cs : List Chunk)
    (depths : Nat → Nat → List Nat) (out : List Instr) (map : OffsetMap) : Prop where
  sound : P.Sound is locals cells
  laid : Body.Laid base cs out map
  chunk : ∀ {k d bs}, P k (d, bs) → ∃ c, cs[k]? = some c ∧ c.old = k
    ∧ P.StandsFor locals cells k d bs c.ops (depths k d)
  /-- Blocks are still opened with the same handlers. -/
  opens : ∀ {i h}, i ∈ is → i.op.handlerTarget? = some h →
    ∃ c ∈ cs, ∃ op ∈ c.ops, op.handlerTarget? = some h

namespace Laying

variable {P : Plan} {is out : List Instr} {map : OffsetMap} {locals cells base : Nat}
  {cs : List Chunk} {depths : Nat → Nat → List Nat} {k p d j d' : Nat} {bs : List Block}
  {F : Nat × List Block} {i : Instr}

section Parts

variable (h : P.Laying is locals cells base cs depths out map)

include h

/-- What stands at an offset of the new plan. -/
theorem entry (hk : P k (d, bs)) (hj : (depths k d)[j]? = some d') : ∃ c op i, cs[k]? = some c
    ∧ P.StandsFor locals cells k d bs c.ops (depths k d) ∧ c.ops[j]? = some op
    ∧ out[base + Chunk.start cs k + j]? = some i ∧ i.op = op.retarget map.image := by
  obtain ⟨c, hc, -, hstands⟩ := h.chunk hk
  have hlt : j < c.ops.length := hstands.length ▸ (List.getElem?_eq_some_iff.mp hj).1
  have hop := List.getElem?_eq_getElem hlt
  obtain ⟨i, hi, hrelabel, -⟩ := h.laid.entry hc hop
  obtain ⟨hplain, -⟩ := hstands.plain _ (List.mem_of_getElem? hop)
  exact ⟨c, _, i, hc, hstands, hop, hi, ((Op.relabel_eq_ok hplain).mp hrelabel).2⟩

/-- The new plan has the form of an old offset where its chunk starts. -/
theorem start (hk : P k (d, bs)) : P.laid map.image base cs depths (base + Chunk.start cs k)
    (d, bs.map (Block.retarget map.image)) := by
  -- a chunk without operations starts where the next one does
  induction hn : is.length - k generalizing k with
  | zero =>
    have := h.sound.lt hk
    omega
  | succ n ih =>
    obtain ⟨c, hc, -, hstands⟩ := h.chunk hk
    by_cases hops : c.ops = []
    · have hnext := hstands.none hops
      have hstart : Chunk.start cs (k + 1) = Chunk.start cs k := by
        rw [Chunk.start_succ hc, hops, List.length_nil, Nat.add_zero]
      rw [← hstart]
      exact ih hnext (by omega)
    · have hpos : 0 < (depths k d).length := by
        rw [hstands.length]
        exact List.length_pos_of_ne_nil hops
      have hget := List.getElem?_eq_getElem hpos
      exact ⟨k, d, bs, 0, d, hk, hget.trans (congrArg some (hstands.first hget)), rfl, rfl⟩

theorem lt (hp : P.laid map.image base cs depths p F) : p < out.length := by
  obtain ⟨k, d, bs, j, d', hk, hj, rfl, -⟩ := hp
  obtain ⟨c, op, i, -, -, -, hi, -⟩ := h.entry hk hj
  exact (List.getElem?_eq_some_iff.mp hi).1

theorem image (hk : P k F) : map.image k = base + Chunk.start cs k := by
  obtain ⟨d, bs⟩ := F
  obtain ⟨c, hc, hold, -⟩ := h.chunk hk
  have hmap := h.laid.map hc
  rw [hold, if_pos (h.lt (h.start hk))] at hmap
  exact OffsetMap.image_eq hmap

/-- Where the old plan goes on, the new plan goes on at the image. -/
theorem at_image (hk : P k (d, bs)) : P.laid map.image base cs depths (map.image k)
    (d, bs.map (Block.retarget map.image)) := by
  rw [h.image hk]
  exact h.start hk

theorem unique {F' : Nat × List Block} (hp : P.laid map.image base cs depths p F)
    (hp' : P.laid map.image base cs depths p F') : F = F' := by
  obtain ⟨k, d, bs, j, d₁, hk, hj, rfl, rfl⟩ := hp
  obtain ⟨k', d₂, bs', j', d₃, hk', hj', heq, rfl⟩ := hp'
  obtain ⟨c, op, -, hc, -, hop, -⟩ := h.entry hk hj
  obtain ⟨c', op', -, hc', -, hop', -⟩ := h.entry hk' hj'
  obtain ⟨rfl, rfl⟩ := Chunk.start_inj hc hc' (List.getElem?_eq_some_iff.mp hop).1
    (List.getElem?_eq_some_iff.mp hop').1 (by omega)
  cases h.sound.unique hk hk'
  rw [Option.some.inj (hj.symm.trans hj')]

/-- An operation of the new body has what it needs, and goes on as planned. -/
theorem moves (hi : out[p]? = some i) (hp : P.laid map.image base cs depths p (d, bs)) :
    ∃ ws, i.op.moves d bs = some ws ∧ ∀ {succ F}, (succ, F) ∈ ws →
      P.laid map.image base cs depths (succ.target p) F := by
  obtain ⟨k, d₀, bs₀, j, d', hk, hj, rfl, hF⟩ := hp
  cases hF
  obtain ⟨c, op, i', hc, hstands, hop, hi', hmoved⟩ := h.entry hk hj
  cases hi.symm.trans hi'
  obtain ⟨ws, hm, hall⟩ := hstands.moves hop hj
  refine ⟨ws.map (Op.retargetWay map.image), by rw [hmoved, Op.moves_retarget, hm]; rfl, ?_⟩
  intro succ F hw
  obtain ⟨⟨succ₀, d₁, bs₁⟩, hw₀, heq⟩ := List.mem_map.mp hw
  cases heq
  rcases hall hw₀ with ⟨t, rfl, ht⟩ | ⟨rfl, hlast, hnext⟩ | ⟨rfl, d₂, hd₂, hF⟩
  · exact h.at_image ht
  · have hstart := h.start hnext
    rw [Chunk.start_succ hc, ← hlast, ← Nat.add_assoc, ← Nat.add_assoc] at hstart
    exact hstart
  · cases hF
    exact ⟨k, d₀, _, j + 1, _, hk, hd₂, rfl, rfl⟩

/-- The handlers of open blocks are planned where they have moved. -/
theorem caught {hd l : Nat} {kind : BlockKind} {rest : List Block}
    (hp : P.laid map.image base cs depths p (d, bs))
    (hsuf : (.protect hd l kind :: rest) <:+ bs) :
    P.laid map.image base cs depths hd (l + 6, .handling l :: rest)
      ∧ ∃ i ∈ out, i.op.handlerTarget? = some hd := by
  obtain ⟨k, d₀, bs₀, j, d', hk, hj, rfl, hF⟩ := hp
  cases hF
  obtain ⟨hd₀, rest₀, hsuf₀, rfl, rfl⟩ := exists_of_suffix_retarget hsuf
  obtain ⟨hplanned, i₀, hi₀, htarget⟩ := h.sound.caught hk hsuf₀
  refine ⟨h.at_image hplanned, ?_⟩
  obtain ⟨c, hc, op, hop, hop'⟩ := h.opens hi₀ htarget
  obtain ⟨k', hc⟩ := List.mem_iff_getElem?.mp hc
  obtain ⟨j', hop⟩ := List.mem_iff_getElem?.mp hop
  obtain ⟨i, hi, hrelabel, -⟩ := h.laid.entry hc hop
  have hplain : op.isDispatch = false := by
    cases op <;> first | rfl | cases hop'
  refine ⟨i, List.mem_of_getElem? hi, ?_⟩
  rw [((Op.relabel_eq_ok hplain).mp hrelabel).2, Op.handlerTarget?_retarget, hop']
  rfl

/-- **A body that is laid out anew keeps to the new plan.** -/
theorem soundOut : (P.laid map.image base cs depths).Sound out locals cells where
  unique := h.unique
  lt := h.lt
  apt {p i F} hi hp := by
    obtain ⟨k, d, bs, j, d', hk, hj, rfl, -⟩ := hp
    obtain ⟨c, op, i', -, hstands, hop, hi', hmoved⟩ := h.entry hk hj
    cases hi.symm.trans hi'
    rw [hmoved]
    exact Op.apt_retarget _ (hstands.plain _ (List.mem_of_getElem? hop)).2
  moves := h.moves
  caught := h.caught
  above {p i d bs u} hi hp hm hu := by
    obtain ⟨k, d₀, bs₀, j, d', hk, hj, rfl, hF⟩ := hp
    cases hF
    obtain ⟨c, op, i', -, hstands, hop, hi', hmoved⟩ := h.entry hk hj
    cases hi.symm.trans hi'
    rw [hmoved, Op.mayRaise_retarget] at hm
    rw [AbstractState.unwindFrom_retarget] at hu
    obtain ⟨u₀, hu₀, hlevel⟩ := Option.map_eq_some_iff.mp hu
    have hle := hstands.above hop hj hm hu₀
    rw [← hlevel]
    exact hle

end Parts

end Laying

/-! ## 3. A dispatcher in front -/

/-- A plan that starts at a dispatcher. -/
def dispatched (P : Plan) (d : Nat) : Plan := fun p F => P p F ∨ p = 0 ∧ F = (d, [])

theorem Sound.dispatched {P : Plan} {is : List Instr} {locals cells d : Nat} {i : Instr}
    {states : List (Nat × Nat)} (hP : P.Sound is locals cells) (hfree : ∀ F, ¬ P 0 F)
    (hi : is[0]? = some i) (hop : i.op = .resumeDispatch states) (hnext : P 1 (d, [])) :
    (P.dispatched d).Sound is locals cells where
  unique {o F F'} h h' := by
    rcases h with h | ⟨rfl, rfl⟩
    · rcases h' with h' | ⟨rfl, rfl⟩
      · exact hP.unique h h'
      · exact absurd h (hfree _)
    · rcases h' with h' | ⟨-, rfl⟩
      · exact absurd h' (hfree _)
      · rfl
  lt h := by
    rcases h with h | ⟨rfl, -⟩
    · exact hP.lt h
    · exact (List.getElem?_eq_some_iff.mp hi).1
  apt hj h := by
    rcases h with h | ⟨rfl, -⟩
    · exact hP.apt hj h
    · cases hi.symm.trans hj
      rw [hop]
      trivial
  moves hj h := by
    rcases h with h | ⟨rfl, hF⟩
    · obtain ⟨ws, hm, hall⟩ := hP.moves hj h
      exact ⟨ws, hm, fun hw => .inl (hall hw)⟩
    · cases hF
      cases hi.symm.trans hj
      rw [hop]
      refine ⟨_, rfl, fun hw => ?_⟩
      cases List.mem_singleton.mp hw
      exact .inl hnext
  caught h hsuf := by
    rcases h with h | ⟨rfl, hF⟩
    · obtain ⟨hplanned, hsetup⟩ := hP.caught h hsuf
      exact ⟨.inl hplanned, hsetup⟩
    · cases hF
      cases List.suffix_nil.mp hsuf
  above hj h hm hu := by
    rcases h with h | ⟨rfl, hF⟩
    · exact hP.above hj h hm hu
    · cases hF
      cases hu

end Plan

end Stackwise
