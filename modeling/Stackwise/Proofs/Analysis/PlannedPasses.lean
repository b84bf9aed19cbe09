import Stackwise.Proofs.Analysis.ExpandedBody
import Stackwise.Proofs.Analysis.LaidPlans
import Stackwise.Proofs.Analysis.Transformed

/-!
# Plans through the passes

Both passes keep a body on a plan, and neither makes a stack deeper.

* `Plan.expanding`: the plan of a body with `with` spelled out.
* `Plan.transforming`: the plan of a state machine, if every yield that control comes to stands above
  the level of the block around it.
-/

namespace Stackwise

namespace Plan

variable {P : Plan} {is out : List Instr} {map : OffsetMap} {locals cells k d j d' : Nat}
  {bs : List Block} {i : Instr}

/-- Every yield that control comes to stands above the level of the block around it. -/
def YieldsAbove (P : Plan) (is : List Instr) : Prop := ∀ {o i d bs u}, is[o]? = some i →
  P o (d, bs) → i.op.isYield = true → AbstractState.unwindFrom none bs = some u → u.level < d

/-! ## 1. Operations that stand for one -/

/-- The depths in the chunk of an instruction, by its operation and the depth before it. -/
def depthsAt (f : Op → Nat → List Nat) (is : List Instr) (k d : Nat) : List Nat :=
  match is[k]? with
  | some i => f i.op d
  | none => []

theorem depthsAt_eq {f : Op → Nat → List Nat} (hi : is[k]? = some i) :
    depthsAt f is k d = f i.op d := by
  rw [depthsAt, hi]

/-- An operation that goes on inside its chunk. -/
theorem goesOn {op : Op} {depths : List Nat} {taken left : Nat}
    (ha : op.arity? = some (taken, left)) (hle : taken ≤ d)
    (hnext : depths[j + 1]? = some (d - taken + left)) {o n : Nat} :
    ∃ ws, op.moves d bs = some ws ∧ ∀ {succ F}, (succ, F) ∈ ws → (∃ t, succ = .jump t ∧ P t F)
      ∨ succ = .next ∧ j + 1 = n ∧ P (o + 1) F
      ∨ succ = .next ∧ ∃ d'', depths[j + 1]? = some d'' ∧ F = (d'', bs) := by
  refine ⟨_, (Op.moves_of_arity ha d bs).trans (if_pos hle), fun hw => ?_⟩
  cases List.mem_singleton.mp hw
  exact .inr (.inr ⟨rfl, _, hnext, rfl⟩)

/-- A way on by its kind. -/
theorem landing {o n : Nat} {depths : List Nat} {succ : Successor} {F : Nat × List Block}
    (hlast : j + 1 = n) (h : P (succ.target o) F) : (∃ t, succ = .jump t ∧ P t F)
      ∨ succ = .next ∧ j + 1 = n ∧ P (o + 1) F
      ∨ succ = .next ∧ ∃ d'', depths[j + 1]? = some d'' ∧ F = (d'', bs) := by
  cases succ with
  | next => exact .inr (.inl ⟨rfl, hlast, h⟩)
  | jump t => exact .inl ⟨t, rfl, h⟩

section Sound

variable (hP : P.Sound is locals cells) (hi : is[k]? = some i) (hk : P k (d, bs))

include hP hi hk

/-- Every operation stands for itself. -/
theorem Sound.standsFor_self (hplain : i.op.isDispatch = false) :
    P.StandsFor locals cells k d bs [i.op] [d] where
  length := rfl
  first h := (Option.some.inj h).symm
  none h := by cases h
  plain op hop := by
    rw [List.mem_singleton.mp hop]
    exact ⟨hplain, hP.apt hi hk⟩
  moves {j d' op} hj hd := by
    cases j with
    | succ j => cases hj
    | zero =>
      cases hj
      cases hd
      obtain ⟨ws, hm, hall⟩ := hP.moves hi hk
      exact ⟨ws, hm, fun hw => landing rfl (hall hw)⟩
  above {j d' op u} hj hd hm hu := by
    cases j with
    | succ j => cases hj
    | zero =>
      cases hj
      cases hd
      exact hP.above hi hk hm hu

/-- The operations that enter a `with` block stand for the one that does. -/
theorem Sound.standsFor_with {handler : Nat} (hop : i.op = .setupWith handler) :
    P.StandsFor locals cells k d bs (Body.expandOp (.setupWith handler))
      [d, d + 1, d + 1, d + 1, d + 1, d + 1] := by
  obtain ⟨ws, hm, hall⟩ := hP.moves hi hk
  rw [hop, Op.moves, Option.ite_none_right_eq_some] at hm
  obtain ⟨hd, hws⟩ := hm
  cases hws
  have hinside := hall (.head _)
  have hcaught := hall (.tail _ (.head _))
  refine ⟨rfl, fun h => (Option.some.inj h).symm, fun h => absurd h (List.cons_ne_nil _ _), ?_, ?_, ?_⟩
  · intro op hop
    simp only [Body.expandOp, List.mem_cons, List.not_mem_nil, or_false] at hop
    rcases hop with rfl | rfl | rfl | rfl | rfl | rfl <;> exact ⟨rfl, trivial⟩
  · intro j d' op hj hd'
    rcases j with _ | _ | _ | _ | _ | _ | j <;> cases hj <;> cases hd'
    · exact goesOn rfl hd (congrArg some (by omega))
    · exact goesOn rfl (by omega) rfl
    · exact goesOn rfl (by omega) (congrArg some (by omega))
    · exact goesOn rfl (by omega) rfl
    · exact goesOn rfl (by omega) rfl
    · have hopen : (Op.setupFinally handler .withBlock 1).moves (d + 1) bs
          = some [(.next, d + 1, .protect handler d .withBlock :: bs),
            (.jump handler, d + 6, .handling d :: bs)] := by simp [Op.moves]
      refine ⟨_, hopen, fun hw => ?_⟩
      simp only [List.mem_cons, List.not_mem_nil, Prod.mk.injEq, or_false] at hw
      rcases hw with ⟨rfl, rfl⟩ | ⟨rfl, rfl⟩
      · exact landing rfl hinside
      · exact landing rfl hcaught
  · intro j d' op u hj hd' _ hu
    have hle : u.level ≤ d := hP.above hi hk (by rw [hop]; rfl) hu
    rcases j with _ | _ | _ | _ | _ | _ | j <;> cases hj <;> cases hd' <;> omega

/-- A suspension and its resume point stand for a yield. -/
theorem Sound.standsFor_yieldValue (hop : i.op = .yieldValue) (state : Nat)
    (habove : ∀ u, AbstractState.unwindFrom none bs = some u → u.level < d) :
    P.StandsFor locals cells k d bs [.suspend state, .resumePoint state] [d, d - 1] := by
  obtain ⟨ws, hm, hall⟩ := hP.moves hi hk
  rw [hop, Op.moves_of_arity rfl, Option.ite_none_right_eq_some] at hm
  obtain ⟨hd, hws⟩ := hm
  cases hws
  have hnext := hall (.head _)
  refine ⟨rfl, fun h => (Option.some.inj h).symm, fun h => (nomatch h), ?_, ?_, ?_⟩
  · intro op hop
    simp only [List.mem_cons, List.not_mem_nil, or_false] at hop
    rcases hop with rfl | rfl <;> exact ⟨rfl, trivial⟩
  · intro j d' op hj hd'
    rcases j with _ | _ | j <;> cases hj <;> cases hd'
    · exact goesOn rfl hd rfl
    · refine ⟨_, rfl, fun hw => ?_⟩
      cases List.mem_singleton.mp hw
      exact landing rfl hnext
  · intro j d' op u hj hd' hraise hu
    have hlt := habove u hu
    rcases j with _ | _ | j <;> cases hj <;> cases hd' <;> omega

/-- The loop of a delegation stands for it. -/
theorem Sound.standsFor_yieldFrom (hop : i.op = .yieldFrom) (state : Nat)
    (habove : ∀ u, AbstractState.unwindFrom none bs = some u → u.level < d) :
    P.StandsFor locals cells k d bs [.delegate state (k + 1), .resumePoint state, .jump k]
      [d, d - 1, d] := by
  obtain ⟨ws, hm, hall⟩ := hP.moves hi hk
  rw [hop, Op.moves_of_arity rfl, Option.ite_none_right_eq_some] at hm
  obtain ⟨hd, hws⟩ := hm
  cases hws
  have hnext : P (k + 1) (d - 1, bs) := by
    have hnext := hall (.head _)
    rwa [show d - 2 + 1 = d - 1 by omega] at hnext
  refine ⟨rfl, fun h => (Option.some.inj h).symm, fun h => (nomatch h), ?_, ?_, ?_⟩
  · intro op hop
    simp only [List.mem_cons, List.not_mem_nil, or_false] at hop
    rcases hop with rfl | rfl | rfl <;> exact ⟨rfl, trivial⟩
  · intro j d' op hj hd'
    rcases j with _ | _ | _ | j <;> cases hj <;> cases hd'
    · refine ⟨_, if_pos hd, fun hw => ?_⟩
      simp only [List.mem_cons, List.not_mem_nil, Prod.mk.injEq, or_false] at hw
      rcases hw with ⟨rfl, rfl⟩ | ⟨rfl, rfl⟩
      · exact .inr (.inr ⟨rfl, _, rfl, rfl⟩)
      · exact .inl ⟨_, rfl, hnext⟩
    · exact goesOn rfl (Nat.zero_le _) (congrArg some (by omega))
    · refine ⟨_, rfl, fun hw => ?_⟩
      cases List.mem_singleton.mp hw
      exact .inl ⟨k, rfl, hk⟩
  · intro j d' op u hj hd' hraise hu
    have hlt := habove u hu
    rcases j with _ | _ | _ | j <;> cases hj <;> cases hd' <;> omega

end Sound

/-! ## 2. Spelling out `with` -/

/-- The depths in the expansion of an operation. -/
def expandedDepths (op : Op) (d : Nat) : List Nat :=
  if op.isWith then [d, d + 1, d + 1, d + 1, d + 1, d + 1] else [d]

/-- **Spelling out `with` keeps a body on its plan.** -/
theorem Sound.expanding (hP : P.Sound is locals cells) (hd : Dense is) (hplain : Body.Plain is)
    (h : Body.expandWith is = .ok (out, map)) :
    P.Laying is locals cells 0 (is.map Body.expandedChunk) (depthsAt expandedDepths is) out map where
  sound := hP
  laid := Body.expandWith_laid hd h
  chunk {k d bs} hk := by
    obtain ⟨i, hi⟩ : ∃ i, is[k]? = some i := ⟨_, List.getElem?_eq_getElem (hP.lt hk)⟩
    refine ⟨Body.expandedChunk i, by rw [List.getElem?_map, hi]; rfl, hd k i hi, ?_⟩
    rw [depthsAt_eq hi, expandedDepths]
    change P.StandsFor locals cells k d bs (Body.expandOp i.op) _
    cases hw : i.op.isWith with
    | false =>
      rw [show Body.expandOp i.op = [i.op] from Body.enteredOps_eq true hw]
      exact hP.standsFor_self hi hk (Op.isDispatch_of_plain (hplain i (List.mem_of_getElem? hi)))
    | true =>
      obtain ⟨handler, hop⟩ := Op.exists_of_isWith hw
      rw [hop]
      exact hP.standsFor_with hi hk hop
  opens {i handler} hi hop := by
    refine ⟨_, List.mem_map.mpr ⟨i, hi, rfl⟩, ?_⟩
    change ∃ op ∈ Body.expandOp i.op, _
    cases hw : i.op.isWith with
    | false =>
      rw [show Body.expandOp i.op = [i.op] from Body.enteredOps_eq true hw]
      exact ⟨i.op, .head _, hop⟩
    | true =>
      obtain ⟨handler', hop'⟩ := Op.exists_of_isWith hw
      rw [hop'] at hop ⊢
      cases hop
      exact ⟨.setupFinally handler .withBlock 1, by simp [Body.expandOp], rfl⟩

/-- Spelling out `with` makes no stack deeper. -/
theorem Sound.expanded_le (hP : P.Sound is locals cells) {deepest p : Nat}
    (hdeepest : ∀ {o d bs}, P o (d, bs) → d ≤ deepest)
    (hp : P.laid map.image 0 (is.map Body.expandedChunk) (depthsAt expandedDepths is) p (d, bs)) :
    d ≤ deepest := by
  obtain ⟨k, d₀, bs₀, j, d', hk, hj, -, hF⟩ := hp
  cases hF
  obtain ⟨i, hi⟩ : ∃ i, is[k]? = some i := ⟨_, List.getElem?_eq_getElem (hP.lt hk)⟩
  have hle := hdeepest hk
  rw [depthsAt_eq hi, expandedDepths] at hj
  cases hw : i.op.isWith with
  | false =>
    rw [hw] at hj
    cases List.mem_singleton.mp (List.mem_of_getElem? hj)
    exact hle
  | true =>
    -- the next operation stands one deeper, as those of the expansion do
    obtain ⟨handler, hop⟩ := Op.exists_of_isWith hw
    obtain ⟨ws, hm, hall⟩ := hP.moves hi hk
    rw [hop, Op.moves, Option.ite_none_right_eq_some] at hm
    obtain ⟨-, hws⟩ := hm
    cases hws
    have hnext := hdeepest (hall (.head _))
    rw [hw] at hj
    have hmem := List.mem_of_getElem? hj
    simp only [if_true, List.mem_cons, List.not_mem_nil, or_false] at hmem
    omega

/-- Spelling out `with` leaves yields where they are. -/
theorem Laying.yieldsAbove (h : P.Laying is locals cells 0 (is.map Body.expandedChunk)
      (depthsAt expandedDepths is) out map) (habove : P.YieldsAbove is) :
    (P.laid map.image 0 (is.map Body.expandedChunk) (depthsAt expandedDepths is)).YieldsAbove out := by
  intro p i' d bs u hi' hp hyield hu
  obtain ⟨k, d₀, bs₀, j, d', hk, hj, rfl, hF⟩ := hp
  cases hF
  obtain ⟨c, op, i'', hc, -, hop, hi'', hmoved⟩ := h.entry hk hj
  cases hi'.symm.trans hi''
  rw [List.getElem?_map] at hc
  obtain ⟨i, hi, rfl⟩ := Option.map_eq_some_iff.mp hc
  replace hop : (Body.expandOp i.op)[j]? = some op := hop
  rw [hmoved, (Op.retarget_kind _ op).2.2.1] at hyield
  rw [AbstractState.unwindFrom_retarget] at hu
  obtain ⟨u₀, hu₀, hlevel⟩ := Option.map_eq_some_iff.mp hu
  rw [depthsAt_eq hi, expandedDepths] at hj
  cases hw : i.op.isWith with
  | false =>
    rw [hw] at hj
    rw [show Body.expandOp i.op = [i.op] from Body.enteredOps_eq true hw] at hop
    cases List.mem_singleton.mp (List.mem_of_getElem? hop)
    cases List.mem_singleton.mp (List.mem_of_getElem? hj)
    have hlt := habove hi hk hyield hu₀
    rw [← hlevel]
    exact hlt
  | true =>
    obtain ⟨handler, hwith⟩ := Op.exists_of_isWith hw
    rw [hwith] at hop
    rw [(Body.expandOp_plain (List.mem_of_getElem? hop)).2.2] at hyield
    cases hyield

/-! ## 3. State machines -/

/-- The depths in what stands for an operation of a generator. -/
def suspendedDepths (op : Op) (d : Nat) : List Nat :=
  match op with
  | .genStart _ => []
  | .yieldValue => [d, d - 1]
  | .yieldFrom => [d, d - 1, d]
  | _ => [d]

/-- **A state machine keeps to the plan of its generator.** -/
theorem Sound.transforming (hP : P.Sound is locals cells) (hd : Dense is) (hplain : Body.Plain is)
    (habove : P.YieldsAbove is) (h : Body.toStateMachine is = .ok (out, map)) :
    P.Laying is locals cells 1 (Body.stateChunks 1 is) (depthsAt suspendedDepths is) out map where
  sound := hP
  laid := Body.toStateMachine_laid hd h
  chunk {k d bs} hk := by
    obtain ⟨i, hi⟩ : ∃ i, is[k]? = some i := ⟨_, List.getElem?_eq_getElem (hP.lt hk)⟩
    refine ⟨_, Body.chunk_at hd hi, rfl, ?_⟩
    have hswitch := hplain i (List.mem_of_getElem? hi)
    have hyield : i.op.isYield = true → ∀ u, AbstractState.unwindFrom Option.none bs = some u →
        u.level < d := fun hy u hu => habove hi hk hy hu
    rw [depthsAt_eq hi]
    change P.StandsFor locals cells k d bs (Body.stateChunk (Body.yieldState is k) i).1 _
    generalize Body.yieldState is k = state
    unfold Body.stateChunk suspendedDepths
    cases hop : i.op with
    | genStart kind =>
      obtain ⟨ws, hm, hall⟩ := hP.moves hi hk
      rw [hop] at hm
      cases hm
      refine ⟨rfl, fun h => (nomatch h), fun _ => hall (.head _), fun _ h => (nomatch h),
        fun h => (nomatch h), fun h => (nomatch h)⟩
    | yieldValue => exact hP.standsFor_yieldValue hi hk hop state (hyield (by rw [hop]; rfl))
    | yieldFrom =>
      rw [hd k i hi]
      exact hP.standsFor_yieldFrom hi hk hop state (hyield (by rw [hop]; rfl))
    | _ =>
      have hself := hP.standsFor_self hi hk (Op.isDispatch_of_plain hswitch)
      rw [hop] at hself
      exact hself
  opens {i handler} hi hop := by
    obtain ⟨k, hk⟩ := List.mem_iff_getElem?.mp hi
    have hc := Body.chunk_at hd hk
    have hkind : i.op.isYield = false ∧ i.op.isGenStart = false := by
      cases hop' : i.op <;> first | exact ⟨rfl, rfl⟩ | (rw [hop'] at hop; cases hop)
    have hchunk : (Body.stateChunk (Body.yieldState is k) i).1 = [i.op] :=
      (Body.suspended_stateChunk _ i).plain (by rw [hkind.2]; rfl) hkind.1
    exact ⟨_, List.mem_of_getElem? hc, i.op, hchunk ▸ .head _, hop⟩

/-- The plan of a state machine: that of the generator, behind the dispatcher. -/
def transformed (P : Plan) (is : List Instr) (map : OffsetMap) (d : Nat) : Plan :=
  (P.laid map.image 1 (Body.stateChunks 1 is) (depthsAt suspendedDepths is)).dispatched d

/-- **A state machine has a plan** if its generator has one. -/
theorem Sound.transformed (hP : P.Sound is locals cells) (hd : Dense is) (hplain : Body.Plain is)
    (habove : P.YieldsAbove is) (hentry : P 0 (d, []))
    (hm : Body.StateMachine out) (h : Body.toStateMachine is = .ok (out, map)) :
    (P.transformed is map d).Sound out locals cells := by
  have hlaying := hP.transforming hd hplain habove h
  obtain ⟨i, hi, hop⟩ := hm.dispatcher
  refine hlaying.soundOut.dispatched (fun F hF => ?_) hi hop (hlaying.start hentry)
  obtain ⟨k, d, bs, j, d', -, -, hzero, -⟩ := hF
  omega

/-- A state machine makes no stack deeper. -/
theorem Sound.transformed_le (hP : P.Sound is locals cells) {deepest p d₀ : Nat}
    (hdeepest : ∀ {o d bs}, P o (d, bs) → d ≤ deepest) (hentry : P 0 (d₀, []))
    (hp : P.transformed is map d₀ p (d, bs)) : d ≤ deepest := by
  rcases hp with ⟨k, d₁, bs₁, j, d', hk, hj, -, hF⟩ | ⟨-, hF⟩
  · cases hF
    obtain ⟨i, hi⟩ : ∃ i, is[k]? = some i := ⟨_, List.getElem?_eq_getElem (hP.lt hk)⟩
    have hle := hdeepest hk
    rw [depthsAt_eq hi] at hj
    have hmem := List.mem_of_getElem? hj
    unfold suspendedDepths at hmem
    split at hmem <;> simp only [List.mem_cons, List.not_mem_nil, or_false] at hmem <;> omega
  · cases hF
    exact hdeepest hentry

end Plan

end Stackwise
