import Stackwise.Proofs.Analysis.PostFixpoint
import Stackwise.Proofs.Analysis.Retarget
import Stackwise.Proofs.Body.Passes

/-!
# The iteration over an expanded body

Spelling out `with` puts six operations in the place of one. The iteration over the expanded body
goes through the same visits as the one over the body itself, in states that differ in their offsets
only.

* `Expands`: one problem is the expansion of another one, block by block.
* `Mirrored`: the progress of one iteration is that of the other with offsets moved.
* `Mirrored.propagate`, `Mirrored.propagateAll`: sending states on keeps it.
* `Mirrored.entering`: the six operations do what the one did. Three of them may raise, but what
  they raise finds the handler as the first one left it.
* `Mirrored.visit` is the step, `Mirrored.iterate` the run.
-/

namespace Stackwise

namespace Fixpoint

/-! ## 1. Expanded problems -/

/-- `q'` is `q` with every entry of a `with` block spelled out. The instruction at `o` starts at
`place o` in the new code, and offsets are moved by `f`. -/
structure Expands (f place : Nat → Nat) (q q' : Problem) : Prop where
  typer : q'.typer = q.typer
  wellFormed : q.WellFormed
  wellFormed' : q'.WellFormed
  image : ∀ o < q.code.size, f o = place o
  mono : ∀ {o o'}, o < o' → o' ≤ q.code.size → place o < place o'
  size : q'.code.size = place q.code.size
  width : ∀ {o i}, q.code[o]? = some i → place (o + 1) = place o + (Body.expandOp i.op).length
  code : ∀ {o i j op}, q.code[o]? = some i → (Body.expandOp i.op)[j]? = some op →
    ∃ i', q'.code[place o + j]? = some i' ∧ i'.op = op.retarget f
  blocks : q'.graph.size = q.graph.size
  start : ∀ b < q.graph.size, (q'.graph.block b).start = place (q.graph.block b).start
  stop : ∀ b < q.graph.size, (q'.graph.block b).stop = place (q.graph.block b).stop

section Places

variable {f place : Nat → Nat} {q q' : Problem} (hq : Expands f place q q')
include hq

theorem Expands.place_le {o o' : Nat} (hle : o ≤ o') (ho : o' ≤ q.code.size) :
    place o ≤ place o' := by
  rcases Nat.eq_or_lt_of_le hle with rfl | hlt
  · exact Nat.le_refl _
  · exact (hq.mono hlt ho).le

/-- Behind the first operation of an expansion no instruction starts. -/
theorem Expands.place_ne {o k x : Nat} (ho : o < q.code.size) (hlt : place o < x)
    (hx : x < place (o + 1)) (hk : k < q.code.size) : place k ≠ x := by
  intro heq
  rcases Nat.lt_or_ge o k with hok | hok
  · have hle : place (o + 1) ≤ place k := hq.place_le hok hk.le
    omega
  · have hle := hq.place_le hok ho.le
    omega

/-- An instruction and its expansion are in the same block. -/
theorem Expands.blockAt {o : Nat} (ho : o < q.code.size) :
    q'.graph.blockAt (place o) = q.graph.blockAt o := by
  have hb := hq.wellFormed.partitions.blockAt_lt o ho
  obtain ⟨hs, ht⟩ := hq.wellFormed.partitions.holds o ho
  have hstop := (hq.wellFormed.partitions.bounds _ hb).2
  refine hq.wellFormed'.partitions.unique _ (hq.blocks ▸ hb) _ ?_ ?_
  · rw [hq.start _ hb]
    exact hq.place_le hs ho.le
  · rw [hq.stop _ hb]
    exact hq.mono ht hstop

theorem Expands.isLeader {o : Nat} (ho : o < q.code.size) (h : q.graph.isLeader o = true) :
    q'.graph.isLeader (place o) = true := by
  have hb := hq.wellFormed.partitions.blockAt_lt o ho
  rw [FlowGraph.isLeader_iff] at h ⊢
  rw [hq.blockAt ho, hq.start _ hb, h]

end Places

/-! ## 2. Progress in step -/

/-- The progress of the iteration over `n` instructions and of the one over their expansion. -/
structure Mirrored (f place : Nat → Nat) (n : Nat) (p p' : Progress) : Prop where
  blockIn : p'.blockIn = p.blockIn.map (AbstractState.retarget f)
  worklist : p'.worklist = p.worklist
  size : p.states.size = n
  size' : p'.states.size = place n
  states : ∀ o < n, p'.before (place o) = (p.before o).retarget f

section Mirrored

variable {f place : Nat → Nat} {n : Nat} {p p' : Progress}

theorem Mirrored.entryOf (hp : Mirrored f place n p p') (b : Nat) :
    p'.entryOf b = (p.entryOf b).retarget f := by
  rw [Progress.entryOf, Progress.entryOf, hp.blockIn, Array.getD_eq_getD_getElem?,
    Array.getD_eq_getD_getElem?, Array.getElem?_map]
  cases p.blockIn[b]? with
  | none => rfl
  | some s => rfl

theorem Mirrored.enqueue (hp : Mirrored f place n p p') (b : Nat) :
    Mirrored f place n (p.enqueue b) (p'.enqueue b) := by
  unfold Progress.enqueue
  rw [hp.worklist]
  split
  · exact hp
  · exact ⟨hp.blockIn, rfl, hp.size, hp.size', hp.states⟩

theorem Mirrored.setEntry (hp : Mirrored f place n p p') (b : Nat) (s : AbstractState) :
    Mirrored f place n { p with blockIn := p.blockIn.setIfInBounds b s }
      { p' with blockIn := p'.blockIn.setIfInBounds b (s.retarget f) } := by
  refine ⟨?_, hp.worklist, hp.size, hp.size', hp.states⟩
  rw [hp.blockIn, Array.map_setIfInBounds]

theorem Mirrored.setEdges (hp : Mirrored f place n p p') (es es' : List (Nat × Nat)) :
    Mirrored f place n { p with exceptionEdges := es } { p' with exceptionEdges := es' } :=
  ⟨hp.blockIn, hp.worklist, hp.size, hp.size', hp.states⟩

theorem Mirrored.setWorklist (hp : Mirrored f place n p p') (ws : List Nat) :
    Mirrored f place n { p with worklist := ws } { p' with worklist := ws } :=
  ⟨hp.blockIn, rfl, hp.size, hp.size', hp.states⟩

/-- What is written where no instruction starts does not matter. -/
theorem Mirrored.writeInner (hp : Mirrored f place n p p') {x : Nat} (hx : ∀ o < n, place o ≠ x)
    (s : AbstractState) :
    Mirrored f place n p { p' with states := p'.states.setIfInBounds x s } := by
  refine ⟨hp.blockIn, hp.worklist, hp.size, ?_, fun o ho => ?_⟩
  · rw [Array.size_setIfInBounds]
    exact hp.size'
  · rw [← hp.states o ho, Progress.before, getD_setIfInBounds, if_neg]
    · rfl
    · exact fun h => hx o ho h.1.symm

variable {q q' : Problem} (hq : Expands f place q q')

include hq in
/-- The state of an instruction is written where its expansion starts. -/
theorem Mirrored.write (hp : Mirrored f place q.code.size p p') {o : Nat} (ho : o < q.code.size)
    (s : AbstractState) :
    Mirrored f place q.code.size { p with states := p.states.setIfInBounds o s }
      { p' with states := p'.states.setIfInBounds (place o) (s.retarget f) } := by
  refine ⟨hp.blockIn, hp.worklist, ?_, ?_, fun k hk => ?_⟩
  · rw [Array.size_setIfInBounds]
    exact hp.size
  · rw [Array.size_setIfInBounds]
    exact hp.size'
  · rw [before_write p s (hp.size ▸ ho), before_write p' _ (hp.size' ▸ hq.mono ho (Nat.le_refl _))]
    by_cases hok : o = k
    · rw [if_pos hok, if_pos (congrArg place hok)]
    · rw [if_neg hok, if_neg, hp.states k hk]
      intro heq
      rcases Nat.lt_or_gt_of_ne hok with hlt | hlt
      · exact absurd heq (Nat.ne_of_lt (hq.mono hlt hk.le))
      · exact absurd heq.symm (Nat.ne_of_lt (hq.mono hlt ho.le))

/-! ## 3. Sending states on -/

include hq in
/-- **A moved state is joined into the same block**, and the block waits in one iteration if it
waits in the other. -/
theorem Mirrored.propagate (hp : Mirrored f place q.code.size p p') {src t : Nat} (src' : Nat)
    {s : AbstractState} {p₁ : Progress} (hs : s.dead = false)
    (h : propagate q src t s p = .ok p₁) :
    ∃ p₁', propagate q' src' (f t) (s.retarget f) p' = .ok p₁'
      ∧ Mirrored f place q.code.size p₁ p₁' := by
  obtain ⟨hlt, hleader, new, hnew, rfl⟩ := propagate_eq_ok.mp h
  have hat : q'.graph.blockAt (f t) = q.graph.blockAt t := by
    rw [hq.image t hlt, hq.blockAt hlt]
  have hjoin := AbstractState.join_retarget f (f t) new hnew
  rw [← hp.entryOf, ← hq.typer, ← hat] at hjoin
  refine ⟨_, propagate_eq_ok.mpr ⟨?_, ?_, new.retarget f, hjoin, rfl⟩, ?_⟩
  · rw [hq.image t hlt, hq.size]
    exact hq.mono hlt (Nat.le_refl _)
  · rw [hq.image t hlt]
    exact hq.isLeader hlt hleader
  · rw [hat, hp.entryOf]
    by_cases heq : new = p.entryOf (q.graph.blockAt t)
    · rw [if_pos heq, if_pos (congrArg (AbstractState.retarget f) heq)]
      exact hp
    · rw [if_neg heq, if_neg (AbstractState.join_retarget_ne hs hnew heq)]
      exact (hp.setEntry _ new).enqueue _

include hq in
theorem Mirrored.propagateException (hp : Mirrored f place q.code.size p p') {o : Nat} (o' : Nat)
    {s : AbstractState} (s' : AbstractState) {op op' : Op} {p₁ : Progress} (hs : s.dead = false)
    (hx : Mirrors (Option.map (Prod.map f (AbstractState.retarget f))) (s.exceptionState? o)
      (s'.exceptionState? o'))
    (hraise : op'.mayRaise = op.mayRaise) (h : propagateException q o s op p = .ok p₁) :
    ∃ p₁', propagateException q' o' s' op' p' = .ok p₁'
      ∧ Mirrored f place q.code.size p₁ p₁' := by
  unfold Fixpoint.propagateException at h ⊢
  rw [hraise]
  split at h
  · rename_i hmay
    rw [if_pos hmay]
    obtain ⟨x, hx₀, h⟩ := bind_eq_ok.mp h
    have hx' := hx x hx₀
    cases x with
    | none =>
      cases h
      exact ⟨p', bind_eq_ok.mpr ⟨_, hx', rfl⟩, hp⟩
    | some he =>
      obtain ⟨handler, e⟩ := he
      obtain ⟨-, -, -, -, -, -, -, -, hdead⟩ := AbstractState.exceptionState?_eq_ok hx₀
      obtain ⟨p₁', hp₁', hm⟩ := (hp.setEdges _ (insertEdge (o', f handler) p'.exceptionEdges)).propagate
        hq o' (hdead.trans hs) h
      exact ⟨p₁', bind_eq_ok.mpr ⟨_, hx', hp₁'⟩, hm⟩
  · rename_i hmay
    rw [if_neg hmay]
    cases h
    exact ⟨p', rfl, hp⟩

include hq in
/-- What leaves the last instruction of a block, when the offset behind it moves to the one behind
its expansion. -/
theorem Mirrored.propagateAll (hp : Mirrored f place q.code.size p p') {o : Nat} (o' : Nat)
    {tr : Transfer} {on on' : Option AbstractState} {p₁ : Progress}
    (hnext : o + 1 < q.code.size → f (o + 1) = o' + 1) (hlive : ∀ w ∈ tr, w.2.dead = false)
    (h : propagateAll q o true tr on p = .ok (on', p₁)) :
    ∃ p₁', propagateAll q' o' true (tr.retarget f) (on.map (AbstractState.retarget f)) p'
        = .ok (on'.map (AbstractState.retarget f), p₁')
      ∧ Mirrored f place q.code.size p₁ p₁' := by
  induction tr generalizing p p' with
  | nil =>
    cases h
    exact ⟨p', rfl, hp⟩
  | cons w tr ih =>
    obtain ⟨succ, s⟩ := w
    have hs : s.dead = false := hlive (succ, s) List.mem_cons_self
    have hlive' : ∀ w ∈ tr, w.2.dead = false := fun w hw => hlive w (List.mem_cons_of_mem _ hw)
    cases succ with
    | jump t =>
      obtain ⟨p₂, hp₂, h⟩ := bind_eq_ok.mp h
      obtain ⟨p₂', hp₂', hm⟩ := hp.propagate hq o' hs hp₂
      obtain ⟨p₁', hp₁', hm'⟩ := ih hm hlive' h
      exact ⟨p₁', bind_eq_ok.mpr ⟨p₂', hp₂', hp₁'⟩, hm'⟩
    | next =>
      obtain ⟨p₂, hp₂, h⟩ := bind_eq_ok.mp h
      obtain ⟨p₂', hp₂', hm⟩ := hp.propagate hq o' hs hp₂
      rw [hnext (propagate_eq_ok.mp hp₂).1] at hp₂'
      obtain ⟨p₁', hp₁', hm'⟩ := ih hm hlive' h
      exact ⟨p₁', bind_eq_ok.mpr ⟨p₂', hp₂', hp₁'⟩, hm'⟩

end Mirrored

/-! ## 4. Instructions of a visit -/

section Instructions

variable {q : Problem} {o last : Nat} {rest : List Nat} {s s' : AbstractState} {p p₁ : Progress}
  {i : Instr}

/-- Inside a block a visit sends on what an instruction raises and goes to the next one. -/
theorem visitFrom_inner (hs : s.dead = false) (hi : q.code[o]? = some i) (ho : o ≠ last)
    (hends : FlowGraph.endsBlock i.op = false) :
    visitFrom q last (o :: rest) s p = .ok p₁
      ↔ ∃ p₀ s',
        propagateException q o s i.op { p with states := p.states.setIfInBounds o s } = .ok p₀
        ∧ i.op.effect q.typer o s = .ok [(.next, s')] ∧ visitFrom q last rest s' p₀ = .ok p₁ := by
  have hinner : (o == last) = false := beq_eq_false_iff_ne.mpr ho
  rw [visitFrom]
  simp only [hs, hi, hinner]
  constructor
  · intro h
    obtain ⟨p₀, hexc, h⟩ := bind_eq_ok.mp h
    obtain ⟨tr, htr, h⟩ := bind_eq_ok.mp h
    obtain ⟨s', rfl⟩ := Op.effect_onward hends htr
    exact ⟨p₀, s', hexc, htr, h⟩
  · rintro ⟨p₀, s', hexc, htr, h⟩
    exact bind_eq_ok.mpr ⟨p₀, hexc, bind_eq_ok.mpr ⟨_, htr, h⟩⟩

/-- With the last instruction of a block a visit ends. -/
theorem visitFrom_last (hs : s.dead = false) (hi : q.code[o]? = some i) :
    visitFrom q o [o] s p = .ok p₁
      ↔ ∃ p₀ tr on,
        propagateException q o s i.op { p with states := p.states.setIfInBounds o s } = .ok p₀
        ∧ i.op.effect q.typer o s = .ok tr ∧ propagateAll q o true tr none p₀ = .ok (on, p₁) := by
  rw [visitFrom]
  simp only [hs, hi, beq_self_eq_true]
  constructor
  · intro h
    obtain ⟨p₀, hexc, h⟩ := bind_eq_ok.mp h
    obtain ⟨tr, htr, h⟩ := bind_eq_ok.mp h
    obtain ⟨⟨on, p₂⟩, hall, h⟩ := bind_eq_ok.mp h
    refine ⟨p₀, tr, on, hexc, htr, ?_⟩
    cases on with
    | none => cases h; exact hall
    | some next => cases h; exact hall
  · rintro ⟨p₀, tr, on, hexc, htr, hall⟩
    refine bind_eq_ok.mpr ⟨p₀, hexc, bind_eq_ok.mpr ⟨tr, htr, bind_eq_ok.mpr ⟨_, hall, ?_⟩⟩⟩
    cases on with
    | none => rfl
    | some next => rfl

end Instructions

/-! ## 5. Entering a `with` block -/

end Fixpoint

namespace AbstractState

/-- A cut below `rest` is a cut of `rest`. -/
theorem truncate_of_stack (top : List Slot) {s : AbstractState} {rest : List Slot} {level : Nat}
    (hs : s.stack = top ++ rest) (hle : level ≤ rest.length) (o : Nat) :
    s.truncate level o = .ok { s with stack := rest.drop (rest.length - level) } := by
  have hdepth : s.depth = top.length + rest.length := by rw [depth, hs, List.length_append]
  rw [truncate, if_pos (by omega), hdepth, Nat.add_sub_assoc hle, hs, List.drop_length_add_append]

/-- What an exception leaves of a stack depends on its lower part only, if the block that catches
was opened there. -/
theorem exceptionState?_of_stack (top : List Slot) {s : AbstractState} {rest : List Slot}
    (hs : s.stack = top ++ rest) (hu : ∀ u, s.unwind? = some u → u.level ≤ rest.length) (o : Nat) :
    s.exceptionState? o = .ok (s.unwind?.map fun u => (u.handler,
      { s with
        stack := exceptionSlots ++ rest.drop (rest.length - u.level)
        blocks := .handling u.level :: outerBlocks s.blocks
        keywords := none })) := by
  unfold exceptionState?
  cases hu' : s.unwind? with
  | none => rfl
  | some u =>
    refine bind_eq_ok.mpr ⟨_, truncate_of_stack top ?_ (hu u hu') o, rfl⟩
    exact hs

/-- The state with other slots above a part of its stack. -/
def above (s : AbstractState) (rest top : List Slot) : AbstractState :=
  { s with stack := top ++ rest, keywords := none }

/-- A context manager that was pushed inside the innermost protected block is not seen by its
handler, nor is what takes its place. -/
theorem exceptionState?_above {s : AbstractState} {v : Slot} {rest : List Slot}
    (hs : s.stack = v :: rest) (hlevel : ∀ u, s.unwind? = some u → u.level < s.depth)
    (top : List Slot) (o o' : Nat) : (s.above rest top).exceptionState? o' = s.exceptionState? o := by
  have hu : ∀ u, s.unwind? = some u → u.level ≤ rest.length := by
    intro u hu
    have hlt := hlevel u hu
    rw [depth, hs, List.length_cons] at hlt
    omega
  rw [exceptionState?_of_stack [v] hs hu o]
  exact exceptionState?_of_stack top (s := s.above rest top) rfl hu o'

end AbstractState

/-- The result of calling a method without arguments is the result of the method. -/
theorem Typer.result_resolveCall_method (ty : Typer) (t : TypeId) (name : String) :
    (ty.resolveCall (.method t name) [] []).result
      = Resolved.resultOf (ty.resolveMethod t name [] []) := by
  unfold Typer.resolveCall
  by_cases hs : ty.config.specialize = true
  · rw [if_pos hs]
    dsimp only
    cases ty.resolveMethod t name [] [] with
    | none => rfl
    | some r => rfl
  · rw [if_neg hs, Typer.resolveMethod, if_neg hs]
    rfl

namespace Op

theorem endsBlock_retarget (f : Nat → Nat) (op : Op) :
    FlowGraph.endsBlock (op.retarget f) = FlowGraph.endsBlock op := by
  unfold FlowGraph.endsBlock
  rw [targets_retarget, List.isEmpty_map]
  cases op <;> rfl

theorem exists_of_isWith {op : Op} (h : op.isWith = true) : ∃ handler, op = .setupWith handler := by
  cases op with
  | setupWith handler => exact ⟨handler, rfl⟩
  | _ => cases h

/-- The entry of a `with` block ends a block of the graph. -/
theorem isWith_of_inner {op : Op} (h : FlowGraph.endsBlock op = false) : op.isWith = false := by
  rw [Bool.eq_false_iff]
  intro hw
  obtain ⟨handler, rfl⟩ := exists_of_isWith hw
  cases h

section Spelled

variable {ty : Typer} {s : AbstractState} {rest : List Slot} {o : Nat}

theorem effect_dupTop {v : Slot} (hs : s.stack = v :: rest) :
    effect ty o s .dupTop = .ok [(.next, s.above rest [v, v])] := by
  obtain ⟨stack, locals, cells, blocks, dead, keywords⟩ := s
  cases hs
  rfl

theorem effect_loadSpecial (v w : Slot) (name : String) :
    effect ty o (s.above rest [v, w]) (.loadSpecial name)
      = .ok [(.next, s.above rest [.method v.runtimeType name, w])] := rfl

theorem effect_rotTwo (v w : Slot) :
    effect ty o (s.above rest [v, w]) .rotTwo = .ok [(.next, s.above rest [w, v])] := rfl

theorem effect_callNone (v w : Slot) :
    effect ty o (s.above rest [v, w]) (.callFunction 0)
      = .ok [(.next, s.above rest [(ty.resolveCall v [] []).result, w])] := rfl

end Spelled

/-- A handler whose block opens above `rest` starts on top of `rest`. -/
theorem handlerEntry_of_stack (top : List Slot) {s : AbstractState} {rest : List Slot}
    (hs : s.stack = top ++ rest) (o : Nat) :
    handlerEntry s rest.length o
      = .ok (AbstractState.enterHandler { s with stack := rest } rest.length) := by
  refine map_eq_ok.mpr ⟨_, AbstractState.truncate_of_stack top hs (Nat.le_refl _) o, ?_⟩
  rw [Nat.sub_self, List.drop_zero]

/-- What entering a `with` block does is what opening the block does once the exit method and the
result of the entry lie on the stack. -/
theorem effect_setupWith {ty : Typer} {s : AbstractState} {o h : Nat} (o' : Nat) {tr : Transfer}
    (he : effect ty o s (.setupWith h) = .ok tr) :
    ∃ v rest, s.stack = v :: rest ∧ effect ty o'
      (s.above rest [(ty.resolveCall (.method v.runtimeType "__enter__") [] []).result,
        .method v.runtimeType "__exit__"])
      (.setupFinally h .withBlock 1) = .ok tr := by
  obtain ⟨⟨v, s₁⟩, hp, he⟩ := bind_eq_ok.mp he
  obtain ⟨taken, ht, he⟩ := bind_eq_ok.mp he
  obtain ⟨rest, hs, rfl⟩ := AbstractState.pop_eq_ok hp
  cases he
  refine ⟨v, rest, hs, ?_⟩
  -- both blocks open above the exit method
  have hcut := handlerEntry_of_stack [] (s := s.above rest [.method v.runtimeType "__exit__"]) rfl o
  cases Except.ok.inj (ht.symm.trans hcut)
  rw [Typer.result_resolveCall_method]
  exact bind_eq_ok.mpr ⟨_, handlerEntry_of_stack [_] rfl o', rfl⟩

end Op

namespace Fixpoint

/-- An operation that cannot raise sends nothing on. -/
theorem propagateException_quiet {q : Problem} {o : Nat} {s : AbstractState} {op : Op}
    (h : op.mayRaise = false) (p : Progress) : propagateException q o s op p = .ok p := by
  rw [propagateException, h]
  rfl

/-- What arrived at a handler before changes nothing when it is raised again. -/
theorem Mirrored.again {f place : Nat → Nat} {n o : Nat} {q : Problem} {p p' : Progress}
    (hp : Mirrored f place n p p') (hm : q.typer.model.Built) {s : AbstractState}
    {x : Option (Nat × AbstractState)} (hx : s.exceptionState? o = .ok x)
    (harrived : ∀ h e, x = some (h, e) → e.dead = false
      ∧ Arrives q (fun s s' => AbstractState.isWithin q.typer.model s s' = true) p' h e) (op : Op) :
    ∃ es, Fixpoint.propagateException q o s op p' = .ok { p' with exceptionEdges := es }
      ∧ Mirrored f place n p { p' with exceptionEdges := es } := by
  have hsame : ∀ es, Mirrored f place n p { p' with exceptionEdges := es } :=
    hp.setEdges p.exceptionEdges
  unfold Fixpoint.propagateException
  split
  · cases x with
    | none => exact ⟨p'.exceptionEdges, bind_eq_ok.mpr ⟨_, hx, rfl⟩, hsame _⟩
    | some he =>
      obtain ⟨h, e⟩ := he
      obtain ⟨hlive, hlt, hleader, hwithin⟩ := harrived h e rfl
      refine ⟨insertEdge (o, h) p'.exceptionEdges, bind_eq_ok.mpr ⟨_, hx, ?_⟩, hsame _⟩
      refine propagate_eq_ok.mpr ⟨hlt, hleader, _, AbstractState.join_of_isWithin hm hlive hwithin, ?_⟩
      exact (if_pos rfl).symm
  · exact ⟨p'.exceptionEdges, rfl, hsame _⟩

section Entering

variable {f place : Nat → Nat} {q q' : Problem} (hq : Expands f place q q')
  (hm : q.typer.model.Built) {p p' : Progress}
include hq hm

/-- **Entering a `with` block, spelled out**, leaves what entering it at once leaves, if the context
manager was pushed inside the innermost protected block. -/
theorem Mirrored.entering (hp : Mirrored f place q.code.size p p')
    (hblocks : p.blockIn.size = q.graph.size) {o h : Nat} {i : Instr} {s : AbstractState}
    {p₁ : Progress} (hi : q.code[o]? = some i) (hop : i.op = .setupWith h) (hs : s.dead = false)
    (hlevel : ∀ u, s.unwind? = some u → u.level < s.depth)
    (hvisit : visitFrom q o [o] s p = .ok p₁) :
    ∃ p₁', visitFrom q' (place o + 5) (List.range' (place o) 6) (s.retarget f) p' = .ok p₁'
      ∧ Mirrored f place q.code.size p₁ p₁' := by
  have ho : o < q.code.size := (Array.getElem?_eq_some_iff.mp hi).1
  obtain ⟨p₀, tr, on, hexc, htr, hall⟩ := (visitFrom_last hs hi).mp hvisit
  rw [hop] at hexc htr
  have hwidth : place (o + 1) = place o + 6 := by
    rw [hq.width hi, hop]
    rfl
  have hinner : ∀ j, 0 < j → j < 6 → ∀ k < q.code.size, place k ≠ place o + j :=
    fun j hj hj' k hk => hq.place_ne ho (by omega) (by omega) hk
  have hcode : ∀ {j op}, (Body.expandOp (.setupWith h))[j]? = some op →
      ∃ i', q'.code[place o + j]? = some i' ∧ i'.op = op.retarget f := fun hj =>
    hq.code hi (by rw [hop]; exact hj)
  have hm' : q'.typer.model.Built := hq.typer ▸ hm
  have hlive : ∀ top rest, ((s.retarget f).above rest top).dead = false := fun _ _ => hs
  have htr' := Op.effect_retarget f (place o) (.setupWith h) tr htr
  rw [← hq.typer] at htr'
  obtain ⟨v, rest, hstack, hopen⟩ := Op.effect_setupWith (place o + 5) htr'
  -- every state on the way raises what the first one raises
  have hraise : ∀ top o', ((s.retarget f).above rest top).exceptionState? o'
      = (s.retarget f).exceptionState? (place o) := by
    refine fun top o' => AbstractState.exceptionState?_above hstack ?_ top _ o'
    intro u hu
    have hu' : (s.unwind?.map fun u => { u with handler := f u.handler }) = some u :=
      (AbstractState.unwindFrom_retarget none s.blocks).symm.trans hu
    obtain ⟨u₀, hu₀, rfl⟩ := Option.map_eq_some_iff.mp hu'
    exact hlevel u₀ hu₀
  obtain ⟨i₀, h₀, e₀⟩ := hcode (j := 0) rfl
  obtain ⟨i₁, h₁, e₁⟩ := hcode (j := 1) rfl
  obtain ⟨i₂, h₂, e₂⟩ := hcode (j := 2) rfl
  obtain ⟨i₃, h₃, e₃⟩ := hcode (j := 3) rfl
  obtain ⟨i₄, h₄, e₄⟩ := hcode (j := 4) rfl
  obtain ⟨i₅, h₅, e₅⟩ := hcode (j := 5) rfl
  -- the first lookup sends on what entering the block sends on
  have hw₁ := (hp.write hq ho s).writeInner (hinner 1 (by omega) (by omega))
    ((s.retarget f).above rest [v, v])
  obtain ⟨r₁, hexc₁, hm₁⟩ := hw₁.propagateException hq (place o + 1)
    ((s.retarget f).above rest [v, v]) hs
    (by rw [hraise]; exact AbstractState.exceptionState?_retarget f (place o))
    (show i₁.op.mayRaise = (Op.setupWith h).mayRaise by rw [e₁]; rfl) hexc
  have hsize : p'.blockIn.size = q'.graph.size := by
    rw [hp.blockIn, Array.size_map, hblocks, hq.blocks]
  obtain ⟨-, hcaught⟩ := propagateException_sent (AbstractState.ascending_isWithin hm'.ordered)
    hq.wellFormed' (hlive _ _) (by exact hsize) h₁ hexc₁
  obtain ⟨x, hx, harrived⟩ := hcaught (by rw [e₁]; rfl)
  have hagain : ∀ hd e, x = some (hd, e) → e.dead = false ∧ Arrives q'
      (fun s s' => AbstractState.isWithin q'.typer.model s s' = true) r₁ hd e := by
    intro hd e hxe
    rw [hxe] at hx
    obtain ⟨-, -, -, -, -, -, -, -, hdead⟩ := AbstractState.exceptionState?_eq_ok hx
    exact ⟨hdead.trans (hlive _ _), (harrived hd e hxe).2⟩
  -- the second lookup and the call raise it again
  have hw₃ := (hm₁.writeInner (hinner 2 (by omega) (by omega))
    ((s.retarget f).above rest [.method v.runtimeType "__exit__", v])).writeInner
    (hinner 3 (by omega) (by omega))
    ((s.retarget f).above rest [v, .method v.runtimeType "__exit__"])
  obtain ⟨es₃, hexc₃, hm₃⟩ := hw₃.again hm'
    ((hraise _ (place o + 3)).trans ((hraise _ _).symm.trans hx)) hagain i₃.op
  have hw₄ := hm₃.writeInner (hinner 4 (by omega) (by omega))
    ((s.retarget f).above rest [.method v.runtimeType "__enter__", .method v.runtimeType "__exit__"])
  obtain ⟨es₄, hexc₄, hm₄⟩ := hw₄.again hm'
    ((hraise _ (place o + 4)).trans ((hraise _ _).symm.trans hx)) hagain i₄.op
  have hw₅ := hm₄.writeInner (hinner 5 (by omega) (by omega))
    ((s.retarget f).above rest
      [(q'.typer.resolveCall (.method v.runtimeType "__enter__") [] []).result,
        .method v.runtimeType "__exit__"])
  obtain ⟨p₁', hall', hm₅⟩ := hw₅.propagateAll hq (place o + 5)
    (fun hlt => by rw [hq.image _ hlt, hwidth])
    (fun w hw => ((Op.effect_follows htr).2 w hw).dead.trans hs) hall
  refine ⟨p₁', ?_, hm₅⟩
  change visitFrom q' (place o + 5) [place o, place o + 1, place o + 2, place o + 3, place o + 4,
    place o + 5] _ _ = _
  refine Iff.mpr (visitFrom_inner (s := s.retarget f) hs h₀ (by omega) (by rw [e₀]; rfl))
    ⟨_, _, propagateException_quiet (by rw [e₀]; rfl) _, by rw [e₀]; exact Op.effect_dupTop hstack, ?_⟩
  refine Iff.mpr (visitFrom_inner (hlive _ _) h₁ (by omega) (by rw [e₁]; rfl))
    ⟨_, _, hexc₁, by rw [e₁]; exact Op.effect_loadSpecial _ _ _, ?_⟩
  refine Iff.mpr (visitFrom_inner (hlive _ _) h₂ (by omega) (by rw [e₂]; rfl))
    ⟨_, _, propagateException_quiet (by rw [e₂]; rfl) _, by rw [e₂]; exact Op.effect_rotTwo _ _, ?_⟩
  refine Iff.mpr (visitFrom_inner (hlive _ _) h₃ (by omega) (by rw [e₃]; rfl))
    ⟨_, _, hexc₃, by rw [e₃]; exact Op.effect_loadSpecial _ _ _, ?_⟩
  refine Iff.mpr (visitFrom_inner (hlive _ _) h₄ (by omega) (by rw [e₄]; rfl))
    ⟨_, _, hexc₄, by rw [e₄]; exact Op.effect_callNone _ _, ?_⟩
  exact Iff.mpr (visitFrom_last (hlive _ _) h₅)
    ⟨_, _, _, propagateException_quiet (by rw [e₅]; rfl) _, by rw [e₅]; exact hopen, hall'⟩

end Entering

/-! ## 6. Visits -/

/-- Every entry of a `with` block that is reached has pushed its context manager inside the innermost
protected block. -/
def EntersInside (q : Problem) (st : Nat → AbstractState) : Prop :=
  ∀ o i h, q.code[o]? = some i → i.op = .setupWith h → (st o).dead = false →
    ∀ u, (st o).unwind? = some u → u.level < (st o).depth

section Visits

variable {f place : Nat → Nat} {q q' : Problem} (hq : Expands f place q q') {p p' p₁ : Progress}
include hq

/-- An operation that is no entry of a `with` block is moved as it is. -/
theorem Expands.plain {o : Nat} {i : Instr} (hi : q.code[o]? = some i) (hw : i.op.isWith = false) :
    place (o + 1) = place o + 1 ∧ ∃ i', q'.code[place o]? = some i' ∧ i'.op = i.op.retarget f := by
  have hexpand : Body.expandOp i.op = [i.op] := Body.enteredOps_eq true hw
  refine ⟨by rw [hq.width hi, hexpand]; rfl, ?_⟩
  exact hq.code (j := 0) hi (by rw [hexpand]; rfl)

theorem Mirrored.plainLast (hp : Mirrored f place q.code.size p p') {o : Nat} {i : Instr}
    {s : AbstractState} (hi : q.code[o]? = some i) (hw : i.op.isWith = false)
    (hs : s.dead = false) (h : visitFrom q o [o] s p = .ok p₁) :
    ∃ p₁', visitFrom q' (place o) [place o] (s.retarget f) p' = .ok p₁'
      ∧ Mirrored f place q.code.size p₁ p₁' := by
  have ho : o < q.code.size := (Array.getElem?_eq_some_iff.mp hi).1
  obtain ⟨hnext, i', hi', hop⟩ := hq.plain hi hw
  have hraise : i'.op.mayRaise = i.op.mayRaise := by rw [hop, Op.mayRaise_retarget]
  obtain ⟨p₀, tr, on, hexc, htr, hall⟩ := (visitFrom_last hs hi).mp h
  obtain ⟨p₀', hexc', hm₀⟩ := (hp.write hq ho s).propagateException hq (place o)
    (s.retarget f) hs (AbstractState.exceptionState?_retarget f (place o)) hraise hexc
  obtain ⟨p₁', hall', hm₁⟩ := hm₀.propagateAll hq (place o)
    (fun hlt => by rw [hq.image _ hlt, hnext])
    (fun w hw => ((Op.effect_follows htr).2 w hw).dead.trans hs) hall
  have htr' := Op.effect_retarget f (place o) i.op tr htr
  rw [← hop, ← hq.typer] at htr'
  exact ⟨p₁', Iff.mpr (visitFrom_last hs hi') ⟨p₀', _, _, hexc', htr', hall'⟩, hm₁⟩

variable (hm : q.typer.model.Built)
include hm

/-- **A visit of a block and of its expansion**, from one of the instructions on. -/
theorem Mirrored.visitFrom {b : Nat} (hb : b < q.graph.size) {k o : Nat} {s : AbstractState}
    (hp : Mirrored f place q.code.size p p') (hblocks : p.blockIn.size = q.graph.size)
    (hstart : (q.graph.block b).start ≤ o) (hstop : o + (k + 1) = (q.graph.block b).stop)
    (hs : s.dead = false) (hinside : EntersInside q p₁.before)
    (h : visitFrom q (q.graph.block b).last (List.range' o (k + 1)) s p = .ok p₁) :
    ∃ p₁', Fixpoint.visitFrom q' (q'.graph.block b).last
        (List.range' (place o) ((q'.graph.block b).stop - place o)) (s.retarget f) p' = .ok p₁'
      ∧ Mirrored f place q.code.size p₁ p₁' := by
  have hstop' := hq.stop b hb
  induction k generalizing o s p p' with
  | zero =>
    have ho : o < q.code.size := by have := (hq.wellFormed.partitions.bounds b hb).2; omega
    have hi : q.code[o]? = some q.code[o] := Array.getElem?_eq_getElem ho
    have hran := visitFrom_ran (AbstractState.ascending_keepsForm _) hq.wellFormed hb hstart hstop
      hs hblocks hp.size h
    have hlast : (q.graph.block b).last = o := by rw [BasicBlock.last]; omega
    rw [hlast] at h
    rw [BasicBlock.last, hstop', ← hstop]
    cases hw : q.code[o].op.isWith with
    | false =>
      obtain ⟨hnext, -⟩ := hq.plain hi hw
      rw [hnext, Nat.add_sub_cancel, Nat.add_sub_cancel_left]
      exact hp.plainLast hq hi hw hs h
    | true =>
      obtain ⟨hd, hop⟩ := Op.exists_of_isWith hw
      have hnext := hq.width hi
      rw [hop] at hnext
      rw [hnext]
      change ∃ p₁', Fixpoint.visitFrom q' (place o + 5) (List.range' (place o) (place o + 6 - place o))
        _ _ = _ ∧ _
      rw [Nat.add_sub_cancel_left]
      refine hp.entering hq hm hblocks hi hop hs ?_ h
      rw [← hran.first]
      exact hinside o _ hd hi hop (by rw [hran.first]; exact hs)
  | succ k ih =>
    have hlt : o + 1 < (q.graph.block b).stop := by omega
    have ho : o < q.code.size := by have := (hq.wellFormed.partitions.bounds b hb).2; omega
    have hi : q.code[o]? = some q.code[o] := Array.getElem?_eq_getElem ho
    have hends := hq.wellFormed.inner hb hstart hlt hi
    have hinner : o ≠ (q.graph.block b).last := by rw [BasicBlock.last]; omega
    rw [List.range'_succ] at h
    obtain ⟨p₀, s', hexc, htr, h⟩ := (visitFrom_inner hs hi hinner hends).mp h
    obtain ⟨hnext, i', hi', hop⟩ := hq.plain hi (Op.isWith_of_inner hends)
    have hraise : i'.op.mayRaise = q.code[o].op.mayRaise := by rw [hop, Op.mayRaise_retarget]
    obtain ⟨p₀', hexc', hm₀⟩ := (hp.write hq ho s).propagateException hq (place o)
      (s.retarget f) hs (AbstractState.exceptionState?_retarget f (place o)) hraise hexc
    have htr' := Op.effect_retarget f (place o) _ _ htr
    rw [← hop, ← hq.typer] at htr'
    have hs' : s'.dead = false := ((Op.effect_follows htr).2 _ List.mem_cons_self).dead.trans hs
    obtain ⟨hsent, -⟩ := propagateException_sent (AbstractState.ascending_keepsForm _)
      hq.wellFormed hs (by exact hblocks) hi hexc
    obtain ⟨p₁', h', hm₁⟩ := ih hm₀ (hsent.steps.blocks.trans hblocks) (by omega) (by omega) hs' h
    refine ⟨p₁', ?_, hm₁⟩
    have hplace := hq.mono hlt (hq.wellFormed.partitions.bounds b hb).2
    rw [← hstop', hnext] at hplace
    have hinner' : place o ≠ (q'.graph.block b).last := by rw [BasicBlock.last]; omega
    have hends' : FlowGraph.endsBlock i'.op = false := by rw [hop, Op.endsBlock_retarget, hends]
    rw [show (q'.graph.block b).stop - place o = (q'.graph.block b).stop - (place o + 1) + 1 by omega,
      List.range'_succ]
    rw [hnext] at h'
    exact Iff.mpr (visitFrom_inner hs hi' hinner' hends') ⟨p₀', _, hexc', htr', h'⟩

/-- **One visit keeps the progress of both iterations in step.** -/
theorem Mirrored.visit {R : AbstractState → AbstractState → Prop} {entry : AbstractState} {b : Nat}
    {rest : List Nat} (hinv : Inv q R entry p) (hp : Mirrored f place q.code.size p p')
    (hwork : p.worklist = b :: rest) (hinside : EntersInside q p₁.before)
    (h : visit q b { p with worklist := rest } = .ok p₁) :
    ∃ p₁', visit q' b { p' with worklist := rest } = .ok p₁'
      ∧ Mirrored f place q.code.size p₁ p₁' := by
  obtain ⟨hb, hlive⟩ := hinv.queue b (by rw [hwork]; exact List.mem_cons_self)
  have hbounds := hq.wellFormed.partitions.bounds b hb
  obtain ⟨k, hk⟩ : ∃ k, (q.graph.block b).start + (k + 1) = (q.graph.block b).stop :=
    ⟨(q.graph.block b).stop - (q.graph.block b).start - 1, by omega⟩
  rw [Fixpoint.visit, BasicBlock.offsets_eq, ← hk, Nat.add_sub_cancel_left] at h
  obtain ⟨p₁', h', hm₁⟩ := (hp.setWorklist rest).visitFrom hq hm hb hinv.blocks (Nat.le_refl _) hk
    hlive hinside h
  refine ⟨p₁', ?_, hm₁⟩
  rw [Fixpoint.visit, BasicBlock.offsets_eq, hq.start b hb]
  have hentry := hp.entryOf b
  rw [Progress.entryOf] at hentry
  rw [hentry]
  exact h'

end Visits

/-! ## 7. Runs -/

section Runs

variable {f place : Nat → Nat} {q q' : Problem} {R : AbstractState → AbstractState → Prop}
  {entry : AbstractState} {p p' p₁ : Progress}

/-- Both iterations start in step. -/
theorem start_mirrored (hq : Expands f place q q') (entry : AbstractState) :
    Mirrored f place q.code.size (start q.graph q.code.size entry)
      (start q'.graph q'.code.size (entry.retarget f)) := by
  refine ⟨?_, rfl, Array.size_replicate, ?_, fun o ho => ?_⟩
  · unfold start
    dsimp only
    rw [Array.map_setIfInBounds, Array.map_replicate, hq.blocks]
    rfl
  · rw [← hq.size]
    exact Array.size_replicate
  · have ho' : place o < q'.code.size := hq.size ▸ hq.mono ho (Nat.le_refl _)
    unfold start Progress.before
    simp only [Array.getD_eq_getD_getElem?, Array.getElem?_replicate, ho, ho']
    rfl

/-- The iteration leaves live states live and of the same form. -/
theorem iterate_keeps (hR : AbstractState.Ascending q.typer.model R) (hq : q.WellFormed)
    (hinv : Inv q R entry p) {bound left left' : Nat}
    (h : iterate q bound left p = .ok (left', p₁)) {o : Nat} (ho : (p.before o).dead = false) :
    (p₁.before o).dead = false ∧ (p.before o).SameForm (p₁.before o) := by
  induction left generalizing p with
  | zero =>
    unfold iterate at h
    split at h
    · cases h
      exact ⟨ho, .refl _⟩
    · cases h
    · rename_i hleft
      cases hleft
  | succ left ih =>
    unfold iterate at h
    split at h
    · cases h
      exact ⟨ho, .refl _⟩
    · rename_i hleft
      cases hleft
    · rename_i block rest left'' hwork hleft
      cases hleft
      obtain ⟨p₂, hvisit, h⟩ := bind_eq_ok.mp h
      obtain ⟨hb, -⟩ := hinv.queue block (by rw [hwork]; exact List.mem_cons_self)
      obtain ⟨hlive, hform⟩ := hinv.stable hb (hinv.ran hR hq hwork hvisit) ho
      obtain ⟨hlive', hform'⟩ := ih (hinv.visit hR hq hwork hvisit) h hlive
      exact ⟨hlive', hform.trans hform'⟩

/-- **The iteration over an expanded body takes the same visits**, and has as many left as its bound
is larger. -/
theorem Mirrored.iterate (hq : Expands f place q q') (hm : q.typer.model.Built)
    (hR : AbstractState.Ascending q.typer.model R) (hinv : Inv q R entry p)
    (hp : Mirrored f place q.code.size p p') {bound left left' : Nat} (bound' extra : Nat)
    (hinside : EntersInside q p₁.before) (h : iterate q bound left p = .ok (left', p₁)) :
    ∃ p₁', iterate q' bound' (left + extra) p' = .ok (left' + extra, p₁')
      ∧ Mirrored f place q.code.size p₁ p₁' := by
  induction left generalizing p p' with
  | zero =>
    unfold Fixpoint.iterate at h
    split at h
    · rename_i hwork
      cases h
      refine ⟨p', ?_, hp⟩
      unfold Fixpoint.iterate
      rw [hp.worklist, hwork]
    · cases h
    · rename_i hleft
      cases hleft
  | succ left ih =>
    unfold Fixpoint.iterate at h
    split at h
    · rename_i hwork
      cases h
      refine ⟨p', ?_, hp⟩
      unfold Fixpoint.iterate
      rw [hp.worklist, hwork]
    · rename_i hleft
      cases hleft
    · rename_i block rest left'' hwork hleft
      cases hleft
      obtain ⟨p₂, hvisit, h⟩ := bind_eq_ok.mp h
      have hinv₂ := hinv.visit hR hq.wellFormed hwork hvisit
      have hinside₂ : EntersInside q p₂.before := by
        intro o i hd hi hop hlive u hu
        obtain ⟨hlive₁, hform⟩ := iterate_keeps hR hq.wellFormed hinv₂ h hlive
        rw [hform.depth]
        exact hinside o i hd hi hop hlive₁ u (AbstractState.unwind?_congr hform.blocks ▸ hu)
      obtain ⟨p₂', hvisit', hm₂⟩ := hp.visit hq hm hinv hwork hinside₂ hvisit
      obtain ⟨p₁', h', hm₁⟩ := ih hinv₂ hm₂ h
      refine ⟨p₁', ?_, hm₁⟩
      rw [Nat.add_right_comm]
      unfold Fixpoint.iterate
      rw [hp.worklist, hwork]
      exact bind_eq_ok.mpr ⟨p₂', hvisit', h'⟩

end Runs

end Fixpoint

end Stackwise
