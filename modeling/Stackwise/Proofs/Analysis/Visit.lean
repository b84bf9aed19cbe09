import Stackwise.Analysis.Fixpoint
import Stackwise.Proofs.Analysis.Blocks
import Stackwise.Proofs.Analysis.Form

/-!
# One visit of a block

What a visit leaves behind, for every relation that joins ascend:

* `Steps`: the entry states of blocks only rise, and a block whose entry state changed waits in the
  worklist;
* `Flows`: what leaves an instruction has arrived at the blocks that it goes to;
* `Ran`: a visit writes the states of its block one after the other, and each of them flows;
* `visitFrom_ran`: the instructions of a block, run from a live state, leave this behind.
-/

namespace Stackwise

/-- The offset of a way on, seen from the offset of the operation. -/
def Successor.target (o : Nat) : Successor → Nat
  | .next => o + 1
  | .jump t => t

namespace Fixpoint

/-! ## 1. Reading the progress -/

/-- The entry state of a block. -/
def Progress.entryOf (p : Progress) (b : Nat) : AbstractState := p.blockIn.getD b default

/-- The state before an instruction. -/
def Progress.before (p : Progress) (o : Nat) : AbstractState := p.states.getD o default

theorem getD_setIfInBounds {α : Type} (as : Array α) (i j : Nat) (v d : α) :
    (as.setIfInBounds i v).getD j d = if i = j ∧ i < as.size then v else as.getD j d := by
  simp only [Array.getD_eq_getD_getElem?, Array.getElem?_setIfInBounds]
  by_cases hij : i = j
  · subst hij
    by_cases hi : i < as.size
    · rw [if_pos rfl, if_pos hi, if_pos ⟨rfl, hi⟩]
      rfl
    · rw [if_pos rfl, if_neg hi, if_neg (fun h => hi h.2), Array.getElem?_eq_none (Nat.not_lt.mp hi)]
  · rw [if_neg hij, if_neg (fun h => hij h.1)]

/-! ## 2. Where control goes -/

section Ways

variable (q : Problem)

/-- An exception at an offset with state `s` goes to the handler `h`. -/
def Raises (o : Nat) (s : AbstractState) (h : Nat) : Prop :=
  ∃ i, q.code[o]? = some i ∧ i.op.mayRaise = true ∧ ∃ u, s.unwind? = some u ∧ u.handler = h

/-- Control goes from an offset with state `s` to the offset `t`, by an outcome or an exception. -/
def Leads (o : Nat) (s : AbstractState) (t : Nat) : Prop :=
  (∃ i tr, q.code[o]? = some i ∧ i.op.effect q.typer o s = .ok tr ∧ ∃ w ∈ tr, w.1.target o = t)
    ∨ Raises q o s t

/-- A problem whose graph partitions its code, no block going on after an operation that ends one. -/
structure Problem.WellFormed : Prop where
  partitions : q.graph.Partitions q.code.size
  ends : ∀ o i, q.code[o]? = some i → FlowGraph.endsBlock i.op = true → o + 1 < q.code.size →
    q.graph.isLeader (o + 1) = true

end Ways

variable {q : Problem} {R : AbstractState → AbstractState → Prop}

theorem Problem.WellFormed.inner (hq : q.WellFormed) {b o : Nat} {i : Instr} (hb : b < q.graph.size)
    (hs : (q.graph.block b).start ≤ o) (ho : o + 1 < (q.graph.block b).stop)
    (hi : q.code[o]? = some i) : FlowGraph.endsBlock i.op = false := by
  have hlt := Nat.lt_of_lt_of_le ho (hq.partitions.bounds b hb).2
  rw [Bool.eq_false_iff]
  intro he
  have hleader := hq.ends o i hi he hlt
  rw [hq.partitions.not_isLeader hb (Nat.lt_succ_of_le hs) ho] at hleader
  cases hleader

/-- Where control goes depends on the form of the state only. -/
theorem Leads.of_sameForm {o t : Nat} {s s' : AbstractState} {i : Instr} {tr : Transfer}
    (hf : s.SameForm s') (hi : q.code[o]? = some i) (hok : i.op.effect q.typer o s' = .ok tr)
    (h : Leads q o s t) : Leads q o s' t := by
  rcases h with ⟨i', tr', hi', htr', w, hw, ht⟩ | ⟨i', hi', hm, u, hu, hh⟩
  · obtain rfl : i = i' := Option.some.inj (hi.symm.trans hi')
    have hmap := Op.effect_sameForm hf htr' hok
    have hmem : Op.formOf w ∈ tr.map Op.formOf := hmap ▸ List.mem_map_of_mem hw
    obtain ⟨w', hw', heq⟩ := List.mem_map.mp hmem
    have hsucc : w'.1 = w.1 := congrArg (fun f : Successor × Nat × List Block => f.1) heq
    exact Or.inl ⟨i, tr, hi, hok, w', hw', by rw [hsucc, ht]⟩
  · rw [AbstractState.unwind?_congr hf.blocks] at hu
    exact Or.inr ⟨i', hi', hm, u, hu, hh⟩

/-! ## 3. Progress goes up -/

/-- What happens to the progress between two moments, the states of instructions aside. -/
structure Steps (R : AbstractState → AbstractState → Prop) (p p' : Progress) : Prop where
  blocks : p'.blockIn.size = p.blockIn.size
  size : p'.states.size = p.states.size
  rises : ∀ b, R (p.entryOf b) (p'.entryOf b)
  changed : ∀ b, p'.entryOf b ≠ p.entryOf b → b ∈ p'.worklist
  waits : ∀ b ∈ p.worklist, b ∈ p'.worklist
  live : ∀ b ∈ p'.worklist, b ∈ p.worklist ∨ b < p.blockIn.size ∧ (p'.entryOf b).dead = false
  edges : ∀ e ∈ p.exceptionEdges, e ∈ p'.exceptionEdges

section Ascent

variable (hR : AbstractState.Ascending q.typer.model R)

include hR

theorem Steps.refl (p : Progress) : Steps R p p where
  blocks := rfl
  size := rfl
  rises _ := hR.refl _
  changed _ hb := absurd rfl hb
  waits _ hb := hb
  live _ hb := Or.inl hb
  edges _ he := he

theorem Steps.trans {p₁ p₂ p₃ : Progress} (h : Steps R p₁ p₂) (h' : Steps R p₂ p₃) :
    Steps R p₁ p₃ where
  blocks := h'.blocks.trans h.blocks
  size := h'.size.trans h.size
  rises b := hR.trans (h.rises b) (h'.rises b)
  changed b hb := by
    by_cases h₂ : p₂.entryOf b = p₁.entryOf b
    · exact h'.changed b (by rw [h₂]; exact hb)
    · exact h'.waits b (h.changed b h₂)
  waits b hb := h'.waits b (h.waits b hb)
  live b hb := by
    rcases h'.live b hb with h₂ | ⟨hlt, hlive⟩
    · rcases h.live b h₂ with h₁ | ⟨hlt, hlive⟩
      · exact Or.inl h₁
      · exact Or.inr ⟨hlt, hR.live hlive (h'.rises b)⟩
    · exact Or.inr ⟨h.blocks ▸ hlt, hlive⟩
  edges e he := h'.edges e (h.edges e he)

end Ascent

/-- A state has been joined into the block that starts at `t`. -/
def Arrives (q : Problem) (R : AbstractState → AbstractState → Prop) (p : Progress) (t : Nat)
    (s : AbstractState) : Prop :=
  t < q.code.size ∧ q.graph.isLeader t = true ∧ R s (p.entryOf (q.graph.blockAt t))

theorem Arrives.mono (hR : AbstractState.Ascending q.typer.model R) {p p' : Progress} {t : Nat}
    {s : AbstractState} (h : Arrives q R p t s) (hs : Steps R p p') : Arrives q R p' t s :=
  ⟨h.1, h.2.1, hR.trans h.2.2 (hs.rises _)⟩

/-! ## 4. Joining into a block -/

theorem Progress.mem_enqueue {p : Progress} {b c : Nat} :
    c ∈ (p.enqueue b).worklist ↔ c ∈ p.worklist ∨ c = b := by
  unfold Progress.enqueue
  split
  · rename_i hb
    refine ⟨Or.inl, ?_⟩
    rintro (hc | rfl)
    · exact hc
    · exact List.contains_iff_mem.mp hb
  · rw [List.mem_append, List.mem_singleton]

theorem Progress.enqueue_rest (p : Progress) (b : Nat) :
    (p.enqueue b).blockIn = p.blockIn ∧ (p.enqueue b).states = p.states
      ∧ (p.enqueue b).exceptionEdges = p.exceptionEdges := by
  unfold Progress.enqueue
  split <;> exact ⟨rfl, rfl, rfl⟩

/-- How a state is joined into a block. -/
theorem propagate_eq_ok {src t : Nat} {s : AbstractState} {p p₁ : Progress} :
    propagate q src t s p = .ok p₁ ↔ t < q.code.size ∧ q.graph.isLeader t = true
      ∧ ∃ new, AbstractState.join q.typer.model t (p.entryOf (q.graph.blockAt t)) s = .ok new
        ∧ p₁ = if new = p.entryOf (q.graph.blockAt t) then p
          else { p with blockIn := p.blockIn.setIfInBounds (q.graph.blockAt t) new }.enqueue
            (q.graph.blockAt t) := by
  unfold propagate
  by_cases hlt : t < q.code.size
  · rw [if_neg (Nat.not_le.mpr hlt)]
    cases hleader : q.graph.isLeader t with
    | false =>
      refine ⟨fun h => ?_, fun h => ?_⟩
      · cases h
      · cases h.2.1
    | true =>
      rw [if_neg (by rw [Bool.not_true]; exact Bool.false_ne_true), bind_eq_ok]
      refine ⟨fun h => ⟨hlt, rfl, ?_⟩, fun h => ?_⟩
      · obtain ⟨⟨changed, new⟩, hnew, h⟩ := h
        obtain ⟨hjoin, hchanged⟩ := AbstractState.joinFrom_eq_ok.mp hnew
        refine ⟨new, hjoin, ?_⟩
        cases changed with
        | false =>
          cases h
          exact (if_pos (bne_eq_false_iff_eq.mp hchanged.symm)).symm
        | true =>
          cases h
          exact (if_neg (bne_iff_ne.mp hchanged.symm)).symm
      · obtain ⟨-, -, new, hnew, rfl⟩ := h
        by_cases heq : new = p.entryOf (q.graph.blockAt t)
        · rw [if_pos heq]
          have hsame := (bne_eq_false_iff_eq.mpr heq).symm
          exact ⟨(false, new), AbstractState.joinFrom_eq_ok.mpr ⟨hnew, hsame⟩, rfl⟩
        · rw [if_neg heq]
          have hchanged := (bne_iff_ne.mpr heq).symm
          exact ⟨(true, new), AbstractState.joinFrom_eq_ok.mpr ⟨hnew, hchanged⟩, rfl⟩
  · rw [if_pos (Nat.not_lt.mp hlt)]
    refine ⟨fun h => ?_, fun h => absurd h.1 hlt⟩
    cases h

/-- What joining a state into a block does. -/
structure Joined (q : Problem) (R : AbstractState → AbstractState → Prop) (t : Nat)
    (s : AbstractState) (p p' : Progress) : Prop where
  steps : Steps R p p'
  arrives : Arrives q R p' t s
  states : p'.states = p.states
  edges : p'.exceptionEdges = p.exceptionEdges
  woken : ∀ c, (p'.entryOf c).dead = false → (p.entryOf c).dead = false ∨ c = q.graph.blockAt t

theorem propagate_joined (hR : AbstractState.Ascending q.typer.model R) (hq : q.WellFormed)
    {src t : Nat} {s : AbstractState} {p p' : Progress} (hs : s.dead = false)
    (hsize : p.blockIn.size = q.graph.size) (h : propagate q src t s p = .ok p') :
    Joined q R t s p p' := by
  obtain ⟨hlt, hleader, new, hnew, rfl⟩ := propagate_eq_ok.mp h
  obtain ⟨hold, hs'⟩ := hR.join hs hnew
  split
  · rename_i heq
    refine ⟨.refl hR p, ⟨hlt, hleader, ?_⟩, rfl, rfl, fun c hc => Or.inl hc⟩
    rw [heq] at hs'
    exact hs'
  · have hb : q.graph.blockAt t < p.blockIn.size := by
      rw [hsize]
      exact hq.partitions.blockAt_lt t hlt
    obtain ⟨hin, hst, hed⟩ := Progress.enqueue_rest
      { p with blockIn := p.blockIn.setIfInBounds (q.graph.blockAt t) new } (q.graph.blockAt t)
    have hentry : ∀ c, (Progress.enqueue
        { p with blockIn := p.blockIn.setIfInBounds (q.graph.blockAt t) new }
        (q.graph.blockAt t)).entryOf c
        = if q.graph.blockAt t = c then new else p.entryOf c := by
      intro c
      rw [Progress.entryOf, hin]
      simp only [getD_setIfInBounds, hb, and_true, Progress.entryOf]
    refine ⟨⟨?_, ?_, ?_, ?_, ?_, ?_, ?_⟩, ⟨hlt, hleader, ?_⟩, hst, hed, ?_⟩
    · rw [hin, Array.size_setIfInBounds]
    · rw [hst]
    · intro c
      rw [hentry]
      split
      · rename_i hc
        rw [← hc]
        exact hold
      · exact hR.refl _
    · intro c hc
      rw [Progress.mem_enqueue]
      rw [hentry] at hc
      split at hc
      · rename_i hbc
        exact Or.inr hbc.symm
      · exact absurd rfl hc
    · exact fun c hc => Progress.mem_enqueue.mpr (Or.inl hc)
    · intro c hc
      rcases Progress.mem_enqueue.mp hc with hc | rfl
      · exact Or.inl hc
      · refine Or.inr ⟨hb, ?_⟩
        rw [hentry, if_pos rfl]
        exact hR.live hs hs'
    · rw [hed]
      exact fun e he => he
    · rw [hentry, if_pos rfl]
      exact hs'
    · intro c hc
      rw [hentry] at hc
      split at hc
      · rename_i hbc
        exact Or.inr hbc.symm
      · exact Or.inl hc

/-! ## 5. What leaves an instruction -/

/-- What sending states on from an offset does. -/
structure Sent (q : Problem) (R : AbstractState → AbstractState → Prop) (o : Nat)
    (s : AbstractState) (p p' : Progress) : Prop where
  steps : Steps R p p'
  states : p'.states = p.states
  edges : ∀ e ∈ p'.exceptionEdges, e ∈ p.exceptionEdges ∨ e.1 = o ∧ Raises q o s e.2
  woken : ∀ c, (p'.entryOf c).dead = false →
    (p.entryOf c).dead = false ∨ Leads q o s (q.graph.block c).start

section Sending

variable {o : Nat} {s : AbstractState} {p p' p₁ p₂ p₃ : Progress} {tr : Transfer} {i : Instr}

theorem Sent.refl (hR : AbstractState.Ascending q.typer.model R) : Sent q R o s p p :=
  ⟨.refl hR p, rfl, fun _ he => Or.inl he, fun _ hc => Or.inl hc⟩

theorem Sent.trans (hR : AbstractState.Ascending q.typer.model R) (h : Sent q R o s p₁ p₂)
    (h' : Sent q R o s p₂ p₃) : Sent q R o s p₁ p₃ where
  steps := h.steps.trans hR h'.steps
  states := h'.states.trans h.states
  edges e he := by
    rcases h'.edges e he with he | he
    · exact h.edges e he
    · exact Or.inr he
  woken c hc := by
    rcases h'.woken c hc with hc | hc
    · exact h.woken c hc
    · exact Or.inr hc

theorem Joined.sent {t : Nat} {s' : AbstractState} (h : Joined q R t s' p p')
    (hl : Leads q o s t) : Sent q R o s p p' where
  steps := h.steps
  states := h.states
  edges e he := Or.inl (h.edges ▸ he)
  woken c hc := by
    rcases h.woken c hc with hc | rfl
    · exact Or.inl hc
    · rw [FlowGraph.isLeader_iff.mp h.arrives.2.1]
      exact Or.inr hl

theorem mem_insertEdge {e f : Nat × Nat} {es : List (Nat × Nat)} :
    f ∈ insertEdge e es ↔ f = e ∨ f ∈ es := by
  induction es with
  | nil => simp [insertEdge]
  | cons d es ih =>
    unfold insertEdge
    split
    · rename_i hed
      rw [List.mem_cons, hed]
      exact ⟨Or.inr, fun h => h.elim Or.inl id⟩
    · split
      · rw [List.mem_cons]
      · rw [List.mem_cons, ih, List.mem_cons, or_left_comm]

/-- An exception has been sent to its handler, and the edge is written down. -/
def Caught (q : Problem) (R : AbstractState → AbstractState → Prop) (p : Progress) (o : Nat)
    (s : AbstractState) : Prop :=
  ∃ x, s.exceptionState? o = .ok x
    ∧ ∀ h e, x = some (h, e) → (o, h) ∈ p.exceptionEdges ∧ Arrives q R p h e

theorem propagateException_sent (hR : AbstractState.Ascending q.typer.model R) (hq : q.WellFormed)
    (hs : s.dead = false) (hsize : p.blockIn.size = q.graph.size) (hi : q.code[o]? = some i)
    (h : propagateException q o s i.op p = .ok p') :
    Sent q R o s p p' ∧ (i.op.mayRaise = true → Caught q R p' o s) := by
  unfold propagateException at h
  split at h
  · rename_i hraise
    obtain ⟨x, hx, h⟩ := bind_eq_ok.mp h
    cases x with
    | none =>
      cases h
      refine ⟨.refl hR, fun _ => ⟨none, hx, ?_⟩⟩
      rintro _ _ ⟨⟩
    | some he =>
      obtain ⟨handler, e⟩ := he
      obtain ⟨u, hu, hh, -, -, -, -, -, hdead⟩ := AbstractState.exceptionState?_eq_ok hx
      have hr : Raises q o s handler := ⟨i, hi, hraise, u, hu, hh⟩
      have hj := propagate_joined hR hq
        (p := { p with exceptionEdges := insertEdge (o, handler) p.exceptionEdges })
        (hdead.trans hs) hsize h
      have hnote : Sent q R o s p
          { p with exceptionEdges := insertEdge (o, handler) p.exceptionEdges } := by
        refine ⟨⟨rfl, rfl, fun _ => hR.refl _, fun _ hb => absurd rfl hb, fun _ hb => hb,
          fun _ hb => Or.inl hb, fun e he => mem_insertEdge.mpr (Or.inr he)⟩, rfl, ?_,
          fun _ hc => Or.inl hc⟩
        intro f hf
        rcases mem_insertEdge.mp hf with rfl | hf
        · exact Or.inr ⟨rfl, hr⟩
        · exact Or.inl hf
      refine ⟨hnote.trans hR (hj.sent (Or.inr hr)), fun _ => ⟨_, hx, ?_⟩⟩
      rintro _ _ ⟨⟩
      exact ⟨hj.edges ▸ mem_insertEdge.mpr (Or.inl rfl), hj.arrives⟩
  · rename_i hraise
    cases h
    exact ⟨.refl hR, fun hm => absurd hm hraise⟩

/-- The outcomes of an operation have been sent where they go; inside a block the next instruction
is not a block of its own. -/
def Lands (q : Problem) (R : AbstractState → AbstractState → Prop) (p : Progress) (o : Nat)
    (isLast : Bool) (tr : Transfer) : Prop :=
  ∀ w ∈ tr, (w.1 = .next ∧ isLast = false) ∨ Arrives q R p (w.1.target o) w.2

theorem Lands.mono (hR : AbstractState.Ascending q.typer.model R) {isLast : Bool}
    (h : Lands q R p o isLast tr) (hs : Steps R p p') : Lands q R p' o isLast tr := by
  intro w hw
  rcases h w hw with hw | hw
  · exact Or.inl hw
  · exact Or.inr (hw.mono hR hs)

theorem Caught.mono (hR : AbstractState.Ascending q.typer.model R) (h : Caught q R p o s)
    (hs : Steps R p p') : Caught q R p' o s := by
  obtain ⟨x, hx, h⟩ := h
  refine ⟨x, hx, fun hd e he => ?_⟩
  obtain ⟨hmem, harr⟩ := h hd e he
  exact ⟨hs.edges _ hmem, harr.mono hR hs⟩

/-- What goes on to the next instruction of the block is given back. -/
def onwardOf (isLast : Bool) (onward : Option AbstractState) (tr : Transfer) :
    Option AbstractState :=
  if isLast then onward
  else tr.foldl (fun onward w => if w.1 = .next then some w.2 else onward) onward

theorem propagateAll_sent (hR : AbstractState.Ascending q.typer.model R) (hq : q.WellFormed)
    {isLast : Bool} {onward onward' : Option AbstractState}
    (hlive : ∀ w ∈ tr, w.2.dead = false) (hsize : p.blockIn.size = q.graph.size)
    (hleads : ∀ w ∈ tr, Leads q o s (w.1.target o))
    (h : propagateAll q o isLast tr onward p = .ok (onward', p')) :
    Sent q R o s p p' ∧ Lands q R p' o isLast tr ∧ onward' = onwardOf isLast onward tr := by
  induction tr generalizing p onward with
  | nil =>
    cases h
    refine ⟨.refl hR, fun w hw => absurd hw List.not_mem_nil, ?_⟩
    unfold onwardOf
    split <;> rfl
  | cons w tr ih =>
    obtain ⟨succ, s'⟩ := w
    have hs' : s'.dead = false := hlive (succ, s') List.mem_cons_self
    have hl := hleads (succ, s') List.mem_cons_self
    have hlive' : ∀ w ∈ tr, w.2.dead = false := fun w hw => hlive w (List.mem_cons_of_mem _ hw)
    have hleads' : ∀ w ∈ tr, Leads q o s (w.1.target o) :=
      fun w hw => hleads w (List.mem_cons_of_mem _ hw)
    -- a state that is joined into another block at once
    have hjoin : ∀ {p₁}, propagate q o (succ.target o) s' p = .ok p₁ →
        propagateAll q o isLast tr onward p₁ = .ok (onward', p') →
        Sent q R o s p p' ∧ Lands q R p' o isLast ((succ, s') :: tr)
          ∧ onward' = onwardOf isLast onward tr := by
      intro p₁ hp h
      have hj := propagate_joined hR hq hs' hsize hp
      obtain ⟨hsent, hlands, hon⟩ := ih hlive' (hj.steps.blocks.trans hsize) hleads' h
      refine ⟨(hj.sent hl).trans hR hsent, ?_, hon⟩
      intro w hw
      rcases List.mem_cons.mp hw with rfl | hw
      · exact Or.inr (hj.arrives.mono hR hsent.steps)
      · exact hlands w hw
    cases succ with
    | jump target =>
      obtain ⟨p₁, hp, h⟩ := bind_eq_ok.mp h
      obtain ⟨hsent, hlands, hon⟩ := hjoin hp h
      refine ⟨hsent, hlands, hon.trans ?_⟩
      unfold onwardOf
      rfl
    | next =>
      cases isLast with
      | true =>
        obtain ⟨p₁, hp, h⟩ := bind_eq_ok.mp h
        exact hjoin hp h
      | false =>
        obtain ⟨hsent, hlands, hon⟩ := ih hlive' hsize hleads' h
        refine ⟨hsent, ?_, hon⟩
        intro w hw
        rcases List.mem_cons.mp hw with rfl | hw
        · exact Or.inl ⟨rfl, rfl⟩
        · exact hlands w hw

end Sending

/-! ## 6. A block from one of its offsets on -/

/-- All that leaves an instruction has arrived where it goes. -/
def Flows (q : Problem) (R : AbstractState → AbstractState → Prop) (p : Progress) (o : Nat)
    (isLast : Bool) (s : AbstractState) : Prop :=
  ∃ i tr, q.code[o]? = some i ∧ i.op.effect q.typer o s = .ok tr ∧ Lands q R p o isLast tr
    ∧ (i.op.mayRaise = true → Caught q R p o s)

theorem Flows.mono (hR : AbstractState.Ascending q.typer.model R) {p p' : Progress} {o : Nat}
    {isLast : Bool} {s : AbstractState} (h : Flows q R p o isLast s) (hs : Steps R p p') :
    Flows q R p' o isLast s := by
  obtain ⟨i, tr, hi, htr, hl, hc⟩ := h
  exact ⟨i, tr, hi, htr, hl.mono hR hs, fun hm => (hc hm).mono hR hs⟩

/-- The states from `o` up to `stop` follow one another. -/
def Linked (q : Problem) (p : Progress) (o stop : Nat) : Prop :=
  ∀ o', o ≤ o' → o' + 1 < stop → ∃ i, q.code[o']? = some i
    ∧ i.op.effect q.typer o' (p.before o') = .ok [(.next, p.before (o' + 1))]

/-- A visit from `o` up to `stop`, in state `s` at first. -/
structure Ran (q : Problem) (R : AbstractState → AbstractState → Prop) (o stop : Nat)
    (s : AbstractState) (p p' : Progress) : Prop where
  steps : Steps R p p'
  outside : ∀ o', o' < o ∨ stop ≤ o' → p'.before o' = p.before o'
  first : p'.before o = s
  live : ∀ o', o ≤ o' → o' < stop → (p'.before o').dead = false
  linked : Linked q p' o stop
  flows : ∀ o', o ≤ o' → o' < stop → Flows q R p' o' (o' == stop - 1) (p'.before o')
  edges : ∀ e ∈ p'.exceptionEdges, e ∈ p.exceptionEdges
    ∨ (o ≤ e.1 ∧ e.1 < stop) ∧ Raises q e.1 (p'.before e.1) e.2
  woken : ∀ c, (p'.entryOf c).dead = false → (p.entryOf c).dead = false
    ∨ ∃ o', (o ≤ o' ∧ o' < stop) ∧ Leads q o' (p'.before o') (q.graph.block c).start

theorem before_write (p : Progress) {o o' : Nat} (s : AbstractState) (ho : o < p.states.size) :
    ({ p with states := p.states.setIfInBounds o s } : Progress).before o'
      = if o = o' then s else p.before o' := by
  rw [Progress.before, getD_setIfInBounds]
  simp only [ho, and_true, Progress.before]

/-- Writing the state of an offset is no step of the iteration. -/
theorem steps_write (hR : AbstractState.Ascending q.typer.model R) (p : Progress) (o : Nat)
    (s : AbstractState) : Steps R p { p with states := p.states.setIfInBounds o s } :=
  ⟨rfl, Array.size_setIfInBounds, fun _ => hR.refl _, fun _ hb => absurd rfl hb, fun _ hb => hb,
    fun _ hb => Or.inl hb, fun _ he => he⟩

/-- One instruction of a visit: its state is written down and all that leaves it is sent on. -/
theorem instruction_sent (hR : AbstractState.Ascending q.typer.model R) (hq : q.WellFormed)
    {o : Nat} {isLast : Bool} {s : AbstractState} {p p₁ p₂ : Progress} {i : Instr} {tr : Transfer}
    {onward : Option AbstractState} (hs : s.dead = false) (hsize : p.blockIn.size = q.graph.size)
    (hi : q.code[o]? = some i) (hexc : propagateException q o s i.op p = .ok p₁)
    (htr : i.op.effect q.typer o s = .ok tr)
    (hall : propagateAll q o isLast tr none p₁ = .ok (onward, p₂)) :
    Sent q R o s p p₂ ∧ Flows q R p₂ o isLast s ∧ onward = onwardOf isLast none tr := by
  obtain ⟨hsent₁, hcaught⟩ := propagateException_sent hR hq hs hsize hi hexc
  have hlive : ∀ w ∈ tr, w.2.dead = false :=
    fun w hw => ((Op.effect_follows htr).2 w hw).dead.trans hs
  have hleads : ∀ w ∈ tr, Leads q o s (w.1.target o) :=
    fun w hw => Or.inl ⟨i, tr, hi, htr, w, hw, rfl⟩
  obtain ⟨hsent₂, hlands, hon⟩ :=
    propagateAll_sent hR hq hlive (hsent₁.steps.blocks.trans hsize) hleads hall
  exact ⟨hsent₁.trans hR hsent₂,
    ⟨i, tr, hi, htr, hlands, fun hm => (hcaught hm).mono hR hsent₂.steps⟩, hon⟩

/-- A visit is its first instruction and then the rest. -/
theorem Ran.cons (hR : AbstractState.Ascending q.typer.model R) {o stop : Nat}
    {s s' : AbstractState} {p p₂ p' : Progress} {i : Instr} (ho : o + 1 < stop)
    (hsize : o < p.states.size) (hs : s.dead = false) (hi : q.code[o]? = some i)
    (htr : i.op.effect q.typer o s = .ok [(.next, s')])
    (hsent : Sent q R o s { p with states := p.states.setIfInBounds o s } p₂)
    (hflows : Flows q R p₂ o (o == stop - 1) s) (hran : Ran q R (o + 1) stop s' p₂ p') :
    Ran q R o stop s p p' := by
  have hfirst : p'.before o = s := by
    rw [hran.outside o (Or.inl (Nat.lt_succ_self o)), Progress.before, hsent.states]
    exact (before_write p s hsize).trans (if_pos rfl)
  refine ⟨((steps_write hR p o s).trans hR hsent.steps).trans hR hran.steps, ?_, hfirst, ?_, ?_, ?_,
    ?_, ?_⟩
  · intro o' ho'
    rw [hran.outside o' (by omega), Progress.before, hsent.states]
    exact (before_write p s hsize).trans (if_neg (by omega))
  · intro o' hle hlt
    rcases Nat.eq_or_lt_of_le hle with rfl | hlt'
    · rw [hfirst]
      exact hs
    · exact hran.live o' hlt' hlt
  · intro o' hle hlt
    rcases Nat.eq_or_lt_of_le hle with rfl | hlt'
    · exact ⟨i, hi, by rw [hfirst, hran.first]; exact htr⟩
    · exact hran.linked o' hlt' hlt
  · intro o' hle hlt
    rcases Nat.eq_or_lt_of_le hle with rfl | hlt'
    · rw [hfirst]
      exact hflows.mono hR hran.steps
    · exact hran.flows o' hlt' hlt
  · intro e he
    rcases hran.edges e he with he | ⟨hin, hr⟩
    · rcases hsent.edges e he with he | ⟨heq, hr⟩
      · exact Or.inl he
      · refine Or.inr ⟨by omega, ?_⟩
        rw [heq, hfirst]
        exact hr
    · exact Or.inr ⟨by omega, hr⟩
  · intro c hc
    rcases hran.woken c hc with hc | ⟨o', hin, hl⟩
    · rcases hsent.woken c hc with hc | hl
      · exact Or.inl hc
      · exact Or.inr ⟨o, by omega, by rw [hfirst]; exact hl⟩
    · exact Or.inr ⟨o', by omega, hl⟩

/-- The last instruction of a block is a visit of its own. -/
theorem Ran.last (hR : AbstractState.Ascending q.typer.model R) {o : Nat} {s : AbstractState}
    {p p' : Progress} (hsize : o < p.states.size) (hs : s.dead = false)
    (hsent : Sent q R o s { p with states := p.states.setIfInBounds o s } p')
    (hflows : Flows q R p' o true s) : Ran q R o (o + 1) s p p' := by
  have hbefore : ∀ o', p'.before o' = if o = o' then s else p.before o' := by
    intro o'
    rw [Progress.before, hsent.states]
    exact before_write p s hsize
  have hfirst : p'.before o = s := (hbefore o).trans (if_pos rfl)
  have honly : ∀ o', o ≤ o' → o' < o + 1 → o' = o := fun o' hle hlt => by omega
  refine ⟨(steps_write hR p o s).trans hR hsent.steps, ?_, hfirst, ?_, ?_, ?_, ?_, ?_⟩
  · intro o' ho'
    exact (hbefore o').trans (if_neg (by omega))
  · intro o' hle hlt
    rw [honly o' hle hlt, hfirst]
    exact hs
  · intro o' hle hlt
    omega
  · intro o' hle hlt
    rw [honly o' hle hlt, hfirst, Nat.add_sub_cancel, beq_self_eq_true]
    exact hflows
  · intro e he
    rcases hsent.edges e he with he | ⟨heq, hr⟩
    · exact Or.inl he
    · refine Or.inr ⟨by omega, ?_⟩
      rw [heq, hfirst]
      exact hr
  · intro c hc
    rcases hsent.woken c hc with hc | hl
    · exact Or.inl hc
    · exact Or.inr ⟨o, by omega, by rw [hfirst]; exact hl⟩

/-- A visit of a block that control does not come to writes its state down and stops. -/
theorem visitFrom_dead (q : Problem) (last : Nat) (os : List Nat) (p : Progress)
    {s : AbstractState} (hs : s.dead = true) :
    ∃ p', visitFrom q last os s p = .ok p' ∧ p'.blockIn = p.blockIn ∧ p'.worklist = p.worklist
      ∧ p'.exceptionEdges = p.exceptionEdges
      ∧ ∀ o, (p.before o).dead = true → (p'.before o).dead = true := by
  cases os with
  | nil => exact ⟨p, rfl, rfl, rfl, rfl, fun _ ho => ho⟩
  | cons first os =>
    refine ⟨_, if_pos hs, rfl, rfl, rfl, fun o ho => ?_⟩
    rw [Progress.before, getD_setIfInBounds]
    split
    · exact hs
    · exact ho

/-- **A visit runs its block to the end.** Started in a live state, it writes one live state after
the other, and all that leaves them arrives. -/
theorem visitFrom_ran (hR : AbstractState.Ascending q.typer.model R) (hq : q.WellFormed)
    {b : Nat} (hb : b < q.graph.size) {k o : Nat} {s : AbstractState} {p p' : Progress}
    (hstart : (q.graph.block b).start ≤ o) (hstop : o + (k + 1) = (q.graph.block b).stop)
    (hs : s.dead = false) (hblocks : p.blockIn.size = q.graph.size)
    (hstates : p.states.size = q.code.size)
    (h : visitFrom q (q.graph.block b).last (List.range' o (k + 1)) s p = .ok p') :
    Ran q R o (q.graph.block b).stop s p p' := by
  induction k generalizing o s p with
  | zero =>
    have ho : o < q.code.size := by have := (hq.partitions.bounds b hb).2; omega
    have hi : q.code[o]? = some q.code[o] := Array.getElem?_eq_getElem ho
    rw [List.range'_succ, visitFrom] at h
    simp only [hs, hi] at h
    obtain ⟨p₁, hexc, h⟩ := bind_eq_ok.mp h
    obtain ⟨tr, htr, h⟩ := bind_eq_ok.mp h
    obtain ⟨⟨onward, p₂⟩, hall, h⟩ := bind_eq_ok.mp h
    have hlast : (o == (q.graph.block b).last) = true := by
      rw [BasicBlock.last, beq_iff_eq]
      omega
    rw [hlast] at hall
    obtain ⟨hsent, hflows, rfl⟩ := instruction_sent hR hq hs
      (p := { p with states := p.states.setIfInBounds o s }) hblocks hi hexc htr hall
    cases h
    rw [← hstop]
    exact .last hR (hstates ▸ ho) hs hsent hflows
  | succ k ih =>
    have hlt : o + 1 < (q.graph.block b).stop := by omega
    have ho : o < q.code.size := by have := (hq.partitions.bounds b hb).2; omega
    have hi : q.code[o]? = some q.code[o] := Array.getElem?_eq_getElem ho
    rw [List.range'_succ, visitFrom] at h
    simp only [hs, hi] at h
    obtain ⟨p₁, hexc, h⟩ := bind_eq_ok.mp h
    obtain ⟨tr, htr, h⟩ := bind_eq_ok.mp h
    obtain ⟨⟨onward, p₂⟩, hall, h⟩ := bind_eq_ok.mp h
    have hinner : (o == (q.graph.block b).last) = false := by
      rw [BasicBlock.last, beq_eq_false_iff_ne]
      omega
    have hinner' : (o == (q.graph.block b).stop - 1) = false := hinner
    rw [hinner] at hall
    obtain ⟨hsent, hflows, rfl⟩ := instruction_sent hR hq hs
      (p := { p with states := p.states.setIfInBounds o s }) hblocks hi hexc htr hall
    obtain ⟨s', rfl⟩ := Op.effect_onward (hq.inner hb hstart hlt hi) htr
    have hs' : s'.dead = false :=
      ((Op.effect_follows htr).2 _ List.mem_cons_self).dead.trans hs
    have hran := ih (by omega) (by omega) hs' (hsent.steps.blocks.trans hblocks)
      (by rw [hsent.states, Array.size_setIfInBounds, hstates]) h
    exact .cons hR hlt (hstates ▸ ho) hs hi htr hsent (by rw [hinner']; exact hflows) hran

end Fixpoint

end Stackwise
