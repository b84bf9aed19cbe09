import Stackwise.Analysis.Region

/-!
# The table of regions

A table of regions says of every offset what the state there says: regions are runs of offsets, and
joining neighbours loses nothing about where exceptions go.

* `Region.target`: what neighbours must share to be joined; `Region.aim`: the part of it that routes
  an exception.
* `Region.target_find?_merge`: looking an offset up in joined runs gives the target of its own
  region.
* `Region.target_find?_table`, `Region.aim_find?_table`: the table gives the way of an exception out
  of each live state.
-/

namespace Stackwise

/-- Where an exception goes, what the stack is cut to, and which handled exception comes back. -/
def Unwind.aim (u : Unwind) : Nat × Nat × Option Nat := (u.handler, u.level, u.restoreAt)

namespace Region

/-- Where a region sends exceptions. -/
def aim (r : Region) : Nat × Nat × Option Nat := (r.handler, r.level, r.restoreAt)

/-- What a region says of its offsets, apart from the kind of its handler. -/
def target (r : Region) : Nat × Nat × Option Nat × Option Nat :=
  (r.handler, r.level, r.restoreAt, r.finallyEntry)

/-! ## 1. Joined runs -/

theorem sameTarget_iff {r r' : Region} : r.sameTarget r' = true ↔ r.target = r'.target := by
  simp only [sameTarget, Bool.and_eq_true, beq_iff_eq, target, Prod.mk.injEq, and_assoc]

theorem find?_cons (r : Region) (rs : List Region) (o : Nat) :
    find? (r :: rs) o
      = if r.stop ≤ o then find? rs o else if r.start ≤ o then some r else none := by
  simp only [find?, List.dropWhile_cons, decide_eq_true_eq]
  by_cases hstop : r.stop ≤ o
  · rw [if_pos hstop, if_pos hstop]
  · rw [if_neg hstop, if_neg hstop]
    simp only [contains, Bool.and_eq_true, decide_eq_true_eq, Nat.not_le.mp hstop, and_true]

/-- The region of an offset, when `run` covers offsets before `base` and `xs` lists those from `base`
on. -/
def atOffset (base : Nat) (run : Option Region) (xs : List (Option Region)) (o : Nat) :
    Option Region :=
  if o < base then run.filter (·.start ≤ o) else xs[o - base]?.join

/-- The regions of single offsets from `base` on. -/
def Single (base : Nat) (xs : List (Option Region)) : Prop :=
  ∀ j r, xs[j]? = some (some r) → r.start = base + j ∧ r.stop = base + j + 1

theorem Single.tail {base : Nat} {x : Option Region} {xs : List (Option Region)}
    (h : Single base (x :: xs)) : Single (base + 1) xs := by
  intro j r hr
  obtain ⟨hstart, hstop⟩ := h (j + 1) r hr
  exact ⟨by omega, by omega⟩

theorem Single.head {base : Nat} {r : Region} {xs : List (Option Region)}
    (h : Single base (some r :: xs)) : r.start = base ∧ r.stop = base + 1 :=
  h 0 r rfl

section AtOffset

variable {base o : Nat} {x run run' : Option Region} {xs : List (Option Region)}

theorem atOffset_before (ho : o < base) : atOffset base run xs o = run.filter (·.start ≤ o) :=
  if_pos ho

theorem atOffset_here : atOffset base run (x :: xs) base = x := by
  rw [atOffset, if_neg (Nat.lt_irrefl _), Nat.sub_self]
  rfl

theorem atOffset_after (ho : base < o) :
    atOffset base run (x :: xs) o = atOffset (base + 1) run' xs o := by
  obtain ⟨j, rfl⟩ := Nat.exists_eq_add_of_lt ho
  rw [atOffset, atOffset, if_neg (by omega), if_neg (by omega),
    show base + j + 1 - base = j + 1 by omega, show base + j + 1 - (base + 1) = j by omega,
    List.getElem?_cons_succ]

end AtOffset

/-- **Joined runs say of each offset what its own region does.** -/
theorem target_find?_merge {xs : List (Option Region)} {run : Option Region} {base : Nat}
    (hxs : Single base xs) (hrun : ∀ r, run = some r → r.start < base ∧ r.stop = base) (o : Nat) :
    (find? (merge xs run) o).map target = (atOffset base run xs o).map target := by
  fun_induction merge xs run generalizing base with
  | case1 run =>
    cases run with
    | none =>
      rw [atOffset]
      split <;> rfl
    | some r =>
      obtain ⟨-, rfl⟩ := hrun r rfl
      rw [Option.toList_some, find?_cons, atOffset]
      by_cases ho : o < r.stop
      · rw [if_neg (Nat.not_le.mpr ho), if_pos ho, Option.filter_some]
        simp only [decide_eq_true_eq]
      · rw [if_pos (Nat.not_lt.mp ho), if_neg ho]
        rfl
  | case2 next rest ih =>
    -- a run may start here
    rw [ih hxs.tail (fun r hr => by
      subst hr
      obtain ⟨hstart, hstop⟩ := hxs.head
      exact ⟨by omega, hstop⟩)]
    rcases Nat.lt_trichotomy o base with ho | rfl | ho
    · rw [atOffset_before (by omega), atOffset_before ho]
      cases next with
      | none => rfl
      | some r => rw [Option.filter_some, if_neg (by rw [hxs.head.1]; simpa using ho)]; rfl
    · rw [atOffset_before (Nat.lt_succ_self _), atOffset_here]
      cases next with
      | none => rfl
      | some r => rw [Option.filter_some, if_pos (by rw [hxs.head.1]; simp)]
    · rw [atOffset_after ho]
  | case3 rest run ih =>
    -- the run ends here
    obtain ⟨hstart, rfl⟩ := hrun run rfl
    rw [find?_cons]
    rcases Nat.lt_trichotomy o run.stop with ho | rfl | ho
    · rw [if_neg (Nat.not_le.mpr ho), atOffset_before ho, Option.filter_some]
      simp only [decide_eq_true_eq]
    · rw [if_pos (Nat.le_refl _), ih hxs.tail (fun _ h => by cases h),
        atOffset_before (Nat.lt_succ_self _), atOffset_here]
      rfl
    · rw [if_pos (Nat.le_of_lt ho), ih hxs.tail (fun _ h => by cases h), atOffset_after ho]
  | case4 next rest run hsame ih =>
    -- the run goes on
    obtain ⟨hstart, hstop⟩ := hrun run rfl
    obtain ⟨hnext, hnstop⟩ := hxs.head
    rw [ih hxs.tail (fun r hr => by
      cases hr
      exact ⟨Nat.lt_succ_of_lt hstart, hnstop⟩)]
    rcases Nat.lt_trichotomy o base with ho | rfl | ho
    · rw [atOffset_before (by omega), atOffset_before ho, Option.filter_some, Option.filter_some]
      simp only [decide_eq_true_eq]
      split <;> rfl
    · rw [atOffset_before (Nat.lt_succ_self _), atOffset_here, Option.filter_some,
        if_pos (by simpa using Nat.le_of_lt hstart), Option.map_some, Option.map_some,
        ← sameTarget_iff.mp hsame]
      rfl
    · rw [atOffset_after ho]
  | case5 next rest run hsame ih =>
    -- another run starts
    obtain ⟨hstart, rfl⟩ := hrun run rfl
    obtain ⟨hnext, hnstop⟩ := hxs.head
    have hih := ih hxs.tail (fun r hr => by
      cases hr
      exact ⟨by omega, hnstop⟩)
    rw [find?_cons]
    rcases Nat.lt_trichotomy o run.stop with ho | rfl | ho
    · rw [if_neg (Nat.not_le.mpr ho), atOffset_before ho, Option.filter_some]
      simp only [decide_eq_true_eq]
    · rw [if_pos (Nat.le_refl _), hih, atOffset_before (Nat.lt_succ_self _), atOffset_here,
        Option.filter_some, if_pos (by simpa using Nat.le_of_eq hnext)]
    · rw [if_pos (Nat.le_of_lt ho), hih, atOffset_after ho]

/-! ## 2. The table of a body -/

theorem target_ofState? (code : Array Instr) (o : Nat) (s : AbstractState) :
    (ofState? code o s).map target = if s.dead then none
      else s.unwind?.map fun u => (u.handler, u.level, u.restoreAt, finallyEntry? code s) := by
  unfold ofState?
  split
  · rfl
  · cases s.unwind? <;> rfl

theorem ofState?_offsets {code : Array Instr} {o : Nat} {s : AbstractState} {r : Region}
    (h : ofState? code o s = some r) : r.start = o ∧ r.stop = o + 1 := by
  unfold ofState? at h
  split at h
  · cases h
  · obtain ⟨u, -, rfl⟩ := Option.map_eq_some_iff.mp h
    exact ⟨rfl, rfl⟩

theorem single_ofState? (is : List Instr) (a : Analysis) :
    Single 0 (a.states.toList.zipIdx.map fun (s, offset) => ofState? is.toArray offset s) := by
  intro j r hr
  rw [List.getElem?_map, List.getElem?_zipIdx, Option.map_map] at hr
  obtain ⟨s, -, hs⟩ := Option.map_eq_some_iff.mp hr
  exact ofState?_offsets hs

theorem target_find?_table (is : List Instr) (a : Analysis) (o : Nat) :
    (find? (table is a) o).map target = if (a.state o).dead then none
      else (a.state o).unwind?.map fun u =>
        (u.handler, u.level, u.restoreAt, finallyEntry? is.toArray (a.state o)) := by
  rw [table, target_find?_merge (single_ofState? is a) (fun _ h => by cases h), atOffset,
    if_neg (Nat.not_lt_zero o), Nat.sub_zero, List.getElem?_map, List.getElem?_zipIdx,
    Array.getElem?_toList, Option.map_map, Analysis.state, Array.getD_eq_getD_getElem?,
    Nat.zero_add]
  cases a.states[o]? with
  | none => rfl
  | some s => exact target_ofState? is.toArray o s

/-- **The table gives the way of an exception out of each state.** -/
theorem aim_find?_table (is : List Instr) (a : Analysis) (o : Nat) :
    (find? (table is a) o).map aim
      = if (a.state o).dead then none else (a.state o).unwind?.map Unwind.aim := by
  have haim : aim = (fun t => (t.1, t.2.1, t.2.2.1)) ∘ target := rfl
  rw [haim, ← Option.map_map, target_find?_table]
  split
  · rfl
  · exact Option.map_map _ _ _

end Region

end Stackwise
