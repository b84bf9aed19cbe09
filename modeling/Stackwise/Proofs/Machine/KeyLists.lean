import Stackwise.Machine.Arithmetic

/-!
# Lists of keys

The keys of a mapping and the members of a set lie in plain lists. What every change to these lists
makes of keys that are apart.

* `Value.equalWith_of_hashable`: equality of what can be a key does not depend on the store, and
  `Value.keyEqual_comm`: it is symmetric.
* `Apart`: keys of which no two are equal, but for some pairs that are tolerated.
* `Apart.insert`, `Apart.insertAll`, `Apart.addMember`, `Apart.setMembers`: additions look for an
  equal key first. `Apart.sublist`: what is left of keys that are apart.
-/

namespace Stackwise

/-! ## 1. Equality of keys -/

namespace Value

/-- Equality of values of which no collection takes part. -/
def keyEqual (a b : Value) : Bool := a.equalWith (fun _ _ => false) b

mutual

/-- Nothing that can be a key holds a collection. -/
theorem equalWith_of_hashable (below : Value → Value → Bool) :
    ∀ a b : Value, a.isHashable = true → a.equalWith below b = a.keyEqual b
  | .tuple _ items, b, h => by
    cases b with
    | tuple _ others => exact equalItems_of_hashable below items others h
    | _ => rfl
  | .list _, _, h | .dict _, _, h | .set _, _, h | .slice _ _ _ _, _, h => by cases h
  | .none, b, _ | .bool _, b, _ | .int _, b, _ | .float _, b, _ | .str _ _, b, _ | .bytes _ _, b, _
  | .range _, b, _ | .iter _, b, _ | .classObject _, b, _ | .function _, b, _
  | .method _ _ _ _, b, _ | .builtin _ _, b, _ | .generator _, b, _ | .exception _ _, b, _
  | .traceback _ _, b, _ | .cell _, b, _ | .code _, b, _ | .ellipsis, b, _ | .native _ _, b, _ => by
    cases b <;> rfl

theorem equalItems_of_hashable (below : Value → Value → Bool) :
    ∀ as bs : List Value, allHashable as = true →
      equalItems below as bs = equalItems (fun _ _ => false) as bs
  | [], [], _ => rfl
  | [], _ :: _, _ => rfl
  | _ :: _, [], _ => rfl
  | a :: as, b :: bs, h => by
    rw [allHashable, Bool.and_eq_true] at h
    rw [equalItems, equalItems, equalWith_of_hashable below a b h.1,
      equalItems_of_hashable below as bs h.2]
    rfl

end

theorem same_comm (a b : Value) : a.same b = b.same a := BEq.comm

theorem equalNumbers?_comm (a b : Value) : a.equalNumbers? b = b.equalNumbers? a := by
  have hequals : ∀ x y : Double, x.equals y = y.equals x := by
    intro x y
    rw [Double.equals, Double.equals, Bool.and_comm (!x.isNaN), BEq.comm (a := x.key)]
  unfold equalNumbers?
  cases a.asInt? <;> cases b.asInt? <;> cases a.asDouble? <;> cases b.asDouble? <;>
    simp only [hequals, BEq.comm]

/-- What is compared by number or by identity. -/
theorem keyEqual_comm_plain {a b : Value} (h : a.keyEqual b = (a.equalNumbers? b).getD (a.same b))
    (h' : b.keyEqual a = (b.equalNumbers? a).getD (b.same a)) : a.keyEqual b = b.keyEqual a := by
  rw [h, h', equalNumbers?_comm, same_comm]

mutual

theorem keyEqual_comm : ∀ a b : Value, a.isHashable = true → b.isHashable = true →
    a.keyEqual b = b.keyEqual a
  | .tuple _ items, b, ha, hb => by
    cases b with
    | tuple _ others => exact equalItems_comm items others ha hb
    | _ => exact keyEqual_comm_plain rfl rfl
  | .str _ s, b, _, _ => by
    cases b with
    | str _ t => exact BEq.comm
    | _ => exact keyEqual_comm_plain rfl rfl
  | .bytes _ s, b, _, _ => by
    cases b with
    | bytes _ t => exact BEq.comm
    | _ => exact keyEqual_comm_plain rfl rfl
  | .method _ v _ n, b, _, _ => by
    cases b with
    | method _ w _ o =>
      show (n == o && v.same w) = (o == n && w.same v)
      rw [BEq.comm, same_comm]
    | _ => exact keyEqual_comm_plain rfl rfl
  | .list _, _, h, _ | .dict _, _, h, _ | .set _, _, h, _ | .slice _ _ _ _, _, h, _ => by cases h
  | .none, b, _, h | .bool _, b, _, h | .int _, b, _, h | .float _, b, _, h | .range _, b, _, h
  | .iter _, b, _, h | .classObject _, b, _, h | .function _, b, _, h | .builtin _ _, b, _, h
  | .generator _, b, _, h | .exception _ _, b, _, h | .traceback _ _, b, _, h | .cell _, b, _, h
  | .code _, b, _, h | .ellipsis, b, _, h | .native _ _, b, _, h => by
    cases b <;> exact keyEqual_comm_plain rfl rfl

theorem equalItems_comm : ∀ as bs : List Value, allHashable as = true → allHashable bs = true →
    equalItems (fun _ _ => false) as bs = equalItems (fun _ _ => false) bs as
  | [], [], _, _ => rfl
  | [], _ :: _, _, _ => rfl
  | _ :: _, [], _, _ => rfl
  | a :: as, b :: bs, ha, hb => by
    rw [allHashable, Bool.and_eq_true] at ha hb
    rw [equalItems, equalItems, equalItems_comm as bs ha.2 hb.2]
    exact congrArg (· && _) (keyEqual_comm a b ha.1 hb.1)

end

end Value

namespace Store

/-- No collection takes part in the equality of keys. -/
theorem equal_of_hashable (s : Store) {a b : Value} (h : a.isHashable = true) :
    s.equal a b = a.keyEqual b := by
  unfold equal
  cases s.size with
  | zero => rfl
  | succ n => exact Value.equalWith_of_hashable _ a b h

end Store

/-! ## 2. Keys that are apart -/

/-- Values that can be keys, of which no two are equal but for those that are tolerated. -/
structure Apart (tolerated : Value → Value → Prop) (ks : List Value) : Prop where
  hashable : ∀ k ∈ ks, k.isHashable = true
  unequal : ks.Pairwise fun a b => a.keyEqual b = false ∨ tolerated a b

namespace Apart

variable {T : Value → Value → Prop} {s : Store} {ks : List Value} {k v : Value}
  {pairs more : List (Value × Value)}

theorem nil : Apart T [] := ⟨List.forall_mem_nil _, .nil⟩

theorem sublist {ks' : List Value} (h : Apart T ks) (hsub : ks'.Sublist ks) : Apart T ks' :=
  ⟨fun k hk => h.hashable k (hsub.subset hk), h.unequal.sublist hsub⟩

/-- A key that is equal to none before it, or tolerated beside it. -/
theorem append (h : Apart T ks) (hk : k.isHashable = true)
    (hnew : ∀ m ∈ ks, m.keyEqual k = false ∨ T m k) : Apart T (ks ++ [k]) := by
  constructor
  · intro m hm
    rcases List.mem_append.mp hm with hm | hm
    · exact h.hashable m hm
    · rwa [List.mem_singleton.mp hm]
  · refine List.pairwise_append.mpr ⟨h.unequal, List.pairwise_singleton _ _, fun m hm n hn => ?_⟩
    rw [List.mem_singleton.mp hn]
    exact hnew m hm

/-! ### 2.1 Mappings -/

theorem map_fst_modify (pairs : List (Value × Value)) (i : Nat) (v : Value) :
    (pairs.modify i fun (k, _) => (k, v)).map (·.1) = pairs.map (·.1) := by
  induction pairs generalizing i with
  | nil => cases i <;> rfl
  | cons p pairs ih =>
    cases i with
    | zero => rfl
    | succ i => exact congrArg (p.1 :: ·) (ih i)

/-- A value under a key that is there already, or a new key at the end. -/
theorem insert (h : Apart T (pairs.map (·.1))) (hk : k.isHashable = true) :
    Apart T ((s.insert pairs k v).map (·.1)) := by
  unfold Store.insert
  split
  · rw [map_fst_modify]
    exact h
  · rename_i hnone
    rw [List.map_append]
    refine h.append hk fun m hm => .inl ?_
    obtain ⟨p, hp, rfl⟩ := List.mem_map.mp hm
    have hunequal : s.equal p.1 k = false := List.findIdx?_eq_none_iff.mp hnone p hp
    rwa [s.equal_of_hashable (h.hashable p.1 hm)] at hunequal

theorem insertAll (h : Apart T (pairs.map (·.1))) (hmore : ∀ p ∈ more, p.1.isHashable = true) :
    Apart T ((s.insertAll pairs more).map (·.1)) := by
  unfold Store.insertAll
  induction more generalizing pairs with
  | nil => exact h
  | cons p more ih =>
    exact ih (h.insert (hmore p List.mem_cons_self)) fun q hq => hmore q (List.mem_cons_of_mem _ hq)

theorem erase {rest : List (Value × Value)} (h : Apart T (pairs.map (·.1)))
    (herase : s.erase? pairs k = some (v, rest)) : Apart T (rest.map (·.1)) := by
  unfold Store.erase? at herase
  split at herase
  · obtain ⟨_, -, hrest⟩ := Option.map_eq_some_iff.mp herase
    cases hrest
    exact h.sublist ((List.eraseIdx_sublist _ _).map _)
  · cases herase

/-! ### 2.2 Sets -/

/-- Members that are no members of the others. -/
theorem append_unequal {xs ys : List Value} (hx : Apart T xs) (hy : Apart T ys)
    (hnew : ∀ v ∈ ys, s.elem v xs = false) : Apart T (xs ++ ys) := by
  constructor
  · intro k hk
    rcases List.mem_append.mp hk with hk | hk
    · exact hx.hashable k hk
    · exact hy.hashable k hk
  · refine List.pairwise_append.mpr ⟨hx.unequal, hy.unequal, fun m hm v hv => .inl ?_⟩
    have hunequal := List.any_eq_false.mp (hnew v hv) m hm
    rw [Bool.not_eq_true, s.equal_of_hashable (hx.hashable m hm)] at hunequal
    exact hunequal

theorem addMember (h : Apart T ks) (hv : v.isHashable = true) :
    Apart T (s.addMember ks v) := by
  unfold Store.addMember
  split
  · exact h
  · rename_i hnew
    have hone : Apart T [v] := nil.append hv (List.forall_mem_nil _)
    refine h.append_unequal (s := s) hone fun w hw => ?_
    rw [List.mem_singleton.mp hw]
    exact Bool.eq_false_iff.mpr hnew

/-- The four operators on sets. -/
theorem setMembers {xs ys : List Value} (hx : Apart T xs) (hy : Apart T ys) (op : BinaryOp) :
    Apart T (Machine.setMembers s op xs ys) := by
  have honly : ∀ {v}, v ∈ ys.filter (fun v => !s.elem v xs) → s.elem v xs = false := by
    intro v hv
    simpa using (List.mem_filter.mp hv).2
  unfold Machine.setMembers
  dsimp only
  split
  · exact hx.append_unequal (hy.sublist List.filter_sublist) fun v hv => honly hv
  · exact hx.sublist List.filter_sublist
  · exact hx.sublist List.filter_sublist
  · refine (hx.sublist List.filter_sublist).append_unequal (s := s)
      (hy.sublist List.filter_sublist) fun v hv => List.any_eq_false.mpr fun m hm => ?_
    exact List.any_eq_false.mp (honly hv) m (List.mem_filter.mp hm).1

end Apart

end Stackwise
