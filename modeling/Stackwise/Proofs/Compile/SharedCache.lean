import Mathlib.Data.List.Basic
import Stackwise.Compile.Compiler

/-!
# Shared caches

A cache that several requests use at once. A request is served in three moves, each atomic: it looks
for a result, builds one, and keeps what it built. Between two of them anything may happen to the
cache, so a request that found nothing may come to keep its result where another one already stands.

* `Client`: a request and how far it got. `Client.Moves`: its moves.
* `Shared.Step`, `Shared.Run`: what happens to a cache and its clients, in any order.
* `Cache.Grows`: every result that was kept is kept. `Step.grows`, `Run.grows`.
* `Client.Sound`: what a client knows of the cache. `Moves.sound`, `Step.sound`, `Run.sound`: it
  stays true, whatever the others do.
* `Run.settles`: what a client that comes to a kept result can still do.
* `Run.served_alone`: the moves of one client, uninterrupted, are `Cache.fetch`.
* `Run.served_safely`: whatever the order, each client gets a result for its own code object, and
  the kept one if that was made from it.
-/

namespace Stackwise

variable {ε α : Type} [MadeFrom α]

/-! ## 1. Clients -/

/-- How far a request got. -/
inductive Phase (ε α : Type) where
  /-- It has not looked yet. -/
  | asking
  /-- It builds: `missed` if there was nothing under the number, else there was a result for another
  code object. -/
  | building (missed : Bool)
  /-- It has built a result and is about to keep it. -/
  | holding (a : α)
  /-- It is served. -/
  | done (outcome : Except ε α)

/-- A request for a code object. -/
structure Client (ε α : Type) where
  /-- The number. -/
  id : FunctionId
  /-- The code object. -/
  code : CodeObject
  /-- How far it got. -/
  phase : Phase ε α

/-- A move of a client. -/
inductive Move (ε α : Type) where
  /-- It looks for a result. -/
  | look
  /-- It has built. -/
  | build (outcome : Except ε α)
  /-- It keeps what it built. -/
  | keep

namespace Client

/-- The client that looked for a result. One for another code object is left alone. -/
def looked (x : Client ε α) (c : Cache α) : Client ε α :=
  { x with
    phase := match c.get? x.id with
      | some a => if Cache.madeFrom a x.code then .done (.ok a) else .building false
      | none => .building true }

/-- The client that has built. Only one that found nothing is to keep its result. -/
def built (x : Client ε α) (missed : Bool) : Except ε α → Client ε α
  | .ok a => { x with phase := if missed then .holding a else .done (.ok a) }
  | .error e => { x with phase := .done (.error e) }

/-- The client that had its result kept unless there was one. It takes the one that is kept if that
was made from the same code object. -/
def kept (x : Client ε α) (c : Cache α) (a : α) : Client ε α :=
  { x with
    phase := .done (.ok (match (c.insert x.id a).get? x.id with
      | some b => if Cache.madeFrom b x.code then b else a
      | none => a)) }

/-- The moves of a client, and what they leave of it and of the cache. A build that succeeds gives a
result for the code object that was asked for. -/
inductive Moves (x : Client ε α) (c : Cache α) : Move ε α → Client ε α → Cache α → Prop where
  | look (hphase : x.phase = .asking) : Moves x c .look (x.looked c) c
  | build (missed : Bool) (outcome : Except ε α) (hphase : x.phase = .building missed)
      (hsource : ∀ a, outcome = .ok a → MadeFrom.source a = x.code) :
      Moves x c (.build outcome) (x.built missed outcome) c
  | keep (a : α) (hphase : x.phase = .holding a) :
      Moves x c .keep (x.kept c a) (c.insert x.id a)

end Client

/-! ## 2. Steps -/

/-- A cache and the requests on it, in the order in which they came. -/
structure Shared (ε α : Type) where
  /-- The cache. -/
  cache : Cache α
  /-- The clients. -/
  clients : List (Client ε α)

/-- What happens to a cache that is shared. What a build asks of the cache are requests of their
own, which come and are served while it builds. -/
inductive Event (ε α : Type) where
  /-- A request comes. -/
  | ask (id : FunctionId) (code : CodeObject)
  /-- A client moves. -/
  | move (i : Nat) (m : Move ε α)
  /-- A result is inserted by itself. -/
  | insert (id : FunctionId) (a : α)
  /-- The result under a number is read by itself. -/
  | get (id : FunctionId)

namespace Shared

/-- One step. -/
inductive Step : Shared ε α → Event ε α → Shared ε α → Prop where
  | ask (s : Shared ε α) (id : FunctionId) (code : CodeObject) :
      Step s (.ask id code) { s with clients := s.clients ++ [⟨id, code, .asking⟩] }
  | move (s : Shared ε α) (i : Nat) (x y : Client ε α) (m : Move ε α) (c : Cache α)
      (hx : s.clients[i]? = some x) (hmove : x.Moves s.cache m y c) :
      Step s (.move i m) ⟨c, s.clients.set i y⟩
  | insert (s : Shared ε α) (id : FunctionId) (a : α) :
      Step s (.insert id a) { s with cache := s.cache.insert id a }
  | get (s : Shared ε α) (id : FunctionId) : Step s (.get id) s

/-- Steps one after another, with what happened in them. -/
inductive Run (s : Shared ε α) : List (Event ε α) → Shared ε α → Prop where
  | start : Run s [] s
  | step {es : List (Event ε α)} {t u : Shared ε α} {e : Event ε α} (h : Run s es t)
      (hstep : Step t e u) : Run s (es ++ [e]) u

end Shared

/-! ## 3. Growth -/

namespace Cache

omit [MadeFrom α]

theorem get?_insert (c : Cache α) (id k : FunctionId) (a : α) :
    (c.insert id a).get? k = if id = k ∧ c.get? id = none then some a else c.get? k := by
  show (c.entries.insertIfNew id a)[k]? = _
  have hmem : ¬ id ∈ c.entries ↔ c.get? id = none := by
    rw [get?, Std.HashMap.mem_iff_isSome_getElem?, Option.not_isSome_iff_eq_none]
  rw [Std.HashMap.getElem?_insertIfNew]
  simp only [beq_iff_eq, hmem]
  rfl

theorem get?_insert_self (c : Cache α) (id : FunctionId) (a : α) :
    (c.insert id a).get? id = some ((c.get? id).getD a) := by
  rw [get?_insert]
  cases h : c.get? id with
  | none => rw [if_pos ⟨rfl, rfl⟩, Option.getD_none]
  | some b => rw [if_neg (fun hnone => Option.some_ne_none b hnone.2), Option.getD_some]

/-- Whatever is kept stays as it is. -/
def Grows (c c' : Cache α) : Prop := ∀ id a, c.get? id = some a → c'.get? id = some a

theorem Grows.refl (c : Cache α) : c.Grows c := fun _ _ h => h

theorem Grows.trans {c₁ c₂ c₃ : Cache α} (h : c₁.Grows c₂) (h' : c₂.Grows c₃) : c₁.Grows c₃ :=
  fun id a ha => h' id a (h id a ha)

theorem insert_grows (c : Cache α) (id : FunctionId) (a : α) : c.Grows (c.insert id a) := by
  intro k b hb
  rw [get?_insert, if_neg]
  · exact hb
  · rintro ⟨rfl, hnone⟩
    rw [hb] at hnone
    cases hnone

end Cache

theorem Cache.madeFrom_of_source {a : α} {code : CodeObject} (h : MadeFrom.source a = code) :
    Cache.madeFrom a code = true := by
  rw [madeFrom, h, CodeObject.agrees, beq_self_eq_true, Bool.true_or]

theorem Client.Moves.grows {x y : Client ε α} {m : Move ε α} {c c' : Cache α}
    (h : x.Moves c m y c') : c.Grows c' := by
  cases h with
  | look | build => exact .refl c
  | keep a => exact c.insert_grows x.id a

namespace Shared

variable {s t u : Shared ε α} {es fs : List (Event ε α)} {e : Event ε α}

theorem Step.grows (h : Step s e t) : s.cache.Grows t.cache := by
  cases h with
  | ask | get => exact .refl s.cache
  | move i x y m c hx hmove => exact hmove.grows
  | insert id a => exact s.cache.insert_grows id a

theorem Run.grows (h : Run s es t) : s.cache.Grows t.cache := by
  induction h with
  | start => exact .refl s.cache
  | step _ hstep ih => exact ih.trans hstep.grows

end Shared

/-! ## 4. What a client knows -/

/-- What a client that got so far knows of the cache. It builds without keeping only where a result
for another code object is kept; what it built is for its code object; and so is what it got, which
is what is kept, if that is for its code object too. -/
def Phase.Sound (id : FunctionId) (code : CodeObject) (c : Cache α) : Phase ε α → Prop
  | .asking | .building true | .done (.error _) => True
  | .building false => ∃ a, c.get? id = some a ∧ Cache.madeFrom a code = false
  | .holding a => Cache.madeFrom a code = true
  | .done (.ok r) => Cache.madeFrom r code = true
      ∧ ∃ a, c.get? id = some a ∧ (Cache.madeFrom a code = true → r = a)

theorem Phase.Sound.mono {id : FunctionId} {code : CodeObject} {c c' : Cache α} {p : Phase ε α}
    (h : p.Sound id code c) (hgrows : c.Grows c') : p.Sound id code c' := by
  cases p with
  | asking => trivial
  | building missed =>
    cases missed with
    | true => trivial
    | false =>
      obtain ⟨a, hget, hother⟩ := h
      exact ⟨a, hgrows id a hget, hother⟩
  | holding a => exact h
  | done outcome =>
    cases outcome with
    | error e => trivial
    | ok r =>
      obtain ⟨hfrom, a, hget, heq⟩ := h
      exact ⟨hfrom, a, hgrows id a hget, heq⟩

namespace Client

variable {x y : Client ε α} {m : Move ε α} {c c' : Cache α}

theorem looked_missed (hget : c.get? x.id = none) :
    x.looked c = { x with phase := .building true } := by
  rw [looked, hget]

theorem looked_other {a : α} (hget : c.get? x.id = some a)
    (hcode : Cache.madeFrom a x.code = false) :
    x.looked c = { x with phase := .building false } := by
  rw [looked, hget]
  dsimp only
  rw [if_neg (Bool.eq_false_iff.mp hcode)]

/-- A client that has not looked yet when a result for its code object is kept gets that result at
its first move. -/
theorem looked_kept {a : α}
    (hget : c.get? x.id = some a) (hcode : Cache.madeFrom a x.code = true) :
    x.looked c = { x with phase := .done (.ok a) } := by
  rw [looked, hget]
  dsimp only
  rw [if_pos hcode]

/-- What is kept after a client kept its result is that or what was there. -/
theorem kept_eq (x : Client ε α) (c : Cache α) (a : α) :
    x.kept c a = { x with
      phase := .done (.ok (if Cache.madeFrom ((c.get? x.id).getD a) x.code
        then (c.get? x.id).getD a else a)) } := by
  rw [kept, Cache.get?_insert_self]

/-- What a client knows of the cache. -/
def Sound (x : Client ε α) (c : Cache α) : Prop := x.phase.Sound x.id x.code c

theorem looked_sound (x : Client ε α) (c : Cache α) : (x.looked c).Sound c := by
  cases hget : c.get? x.id with
  | none =>
    rw [looked_missed hget]
    trivial
  | some a =>
    cases hfrom : Cache.madeFrom a x.code with
    | true =>
      rw [looked_kept hget hfrom]
      exact ⟨hfrom, a, hget, fun _ => rfl⟩
    | false =>
      rw [looked_other hget hfrom]
      exact ⟨a, hget, hfrom⟩

theorem built_sound {missed : Bool} {outcome : Except ε α} (hphase : x.phase = .building missed)
    (h : x.Sound c) (hsource : ∀ a, outcome = .ok a → MadeFrom.source a = x.code) :
    (x.built missed outcome).Sound c := by
  cases outcome with
  | error e => trivial
  | ok a =>
    have hfrom := Cache.madeFrom_of_source (hsource a rfl)
    cases missed with
    | true => exact hfrom
    | false =>
      -- The kept result is for another code object, and it stays that.
      rw [Sound, hphase] at h
      obtain ⟨b, hget, hother⟩ := h
      exact ⟨hfrom, b, hget, fun hb => absurd hb (Bool.eq_false_iff.mp hother)⟩

theorem kept_sound {a : α} (hphase : x.phase = .holding a) (h : x.Sound c) :
    (x.kept c a).Sound (c.insert x.id a) := by
  rw [Sound, hphase] at h
  have hfrom : Cache.madeFrom a x.code = true := h
  have hget := Cache.get?_insert_self c x.id a
  rw [kept_eq]
  cases hkept : Cache.madeFrom ((c.get? x.id).getD a) x.code with
  | true => exact ⟨hkept, _, hget, fun _ => rfl⟩
  | false =>
    exact ⟨hfrom, _, hget, fun hb => absurd hb (Bool.eq_false_iff.mp hkept)⟩

theorem Moves.sound (h : x.Moves c m y c') (hx : x.Sound c) : y.Sound c' := by
  cases h with
  | look => exact looked_sound x c
  | build missed outcome hphase hsource => exact built_sound hphase hx hsource
  | keep a hphase => exact kept_sound hphase hx

theorem Moves.id_code (h : x.Moves c m y c') : y.id = x.id ∧ y.code = x.code := by
  cases h with
  | look | keep => exact ⟨rfl, rfl⟩
  | build missed outcome => cases outcome <;> exact ⟨rfl, rfl⟩

/-- Only the first of the three moves is open to it. -/
theorem Moves.settled {a : α} (h : x.Moves c m y c') (hget : c.get? x.id = some a)
    (hcode : Cache.madeFrom a x.code = true) (hx : x.phase = .asking ∨ x.phase = .done (.ok a)) :
    y.phase = .done (.ok a) := by
  cases h with
  | look =>
    rw [looked_kept hget hcode]
  | build missed outcome hbuilding =>
    rw [hbuilding] at hx
    rcases hx with hx | hx <;> cases hx
  | keep b hholding =>
    rw [hholding] at hx
    rcases hx with hx | hx <;> cases hx

/-- A client fails by the failure of its own build, which leaves the cache alone. -/
theorem Moves.failed {e : ε} (h : x.Moves c m y c') (hy : y.phase = .done (.error e)) :
    m = .build (.error e) := by
  cases h with
  | look =>
    cases hget : c.get? x.id with
    | none =>
      rw [looked_missed hget] at hy
      cases hy
    | some a =>
      cases hfrom : Cache.madeFrom a x.code with
      | true =>
        rw [looked_kept hget hfrom] at hy
        cases hy
      | false =>
        rw [looked_other hget hfrom] at hy
        cases hy
  | build missed outcome =>
    cases outcome with
    | ok a => cases missed <;> cases hy
    | error f =>
      cases hy
      rfl
  | keep a => cases hy

end Client

namespace Shared

variable {s t u : Shared ε α} {es fs : List (Event ε α)} {e : Event ε α}

/-- What all clients know. -/
def Sound (s : Shared ε α) : Prop := ∀ x ∈ s.clients, x.Sound s.cache

/-- A step of one client leaves what the others know, since the cache only grows. -/
theorem Step.sound (h : Step s e t) (hs : s.Sound) : t.Sound := by
  have hold : ∀ x ∈ s.clients, x.Sound t.cache := fun x hx => (hs x hx).mono h.grows
  cases h with
  | ask id code =>
    intro x hx
    rcases List.mem_append.mp hx with hx | hx
    · exact hold x hx
    · rw [List.mem_singleton.mp hx]
      trivial
  | move i x y m c hx hmove =>
    intro z hz
    rcases List.mem_or_eq_of_mem_set hz with hz | rfl
    · exact hold z hz
    · exact hmove.sound (hs x (List.mem_of_getElem? hx))
  | insert | get => exact hold

theorem Run.sound (h : Run s es t) (hs : s.Sound) : t.Sound := by
  induction h with
  | start => exact hs
  | step _ hstep ih => exact hstep.sound ih

/-! ## 5. Coming to a kept result -/

/-- What becomes of a client in one step: it is new, it is left alone, or it moves. -/
theorem Step.client (h : Step s e t) {i : Nat} {y : Client ε α} (hy : t.clients[i]? = some y) :
    (s.clients[i]? = none ∧ y.phase = .asking) ∨ s.clients[i]? = some y
      ∨ ∃ x m, s.clients[i]? = some x ∧ e = .move i m ∧ x.Moves s.cache m y t.cache := by
  cases h with
  | ask id code =>
    dsimp only at hy
    rw [List.getElem?_append] at hy
    split at hy
    · exact .inr (.inl hy)
    · rename_i hlen
      refine .inl ⟨List.getElem?_eq_none (Nat.le_of_not_lt hlen), ?_⟩
      rw [List.mem_singleton.mp (List.mem_of_getElem? hy)]
  | move j x z m c hx hmove =>
    dsimp only at hy
    rw [List.getElem?_set] at hy
    split at hy
    · rename_i hij
      subst hij
      rw [if_pos (List.getElem?_eq_some_iff.mp hx).1] at hy
      cases hy
      exact .inr (.inr ⟨x, m, hx, rfl, hmove⟩)
    · exact .inr (.inl hy)
  | insert | get => exact .inr (.inl hy)

theorem Step.served_stays (h : Step s e t) {i : Nat} {x : Client ε α} {outcome : Except ε α}
    (hx : s.clients[i]? = some x) (hdone : x.phase = .done outcome) : t.clients[i]? = some x := by
  cases h with
  | ask id code =>
    dsimp only
    rw [List.getElem?_append_left (List.getElem?_eq_some_iff.mp hx).1]
    exact hx
  | move j z y m c hz hmove =>
    have hij : j ≠ i := by
      rintro rfl
      rw [hx] at hz
      cases hz
      cases hmove with
      | look hphase | build _ _ hphase | keep _ hphase =>
        rw [hdone] at hphase
        cases hphase
    dsimp only
    rw [List.getElem?_set_ne hij]
    exact hx
  | insert | get => exact hx

theorem Run.served_stays (h : Run s es t) {i : Nat} {x : Client ε α} {outcome : Except ε α}
    (hx : s.clients[i]? = some x) (hdone : x.phase = .done outcome) : t.clients[i]? = some x := by
  induction h with
  | start => exact hx
  | step _ hstep ih => exact hstep.served_stays ih hdone

/-- A client that had not looked yet, or came later, when a result for its code object was kept. -/
theorem Run.settles {id : FunctionId} {a : α} (h : Run s es t) (hget : s.cache.get? id = some a)
    {i : Nat} (hlate : ∀ y, s.clients[i]? = some y → y.phase = .asking) {x : Client ε α}
    (hx : t.clients[i]? = some x) (hid : x.id = id) (hcode : Cache.madeFrom a x.code = true) :
    x.phase = .asking ∨ x.phase = .done (.ok a) := by
  induction h generalizing x with
  | start => exact .inl (hlate x hx)
  | step hrun hstep ih =>
    rcases hstep.client hx with ⟨-, hasking⟩ | hsame | ⟨y, m, hy, -, hmove⟩
    · exact .inl hasking
    · exact ih hsame hid hcode
    · obtain ⟨hyid, hycode⟩ := hmove.id_code
      rw [hyid] at hid
      rw [hycode] at hcode
      have hkept := hrun.grows id a hget
      rw [← hid] at hkept
      exact .inr (hmove.settled hkept hcode (ih hy hid hcode))

/-- A client fails by its own build alone. -/
theorem Run.failed {i : Nat} {x : Client ε α} {err : ε} (hstart : s.clients = [])
    (h : Run s es t) (hx : t.clients[i]? = some x) (hfailed : x.phase = .done (.error err)) :
    .move i (.build (.error err)) ∈ es := by
  induction h generalizing x with
  | start =>
    rw [hstart] at hx
    cases hx
  | step _ hstep ih =>
    rcases hstep.client hx with ⟨-, hasking⟩ | hsame | ⟨y, m, -, rfl, hmove⟩
    · rw [hasking] at hfailed
      cases hfailed
    · exact List.mem_append_left _ (ih hsame hfailed)
    · rw [hmove.failed hfailed]
      exact List.mem_append_right _ (List.mem_singleton.mpr rfl)

/-! ## 6. One client alone -/

theorem Run.moved {i : Nat} {x y : Client ε α} {m : Move ε α} {c : Cache α} (h : Run s es t)
    (hx : t.clients[i]? = some x) (hmove : x.Moves t.cache m y c) :
    ∃ u, Run s (es ++ [.move i m]) u ∧ u.clients[i]? = some y ∧ u.cache = c := by
  refine ⟨_, .step h (.move t i x y m c hx hmove), ?_, rfl⟩
  dsimp only
  rw [List.getElem?_set_self (List.getElem?_eq_some_iff.mp hx).1]

/-- **The moves of one client, uninterrupted, are a fetch**: they leave the cache that it leaves,
and the client with what it gives. -/
theorem Run.served_alone {i : Nat} {x : Client ε α} (hx : s.clients[i]? = some x)
    (hphase : x.phase = .asking) (build : Unit → Except ε α)
    (hsource : ∀ a, build () = .ok a → MadeFrom.source a = x.code) :
    ∃ (ms : List (Move ε α)) (t : Shared ε α) (y : Client ε α),
      Run s (ms.map (.move i)) t ∧ t.clients[i]? = some y ∧
        match s.cache.fetch x.id x.code build with
        | .ok (fetched, cache) => y.phase = .done (.ok fetched.result) ∧ t.cache = cache
        | .error e => y.phase = .done (.error e) ∧ t.cache = s.cache := by
  obtain ⟨t, hrun, hy, hcache⟩ := Run.start.moved hx (.look hphase)
  cases hget : s.cache.get? x.id with
  | some a =>
    cases hfrom : Cache.madeFrom a x.code with
    | true =>
      rw [Client.looked_kept hget hfrom] at hy
      refine ⟨[.look], t, _, hrun, hy, ?_⟩
      rw [Cache.fetch, hget]
      dsimp only
      rw [if_pos hfrom]
      exact ⟨rfl, hcache⟩
    | false =>
      rw [Client.looked_other hget hfrom] at hy
      obtain ⟨u, hrun', hz, hcache'⟩ := hrun.moved hy (.build false (build ()) rfl hsource)
      refine ⟨[.look, .build (build ())], u, _, hrun', hz, ?_⟩
      rw [Cache.fetch, hget]
      dsimp only
      rw [if_neg (Bool.eq_false_iff.mp hfrom)]
      cases build () with
      | ok a => exact ⟨rfl, hcache'.trans hcache⟩
      | error e => exact ⟨rfl, hcache'.trans hcache⟩
  | none =>
    rw [Client.looked_missed hget] at hy
    obtain ⟨u, hrun', hz, hcache'⟩ := hrun.moved hy (.build true (build ()) rfl hsource)
    cases hbuild : build () with
    | error e =>
      rw [hbuild] at hrun' hz
      refine ⟨[.look, .build (.error e)], u, _, hrun', hz, ?_⟩
      rw [Cache.fetch, hget, hbuild]
      exact ⟨rfl, hcache'.trans hcache⟩
    | ok a =>
      rw [hbuild] at hrun' hz
      obtain ⟨v, hrun'', hw, hcache''⟩ := hrun'.moved hz (.keep a rfl)
      refine ⟨[.look, .build (.ok a), .keep], v, _, hrun'', hw, ?_⟩
      have hu : u.cache = s.cache := hcache'.trans hcache
      rw [Cache.fetch, hget, hbuild]
      rw [hu] at hcache'' ⊢
      rw [Client.kept_eq]
      refine ⟨?_, hcache''⟩
      show Phase.done (.ok (if Cache.madeFrom ((s.cache.get? x.id).getD a) x.code
        then (s.cache.get? x.id).getD a else a)) = .done (.ok a)
      rw [hget, Option.getD_none, ite_self]

/-! ## 7. All clients -/

/-- **A cache may be shared in any order of moves.** Every result that a client gets was made from
the code object that it asked for. A result that is kept under a number is kept for good. A client
that asks under that number for the code object that the result was made from gets no other result,
and one that had not looked yet when the result was kept gets it at its first move. A build that
fails leaves the cache alone; the client that built gives just that failure, and there is no other
way for it to fail. -/
theorem Run.served_safely (hstart : s.clients = []) (h : Run s es t) :
    (∀ (i : Nat) (x : Client ε α) (r : α), t.clients[i]? = some x → x.phase = .done (.ok r) →
        Cache.madeFrom r x.code = true)
      ∧ (∀ (id : FunctionId) (a : α), t.cache.get? id = some a → ∀ fs u, Run t fs u →
          u.cache.get? id = some a
            ∧ ∀ (i : Nat) (x : Client ε α), u.clients[i]? = some x → x.id = id →
              Cache.madeFrom a x.code = true →
                (∀ r, x.phase = .done (.ok r) → r = a)
                  ∧ ((∀ y, t.clients[i]? = some y → y.phase = .asking) →
                    x.phase = .done (.ok a) ∨ x.phase = .asking
                      ∧ x.Moves u.cache .look { x with phase := .done (.ok a) } u.cache))
      ∧ (∀ (i : Nat) (err : ε) (u : Shared ε α), Step t (.move i (.build (.error err))) u →
          u.cache = t.cache ∧ ∃ x, u.clients[i]? = some x ∧ x.phase = .done (.error err)
            ∧ ∀ fs v, Run u fs v → v.clients[i]? = some x)
      ∧ (∀ (i : Nat) (x : Client ε α) (err : ε), t.clients[i]? = some x →
          x.phase = .done (.error err) → .move i (.build (.error err)) ∈ es) := by
  have hsound : t.Sound := by
    refine h.sound fun x hx => ?_
    rw [hstart] at hx
    cases hx
  refine ⟨fun i x r hx hdone => ?_,
    fun id a hget fs u hu => ⟨hu.grows id a hget,
      fun i x hx hid hcode => ⟨fun r hdone => ?_, fun hlate => ?_⟩⟩,
    fun i err u hstep => ?_,
    fun i x err hx hfailed => h.failed hstart hx hfailed⟩
  · have hx := hsound x (List.mem_of_getElem? hx)
    rw [Client.Sound, hdone] at hx
    exact hx.1
  · have hx := hu.sound hsound x (List.mem_of_getElem? hx)
    rw [Client.Sound, hdone] at hx
    obtain ⟨-, b, hkept, heq⟩ := hx
    rw [hid, hu.grows id a hget] at hkept
    cases hkept
    exact heq hcode
  · rcases hu.settles hget hlate hx hid hcode with hasking | hdone
    · refine .inr ⟨hasking, ?_⟩
      rw [← Client.looked_kept (hid ▸ hu.grows id a hget) hcode]
      exact .look hasking
    · exact .inl hdone
  · cases hstep with
    | move _ x y _ c hx hmove =>
      cases hmove with
      | build missed _ hphase =>
        have hset : (t.clients.set i (x.built missed (.error err)))[i]?
            = some (x.built missed (.error err)) :=
          List.getElem?_set_self (List.getElem?_eq_some_iff.mp hx).1
        exact ⟨rfl, _, hset, rfl, fun fs v hv => hv.served_stays hset rfl⟩

/-- A code object that differs from those of other numbers. -/
def codeNumbered (serial : Nat) : CodeObject :=
  { CodeObject.blank serial "f" "f.py" with firstLine := serial }

/-- A body of a code object. -/
def bodyNumbered (serial : Nat) : CompiledBody :=
  { (default : CompiledBody) with code := codeNumbered serial }

/-- While one request builds, a result for another code object comes under its number. A request for
that code object is made afterwards. -/
def crossing : List (Event CompileError CompiledBody) :=
  [.ask ⟨7⟩ (codeNumbered 0), .move 0 .look, .insert ⟨7⟩ (bodyNumbered 1),
    .move 0 (.build (.ok (bodyNumbered 0))), .move 0 .keep, .ask ⟨7⟩ (codeNumbered 1)]

/-- The cache and the clients that this leaves: the first request got its own result. -/
def crossed : Shared CompileError CompiledBody where
  cache := (Cache.empty.insert ⟨7⟩ (bodyNumbered 1)).insert ⟨7⟩ (bodyNumbered 0)
  clients := [⟨⟨7⟩, codeNumbered 0, .done (.ok (bodyNumbered 0))⟩, ⟨⟨7⟩, codeNumbered 1, .asking⟩]

theorem crossed_get : crossed.cache.get? ⟨7⟩ = some (bodyNumbered 1) := by
  have hempty : (Cache.empty : Cache CompiledBody).get? ⟨7⟩ = none := Std.HashMap.getElem?_empty
  rw [crossed, Cache.get?_insert_self, Cache.get?_insert_self, hempty]
  rfl

theorem run_crossing : Run ⟨.empty, []⟩ crossing crossed := by
  let client (p : Phase CompileError CompiledBody) : Client CompileError CompiledBody :=
    ⟨⟨7⟩, codeNumbered 0, p⟩
  let c := Cache.empty.insert ⟨7⟩ (bodyNumbered 1)
  have hempty : (Cache.empty : Cache CompiledBody).get? ⟨7⟩ = none := Std.HashMap.getElem?_empty
  have hlook : (client .asking).Moves .empty .look (client (.building true)) .empty := by
    have h := Client.Moves.look (x := client .asking) (c := .empty) rfl
    rwa [Client.looked_missed hempty] at h
  have hbuild : (client (.building true)).Moves c (.build (.ok (bodyNumbered 0)))
      (client (.holding (bodyNumbered 0))) c :=
    .build true (.ok (bodyNumbered 0)) rfl fun a ha => by cases ha; rfl
  have hkeep : (client (.holding (bodyNumbered 0))).Moves c .keep
      (client (.done (.ok (bodyNumbered 0)))) crossed.cache := by
    have h := Client.Moves.keep (x := client (.holding (bodyNumbered 0))) (c := c) _ rfl
    have hget : c.get? ⟨7⟩ = some (bodyNumbered 1) := by
      rw [Cache.get?_insert_self, hempty]
      rfl
    have hother : Cache.madeFrom (bodyNumbered 1) (codeNumbered 0) = false := by decide
    rwa [Client.kept_eq, hget, Option.getD_some, if_neg (Bool.eq_false_iff.mp hother)] at h
  have hmissed := ((Run.start (s := ⟨.empty, []⟩)).step (.ask _ ⟨7⟩ (codeNumbered 0))).step
    (.move _ 0 _ _ _ _ rfl hlook)
  have hheld := (hmissed.step (.insert _ ⟨7⟩ (bodyNumbered 1))).step (.move _ 0 _ _ _ _ rfl hbuild)
  have hserved := hheld.step (.move _ 0 _ _ _ _ rfl hkeep)
  have hasked := hserved.step (.ask _ ⟨7⟩ (codeNumbered 1))
  exact hasked

/-- The second request gets the result that was made for it. -/
theorem served_safely_crossing : Run ⟨.empty, []⟩ crossing crossed
    ∧ crossed.cache.get? ⟨7⟩ = some (bodyNumbered 1)
    ∧ ∀ fs u, Run crossed fs u → ∀ x, u.clients[1]? = some x → x.id = ⟨7⟩ →
      Cache.madeFrom (bodyNumbered 1) x.code = true →
        x.phase = .done (.ok (bodyNumbered 1)) ∨ x.phase = .asking := by
  refine ⟨run_crossing, crossed_get, fun fs u hu x hx hid hcode => ?_⟩
  obtain ⟨-, hkept, -⟩ := Run.served_safely rfl run_crossing
  obtain ⟨-, hlate⟩ := hkept _ _ crossed_get fs u hu
  rcases (hlate 1 x hx hid hcode).2 (fun y hy => by cases hy; rfl) with hdone | ⟨hasking, -⟩
  · exact .inl hdone
  · exact .inr hasking

end Shared

end Stackwise
