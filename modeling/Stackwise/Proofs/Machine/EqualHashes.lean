import Stackwise.Proofs.Machine.KeyLists
import Stackwise.Proofs.Machine.Stepping

/-!
# Hashes of equal values

Equality follows the content of numbers, texts, byte strings and tuples, and the identity of most
other values. The hash does the same, but for bound methods: two of them are equal if they have one
name and one receiver, and the hash is that of the object that looking the method up has made.

* `Value.hashWith`: the hash as a function of the value, and `hash_of_exact`: it is what the machine
  answers where no object of the host decides.
* `Value.hashWith_of_placed`, `Value.keyEqual_of_placed`: what is compared and hashed by its place.
* `Value.sameMethods`: no bound method of one value is another object than that of the other.
* `hash_eq_of_equal`: equal values have equal hashes, but for bound methods.
* `equal_methods_hash_apart`: one method that is looked up twice.
-/

namespace Stackwise

/-! ## 1. Hashes without the store -/

/-- Whether the values with this place are hashed by what they contain. -/
def Place.ofContent : Place → Bool
  | .bool _ | .int _ | .float _ | .str _ | .bytes _ | .tuple _ => true
  | _ => false

namespace Value

mutual

/-- Whether a value is neither a float nor an object of the host, and contains none in a tuple. -/
def isExact : Value → Bool
  | .float _ | .native _ _ => false
  | .tuple _ items => allExact items
  | _ => true

/-- Whether no value is or contains a float or an object of the host. -/
def allExact : List Value → Bool
  | [] => true
  | v :: vs => v.isExact && allExact vs

end

mutual

/-- The hash of a value that is no object of the host. -/
def hashWith (d : Digest) : Value → Int64
  | .bool b => if b then 1 else 0
  | .int n => n
  | .float x => Machine.hashFloat d x
  | .str _ t => d.text t
  | .bytes _ b => d.bytes b
  | .tuple _ items => d.sequence (hashesWith d items)
  | v => d.place v.place

/-- The hashes of values. -/
def hashesWith (d : Digest) : List Value → List Int64
  | [] => []
  | v :: vs => v.hashWith d :: hashesWith d vs

end

mutual

/-- Whether bound methods at the same position of two values are one object. -/
def sameMethods : Value → Value → Bool
  | .method id _ _ _, .method id' _ _ _ => id == id'
  | .tuple _ items, .tuple _ others => allSameMethods items others
  | _, _ => true

/-- Whether this is so for the values of two sequences, position by position. -/
def allSameMethods : List Value → List Value → Bool
  | v :: vs, w :: ws => v.sameMethods w && allSameMethods vs ws
  | _, _ => true

end

variable {a b : Value}

/-- What is not hashed by its content is hashed by its place. -/
theorem hashWith_of_placed (d : Digest) (h : a.place.ofContent = false) :
    a.hashWith d = d.place a.place := by
  cases a with
  | bool _ | int _ | float _ | str _ _ | bytes _ _ | tuple _ _ => cases h
  | _ => rfl

theorem equalNumbers?_of_placed (h : a.place.ofContent = false) :
    a.equalNumbers? b = Option.none := by
  cases a with
  | bool _ | int _ | float _ | str _ _ | bytes _ _ | tuple _ _ => cases h
  | _ => rfl

/-- What is compared by number or by identity, and is no number. -/
theorem place_eq_of_keyEqual (hnumber : a.equalNumbers? b = Option.none)
    (h : a.keyEqual b = (a.equalNumbers? b).getD (a.same b)) (heq : a.keyEqual b = true) :
    a.place = b.place := by
  rw [h, hnumber] at heq
  exact eq_of_beq heq

/-- What is hashed by its place is compared by its place, but for bound methods. -/
theorem keyEqual_of_placed (hkey : a.isHashable = true) (h : a.place.ofContent = false)
    (heq : a.keyEqual b = true) (hmethods : a.sameMethods b = true) : a.place = b.place := by
  have hnumber : a.equalNumbers? b = Option.none := equalNumbers?_of_placed h
  cases a with
  | bool _ | int _ | float _ | str _ _ | bytes _ _ | tuple _ _ => cases h
  | list _ | dict _ | set _ | slice _ _ _ _ => cases hkey
  | method id _ _ _ =>
    cases b with
    | method _ _ _ _ => exact congrArg Place.method (eq_of_beq hmethods)
    | _ => exact place_eq_of_keyEqual hnumber rfl heq
  | _ => cases b <;> exact place_eq_of_keyEqual hnumber rfl heq

mutual

/-- Equal keys have equal hashes, but for bound methods. -/
theorem hashWith_of_keyEqual (d : Digest) : ∀ a b : Value, a.isHashable = true →
    a.isExact = true → b.isExact = true → a.keyEqual b = true → a.sameMethods b = true →
    a.hashWith d = b.hashWith d
  | .tuple i items, b, hkey, ha, hb, heq, hmethods => by
    cases b with
    | tuple _ others =>
      exact congrArg d.sequence (hashesWith_of_equalItems d items others hkey ha hb heq hmethods)
    | _ => cases place_eq_of_keyEqual (a := .tuple i items) rfl rfl heq
  | .str i s, b, _, _, _, heq, _ => by
    cases b with
    | str _ t => exact congrArg d.text (eq_of_beq heq)
    | _ => cases place_eq_of_keyEqual (a := .str i s) rfl rfl heq
  | .bytes i s, b, _, _, _, heq, _ => by
    cases b with
    | bytes _ t => exact congrArg d.bytes (eq_of_beq heq)
    | _ => cases place_eq_of_keyEqual (a := .bytes i s) rfl rfl heq
  | .bool x, b, _, _, hb, heq, _ => by
    cases b with
    | bool _ | int _ => exact eq_of_beq heq
    | float _ => cases hb
    | _ => cases place_eq_of_keyEqual (a := .bool x) rfl rfl heq
  | .int x, b, _, _, hb, heq, _ => by
    cases b with
    | bool _ | int _ => exact eq_of_beq heq
    | float _ => cases hb
    | _ => cases place_eq_of_keyEqual (a := .int x) rfl rfl heq
  | .float _, _, _, h, _, _, _ | .native _ _, _, _, h, _, _, _ => by cases h
  | .none, b, hkey, _, _, heq, hm | .ellipsis, b, hkey, _, _, heq, hm
  | .range _, b, hkey, _, _, heq, hm | .iter _, b, hkey, _, _, heq, hm
  | .classObject _, b, hkey, _, _, heq, hm | .exception _ _, b, hkey, _, _, heq, hm
  | .traceback _ _, b, hkey, _, _, heq, hm | .function _, b, hkey, _, _, heq, hm
  | .method _ _ _ _, b, hkey, _, _, heq, hm | .builtin _ _, b, hkey, _, _, heq, hm
  | .generator _, b, hkey, _, _, heq, hm | .cell _, b, hkey, _, _, heq, hm
  | .code _, b, hkey, _, _, heq, hm | .list _, b, hkey, _, _, heq, hm
  | .dict _, b, hkey, _, _, heq, hm | .set _, b, hkey, _, _, heq, hm
  | .slice _ _ _ _, b, hkey, _, _, heq, hm => by
    have hplace := keyEqual_of_placed hkey rfl heq hm
    rw [hashWith_of_placed d rfl, hashWith_of_placed d (hplace ▸ rfl), hplace]

theorem hashesWith_of_equalItems (d : Digest) : ∀ as bs : List Value, allHashable as = true →
    allExact as = true → allExact bs = true → equalItems (fun _ _ => false) as bs = true →
    allSameMethods as bs = true → hashesWith d as = hashesWith d bs
  | [], [], _, _, _, _, _ => rfl
  | [], _ :: _, _, _, _, heq, _ => by cases heq
  | _ :: _, [], _, _, _, heq, _ => by cases heq
  | a :: as, b :: bs, hkey, ha, hb, heq, hmethods => by
    rw [allHashable, Bool.and_eq_true] at hkey
    rw [allExact, Bool.and_eq_true] at ha hb
    rw [equalItems, Bool.and_eq_true] at heq
    rw [allSameMethods, Bool.and_eq_true] at hmethods
    rw [hashesWith, hashesWith,
      hashWith_of_keyEqual d a b hkey.1 ha.1 hb.1 heq.1 hmethods.1,
      hashesWith_of_equalItems d as bs hkey.2 ha.2 hb.2 heq.2 hmethods.2]

end

end Value

/-! ## 2. Hashes of the machine -/

namespace Machine

variable {v a b : Value} {ctx : Context} {s : Store}

mutual

/-- No object of the host is asked. -/
theorem hashKey_of_exact (ctx : Context) (s : Store) : ∀ v : Value, v.isExact = true →
    hashKey v ctx s = .ok (v.hashWith ctx.digest) s
  | .tuple i items, h => by
    rw [hashKey, run_bind]
    show (hashKeys items >>= fun ns => (pure (ctx.digest.sequence ns) : Action Int64)) ctx s = _
    rw [run_bind, hashKeys_of_exact ctx s items h]
    rfl
  | .float _, h | .native _ _, h => by cases h
  | .bool _, _ | .int _, _ | .str _ _, _ | .bytes _ _, _ | .none, _ | .ellipsis, _ | .range _, _
  | .iter _, _ | .classObject _, _ | .exception _ _, _ | .traceback _ _, _ | .function _, _
  | .method _ _ _ _, _ | .builtin _ _, _ | .generator _, _ | .cell _, _ | .code _, _ | .list _, _
  | .dict _, _ | .set _, _ | .slice _ _ _ _, _ => rfl

theorem hashKeys_of_exact (ctx : Context) (s : Store) : ∀ vs : List Value,
    Value.allExact vs = true → hashKeys vs ctx s = .ok (Value.hashesWith ctx.digest vs) s
  | [], _ => rfl
  | v :: vs, h => by
    rw [Value.allExact, Bool.and_eq_true] at h
    rw [hashKeys, run_bind, hashKey_of_exact ctx s v h.1]
    show (hashKeys vs >>= _) ctx s = _
    rw [run_bind, hashKeys_of_exact ctx s vs h.2]
    rfl

end

theorem hash_of_exact (ctx : Context) (s : Store) (hkey : v.isHashable = true)
    (h : v.isExact = true) : hash v ctx s = .ok (v.hashWith ctx.digest) s := by
  rw [hash, checkHashable, hkey]
  exact hashKey_of_exact ctx s v h

/-- **Equal values hash equal:** whatever numbers texts, byte strings, sequences and places have, two
values that can be keys, contain no float and no object of the host, and are equal have one hash,
unless they contain two objects for one bound method. -/
theorem hash_eq_of_equal (ctx : Context) (s : Store) (hkey : a.isHashable = true)
    (hkey' : b.isHashable = true) (ha : a.isExact = true) (hb : b.isExact = true)
    (heq : s.equal a b = true) (hmethods : a.sameMethods b = true) :
    ∃ n, hash a ctx s = .ok n s ∧ hash b ctx s = .ok n s := by
  rw [s.equal_of_hashable hkey] at heq
  refine ⟨a.hashWith ctx.digest, hash_of_exact ctx s hkey ha, ?_⟩
  rw [hash_of_exact ctx s hkey' hb]
  exact congrArg (EStateM.Result.ok · s)
    (Value.hashWith_of_keyEqual ctx.digest a b hkey ha hb heq hmethods).symm

/-- A pair of a truth value and a text inside a pair, and one with an integer and another object for
the text; beside them stands one bound method. -/
theorem hash_eq_of_equal_nested :
    let method := Value.method (.made 5) (.list 0) default "append"
    let a := Value.tuple (.made 1) [.tuple (.made 2) [.bool true, .str (.made 3) "x"], method]
    let b := Value.tuple (.made 6) [.tuple (.made 7) [.int 1, .str (.made 8) "x"], method]
    Store.equal {} a b = true
      ∧ ∃ n, hash a (plainContext 0) {} = .ok n {} ∧ hash b (plainContext 0) {} = .ok n {} :=
  ⟨by decide, hash_eq_of_equal _ _ (by decide) (by decide) (by decide) (by decide) (by decide)
    (by decide)⟩

/-- Numbers for contents and places that tell the objects of the machine apart. -/
def tellingApart : Digest where
  text _ := 0
  bytes _ := 0
  float _ := 0
  sequence _ := 0
  place
    | .method (.made n) => .ofNat n
    | _ => 0

/-- **One method, looked up twice, has two hashes:** the two objects are equal, but each is hashed
by its own place. -/
theorem equal_methods_hash_apart :
    let a := Value.method (.made 1) (.int 5) default "bit_length"
    let b := Value.method (.made 2) (.int 5) default "bit_length"
    let ctx := { plainContext 0 with digest := tellingApart }
    a.isHashable = true ∧ b.isHashable = true ∧ a.isExact = true ∧ b.isExact = true
      ∧ Store.equal {} a b = true
      ∧ hash a ctx {} = .ok 1 {} ∧ hash b ctx {} = .ok 2 {} :=
  ⟨rfl, rfl, rfl, rfl, by decide, rfl, rfl⟩

end Machine

end Stackwise
