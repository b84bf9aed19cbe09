import Stackwise.Proofs.Compile.Content
import Stackwise.Proofs.Compile.Programs
import Stackwise.Proofs.Compile.SharedCache
import Stackwise.Types.Builtins

/-!
# Answers from the cache

A compiler that keeps its results answers one request after the other. Whatever the numbers of
functions are, and however they collide, an answer is the compiled body of a request for the same
code object: the request itself or an earlier one under the same number.

* `Compiler.answers`: the answers to requests, from an empty cache on.
* `Compiler.Keeps`: every result that is kept answers an earlier request. `Compiler.body_answered`: one
  request keeps this, and says where its answer comes from.
* `Compiler.answers_transparent`: an answer is what compiling the request gives, unless an earlier
  request under the same number asked for the same code object under another signature, or for one
  that is equal to it only as zeros of different sign are.
* `Compiler.answers_collide`: both happen to the numbers of functions.
-/

namespace Stackwise

/-- What a compiler is asked for. -/
structure Request where
  /-- The code object. -/
  code : CodeObject
  /-- The types to compile it for. -/
  signature : CallSignature

namespace Compiler

variable (c : Compiler)

/-! ## 1. Requests -/

/-- The number of a request. -/
def numberOf (r : Request) : FunctionId := c.number r.code r.signature

/-- What compiling a request gives. -/
def compiled (r : Request) : Except CompileError CompiledBody := c.analyze r.code r.signature

/-- The answers to requests that come one after the other. -/
def answers : Cache CompiledBody → List Request → List (Except CompileError CompiledBody)
  | _, [] => []
  | cache, r :: rs =>
    match c.body cache r.code r.signature with
    | .ok (found, cache) => .ok found.result :: answers cache rs
    | .error e => .error e :: answers cache rs

/-- An earlier request under the same number, for what the cache takes for the same code object. -/
structure Meets (q r : Request) : Prop where
  number : c.numberOf q = c.numberOf r
  code : q.code.agrees r.code = true

/-! ## 2. One request -/

/-- Every result that is kept answers one of the requests so far. -/
def Keeps (past : List Request) (cache : Cache CompiledBody) : Prop :=
  ∀ id b, cache.get? id = some b → ∃ q ∈ past, c.numberOf q = id ∧ c.compiled q = .ok b

/-- Where the answer to a request comes from. -/
def Answered (past : List Request) (r : Request) (a : Except CompileError CompiledBody) : Prop :=
  a = c.compiled r ∨ ∃ q ∈ past, c.Meets q r ∧ ∃ b, c.compiled q = .ok b ∧ a = .ok b

variable {c} {past : List Request} {cache : Cache CompiledBody}

theorem Keeps.snoc (h : c.Keeps past cache) (r : Request) : c.Keeps (past ++ [r]) cache := by
  intro id b hb
  obtain ⟨q, hq, hanswer⟩ := h id b hb
  exact ⟨q, List.mem_append_left _ hq, hanswer⟩

theorem Keeps.insert (h : c.Keeps past cache) {r : Request} {b : CompiledBody}
    (hb : c.compiled r = .ok b) : c.Keeps (past ++ [r]) (cache.insert (c.numberOf r) b) := by
  intro id b' hb'
  rw [Cache.get?_insert] at hb'
  split at hb'
  · rename_i hid
    cases hb'
    exact ⟨r, List.mem_append_right _ (List.mem_singleton.mpr rfl), hid.1, hb⟩
  · exact h.snoc r id b' hb'

theorem code_of_compiled {q : Request} {b : CompiledBody} (h : c.compiled q = .ok b) :
    b.code = q.code :=
  (CompiledBody.analyze_accepted h).1

/-- **One request.** It is answered by what compiling it gives, or by what is kept for an earlier
request that it meets. -/
theorem body_answered (h : c.Keeps past cache) (r : Request) :
    match c.body cache r.code r.signature with
    | .ok (found, cache') => c.Answered past r (.ok found.result) ∧ c.Keeps (past ++ [r]) cache'
    | .error e => c.Answered past r (.error e) := by
  show match cache.fetch (c.numberOf r) r.code fun _ => c.compiled r with
    | .ok (found, cache') => c.Answered past r (.ok found.result) ∧ c.Keeps (past ++ [r]) cache'
    | .error e => c.Answered past r (.error e)
  unfold Cache.fetch
  cases hget : cache.get? (c.numberOf r) with
  | none =>
    cases hr : c.compiled r with
    | ok b => exact ⟨.inl hr.symm, h.insert hr⟩
    | error e => exact .inl hr.symm
  | some b =>
    dsimp only
    cases hmade : Cache.madeFrom b r.code with
    | true =>
      obtain ⟨q, hq, hnumber, hcompiled⟩ := h _ b hget
      have hmeets : c.Meets q r := ⟨hnumber, code_of_compiled hcompiled ▸ hmade⟩
      exact ⟨.inr ⟨q, hq, hmeets, b, hcompiled, rfl⟩, h.snoc r⟩
    | false =>
      cases hr : c.compiled r with
      | ok b => exact ⟨.inl hr.symm, h.snoc r⟩
      | error e => exact .inl hr.symm

/-! ## 3. All requests -/

theorem getElem?_answers (h : c.Keeps past cache) {rs : List Request} {i : Nat} {r : Request}
    (hr : rs[i]? = some r) :
    ∃ a, (c.answers cache rs)[i]? = some a ∧ c.Answered (past ++ rs.take i) r a := by
  induction rs generalizing past cache i with
  | nil => cases hr
  | cons s rs ih =>
    have hstep := body_answered h s
    rw [answers]
    cases hbody : c.body cache s.code s.signature with
    | ok found =>
      rw [hbody] at hstep
      cases i with
      | zero =>
        cases hr
        exact ⟨_, rfl, by simpa using hstep.1⟩
      | succ i => simpa using ih hstep.2 hr
    | error e =>
      rw [hbody] at hstep
      cases i with
      | zero =>
        cases hr
        exact ⟨_, rfl, by simpa using hstep⟩
      | succ i => simpa using ih (h.snoc s) hr

/-- **The cache is invisible, up to collisions for one code object.** Let functions have any numbers,
and let requests come in any order. Each is answered. The answer is what compiling a request gives
that is the same, or an earlier one for the same code object under the same number; a fault is the
fault of the request itself. So if no earlier request under the same number asks for the same code
object under another signature, or for one of another content, the answer is the compiled body for
just this code object and this signature, or the same fault. -/
theorem answers_transparent (c : Compiler) (rs : List Request) (i : Nat) (r : Request)
    (hr : rs[i]? = some r) : ∃ a, (c.answers .empty rs)[i]? = some a
      ∧ (∃ q, (q = r ∨ q ∈ rs.take i ∧ c.Meets q r) ∧ a = c.compiled q)
      ∧ (∀ e, a = .error e → c.compiled r = .error e)
      ∧ ((∀ q ∈ rs.take i, c.Meets q r →
          q.signature = r.signature ∧ q.code.content = r.code.content) →
        a.map CompiledBody.content = (c.compiled r).map CompiledBody.content) := by
  have hempty : c.Keeps [] .empty := by
    intro id b hb
    rw [show (Cache.empty : Cache CompiledBody).get? id = none from Std.HashMap.getElem?_empty] at hb
    cases hb
  obtain ⟨a, ha, hanswered⟩ := getElem?_answers hempty hr
  refine ⟨a, ha, ?_⟩
  rcases hanswered with rfl | ⟨q, hq, hmeets, b, hcompiled, rfl⟩
  · exact ⟨⟨r, .inl rfl, rfl⟩, fun e he => he, fun _ => rfl⟩
  · refine ⟨⟨q, .inr ⟨hq, hmeets⟩, hcompiled.symm⟩, fun e he => (by cases he), fun hclear => ?_⟩
    obtain ⟨hsignature, hcontent⟩ := hclear q hq hmeets
    rw [← hcompiled]
    unfold compiled analyze
    rw [hsignature]
    exact CompiledBody.analyze_congr c.model c.config r.signature hcontent

/-- The function `def f(p0, …, p14): return p1`. -/
def second : CodeObject :=
  { CodeObject.blank 1 "f" "f.py" with
    code := [124, 1, 83, 0]
    varnames := ["p0", "p1", "p2", "p3", "p4", "p5", "p6", "p7", "p8", "p9", "p10", "p11", "p12",
      "p13", "p14"]
    argCount := 15 }

/-- The function with an integer as its second parameter. -/
def ofInteger : Request where
  code := second
  signature := {
    params := [.str, .int, .object, .object, .object, .none, .tuple, .object, .object, .object,
      .object, .object, .object, .object, .dict]
    returns := .int }

/-- The function with anything as its second parameter, under the same number. -/
def ofAnything : Request where
  code := second
  signature := {
    params := [.object, .object, .tuple, .object, .bool, .object, .object, .none, .bool, .float,
      .bytes, .dict, .tuple, .float, .object]
    returns := .int }

/-- A function that returns the first of two equal floats. -/
def constantly (serial : Nat) (x : Double) : Request where
  code := { CodeObject.blank serial "f" "f.py" with
    code := [100, 0, 83, 0]
    constants := [.float x, .float x] }
  signature := .dynamic

/-- The compiler that gives all functions one number. -/
def numberless : Compiler :=
  { model := TypeModel.withBuiltins, config := {}, number := fun _ _ => ⟨7⟩ }

/-- A function is asked for, another one, and a copy of the first one, all under one number: the copy
is answered by what was compiled for the first one. -/
theorem answers_transparent_numberless :
    ∃ a, (numberless.answers .empty [constantly 1 .one, ofInteger, constantly 2 .one])[2]? = some a
      ∧ a.map CompiledBody.content
        = (numberless.compiled (constantly 2 .one)).map CompiledBody.content := by
  obtain ⟨a, ha, -, -, hclear⟩ := answers_transparent numberless
    [constantly 1 .one, ofInteger, constantly 2 .one] 2 (constantly 2 .one) rfl
  refine ⟨a, ha, hclear fun q hq hmeets => ?_⟩
  rcases List.mem_cons.mp hq with rfl | hq
  · exact ⟨rfl, rfl⟩
  · rw [List.mem_singleton.mp hq] at hmeets
    have hother : ofInteger.code.agrees (constantly 2 .one).code = false := by decide +kernel
    rw [hmeets.code] at hother
    cases hother

/-! ## 4. Colliding numbers -/

/-- The second of two requests that meet is answered like the first. -/
theorem answers_of_meets {q r : Request} (h : c.Meets q r) {b : CompiledBody}
    (hb : c.compiled q = .ok b) : c.answers .empty [q, r] = [.ok b, .ok b] := by
  have hempty : (Cache.empty : Cache CompiledBody).get? (c.numberOf q) = none :=
    Std.HashMap.getElem?_empty
  have hfirst : c.body .empty q.code q.signature
      = .ok (⟨b, true⟩, Cache.empty.insert (c.numberOf q) b) := by
    show Cache.fetch _ (c.numberOf q) q.code (fun _ => c.compiled q) = _
    rw [Cache.fetch, hempty, hb]
    rfl
  have hkept : (Cache.empty.insert (c.numberOf q) b).get? (c.numberOf r) = some b := by
    rw [← h.number, Cache.get?_insert_self, hempty, Option.getD_none]
  have hmade : Cache.madeFrom b r.code = true := by
    show b.code.agrees r.code = true
    rw [code_of_compiled hb, h.code]
  have hsecond : c.body (Cache.empty.insert (c.numberOf q) b) r.code r.signature
      = .ok (⟨b, false⟩, Cache.empty.insert (c.numberOf q) b) := by
    show Cache.fetch _ (c.numberOf r) r.code (fun _ => c.compiled r) = _
    rw [Cache.fetch, hkept]
    exact if_pos hmade
  simp only [answers, hfirst, hsecond]

/-- What is known of the second parameter at the entry of a compiled body. -/
def secondAtEntry (b : CompiledBody) : Option (Option Slot) := (b.analysis.state 0).locals[1]?

/-- The floats among the constants of a compiled body, by their words. -/
def floatsOf (b : CompiledBody) : List UInt64 :=
  b.code.constants.filterMap fun
    | .float x => some x.bits
    | _ => none

theorem meets_ofInteger : (ofModel TypeModel.withBuiltins {}).Meets ofInteger ofAnything :=
  ⟨by decide +kernel, by decide +kernel⟩

theorem meets_constantly : (ofModel TypeModel.withBuiltins {}).Meets (constantly 1 .zero)
    (constantly 2 Double.zero.negate) :=
  ⟨by decide +kernel, by decide +kernel⟩

/-- **The numbers of functions collide for one code object.** The second request of each pair is
answered by what was compiled for the first. It takes a parameter that can be anything for an integer,
and the zero of one sign for that of the other. -/
theorem answers_collide :
    (∃ a b, (ofModel TypeModel.withBuiltins {}).answers .empty [ofInteger, ofAnything] = [.ok a, .ok a]
      ∧ (ofModel TypeModel.withBuiltins {}).compiled ofAnything = .ok b
      ∧ secondAtEntry a = some (some (.value .int)) ∧ secondAtEntry b = some (some (.value .object)))
    ∧ ∃ a b, (ofModel TypeModel.withBuiltins {}).answers .empty
        [constantly 1 .zero, constantly 2 Double.zero.negate] = [.ok a, .ok a]
      ∧ (ofModel TypeModel.withBuiltins {}).compiled (constantly 2 Double.zero.negate) = .ok b
      ∧ floatsOf a = [0, 0] ∧ floatsOf b = [0x8000000000000000, 0x8000000000000000] := by
  let c := ofModel TypeModel.withBuiltins {}
  have hknown : (c.compiled ofInteger).toOption.map secondAtEntry = some (some (some (.value .int)))
      ∧ (c.compiled ofAnything).toOption.map secondAtEntry = some (some (some (.value .object)))
      ∧ (c.compiled (constantly 1 .zero)).toOption.map floatsOf = some [0, 0]
      ∧ (c.compiled (constantly 2 Double.zero.negate)).toOption.map floatsOf
        = some [0x8000000000000000, 0x8000000000000000] := by decide +kernel
  obtain ⟨hfirst, hsecond, hplus, hminus⟩ := hknown
  simp only [Option.map_eq_some_iff, toOption_eq_some] at hfirst hsecond hplus hminus
  obtain ⟨a, ha, hfirst⟩ := hfirst
  obtain ⟨b, hb, hsecond⟩ := hsecond
  obtain ⟨a', ha', hplus⟩ := hplus
  obtain ⟨b', hb', hminus⟩ := hminus
  exact ⟨⟨a, b, answers_of_meets meets_ofInteger ha, hb, hfirst, hsecond⟩,
    a', b', answers_of_meets meets_constantly ha', hb', hplus, hminus⟩

end Compiler

end Stackwise
