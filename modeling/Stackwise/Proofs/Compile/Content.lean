import Stackwise.Compile.CompiledBody
import Stackwise.Proofs.Outcome

/-!
# Contents of code objects

Two code objects can have the same content and still be two objects. Compilation cannot tell them
apart: it reads what is in a code object, never which object it is.

* `CodeObject.content`: a code object without what only tells it apart, and without that of the code
  objects among its constants.
* `Typer.effect_content`: the effect of an operation depends on the contents of the constants.
* `CompiledBody.build_content`: a code object is compiled as its content is.
* `CompiledBody.analyze_congr`: so code objects with the same content have the same compiled body, or
  are refused with the same fault.
-/

namespace Stackwise

/-! ## 1. Contents -/

mutual

/-- A constant without identities. -/
def Constant.content : Constant → Constant
  | .none => .none
  | .bool b => .bool b
  | .int n => .int n
  | .float x => .float x
  | .str s => .str s
  | .bytes b => .bytes b
  | .tuple items => .tuple (Constant.contents items)
  | .ellipsis => .ellipsis
  | .code c => .code c.content

/-- Constants without identities. -/
def Constant.contents : List Constant → List Constant
  | [] => []
  | c :: cs => c.content :: Constant.contents cs

/-- A code object without identities. -/
def CodeObject.content : CodeObject → CodeObject
  | ⟨_, n, q, _, f, l, d, code, cs, ns, vs, cv, fv, ac, po, ko, fl, lt⟩ =>
    ⟨0, n, q, false, f, l, d, code, Constant.contents cs, ns, vs, cv, fv, ac, po, ko, fl, lt⟩

end

namespace Constant

theorem contents_eq_map (cs : List Constant) : contents cs = cs.map content := by
  induction cs with
  | nil => rfl
  | cons c cs ih => rw [contents, ih, List.map_cons]

theorem type_content (c : Constant) : c.content.type = c.type := by
  cases c <;> rfl

theorem asStr?_content (c : Constant) : c.content.asStr? = c.asStr? := by
  cases c <;> rfl

theorem asNames?_content (c : Constant) : c.content.asNames? = c.asNames? := by
  cases c with
  | tuple items =>
    show (contents items).mapM asStr? = items.mapM asStr?
    rw [contents_eq_map, List.mapM_map]
    exact congrArg (List.mapM · items) (funext asStr?_content)
  | _ => rfl

end Constant

mutual

theorem Constant.words_content (c : Constant) : c.content.words = c.words := by
  cases c with
  | tuple items =>
    show 6 :: UInt64.ofNat (Constant.contents items).length
      :: Constant.wordsOfAll (Constant.contents items) = _
    rw [Constant.wordsOfAll_contents items, Constant.contents_eq_map, List.length_map]
    rfl
  | code c => exact congrArg (8 :: ·) c.words_content
  | _ => rfl

theorem Constant.wordsOfAll_contents (cs : List Constant) :
    Constant.wordsOfAll (Constant.contents cs) = Constant.wordsOfAll cs := by
  cases cs with
  | nil => rfl
  | cons c cs =>
    show c.content.words ++ Constant.wordsOfAll (Constant.contents cs) = _
    rw [c.words_content, Constant.wordsOfAll_contents cs]
    rfl

theorem CodeObject.words_content (c : CodeObject) : c.content.words = c.words := by
  obtain ⟨_, n, q, _, f, l, d, code, cs, ns, vs, cv, fv, ac, po, ko, fl, lt⟩ := c
  have hlength : (Constant.contents cs).length = cs.length := by
    rw [Constant.contents_eq_map, List.length_map]
  simp only [CodeObject.content, CodeObject.words, Constant.wordsOfAll_contents cs, hlength]

end

namespace CodeObject

variable (c : CodeObject)

/-- The content differs from the code object in identities only. -/
theorem content_eq : c.content = { c with
    serial := 0, ownQualname := false, constants := c.constants.map Constant.content } := by
  obtain ⟨_, n, q, _, f, l, d, code, cs, ns, vs, cv, fv, ac, po, ko, fl, lt⟩ := c
  rw [content, Constant.contents_eq_map]

end CodeObject

theorem FunctionId.ofCode_content (c : CodeObject) : ofCode c.content = ofCode c :=
  congrArg (fun ws => FunctionId.mk (Hashing.ofWords ws)) c.words_content

/-! ## 2. Decoding -/

namespace InstructionStream

theorem fold_content (c : CodeObject) (us : List (UInt8 × UInt8)) (unit : Nat) (x : Extension)
    (done : List Instruction) : fold c.content unit x done us = fold c unit x done us := by
  rw [c.content_eq]
  induction us generalizing unit x done with
  | nil => rfl
  | cons u us ih =>
    obtain ⟨a, b⟩ := u
    rw [fold, fold]
    simp only [ih]
    rfl

theorem decode_content (c : CodeObject) : decode c.content = decode c := by
  unfold decode
  rw [fold_content, c.content_eq]

end InstructionStream

namespace Body

theorem op_decode_content (i : Instruction) (c : CodeObject) : Op.decode i c.content = Op.decode i c := by
  have hconstant : Op.constantOf i c.content = Op.constantOf i c := by
    unfold Op.constantOf
    rw [c.content_eq, List.length_map]
  unfold Op.decode
  rw [hconstant, c.content_eq]
  rfl

theorem write_content (c : CodeObject) (r : BodyWriter) (is : List Instruction) :
    write c.content r is = write c r is := by
  induction is generalizing r with
  | nil => rfl
  | cons i is ih =>
    rw [write, write, op_decode_content]
    simp only [ih]

theorem decode_content (c : CodeObject) : decode c.content = decode c := by
  unfold decode
  rw [InstructionStream.decode_content]
  simp only [write_content]
  rw [c.content_eq]
  rfl

end Body

/-! ## 3. The fixed point -/

/-- The typing of a function with its constants without identities. -/
def Typer.content (ty : Typer) : Typer := { ty with constants := ty.constants.map Constant.content }

namespace Typer

variable (ty : Typer)

theorem constSlot_content (i : Nat) : ty.content.constSlot i = ty.constSlot i := by
  unfold constSlot content
  rw [List.getElem?_map]
  cases ty.constants[i]? with
  | none => rfl
  | some c => exact congrArg Slot.value c.type_content

theorem asNames?_content (i : Nat) : ty.content.constants[i]?.bind Constant.asNames?
    = ty.constants[i]?.bind Constant.asNames? := by
  unfold content
  rw [List.getElem?_map]
  cases ty.constants[i]? with
  | none => rfl
  | some c => exact c.asNames?_content

theorem effect_content (o : Nat) (s : AbstractState) (op : Op) :
    op.effect ty.content o s = op.effect ty o s := by
  cases op with
  | loadConst i =>
    unfold Op.effect
    dsimp only
    rw [constSlot_content, asNames?_content]
  | unary op => cases op <;> rfl
  | _ => rfl

end Typer

namespace Fixpoint

theorem propagateAll_content (q : Problem) (o : Nat) (isLast : Bool) (t : Transfer)
    (onward : Option AbstractState) (p : Progress) :
    propagateAll { q with typer := q.typer.content } o isLast t onward p
      = propagateAll q o isLast t onward p := by
  induction t generalizing onward p with
  | nil => rfl
  | cons out t ih =>
    obtain ⟨_ | target, s⟩ := out
    · rw [propagateAll, propagateAll]
      simp only [ih]
      rfl
    · rw [propagateAll, propagateAll]
      simp only [ih]
      rfl

theorem visitFrom_content (q : Problem) (last : Nat) (os : List Nat) (s : AbstractState)
    (p : Progress) :
    visitFrom { q with typer := q.typer.content } last os s p = visitFrom q last os s p := by
  induction os generalizing s p with
  | nil => rfl
  | cons o os ih =>
    rw [visitFrom, visitFrom]
    simp only [ih, Typer.effect_content, propagateAll_content]
    rfl

theorem iterate_content (q : Problem) (bound left : Nat) (p : Progress) :
    iterate { q with typer := q.typer.content } bound left p = iterate q bound left p := by
  have hvisit : ∀ block p, visit { q with typer := q.typer.content } block p = visit q block p :=
    fun block p => visitFrom_content q _ _ _ p
  induction left generalizing p with
  | zero =>
    unfold iterate
    cases p.worklist <;> rfl
  | succ left ih =>
    unfold iterate
    cases p.worklist with
    | nil => rfl
    | cons block rest =>
      dsimp only
      rw [hvisit]
      simp only [ih]

theorem analyze_content (ty : Typer) (is : List Instr) (g : FlowGraph) (entry : AbstractState) :
    analyze ty.content is g entry = analyze ty is g entry := by
  unfold analyze
  have h := iterate_content { code := is.toArray, graph := g, typer := ty }
  simp only [h]
  rfl

end Fixpoint

/-! ## 4. Compiled bodies -/

namespace CompiledBody

/-- A compiled body that does not tell code objects of the same content apart. -/
def content (b : CompiledBody) : CompiledBody := { b with code := b.code.content }

theorem settle_content (ty : Typer) (c : CodeObject) (entry : AbstractState) :
    settle ty.content c.content entry = settle ty c entry := by
  unfold settle
  rw [Body.decode_content]
  simp only [Fixpoint.analyze_content]
  rw [c.content_eq]
  rfl

/-- **A code object is compiled as its content is.** -/
theorem build_content (m : TypeModel) (config : Config) (c : CodeObject) (s : CallSignature) :
    (build m config c s).map content = build m config c.content s := by
  have hty : typerFor m config c.content = (typerFor m config c).content := by
    unfold typerFor Typer.content
    rw [c.content_eq]
  have hentry : entryState c.content s = entryState c s := by
    rw [c.content_eq]
    rfl
  unfold build
  rw [hty, hentry, settle_content]
  cases settle (typerFor m config c) c (entryState c s) with
  | error e => rfl
  | ok found =>
    obtain ⟨r, g, a⟩ := found
    have hid := FunctionId.ofCode_content c
    have hgenerator : c.content.isGenerator = c.isGenerator := by rw [c.content_eq]; rfl
    have hlocals : c.content.localCount = c.localCount := by rw [c.content_eq]; rfl
    simp only [bind, Except.bind, pure, Except.pure, Except.map, content, hid, hgenerator, hlocals]

/-- **Code objects with the same content have the same compiled body**, or the same fault. -/
theorem analyze_congr (m : TypeModel) (config : Config) {c d : CodeObject} (s : CallSignature)
    (h : c.content = d.content) :
    (analyze m config c s).map content = (analyze m config d s).map content := by
  have hbuild : (build m config c s).map content = (build m config d s).map content := by
    rw [build_content, build_content, h]
  have hname : c.qualname = d.qualname := by
    have := congrArg CodeObject.qualname h
    rwa [c.content_eq, d.content_eq] at this
  unfold analyze
  cases hc : build m config c s with
  | error e =>
    cases hd : build m config d s with
    | error f =>
      rw [hc, hd] at hbuild
      cases hbuild
      rw [hname]
    | ok b' =>
      rw [hc, hd] at hbuild
      cases hbuild
  | ok b =>
    cases hd : build m config d s with
    | error f =>
      rw [hc, hd] at hbuild
      cases hbuild
    | ok b' =>
      rw [hc, hd] at hbuild
      exact congrArg Except.ok (Except.ok.inj hbuild)

end CompiledBody

end Stackwise
