import Stackwise.Compile.FunctionId
import Stackwise.Compile.Config
import Stackwise.Decimal.Reader
import Stackwise.Form.Basic
import Stackwise.Types.Builtins

/-!
# Types, signatures and settings in forms

A type is written by its name, or by `#` and its number, which need not exist.
-/

namespace Stackwise

namespace Form

/-- Reads a type. -/
def toType (m : TypeModel) (f : Form) : Except ReadError TypeId := do
  let s ← f.toText
  match s.toList with
  | '#' :: digits => return ⟨Decimal.digitsValue digits⟩
  | _ =>
    match m.byName? s with
    | some t => return t
    | none => expected "type name"

/-- Reads a list of types. -/
def toTypes (m : TypeModel) (f : Form) : Except ReadError (List TypeId) := do
  (← f.toList).mapM (toType m)

/-- A type by its name. -/
def typeName (m : TypeModel) (t : TypeId) : Form := .text (m.name t)

/-- Reads an extension of a type model: what it declares comes first, then its parts. -/
def toDeclaration? (m : TypeModel) (f : Form) : Except ReadError (Option Declaration) := do
  match ← (f.item 0).toText with
  | "register" => return some (.type (← (f.item 1).toText) (← (f.item 2).toTypes m))
  | "method" =>
    let signature : Signature :=
      { params := ← (f.item 3).toTypes m
        returns := ← (f.item 4).toType m
        names := ← (f.item 5).optional toTexts }
    return some (.method (← (f.item 1).toType m) (← (f.item 2).toText) signature)
  | "attribute" =>
    return some (.attribute (← (f.item 1).toType m) (← (f.item 2).toText) (← (f.item 3).toType m))
  | "global" => return some (.globalClass (← (f.item 1).toText) (← (f.item 2).toType m))
  | _ => return none

/-- Reads the builtin model with extensions, all of which must succeed. -/
def toModel (f : Form) : Except ReadError TypeModel := do
  (← f.toList).foldlM (fun m step => do
    match ← step.toDeclaration? m with
    | none => expected "declaration"
    | some d =>
      match m.declareOne d with
      | .ok m => return m
      | .error e => expected e.message) TypeModel.withBuiltins

/-- Reads a call signature; nothing stands for the one that says nothing. -/
def toSignature (m : TypeModel) (f : Form) : Except ReadError CallSignature := do
  if f.isNull then return .dynamic
  let s : CallSignature :=
    { params := ← (f.field "params").toTypes m
      returns := ← f.fieldOr "ret" TypeId.object (toType m) }
  match ← (f.field "method").optional (toType m) with
  | some receiver => return s.forReceiver receiver
  | none => return s

/-- Reads settings; what is absent has its default. -/
def toConfig (f : Form) : Except ReadError Config := do
  let c : Config := {}
  return { c with
    specialize := ← f.fieldOr "specialize" c.specialize toBool
    assumeBuiltins := ← f.fieldOr "assume_builtins" c.assumeBuiltins toBool
    desugarWith := ← f.fieldOr "desugar_with" c.desugarWith toBool
    maxSteps := ← (f.field "max_steps").optional toNat }

end Form

/-- The form of settings. -/
def Config.form (c : Config) : Form := .fields [
  ("specialize", .bool c.specialize), ("assume_builtins", .bool c.assumeBuiltins),
  ("desugar_with", .bool c.desugarWith), ("max_steps", .opt .nat c.maxSteps),
  ("ignore_environment", .bool c.ignoreEnvironment)]

/-- What a model knows of a type, also of one that it does not have. -/
def TypeModel.form (m : TypeModel) (t : TypeId) : Form :=
  let ids (ts : List TypeId) : Form := .listOf (fun t => .nat t.raw) ts
  .fields [
    ("name", .text (m.name t)), ("depth", .nat (m.depth t)), ("mro", ids (m.order t)),
    ("bases", .opt (fun d => ids d.bases) (m.get? t)),
    ("own_depth", .opt (fun d => .nat d.depth) (m.get? t)),
    ("builtin", .bool t.isBuiltin), ("exception", .bool (m.isException t))]

end Stackwise
