import Std.Data.HashMap
import Stackwise.Compile.FunctionId
import Stackwise.Compile.Program

/-!
# The compiler

Compiles functions for a type model and keeps the results. Two things are kept apart: compiled
bodies, and the programs made of them.

Results are kept by the number of the function that they were made for. The first result under a
number stays. Numbers may collide, so a result is used again only for the code object that it was
made from; for any other it is made anew and not kept.
-/

namespace Stackwise

/-! ## 1. Caches -/

/-- Results by function number. -/
structure Cache (α : Type) where
  /-- The results. -/
  entries : Std.HashMap FunctionId α := {}

/-- A result that knows the code object it was made from. -/
class MadeFrom (α : Type) where
  /-- The code object. -/
  source : α → CodeObject

/-- A result and whether it was made for this request. -/
structure Fetched (α : Type) where
  /-- The result. -/
  result : α
  /-- Whether it was made just now. -/
  fresh : Bool

namespace Cache

variable {α : Type}

/-- The cache without results. -/
def empty : Cache α := {}

instance : Inhabited (Cache α) := ⟨empty⟩

/-- The result under a number. -/
def get? (c : Cache α) (id : FunctionId) : Option α := c.entries[id]?

/-- Whether there is a result under a number. -/
def contains (c : Cache α) (id : FunctionId) : Bool := c.entries.contains id

/-- Number of results. -/
def size (c : Cache α) : Nat := c.entries.size

/-- Whether there are no results. -/
def isEmpty (c : Cache α) : Bool := c.entries.isEmpty

/-- Keeps a result unless there is one under that number. -/
def insert (c : Cache α) (id : FunctionId) (a : α) : Cache α :=
  ⟨c.entries.insertIfNew id a⟩

/-- Whether a result was made from a code object. -/
def madeFrom [MadeFrom α] (a : α) (code : CodeObject) : Bool := (MadeFrom.source a).agrees code

/-- The result for a code object: the one that is kept if it was made from it, else a new one,
which is kept if there is none under that number. -/
def fetch [MadeFrom α] {ε : Type} (c : Cache α) (id : FunctionId) (code : CodeObject)
    (build : Unit → Except ε α) : Except ε (Fetched α × Cache α) :=
  match c.get? id with
  | some a =>
    if madeFrom a code then .ok ({ result := a, fresh := false }, c)
    else (build ()).map fun b => ({ result := b, fresh := true }, c)
  | none => (build ()).map fun b => ({ result := b, fresh := true }, c.insert id b)

end Cache

/-! ## 2. Compilers -/

instance : MadeFrom CompiledBody := ⟨CompiledBody.code⟩

instance : MadeFrom Program := ⟨Program.code⟩

/-- What a compilation reads. -/
structure Compiler where
  /-- The types. -/
  model : TypeModel
  /-- The settings. -/
  config : Config
  /-- The number of a function, by which results are kept. -/
  number : CodeObject → CallSignature → FunctionId

namespace Compiler

/-- The compiler that numbers functions by their content. -/
def ofModel (model : TypeModel) (config : Config) : Compiler :=
  { model, config, number := FunctionId.ofCall }

instance : Inhabited Compiler := ⟨ofModel default default⟩

/-- Compiles a function. -/
def analyze (c : Compiler) (code : CodeObject) (s : CallSignature) :
    Except CompileError CompiledBody :=
  CompiledBody.analyze c.model c.config code s

/-- The compiled body of a function, kept in a cache. -/
def body (c : Compiler) (cache : Cache CompiledBody) (code : CodeObject) (s : CallSignature) :
    Except CompileError (Fetched CompiledBody × Cache CompiledBody) :=
  cache.fetch (c.number code s) code fun _ => c.analyze code s

/-- Gives a compiled body to an emitter. -/
def emit {σ α : Type} (c : Compiler) (b : CompiledBody) (e : Emitter σ α) (s : σ) :
    Except CompileError α :=
  b.emit c.model c.config e s

end Compiler

end Stackwise
