import Stackwise.Analysis.Slot
import Stackwise.Bytecode.Code
import Stackwise.Hashing.Words
import Stackwise.Text.Quoted

/-!
# Function identities

A function is a code object and the types that it is compiled for: those of its parameters, from
which the entry state is made, and the one that it returns.

Both together have a number. The content is written as a sequence of words, table after table, so
that equal content has an equal number; floats count by their words, so that zeros of different sign
differ. Nothing rests on different content having different numbers.

* `CallSignature`: the types; `CallSignature.entryLocals`: the locals at the entry.
* `Constant.words`, `CodeObject.words`, `CallSignature.words`: contents as sequences.
* `CodeObject.fingerprint`, `FunctionId.ofCall`: the numbers.
-/

namespace Stackwise

/-! ## 1. Call signatures -/

/-- The types that a function is compiled for. -/
structure CallSignature where
  /-- Types of the parameter slots in order. -/
  params : List TypeId := []
  /-- The declared return type. -/
  returns : TypeId := TypeId.object
  /-- Whether the first parameter is the receiver. -/
  isMethod : Bool := false
  deriving DecidableEq, Hashable, Repr

namespace CallSignature

/-- The signature that says nothing. -/
def dynamic : CallSignature := {}

instance : Inhabited CallSignature := ⟨dynamic⟩

/-- The signature with a receiver of the given type as its first parameter. -/
def forReceiver (s : CallSignature) (receiver : TypeId) : CallSignature :=
  { s with params := receiver :: s.params.drop 1, isMethod := true }

/-- The slot of local `i` at the entry. Surplus positional arguments come as a tuple and surplus
keyword arguments as a mapping; a parameter without a declared type can be anything, and what is no
parameter is unbound. -/
def entryLocal (s : CallSignature) (c : CodeObject) (i : Nat) : Option Slot :=
  let surplus := c.namedParams
  if c.hasVarkeywords && i == surplus + c.hasVarargs.toNat then some (.value TypeId.dict)
  else if c.hasVarargs && i == surplus then some (.value TypeId.tuple)
  else if i < c.totalParams then some (.value (s.params.getD i TypeId.object))
  else none

/-- The locals at the entry. -/
def entryLocals (s : CallSignature) (c : CodeObject) : List (Option Slot) :=
  (List.range c.localCount).map (s.entryLocal c)

end CallSignature

/-! ## 2. Fingerprints of code objects -/

open Hashing (textWords bytesWords listWords boolWord)

/-- The number of a dialect. -/
def Dialect.word : Dialect → UInt64
  | .v39 => 0
  | .v310 => 1

/-- The words of an entry of a line table. -/
def LineEntry.words (e : LineEntry) : List UInt64 :=
  [UInt64.ofNat e.start, UInt64.ofNat e.stop, UInt64.ofNat e.line]

mutual

/-- The words of a constant: the number of its kind, and its content. -/
def Constant.words : Constant → List UInt64
  | .none => [0]
  | .bool b => [1, boolWord b]
  | .int n => [2, n.toUInt64]
  | .float x => [3, x.bits]
  | .str s => 4 :: textWords s
  | .bytes b => 5 :: bytesWords b
  | .tuple items => 6 :: UInt64.ofNat items.length :: Constant.wordsOfAll items
  | .ellipsis => [7]
  | .code c => 8 :: c.words

/-- The words of constants, one after the other. -/
def Constant.wordsOfAll : List Constant → List UInt64
  | [] => []
  | c :: cs => c.words ++ Constant.wordsOfAll cs

/-- The words of everything in a code object that its compilation depends on. -/
def CodeObject.words : CodeObject → List UInt64
  | ⟨_, n, q, _, f, l, d, code, cs, ns, vs, cv, fv, ac, po, ko, fl, lt⟩ =>
    textWords n ++ textWords q ++ textWords f ++ [UInt64.ofNat l, d.word] ++ bytesWords code
      ++ UInt64.ofNat cs.length :: Constant.wordsOfAll cs
      ++ listWords textWords ns ++ listWords textWords vs ++ listWords textWords cv
      ++ listWords textWords fv
      ++ [UInt64.ofNat ac, UInt64.ofNat po, UInt64.ofNat ko, UInt64.ofNat fl.bits]
      ++ listWords LineEntry.words lt

end

/-- The number of the content of a code object. -/
def CodeObject.fingerprint (c : CodeObject) : UInt64 := Hashing.ofWords c.words

/-! ## 3. Numbers of functions -/

/-- The words of a signature. -/
def CallSignature.words (s : CallSignature) : List UInt64 :=
  Hashing.listWords (fun t => [UInt64.ofNat t.raw]) s.params
    ++ [UInt64.ofNat s.returns.raw, Hashing.boolWord s.isMethod]

/-- The number of a function. -/
structure FunctionId where
  /-- The number. -/
  raw : UInt64
  deriving DecidableEq, Hashable, Inhabited, Repr

namespace FunctionId

/-- The number of a code object. -/
def ofCode (c : CodeObject) : FunctionId := ⟨c.fingerprint⟩

/-- The number of a function compiled for a signature. A signature that says nothing keeps the
plain number. -/
def forSignature (id : FunctionId) (s : CallSignature) : FunctionId :=
  if s = CallSignature.dynamic then id else ⟨Hashing.ofWords (id.raw :: s.words)⟩

/-- The number of a code object compiled for a signature. -/
def ofCall (c : CodeObject) (s : CallSignature) : FunctionId := (ofCode c).forSignature s

/-- Sixteen hexadecimal digits. -/
def text (id : FunctionId) : String := Text.padLeft 16 '0' (Text.hex id.raw.toNat)

/-- The text that marks a number as that of a function. -/
def label (id : FunctionId) : String := "fn#" ++ id.text

end FunctionId

end Stackwise
