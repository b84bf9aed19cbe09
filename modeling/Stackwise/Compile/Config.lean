import Stackwise.Text.Blank

/-!
# Settings

Settings have defaults and can be changed through named variables, read by any lookup function. A
variable counts as set when its value is neither empty nor `0`.
-/

namespace Stackwise

/-- The settings of the compiler. -/
structure Config where
  /-- Narrow the results of calls and operators by overload resolution. -/
  specialize : Bool := true
  /-- Take global names that nothing binds for the builtins of that name. -/
  assumeBuiltins : Bool := true
  /-- Spell out the entry of `with` blocks. -/
  desugarWith : Bool := true
  /-- A bound on the steps of the analysis in place of the computed one. -/
  maxSteps : Option Nat := none
  /-- Whether the variables were ignored. -/
  ignoreEnvironment : Bool := false
  deriving DecidableEq, Repr

namespace Config

instance : Inhabited Config := ⟨{}⟩

/-- Whether the value of a variable switches it on. -/
def switchedOn : Option String → Bool
  | some v => v != "" && v != "0"
  | none => false

/-- The value of decimal digits below `2 ^ 64`, with an optional plus sign. -/
def parseWord? (s : String) : Option Nat :=
  let digits := match s.toList with
    | '+' :: cs => cs
    | cs => cs
  if digits.isEmpty || !digits.all Char.isDigit then none
  else
    let n := digits.foldl (fun n c => n * 10 + (c.toNat - '0'.toNat)) 0
    if n < 0x10000000000000000 then some n else none

/-- The positive bound that a variable gives, if it gives one. -/
def parseBound? (v : Option String) : Option Nat :=
  (v.bind fun s => parseWord? (Text.trim s)).filter (0 < ·)

/-- The settings that a variable lookup gives. One variable makes all others count for nothing. -/
def ofLookup (lookup : String → Option String) : Config :=
  if switchedOn (lookup "QUILL_IGNORE_ENVIRONMENT") then { ignoreEnvironment := true }
  else
    { specialize := !switchedOn (lookup "QUILL_NO_SPECIALIZE")
      assumeBuiltins := !switchedOn (lookup "QUILL_NO_BUILTINS")
      desugarWith := !switchedOn (lookup "QUILL_NO_WITH_DESUGAR")
      maxSteps := parseBound? (lookup "QUILL_MAX_DATAFLOW_STEPS") }

end Config

end Stackwise
