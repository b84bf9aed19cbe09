/-!
# Comparisons

The six rich comparisons, by the operand that selects them, the special method that implements
them and their symbol.
-/

namespace Stackwise

/-- A rich comparison. -/
inductive Comparison where
  | lt | le | eq | ne | gt | ge
  deriving DecidableEq, Hashable, Repr

namespace Comparison

/-- Every comparison, in the order of the operands that select them. -/
def all : List Comparison := [.lt, .le, .eq, .ne, .gt, .ge]

/-- The comparison selected by an operand. -/
def ofArg? (n : Nat) : Option Comparison := all[n]?

/-- The operand that selects a comparison. -/
def arg : Comparison → Nat
  | .lt => 0
  | .le => 1
  | .eq => 2
  | .ne => 3
  | .gt => 4
  | .ge => 5

/-- The special method that implements a comparison. -/
def method : Comparison → String
  | .lt => "__lt__"
  | .le => "__le__"
  | .eq => "__eq__"
  | .ne => "__ne__"
  | .gt => "__gt__"
  | .ge => "__ge__"

/-- The comparison with the operands exchanged. -/
def swapped : Comparison → Comparison
  | .lt => .gt
  | .le => .ge
  | .eq => .eq
  | .ne => .ne
  | .gt => .lt
  | .ge => .le

/-- The symbol of a comparison. -/
def symbol : Comparison → String
  | .lt => "<"
  | .le => "<="
  | .eq => "=="
  | .ne => "!="
  | .gt => ">"
  | .ge => ">="

/-- The name of a comparison. -/
def name : Comparison → String
  | .lt => "Lt"
  | .le => "Le"
  | .eq => "Eq"
  | .ne => "Ne"
  | .gt => "Gt"
  | .ge => "Ge"

/-- The comparison with the given symbol. -/
def ofSymbol? (s : String) : Option Comparison := all.find? (·.symbol == s)

end Comparison

end Stackwise
