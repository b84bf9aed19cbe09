/-!
# Operators

The unary and binary operators of the instruction set, with the special methods that implement
them: forward, with exchanged operands, and in place.
-/

namespace Stackwise

/-- A unary operator. -/
inductive UnaryOp where
  | positive | negative | not | invert
  deriving DecidableEq, Hashable, Repr

namespace UnaryOp

/-- Every unary operator. -/
def all : List UnaryOp := [.positive, .negative, .not, .invert]

/-- The special method of an operator. Negation of truth has none: it tests the operand. -/
def method? : UnaryOp → Option String
  | .positive => some "__pos__"
  | .negative => some "__neg__"
  | .not => none
  | .invert => some "__invert__"

/-- The symbol of an operator. -/
def symbol : UnaryOp → String
  | .positive => "+"
  | .negative => "-"
  | .not => "not"
  | .invert => "~"

/-- The name of an operator. -/
def name : UnaryOp → String
  | .positive => "Positive"
  | .negative => "Negative"
  | .not => "Not"
  | .invert => "Invert"

end UnaryOp

/-- A binary operator. -/
inductive BinaryOp where
  | power | multiply | matrixMultiply | floorDivide | trueDivide | modulo | add | subtract
  | lshift | rshift | and | xor | or
  deriving DecidableEq, Hashable, Repr

namespace BinaryOp

/-- Every binary operator. -/
def all : List BinaryOp := [
  .power, .multiply, .matrixMultiply, .floorDivide, .trueDivide, .modulo, .add, .subtract,
  .lshift, .rshift, .and, .xor, .or]

/-- The stem from which the names of the special methods are formed. -/
def stem : BinaryOp → String
  | .power => "pow"
  | .multiply => "mul"
  | .matrixMultiply => "matmul"
  | .floorDivide => "floordiv"
  | .trueDivide => "truediv"
  | .modulo => "mod"
  | .add => "add"
  | .subtract => "sub"
  | .lshift => "lshift"
  | .rshift => "rshift"
  | .and => "and"
  | .xor => "xor"
  | .or => "or"

/-- The special method of an operator. -/
def method (op : BinaryOp) : String := "__" ++ op.stem ++ "__"

/-- The special method with the operands exchanged. -/
def reflected (op : BinaryOp) : String := "__r" ++ op.stem ++ "__"

/-- The special method that changes the left operand in place. -/
def inplace (op : BinaryOp) : String := "__i" ++ op.stem ++ "__"

/-- The symbol of an operator. -/
def symbol : BinaryOp → String
  | .power => "**"
  | .multiply => "*"
  | .matrixMultiply => "@"
  | .floorDivide => "//"
  | .trueDivide => "/"
  | .modulo => "%"
  | .add => "+"
  | .subtract => "-"
  | .lshift => "<<"
  | .rshift => ">>"
  | .and => "&"
  | .xor => "^"
  | .or => "|"

/-- The operator with the given symbol. -/
def ofSymbol? (s : String) : Option BinaryOp := all.find? (·.symbol == s)

end BinaryOp

end Stackwise
