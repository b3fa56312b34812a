/-
**Operators.**

Main definitions:

* `ShaderLang.UnaryOp`, `ShaderLang.BinaryOp`, `ShaderLang.AssignOp` — the operators and their
  symbols;
* `ShaderLang.Placement`, `ShaderLang.Direction` — the two placements and directions of `++` and
  `--`;
* `ShaderLang.Jump` — statements that leave the order of execution.
-/

set_option relaxedAutoImplicit false
set_option autoImplicit false

namespace ShaderLang

/-- Operators in front of one operand. -/
inductive UnaryOp where
  | plus
  | negate
  | logicalNot
  | bitNot
  deriving DecidableEq, Repr

namespace UnaryOp

/-- How the operator is written. -/
def symbol : UnaryOp → String
  | plus => "+"
  | negate => "-"
  | logicalNot => "!"
  | bitNot => "~"

end UnaryOp

/-- Operators between two operands. -/
inductive BinaryOp where
  | add
  | subtract
  | multiply
  | divide
  | modulo
  | shiftLeft
  | shiftRight
  | bitAnd
  | bitOr
  | bitXor
  | less
  | greater
  | lessEqual
  | greaterEqual
  | equal
  | notEqual
  | logicalAnd
  | logicalOr
  deriving DecidableEq, Repr

namespace BinaryOp

/-- How the operator is written. -/
def symbol : BinaryOp → String
  | add => "+"
  | subtract => "-"
  | multiply => "*"
  | divide => "/"
  | modulo => "%"
  | shiftLeft => "<<"
  | shiftRight => ">>"
  | bitAnd => "&"
  | bitOr => "|"
  | bitXor => "^"
  | less => "<"
  | greater => ">"
  | lessEqual => "<="
  | greaterEqual => ">="
  | equal => "=="
  | notEqual => "!="
  | logicalAnd => "&&"
  | logicalOr => "||"

/-- Comparisons. -/
def isComparison : BinaryOp → Bool
  | less | greater | lessEqual | greaterEqual | equal | notEqual => true
  | _ => false

/-- Operators between truth values. -/
def isLogical : BinaryOp → Bool
  | logicalAnd | logicalOr => true
  | _ => false

/-- Operators whose result is a truth value. -/
def isBoolean (op : BinaryOp) : Bool := op.isComparison || op.isLogical

/-- Operators on the bits of integers. -/
def isBitwise : BinaryOp → Bool
  | shiftLeft | shiftRight | bitAnd | bitOr | bitXor => true
  | _ => false

end BinaryOp

/-- Plain assignment, and assignment of an operator's result to its left operand. -/
inductive AssignOp where
  | assign
  | compound (op : BinaryOp)
  deriving DecidableEq, Repr

namespace AssignOp

/-- How the operator is written. -/
def symbol : AssignOp → String
  | assign => "="
  | compound op => op.symbol ++ "="

end AssignOp

/-- Where `++` or `--` stands. -/
inductive Placement where
  | before
  | after
  deriving DecidableEq, Repr

/-- What `++` or `--` does. -/
inductive Direction where
  | up
  | down
  deriving DecidableEq, Repr

/-- Statements that leave the order of execution without a value. -/
inductive Jump where
  | breakLoop
  | continueLoop
  | discardFragment
  deriving DecidableEq, Repr

namespace Jump

/-- The keyword of a jump. -/
def keyword : Jump → String
  | breakLoop => "break"
  | continueLoop => "continue"
  | discardFragment => "discard"

end Jump

end ShaderLang
