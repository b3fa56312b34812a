/-
**Binding powers.**

How tightly an operator binds decides which operator an operand between two of them belongs to.

Main definitions:

* `ShaderLang.Power` — the levels, loosest first;
* `ShaderLang.Extension` — what can follow an operand and extend the expression;
* `ShaderLang.Extension.ofKind`, `ShaderLang.Extension.power` — by which token, and how tightly;
* `ShaderLang.Leading` — operators in front of an operand.
-/

import ShaderLang.Operator
import ShaderLang.Token

set_option relaxedAutoImplicit false
set_option autoImplicit false

namespace ShaderLang

/-- The levels, loosest first. -/
inductive Power where
  | default
  | comma
  | assignment
  | ternary
  | logicalOr
  | logicalAnd
  | bitOr
  | bitXor
  | bitAnd
  | equality
  | relational
  | shift
  | additive
  | multiplicative
  | unary
  | postfixed
  | primary
  deriving DecidableEq, Repr

/-- The place of a level, from loose to tight. -/
def Power.level (p : Power) : Nat := p.ctorIdx

/-- How tightly a binary operator binds. -/
def BinaryOp.power : BinaryOp → Power
  | .logicalOr => .logicalOr
  | .logicalAnd => .logicalAnd
  | .bitOr => .bitOr
  | .bitXor => .bitXor
  | .bitAnd => .bitAnd
  | .equal | .notEqual => .equality
  | .less | .greater | .lessEqual | .greaterEqual => .relational
  | .shiftLeft | .shiftRight => .shift
  | .add | .subtract => .additive
  | .multiply | .divide | .modulo => .multiplicative

/-- What can follow an operand and extend the expression. -/
inductive Extension where
  | binary (op : BinaryOp)
  | assign (op : AssignOp)
  | ternary
  | comma
  | step (direction : Direction)
  | element
  | call
  | field
  deriving DecidableEq, Repr

namespace Extension

/-- How tightly an extension binds. -/
def power : Extension → Power
  | binary op => op.power
  | assign _ => .assignment
  | ternary => .ternary
  | comma => .comma
  | step _ => .postfixed
  | element => .postfixed
  | call => .postfixed
  | field => .postfixed

/-- The extension that a mark begins. -/
def ofMark : Mark → Option Extension
  | .plus => some (binary .add)
  | .dash => some (binary .subtract)
  | .star => some (binary .multiply)
  | .slash => some (binary .divide)
  | .percent => some (binary .modulo)
  | .shiftLeft => some (binary .shiftLeft)
  | .shiftRight => some (binary .shiftRight)
  | .ampersand => some (binary .bitAnd)
  | .pipe => some (binary .bitOr)
  | .caret => some (binary .bitXor)
  | .less => some (binary .less)
  | .greater => some (binary .greater)
  | .lessEquals => some (binary .lessEqual)
  | .greaterEquals => some (binary .greaterEqual)
  | .equals => some (binary .equal)
  | .notEquals => some (binary .notEqual)
  | .and => some (binary .logicalAnd)
  | .or => some (binary .logicalOr)
  | .assignment => some (assign .assign)
  | .plusEquals => some (assign (.compound .add))
  | .minusEquals => some (assign (.compound .subtract))
  | .starEquals => some (assign (.compound .multiply))
  | .slashEquals => some (assign (.compound .divide))
  | .percentEquals => some (assign (.compound .modulo))
  | .shiftLeftEquals => some (assign (.compound .shiftLeft))
  | .shiftRightEquals => some (assign (.compound .shiftRight))
  | .ampersandEquals => some (assign (.compound .bitAnd))
  | .pipeEquals => some (assign (.compound .bitOr))
  | .caretEquals => some (assign (.compound .bitXor))
  | .question => some ternary
  | .comma => some comma
  | .plusPlus => some (step .up)
  | .minusMinus => some (step .down)
  | .openBracket => some element
  | .openParen => some call
  | .dot => some field
  | _ => none

/-- The extension that a token begins. -/
def ofKind : TokenKind → Option Extension
  | .mark m => ofMark m
  | _ => none

/-- The extension that a token begins, if it binds tighter than a level. -/
def above (level : Power) (kind : TokenKind) : Option Extension :=
  (ofKind kind).filter fun e => level.level < e.power.level

end Extension

/-- Operators in front of an operand. -/
inductive Leading where
  | unary (op : UnaryOp)
  | step (direction : Direction)
  deriving DecidableEq, Repr

namespace Leading

/-- The operator that a mark is. -/
def ofMark : Mark → Option Leading
  | .dash => some (unary .negate)
  | .plus => some (unary .plus)
  | .not => some (unary .logicalNot)
  | .tilde => some (unary .bitNot)
  | .plusPlus => some (step .up)
  | .minusMinus => some (step .down)
  | _ => none

end Leading

end ShaderLang
