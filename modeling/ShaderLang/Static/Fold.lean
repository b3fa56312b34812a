/-
**Constant folding.**

An expression of literals, operators, conversions and assignments has a value that does not depend
on a run of the program.  Names, fields, calls and indexing have none.  Both `++` and `--` leave no
trace: placed before their operand they give the changed value, placed after it the old one.

Main definitions:

* `ShaderLang.Arena.fetch` — a node, in a walk;
* `ShaderLang.Arena.foldNode` — the value of a node from the values of its operands;
* `ShaderLang.Arena.fold` — the value of an expression.
-/

import ShaderLang.Arena
import ShaderLang.Constant.Arithmetic
import ShaderLang.Constant.Literal

set_option relaxedAutoImplicit false
set_option autoImplicit false

namespace ShaderLang.Arena

/-- The node with a number. -/
def fetch (a : Arena) (id : NodeId) : Walk Node := OptionT.mk ((a.get id).map some)

/-- The value of a conversion to a type, which must be a scalar. -/
def foldConversion (value : NodeId → Walk Constant) (type : DataType) (operand : NodeId) :
    Walk Constant := do
  if type.isScalar then
    let c ← value operand
    Walk.ofOption (type.baseType.bind fun target => c.cast c.kind.baseType target)
  else failure

/-- The one argument of a conversion that is written as a call. -/
def soleArgument : Node → Option NodeId
  | .link .arguments none item => some item
  | _ => none

/-- The value that an assignment gives: the right side, combined with the left one by a compound
operator, in the kind of the left one. -/
def assigned (op : AssignOp) (target value : Constant) : Option Constant :=
  match op with
  | .assign => some (value.convert target.kind)
  | .compound op =>
      (Constant.apply op target (value.convert target.kind)).map fun c => c.convert target.kind

/-- The value of a node, from the values of its operands. -/
def foldNode (a : Arena) (value : NodeId → Walk Constant) : Node → Walk Constant
  | .int bits isUnsigned => pure (IntegerLiteral.constant ⟨bits, isUnsigned⟩)
  | .float x => pure (.floating x)
  | .bool b => pure (.ofBool b)
  | .step .before direction operand => do
      let c ← value operand
      pure (c.step direction)
  | .step .after _ operand => value operand
  | .unary op operand => do
      let c ← value operand
      Walk.ofOption (c.applyUnary op)
  | .cast type operand => foldConversion value type operand
  | .construct type (some arguments) => do
      if type.isScalar then
        match soleArgument (← a.fetch arguments) with
        | some argument => foldConversion value type argument
        | none => failure
      else failure
  | .binary op left right => do
      let l ← value left
      let r ← value right
      Walk.ofOption (Constant.apply op l r)
  | .ternary condition yes no => do
      let c ← value condition
      if c.isTrue then value yes else value no
  | .assign op target right => do
      let v ← value right
      let t ← value target
      Walk.ofOption (assigned op t v)
  | .comma _ right => value right
  | _ => failure

/-- The value of an expression, looking at most `fuel` nodes deep. -/
def foldWithin (a : Arena) : Nat → NodeId → Walk Constant
  | 0, _ => Walk.fault .endless
  | fuel + 1, id => do
      let node ← a.fetch id
      a.foldNode (a.foldWithin fuel) node

/-- The value of an expression. -/
def fold (a : Arena) (id : NodeId) : Except Fault (Option Constant) :=
  (a.foldWithin a.walkLength id).run

end ShaderLang.Arena
