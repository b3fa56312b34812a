/-
**Arithmetic on constants.**

A binary operator runs in the higher kind of its operands.  Integers wrap around at sixty-four bits;
shifts take their amount modulo sixty-four.  Comparisons and logical operators give a truth value.
No value belongs to an integer division by zero, to the one signed quotient that does not fit, and
to an operator on bits between doubles.

Main definitions:

* `ShaderLang.Constant.applyUnary`, `ShaderLang.Constant.apply` — operators on constants;
* `ShaderLang.Constant.step` — one more or one less.
-/

import ShaderLang.Constant

set_option relaxedAutoImplicit false
set_option autoImplicit false

namespace ShaderLang.Constant

/-- One more or one less, in the kind of the value. -/
def step (c : Constant) (d : Direction) : Constant :=
  match c, d with
  | signed v, .up => .signed (v + 1)
  | signed v, .down => .signed (v - 1)
  | unsigned v, .up => .unsigned (v + 1)
  | unsigned v, .down => .unsigned (v - 1)
  | floating v, .up => .floating (v + 1.0)
  | floating v, .down => .floating (v - 1.0)

@[simp] theorem kind_step (c : Constant) (d : Direction) : (c.step d).kind = c.kind := by
  cases c <;> cases d <;> rfl

/-- An operator in front of a value. -/
def applyUnary (c : Constant) (op : UnaryOp) : Option Constant :=
  match op, c with
  | .plus, c => some c
  | .logicalNot, c => some (ofBool !c.isTrue)
  | .negate, signed v => some (.signed (-v))
  | .negate, unsigned v => some (.unsigned (-v))
  | .negate, floating v => some (.floating (-v))
  | .bitNot, signed v => some (.signed (~~~v))
  | .bitNot, unsigned v => some (.unsigned (~~~v))
  | .bitNot, floating _ => none

/-! ### Integers and doubles -/

/-- The operators on signed integers that give a signed integer. -/
def applySigned (op : BinaryOp) (a b : Int64) : Option Int64 :=
  match op with
  | .add => some (a + b)
  | .subtract => some (a - b)
  | .multiply => some (a * b)
  | .divide => if b = 0 ∨ (a = Int64.minValue ∧ b = -1) then none else some (a / b)
  | .modulo => if b = 0 ∨ (a = Int64.minValue ∧ b = -1) then none else some (a % b)
  | .shiftLeft => some (a <<< b)
  | .shiftRight => some (a >>> b)
  | .bitAnd => some (a &&& b)
  | .bitOr => some (a ||| b)
  | .bitXor => some (a ^^^ b)
  | _ => none

/-- The operators on unsigned integers that give an unsigned integer. -/
def applyUnsigned (op : BinaryOp) (a b : UInt64) : Option UInt64 :=
  match op with
  | .add => some (a + b)
  | .subtract => some (a - b)
  | .multiply => some (a * b)
  | .divide => if b = 0 then none else some (a / b)
  | .modulo => if b = 0 then none else some (a % b)
  | .shiftLeft => some (a <<< b)
  | .shiftRight => some (a >>> b)
  | .bitAnd => some (a &&& b)
  | .bitOr => some (a ||| b)
  | .bitXor => some (a ^^^ b)
  | _ => none

/-- The operators on doubles that give a double. -/
def applyFloating (op : BinaryOp) (a b : Float) : Option Float :=
  match op with
  | .add => some (a + b)
  | .subtract => some (a - b)
  | .multiply => some (a * b)
  | .divide => some (a / b)
  | .modulo => some (Binary64.remainder a b)
  | _ => none

/-! ### Comparison -/

/-- The order of two doubles; nothing compares with what is no number. -/
def compareFloating (a b : Float) : Option Ordering :=
  if a < b then some .lt else if a == b then some .eq else if b < a then some .gt else none

/-- The order of two constants of one kind. -/
def order : Constant → Constant → Option Ordering
  | signed a, signed b => some (compareOfLessAndEq a b)
  | unsigned a, unsigned b => some (compareOfLessAndEq a b)
  | floating a, floating b => compareFloating a b
  | _, _ => none

/-- Whether a comparison holds of two values in the given order. -/
def comparisonHolds (op : BinaryOp) (o : Option Ordering) : Bool :=
  match op with
  | .less => o == some .lt
  | .greater => o == some .gt
  | .lessEqual => o == some .lt || o == some .eq
  | .greaterEqual => o == some .gt || o == some .eq
  | .equal => o == some .eq
  | _ => o != some .eq

/-! ### Binary operators -/

/-- The operators that give a number, on two constants of one kind. -/
def applyAlike (op : BinaryOp) : Constant → Constant → Option Constant
  | signed a, signed b => (applySigned op a b).map .signed
  | unsigned a, unsigned b => (applyUnsigned op a b).map .unsigned
  | floating a, floating b => (applyFloating op a b).map .floating
  | _, _ => none

/-- A binary operator on two constants. -/
def apply (op : BinaryOp) (a b : Constant) : Option Constant :=
  match op with
  | .logicalAnd => some (ofBool (a.isTrue && b.isTrue))
  | .logicalOr => some (ofBool (a.isTrue || b.isTrue))
  | op =>
      let kind := a.kind.higher b.kind
      let a := a.convert kind
      let b := b.convert kind
      if op.isComparison then some (ofBool (comparisonHolds op (order a b)))
      else applyAlike op a b

end ShaderLang.Constant
