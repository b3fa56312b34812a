/-
**Constants.**

The value of a folded expression is a signed or unsigned integer of sixty-four bits or a double.
Truth values are the signed integers zero and one.  A value can be read in another kind: integers
keep their bits, a double loses its fraction and is brought into range, and no number becomes zero.

Main definitions:

* `ShaderLang.NumericKind`, `ShaderLang.Constant` — kinds of numbers and constants;
* `ShaderLang.Constant.convert` — reading a value in another kind;
* `ShaderLang.Constant.cast` — converting between base types;
* `ShaderLang.Constant.count` — a value as the number of elements of an array;
* `ShaderLang.Constant.text` — how a constant is written.

Main results:

* `ShaderLang.Constant.kind_convert` — the value has the kind that was asked for.
-/

import ShaderLang.Decimal.Notation
import ShaderLang.Operator
import ShaderLang.Types.Base

set_option relaxedAutoImplicit false
set_option autoImplicit false

namespace ShaderLang

/-- The kinds of numbers, lowest first; a mixed operation runs in the higher kind. -/
inductive NumericKind where
  | signed
  | unsigned
  | floating
  deriving DecidableEq, Repr

namespace NumericKind

/-- The base type that stands for a kind. -/
def baseType : NumericKind → BaseType
  | signed => .int
  | unsigned => .uint
  | floating => .float

/-- The higher of two kinds. -/
def higher : NumericKind → NumericKind → NumericKind
  | floating, _ => floating
  | _, floating => floating
  | unsigned, _ => unsigned
  | _, unsigned => unsigned
  | signed, signed => signed

@[simp] theorem higher_self (k : NumericKind) : higher k k = k := by
  cases k <;> rfl

theorem higher_comm (k l : NumericKind) : higher k l = higher l k := by
  cases k <;> cases l <;> rfl

end NumericKind

/-- The value of a folded expression. -/
inductive Constant where
  | signed (value : Int64)
  | unsigned (value : UInt64)
  | floating (value : Float)

namespace Constant

/-- A truth value. -/
def ofBool (b : Bool) : Constant := .signed (if b then 1 else 0)

/-- The kind of a constant. -/
def kind : Constant → NumericKind
  | signed _ => .signed
  | unsigned _ => .unsigned
  | floating _ => .floating

@[simp] theorem kind_ofBool (b : Bool) : (ofBool b).kind = .signed := rfl

/-- Everything but zero is true. -/
def isTrue : Constant → Bool
  | signed v => v != 0
  | unsigned v => v != 0
  | floating v => v != 0.0

/-- The value as a signed integer. -/
def toInt64 : Constant → Int64
  | signed v => v
  | unsigned v => v.toInt64
  | floating v => v.toInt64

/-- The value as an unsigned integer. -/
def toUInt64 : Constant → UInt64
  | signed v => v.toUInt64
  | unsigned v => v
  | floating v => v.toUInt64

/-- The value as a double. -/
def toFloat : Constant → Float
  | signed v => v.toFloat
  | unsigned v => v.toFloat
  | floating v => v

/-- A whole number that fits thirty-two bits. -/
def countOfInt (n : Int) : Option UInt32 :=
  if 0 ≤ n ∧ n < UInt32.size then some (UInt32.ofNat n.toNat) else none

/-- The value as the number of elements of an array; doubles never count. -/
def count : Constant → Option UInt32
  | signed v => countOfInt v.toInt
  | unsigned v => countOfInt v.toNat
  | floating _ => none

/-- The value read in another kind. -/
def convert (c : Constant) : NumericKind → Constant
  | .signed => .signed c.toInt64
  | .unsigned => .unsigned c.toUInt64
  | .floating => .floating c.toFloat

@[simp] theorem kind_convert (c : Constant) (k : NumericKind) : (c.convert k).kind = k := by
  cases k <;> rfl

@[simp] theorem convert_kind (c : Constant) : c.convert c.kind = c := by
  cases c <;> rfl

/-- The value as a number of the base type, which must be numeric. -/
def readAs (c : Constant) : BaseType → Option Constant
  | .bool => some (ofBool c.isTrue)
  | .int => some (c.convert .signed)
  | .uint => some (c.convert .unsigned)
  | .half | .float | .double => some (c.convert .floating)
  | _ => none

/-- Conversion between base types: the value is read in the first and the result in the second. -/
def cast (c : Constant) (source target : BaseType) : Option Constant :=
  (c.readAs source).bind fun value => value.readAs target

/-- How a constant is written; an unsigned integer shows its suffix. -/
def text : Constant → String
  | signed v => toString v.toInt
  | unsigned v => toString v.toNat ++ "u"
  | floating v => floatText v

end Constant

end ShaderLang
