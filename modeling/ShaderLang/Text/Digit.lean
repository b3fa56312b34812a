/-
**Digits.**

Letters and digits as they occur in names and numbers, and the number that a run of digits spells in
a base.

Main definitions:

* `ShaderLang.Text.digitValue` — the value of a hexadecimal digit;
* `ShaderLang.Text.positional` — the number that digits spell, `none` as soon as one of them does
  not belong to the base.

Main results:

* `ShaderLang.Text.positional_append_singleton` — one more digit multiplies by the base and adds.
-/

set_option relaxedAutoImplicit false
set_option autoImplicit false

namespace ShaderLang.Text

/-- The digits `0` to `9`. -/
def isDecimal (c : Char) : Bool := '0' ≤ c && c ≤ '9'

/-- The digits `0` to `9` and the letters `a` to `f` in either case. -/
def isHexadecimal (c : Char) : Bool :=
  isDecimal c || ('a' ≤ c && c ≤ 'f') || ('A' ≤ c && c ≤ 'F')

/-- The letters `a` to `z` in either case. -/
def isLetter (c : Char) : Bool := ('a' ≤ c && c ≤ 'z') || ('A' ≤ c && c ≤ 'Z')

/-- A name begins with a letter or a low line. -/
def startsName (c : Char) : Bool := isLetter c || c == '_'

/-- A name goes on with letters, low lines and digits. -/
def continuesName (c : Char) : Bool := startsName c || isDecimal c

/-- The value of a hexadecimal digit. -/
def digitValue (c : Char) : Option Nat :=
  if isDecimal c then some (c.toNat - '0'.toNat)
  else if 'a' ≤ c && c ≤ 'f' then some (c.toNat - 'a'.toNat + 10)
  else if 'A' ≤ c && c ≤ 'F' then some (c.toNat - 'A'.toNat + 10)
  else none

/-- The value of a digit of the given base. -/
def digitIn (base : Nat) (c : Char) : Option Nat :=
  (digitValue c).filter (· < base)

/-- One more digit behind those read so far. -/
def appendDigit (base : Nat) (value : Option Nat) (c : Char) : Option Nat :=
  match value, digitIn base c with
  | some v, some d => some (v * base + d)
  | _, _ => none

/-- The number that the digits spell in the base; no digits spell zero. -/
def positional (base : Nat) (digits : List Char) : Option Nat :=
  digits.foldl (appendDigit base) (some 0)

@[simp] theorem positional_nil (base : Nat) : positional base [] = some 0 := rfl

theorem positional_append_singleton (base : Nat) (digits : List Char) (c : Char) :
    positional base (digits ++ [c]) = appendDigit base (positional base digits) c := by
  simp [positional]

example : positional 16 ['f', 'F'] = some 255 ∧ positional 8 ['9'] = none := by decide

end ShaderLang.Text
