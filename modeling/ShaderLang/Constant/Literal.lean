/-
**Number literals.**

An integer literal is written in decimal, in hexadecimal behind `0x`, or in octal behind a leading
zero; any of the letters `u` and `l` may stand at its end, and a `u` among them makes it unsigned.
A floating-point literal may end in any of the letters `f` and `h`, which say nothing about its
value.

Main definitions:

* `ShaderLang.IntegerLiteral`, `ShaderLang.IntegerLiteral.ofText` — reading an integer literal;
* `ShaderLang.floatLiteral` — reading a floating-point literal.
-/

import ShaderLang.Constant
import ShaderLang.Decimal.Reading
import ShaderLang.Text.Blank
import ShaderLang.Text.Digit

set_option relaxedAutoImplicit false
set_option autoImplicit false

namespace ShaderLang

open Text

/-- The value of an integer literal and whether it is unsigned. -/
structure IntegerLiteral where
  value : UInt64
  isUnsigned : Bool
  deriving DecidableEq, Repr

namespace IntegerLiteral

/-- The letters of an integer literal's suffix. -/
def isSuffix (c : Char) : Bool := ['u', 'U', 'l', 'L'].contains c

/-- The letters that make a literal unsigned. -/
def marksUnsigned (c : Char) : Bool := ['u', 'U'].contains c

/-- A number below 2^64, at least one digit long; one plus sign may stand in front of it. -/
def readNumber (base : Nat) (cs : List Char) : Option UInt64 :=
  let digits :=
    match cs with
    | '+' :: rest => rest
    | _ => cs
  if digits.isEmpty then none
  else
    match positional base digits with
    | some n => if n < UInt64.size then some (UInt64.ofNat n) else none
    | none => none

/-- The number of a literal without its suffix, in the base that its front shows. -/
def readDigits : List Char → Option UInt64
  | '0' :: 'x' :: digits => readNumber 16 digits
  | '0' :: 'X' :: digits => readNumber 16 digits
  | '0' :: c :: digits => readNumber 8 (c :: digits)
  | digits => readNumber 10 digits

/-- Reads an integer literal. -/
def ofText (text : String) : Option IntegerLiteral :=
  let cs := text.toList
  (readDigits (trimEnd isSuffix cs)).map fun value =>
    ⟨value, (endRun isSuffix cs).any marksUnsigned⟩

/-- The constant that a literal stands for; a signed literal keeps the bits of its value. -/
def constant (l : IntegerLiteral) : Constant :=
  if l.isUnsigned then .unsigned l.value else .signed l.value.toInt64

example : ofText "0xFFuL" = some ⟨255, true⟩ ∧ ofText "010" = some ⟨8, false⟩ := by
  decide +kernel

example : ofText "09" = none ∧ ofText "18446744073709551616" = none := by decide +kernel

end IntegerLiteral

/-- The letters of a floating-point literal's suffix. -/
def isFloatSuffix (c : Char) : Bool := ['f', 'F', 'h', 'H'].contains c

/-- Reads a floating-point literal. -/
def floatLiteral (text : String) : Option Float := readFloat (trimEnd isFloatSuffix text.toList)

end ShaderLang
