/-
**Reading a decimal fraction.**

A decimal fraction is an optional sign and either a name of a special number, in any case of
letters, or digits with at most one point among or beside them and an optional exponent.  It is read
as the double nearest to the number it spells.

Main definitions:

* `ShaderLang.Decimal.toFloat` — the double nearest to a decimal;
* `ShaderLang.Decimal.readUnsigned` — digits, point and exponent;
* `ShaderLang.readFloat` — the double that a text spells.
-/

import ShaderLang.Decimal.Shortest
import ShaderLang.Text.Digit

set_option relaxedAutoImplicit false
set_option autoImplicit false

namespace ShaderLang

open Text

namespace Decimal

/-- A positive decimal of at least ten to this power lies above every finite double, and one below
ten to its opposite rounds to zero. -/
def exponentBound : Int := 400

/-- The double nearest to a decimal. -/
def toFloat (d : Decimal) : Float :=
  if d.significand = 0 then 0.0
  else if d.exponent > exponentBound then Binary64.infinity
  else if d.exponent + digitCount d.significand < -exponentBound then 0.0
  else Float.ofScientific d.significand (d.exponent < 0) d.exponent.natAbs

/-- A sign in front and what it is in front of; no sign counts as plus. -/
def splitSign : List Char → Bool × List Char
  | '+' :: cs => (false, cs)
  | '-' :: cs => (true, cs)
  | cs => (false, cs)

/-- The number after the letter of an exponent: an optional sign and at least one digit. -/
def readExponent (cs : List Char) : Option Int :=
  let (negative, digits) := splitSign cs
  if digits.isEmpty then none
  else (positional 10 digits).map fun n => if negative then -(n : Int) else n

/-- What stands behind the digits: nothing, or an exponent. -/
def readTail : List Char → Option Int
  | [] => some 0
  | 'e' :: cs => readExponent cs
  | 'E' :: cs => readExponent cs
  | _ => none

/-- Digits, at most one point, at least one digit beside it, and an optional exponent. -/
def readUnsigned (cs : List Char) : Option Decimal :=
  let whole := cs.takeWhile isDecimal
  let rest := cs.dropWhile isDecimal
  let (fraction, tail) :=
    match rest with
    | '.' :: cs => (cs.takeWhile isDecimal, cs.dropWhile isDecimal)
    | _ => ([], rest)
  if whole.isEmpty && fraction.isEmpty then none
  else
    match positional 10 (whole ++ fraction), readTail tail with
    | some significand, some exponent => some ⟨significand, exponent - fraction.length⟩
    | _, _ => none

example : readUnsigned ['1', '.', 'e', '-', '2'] = some ⟨1, -2⟩ := by decide

example : readUnsigned ['.'] = none := by decide

end Decimal

/-- The double that an unsigned text spells. -/
def readMagnitude (cs : List Char) : Option Float :=
  match cs.map Char.toLower with
  | ['i', 'n', 'f'] | ['i', 'n', 'f', 'i', 'n', 'i', 't', 'y'] => some Binary64.infinity
  | ['n', 'a', 'n'] => some Binary64.notANumber
  | _ => (Decimal.readUnsigned cs).map Decimal.toFloat

/-- The double that a text spells. -/
def readFloat (cs : List Char) : Option Float :=
  let (negative, magnitude) := Decimal.splitSign cs
  (readMagnitude magnitude).map fun x => if negative then -x else x

end ShaderLang
