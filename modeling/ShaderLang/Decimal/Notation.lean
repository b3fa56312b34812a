/-
**The text of a floating-point number.**

A double is written with the fewest digits that read back.  Zero and numbers from 0.0001 up to 10^16
are positional and always show a point, with a zero where no digit stands beside it; all others are
scientific, the exponent bare of plus signs and leading zeros.

Main definitions:

* `ShaderLang.Decimal.positionalText`, `ShaderLang.Decimal.scientificText` — the two notations;
* `ShaderLang.Decimal.text` — the text of a positive decimal;
* `ShaderLang.floatText` — the text of a double.
-/

import ShaderLang.Decimal.Shortest

set_option relaxedAutoImplicit false
set_option autoImplicit false

namespace ShaderLang

namespace Decimal

/-- The digits, without zeros at the end. -/
def digits (d : Decimal) : List Char :=
  ((Nat.toDigits 10 d.significand).reverse.dropWhile (· == '0')).reverse

/-- How many places the point stands behind the first digit's left edge. -/
def pointAt (d : Decimal) : Int :=
  (Nat.toDigits 10 d.significand).length + d.exponent

/-- Positional notation. -/
def positionalText (digits : List Char) (point : Int) : String :=
  if point ≤ 0 then
    "0." ++ String.ofList (List.replicate (-point).toNat '0' ++ digits)
  else
    let whole := digits.take point.toNat ++ List.replicate (point.toNat - digits.length) '0'
    let fraction := digits.drop point.toNat
    String.ofList whole ++ "." ++ String.ofList (if fraction.isEmpty then ['0'] else fraction)

/-- Scientific notation. -/
def scientificText (digits : List Char) (point : Int) : String :=
  let fraction := digits.drop 1
  String.ofList (digits.take 1)
    ++ (if fraction.isEmpty then "" else "." ++ String.ofList fraction)
    ++ "e" ++ toString (point - 1)

/-- The text of a positive decimal. -/
def text (d : Decimal) : String :=
  if -3 ≤ d.pointAt ∧ d.pointAt ≤ 16 then positionalText d.digits d.pointAt
  else scientificText d.digits d.pointAt

example : text ⟨1, -4⟩ = "0.0001" ∧ text ⟨9999, -8⟩ = "9.999e-5" := by decide +kernel

example : text ⟨1, 15⟩ = "1000000000000000.0" ∧ text ⟨1, 16⟩ = "1e16" := by decide +kernel

end Decimal

/-- The text of a double. -/
def floatText (x : Float) : String :=
  match Binary64.parts x with
  | .nan => "NaN"
  | .infinite negative => if negative then "-inf" else "inf"
  | .finite negative significand exponent =>
      let magnitude :=
        if significand = 0 then "0.0" else (Decimal.shortest significand exponent).text
      if negative then "-" ++ magnitude else magnitude

end ShaderLang
