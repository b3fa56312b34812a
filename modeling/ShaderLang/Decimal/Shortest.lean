/-
**The shortest decimal that reads back.**

Every real number near a double rounds to it: the reals between the midpoints to its neighbours, the
midpoints themselves only when its significand is even.  Of the decimals in that interval the one
with the fewest digits names the double; of several, the nearest; of two equally near, the greater.

Main definitions:

* `ShaderLang.Decimal` — a whole number times a power of ten;
* `ShaderLang.Decimal.shortest` — the decimal that names a positive double, given by its significand
  and its power of two.
-/

import ShaderLang.Binary64

set_option relaxedAutoImplicit false
set_option autoImplicit false

namespace ShaderLang

/-- The number `significand * 10 ^ exponent`. -/
structure Decimal where
  significand : Nat
  exponent : Int
  deriving DecidableEq, Repr

namespace Decimal

/-- The number of decimal digits of a whole number; zero has none. -/
def digitCount (n : Nat) : Nat := if n = 0 then 0 else (Nat.toDigits 10 n).length

/-- A double's value and the midpoints to its neighbours, as fractions with one denominator. -/
structure Interval where
  lower : Nat
  value : Nat
  upper : Nat
  denominator : Nat
  /-- The ends belong to the interval. -/
  closed : Bool

/-- The reals that round to `significand * 2 ^ exponent`.  Below a power of two the neighbour is
only half as far away. -/
def Interval.ofParts (significand : Nat) (exponent : Int) : Interval :=
  let scale := Nat.pow 2 (exponent - 2).toNat
  let narrow := significand = Binary64.hiddenBit && exponent > Binary64.leastExponent
  { lower := (4 * significand - if narrow then 1 else 2) * scale
    value := 4 * significand * scale
    upper := (4 * significand + 2) * scale
    denominator := Nat.pow 2 (2 - exponent).toNat
    closed := significand % 2 = 0 }

namespace Interval

/-- The `k` with `10 ^ (k - 1) ≤ value < 10 ^ k`. -/
def magnitude (i : Interval) : Int :=
  if i.denominator ≤ i.value then digitCount (i.value / i.denominator)
  else 1 - digitCount ((i.denominator - 1) / i.value)

/-- The decimal lies in the interval. -/
def contains (i : Interval) (d : Decimal) : Bool :=
  let number := d.significand * Nat.pow 10 d.exponent.toNat * i.denominator
  let unit := Nat.pow 10 (-d.exponent).toNat
  if i.closed then i.lower * unit ≤ number && number ≤ i.upper * unit
  else i.lower * unit < number && number < i.upper * unit

/-- The decimals next to the value among the whole multiples of `10 ^ exponent`. -/
def neighbours (i : Interval) (exponent : Int) : Decimal × Decimal :=
  let below :=
    i.value * Nat.pow 10 (-exponent).toNat / (i.denominator * Nat.pow 10 exponent.toNat)
  (⟨below, exponent⟩, ⟨below + 1, exponent⟩)

/-- The value lies nearer to the smaller of its neighbours than to the greater. -/
def nearerBelow (i : Interval) (exponent : Int) : Bool :=
  let grid := i.denominator * Nat.pow 10 exponent.toNat
  2 * (i.value * Nat.pow 10 (-exponent).toNat % grid) < grid

/-- The multiple of `10 ^ exponent` that names the value, if there is one. -/
def candidate (i : Interval) (exponent : Int) : Option Decimal :=
  let (below, above) := i.neighbours exponent
  match i.contains below, i.contains above with
  | true, true => some (if i.nearerBelow exponent then below else above)
  | true, false => some below
  | false, true => some above
  | false, false => none

end Interval

/-- Seventeen digits name every double. -/
def mostDigits : Nat := 17

/-- The decimal that names the double `significand * 2 ^ exponent`, which must be positive. -/
def shortest (significand : Nat) (exponent : Int) : Decimal :=
  let i := Interval.ofParts significand exponent
  let k := i.magnitude
  ((List.range mostDigits).findSome? fun n : Nat => i.candidate (k - (n + 1 : Nat))).getD
    (i.neighbours (k - mostDigits)).1

example : shortest (3 * Nat.pow 2 51) (-52) = ⟨15, -1⟩ := by decide +kernel

example : shortest 1 Binary64.leastExponent = ⟨5, -324⟩ := by decide +kernel

/-- Two to the power of minus twenty-five lies midway between two decimals of seventeen digits. -/
example : shortest (Nat.pow 2 52) (-77) = ⟨29802322387695313, -24⟩ := by decide +kernel

end Decimal

end ShaderLang
