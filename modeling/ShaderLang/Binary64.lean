/-
**Binary floating point, taken apart.**

A finite double is a sign, a whole number below 2^53 and a power of two.  On these parts the
remainder of a division is an exact computation with whole numbers.

Main definitions:

* `ShaderLang.Binary64.Parts`, `ShaderLang.Binary64.parts` — what a double consists of;
* `ShaderLang.Binary64.remainder` — what is left of the dividend after taking the divisor away as
  often as possible, with the dividend's sign.
-/

set_option relaxedAutoImplicit false
set_option autoImplicit false

namespace ShaderLang.Binary64

/-- What a double consists of: no number, an infinity, or a sign and `significand * 2 ^ exponent`. -/
inductive Parts where
  | nan
  | infinite (negative : Bool)
  | finite (negative : Bool) (significand : Nat) (exponent : Int)
  deriving DecidableEq, Repr

/-- The exponent of the smallest positive double. -/
def leastExponent : Int := -1074

/-- The significands of normal doubles start here. -/
def hiddenBit : Nat := Nat.pow 2 52

/-- There are so many exponents; the greatest is left to infinities and to what is no number. -/
def biasedExponents : Nat := Nat.pow 2 11

/-- The parts of the double with the given bits. -/
def partsOfBits (bits : Nat) : Parts :=
  let biased : Nat := bits / hiddenBit % biasedExponents
  let negative := bits / (hiddenBit * biasedExponents) % 2 == 1
  let fraction := bits % hiddenBit
  if biased = biasedExponents - 1 then
    if fraction = 0 then .infinite negative else .nan
  else if biased = 0 then .finite negative fraction leastExponent
  else .finite negative (hiddenBit + fraction) (leastExponent + ((biased - 1 : Nat) : Int))

/-- The parts of a double. -/
def parts (x : Float) : Parts := partsOfBits x.toBits.toNat

example : partsOfBits 0x3ff8000000000000 = .finite false (3 * Nat.pow 2 51) (-52) := by decide

example : partsOfBits 1 = .finite false 1 leastExponent := by decide

/-- The infinite double. -/
def infinity : Float := Float.ofBits 0x7ff0000000000000

/-- The double that is no number. -/
def notANumber : Float := Float.ofBits 0x7ff8000000000000

/-- The double with the given parts, which must be exact. -/
def ofParts (negative : Bool) (significand : Nat) (exponent : Int) : Float :=
  let magnitude := (Float.ofNat significand).scaleB exponent
  if negative then -magnitude else magnitude

/-- The remainder of two whole multiples of powers of two, as a multiple of the smaller power. -/
def remainderParts (m : Nat) (p : Int) (n : Nat) (q : Int) : Nat × Int :=
  let e := min p q
  (m * Nat.pow 2 (p - e).toNat % (n * Nat.pow 2 (q - e).toNat), e)

/-- The remainder of a division that rounds toward zero; it has the sign of the dividend. -/
def remainder (x y : Float) : Float :=
  match parts x, parts y with
  | .finite _ _ _, .infinite _ => x
  | .finite negative m p, .finite _ n q =>
      if n = 0 then notANumber
      else
        let r := remainderParts m p n q
        ofParts negative r.1 r.2
  | _, _ => notANumber

end ShaderLang.Binary64
