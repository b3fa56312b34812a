/-
**The whole number that a constant is.**

A constant of either kind of integers is a whole number.  Read in the other kind it is the number of
that kind's range that is congruent modulo 2^64; what fits both ranges stays what it is.  A whole number
counts elements if it fits thirty-two bits.

Main definitions:

* `ShaderLang.Constant.whole` — the whole number that a constant is;
* `ShaderLang.NumericKind.wrap` — a number brought into the range of a kind.

Main results:

* `ShaderLang.Constant.whole_convert` — what a constant is when it is read in a kind of integers;
* `ShaderLang.Constant.count_of_whole` — what a constant counts.
-/

import ShaderLang.Constant

set_option relaxedAutoImplicit false
set_option autoImplicit false

namespace ShaderLang

/-- The number of the kind's range that is congruent modulo 2^64.  Doubles have no such range. -/
def NumericKind.wrap : NumericKind → Int → Int
  | signed, n => n.bmod UInt64.size
  | unsigned, n => n % UInt64.size
  | floating, n => n

namespace Constant

/-- The whole number that a constant is; a double is none. -/
def whole : Constant → Option Int
  | signed v => some v.toInt
  | unsigned v => some v.toNat
  | floating _ => none

theorem exists_whole {c : Constant} (h : c.kind ≠ .floating) : ∃ n, c.whole = some n := by
  cases c with
  | signed v => exact ⟨_, rfl⟩
  | unsigned v => exact ⟨_, rfl⟩
  | floating v => exact absurd rfl h

/-- A whole number counts elements if it fits thirty-two bits, and then as what it is. -/
theorem count_of_whole {c : Constant} {n : Int} (h : c.whole = some n) :
    if 0 ≤ n ∧ n < UInt32.size then ∃ k : UInt32, c.count = some k ∧ (k.toNat : Int) = n
    else c.count = none := by
  have hcount : c.count = countOfInt n := by
    cases c with
    | signed v =>
        obtain rfl := Option.some.inj h
        rfl
    | unsigned v =>
        obtain rfl := Option.some.inj h
        rfl
    | floating v => contradiction
  rw [hcount, countOfInt]
  split
  · next hn =>
      refine ⟨_, rfl, ?_⟩
      have hsize : (UInt32.size : Int) = 4294967296 := rfl
      rw [UInt32.toNat_ofNat', Nat.mod_eq_of_lt (by omega)]
      exact Int.toNat_of_nonneg hn.1
  · rfl

/-! ### Reading in another kind -/

/-- A signed number and the unsigned number with the same bits. -/
theorem toNat_toUInt64 (v : Int64) : (v.toUInt64.toNat : Int) = v.toInt % UInt64.size := by
  have hcond : v.toInt = if 2 * v.toUInt64.toNat < 2 ^ 64 then (v.toUInt64.toNat : Int)
      else v.toUInt64.toNat - (2 ^ 64 : Nat) := BitVec.toInt_eq_toNat_cond v.toBitVec
  have hlt := v.toUInt64.toNat_lt
  unfold UInt64.size
  split at hcond <;> omega

/-- An unsigned number and the signed number with the same bits. -/
theorem toInt_toInt64 (v : UInt64) : v.toInt64.toInt = (v.toNat : Int).bmod UInt64.size :=
  BitVec.toInt_eq_toNat_bmod v.toBitVec

/-- **A constant read in a kind of integers is brought into the range of the kind.** -/
theorem whole_convert {c : Constant} {k : NumericKind} {n : Int} (h : c.whole = some n)
    (hk : k ≠ .floating) : (c.convert k).whole = some (k.wrap n) := by
  cases c with
  | signed v =>
      obtain rfl := Option.some.inj h
      cases k with
      | signed => exact congrArg some (BitVec.toInt_bmod_cancel v.toBitVec).symm
      | unsigned => exact congrArg some (toNat_toUInt64 v)
      | floating => contradiction
  | unsigned v =>
      obtain rfl := Option.some.inj h
      cases k with
      | signed => exact congrArg some (toInt_toInt64 v)
      | unsigned =>
          have hlt := v.toNat_lt
          have hwrap : (v.toNat : Int) % UInt64.size = v.toNat := by
            unfold UInt64.size
            omega
          exact congrArg some hwrap.symm
      | floating => contradiction
  | floating v => contradiction

end Constant

end ShaderLang
