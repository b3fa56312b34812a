/-
**Arithmetic on constants is arithmetic on whole numbers.**

An operator on two integer constants reads both in the higher of their kinds and computes with what they
are there.  Sums, differences, products, operations on bits and shifts to the left have their exact
result cut to sixty-four bits.  Quotients and remainders, cut off toward zero, shifts to the right, which
divide by a power of two and round down, and comparisons are exact.  Only two things have no value: a
division by zero, and the one signed quotient that is out of range.  Between doubles only the operators
on bits have none.

Both kinds of integers share one argument.  On sixty-four bits the operators whose result is cut off do
not know of signs, and the last bits of a sum, a product or a number put together bit by bit come from
the last bits of its operands.

Main definitions:

* `ShaderLang.BinaryOp.exact` — the operators whose result is cut off, on whole numbers;
* `ShaderLang.BinaryOp.compares` — the comparisons of whole numbers;
* `ShaderLang.Constant.Congruent` — a constant of a kind that is a number up to multiples of 2^64;
* `ShaderLang.Constant.Computes` — what the operators give on two constants that are read as two numbers;
* `ShaderLang.Constant.Alike` — two constants of one kind of integers, and the numbers that they are.

Main results:

* `ShaderLang.Bits.ofInt_bitwise` — operations on bits look at one place at a time;
* `ShaderLang.Constant.ofInt_exact` — an exact result on its last bits;
* `ShaderLang.Constant.Alike.exists_applyAlike`, `ShaderLang.Constant.Alike.of_divide`,
  `ShaderLang.Constant.Alike.exists_shiftRight`, `ShaderLang.Constant.Alike.order_eq` — the operators on
  constants of one kind;
* `ShaderLang.Constant.apply_exact` — **arithmetic on constants is exact**.
-/

import Mathlib.Data.Int.Bitwise
import Mathlib.Data.Int.ModEq
import ShaderLang.Constant.Arithmetic
import ShaderLang.Proofs.Constant.Whole

set_option relaxedAutoImplicit false
set_option autoImplicit false

namespace ShaderLang

/-! ### The last sixty-four bits of a whole number -/

namespace Bits

/-- The last bits of a whole number are its bits in two's complement. -/
theorem getLsbD_ofInt (w : Nat) (n : Int) (i : Nat) :
    (BitVec.ofInt w n).getLsbD i = (decide (i < w) && n.testBit i) := by
  cases n with
  | ofNat m =>
      rw [Int.ofNat_eq_natCast, BitVec.ofInt_natCast, BitVec.getLsbD_ofNat]
      rfl
  | negSucc m =>
      rw [BitVec.ofInt_negSucc_eq_not_ofNat, BitVec.getLsbD_not, BitVec.getLsbD_ofNat]
      by_cases hi : i < w <;> simp [hi, Int.testBit]

variable (x y : Int)

theorem ofInt_sub : BitVec.ofInt 64 (x - y) = BitVec.ofInt 64 x - BitVec.ofInt 64 y := by
  rw [Int.sub_eq_add_neg, BitVec.ofInt_add, BitVec.ofInt_neg, BitVec.sub_eq_add_neg]

variable {x y} in
/-- An operation on the bits of whole numbers is the same operation on their last bits. -/
theorem ofInt_bitwise {z : Int} {v : BitVec 64} {g : Bool → Bool → Bool}
    (hz : ∀ i, z.testBit i = g (x.testBit i) (y.testBit i))
    (hv : ∀ i, v.getLsbD i = g ((BitVec.ofInt 64 x).getLsbD i) ((BitVec.ofInt 64 y).getLsbD i)) :
    BitVec.ofInt 64 z = v := by
  apply BitVec.eq_of_getLsbD_eq
  intro i hi
  simp only [hv, getLsbD_ofInt, hz, hi, decide_true, Bool.true_and]

theorem ofInt_land : BitVec.ofInt 64 (x.land y) = BitVec.ofInt 64 x &&& BitVec.ofInt 64 y :=
  ofInt_bitwise (Int.testBit_land x y) fun _ => BitVec.getLsbD_and

theorem ofInt_lor : BitVec.ofInt 64 (x.lor y) = BitVec.ofInt 64 x ||| BitVec.ofInt 64 y :=
  ofInt_bitwise (Int.testBit_lor x y) fun _ => BitVec.getLsbD_or

theorem ofInt_xor : BitVec.ofInt 64 (x.xor y) = BitVec.ofInt 64 x ^^^ BitVec.ofInt 64 y :=
  ofInt_bitwise (Int.testBit_lxor x y) fun _ => BitVec.getLsbD_xor

/-- A shift to the left is a multiplication. -/
theorem ofInt_mul_two_pow (n : Nat) : BitVec.ofInt 64 (x * 2 ^ n) = BitVec.ofInt 64 x <<< n := by
  have hpow : BitVec.ofInt 64 (2 ^ n) = BitVec.twoPow 64 n := by
    have hcast : (2 ^ n : Int) = ((2 ^ n : Nat) : Int) := by simp
    apply BitVec.eq_of_toNat_eq
    rw [hcast, BitVec.ofInt_natCast, BitVec.toNat_ofNat, BitVec.toNat_twoPow]
  rw [BitVec.ofInt_mul, hpow, BitVec.shiftLeft_eq_mul_twoPow]

/-- The amount of a shift, from a signed number. -/
theorem toNat_smod (b : BitVec 64) : (b.smod 64).toNat = (b.toInt % 64).toNat := by
  have hmod : (b.smod 64).toInt = b.toInt % 64 := by
    rw [BitVec.toInt_smod]
    exact Int.fmod_eq_emod_of_nonneg _ (by decide)
  have hcond := BitVec.toInt_eq_toNat_cond (b.smod 64)
  have hlt := (b.smod 64).isLt
  split at hcond <;> omega

/-- The amount of a shift, from an unsigned number. -/
theorem toNat_umod (b : BitVec 64) : (b % 64).toNat = ((b.toNat : Int) % 64).toNat := by
  rw [BitVec.toNat_umod]
  change b.toNat % 64 = _
  omega

end Bits

/-! ### Operators on whole numbers -/

namespace BinaryOp

/-- The operators whose result is cut to sixty-four bits, on whole numbers.  The bits of a whole number
are those of two's complement, and an amount of bits is taken modulo sixty-four. -/
def exact : BinaryOp → Option (Int → Int → Int)
  | add => some fun x y => x + y
  | subtract => some fun x y => x - y
  | multiply => some fun x y => x * y
  | shiftLeft => some fun x y => x * 2 ^ (y % 64).toNat
  | bitAnd => some Int.land
  | bitOr => some Int.lor
  | bitXor => some Int.xor
  | _ => none

/-- The comparisons of whole numbers. -/
def compares : BinaryOp → Option (Int → Int → Bool)
  | less => some fun x y => decide (x < y)
  | greater => some fun x y => decide (y < x)
  | lessEqual => some fun x y => decide (x ≤ y)
  | greaterEqual => some fun x y => decide (y ≤ x)
  | equal => some fun x y => decide (x = y)
  | notEqual => some fun x y => decide (x ≠ y)
  | _ => none

end BinaryOp

namespace Constant

/-- The constant has the kind, and is the number up to multiples of 2^64. -/
def Congruent (k : NumericKind) (n : Int) (c : Constant) : Prop :=
  c.kind = k ∧ ∃ z, c.whole = some z ∧ z ≡ n [ZMOD UInt64.size]

/-- What the operators give on two constants that are read as `x` and `y` in the kind `k`. -/
structure Computes (k : NumericKind) (a b : Constant) (x y : Int) : Prop where
  isNone_iff (op : BinaryOp) : apply op a b = none ↔ (op = .divide ∨ op = .modulo) ∧
    (y = 0 ∨ k = .signed ∧ x = Int64.minValue.toInt ∧ y = -1)
  congruent {op : BinaryOp} {f : Int → Int → Int} (h : op.exact = some f) :
    ∃ c, apply op a b = some c ∧ Congruent k (f x y) c
  division {q r : Constant} (hq : apply .divide a b = some q) (hr : apply .modulo a b = some r) :
    q.kind = k ∧ r.kind = k ∧ q.whole = some (x.tdiv y) ∧ r.whole = some (x.tmod y) ∧
      x = x.tdiv y * y + x.tmod y
  shiftRight : ∃ c, apply .shiftRight a b = some c ∧ c.kind = k ∧
    c.whole = some (x.fdiv (2 ^ (y % 64).toNat))
  comparison {op : BinaryOp} {r : Int → Int → Bool} (h : op.compares = some r) :
    apply op a b = some (ofBool (r x y))
  trichotomy : ∃! op, op ∈ [BinaryOp.less, .equal, .greater] ∧ apply op a b = some (ofBool true)
  complement {op op' : BinaryOp} (h : (op, op') ∈ [(BinaryOp.lessEqual, BinaryOp.greater),
    (.greaterEqual, .less), (.notEqual, .equal)]) :
      ∃ t, apply op a b = some (ofBool t) ∧ apply op' a b = some (ofBool !t)

variable {op : BinaryOp} {a b : Constant} {x y : Int}

/-! ### Comparison -/

theorem ofBool_inj {s t : Bool} : ofBool s = ofBool t ↔ s = t := by
  cases s <;> cases t <;> simp [ofBool]

/-- A comparison asks for the order of two whole numbers. -/
theorem comparisonHolds_order {r : Int → Int → Bool} (h : op.compares = some r) (x y : Int) :
    comparisonHolds op (some (compareOfLessAndEq x y)) = r x y := by
  have hcases : x < y ∧ ¬ y < x ∧ x ≠ y ∨ x = y ∨ ¬ x < y ∧ y < x ∧ x ≠ y := by omega
  unfold compareOfLessAndEq
  cases op <;> cases h <;> rcases hcases with ⟨hlt, hle, hne⟩ | rfl | ⟨hle, hlt, hne⟩ <;>
    simp [comparisonHolds, *] <;> omega

/-- Exactly one of the strict comparisons and equality holds. -/
theorem trichotomy_of_comparison
    (h : ∀ op r, op.compares = some r → apply op a b = some (ofBool (r x y))) :
    ∃! op, op ∈ [BinaryOp.less, .equal, .greater] ∧ apply op a b = some (ofBool true) := by
  have hless : apply .less a b = some (ofBool true) ↔ x < y := by simp [h .less _ rfl, ofBool_inj]
  have hequal : apply .equal a b = some (ofBool true) ↔ x = y := by
    simp [h .equal _ rfl, ofBool_inj]
  have hgreater : apply .greater a b = some (ofBool true) ↔ y < x := by
    simp [h .greater _ rfl, ofBool_inj]
  have hholds : ∀ op, op ∈ [BinaryOp.less, .equal, .greater] ∧ apply op a b = some (ofBool true) ↔
      op = .less ∧ x < y ∨ op = .equal ∧ x = y ∨ op = .greater ∧ y < x := by
    intro op
    cases op <;> simp [hless, hequal, hgreater]
  simp only [hholds]
  rcases Int.lt_trichotomy x y with hlt | heq | hgt
  · exact ⟨.less, by simp [hlt], by grind⟩
  · exact ⟨.equal, by simp [heq], by grind⟩
  · exact ⟨.greater, by simp [hgt], by grind⟩

/-- The other comparisons are the opposites of these. -/
theorem complement_of_comparison
    (h : ∀ op r, op.compares = some r → apply op a b = some (ofBool (r x y))) {op op' : BinaryOp}
    (hpair : (op, op') ∈ [(BinaryOp.lessEqual, BinaryOp.greater), (.greaterEqual, .less),
      (.notEqual, .equal)]) :
    ∃ t, apply op a b = some (ofBool t) ∧ apply op' a b = some (ofBool !t) := by
  simp only [List.mem_cons, List.not_mem_nil, or_false, Prod.mk.injEq] at hpair
  rcases hpair with ⟨rfl, rfl⟩ | ⟨rfl, rfl⟩ | ⟨rfl, rfl⟩
  · exact ⟨_, h .lessEqual _ rfl, by simp [h .greater _ rfl, ← decide_not]⟩
  · exact ⟨_, h .greaterEqual _ rfl, by simp [h .less _ rfl, ← decide_not]⟩
  · exact ⟨_, h .notEqual _ rfl, by simp [h .equal _ rfl]⟩

/-! ### Results that are cut off -/

theorem congruent_signed {v : Int64} {n : Int} (h : v.toBitVec = BitVec.ofInt 64 n) :
    Congruent .signed n (.signed v) := by
  have hvalue : v.toInt = n.bmod UInt64.size := by
    have hofInt := BitVec.toInt_ofInt (n := 64) n
    rw [← h] at hofInt
    exact hofInt
  exact ⟨rfl, v.toInt, rfl, by rw [hvalue]; exact Int.bmod_emod⟩

theorem congruent_unsigned {v : UInt64} {n : Int} (h : v.toBitVec = BitVec.ofInt 64 n) :
    Congruent .unsigned n (.unsigned v) := by
  have hvalue : (v.toNat : Int) = n % UInt64.size := by
    rw [← UInt64.toNat_toBitVec, h, BitVec.toNat_ofInt]
    exact Int.toNat_of_nonneg (Int.emod_nonneg n (by decide))
  exact ⟨rfl, v.toNat, rfl, by rw [hvalue]; exact Int.mod_modEq n _⟩

/-- The operators whose result is cut off, on sixty-four bits; a shift is by `amount`. -/
def onBits (op : BinaryOp) (v w : BitVec 64) (amount : Nat) : BitVec 64 :=
  match op with
  | .add => v + w
  | .subtract => v - w
  | .multiply => v * w
  | .bitAnd => v &&& w
  | .bitOr => v ||| w
  | .bitXor => v ^^^ w
  | _ => v <<< amount

/-- The last bits of an exact result come from the last bits of the operands. -/
theorem ofInt_exact {f : Int → Int → Int} (h : op.exact = some f) (x y : Int) :
    BitVec.ofInt 64 (f x y) =
      onBits op (BitVec.ofInt 64 x) (BitVec.ofInt 64 y) (y % 64).toNat := by
  cases op <;> cases h
  case add => exact BitVec.ofInt_add x y
  case subtract => exact Bits.ofInt_sub x y
  case multiply => exact BitVec.ofInt_mul x y
  case bitAnd => exact Bits.ofInt_land x y
  case bitOr => exact Bits.ofInt_lor x y
  case bitXor => exact Bits.ofInt_xor x y
  case shiftLeft => exact Bits.ofInt_mul_two_pow x _

theorem applySigned_exact {f : Int → Int → Int} (h : op.exact = some f) (v w : Int64) :
    ∃ u, applySigned op v w = some u ∧ Congruent .signed (f v.toInt w.toInt) (.signed u) := by
  have hbits (v : Int64) : BitVec.ofInt 64 v.toInt = v.toBitVec := BitVec.ofInt_toInt
  have hamount : (w.toInt % 64).toNat = (w.toBitVec.smod 64).toNat := (Bits.toNat_smod _).symm
  have hresult := ofInt_exact h v.toInt w.toInt
  rw [hbits, hbits, hamount] at hresult
  cases op <;> cases h <;> exact ⟨_, rfl, congruent_signed hresult.symm⟩

theorem applyUnsigned_exact {f : Int → Int → Int} (h : op.exact = some f) (v w : UInt64) :
    ∃ u, applyUnsigned op v w = some u ∧ Congruent .unsigned (f v.toNat w.toNat) (.unsigned u) := by
  have hbits (v : UInt64) : BitVec.ofInt 64 (v.toNat : Int) = v.toBitVec := by
    rw [BitVec.ofInt_natCast, ← UInt64.toNat_toBitVec, BitVec.ofNat_toNat, BitVec.setWidth_eq]
  have hamount : ((w.toNat : Int) % 64).toNat = (w.toBitVec % 64).toNat :=
    (Bits.toNat_umod _).symm
  have hresult := ofInt_exact h v.toNat w.toNat
  rw [hbits, hbits, hamount] at hresult
  cases op <;> cases h <;> exact ⟨_, rfl, congruent_unsigned hresult.symm⟩

/-! ### Results that are exact -/

theorem applySigned_eq_none_iff (h : op.isBoolean = false) {v w : Int64} :
    applySigned op v w = none ↔ (op = .divide ∨ op = .modulo) ∧
      (w.toInt = 0 ∨ v.toInt = Int64.minValue.toInt ∧ w.toInt = -1) := by
  have hzero : w.toInt = 0 ↔ w = 0 := Int64.toInt_inj (x := w) (y := 0)
  have hminus : w.toInt = -1 ↔ w = -1 := Int64.toInt_inj (x := w) (y := -1)
  rw [hzero, hminus, Int64.toInt_inj]
  cases op <;> first | contradiction | simp [applySigned, or_iff_not_imp_left]

theorem applyUnsigned_eq_none_iff (h : op.isBoolean = false) {v w : UInt64} :
    applyUnsigned op v w = none ↔ (op = .divide ∨ op = .modulo) ∧ (w.toNat : Int) = 0 := by
  have hzero : (w.toNat : Int) = 0 ↔ w = 0 := by
    rw [Int.natCast_eq_zero, ← UInt64.toNat_inj]
    rfl
  rw [hzero]
  cases op <;> first | contradiction | simp [applyUnsigned]

theorem applyFloating_eq_none_iff (h : op.isBoolean = false) {v w : Float} :
    applyFloating op v w = none ↔ op.isBitwise = true := by
  cases op <;> first | contradiction | simp [applyFloating, BinaryOp.isBitwise]

/-- A quotient of signed numbers that is not refused is in range. -/
theorem toInt_div {v w u : Int64} (h : applySigned .divide v w = some u) :
    u.toInt = v.toInt.tdiv w.toInt := by
  simp only [applySigned, Option.ite_none_left_eq_some, Option.some.injEq, not_or, not_and] at h
  obtain ⟨⟨-, hrange⟩, rfl⟩ := h
  by_cases hmin : v = Int64.minValue
  · exact Int64.toInt_div_of_ne_right v w (hrange hmin)
  · exact Int64.toInt_div_of_ne_left v w hmin

/-- A shift to the right divides and rounds down. -/
theorem shiftRight_eq_fdiv (x : Int) (n : Nat) : x >>> n = x.fdiv (2 ^ n) := by
  have hpos : (0 : Int) ≤ 2 ^ n := Int.le_of_lt (Int.pow_pos (by decide))
  rw [Int.shiftRight_eq_div_pow, Int.fdiv_eq_ediv_of_nonneg _ hpos]
  simp

theorem toInt_shiftRight (v w : Int64) :
    (v >>> w).toInt = v.toInt.fdiv (2 ^ (w.toInt % 64).toNat) := by
  rw [← shiftRight_eq_fdiv, ← Int64.toInt_toBitVec w, ← Bits.toNat_smod]
  exact BitVec.toInt_sshiftRight'

theorem toNat_shiftRight (v w : UInt64) :
    ((v >>> w).toNat : Int) = (v.toNat : Int).fdiv (2 ^ ((w.toNat : Int) % 64).toNat) := by
  have hamount : ((w.toNat : Int) % 64).toNat = w.toNat % 64 := by omega
  rw [← shiftRight_eq_fdiv, hamount, UInt64.toNat_shiftRight]
  rfl

/-! ### Two constants of one kind -/

/-- Two constants of one kind of integers, and the numbers that they are. -/
inductive Alike : NumericKind → Constant → Constant → Int → Int → Prop where
  | signed (v w : Int64) : Alike .signed (signed v) (signed w) v.toInt w.toInt
  | unsigned (v w : UInt64) : Alike .unsigned (unsigned v) (unsigned w) v.toNat w.toNat

/-- Constants that are read in one kind of integers are alike. -/
theorem alike_convert {k : NumericKind} (hk : k ≠ .floating) (ha : a.whole = some x)
    (hb : b.whole = some y) : Alike k (a.convert k) (b.convert k) (k.wrap x) (k.wrap y) := by
  have hx := whole_convert ha hk
  have hy := whole_convert hb hk
  cases k with
  | signed =>
      rw [← Option.some.inj hx, ← Option.some.inj hy]
      exact .signed a.toInt64 b.toInt64
  | unsigned =>
      rw [← Option.some.inj hx, ← Option.some.inj hy]
      exact .unsigned a.toUInt64 b.toUInt64
  | floating => contradiction

namespace Alike

variable {k : NumericKind}

theorem order_eq (h : Alike k a b x y) : order a b = some (compareOfLessAndEq x y) := by
  cases h with
  | signed v w =>
      simp only [order, compareOfLessAndEq, Int64.lt_iff_toInt_lt, ← Int64.toInt_inj]
  | unsigned v w =>
      simp only [order, compareOfLessAndEq, UInt64.lt_iff_toNat_lt, ← UInt64.toNat_inj, Int.ofNat_lt,
        Int.natCast_inj]

theorem applyAlike_eq_none_iff (h : Alike k a b x y) (hop : op.isBoolean = false) :
    applyAlike op a b = none ↔ (op = .divide ∨ op = .modulo) ∧
      (y = 0 ∨ k = .signed ∧ x = Int64.minValue.toInt ∧ y = -1) := by
  cases h with
  | signed v w => simp [applyAlike, applySigned_eq_none_iff hop]
  | unsigned v w => simp [applyAlike, applyUnsigned_eq_none_iff hop]

theorem exists_applyAlike (h : Alike k a b x y) {f : Int → Int → Int} (hop : op.exact = some f) :
    ∃ c, applyAlike op a b = some c ∧ Congruent k (f x y) c := by
  cases h with
  | signed v w =>
      obtain ⟨u, hu, hcongruent⟩ := applySigned_exact hop v w
      exact ⟨.signed u, by simp [applyAlike, hu], hcongruent⟩
  | unsigned v w =>
      obtain ⟨u, hu, hcongruent⟩ := applyUnsigned_exact hop v w
      exact ⟨.unsigned u, by simp [applyAlike, hu], hcongruent⟩

theorem of_divide (h : Alike k a b x y) {q : Constant} (hq : applyAlike .divide a b = some q) :
    q.kind = k ∧ q.whole = some (x.tdiv y) := by
  cases h with
  | signed v w =>
      obtain ⟨u, hu, rfl⟩ := Option.map_eq_some_iff.1 hq
      exact ⟨rfl, congrArg some (toInt_div hu)⟩
  | unsigned v w =>
      obtain ⟨u, hu, rfl⟩ := Option.map_eq_some_iff.1 hq
      simp only [applyUnsigned, Option.ite_none_left_eq_some, Option.some.injEq] at hu
      obtain ⟨-, rfl⟩ := hu
      exact ⟨rfl, by simp [whole]⟩

theorem of_modulo (h : Alike k a b x y) {r : Constant} (hr : applyAlike .modulo a b = some r) :
    r.kind = k ∧ r.whole = some (x.tmod y) := by
  cases h with
  | signed v w =>
      obtain ⟨u, hu, rfl⟩ := Option.map_eq_some_iff.1 hr
      simp only [applySigned, Option.ite_none_left_eq_some, Option.some.injEq] at hu
      obtain ⟨-, rfl⟩ := hu
      exact ⟨rfl, congrArg some (Int64.toInt_mod v w)⟩
  | unsigned v w =>
      obtain ⟨u, hu, rfl⟩ := Option.map_eq_some_iff.1 hr
      simp only [applyUnsigned, Option.ite_none_left_eq_some, Option.some.injEq] at hu
      obtain ⟨-, rfl⟩ := hu
      exact ⟨rfl, by simp only [whole, UInt64.toNat_mod, Int.ofNat_tmod]⟩

theorem exists_shiftRight (h : Alike k a b x y) : ∃ c, applyAlike .shiftRight a b = some c ∧
    c.kind = k ∧ c.whole = some (x.fdiv (2 ^ (y % 64).toNat)) := by
  cases h with
  | signed v w => exact ⟨_, rfl, rfl, congrArg some (toInt_shiftRight v w)⟩
  | unsigned v w => exact ⟨_, rfl, rfl, congrArg some (toNat_shiftRight v w)⟩

end Alike

/-! ### All operators -/

/-- A comparison is one of the constants in the higher kind. -/
theorem apply_of_compares {r : Int → Int → Bool} (h : op.compares = some r) (a b : Constant) :
    apply op a b = some (ofBool (comparisonHolds op
      (order (a.convert (a.kind.higher b.kind)) (b.convert (a.kind.higher b.kind))))) := by
  cases op <;> cases h <;> rfl

/-- An operator that gives no truth value runs on the constants in the higher kind. -/
theorem apply_of_not_isBoolean (h : op.isBoolean = false) (a b : Constant) :
    apply op a b =
      applyAlike op (a.convert (a.kind.higher b.kind)) (b.convert (a.kind.higher b.kind)) := by
  cases op <;> first | contradiction | rfl

/-- A truth value is always there. -/
theorem apply_ne_none (h : op.isBoolean = true) (a b : Constant) : apply op a b ≠ none := by
  cases op <;> first | contradiction | nofun

theorem isBoolean_of_exact {f : Int → Int → Int} (h : op.exact = some f) : op.isBoolean = false := by
  cases op <;> first | contradiction | rfl

/-- What two constants give is told by what they are in the higher kind. -/
theorem Alike.computes {k : NumericKind} (hkind : a.kind.higher b.kind = k)
    (h : Alike k (a.convert k) (b.convert k) x y) : Computes k a b x y := by
  subst hkind
  have hcompare : ∀ op r, op.compares = some r → apply op a b = some (ofBool (r x y)) := by
    intro op r hop
    rw [apply_of_compares hop, h.order_eq, comparisonHolds_order hop]
  constructor
  case isNone_iff =>
    intro op
    cases hop : op.isBoolean with
    | false => rw [apply_of_not_isBoolean hop, h.applyAlike_eq_none_iff hop]
    | true =>
        refine iff_of_false (apply_ne_none hop a b) ?_
        rintro ⟨rfl | rfl, -⟩ <;> contradiction
  case congruent =>
    intro op f hop
    rw [apply_of_not_isBoolean (isBoolean_of_exact hop)]
    exact h.exists_applyAlike hop
  case division =>
    intro q r hq hr
    rw [apply_of_not_isBoolean rfl] at hq hr
    obtain ⟨hqkind, hqwhole⟩ := h.of_divide hq
    obtain ⟨hrkind, hrwhole⟩ := h.of_modulo hr
    exact ⟨hqkind, hrkind, hqwhole, hrwhole, (Int.tdiv_mul_add_tmod x y).symm⟩
  case shiftRight =>
    rw [apply_of_not_isBoolean rfl]
    exact h.exists_shiftRight
  case comparison => exact hcompare _ _
  case trichotomy => exact trichotomy_of_comparison hcompare
  case complement => exact complement_of_comparison hcompare

/-- Everything but zero is true. -/
theorem isTrue_of_whole {c : Constant} {n : Int} (h : c.whole = some n) :
    c.isTrue = decide (n ≠ 0) := by
  cases c with
  | signed v =>
      obtain rfl := Option.some.inj h
      have hzero : v.toInt = 0 ↔ v = 0 := Int64.toInt_inj (x := v) (y := 0)
      simp [isTrue, hzero, bne, beq_eq_decide]
  | unsigned v =>
      obtain rfl := Option.some.inj h
      have hzero : v.toNat = 0 ↔ v = 0 := UInt64.toNat_inj (a := v) (b := 0)
      simp [isTrue, hzero, bne, beq_eq_decide]
  | floating v => contradiction

/-- **Arithmetic on constants is exact.**  Where the higher kind is one of integers, the operators
compute with the two numbers of that kind, and the logical operators ask whether a constant is zero; no
operator but division and remainder is without a value.  Between doubles only the operators on bits
are. -/
theorem apply_exact (a b : Constant) :
    (a.kind.higher b.kind ≠ .floating → ∃ m n, a.whole = some m ∧ b.whole = some n ∧
      Computes (a.kind.higher b.kind) a b ((a.kind.higher b.kind).wrap m)
        ((a.kind.higher b.kind).wrap n) ∧
      apply .logicalAnd a b = some (ofBool (decide (m ≠ 0 ∧ n ≠ 0))) ∧
      apply .logicalOr a b = some (ofBool (decide (m ≠ 0 ∨ n ≠ 0)))) ∧
    (a.kind.higher b.kind = .floating → ∀ op, apply op a b = none ↔ op.isBitwise = true) := by
  constructor
  · intro hkind
    have hboth : a.kind ≠ .floating ∧ b.kind ≠ .floating := by
      revert hkind
      cases a.kind <;> cases b.kind <;> decide
    obtain ⟨m, hm⟩ := exists_whole hboth.1
    obtain ⟨n, hn⟩ := exists_whole hboth.2
    refine ⟨m, n, hm, hn, Alike.computes rfl (alike_convert hkind hm hn), ?_, ?_⟩
    · simp [apply, isTrue_of_whole hm, isTrue_of_whole hn]
    · simp [apply, isTrue_of_whole hm, isTrue_of_whole hn]
  · intro hkind op
    cases hop : op.isBoolean with
    | false =>
        rw [apply_of_not_isBoolean hop, hkind]
        exact Option.map_eq_none_iff.trans (applyFloating_eq_none_iff hop)
    | true =>
        refine iff_of_false (apply_ne_none hop a b) ?_
        cases op <;> first | contradiction | decide

/-- The one quotient out of range, a sum that is cut off, and a shift by sixty-five places. -/
example : apply .divide (signed Int64.minValue) (signed (-1)) = none ∧
    apply .add (unsigned 18446744073709551615) (signed 2) = some (unsigned 1) ∧
    apply .shiftRight (signed (-5)) (signed 65) = some (signed (-3)) := ⟨rfl, rfl, rfl⟩

end Constant

end ShaderLang
