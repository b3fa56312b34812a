/-
**The word of a data type holds its three parts side by side.**

The word is made by sums and products and taken apart by quotients and remainders.  In bits, the parts
are shifted to their places and joined, and found again by shifting back and cutting off what lies above;
both readings are the same because every part fits its place.  An absent extent is a sixteen-bit number
like any other, so no word is left out and none is made twice.

Main definitions:

* `ShaderLang.Extent.bits`, `ShaderLang.Extent.ofBits` — an extent in sixteen bits;
* `ShaderLang.DataType.joined`, `ShaderLang.DataType.parted` — a word made and taken apart bit by bit.

Main results:

* `ShaderLang.DataType.word_eq_joined`, `ShaderLang.DataType.ofWord_eq_parted` — words are made and taken
  apart by shifts;
* `ShaderLang.DataType.ofWord_word`, `ShaderLang.DataType.word_ofWord` — one undoes the other;
* `ShaderLang.DataType.word_bijective` — **data types and words correspond one to one, part by part**.
-/

import ShaderLang.Types.DataType

set_option relaxedAutoImplicit false
set_option autoImplicit false

namespace ShaderLang

/-! ### Extents in sixteen bits -/

namespace Extent

/-- The sixteen bits of an extent. -/
def bits (e : Extent) : UInt16 := UInt16.ofNat e.toNat

/-- The extent that sixteen bits stand for. -/
def ofBits (b : UInt16) : Extent := ofNat b.toNat

theorem toNat_lt (e : Extent) : e.toNat < UInt16.size := Nat.lt_succ_of_le e.toNat_le

/-- Every sixteen-bit number is that of an extent. -/
theorem toNat_ofNat {n : Nat} (h : n < UInt16.size) : (ofNat n).toNat = n := by
  unfold ofNat
  split
  · rfl
  · next hlt =>
      -- only the number of the absent extent is left
      have heq : n = absentExtent := Nat.le_antisymm (Nat.le_of_lt_succ h) (Nat.not_lt.1 hlt)
      exact heq.symm

@[simp] theorem toNat_bits (e : Extent) : e.bits.toNat = e.toNat := by
  rw [bits, UInt16.toNat_ofNat']
  exact Nat.mod_eq_of_lt e.toNat_lt

@[simp] theorem ofBits_bits (e : Extent) : ofBits e.bits = e := by
  rw [ofBits, toNat_bits, ofNat_toNat]

end Extent

namespace DataType

/-! ### Bit by bit -/

/-- The parts shifted to their places in a word and joined. -/
def joined (base : UInt32) (dim0 dim1 : UInt16) : UInt64 :=
  dim1.toUInt64 <<< 48 ||| dim0.toUInt64 <<< 32 ||| base.toUInt64

/-- The parts of a word, each shifted back and cut to its size. -/
def parted (w : UInt64) : DataType :=
  ⟨(w &&& 0xffffffff).toUInt32, .ofBits (w >>> 32).toUInt16, .ofBits (w >>> 48).toUInt16⟩

/-- Parts that fit their places add up to what they are when joined. -/
theorem toNat_joined (base : UInt32) (dim0 dim1 : UInt16) :
    (joined base dim0 dim1).toNat =
      (dim1.toNat * UInt16.size + dim0.toNat) * UInt32.size + base.toNat := by
  have hbase : base.toNat < 2 ^ 32 := base.toNat_lt
  have hdim0 : dim0.toNat < 2 ^ 16 := dim0.toNat_lt
  have hdim1 : dim1.toNat < 2 ^ 16 := dim1.toNat_lt
  have hlow : dim0.toNat <<< 32 < 2 ^ 48 := by
    rw [Nat.shiftLeft_eq]
    omega
  have hdims : dim1.toNat <<< 48 ||| dim0.toNat <<< 32 = (dim1.toNat <<< 16 + dim0.toNat) <<< 32 := by
    rw [← Nat.shiftLeft_add_eq_or_of_lt hlow]
    simp only [Nat.shiftLeft_eq]
    omega
  have hmod (n m : Nat) (h : n <<< m < 2 ^ 64) : n <<< m % 2 ^ 64 = n <<< m := Nat.mod_eq_of_lt h
  have hwhole : (joined base dim0 dim1).toNat =
      dim1.toNat <<< 48 ||| dim0.toNat <<< 32 ||| base.toNat := by
    simp only [joined, UInt64.toNat_or, UInt64.toNat_shiftLeft, UInt16.toNat_toUInt64,
      UInt32.toNat_toUInt64]
    rw [hmod, hmod]
    · rfl
    · exact Nat.lt_trans hlow (by decide)
    · show dim1.toNat <<< 48 < 2 ^ 64
      rw [Nat.shiftLeft_eq]
      omega
  rw [hwhole, hdims, ← Nat.shiftLeft_add_eq_or_of_lt hbase]
  simp only [Nat.shiftLeft_eq, UInt16.size, UInt32.size]

/-- **A word is its parts, shifted and joined.** -/
theorem word_eq_joined (t : DataType) : t.word = joined t.base t.dim0.bits t.dim1.bits := by
  rw [← UInt64.toNat_inj, toNat_word, toNat_joined, Extent.toNat_bits, Extent.toNat_bits]
  rfl

/-- **A word is taken apart by shifting back and cutting off.** -/
theorem ofWord_eq_parted (w : UInt64) : ofWord w = parted w := by
  have hw : w.toNat < 2 ^ 64 := w.toNat_lt
  have hbase : UInt32.ofNat (w.toNat % UInt32.size) = (w &&& 0xffffffff).toUInt32 := by
    rw [← UInt32.toNat_inj, UInt32.toNat_ofNat', UInt64.toNat_toUInt32, UInt64.toNat_and]
    show _ = (w.toNat &&& 2 ^ 32 - 1) % 2 ^ 32
    rw [Nat.and_two_pow_sub_one_eq_mod]
  have hdim0 : w.toNat / UInt32.size % UInt16.size = (w >>> 32).toUInt16.toNat := by
    rw [UInt64.toNat_toUInt16, UInt64.toNat_shiftRight, Nat.shiftRight_eq_div_pow]
    rfl
  have hdim1 : w.toNat / UInt32.size / UInt16.size = (w >>> 48).toUInt16.toNat := by
    rw [UInt64.toNat_toUInt16, UInt64.toNat_shiftRight, Nat.shiftRight_eq_div_pow]
    show w.toNat / 2 ^ 32 / 2 ^ 16 = w.toNat / 2 ^ 48 % 2 ^ 16
    omega
  rw [ofWord, hbase, hdim0, hdim1]
  rfl

/-! ### One undoes the other -/

/-- The parts of the word of a data type are its own. -/
theorem ofWord_word (t : DataType) : ofWord t.word = t := by
  obtain ⟨base, dim0, dim1⟩ := t
  have hbase : base.toNat < UInt32.size := base.toNat_lt
  have hdim0 := dim0.toNat_lt
  have hpos : 0 < UInt32.size := by decide
  have hpos' : 0 < UInt16.size := by decide
  have hdims : wordNat ⟨base, dim0, dim1⟩ / UInt32.size = dim1.toNat * UInt16.size + dim0.toNat := by
    rw [wordNat, Nat.mul_comm, Nat.mul_add_div hpos, Nat.div_eq_of_lt hbase, Nat.add_zero]
  have hlow : wordNat ⟨base, dim0, dim1⟩ % UInt32.size = base.toNat := by
    rw [wordNat, Nat.mul_comm, Nat.mul_add_mod, Nat.mod_eq_of_lt hbase]
  rw [ofWord, toNat_word, hlow, hdims, UInt32.ofNat_toNat]
  rw [Nat.mul_comm, Nat.mul_add_mod, Nat.mul_add_div hpos', Nat.mod_eq_of_lt hdim0,
    Nat.div_eq_of_lt hdim0, Nat.add_zero, Extent.ofNat_toNat, Extent.ofNat_toNat]

/-- A word is that of its parts. -/
theorem word_ofWord (w : UInt64) : (ofWord w).word = w := by
  have hw : w.toNat < UInt64.size := w.toNat_lt
  have hdim0 : w.toNat / UInt32.size % UInt16.size < UInt16.size := Nat.mod_lt _ (by decide)
  have hdim1 : w.toNat / UInt32.size / UInt16.size < UInt16.size := by
    rw [Nat.div_div_eq_div_mul]
    exact Nat.div_lt_of_lt_mul hw
  have hbase : (UInt32.ofNat (w.toNat % UInt32.size)).toNat = w.toNat % UInt32.size := by
    rw [UInt32.toNat_ofNat']
    exact Nat.mod_mod _ _
  rw [← UInt64.toNat_inj, toNat_word]
  simp only [wordNat, ofWord, Extent.toNat_ofNat hdim0, Extent.toNat_ofNat hdim1, hbase]
  rw [Nat.mul_comm _ UInt16.size, Nat.div_add_mod, Nat.mul_comm, Nat.div_add_mod]

/-- Words with the same parts are the same. -/
theorem ofWord_inj {w w' : UInt64} : ofWord w = ofWord w' ↔ w = w' :=
  ⟨fun h => by rw [← word_ofWord w, h, word_ofWord], congrArg ofWord⟩

/-- **Data types and words correspond one to one.**  A word is made of its three parts by shifting and
joining them and taken apart by shifting back and cutting off; making and taking apart undo each other, for
every base and all extents that may be absent, and for every word.  So words are the same exactly if all
three parts are, and a word with one part replaced has the other two as they were. -/
theorem word_bijective :
    (∀ t : DataType, t.word = joined t.base t.dim0.bits t.dim1.bits) ∧
      (∀ w, ofWord w = parted w) ∧
      (∀ (base : UInt32) (dim0 dim1 : Extent), ofWord (word ⟨base, dim0, dim1⟩) = ⟨base, dim0, dim1⟩) ∧
      (∀ w, word ⟨(ofWord w).base, (ofWord w).dim0, (ofWord w).dim1⟩ = w) ∧
      (∀ w w', w = w' ↔ (ofWord w).base = (ofWord w').base ∧ (ofWord w).dim0 = (ofWord w').dim0 ∧
        (ofWord w).dim1 = (ofWord w').dim1) ∧
      ∀ (w : UInt64) (base : UInt32) (dim : Extent),
        ofWord (word { ofWord w with base := base }) =
            ⟨base, (ofWord w).dim0, (ofWord w).dim1⟩ ∧
          ofWord (word { ofWord w with dim0 := dim }) =
            ⟨(ofWord w).base, dim, (ofWord w).dim1⟩ ∧
          ofWord (word { ofWord w with dim1 := dim }) =
            ⟨(ofWord w).base, (ofWord w).dim0, dim⟩ := by
  refine ⟨word_eq_joined, ofWord_eq_parted, fun _ _ _ => ofWord_word _, word_ofWord,
    fun w w' => ?_, fun w base dim => ⟨ofWord_word _, ofWord_word _, ofWord_word _⟩⟩
  rw [← ofWord_inj]
  cases ofWord w
  cases ofWord w'
  simp

/-- The bits of an absent extent are all set. -/
example : joined 5 4 0xffff = 0xffff000400000005 ∧ parted 0xffff000400000005 = ⟨5, some 4, none⟩ := by
  decide

end DataType

end ShaderLang
