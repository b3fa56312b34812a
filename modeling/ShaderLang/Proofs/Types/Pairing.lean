/-
**The algebra of types of operations.**

Which base type an operation runs in is a maximum: a numeric base has a place in the order of promotion,
a place belongs to one base, and the wider of two bases is the one at the greater place
(`ShaderLang.DataType.promote_eq_some_iff`).  So the operands may change sides and be grouped as one
likes.

The shape of a result is the shape of an operand that is no scalar.  The types of products and of the
other operators come from two rules that ask for scalars, vectors and matrices in ways of their own; they
differ only between a matrix and a vector.  There a product is the linear map of the matrix, and a vector
fits it from the right by its columns and from the left by its rows.  The extents may be any that a word
can hold, and a second extent may stand without a first.

Main definitions:

* `ShaderLang.DataType.PairingLaws` — what holds of the types of operations on values of some types.

Main results:

* `ShaderLang.DataType.promote_eq_some_iff` — the wider base is at the greater place;
* `ShaderLang.DataType.componentwise_comm`, `ShaderLang.DataType.multiply_eq_componentwise`,
  `ShaderLang.DataType.multiply_matrix_vector`, `ShaderLang.DataType.multiply_vector_matrix` — the type of
  the result;
* `ShaderLang.DataType.pairingLaws` — **the types of operations obey their algebra**.
-/

import ShaderLang.Types.Pairing

set_option relaxedAutoImplicit false
set_option autoImplicit false

namespace ShaderLang

/-- A place in the order of promotion belongs to one base type. -/
theorem BaseType.eq_of_rank {b d : BaseType} {n : Nat} (hb : b.rank = some n) (hd : d.rank = some n) :
    b = d := by
  cases b <;> cases hb <;> cases d <;> cases hd <;> rfl

namespace DataType

variable {a b c t : DataType} {m n : Nat}

/-- What holds of the types of operations on values of the types `a`, `b` and `c`. -/
structure PairingLaws (a b c : DataType) : Prop where
  promote_comm : promote a b = promote b a
  promote_self (ha : a.isNumeric = true) : promote a a = some a.base
  promote_assoc (ha : a.isNumeric = true) (hb : b.isNumeric = true) (hc : c.isNumeric = true) :
    ∃ ab bc base, promote a b = some ab ∧ promote b c = some bc ∧
      ∀ t u : DataType, t.base = ab → u.base = bc →
        promote t c = some base ∧ promote a u = some base
  componentwise_comm : componentwise a b = componentwise b a
  multiply_eq (h : ¬(a.isMatrix = true ∧ b.isVector = true ∨ a.isVector = true ∧ b.isMatrix = true)) :
    multiply a b = componentwise a b
  linear {rows columns size : Fin absentExtent} (ha : a.isNumeric = true) (hb : b.isNumeric = true)
    (ha0 : a.dim0 = some rows) (ha1 : a.dim1 = some columns) (hb0 : b.dim0 = some size)
    (hb1 : b.dim1 = none) : ∃ base, promote a b = some base ∧
      multiply a b = (if size = columns then some ⟨base, some rows, none⟩ else none) ∧
      multiply b a = (if size = rows then some ⟨base, some columns, none⟩ else none)

/-! ### The wider base -/

theorem rank_of_base (h : a.base = b.base) : a.rank = b.rank := by
  simp [rank, baseType, h]

/-- A place in the order of promotion belongs to one base. -/
theorem base_of_rank (ha : a.rank = some n) (hb : b.rank = some n) : a.base = b.base := by
  obtain ⟨d, hd, hdrank⟩ := Option.bind_eq_some_iff.1 ha
  obtain ⟨e, he, herank⟩ := Option.bind_eq_some_iff.1 hb
  rw [← BaseType.id_of_ofId hd, ← BaseType.id_of_ofId he, BaseType.eq_of_rank hdrank herank]

/-- A numeric base has a place. -/
theorem exists_rank (h : a.isNumeric = true) : ∃ n, a.rank = some n := by
  unfold isNumeric at h
  unfold rank
  cases hbase : a.baseType with
  | none => simp [hbase] at h
  | some d =>
      have hnumeric : d.rank.isSome = true := by simpa [hbase, BaseType.isSome_rank] using h
      exact Option.isSome_iff_exists.1 hnumeric

/-- **The wider of two bases is the one at the greater place.** -/
theorem promote_eq_some_iff : promote a b = some t.base ↔
    ∃ m n, a.rank = some m ∧ b.rank = some n ∧ t.rank = some (max m n) := by
  unfold promote
  cases ha : a.rank with
  | none => simp
  | some m =>
      cases hb : b.rank with
      | none => simp
      | some n =>
          simp only [Option.some.injEq, exists_and_left, exists_eq_left']
          by_cases hle : n ≤ m
          · rw [if_pos hle, Nat.max_eq_left hle]
            exact ⟨fun h => rank_of_base h ▸ ha, fun h => base_of_rank ha h⟩
          · rw [if_neg hle, Nat.max_eq_right (by omega)]
            exact ⟨fun h => rank_of_base h ▸ hb, fun h => base_of_rank hb h⟩

/-- The wider base does not depend on the sides of the operands. -/
theorem promote_comm (a b : DataType) : promote a b = promote b a := by
  ext base
  have hab := promote_eq_some_iff (a := a) (b := b) (t := struct base)
  have hba := promote_eq_some_iff (a := b) (b := a) (t := struct base)
  constructor
  · intro h
    obtain ⟨m, n, hm, hn, hmax⟩ := hab.1 h
    exact hba.2 ⟨n, m, hn, hm, by rw [hmax, Nat.max_comm]⟩
  · intro h
    obtain ⟨m, n, hm, hn, hmax⟩ := hba.1 h
    exact hab.2 ⟨n, m, hn, hm, by rw [hmax, Nat.max_comm]⟩

/-- A numeric base is the wider one of itself and itself. -/
theorem promote_self (h : a.isNumeric = true) : promote a a = some a.base := by
  obtain ⟨n, hn⟩ := exists_rank h
  exact promote_eq_some_iff.2 ⟨n, n, hn, hn, by rw [hn, Nat.max_self]⟩

/-- Two numeric bases have a wider one. -/
theorem exists_promote (ha : a.rank = some m) (hb : b.rank = some n) :
    ∃ base, promote a b = some base := by
  rw [promote, ha, hb]
  exact ⟨_, rfl⟩

/-- Only the base of an operand counts. -/
theorem promote_congr (h : a.base = b.base) (c : DataType) : promote a c = promote b c := by
  rw [promote, promote, rank_of_base h, h]

/-- The wider base does not depend on how the operands are grouped. -/
theorem promote_assoc {ab bc : DataType} (hab : promote a b = some ab.base)
    (hbc : promote b c = some bc.base) : promote ab c = promote a bc := by
  obtain ⟨l, m, hl, hm, hab⟩ := promote_eq_some_iff.1 hab
  obtain ⟨m', n, hm', hn, hbc⟩ := promote_eq_some_iff.1 hbc
  obtain rfl : m' = m := Option.some.inj (hm'.symm.trans hm)
  ext base
  rw [show base = (struct base).base from rfl, promote_eq_some_iff, promote_eq_some_iff]
  simp only [hab, hbc, hl, hn, Option.some.injEq, exists_and_left, exists_eq_left', Nat.max_assoc]

/-! ### The shape of the result -/

theorem dims_of_isScalar (h : a.isScalar = true) : a.dim0 = none ∧ a.dim1 = none := by
  simp only [isScalar, Bool.and_eq_true, Option.isNone_iff_eq_none] at h
  exact ⟨h.1.2, h.2⟩

theorem withBase_eq_of_sameShape (h : sameShape a b = true) (base : UInt32) :
    a.withBase base = b.withBase base := by
  simp only [sameShape, Bool.and_eq_true, beq_iff_eq] at h
  rw [withBase, withBase, h.1, h.2]

theorem sameShape_comm (a b : DataType) : sameShape a b = sameShape b a := by
  rw [sameShape, sameShape, BEq.comm, BEq.comm (a := a.dim1)]

/-- Scalars have one shape. -/
theorem sameShape_of_isScalar (ha : a.isScalar = true) (hb : b.isScalar = true) :
    sameShape a b = true := by
  simp [sameShape, dims_of_isScalar ha, dims_of_isScalar hb]

/-- The operands of a component-by-component operation may change sides. -/
theorem componentwise_comm (a b : DataType) : componentwise a b = componentwise b a := by
  unfold componentwise
  rw [promote_comm b a]
  congr 1
  funext base
  cases ha : a.isScalar with
  | true =>
      cases hb : b.isScalar with
      | true => simp [withBase_eq_of_sameShape (sameShape_of_isScalar ha hb)]
      | false => simp
  | false =>
      cases hb : b.isScalar with
      | true => simp
      | false =>
          rw [sameShape_comm b a]
          cases hshape : sameShape a b with
          | true => simp [withBase_eq_of_sameShape hshape]
          | false => simp

/-- A product is taken component by component unless it is one of a matrix and a vector. -/
theorem multiply_eq_componentwise
    (h : ¬(a.isMatrix = true ∧ b.isVector = true ∨ a.isVector = true ∧ b.isMatrix = true)) :
    multiply a b = componentwise a b := by
  have hone {t : DataType} (hm : t.isMatrix = true) (hv : t.isVector = true) : False := by
    simp only [isMatrix, isVector, Bool.and_eq_true, Option.isSome_iff_ne_none,
      Option.isNone_iff_eq_none] at hm hv
    exact hm.2 hv.2
  have hlinear : (holdsFor .either isMatrix a b && holdsFor .either isVector a b) = false := by
    rw [Bool.eq_false_iff]
    intro hboth
    simp only [holdsFor, Bool.and_eq_true, Bool.or_eq_true] at hboth
    rcases hboth with ⟨hm | hm, hv | hv⟩
    · exact hone hm hv
    · exact h (.inl ⟨hm, hv⟩)
    · exact h (.inr ⟨hv, hm⟩)
    · exact hone hm hv
  unfold multiply componentwise
  congr 1
  funext base
  rw [hlinear]
  cases ha : a.isScalar <;> cases hb : b.isScalar <;> simp [holdsFor, ha, hb]

/-- A matrix and a vector from the right. -/
theorem multiply_matrix_vector {base : UInt32} {rows columns size : Fin absentExtent}
    (h : promote a b = some base) (ha0 : a.dim0 = some rows) (ha1 : a.dim1 = some columns)
    (hb0 : b.dim0 = some size) (hb1 : b.dim1 = none) :
    multiply a b = if size = columns then some ⟨base, some rows, none⟩ else none := by
  simp [multiply, h, holdsFor, isScalar, isMatrix, isVector, linearMap, matrixDims, vectorDim, theOne,
    ha0, ha1, hb0, hb1]

/-- A vector from the left and a matrix. -/
theorem multiply_vector_matrix {base : UInt32} {rows columns size : Fin absentExtent}
    (h : promote b a = some base) (ha0 : a.dim0 = some rows) (ha1 : a.dim1 = some columns)
    (hb0 : b.dim0 = some size) (hb1 : b.dim1 = none) :
    multiply b a = if size = rows then some ⟨base, some columns, none⟩ else none := by
  simp [multiply, h, holdsFor, isScalar, isMatrix, isVector, linearMap, matrixDims, vectorDim, theOne,
    ha0, ha1, hb0, hb1]

/-- **The types of operations obey their algebra**, whatever numbers a word holds. -/
theorem pairingLaws (a b c : DataType) : PairingLaws a b c := by
  constructor
  case promote_comm => exact promote_comm a b
  case promote_self => exact promote_self
  case promote_assoc =>
    intro ha hb hc
    obtain ⟨l, hl⟩ := exists_rank ha
    obtain ⟨m, hm⟩ := exists_rank hb
    obtain ⟨n, hn⟩ := exists_rank hc
    obtain ⟨ab, hab⟩ := exists_promote hl hm
    obtain ⟨bc, hbc⟩ := exists_promote hm hn
    obtain ⟨_, _, _, _, hmax⟩ := promote_eq_some_iff (t := struct ab).1 hab
    obtain ⟨base, hbase⟩ := exists_promote hmax hn
    refine ⟨ab, bc, base, hab, hbc, fun t u ht hu => ?_⟩
    have hleft : promote t c = some base := (promote_congr (b := struct ab) ht c).trans hbase
    exact ⟨hleft, promote_assoc (ht ▸ hab) (hu ▸ hbc) ▸ hleft⟩
  case componentwise_comm => exact componentwise_comm a b
  case multiply_eq => exact multiply_eq_componentwise
  case linear =>
    intro rows columns size ha hb ha0 ha1 hb0 hb1
    obtain ⟨m, hm⟩ := exists_rank ha
    obtain ⟨n, hn⟩ := exists_rank hb
    obtain ⟨base, hbase⟩ := exists_promote hm hn
    exact ⟨base, hbase, multiply_matrix_vector hbase ha0 ha1 hb0 hb1,
      multiply_vector_matrix (promote_comm b a ▸ hbase) ha0 ha1 hb0 hb1⟩

end DataType

end ShaderLang
