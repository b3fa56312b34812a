/-
**Kinds of constants and of types.**

A constant is signed, unsigned or floating, and so are the numbers of a numeric base type; truth
values are signed.  Folding promotes the kinds of constants, typing promotes base types by their
rank.  The two promotions give the same kind.

Main definitions:

* `ShaderLang.BaseType.kind`, `ShaderLang.DataType.kind` — the kind of the numbers of a type.

Main results:

* `ShaderLang.Constant.kind_apply`, `ShaderLang.Constant.kind_applyUnary`,
  `ShaderLang.Constant.kind_cast`, `ShaderLang.Constant.kind_assigned` — the kinds of results;
* `ShaderLang.DataType.kind_typeBinary` — **the wider of two base types has the higher of their
  kinds**;
* `ShaderLang.DataType.typeBinary_scalar` — an operator between numeric scalars has a numeric scalar
  type.
-/

import ShaderLang.Proofs.Arena.Walks

set_option relaxedAutoImplicit false
set_option autoImplicit false

namespace ShaderLang

/-! ### Kinds of base types -/

/-- The kind of the numbers of a base type. -/
def BaseType.kind : BaseType → Option NumericKind
  | bool | int => some .signed
  | uint => some .unsigned
  | half | float | double => some .floating
  | _ => none

/-- The kind of the base types of a rank. -/
def NumericKind.ofRank (rank : Nat) : NumericKind :=
  if rank ≤ 1 then .signed else if rank = 2 then .unsigned else .floating

theorem BaseType.kind_eq (b : BaseType) : b.kind = b.rank.map NumericKind.ofRank := by
  cases b <;> rfl

/-- Promotion of kinds follows the order of the ranks. -/
theorem NumericKind.higher_ofRank {m n : Nat} (h : n ≤ m) :
    (ofRank m).higher (ofRank n) = ofRank m := by
  unfold ofRank
  by_cases hm : m ≤ 1
  · rw [if_pos hm, if_pos (by omega)]
    rfl
  · by_cases hm' : m = 2
    · rw [if_neg hm, if_pos hm']
      by_cases hn : n ≤ 1
      · rw [if_pos hn]
        rfl
      · rw [if_neg hn, if_pos (by omega)]
        rfl
    · rw [if_neg hm, if_neg hm']
      rfl

theorem NumericKind.higher_ne_floating {k l : NumericKind} (hk : k ≠ .floating)
    (hl : l ≠ .floating) : k.higher l ≠ .floating := by
  cases k <;> cases l <;> simp_all [higher]

/-! ### Kinds of constants -/

namespace Constant

theorem kind_readAs {c d : Constant} {b : BaseType} (h : c.readAs b = some d) :
    b.kind = some d.kind := by
  cases b <;> first | (obtain rfl := Option.some.inj h; rfl) | contradiction

/-- A conversion to a base type gives a constant of its kind. -/
theorem kind_cast {c d : Constant} {source target : BaseType} (h : c.cast source target = some d) :
    target.kind = some d.kind := by
  obtain ⟨value, -, hread⟩ := Option.bind_eq_some_iff.1 h
  exact kind_readAs hread

/-- Only `!` changes the kind of its operand. -/
theorem kind_applyUnary {c d : Constant} {op : UnaryOp} (h : c.applyUnary op = some d) :
    d.kind = if op = .logicalNot then .signed else c.kind := by
  cases op with
  | plus =>
      obtain rfl := Option.some.inj h
      rfl
  | logicalNot =>
      obtain rfl := Option.some.inj h
      rfl
  | negate =>
      cases c <;> (obtain rfl := Option.some.inj h; rfl)
  | bitNot =>
      cases c with
      | floating => contradiction
      | _ =>
          obtain rfl := Option.some.inj h
          rfl

theorem kind_applyAlike {op : BinaryOp} {a b c : Constant} (h : applyAlike op a b = some c) :
    c.kind = a.kind := by
  unfold applyAlike at h
  split at h
  case h_4 => contradiction
  all_goals
    obtain ⟨v, -, rfl⟩ := Option.map_eq_some_iff.1 h
    rfl

/-- Comparisons and logical operators give truth values, all others run in the higher kind. -/
theorem kind_apply {op : BinaryOp} {a b c : Constant} (h : apply op a b = some c) :
    c.kind = if op.isBoolean then .signed else a.kind.higher b.kind := by
  unfold apply at h
  split at h
  · obtain rfl := Option.some.inj h
    rfl
  · obtain rfl := Option.some.inj h
    rfl
  · next _ hand hor =>
      have hlogical : op.isLogical = false := by
        cases op <;> first | rfl | exact (hand rfl).elim | exact (hor rfl).elim
      dsimp only at h
      split at h
      · next hcompare =>
          obtain rfl := Option.some.inj h
          rw [BinaryOp.isBoolean, hcompare]
          rfl
      · next hcompare =>
          rw [BinaryOp.isBoolean, hlogical, Bool.eq_false_iff.2 hcompare, kind_applyAlike h,
            kind_convert]
          rfl

/-- An assignment gives a constant of the kind of its target. -/
theorem kind_assigned {op : AssignOp} {target value c : Constant}
    (h : Arena.assigned op target value = some c) : c.kind = target.kind := by
  cases op with
  | assign =>
      obtain rfl := Option.some.inj h
      exact kind_convert _ _
  | compound op =>
      obtain ⟨d, -, rfl⟩ := Option.map_eq_some_iff.1 h
      exact kind_convert _ _

end Constant

theorem IntegerLiteral.kind_constant (l : IntegerLiteral) :
    l.constant.kind = if l.isUnsigned then .unsigned else .signed := by
  unfold constant
  split <;> rfl

/-! ### Kinds of types -/

namespace DataType

/-- The kind of the numbers of a type. -/
def kind (t : DataType) : Option NumericKind := t.baseType.bind BaseType.kind

theorem kind_scalar (b : BaseType) : (scalar b).kind = b.kind := by
  rw [kind, baseType, scalar, BaseType.ofId_id]
  rfl

/-- The kind is a matter of the base. -/
theorem kind_congr {t u : DataType} (h : t.base = u.base) : t.kind = u.kind := by
  rw [kind, kind, baseType, baseType, h]

theorem kind_eq (t : DataType) : t.kind = t.rank.map NumericKind.ofRank := by
  unfold kind rank
  cases t.baseType with
  | none => rfl
  | some b => exact b.kind_eq

/-- The base types of a kind that is not floating. -/
theorem baseType_of_kind {t : DataType} {k : NumericKind} (h : t.kind = some k)
    (hk : k ≠ .floating) :
    t.baseType = some .bool ∨ t.baseType = some .int ∨ t.baseType = some .uint := by
  obtain ⟨b, hb, hkind⟩ := Option.bind_eq_some_iff.1 h
  rw [hb]
  cases b <;> simp_all [BaseType.kind]

/-- Integers are signed or unsigned. -/
theorem kind_of_isInteger {t : DataType} (h : t.isInteger = true) :
    ∃ k, t.kind = some k ∧ k ≠ .floating := by
  obtain ⟨b, hb, hint⟩ := (Option.any_eq_true ..).1 h
  rw [kind, hb]
  cases b <;> first | contradiction | exact ⟨_, rfl, nofun⟩

/-! ### Promotion -/

variable {a b t : DataType} {k l : NumericKind}

/-- The wider of two numeric base types is one of them, and its kind is the higher one. -/
theorem promote_of_kind (ha : a.kind = some k) (hb : b.kind = some l) :
    ∃ base, promote a b = some base ∧ (base = a.base ∨ base = b.base) ∧
      ∀ u : DataType, u.base = base → u.kind = some (k.higher l) := by
  have hka := ha
  have hkb := hb
  rw [kind_eq] at ha hb
  obtain ⟨m, hm, rfl⟩ := Option.map_eq_some_iff.1 ha
  obtain ⟨n, hn, rfl⟩ := Option.map_eq_some_iff.1 hb
  have hpromote : promote a b = some (if n ≤ m then a.base else b.base) := by
    rw [promote, hm, hn]
  by_cases hle : n ≤ m
  · refine ⟨a.base, by rw [hpromote, if_pos hle], .inl rfl, fun u hu => ?_⟩
    rw [kind_congr hu, hka, NumericKind.higher_ofRank hle]
  · refine ⟨b.base, by rw [hpromote, if_neg hle], .inr rfl, fun u hu => ?_⟩
    rw [kind_congr hu, hkb, NumericKind.higher_comm, NumericKind.higher_ofRank (by omega)]

/-- The base of a component-by-component result is the wider base. -/
theorem promote_of_componentwise (h : componentwise a b = some t) : promote a b = some t.base := by
  obtain ⟨base, hbase, h⟩ := Option.bind_eq_some_iff.1 h
  rw [hbase]
  split at h
  · obtain rfl := Option.some.inj h
    rfl
  · split at h
    · obtain rfl := Option.some.inj h
      rfl
    · contradiction

theorem base_of_linearMap {base : UInt32} (h : linearMap base a b = some t) : t.base = base := by
  unfold linearMap at h
  split at h
  · split at h
    · obtain rfl := Option.some.inj h
      rfl
    · split at h
      · obtain rfl := Option.some.inj h
        rfl
      · contradiction
  · contradiction

/-- The base of a product is the wider base. -/
theorem promote_of_multiply (h : multiply a b = some t) : promote a b = some t.base := by
  obtain ⟨base, hbase, h⟩ := Option.bind_eq_some_iff.1 h
  rw [hbase]
  split at h
  · obtain rfl := Option.some.inj h
    rfl
  · split at h
    · rw [base_of_linearMap h]
    · split at h
      · obtain rfl := Option.some.inj h
        rfl
      · contradiction

/-- **The wider of two base types has the higher of their kinds.** -/
theorem kind_typeBinary {op : BinaryOp} (h : Arena.typeBinary op a b = some t)
    (ha : a.kind = some k) (hb : b.kind = some l) : t.kind = some (k.higher l) := by
  obtain ⟨base, hbase, -, hkind⟩ := promote_of_kind ha hb
  have hpromote : promote a b = some t.base := by
    unfold Arena.typeBinary at h
    split at h
    · exact promote_of_multiply h
    · exact promote_of_componentwise h
  exact hkind t (Option.some.inj (hpromote.symm.trans hbase))

/-! ### Scalars -/

theorem isScalar_scalar (b : BaseType) : (scalar b).isScalar = true := by
  cases b <;> rfl

/-- A scalar of a kind is a numeric base type without extents. -/
theorem eq_scalar (hs : t.isScalar = true) (hk : t.kind = some k) :
    ∃ b, t = scalar b ∧ b.kind = some k := by
  obtain ⟨b, hb, hkind⟩ := Option.bind_eq_some_iff.1 hk
  have hextents : t.dim0 = none ∧ t.dim1 = none := by
    simp only [isScalar, Bool.and_eq_true, Option.isNone_iff_eq_none] at hs
    exact ⟨hs.1.2, hs.2⟩
  refine ⟨b, ?_, hkind⟩
  obtain ⟨base, dim0, dim1⟩ := t
  obtain ⟨rfl, rfl⟩ := hextents
  rw [scalar, BaseType.id_of_ofId hb]

/-- **An operator between numeric scalars has a numeric scalar type**, of the higher kind. -/
theorem typeBinary_scalar (op : BinaryOp) {b d : BaseType} (hb : b.kind = some k)
    (hd : d.kind = some l) :
    ∃ e, Arena.typeBinary op (scalar b) (scalar d) = some (scalar e) ∧
      e.kind = some (k.higher l) := by
  obtain ⟨base, hpromote, hbase, hkind⟩ :=
    promote_of_kind ((kind_scalar b).trans hb) ((kind_scalar d).trans hd)
  have htype : Arena.typeBinary op (scalar b) (scalar d) = some ((scalar d).withBase base) := by
    unfold Arena.typeBinary
    split
    · rw [multiply, hpromote]
      simp [holdsFor, isScalar_scalar]
    · rw [componentwise, hpromote]
      simp [isScalar_scalar]
  -- the wider base is one of the two, and a scalar over it is a scalar again
  rcases hbase with rfl | rfl
  · exact ⟨b, htype, (kind_scalar b).symm.trans (hkind (scalar b) rfl)⟩
  · exact ⟨d, htype, (kind_scalar d).symm.trans (hkind (scalar d) rfl)⟩

end DataType

/-! ### Conversions -/

namespace Arena

/-- A conversion gives a constant of the kind of its type, which is a scalar. -/
theorem kind_of_foldConversion {value : NodeId → Walk Constant} {type : DataType}
    {operand : NodeId} {c : Constant}
    (h : (foldConversion value type operand).run = .ok (some c)) :
    type.isScalar = true ∧ type.kind = some c.kind := by
  unfold foldConversion at h
  split at h
  · next hscalar =>
      obtain ⟨v, -, hcast⟩ := Walk.run_bind_eq_some.1 h
      obtain ⟨target, htarget, hcast⟩ := Option.bind_eq_some_iff.1 (Except.ok.inj hcast)
      refine ⟨hscalar, ?_⟩
      rw [DataType.kind, htarget]
      exact Constant.kind_cast hcast
  · exact absurd h Walk.run_failure_ne

end Arena

end ShaderLang
