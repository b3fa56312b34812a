/-
**Types agree with values.**

Folding promotes the kinds of constants, typing promotes base types; they know nothing of each other.
An expression that folds has a numeric scalar type whose numbers are of the constant's kind.  A
choice has the type of its first branch, whichever branch gives the value, so the branches of every
choice must be known to be of one kind.

Main definitions:

* `ShaderLang.Arena.EvenChoices` — the branches of every choice at or below a node are numeric
  scalars of one kind.

Main results:

* `ShaderLang.Arena.typeNode_of_foldNode` — one step of both walks;
* `ShaderLang.Arena.typeOf_of_fold` — **an expression that folds has the type of its value**.
-/

import Mathlib.Tactic.IntervalCases
import ShaderLang.Proofs.Arena.Acyclic
import ShaderLang.Proofs.Static.Kinds

set_option relaxedAutoImplicit false
set_option autoImplicit false

namespace ShaderLang.Arena

variable {a : Arena} {scope : Scope}

/-! ### One step of both walks -/

/-- The walk finds a numeric scalar of the kind. -/
def FindsScalar (w : Walk DataType) (k : NumericKind) : Prop :=
  ∃ b, w.run = .ok (some (.scalar b)) ∧ b.kind = some k

/-- The kind of what a walk finds is unique. -/
theorem FindsScalar.unique {w : Walk DataType} {k l : NumericKind} (h : FindsScalar w k)
    (h' : FindsScalar w l) : k = l := by
  obtain ⟨b, hb, hk⟩ := h
  obtain ⟨d, hd, hl⟩ := h'
  have hsame : DataType.scalar b = .scalar d :=
    Option.some.inj (Except.ok.inj (hb.symm.trans hd))
  rw [← DataType.kind_scalar, hsame, DataType.kind_scalar, hl] at hk
  exact (Option.some.inj hk).symm

/-- The type of a conversion that has a value. -/
theorem findsScalar_of_foldConversion {value : NodeId → Walk Constant} {type : DataType}
    {operand : NodeId} {c : Constant}
    (h : (foldConversion value type operand).run = .ok (some c)) :
    FindsScalar (pure type) c.kind := by
  obtain ⟨hscalar, hkind⟩ := kind_of_foldConversion h
  obtain ⟨b, rfl, hb⟩ := DataType.eq_scalar hscalar hkind
  exact ⟨b, rfl, hb⟩

/-- Where operands that have a value have a type of its kind, so has a node that has a value. -/
theorem typeNode_of_foldNode {value : NodeId → Walk Constant} {type : NodeId → Walk DataType}
    {n : Node}
    (operands : ∀ i ∈ n.children, ∀ c, (value i).run = .ok (some c) → FindsScalar (type i) c.kind)
    (choice : ∀ condition yes no, n = .ternary condition yes no →
      ∃ k, FindsScalar (type yes) k ∧ FindsScalar (type no) k)
    {c : Constant} (hc : (a.foldNode value n).run = .ok (some c)) :
    FindsScalar (a.typeNode scope type n) c.kind := by
  unfold foldNode at hc
  split at hc
  case h_1 bits isUnsigned =>
      obtain rfl := Option.some.inj (Except.ok.inj hc)
      refine ⟨if isUnsigned then .uint else .int, rfl, ?_⟩
      rw [IntegerLiteral.kind_constant]
      cases isUnsigned <;> rfl
  case h_2 x =>
      obtain rfl := Option.some.inj (Except.ok.inj hc)
      exact ⟨.float, rfl, rfl⟩
  case h_3 b =>
      obtain rfl := Option.some.inj (Except.ok.inj hc)
      exact ⟨.bool, rfl, rfl⟩
  case h_4 direction operand =>
      obtain ⟨v, hv, hstep⟩ := Walk.run_bind_eq_some.1 hc
      obtain rfl := Option.some.inj (Except.ok.inj hstep)
      rw [Constant.kind_step]
      exact operands operand (by simp [Node.children]) v hv
  case h_5 direction operand => exact operands operand (by simp [Node.children]) c hc
  case h_6 op operand =>
      obtain ⟨v, hv, happly⟩ := Walk.run_bind_eq_some.1 hc
      rw [Constant.kind_applyUnary (Except.ok.inj happly)]
      have hoperand := operands operand (by simp [Node.children]) v hv
      cases op with
      | logicalNot =>
          obtain ⟨b, hb, -⟩ := hoperand
          refine ⟨.bool, ?_, rfl⟩
          exact Walk.run_bind_eq_some.2 ⟨_, Walk.run_attempt_eq_some.2 hb, rfl⟩
      | plus => exact hoperand
      | negate => exact hoperand
      | bitNot => exact hoperand
  case h_7 target operand => exact findsScalar_of_foldConversion hc
  case h_8 target list =>
      split at hc
      · obtain ⟨m, -, hc⟩ := Walk.run_bind_eq_some.1 hc
        split at hc
        · exact findsScalar_of_foldConversion hc
        · exact absurd hc Walk.run_failure_ne
      · exact absurd hc Walk.run_failure_ne
  case h_9 op left right =>
      obtain ⟨l, hl, hc⟩ := Walk.run_bind_eq_some.1 hc
      obtain ⟨r, hr, happly⟩ := Walk.run_bind_eq_some.1 hc
      rw [Constant.kind_apply (Except.ok.inj happly), typeNode]
      split
      · exact ⟨.bool, rfl, rfl⟩
      · -- both promotions are made from the kinds of the operands
        obtain ⟨b, hb, hkb⟩ := operands left (by simp [Node.children]) l hl
        obtain ⟨d, hd, hkd⟩ := operands right (by simp [Node.children]) r hr
        obtain ⟨e, htype, hkind⟩ := DataType.typeBinary_scalar op hkb hkd
        refine ⟨e, ?_, hkind⟩
        refine Walk.run_bind_eq_some.2 ⟨_, hb, Walk.run_bind_eq_some.2 ⟨_, hd, ?_⟩⟩
        exact congrArg Except.ok htype
  case h_10 condition yes no =>
      obtain ⟨v, -, hc⟩ := Walk.run_bind_eq_some.1 hc
      obtain ⟨k, hyes, hno⟩ := choice condition yes no rfl
      -- whichever branch gives the value, the type is that of the first one
      have hk : c.kind = k := by
        split at hc
        · exact (operands yes (by simp [Node.children]) c hc).unique hyes
        · exact (operands no (by simp [Node.children]) c hc).unique hno
      rw [hk]
      obtain ⟨b, hb, hkb⟩ := hyes
      exact ⟨b, Walk.run_bind_eq_some.2 ⟨_, Walk.run_attempt_eq_some.2 hb, rfl⟩, hkb⟩
  case h_11 op target right =>
      obtain ⟨v, -, hc⟩ := Walk.run_bind_eq_some.1 hc
      obtain ⟨t, ht, hassign⟩ := Walk.run_bind_eq_some.1 hc
      rw [Constant.kind_assigned (Except.ok.inj hassign)]
      exact operands target (by simp [Node.children]) t ht
  case h_12 left right => exact operands right (by simp [Node.children]) c hc
  case h_13 => exact absurd hc Walk.run_failure_ne

/-! ### Types and values -/

/-- The branches of every choice at or below the node have numeric scalar types of one kind. -/
def EvenChoices (a : Arena) (scope : Scope) (id : NodeId) : Prop :=
  ∀ i condition yes no, Relation.ReflTransGen a.Refers id i →
    a.node? i = some (.ternary condition yes no) →
    ∃ b d k, a.typeOf scope yes = .ok (some (.scalar b)) ∧
      a.typeOf scope no = .ok (some (.scalar d)) ∧ BaseType.kind b = some k ∧
      BaseType.kind d = some k

theorem EvenChoices.below {id c : NodeId} (h : a.EvenChoices scope id) (hc : a.Below id c) :
    a.EvenChoices scope c :=
  fun i condition yes no hi => h i condition yes no (hc.to_reflTransGen.trans hi)

/-- **An expression that folds has the type of its value**: a numeric scalar type of the constant's
kind.  The induction is on the nodes below. -/
theorem typeOf_of_fold {a : Arena} (ha : a.Acyclic) (scope : Scope) (id : NodeId)
    (h : a.EvenChoices scope id) {c : Constant} (hc : a.fold id = .ok (some c)) :
    ∃ b, a.typeOf scope id = .ok (some (.scalar b)) ∧ BaseType.kind b = some c.kind := by
  induction id using ha.induction generalizing c with
  | step id ih =>
      obtain ⟨n, hn⟩ := exists_node?_of_fold hc
      rw [ha.fold_eq hn] at hc
      rw [ha.typeOf_eq hn]
      have operands : ∀ i ∈ n.children, ∀ v, (a.value i).run = .ok (some v) →
          FindsScalar (a.typing scope i) v.kind := by
        intro i hi v hv
        have hbelow : a.Below id i := (refers_of_node? hn hi).below
        exact ih i hbelow (h.below hbelow) hv
      refine typeNode_of_foldNode operands ?_ hc
      rintro condition yes no rfl
      obtain ⟨b, d, k, hyes, hno, hb, hd⟩ := h id condition yes no .refl hn
      exact ⟨k, ⟨b, hyes, hb⟩, ⟨d, hno, hd⟩⟩

/-- The expression `true ? 3 : false` times `2u`. -/
def choiceTimes : Arena :=
  [Node.bool true, .int 3 false, .bool false, .ternary ⟨0⟩ ⟨1⟩ ⟨2⟩, .int 2 true,
    .binary .multiply ⟨3⟩ ⟨4⟩].foldl (fun a n => a.add n .start) .empty

theorem typeOf_of_fold_choiceTimes :
    choiceTimes.Acyclic ∧ choiceTimes.EvenChoices .empty ⟨5⟩ ∧
      choiceTimes.fold ⟨5⟩ = .ok (some (.unsigned 6)) ∧
      ∃ b, choiceTimes.typeOf .empty ⟨5⟩ = .ok (some (.scalar b)) ∧
        BaseType.kind b = some .unsigned := by
  have hacyclic : choiceTimes.Acyclic := acyclic_of_isDescending (by decide +kernel)
  have heven : choiceTimes.EvenChoices .empty ⟨5⟩ := by
    rintro ⟨i⟩ condition yes no - hi
    have hlt : i < 6 := lt_size_of_node? hi
    -- the fourth node is the only choice
    interval_cases i <;> cases hi
    exact ⟨.int, .bool, .signed, rfl, rfl, rfl, rfl⟩
  have hfold : choiceTimes.fold ⟨5⟩ = .ok (some (.unsigned 6)) := by rfl
  exact ⟨hacyclic, heven, hfold, typeOf_of_fold hacyclic .empty ⟨5⟩ heven hfold⟩

end ShaderLang.Arena
