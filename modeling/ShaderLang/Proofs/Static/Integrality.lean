/-
**Integer expressions are integers.**

Whether an expression is an integer, what its value is and what its type is are three questions with
three walks of their own.  They keep in step: an expression that is found to be an integer has no
value but a signed or unsigned one, and no type but one of truth values or integers.  The size of an
array is checked by the first walk and counted by the second, so a size that passes the check is
counted as it is.

Main definitions:

* `ShaderLang.Arena.IsWhole` — what an expression that is an integer folds to and has as its type.

Main results:

* `ShaderLang.Arena.kind_of_foldNode`, `ShaderLang.Arena.kind_of_typeNode` — one step of each walk;
* `ShaderLang.Arena.isInteger_sound` — **what is found to be an integer has an integer value and an
  integer type**.
-/

import ShaderLang.Builder.Declaration
import ShaderLang.Proofs.Arena.Acyclic
import ShaderLang.Proofs.Constant.Whole
import ShaderLang.Proofs.Static.Kinds

set_option relaxedAutoImplicit false
set_option autoImplicit false

namespace ShaderLang

namespace Arena

variable {a : Arena} {scope : Scope}

/-! ### One step of the walks -/

theorem bothHold_eq_true {first : Except Fault Bool} {second : Unit → Except Fault Bool} :
    bothHold first second = .ok true ↔ first = .ok true ∧ second () = .ok true := by
  rcases first with e | (_ | _) <;> simp [bothHold]

/-- Where the operands that are integers fold to integers, so does a node that is an integer. -/
theorem kind_of_foldNode {value : NodeId → Walk Constant} {integer : NodeId → Except Fault Bool}
    {self : Unit → Except Fault Bool} {n : Node}
    (operands : ∀ i ∈ n.children, integer i = .ok true →
      ∀ c, (value i).run = .ok (some c) → c.kind ≠ .floating)
    (h : integerNode self integer n = .ok true) {c : Constant}
    (hc : (a.foldNode value n).run = .ok (some c)) : c.kind ≠ .floating := by
  have converted : ∀ {type : DataType} {operand : NodeId}, type.isInteger = true →
      (foldConversion value type operand).run = .ok (some c) → c.kind ≠ .floating := by
    intro type operand hint hconv
    obtain ⟨k, hk, hne⟩ := DataType.kind_of_isInteger hint
    rw [(kind_of_foldConversion hconv).2] at hk
    exact Option.some.inj hk ▸ hne
  unfold foldNode at hc
  split at hc
  case h_1 bits isUnsigned =>
      obtain rfl := Option.some.inj (Except.ok.inj hc)
      rw [IntegerLiteral.kind_constant]
      split <;> nofun
  case h_2 => exact absurd (Except.ok.inj h) Bool.false_ne_true
  case h_3 =>
      obtain rfl := Option.some.inj (Except.ok.inj hc)
      nofun
  case h_4 direction operand =>
      obtain ⟨v, hv, hstep⟩ := Walk.run_bind_eq_some.1 hc
      obtain rfl := Option.some.inj (Except.ok.inj hstep)
      rw [Constant.kind_step]
      exact operands operand (by simp [Node.children]) h v hv
  case h_5 direction operand => exact operands operand (by simp [Node.children]) h c hc
  case h_6 op operand =>
      obtain ⟨v, hv, happly⟩ := Walk.run_bind_eq_some.1 hc
      rw [Constant.kind_applyUnary (Except.ok.inj happly)]
      split
      · nofun
      · next hop =>
          refine operands operand (by simp [Node.children]) ?_ v hv
          cases op <;> first | exact h | exact absurd rfl hop
  case h_7 type operand => exact converted (Except.ok.inj h) hc
  case h_8 type list =>
      split at hc
      · obtain ⟨m, -, hc⟩ := Walk.run_bind_eq_some.1 hc
        split at hc
        · exact converted (Except.ok.inj h) hc
        · exact absurd hc Walk.run_failure_ne
      · exact absurd hc Walk.run_failure_ne
  case h_9 op left right =>
      obtain ⟨l, hl, hc⟩ := Walk.run_bind_eq_some.1 hc
      obtain ⟨r, hr, happly⟩ := Walk.run_bind_eq_some.1 hc
      rw [Constant.kind_apply (Except.ok.inj happly)]
      rw [integerNode] at h
      split
      · nofun
      · next hop =>
          rw [if_neg hop] at h
          obtain ⟨hleft, hright⟩ := bothHold_eq_true.1 h
          have hkl := operands left (by simp [Node.children]) hleft l hl
          have hkr := operands right (by simp [Node.children]) hright r hr
          exact NumericKind.higher_ne_floating hkl hkr
  case h_10 condition yes no =>
      rw [integerNode] at h
      obtain ⟨hyes, hno⟩ := bothHold_eq_true.1 h
      obtain ⟨v, -, hc⟩ := Walk.run_bind_eq_some.1 hc
      split at hc
      · exact operands yes (by simp [Node.children]) hyes c hc
      · exact operands no (by simp [Node.children]) hno c hc
  case h_11 op target right =>
      obtain ⟨v, -, hc⟩ := Walk.run_bind_eq_some.1 hc
      obtain ⟨t, ht, hassign⟩ := Walk.run_bind_eq_some.1 hc
      rw [Constant.kind_assigned (Except.ok.inj hassign)]
      exact operands target (by simp [Node.children]) h t ht
  case h_12 left right => exact operands right (by simp [Node.children]) h c hc
  case h_13 => exact absurd hc Walk.run_failure_ne

/-- Where the operands that are integers have integer types, so has a node that is an integer. -/
theorem kind_of_typeNode {type : NodeId → Walk DataType} {integer : NodeId → Except Fault Bool}
    {self : Unit → Except Fault Bool} {n : Node}
    (operands : ∀ i ∈ n.children, integer i = .ok true →
      ∀ t, (type i).run = .ok (some t) → ∃ k, t.kind = some k ∧ k ≠ .floating)
    {t : DataType} (hself : self () = .ok true → t.isInteger = true)
    (h : integerNode self integer n = .ok true)
    (ht : (a.typeNode scope type n).run = .ok (some t)) : ∃ k, t.kind = some k ∧ k ≠ .floating := by
  unfold typeNode at ht
  split at ht
  case h_1 bits isUnsigned =>
      obtain rfl := Option.some.inj (Except.ok.inj ht)
      rw [DataType.kind_scalar]
      split <;> exact ⟨_, rfl, nofun⟩
  case h_2 => exact absurd (Except.ok.inj h) Bool.false_ne_true
  case h_3 =>
      obtain rfl := Option.some.inj (Except.ok.inj ht)
      exact ⟨_, rfl, nofun⟩
  case h_4 => exact absurd (Except.ok.inj h) Bool.false_ne_true
  case h_5 => exact DataType.kind_of_isInteger (hself h)
  case h_6 => exact DataType.kind_of_isInteger (hself h)
  case h_7 placement direction operand => exact operands operand (by simp [Node.children]) h t ht
  case h_8 operand =>
      obtain ⟨o, -, ht⟩ := Walk.run_bind_eq_some.1 ht
      obtain rfl := Option.some.inj (Except.ok.inj ht)
      exact ⟨.signed, DataType.kind_congr (u := .scalar .bool) rfl, nofun⟩
  case h_9 op operand hop =>
      refine operands operand (by simp [Node.children]) ?_ t ht
      cases op <;> first | exact h | exact (hop rfl).elim
  case h_10 target operand =>
      obtain rfl := Option.some.inj (Except.ok.inj ht)
      exact DataType.kind_of_isInteger (Except.ok.inj h)
  case h_11 target list =>
      obtain rfl := Option.some.inj (Except.ok.inj ht)
      exact DataType.kind_of_isInteger (Except.ok.inj h)
  case h_12 op left right =>
      rw [integerNode] at h
      split at ht
      · obtain rfl := Option.some.inj (Except.ok.inj ht)
        exact ⟨_, rfl, nofun⟩
      · next hop =>
          rw [if_neg hop] at h
          obtain ⟨hleft, hright⟩ := bothHold_eq_true.1 h
          obtain ⟨l, hl, ht⟩ := Walk.run_bind_eq_some.1 ht
          obtain ⟨r, hr, hbinary⟩ := Walk.run_bind_eq_some.1 ht
          obtain ⟨k, hk, hkne⟩ := operands left (by simp [Node.children]) hleft l hl
          obtain ⟨j, hj, hjne⟩ := operands right (by simp [Node.children]) hright r hr
          exact ⟨_, DataType.kind_typeBinary (Except.ok.inj hbinary) hk hj,
            NumericKind.higher_ne_floating hkne hjne⟩
  case h_13 condition yes no =>
      rw [integerNode] at h
      obtain ⟨hyes, hno⟩ := bothHold_eq_true.1 h
      obtain ⟨o, ho, ht⟩ := Walk.run_bind_eq_some.1 ht
      have hrun := Walk.run_attempt_eq_some.1 ho
      split at ht
      · next u =>
          obtain rfl := Option.some.inj (Except.ok.inj ht)
          exact operands yes (by simp [Node.children]) hyes u hrun
      · exact operands no (by simp [Node.children]) hno t ht
  case h_14 op target value => exact operands target (by simp [Node.children]) h t ht
  case h_15 left right => exact operands right (by simp [Node.children]) h t ht
  case h_16 base field => exact DataType.kind_of_isInteger (hself h)
  case h_17 => exact absurd ht Walk.run_failure_ne

/-! ### The walks keep in step -/

/-- The expression folds to nothing but an integer and has no type but that of an integer. -/
structure IsWhole (a : Arena) (scope : Scope) (id : NodeId) : Prop where
  value : ∀ c, a.fold id = .ok (some c) → c.kind ≠ .floating
  type : ∀ t, a.typeOf scope id = .ok (some t) → ∃ k, t.kind = some k ∧ k ≠ .floating

/-- What is found to be an integer is one.  The induction is on the nodes below. -/
theorem Acyclic.isWhole (ha : a.Acyclic) (id : NodeId) (h : a.isInteger scope id = .ok true) :
    a.IsWhole scope id := by
  induction id using ha.induction with
  | step id ih =>
      obtain ⟨n, hn⟩ := exists_node?_of_isInteger h
      have operands : ∀ i ∈ n.children, a.isInteger scope i = .ok true → a.IsWhole scope i :=
        fun i hi => ih i (refers_of_node? hn hi).below
      rw [ha.isInteger_eq hn] at h
      constructor
      · intro c hc
        rw [ha.fold_eq hn] at hc
        exact kind_of_foldNode (fun i hi hint => (operands i hi hint).value) h hc
      · intro t ht
        have hself : (a.typeOf scope id).map (fun t => t.any DataType.isInteger) = .ok true →
            t.isInteger = true := by
          rw [ht]
          exact Except.ok.inj
        rw [ha.typeOf_eq hn] at ht
        exact kind_of_typeNode (fun i hi hint => (operands i hi hint).type) hself h ht

end Arena

/-! ### The size of an array -/

namespace Builder

variable {b : Builder} {id : NodeId}

/-- A size that is an integer is reported only if its value is a whole number out of range. -/
theorem checkSize_of_isWhole (hint : b.isInteger id = .ok true)
    (hwhole : b.arena.IsWhole b.scope id) {b' : Builder}
    (h : Build.checkSize (some id) b = .ok () b') :
    b' = b ∨ ∃ c n, b.fold id = .ok (some c) ∧ c.whole = some n ∧ ¬(0 ≤ n ∧ n < UInt32.size) ∧
      b' = { b with diagnostics := b.diagnostics.report (.sizeOutOfRange c.text) b.position } := by
  have hask : Build.ask (·.isInteger id) b = .ok true b := by simp only [Build.ask, hint]
  rw [Build.checkSize, Build.bind_apply, hask] at h
  dsimp only at h
  rw [if_pos rfl, Build.bind_apply] at h
  cases hfold : b.fold id with
  | error e =>
      have hask : Build.ask (·.fold id) b = .error e b := by simp only [Build.ask, hfold]
      rw [hask] at h
      contradiction
  | ok value =>
      have hask : Build.ask (·.fold id) b = .ok value b := by simp only [Build.ask, hfold]
      rw [hask] at h
      cases value with
      | none =>
          obtain ⟨-, rfl⟩ := EStateM.Result.ok.inj h
          exact .inl rfl
      | some c =>
          obtain ⟨n, hn⟩ := Constant.exists_whole (hwhole.value c hfold)
          have hcount := Constant.count_of_whole hn
          dsimp only at h
          split at hcount
          · obtain ⟨k, hk, -⟩ := hcount
            rw [hk] at h
            obtain ⟨-, rfl⟩ := EStateM.Result.ok.inj h
            exact .inl rfl
          · next hrange =>
              rw [hcount] at h
              obtain ⟨-, rfl⟩ := EStateM.Result.ok.inj h
              exact .inr ⟨c, n, rfl, hn, hrange, rfl⟩

/-- A size that is counted is the whole number that it folds to. -/
theorem elementCount_of_isWhole (hwhole : b.arena.IsWhole b.scope id) {k : UInt32}
    (h : b.elementCount (some id) = .ok (some k)) :
    ∃ c, b.fold id = .ok (some c) ∧ c.whole = some (k.toNat : Int) := by
  have hcounted : (b.fold id).map (fun value => value.bind Constant.count) = .ok (some k) := h
  cases hfold : b.fold id with
  | error e =>
      rw [hfold] at hcounted
      contradiction
  | ok value =>
      rw [hfold] at hcounted
      obtain ⟨c, rfl, hk⟩ := Option.bind_eq_some_iff.1 (Except.ok.inj hcounted)
      obtain ⟨n, hn⟩ := Constant.exists_whole (hwhole.value c hfold)
      have hcount := Constant.count_of_whole hn
      split at hcount
      · obtain ⟨k', hk', hn'⟩ := hcount
        obtain rfl := Option.some.inj (hk.symm.trans hk')
        exact ⟨c, rfl, by rw [hn, hn']⟩
      · rw [hk] at hcount
        contradiction

end Builder

namespace Arena

/-- **What is found to be an integer has an integer value and an integer type**, in every scope.  So
the size of an array that passes the check is reported only for a whole number out of range, and is
counted as the whole number that it is. -/
theorem isInteger_sound {a : Arena} (ha : a.Acyclic) (scope : Scope) (id : NodeId)
    (h : a.isInteger scope id = .ok true) :
    (∀ c, a.fold id = .ok (some c) → c.kind = .signed ∨ c.kind = .unsigned) ∧
      (∀ t, a.typeOf scope id = .ok (some t) →
        t.baseType = some .bool ∨ t.baseType = some .int ∨ t.baseType = some .uint) ∧
      ∀ b : Builder, b.arena = a → b.scope = scope →
        (∀ b', Build.checkSize (some id) b = .ok () b' →
          b' = b ∨ ∃ c n, b.fold id = .ok (some c) ∧ c.whole = some n ∧
            ¬(0 ≤ n ∧ n < UInt32.size) ∧
            b' = { b with
              diagnostics := b.diagnostics.report (.sizeOutOfRange c.text) b.position }) ∧
        ∀ k, b.elementCount (some id) = .ok (some k) →
          ∃ c, b.fold id = .ok (some c) ∧ c.whole = some (k.toNat : Int) := by
  have hwhole : a.IsWhole scope id := ha.isWhole id h
  refine ⟨fun c hc => ?_, fun t ht => ?_, ?_⟩
  · have hne := hwhole.value c hc
    cases hk : c.kind with
    | signed => exact .inl rfl
    | unsigned => exact .inr rfl
    | floating => exact absurd hk hne
  · obtain ⟨k, hk, hne⟩ := hwhole.type t ht
    exact DataType.baseType_of_kind hk hne
  · rintro b rfl rfl
    exact ⟨fun b' => Builder.checkSize_of_isWhole h hwhole,
      fun k => Builder.elementCount_of_isWhole hwhole⟩

/-- The expression `true ? 3 : x` less `8u`, where `x` is a name, in a builder that has `x` declared
as an integer. -/
def choiceLess : Builder :=
  let a := [Node.bool true, .int 3 false, .name ⟨0⟩, .ternary ⟨0⟩ ⟨1⟩ ⟨2⟩, .int 8 true,
    .binary .subtract ⟨3⟩ ⟨4⟩].foldl (fun a n => a.add n .start) Arena.empty
  { Builder.start .empty with
    arena := a
    names := (Names.empty.occur "x").2
    declared := [("x", ⟨.scalar .int, false⟩)] }

theorem isInteger_sound_choiceLess :
    choiceLess.arena.Acyclic ∧ choiceLess.isInteger ⟨5⟩ = .ok true ∧
      choiceLess.fold ⟨5⟩ = .ok (some (.unsigned 18446744073709551611)) ∧
      choiceLess.typeOf ⟨5⟩ = .ok (some (.scalar .uint)) ∧
      ∀ b', Build.checkSize (some ⟨5⟩) choiceLess = .ok () b' →
        b' = choiceLess ∨ ∃ c n, choiceLess.fold ⟨5⟩ = .ok (some c) ∧ c.whole = some n ∧
          ¬(0 ≤ n ∧ n < UInt32.size) ∧
          b' = { choiceLess with
            diagnostics := choiceLess.diagnostics.report (.sizeOutOfRange c.text) .start } := by
  have hacyclic : choiceLess.arena.Acyclic := acyclic_of_isDescending (by decide +kernel)
  have hint : choiceLess.arena.isInteger choiceLess.scope ⟨5⟩ = .ok true := by decide +kernel
  have hsound := isInteger_sound hacyclic choiceLess.scope ⟨5⟩ hint
  exact ⟨hacyclic, hint, by rfl, by decide +kernel, (hsound.2.2 choiceLess rfl rfl).1⟩

end Arena

end ShaderLang
