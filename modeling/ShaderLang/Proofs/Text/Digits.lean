/-
**The number that digits spell.**

Digits are read from the left, one by one.  What they spell is said from the right: the last digit counts
once, the one in front of it as many times as the base says, and so on.  Both agree, and the digits in
which a number is written are read as that number.

Main definitions:

* `ShaderLang.Text.Spells` — the number that digits spell in a base.

Main results:

* `ShaderLang.Text.positional_eq_some_iff` — **digits are read as the number that they spell**;
* `ShaderLang.Text.exists_positional` — decimal digits spell a number;
* `ShaderLang.Text.spells_toString` — **a number is written in the digits that spell it**.
-/

import Mathlib.Data.List.Forall2
import Mathlib.Data.List.Induction
import Mathlib.Data.Nat.Digits.Defs
import ShaderLang.Text.Digit

set_option relaxedAutoImplicit false
set_option autoImplicit false

namespace ShaderLang.Text

variable {base d n : Nat} {c : Char} {digits : List Char}

/-- The number that digits of a base spell, each with its value; the last one is the lowest. -/
def Spells (base : Nat) (digits : List Char) (n : Nat) : Prop :=
  ∃ values, List.Forall₂ (fun c d => digitValue c = some d ∧ d < base) digits.reverse values ∧
    n = Nat.ofDigits base values

theorem spells_nil : Spells base [] n ↔ n = 0 := by
  simp [Spells]

/-- One more digit behind those that are there. -/
theorem spells_concat : Spells base (digits ++ [c]) n ↔
    ∃ m d, Spells base digits m ∧ (digitValue c = some d ∧ d < base) ∧ n = m * base + d := by
  unfold Spells
  rw [List.reverse_concat]
  constructor
  · rintro ⟨values, hvalues, rfl⟩
    obtain ⟨d, rest, hd, hrest, rfl⟩ := List.forall₂_cons_left_iff.1 hvalues
    exact ⟨_, d, ⟨rest, hrest, rfl⟩, hd, by rw [Nat.ofDigits_cons, Nat.mul_comm, Nat.add_comm]⟩
  · rintro ⟨_, d, ⟨rest, hrest, rfl⟩, hd, rfl⟩
    exact ⟨d :: rest, .cons hd hrest, by rw [Nat.ofDigits_cons, Nat.mul_comm, Nat.add_comm]⟩

theorem digitIn_eq_some_iff : digitIn base c = some d ↔ digitValue c = some d ∧ d < base := by
  simp [digitIn, Option.filter_eq_some_iff]

theorem appendDigit_eq_some_iff {value : Option Nat} : appendDigit base value c = some n ↔
    ∃ m d, value = some m ∧ digitIn base c = some d ∧ n = m * base + d := by
  unfold appendDigit
  cases value <;> cases digitIn base c <;> simp [eq_comm]

/-- **Digits are read as the number that they spell.** -/
theorem positional_eq_some_iff : positional base digits = some n ↔ Spells base digits n := by
  induction digits using List.reverseRecOn generalizing n with
  | nil => rw [positional_nil, spells_nil, Option.some_inj, eq_comm]
  | append_singleton digits c ih =>
      rw [positional_append_singleton, appendDigit_eq_some_iff, spells_concat]
      simp only [ih, digitIn_eq_some_iff]

/-! ### Decimal digits -/

theorem exists_digitIn {c : Char} (h : isDecimal c = true) : ∃ d, digitIn 10 c = some d := by
  have hle : c.toNat ≤ 57 := by
    simp only [isDecimal, Bool.and_eq_true, decide_eq_true_eq] at h
    exact h.2
  have hten : c.toNat - 48 < 10 := by omega
  exact ⟨c.toNat - 48, by simp [digitIn, digitValue, h, hten]⟩

/-- Decimal digits spell a number. -/
theorem exists_positional {digits : List Char} (h : ∀ c ∈ digits, isDecimal c = true) :
    ∃ n, positional 10 digits = some n := by
  induction digits using List.reverseRecOn with
  | nil => exact ⟨0, rfl⟩
  | append_singleton digits c ih =>
      obtain ⟨n, hn⟩ := ih fun d hd => h d (List.mem_append_left _ hd)
      obtain ⟨d, hd⟩ := exists_digitIn (h c (by simp))
      exact ⟨n * 10 + d, by simp only [positional_append_singleton, hn, appendDigit, hd]⟩

/-- A digit of base ten is one of `0` to `9`. -/
theorem isDecimal_of_digitValue {c : Char} {d : Nat} (h : digitValue c = some d) (hd : d < 10) :
    isDecimal c = true := by
  unfold digitValue at h
  split at h
  · assumption
  · split at h
    · have hvalue := Option.some.inj h
      omega
    · split at h
      · have hvalue := Option.some.inj h
        omega
      · contradiction

theorem isDecimal_of_spells {digits : List Char} {n : Nat} (h : Spells 10 digits n) :
    ∀ c ∈ digits, isDecimal c = true := by
  intro c hc
  obtain ⟨values, hvalues, -⟩ := h
  have hall := hvalues.imp fun c d hd => And.intro (isDecimal_of_digitValue hd.1 hd.2) hd
  exact ((List.forall₂_and_left _ _).1 hall).1 c (List.mem_reverse.2 hc)

theorem digitValue_digitChar {d : Nat} (h : d < 10) : digitValue d.digitChar = some d := by
  have htable : ∀ d < 10, digitValue d.digitChar = some d := by decide
  exact htable d h

theorem spells_toDigits (n : Nat) : Spells 10 (Nat.toDigits 10 n) n := by
  induction n using Nat.strongRecOn with
  | ind n ih =>
      by_cases hlt : n < 10
      · rw [Nat.toDigits_of_lt_base hlt, ← List.nil_append [n.digitChar]]
        exact spells_concat.2 ⟨0, n, spells_nil.2 rfl, ⟨digitValue_digitChar hlt, hlt⟩, by simp⟩
      · -- the digits in front of the last one are those of the quotient
        have hmod : n % 10 < 10 := Nat.mod_lt _ (by decide)
        rw [Nat.toDigits_of_base_le (by decide) (Nat.not_lt.1 hlt)]
        exact spells_concat.2 ⟨n / 10, n % 10, ih _ (by omega), ⟨digitValue_digitChar hmod, hmod⟩,
          by omega⟩

theorem toList_toString (n : Nat) : (toString n).toList = Nat.toDigits 10 n := by
  rw [Nat.toString_eq_ofList_toDigits, String.toList_ofList]

/-- **A number is written in the digits that spell it.** -/
theorem spells_toString (n : Nat) : Spells 10 (toString n).toList n :=
  toList_toString n ▸ spells_toDigits n

theorem isDecimal_of_mem_toString {n : Nat} {c : Char} (h : c ∈ (toString n).toList) :
    isDecimal c = true := by
  rw [toList_toString] at h
  exact Nat.isDigit_of_mem_toDigits (by decide) (by decide) h

theorem toString_ne_nil (n : Nat) : (toString n).toList ≠ [] := by
  rw [toList_toString]
  exact Nat.toDigits_ne_nil

end ShaderLang.Text
