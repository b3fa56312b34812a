/-
**Floating-point literals can be read.**

A floating-point literal is cut from the source text by one function and read by another.  Both agree
on how a number is written: digits with a point among or beside them or with an exponent behind them.
The letter that may follow belongs to the literal but not to the number, and is cut off again before the
number is read.

Main definitions:

* `ShaderLang.Decimal.ExponentText`, `ShaderLang.Decimal.NumberText`, `ShaderLang.Decimal.SuffixText` —
  how exponents, numbers and the letter behind a number are written.

Main results:

* `ShaderLang.Lexeme.take_float` — **what is cut as a floating-point literal is a number and at most one
  letter**;
* `ShaderLang.Decimal.exists_readUnsigned` — **such a number can be read**;
* `ShaderLang.isSome_floatLiteral` — so such a literal can be read.
-/

import Mathlib.Data.List.TakeWhile
import ShaderLang.Constant.Literal
import ShaderLang.Proofs.Text.Digits
import ShaderLang.Token.Lexeme

set_option relaxedAutoImplicit false
set_option autoImplicit false

namespace ShaderLang

open Text

/-! ### Ends of texts -/

namespace Text

/-- Nothing but an end of such characters is cut off. -/
theorem trimEnd_append {p : Char → Bool} {front back : List Char} (hback : ∀ c ∈ back, p c = true)
    (hfront : ∀ c ∈ front.getLast?, p c = false) : trimEnd p (front ++ back) = front := by
  rw [trimEnd, List.reverse_append, List.dropWhile_append_of_pos (by simpa using hback)]
  cases hreverse : front.reverse with
  | nil =>
      rw [List.reverse_eq_nil_iff.1 hreverse]
      rfl
  | cons c cs =>
      have hfrontEq : front = cs.reverse ++ [c] := by
        rw [← List.reverse_reverse front, hreverse, List.reverse_cons]
      have hlast : p c = false := hfront c (by simp [hfrontEq])
      rw [List.dropWhile_cons_of_neg (by simp [hlast]), hfrontEq, List.reverse_cons]

end Text

/-! ### How numbers are written -/

namespace Decimal

/-- Nothing, or a letter, an optional sign and digits. -/
inductive ExponentText : List Char → Prop where
  | absent : ExponentText []
  | present {letter : Char} {sign digits : List Char} (hletter : letter = 'e' ∨ letter = 'E')
      (hsign : sign = [] ∨ sign = ['+'] ∨ sign = ['-']) (hnonempty : digits ≠ [])
      (hdigits : ∀ c ∈ digits, isDecimal c = true) : ExponentText (letter :: (sign ++ digits))

/-- Digits with a point among or beside them and perhaps an exponent, or digits with an exponent. -/
inductive NumberText : List Char → Prop where
  | pointed {whole fraction tail : List Char} (hwhole : ∀ c ∈ whole, isDecimal c = true)
      (hfraction : ∀ c ∈ fraction, isDecimal c = true) (hnonempty : whole ≠ [] ∨ fraction ≠ [])
      (htail : ExponentText tail) : NumberText (whole ++ '.' :: (fraction ++ tail))
  | plain {whole tail : List Char} {letter : Char} (hwhole : ∀ c ∈ whole, isDecimal c = true)
      (hnonempty : whole ≠ []) (htail : ExponentText (letter :: tail)) :
      NumberText (whole ++ letter :: tail)

/-- Nothing, or the one letter that may end a floating-point literal. -/
inductive SuffixText : List Char → Prop where
  | absent : SuffixText []
  | present {letter : Char} (hletter : isFloatSuffix letter = true) : SuffixText [letter]

theorem SuffixText.isFloatSuffix {suffix : List Char} (h : SuffixText suffix) :
    ∀ c ∈ suffix, isFloatSuffix c = true := by
  cases h with
  | absent => nofun
  | present hletter =>
      intro c hc
      rwa [List.mem_singleton.1 hc]

/-- An exponent begins with its letter. -/
theorem ExponentText.head {c : Char} {cs : List Char} (h : ExponentText (c :: cs)) :
    c = 'e' ∨ c = 'E' := by
  cases h with
  | present hletter => exact hletter

theorem ExponentText.not_isDecimal {tail : List Char} (h : ExponentText tail) (c : Char)
    (cs : List Char) (hcs : tail = c :: cs) : isDecimal c = false := by
  subst hcs
  rcases h.head with rfl | rfl <;> rfl

/-- Digits in front of something else are found whole. -/
theorem splitDigits {whole rest : List Char} (hwhole : ∀ c ∈ whole, isDecimal c = true)
    (hrest : ∀ c cs, rest = c :: cs → isDecimal c = false) :
    (whole ++ rest).takeWhile isDecimal = whole ∧ (whole ++ rest).dropWhile isDecimal = rest := by
  rw [List.takeWhile_append_of_pos hwhole, List.dropWhile_append_of_pos hwhole]
  cases rest with
  | nil => simp
  | cons c cs => simp [hrest c cs rfl]

/-- Digits are not taken for a sign. -/
theorem splitSign_of_head {cs : List Char} (h : ∀ c ∈ cs.head?, c ≠ '+' ∧ c ≠ '-') :
    splitSign cs = (false, cs) := by
  unfold splitSign
  split
  · exact absurd rfl (h '+' rfl).1
  · exact absurd rfl (h '-' rfl).2
  · rfl

theorem not_sign_of_isDecimal {c : Char} (h : isDecimal c = true) : c ≠ '+' ∧ c ≠ '-' := by
  constructor
  · rintro rfl
    exact absurd h (by decide)
  · rintro rfl
    exact absurd h (by decide)

theorem exists_readExponent {sign digits : List Char}
    (hsign : sign = [] ∨ sign = ['+'] ∨ sign = ['-']) (hnonempty : digits ≠ [])
    (hdigits : ∀ c ∈ digits, isDecimal c = true) : ∃ e, readExponent (sign ++ digits) = some e := by
  obtain ⟨n, hn⟩ := exists_positional hdigits
  have hsplit : ∃ negative, splitSign (sign ++ digits) = (negative, digits) := by
    rcases hsign with rfl | rfl | rfl
    · refine ⟨false, splitSign_of_head fun c hc => ?_⟩
      exact not_sign_of_isDecimal (hdigits c (List.mem_of_mem_head? hc))
    · exact ⟨false, rfl⟩
    · exact ⟨true, rfl⟩
  obtain ⟨negative, hsplit⟩ := hsplit
  exact ⟨if negative then -n else n, by simp [readExponent, hsplit, hnonempty, hn]⟩

theorem exists_readTail {tail : List Char} (h : ExponentText tail) :
    ∃ e, readTail tail = some e := by
  cases h with
  | absent => exact ⟨0, rfl⟩
  | present hletter hsign hnonempty hdigits =>
      rcases hletter with rfl | rfl
      · exact exists_readExponent hsign hnonempty hdigits
      · exact exists_readExponent hsign hnonempty hdigits

/-- **A number that is written in this way can be read.** -/
theorem exists_readUnsigned {number : List Char} (h : NumberText number) :
    ∃ d, readUnsigned number = some d := by
  cases h with
  | @pointed whole fraction tail hwhole hfraction hnonempty htail =>
      have hpoint : ∀ c cs, '.' :: (fraction ++ tail) = c :: cs → isDecimal c = false := by
        intro c cs heq
        obtain ⟨rfl, -⟩ := List.cons.inj heq
        rfl
      obtain ⟨htake, hdrop⟩ := splitDigits hwhole hpoint
      obtain ⟨htake', hdrop'⟩ := splitDigits hfraction htail.not_isDecimal
      have hdigits : ∀ c ∈ whole ++ fraction, isDecimal c = true := by
        intro c hc
        exact (List.mem_append.1 hc).elim (hwhole c) (hfraction c)
      obtain ⟨n, hn⟩ := exists_positional hdigits
      obtain ⟨e, he⟩ := exists_readTail htail
      have hempty : (whole.isEmpty && fraction.isEmpty) = false := by
        cases whole <;> cases fraction <;> simp at hnonempty ⊢
      refine ⟨⟨n, e - fraction.length⟩, ?_⟩
      simp [readUnsigned, htake, hdrop, htake', hdrop', hempty, hn, he]
  | @plain whole tail letter hwhole hnonempty htail =>
      obtain ⟨htake, hdrop⟩ := splitDigits hwhole htail.not_isDecimal
      obtain ⟨n, hn⟩ := exists_positional hwhole
      obtain ⟨e, he⟩ := exists_readTail htail
      refine ⟨⟨n, e⟩, ?_⟩
      rcases htail.head with rfl | rfl <;>
        simp [readUnsigned, htake, hdrop, hnonempty, hn, he]

/-- A number begins with a digit or a point. -/
theorem NumberText.head {number : List Char} (h : NumberText number) :
    ∀ c ∈ number.head?, isDecimal c = true ∨ c = '.' := by
  intro c hc
  cases h with
  | @pointed whole fraction tail hwhole =>
      cases whole with
      | nil =>
          obtain rfl := Option.some.inj hc
          exact .inr rfl
      | cons d ds =>
          obtain rfl := Option.some.inj hc
          exact .inl (hwhole d (List.mem_cons_self ..))
  | @plain whole tail letter hwhole hnonempty =>
      obtain ⟨d, ds, rfl⟩ := List.exists_cons_of_ne_nil hnonempty
      obtain rfl := Option.some.inj hc
      exact .inl (hwhole d (List.mem_cons_self ..))

theorem NumberText.not_sign {number : List Char} (h : NumberText number) :
    ∀ c ∈ number.head?, c ≠ '+' ∧ c ≠ '-' := by
  intro c hc
  rcases h.head c hc with hdecimal | rfl
  · exact not_sign_of_isDecimal hdecimal
  · decide

theorem exists_last {digits : List Char} (hne : digits ≠ [])
    (h : ∀ c ∈ digits, isDecimal c = true) :
    ∃ c, digits.getLast? = some c ∧ isDecimal c = true := by
  have hlast : digits.getLast? = some (digits.getLast hne) := List.getLast?_eq_some_getLast hne
  exact ⟨_, hlast, h _ (List.mem_of_getLast? hlast)⟩

/-- An exponent ends with a digit. -/
theorem ExponentText.last {tail : List Char} (h : ExponentText tail) (hne : tail ≠ []) :
    ∃ c, tail.getLast? = some c ∧ isDecimal c = true := by
  cases h with
  | absent => contradiction
  | @present letter sign digits hletter hsign hnonempty hdigits =>
      obtain ⟨c, hc, hdecimal⟩ := exists_last hnonempty hdigits
      exact ⟨c, by simp [List.getLast?_cons, List.getLast?_append, hc], hdecimal⟩

/-- A number ends with a digit or a point. -/
theorem NumberText.last {number : List Char} (h : NumberText number) :
    ∃ c, number.getLast? = some c ∧ (isDecimal c = true ∨ c = '.') := by
  cases h with
  | @pointed whole fraction tail hwhole hfraction _ htail =>
      by_cases htailNe : tail = []
      · by_cases hfractionNe : fraction = []
        · exact ⟨'.', by simp [htailNe, hfractionNe], .inr rfl⟩
        · obtain ⟨c, hc, hdecimal⟩ := exists_last hfractionNe hfraction
          exact ⟨c, by simp [htailNe, List.getLast?_append, List.getLast?_cons, hc], .inl hdecimal⟩
      · obtain ⟨c, hc, hdecimal⟩ := htail.last htailNe
        exact ⟨c, by simp [List.getLast?_append, List.getLast?_cons, hc], .inl hdecimal⟩
  | @plain whole tail letter hwhole hnonempty htail =>
      obtain ⟨c, hc, hdecimal⟩ := htail.last (List.cons_ne_nil _ _)
      exact ⟨c, by rw [List.getLast?_append, hc]; rfl, .inl hdecimal⟩

end Decimal

namespace Lexeme

open Decimal

variable (cs : List Char)

/-- What is cut as an exponent is one. -/
theorem take_exponent : ExponentText (cs.take (exponent cs)) := by
  cases cs with
  | nil => exact .absent
  | cons c cs =>
      by_cases hletter : c = 'e' ∨ c = 'E'
      · by_cases hnone : decimals (cs.drop (sign cs)) = 0
        · rw [exponent, if_pos hletter, if_pos hnone]
          exact .absent
        · have htake : (c :: cs).take (1 + sign cs + decimals (cs.drop (sign cs))) =
              c :: (cs.take (sign cs) ++ (cs.drop (sign cs)).takeWhile isDecimal) := by
            rw [Nat.add_assoc, Nat.add_comm, List.take_succ_cons, List.take_add, ← take_run]
            rfl
          rw [exponent, if_pos hletter, if_neg hnone, htake]
          refine .present hletter ?_ ?_ fun d hd => ?_
          · unfold sign
            split <;> simp
          · exact fun hempty => hnone (congrArg List.length hempty)
          · exact List.mem_takeWhile_imp hd
      · rw [exponent, if_neg hletter]
        exact .absent

theorem take_exponent_ne_nil (h : exponent cs ≠ 0) : cs.take (exponent cs) ≠ [] := by
  intro hnil
  cases cs with
  | nil => exact h rfl
  | cons c cs =>
      rcases List.take_eq_nil_iff.1 hnil with hzero | hempty
      · exact h hzero
      · contradiction

/-- What is cut behind the digits is an exponent and at most one letter. -/
theorem take_floatTail : ∃ tail suffix, cs.take (floatTail cs) = tail ++ suffix ∧
    ExponentText tail ∧ (exponent cs ≠ 0 → tail ≠ []) ∧ SuffixText suffix := by
  refine ⟨cs.take (exponent cs), (cs.drop (exponent cs)).take (floatSuffix (cs.drop (exponent cs))),
    List.take_add, take_exponent cs, take_exponent_ne_nil cs, ?_⟩
  generalize cs.drop (exponent cs) = rest
  cases rest with
  | nil => exact .absent
  | cons d rest =>
      by_cases hsuffix : isFloatSuffix d = true
      · rw [show floatSuffix (d :: rest) = 1 from if_pos hsuffix]
        exact .present hsuffix
      · rw [show floatSuffix (d :: rest) = 0 from if_neg hsuffix]
        exact .absent

variable {cs}

theorem float_of_point {rest : List Char} (hrest : cs.drop (decimals cs) = '.' :: rest) :
    float cs = if decimals cs = 0 ∧ decimals rest = 0 then 0
      else decimals cs + 1 + decimals rest + floatTail (rest.drop (decimals rest)) := by
  simp only [float, hrest]

theorem float_of_plain (hrest : ∀ rest, cs.drop (decimals cs) ≠ '.' :: rest) :
    float cs = if decimals cs = 0 ∨ exponent (cs.drop (decimals cs)) = 0 then 0
      else decimals cs + floatTail (cs.drop (decimals cs)) := by
  unfold float
  dsimp only
  generalize cs.drop (decimals cs) = l at hrest ⊢
  cases l with
  | nil => rfl
  | cons c l =>
      split
      · next rest heq => exact absurd heq (hrest rest)
      · rfl

theorem decimals_eq_zero_iff : decimals cs = 0 ↔ cs.takeWhile isDecimal = [] :=
  List.length_eq_zero_iff

/-- **What is cut as a floating-point literal is a number and at most one letter.** -/
theorem take_float (h : float cs ≠ 0) : ∃ number suffix, cs.take (float cs) = number ++ suffix ∧
    NumberText number ∧ SuffixText suffix := by
  have hwhole : cs.take (decimals cs) = cs.takeWhile isDecimal := take_run isDecimal cs
  by_cases hpoint : ∃ rest, cs.drop (decimals cs) = '.' :: rest
  · obtain ⟨rest, hrest⟩ := hpoint
    rw [float_of_point hrest] at h ⊢
    by_cases hnone : decimals cs = 0 ∧ decimals rest = 0
    · exact absurd (if_pos hnone) h
    · obtain ⟨tail, suffix, htake, htail, -, hsuffix⟩ := take_floatTail (rest.drop (decimals rest))
      have hfraction : rest.take (decimals rest) = rest.takeWhile isDecimal := take_run isDecimal rest
      refine ⟨cs.takeWhile isDecimal ++ '.' :: (rest.takeWhile isDecimal ++ tail), suffix, ?_,
        .pointed (fun c => List.mem_takeWhile_imp) (fun c => List.mem_takeWhile_imp) ?_ htail,
        hsuffix⟩
      · rw [if_neg hnone, Nat.add_assoc, Nat.add_assoc, List.take_add, hwhole, hrest,
          Nat.add_comm 1, List.take_succ_cons, List.take_add, hfraction, htake]
        simp
      · rw [decimals_eq_zero_iff, decimals_eq_zero_iff] at hnone
        tauto
  · have hplain : ∀ rest, cs.drop (decimals cs) ≠ '.' :: rest := fun rest heq => hpoint ⟨rest, heq⟩
    rw [float_of_plain hplain] at h ⊢
    by_cases hnone : decimals cs = 0 ∨ exponent (cs.drop (decimals cs)) = 0
    · exact absurd (if_pos hnone) h
    · obtain ⟨hdigits, hexponent⟩ := not_or.1 hnone
      obtain ⟨tail, suffix, htake, htail, hne, hsuffix⟩ := take_floatTail (cs.drop (decimals cs))
      obtain ⟨letter, more, rfl⟩ := List.exists_cons_of_ne_nil (hne hexponent)
      refine ⟨cs.takeWhile isDecimal ++ letter :: more, suffix, ?_,
        .plain (fun c => List.mem_takeWhile_imp) ?_ htail, hsuffix⟩
      · rw [if_neg hnone, List.take_add, hwhole, htake, List.append_assoc]
      · rwa [Ne, ← decimals_eq_zero_iff]

end Lexeme

theorem not_isFloatSuffix_of_isDecimal {c : Char} (h : isDecimal c = true) :
    isFloatSuffix c = false := by
  by_contra hsuffix
  have hmem : c ∈ ['f', 'F', 'h', 'H'] :=
    List.contains_iff_mem.1 (Bool.not_eq_false _ ▸ hsuffix)
  have hnone : ∀ d ∈ ['f', 'F', 'h', 'H'], isDecimal d = false := by
    simp [isDecimal]
  rw [hnone c hmem] at h
  contradiction

/-- A floating-point literal can be read. -/
theorem isSome_floatLiteral {cs : List Char} (h : Lexeme.float cs ≠ 0) :
    (floatLiteral (String.ofList (cs.take (Lexeme.float cs)))).isSome := by
  obtain ⟨number, suffix, htake, hnumber, hsuffix⟩ := Lexeme.take_float h
  have htrim : trimEnd isFloatSuffix (number ++ suffix) = number := by
    refine trimEnd_append hsuffix.isFloatSuffix fun c hc => ?_
    obtain ⟨d, hd, hkind⟩ := hnumber.last
    obtain rfl := Option.some.inj (hd.symm.trans hc)
    rcases hkind with hdecimal | rfl
    · exact not_isFloatSuffix_of_isDecimal hdecimal
    · rfl
  obtain ⟨d, hd⟩ := Decimal.exists_readUnsigned hnumber
  have hmagnitude : (readMagnitude number).isSome := by
    unfold readMagnitude
    split
    · rfl
    · rfl
    · rfl
    · rw [hd]
      rfl
  rw [htake, floatLiteral, String.toList_ofList, htrim, readFloat,
    Decimal.splitSign_of_head hnumber.not_sign]
  simpa using hmagnitude

end ShaderLang
