/-
**Number literals mean what they spell.**

An integer literal is digits with letters of a suffix behind them.  Its base is told by its front: sixteen
behind `0x`, eight behind a zero that is not the only digit, ten otherwise.  The digits spell a number if
all of them belong to the base; a literal can be read if this number is below 2^64, and only then.  It is
unsigned if a `u` is among the letters.

The constant is the number itself when the literal is unsigned, and else the signed number that is
written with the same bits in two's complement.

A floating-point literal can always be read.

Main definitions:

* `ShaderLang.IntegerLiteral.Numeral` — the base and the digits of an integer literal without its suffix;
* `ShaderLang.IntegerLiteral.Denotes` — the constant that a literal stands for;
* `ShaderLang.IntegerLiteral.Meaning` — what is read from an integer literal, and the node for it;
* `ShaderLang.Token.MeansNumber` — a token that means what it spells, if it is a number.

Main results:

* `ShaderLang.IntegerLiteral.Numeral.readDigits_eq_some_iff` — an integer literal without its suffix;
* `ShaderLang.TokenStream.ofSource_literals` — **the number literals of a source text**.
-/

import ShaderLang.Builder.Expression
import ShaderLang.Proofs.Arena.Walks
import ShaderLang.Proofs.Results
import ShaderLang.Proofs.Text.Digits
import ShaderLang.Proofs.Token.Longest

set_option relaxedAutoImplicit false
set_option autoImplicit false

namespace ShaderLang

open Text

/-! ### Integer literals -/

namespace IntegerLiteral

variable {base : Nat} {number digits suffix : List Char} {text : String} {value : UInt64}

/-- An integer literal without its suffix, the base that its front shows, and the digits. -/
inductive Numeral : List Char → Nat → List Char → Prop where
  | hexadecimal {letter : Char} {digits : List Char} (hletter : letter = 'x' ∨ letter = 'X')
      (hne : digits ≠ []) (h : ∀ c ∈ digits, isHexadecimal c = true) :
      Numeral ('0' :: letter :: digits) 16 digits
  | octal {digits : List Char} (hne : digits ≠ []) (h : ∀ c ∈ digits, isDecimal c = true) :
      Numeral ('0' :: digits) 8 digits
  | decimal {digits : List Char} (hne : digits ≠ []) (h : ∀ c ∈ digits, isDecimal c = true)
      (hzero : digits.head? = some '0' → digits = ['0']) : Numeral digits 10 digits

/-- Every integer without its suffix shows a base. -/
theorem exists_numeral (h : IntegerText number) : ∃ base digits, Numeral number base digits := by
  cases h with
  | hexadecimal hletter hne hdigits => exact ⟨16, _, .hexadecimal hletter hne hdigits⟩
  | decimal hne hdigits =>
      -- decimal digits are octal ones behind a zero that does not stand alone
      by_cases hzero : number.head? = some '0' → number = ['0']
      · exact ⟨10, number, .decimal hne hdigits hzero⟩
      · obtain ⟨hhead, hmore⟩ := Classical.not_imp.1 hzero
        obtain ⟨digits, rfl⟩ := List.head?_eq_some_iff.1 hhead
        refine ⟨8, digits, .octal (fun hnil => hmore (by rw [hnil])) ?_⟩
        exact fun c hc => hdigits c (List.mem_cons_of_mem _ hc)

/-- A number is read as what its digits spell, when no sign is in front. -/
theorem readNumber_eq_some_iff (hne : digits ≠ []) (hplus : digits.head? ≠ some '+') :
    readNumber base digits = some value ↔ Spells base digits value.toNat := by
  have hread : readNumber base digits = (positional base digits).bind fun n =>
      if n < UInt64.size then some (UInt64.ofNat n) else none := by
    unfold readNumber
    split
    · exact absurd rfl hplus
    · rw [if_neg (by simpa using hne)]
      cases positional base digits <;> rfl
  rw [hread, ← positional_eq_some_iff, Option.bind_eq_some_iff]
  constructor
  · rintro ⟨n, hn, hvalue⟩
    split at hvalue
    · next hlt =>
        obtain rfl := Option.some.inj hvalue
        rw [hn, UInt64.toNat_ofNat_of_lt' hlt]
    · contradiction
  · intro h
    exact ⟨_, h, by rw [if_pos value.toNat_lt, UInt64.ofNat_toNat]⟩

namespace Numeral

/-- The digits of all bases are hexadecimal. -/
theorem isHexadecimal_of_mem (h : Numeral number base digits) :
    ∀ c ∈ digits, isHexadecimal c = true := by
  have hdecimal (hdigits : ∀ c ∈ digits, isDecimal c = true) : ∀ c ∈ digits, isHexadecimal c = true :=
    fun c hc => by simp [isHexadecimal, hdigits c hc]
  cases h with
  | hexadecimal _ _ hdigits => exact hdigits
  | octal _ hdigits => exact hdecimal hdigits
  | decimal _ hdigits => exact hdecimal hdigits

theorem head?_ne (h : Numeral number base digits) : digits.head? ≠ some '+' :=
  fun hplus => absurd (h.isHexadecimal_of_mem '+' (List.mem_of_mem_head? hplus)) (by decide)

theorem ne_nil (h : Numeral number base digits) : digits ≠ [] := by
  cases h with
  | hexadecimal _ hne => exact hne
  | octal hne => exact hne
  | decimal hne => exact hne

/-- The base that the front shows is the one that is taken. -/
theorem readDigits_eq (h : Numeral number base digits) :
    readDigits number = readNumber base digits := by
  cases h with
  | hexadecimal hletter => rcases hletter with rfl | rfl <;> rfl
  | octal hne hdigits =>
      obtain ⟨c, rest, rfl⟩ := List.exists_cons_of_ne_nil hne
      have hc := hdigits c (List.mem_cons_self ..)
      rw [readDigits]
      · exact Lexeme.ne_of_class rfl hc
      · exact Lexeme.ne_of_class rfl hc
  | decimal hne hdigits hzero =>
      have hsole {c : Char} {rest : List Char} (heq : number = '0' :: c :: rest) : False := by
        have hone := hzero (by rw [heq]; rfl)
        rw [heq] at hone
        exact List.cons_ne_nil _ _ (List.cons.inj hone).2
      rw [readDigits]
      · exact fun _ heq => hsole heq
      · exact fun _ heq => hsole heq
      · exact fun _ _ heq => hsole heq

/-- **An integer literal without its suffix is read as what its digits spell.** -/
theorem readDigits_eq_some_iff (h : Numeral number base digits) :
    readDigits number = some value ↔ Spells base digits value.toNat := by
  rw [h.readDigits_eq, readNumber_eq_some_iff h.ne_nil h.head?_ne]

theorem getLast?_eq (h : Numeral number base digits) : number.getLast? = digits.getLast? := by
  cases h with
  | hexadecimal _ hne => rw [List.getLast?_cons_cons, List.getLast?_cons_of_ne_nil hne]
  | octal hne => rw [List.getLast?_cons_of_ne_nil hne]
  | decimal => rfl

/-- No digit in front of a suffix is cut off with it. -/
theorem not_isSuffix_last (h : Numeral number base digits) :
    ∀ c ∈ number.getLast?, isSuffix c = false := by
  intro c hc
  by_contra hsuffix
  have hhex := Lexeme.not_isHexadecimal_of_isSuffix (eq_true_of_ne_false hsuffix)
  rw [h.getLast?_eq] at hc
  rw [h.isHexadecimal_of_mem c (List.mem_of_getLast? hc)] at hhex
  contradiction

/-- A literal is read in two parts: digits, and letters behind them. -/
theorem ofText_eq (h : Numeral number base digits) (hsuffix : ∀ c ∈ suffix, isSuffix c = true)
    (htext : text.toList = number ++ suffix) :
    ofText text = (readDigits number).map fun value => ⟨value, suffix.any marksUnsigned⟩ := by
  have htrim : trimEnd isSuffix (number ++ suffix) = number :=
    trimEnd_append hsuffix h.not_isSuffix_last
  have hend : endRun isSuffix (number ++ suffix) = suffix := by
    have hsplit := trimEnd_append_endRun isSuffix (number ++ suffix)
    rw [htrim] at hsplit
    exact List.append_cancel_left hsplit
  rw [ofText, htext, htrim, hend]

end Numeral

/-- The constant that a literal stands for: the value without a sign, or the signed number that has the
same bits in two's complement. -/
def Denotes (l : IntegerLiteral) : Constant → Prop
  | .unsigned v => l.isUnsigned = true ∧ v = l.value
  | .signed w => l.isUnsigned = false ∧ w.toInt =
      if l.value.toNat < UInt64.size / 2 then (l.value.toNat : Int) else l.value.toNat - UInt64.size
  | .floating _ => False

theorem denotes_constant (l : IntegerLiteral) : l.Denotes l.constant := by
  unfold constant
  split
  · next hunsigned => exact ⟨hunsigned, rfl⟩
  · next hsigned =>
      refine ⟨eq_false_of_ne_true hsigned, ?_⟩
      have hsplit : 2 * l.value.toNat < 2 ^ 64 ↔ l.value.toNat < UInt64.size / 2 := by
        rw [UInt64.size]
        omega
      calc l.value.toInt64.toInt
        _ = if 2 * l.value.toNat < 2 ^ 64 then (l.value.toNat : Int)
            else l.value.toNat - (2 ^ 64 : Nat) := BitVec.toInt_eq_toNat_cond l.value.toBitVec
        _ = if l.value.toNat < UInt64.size / 2 then (l.value.toNat : Int)
            else l.value.toNat - UInt64.size := if_congr hsplit rfl rfl

/-- What is read from an integer literal, in terms of its base, its digits and its suffix, and the node
that is built for it. -/
structure Meaning (text : String) (base : Nat) (digits suffix : List Char) : Prop where
  isSome_iff : (ofText text).isSome ↔ ∃ n < UInt64.size, Spells base digits n
  value {l : IntegerLiteral} (h : ofText text = some l) : Spells base digits l.value.toNat
  isUnsigned {l : IntegerLiteral} (h : ofText text = some l) :
    l.isUnsigned = true ↔ 'u' ∈ suffix ∨ 'U' ∈ suffix
  fold {l : IntegerLiteral} (h : ofText text = some l) (b : Builder) : ∃ id b' k,
    Build.intLiteral text b = .ok id b' ∧ b'.fold id = .ok (some k) ∧ l.Denotes k

/-- The constant of a literal's node. -/
theorem fold_intLiteral {l : IntegerLiteral} (h : ofText text = some l) (b : Builder) : ∃ id b' k,
    Build.intLiteral text b = .ok id b' ∧ b'.fold id = .ok (some k) ∧ l.Denotes k := by
  have hbuild : Build.intLiteral text = Build.add (.int l.value l.isUnsigned) := by
    rw [Build.intLiteral, h]
  have hnode := Arena.node?_add_self b.arena (.int l.value l.isUnsigned) b.position
  exact ⟨b.arena.nextId, _, l.constant, by rw [hbuild]; rfl, Arena.fold_of_int hnode,
    l.denotes_constant⟩

/-- **An integer literal means what it spells.** -/
theorem Numeral.meaning (h : Numeral number base digits)
    (hsuffix : ∀ c ∈ suffix, isSuffix c = true) (htext : text.toList = number ++ suffix) :
    Meaning text base digits suffix where
  isSome_iff := by
    rw [h.ofText_eq hsuffix htext, Option.isSome_map, Option.isSome_iff_exists]
    constructor
    · rintro ⟨value, hvalue⟩
      exact ⟨value.toNat, value.toNat_lt, h.readDigits_eq_some_iff.1 hvalue⟩
    · rintro ⟨n, hn, hspells⟩
      refine ⟨UInt64.ofNat n, h.readDigits_eq_some_iff.2 ?_⟩
      rwa [UInt64.toNat_ofNat_of_lt' hn]
  value := by
    intro l hl
    rw [h.ofText_eq hsuffix htext] at hl
    obtain ⟨value, hvalue, rfl⟩ := Option.map_eq_some_iff.1 hl
    exact h.readDigits_eq_some_iff.1 hvalue
  isUnsigned := by
    intro l hl
    rw [h.ofText_eq hsuffix htext] at hl
    obtain ⟨value, -, rfl⟩ := Option.map_eq_some_iff.1 hl
    simp [marksUnsigned, and_or_left, exists_or]
  fold := fun hl b => fold_intLiteral hl b

end IntegerLiteral

/-! ### A source text -/

/-- A number literal means what it spells: an integer literal is digits of the base that its front shows,
with letters of a suffix behind them, and a floating-point literal can be read. -/
structure Token.MeansNumber (t : Token) : Prop where
  int (h : t.kind = .int) : ∃ number suffix base digits, t.text.toList = number ++ suffix ∧
    (∀ c ∈ suffix, IntegerLiteral.isSuffix c = true) ∧
    IntegerLiteral.Numeral number base digits ∧ IntegerLiteral.Meaning t.text base digits suffix
  float (h : t.kind = .float) : (floatLiteral t.text).isSome

namespace TokenStream

/-- **The number literals of a source text mean what they spell.** -/
theorem ofSource_literals {source : String} {file : UInt16} {s : TokenStream}
    (h : ofSource source file = .ok s) : ∀ t ∈ s.tokens, t.MeansNumber := by
  intro t ht
  have hwritten := written_of_ofSource h t ht
  have hfits := fits_of_ofSource h t ht
  constructor
  · intro hkind
    rw [hkind] at hwritten
    obtain ⟨number, suffix, htext, hnumber, hsuffix⟩ := hwritten.exists_number
    obtain ⟨base, digits, hnumeral⟩ := IntegerLiteral.exists_numeral hnumber
    exact ⟨number, suffix, base, digits, htext, hsuffix, hnumeral, hnumeral.meaning hsuffix htext⟩
  · intro hkind
    unfold Token.Fits at hfits
    rwa [hkind] at hfits

/-- Literals of all bases with and without a suffix, one with a wrong digit, and the largest one. -/
def numerals : String := "0xFFuL 010 08 18446744073709551615 1.e5f"

/-- What is read from these literals. -/
theorem ofSource_literals_numerals : ∃ s, ofSource numerals 0 = .ok s ∧
    (s.tokens.map fun t => (t.kind, IntegerLiteral.ofText t.text)) =
      [(.int, some ⟨255, true⟩), (.int, some ⟨8, false⟩), (.int, none),
        (.int, some ⟨18446744073709551615, false⟩), (.float, none)] ∧
    ∀ t ∈ s.tokens, t.MeansNumber := by
  have hrun : ((ofSource numerals 0).toOption.map fun s =>
      s.tokens.map fun t => (t.kind, IntegerLiteral.ofText t.text)) =
        some [(.int, some ⟨255, true⟩), (.int, some ⟨8, false⟩), (.int, none),
          (.int, some ⟨18446744073709551615, false⟩), (.float, none)] := by
    decide +kernel
  obtain ⟨s, hsource, hread⟩ := exists_ok_of_toOption_map hrun
  exact ⟨s, hsource, hread, ofSource_literals hsource⟩

end TokenStream

end ShaderLang
