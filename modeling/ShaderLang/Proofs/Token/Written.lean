/-
**How tokens are written.**

What the text of a token may be is told here for each kind without saying how the token is found: a word
is a letter or low line with letters, low lines and digits behind it, a number is digits with what may
stand among and behind them, a string literal is characters and pairs of a backslash and a character
between quotes, a mark has one spelling.  What is cut from the front of a source text as a token of a
kind is written in this way.

A token does not begin or end with a blank, and only a string literal has blanks in it.

Main definitions:

* `ShaderLang.IntegerText`, `ShaderLang.StringBody` — an integer without its suffix, and what stands between
  the quotes of a string literal;
* `ShaderLang.TokenKind.Written` — **the texts of the tokens of a kind**.

Main results:

* `ShaderLang.Lexeme.written_of_token` — what is cut as a token of a kind is written in this way;
* `ShaderLang.TokenStream.written_of_ofSource` — so are the tokens of a source text;
* `ShaderLang.TokenKind.Written.visible`, `ShaderLang.TokenKind.Written.visible_head`,
  `ShaderLang.TokenKind.Written.visible_last` — where no blanks are.
-/

import ShaderLang.Proofs.Token.Fitting
import ShaderLang.Proofs.Token.Pieces

set_option relaxedAutoImplicit false
set_option autoImplicit false

namespace ShaderLang

open Text Decimal

/-! ### The texts of tokens -/

/-- Hexadecimal digits behind a zero and a letter, or decimal digits. -/
inductive IntegerText : List Char → Prop where
  | hexadecimal {letter : Char} {digits : List Char} (hletter : letter = 'x' ∨ letter = 'X')
      (hne : digits ≠ []) (h : ∀ c ∈ digits, isHexadecimal c = true) :
      IntegerText ('0' :: letter :: digits)
  | decimal {digits : List Char} (hne : digits ≠ []) (h : ∀ c ∈ digits, isDecimal c = true) :
      IntegerText digits

/-- An integer begins with a digit. -/
theorem IntegerText.head {number : List Char} (h : IntegerText number) :
    ∀ c ∈ number.head?, isDecimal c = true := by
  intro c hc
  cases h with
  | hexadecimal =>
      obtain rfl := Option.some.inj hc
      decide
  | decimal _ hdigits => exact hdigits c (List.mem_of_mem_head? hc)

/-- Characters other than the quote, the backslash and the line feed, and pairs of a backslash and a
character that is no line feed. -/
inductive StringBody : List Char → Prop where
  | nil : StringBody []
  | plain {c : Char} {cs : List Char} (hquote : c ≠ '"') (hslash : c ≠ '\\') (hfeed : c ≠ '\n')
      (h : StringBody cs) : StringBody (c :: cs)
  | escaped {c : Char} {cs : List Char} (hfeed : c ≠ '\n') (h : StringBody cs) :
      StringBody ('\\' :: c :: cs)

/-- The texts of the tokens of a kind.  The kind of a word is told by the word. -/
inductive TokenKind.Written : TokenKind → List Char → Prop where
  | word {c : Char} {cs : List Char} (hstart : startsName c = true)
      (h : ∀ d ∈ cs, continuesName d = true) :
      Written (.ofWord (String.ofList (c :: cs))) (c :: cs)
  | float {number suffix : List Char} (hnumber : NumberText number) (hsuffix : SuffixText suffix) :
      Written .float (number ++ suffix)
  | int {number suffix : List Char} (hnumber : IntegerText number)
      (hsuffix : ∀ c ∈ suffix, IntegerLiteral.isSuffix c = true) : Written .int (number ++ suffix)
  | string {body : List Char} (hbody : StringBody body) : Written .string ('"' :: (body ++ ['"']))
  | mark (m : Mark) : Written (.mark m) m.spelling.toList

namespace Lexeme

variable {cs : List Char} {n : Nat}

/-! ### What is cut from the front -/

theorem written_word (h : word cs ≠ 0) :
    (TokenKind.ofWord (String.ofList (cs.take (word cs)))).Written (cs.take (word cs)) := by
  unfold word at h ⊢
  split at h
  · next c cs =>
      split at h
      · next hstart =>
          rw [if_pos hstart, Nat.add_comm, List.take_succ_cons]
          exact .word hstart fun d hd => mem_take_run hd
      · contradiction
  · contradiction

theorem written_float (h : float cs ≠ 0) : TokenKind.float.Written (cs.take (float cs)) := by
  obtain ⟨number, suffix, htake, hnumber, hsuffix⟩ := take_float h
  rw [htake]
  exact .float hnumber hsuffix

theorem take_run_ne_nil {p : Char → Bool} (h : run p cs ≠ 0) : cs.take (run p cs) ≠ [] := by
  intro hnil
  rcases List.take_eq_nil_iff.1 hnil with hzero | rfl
  · exact h hzero
  · exact h rfl

theorem take_intDigits (h : intDigits cs ≠ 0) : IntegerText (cs.take (intDigits cs)) := by
  unfold intDigits at h ⊢
  split
  · next hzero =>
      rw [if_pos hzero] at h
      exact .decimal (take_run_ne_nil h) fun c hc => mem_take_run hc
  · next hhex =>
      unfold hexDigits at hhex ⊢
      split at hhex
      · next letter rest =>
          split at hhex
          · next hletter =>
              rw [if_pos hletter, Nat.add_comm, List.take_succ_cons, List.take_succ_cons]
              exact .hexadecimal hletter (take_run_ne_nil hhex) fun c hc => mem_take_run hc
          · contradiction
      · contradiction

theorem written_int (h : int cs ≠ 0) : TokenKind.int.Written (cs.take (int cs)) := by
  unfold int at h ⊢
  split at h
  · contradiction
  · next hdigits =>
      rw [if_neg hdigits, List.take_add]
      exact .int (take_intDigits hdigits) fun c hc => mem_take_run hc

/-- The rest of a string literal ends with the first quote that no backslash takes along. -/
theorem exists_of_stringRest (h : stringRest cs = some n) :
    ∃ body, cs.take n = body ++ ['"'] ∧ StringBody body := by
  fun_induction stringRest cs generalizing n with
  | case1 => contradiction
  | case2 cs =>
      obtain rfl := Option.some.inj h
      exact ⟨[], rfl, .nil⟩
  | case3 => contradiction
  | case4 c cs hfeed ih =>
      obtain ⟨k, hk, rfl⟩ := Option.map_eq_some_iff.1 h
      obtain ⟨body, htake, hbody⟩ := ih hk
      exact ⟨'\\' :: c :: body, by rw [List.take_succ_cons, List.take_succ_cons, htake]; rfl,
        .escaped hfeed hbody⟩
  | case5 => contradiction
  | case6 c cs hquote _ hc ih =>
      obtain ⟨k, hk, rfl⟩ := Option.map_eq_some_iff.1 h
      obtain ⟨body, htake, hbody⟩ := ih hk
      obtain ⟨hfeed, hslash⟩ := not_or.1 hc
      exact ⟨c :: body, by rw [List.take_succ_cons, htake]; rfl,
        .plain (fun heq => hquote heq) hslash hfeed hbody⟩

theorem written_string (h : string cs ≠ 0) : TokenKind.string.Written (cs.take (string cs)) := by
  unfold string at h ⊢
  split at h
  · next rest =>
      split at h
      · next k hk =>
          obtain ⟨body, htake, hbody⟩ := exists_of_stringRest hk
          rw [Nat.add_comm, List.take_succ_cons, htake]
          exact .string hbody
      · contradiction
  · contradiction

theorem written_mark {m : Mark} (h : mark cs = some m) :
    (TokenKind.mark m).Written (cs.take m.spelling.length) := by
  rw [← String.toList_ofList (l := cs.take _), take_of_mark h]
  exact .mark m

/-- **What is cut as a token of a kind is written like one.** -/
theorem written_of_token {kind : TokenKind} (h : token cs = some (kind, n)) :
    kind.Written (cs.take n) :=
  token_induction (P := fun kind n => kind.Written (cs.take n)) written_word written_float written_int
    written_string (fun _ hm => written_mark hm) h

end Lexeme

/-! ### Where no blanks are -/

namespace Text

/-- The printable characters of ASCII without the space. -/
def Visible (c : Char) : Prop := 0x21 ≤ c.toNat ∧ c.toNat ≤ 0x7e

instance : DecidablePred Visible := fun c => inferInstanceAs (Decidable (0x21 ≤ c.toNat ∧ _))

variable {c low high : Char}

theorem Visible.not_isBlank (h : Visible c) : isBlank c = false := by
  obtain ⟨hlow, hhigh⟩ := h
  simp only [isBlank, inRanges, blankRanges, List.any_cons, List.any_nil, Bool.or_false,
    Bool.or_eq_false_iff, Bool.and_eq_false_iff, decide_eq_false_iff_not]
  omega

theorem visible_of_between (h : (low ≤ c && c ≤ high) = true) (hlow : Visible low)
    (hhigh : Visible high) : Visible c := by
  obtain ⟨hle, hge⟩ := Bool.and_eq_true_iff.1 h
  exact ⟨Nat.le_trans hlow.1 (of_decide_eq_true hle),
    Nat.le_trans (of_decide_eq_true hge) hhigh.2⟩

theorem visible_of_isDecimal (h : isDecimal c = true) : Visible c :=
  visible_of_between h (by decide) (by decide)

theorem visible_of_isHexadecimal (h : isHexadecimal c = true) : Visible c := by
  rcases Bool.or_eq_true_iff.1 h with h | hupper
  · rcases Bool.or_eq_true_iff.1 h with hdecimal | hlower
    · exact visible_of_isDecimal hdecimal
    · exact visible_of_between hlower (by decide) (by decide)
  · exact visible_of_between hupper (by decide) (by decide)

theorem visible_of_startsName (h : startsName c = true) : Visible c := by
  rcases Bool.or_eq_true_iff.1 h with hletter | hline
  · rcases Bool.or_eq_true_iff.1 hletter with hlower | hupper
    · exact visible_of_between hlower (by decide) (by decide)
    · exact visible_of_between hupper (by decide) (by decide)
  · obtain rfl := beq_iff_eq.1 hline
    decide

theorem visible_of_continuesName (h : continuesName c = true) : Visible c :=
  (Bool.or_eq_true_iff.1 h).elim visible_of_startsName visible_of_isDecimal

theorem visible_of_all {cs : List Char} (h : cs.all (Visible ·) = true) : ∀ c ∈ cs, Visible c :=
  fun c hc => of_decide_eq_true (List.all_eq_true.1 h c hc)

end Text

namespace Decimal

variable {cs : List Char}

theorem ExponentText.visible (h : ExponentText cs) : ∀ c ∈ cs, Visible c := by
  cases h with
  | absent => nofun
  | present hletter hsign _ hdigits =>
      refine List.forall_mem_cons.2 ⟨?_, List.forall_mem_append.2 ⟨?_, fun c hc => ?_⟩⟩
      · rcases hletter with rfl | rfl <;> decide
      · rcases hsign with rfl | rfl | rfl <;> exact visible_of_all (by decide)
      · exact visible_of_isDecimal (hdigits c hc)

theorem NumberText.ne_nil (h : NumberText cs) : cs ≠ [] := by
  cases h with
  | pointed => exact List.append_ne_nil_of_right_ne_nil _ (List.cons_ne_nil _ _)
  | plain => exact List.append_ne_nil_of_right_ne_nil _ (List.cons_ne_nil _ _)

theorem NumberText.visible (h : NumberText cs) : ∀ c ∈ cs, Visible c := by
  cases h with
  | pointed hwhole hfraction _ htail =>
      refine List.forall_mem_append.2 ⟨fun c hc => visible_of_isDecimal (hwhole c hc), ?_⟩
      refine List.forall_mem_cons.2 ⟨by decide, List.forall_mem_append.2 ⟨?_, htail.visible⟩⟩
      exact fun c hc => visible_of_isDecimal (hfraction c hc)
  | plain hwhole _ htail =>
      exact List.forall_mem_append.2
        ⟨fun c hc => visible_of_isDecimal (hwhole c hc), htail.visible⟩

end Decimal

theorem IntegerText.ne_nil {cs : List Char} (h : IntegerText cs) : cs ≠ [] := by
  cases h with
  | hexadecimal => exact List.cons_ne_nil _ _
  | decimal hne => exact hne

theorem IntegerText.visible {cs : List Char} (h : IntegerText cs) : ∀ c ∈ cs, Visible c := by
  cases h with
  | hexadecimal hletter _ h =>
      refine List.forall_mem_cons.2 ⟨by decide, List.forall_mem_cons.2 ⟨?_, fun c hc => ?_⟩⟩
      · rcases hletter with rfl | rfl <;> decide
      · exact visible_of_isHexadecimal (h c hc)
  | decimal _ h => exact fun c hc => visible_of_isDecimal (h c hc)

theorem visible_spelling (m : Mark) : ∀ c ∈ m.spelling.toList, Visible c :=
  visible_of_all (by cases m <;> decide)

namespace TokenKind.Written

variable {kind : TokenKind} {v : List Char}

/-- Only a string literal has blanks in it. -/
theorem visible (h : kind.Written v) (hkind : kind ≠ .string) : ∀ c ∈ v, Visible c := by
  cases h with
  | word hstart hrest =>
      exact List.forall_mem_cons.2
        ⟨visible_of_startsName hstart, fun c hc => visible_of_continuesName (hrest c hc)⟩
  | float hnumber hsuffix =>
      refine List.forall_mem_append.2 ⟨hnumber.visible, fun c hc => ?_⟩
      exact visible_of_all (by decide) c (List.contains_iff_mem.1 (hsuffix.isFloatSuffix c hc))
  | int hnumber hsuffix =>
      refine List.forall_mem_append.2 ⟨hnumber.visible, fun c hc => ?_⟩
      exact visible_of_all (by decide) c (List.contains_iff_mem.1 (hsuffix c hc))
  | string => contradiction
  | mark m => exact visible_spelling m

/-- A string literal is a body between quotes. -/
theorem exists_body (h : TokenKind.string.Written v) :
    ∃ body, v = '"' :: (body ++ ['"']) ∧ StringBody body := by
  have hword : ∀ text, TokenKind.ofWord text ≠ .string :=
    ofWord_induction (P := (· ≠ .string)) nofun nofun nofun nofun nofun
  generalize hkind : TokenKind.string = kind at h
  cases h with
  | word => exact absurd hkind.symm (hword _)
  | string hbody => exact ⟨_, rfl, hbody⟩
  | _ => contradiction

/-- An integer literal is an integer with a suffix. -/
theorem exists_number (h : TokenKind.int.Written v) : ∃ number suffix, v = number ++ suffix ∧
    IntegerText number ∧ ∀ c ∈ suffix, IntegerLiteral.isSuffix c = true := by
  have hword : ∀ text, TokenKind.ofWord text ≠ .int :=
    ofWord_induction (P := (· ≠ .int)) nofun nofun nofun nofun nofun
  generalize hkind : TokenKind.int = kind at h
  cases h with
  | word => exact absurd hkind.symm (hword _)
  | int hnumber hsuffix => exact ⟨_, _, rfl, hnumber, hsuffix⟩
  | _ => contradiction

theorem visible_head (h : kind.Written v) : ∀ c ∈ v.head?, Visible c := by
  intro c hc
  by_cases hkind : kind = .string
  · subst hkind
    obtain ⟨body, rfl, -⟩ := h.exists_body
    obtain rfl := Option.some.inj hc
    decide
  · exact h.visible hkind c (List.mem_of_mem_head? hc)

theorem visible_last (h : kind.Written v) : ∀ c ∈ v.getLast?, Visible c := by
  intro c hc
  by_cases hkind : kind = .string
  · subst hkind
    obtain ⟨body, rfl, -⟩ := h.exists_body
    rw [← List.cons_append, List.getLast?_concat] at hc
    obtain rfl := Option.some.inj hc
    decide
  · exact h.visible hkind c (List.mem_of_getLast? hc)

theorem ne_nil (h : kind.Written v) : v ≠ [] := by
  cases h with
  | word => exact List.cons_ne_nil _ _
  | float hnumber => exact List.append_ne_nil_of_left_ne_nil hnumber.ne_nil _
  | int hnumber => exact List.append_ne_nil_of_left_ne_nil hnumber.ne_nil _
  | string => exact List.cons_ne_nil _ _
  | mark m => exact (Lexeme.spelling_inLine m).2

end TokenKind.Written

/-- **The tokens of a source text are written as their kinds say.** -/
theorem TokenStream.written_of_ofSource {source : String} {file : UInt16} {s : TokenStream}
    (h : ofSource source file = .ok s) : ∀ t ∈ s.tokens, t.kind.Written t.text.toList :=
  forall_of_scan (P := fun t => t.kind.Written t.text.toList)
    (fun _ _ _ _ htoken => by simpa using Lexeme.written_of_token htoken) h

end ShaderLang
