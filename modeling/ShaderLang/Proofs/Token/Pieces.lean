/-
**Pieces of source text.**

The front of a source text is skipped or is a token.  What is skipped is described here once more,
without saying how it is found: blanks, a comment up to the end of its line, a comment between `/*` and
the first `*/`, a line for a preprocessor.  Only what is skipped may hold line feeds; a token never
does, be it a string literal with a backslash at the end of the line.

Main definitions:

* `ShaderLang.Lexeme.Skipped`, `ShaderLang.Lexeme.Gap` — one skipped piece, and any number of them, with what
  stands behind: a comment or a preprocessor's line goes up to the end of its line;
* `ShaderLang.Lexeme.InLine` — that many characters are there, and no line feed is among them.

Main results:

* `ShaderLang.Lexeme.skipped_of_gap` — **what is skipped is one of these pieces**;
* `ShaderLang.Lexeme.inLine_of_token` — **a token is not empty and lies within one line**.
-/

import ShaderLang.Proofs.Token.Numbers
import ShaderLang.Text.Line

set_option relaxedAutoImplicit false
set_option autoImplicit false

namespace ShaderLang.Lexeme

open Text

variable {cs : List Char} {c : Char} {n m : Nat}

/-! ### Skipped text -/

/-- One piece of skipped text, in front of a rest. -/
inductive Skipped : List Char → List Char → Prop where
  | blanks {cs rest : List Char} (hne : cs ≠ []) (h : ∀ c ∈ cs, isBlank c = true) : Skipped cs rest
  | lineComment {body rest : List Char} (h : '\n' ∉ body) (hend : ∀ c ∈ rest.head?, c = '\n') :
      Skipped ('/' :: '/' :: body) rest
  | blockComment {body rest : List Char} (h : ¬ ['*', '/'] <:+: body ++ ['*']) :
      Skipped ('/' :: '*' :: (body ++ ['*', '/'])) rest
  | directive {body rest : List Char} (h : '\n' ∉ body) (hend : ∀ c ∈ rest.head?, c = '\n') :
      Skipped ('#' :: body) rest

/-- Skipped pieces one behind the other, in front of a rest. -/
inductive Gap : List Char → List Char → Prop where
  | nil {rest : List Char} : Gap [] rest
  | cons {piece cs rest : List Char} (hpiece : Skipped piece (cs ++ rest)) (h : Gap cs rest) :
      Gap (piece ++ cs) rest

theorem mem_take_run {p : Char → Bool} (h : c ∈ cs.take (run p cs)) : p c = true := by
  rw [take_run] at h
  exact List.mem_takeWhile_imp h

theorem drop_run (p : Char → Bool) (cs : List Char) : cs.drop (run p cs) = cs.dropWhile p :=
  calc cs.drop (run p cs)
    _ = (cs.takeWhile p ++ cs.dropWhile p).drop (cs.takeWhile p).length := by
        rw [List.takeWhile_append_dropWhile, run]
    _ = cs.dropWhile p := List.drop_left

/-- The rest of a line holds no line feed. -/
theorem not_mem_restOfLine : '\n' ∉ cs.take (restOfLine cs) :=
  fun h => absurd (mem_take_run h) (by decide)

/-- The rest of a line goes up to a line feed or to the end of the text. -/
theorem eq_of_mem_drop_restOfLine (h : c ∈ (cs.drop (restOfLine cs)).head?) : c = '\n' := by
  rw [restOfLine, drop_run] at h
  have hstop := List.head?_dropWhile_not (· != '\n') cs
  rw [Option.mem_def.1 h] at hstop
  simpa using hstop

theorem skipped_of_blanks (h : blanks cs ≠ 0) :
    Skipped (cs.take (blanks cs)) (cs.drop (blanks cs)) := by
  -- some blank is there, since their number is not zero
  refine .blanks (fun hnil => ?_) fun c hc => mem_take_run hc
  rcases List.take_eq_nil_iff.1 hnil with hzero | rfl
  · exact h hzero
  · exact h rfl

theorem skipped_of_lineComment (h : lineComment cs ≠ 0) :
    Skipped (cs.take (lineComment cs)) (cs.drop (lineComment cs)) := by
  unfold lineComment at h ⊢
  split at h
  · next rest =>
      rw [Nat.add_comm, List.take_succ_cons, List.take_succ_cons, List.drop_succ_cons,
        List.drop_succ_cons]
      exact .lineComment not_mem_restOfLine fun c hc => eq_of_mem_drop_restOfLine hc
  · contradiction

/-- The text up to the first `*/` ends with it and holds no other one. -/
theorem exists_of_throughCommentEnd (h : throughCommentEnd cs = some n) :
    ∃ body rest, cs = body ++ '*' :: '/' :: rest ∧ n = body.length + 2 ∧
      ¬ ['*', '/'] <:+: body ++ ['*'] := by
  fun_induction throughCommentEnd cs generalizing n with
  | case1 => contradiction
  | case2 rest =>
      obtain rfl := Option.some.inj h
      exact ⟨[], rest, rfl, rfl, by decide⟩
  | case3 c cs hopen ih =>
      obtain ⟨k, hk, rfl⟩ := Option.map_eq_some_iff.1 h
      obtain ⟨body, rest, rfl, rfl, hbody⟩ := ih hk
      refine ⟨c :: body, rest, rfl, by rw [List.length_cons, Nat.add_right_comm], ?_⟩
      rw [List.cons_append, List.infix_cons_iff, not_or]
      refine ⟨fun hfront => ?_, hbody⟩
      -- a `*/` that begins here would have been found here
      obtain ⟨rfl, hslash⟩ := List.cons_prefix_cons.1 hfront
      cases body with
      | nil => exact absurd hslash (by decide)
      | cons d body =>
          obtain ⟨rfl, -⟩ := List.cons_prefix_cons.1 hslash
          exact hopen _ rfl rfl

theorem skipped_of_blockComment (h : blockComment cs ≠ 0) :
    Skipped (cs.take (blockComment cs)) (cs.drop (blockComment cs)) := by
  unfold blockComment at h ⊢
  split at h
  · next rest =>
      split at h
      · next k hk =>
          obtain ⟨body, rest, rfl, rfl, hbody⟩ := exists_of_throughCommentEnd hk
          have htake : (body ++ '*' :: '/' :: rest).take (body.length + 2) = body ++ ['*', '/'] := by
            rw [List.take_length_add_append]
            rfl
          rw [Nat.add_comm, List.take_succ_cons, List.take_succ_cons, htake]
          exact .blockComment hbody
      · contradiction
  · contradiction

theorem skipped_of_directive (h : directive cs ≠ 0) :
    Skipped (cs.take (directive cs)) (cs.drop (directive cs)) := by
  unfold directive at h ⊢
  split at h
  · next rest =>
      rw [Nat.add_comm, List.take_succ_cons, List.drop_succ_cons]
      exact .directive not_mem_restOfLine fun c hc => eq_of_mem_drop_restOfLine hc
  · contradiction

/-- The first of two lengths that is not zero is one of them. -/
theorem orElse_induction {P : Nat → Prop} (hn : n ≠ 0 → P n) (hm : m ≠ 0 → P m)
    (h : orElse n m ≠ 0) : P (orElse n m) := by
  unfold orElse at h ⊢
  split
  · next hzero =>
      rw [if_pos hzero] at h
      exact hm h
  · next hne => exact hn hne

/-- **What is skipped is one of the pieces.** -/
theorem skipped_of_gap (h : gap cs ≠ 0) : Skipped (cs.take (gap cs)) (cs.drop (gap cs)) :=
  orElse_induction (P := fun k => Skipped (cs.take k) (cs.drop k)) skipped_of_blanks
    (orElse_induction (P := fun k => Skipped (cs.take k) (cs.drop k)) skipped_of_lineComment
      (orElse_induction (P := fun k => Skipped (cs.take k) (cs.drop k)) skipped_of_blockComment
        skipped_of_directive)) h

/-- A blank in front is skipped, with all the blanks behind it. -/
theorem gap_of_isBlank (hc : isBlank c = true) : gap (c :: cs) = run isBlank cs + 1 := by
  have hblanks : blanks (c :: cs) = run isBlank cs + 1 := by rw [blanks, run_cons, if_pos hc]
  rw [gap, orElse, hblanks, if_neg (Nat.succ_ne_zero _)]

/-- Where nothing is skipped, no blank is in front. -/
theorem not_isBlank_of_gap (h : gap (c :: cs) = 0) : isBlank c = false := by
  by_contra hc
  rw [gap_of_isBlank (eq_true_of_ne_false hc)] at h
  contradiction

/-! ### Text within a line -/

/-- That many characters are there, and no line feed is among them. -/
structure InLine (cs : List Char) (n : Nat) : Prop where
  le_length : n ≤ cs.length
  not_mem : '\n' ∉ cs.take n

theorem inLine_zero : InLine cs 0 := ⟨Nat.zero_le _, by simp⟩

/-- Characters of a class that the line feed is not in. -/
theorem inLine_run {p : Char → Bool} (hp : p '\n' = false) (cs : List Char) : InLine cs (run p cs) where
  le_length := (List.takeWhile_sublist p).length_le
  not_mem := by
    intro h
    rw [mem_take_run h] at hp
    contradiction

theorem InLine.add (h : InLine cs n) (h' : InLine (cs.drop n) m) : InLine cs (n + m) where
  le_length := by
    have hle := h.le_length
    have hle' := h'.le_length
    rw [List.length_drop] at hle'
    omega
  not_mem := by
    rw [List.take_add, List.mem_append, not_or]
    exact ⟨h.not_mem, h'.not_mem⟩

theorem InLine.cons (hc : c ≠ '\n') (h : InLine cs n) : InLine (c :: cs) (n + 1) where
  le_length := Nat.succ_le_succ h.le_length
  not_mem := by
    rw [List.take_succ_cons, List.mem_cons, not_or]
    exact ⟨hc.symm, h.not_mem⟩

/-- One character in front, counted in front. -/
theorem InLine.cons' (hc : c ≠ '\n') (h : InLine cs n) : InLine (c :: cs) (1 + n) :=
  Nat.add_comm n 1 ▸ h.cons hc

/-! ### Words and numbers -/

theorem ne_of_class {p : Char → Bool} {d : Char} (hp : p d = false) (hc : p c = true) : c ≠ d := by
  rintro rfl
  rw [hp] at hc
  contradiction

theorem inLine_word (cs : List Char) : InLine cs (word cs) := by
  unfold word
  split
  · split
    · next hstart => exact (inLine_run (by decide) _).cons' (ne_of_class (p := startsName) rfl hstart)
    · exact inLine_zero
  · exact inLine_zero

theorem inLine_decimals (cs : List Char) : InLine cs (decimals cs) := inLine_run (by decide) cs

theorem inLine_sign (cs : List Char) : InLine cs (sign cs) := by
  unfold sign
  split
  · exact inLine_zero.cons (by decide)
  · exact inLine_zero.cons (by decide)
  · exact inLine_zero

theorem inLine_exponent (cs : List Char) : InLine cs (exponent cs) := by
  unfold exponent
  split
  · next c cs =>
      split
      · next hletter =>
          dsimp only
          split
          · exact inLine_zero
          · rw [Nat.add_assoc]
            refine ((inLine_sign cs).add (inLine_decimals _)).cons' ?_
            rcases hletter with rfl | rfl <;> decide
      · exact inLine_zero
  · exact inLine_zero

theorem inLine_floatSuffix (cs : List Char) : InLine cs (floatSuffix cs) := by
  unfold floatSuffix
  split
  · next c cs =>
      split
      · next hletter =>
          exact inLine_zero.cons (ne_of_class (p := fun c => ['f', 'F', 'h', 'H'].contains c) rfl hletter)
      · exact inLine_zero
  · exact inLine_zero

theorem inLine_floatTail (cs : List Char) : InLine cs (floatTail cs) :=
  (inLine_exponent cs).add (inLine_floatSuffix _)

theorem inLine_float (cs : List Char) : InLine cs (float cs) := by
  by_cases hpoint : ∃ rest, cs.drop (decimals cs) = '.' :: rest
  · obtain ⟨rest, hrest⟩ := hpoint
    rw [float_of_point hrest]
    split
    · exact inLine_zero
    · rw [Nat.add_assoc, Nat.add_assoc]
      refine (inLine_decimals cs).add ?_
      rw [hrest]
      exact ((inLine_decimals rest).add (inLine_floatTail _)).cons' (by decide)
  · rw [float_of_plain fun rest hrest => hpoint ⟨rest, hrest⟩]
    split
    · exact inLine_zero
    · exact (inLine_decimals cs).add (inLine_floatTail _)

theorem inLine_intDigits (cs : List Char) : InLine cs (intDigits cs) := by
  unfold intDigits
  split
  · exact inLine_decimals cs
  · next hhex =>
      unfold hexDigits at hhex ⊢
      split at hhex
      · next c rest =>
          split at hhex
          · next hletter =>
              rw [if_pos hletter, show 2 = 1 + 1 from rfl, Nat.add_assoc]
              refine InLine.cons' (by decide) (InLine.cons' ?_ (inLine_run (by decide) rest))
              rcases hletter with rfl | rfl <;> decide
          · contradiction
      · contradiction

theorem inLine_int (cs : List Char) : InLine cs (int cs) := by
  unfold int
  split
  · exact inLine_zero
  · exact (inLine_intDigits cs).add (inLine_run (by decide) _)

/-! ### String literals and marks -/

/-- A line feed ends no string literal, not even behind a backslash. -/
theorem inLine_of_stringRest (h : stringRest cs = some n) : InLine cs n := by
  fun_induction stringRest cs generalizing n with
  | case1 => contradiction
  | case2 cs =>
      obtain rfl := Option.some.inj h
      exact inLine_zero.cons (by decide)
  | case3 => contradiction
  | case4 c cs hc ih =>
      obtain ⟨k, hk, rfl⟩ := Option.map_eq_some_iff.1 h
      exact ((ih hk).cons hc).cons (by decide)
  | case5 => contradiction
  | case6 c cs _ _ hc ih =>
      obtain ⟨k, hk, rfl⟩ := Option.map_eq_some_iff.1 h
      exact (ih hk).cons fun heq => hc (.inl heq)

theorem inLine_string (cs : List Char) : InLine cs (string cs) := by
  unfold string
  split
  · split
    · next k hk => exact (inLine_of_stringRest hk).cons' (by decide)
    · exact inLine_zero
  · exact inLine_zero

/-- A mark is written without a line feed, and with at least one character. -/
theorem spelling_inLine (m : Mark) : '\n' ∉ m.spelling.toList ∧ m.spelling.toList ≠ [] := by
  cases m <;> decide

theorem inLine_mark {m : Mark} (h : mark cs = some m) :
    InLine cs m.spelling.length ∧ m.spelling.length ≠ 0 := by
  obtain ⟨rest, rfl⟩ := front_of_mark h
  obtain ⟨hfeed, hne⟩ := spelling_inLine m
  rw [← String.length_toList]
  refine ⟨⟨by simp, by simpa using hfeed⟩, fun hzero => hne (List.length_eq_zero_iff.1 hzero)⟩

/-- **A token is not empty and lies within one line.** -/
theorem inLine_of_token {kind : TokenKind} (h : token cs = some (kind, n)) :
    InLine cs n ∧ n ≠ 0 :=
  token_induction (P := fun _ n => InLine cs n ∧ n ≠ 0) (fun hne => ⟨inLine_word cs, hne⟩)
    (fun hne => ⟨inLine_float cs, hne⟩) (fun hne => ⟨inLine_int cs, hne⟩)
    (fun hne => ⟨inLine_string cs, hne⟩) (fun _ hm => inLine_mark hm) h

end ShaderLang.Lexeme
