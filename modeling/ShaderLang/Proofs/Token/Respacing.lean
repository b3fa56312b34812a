/-
**Respacing a source text does not change its tokens.**

The tokens of a source text can be written out again, one behind the other, with any separators between
them: blanks and whole comments, of which the first character is a blank.  The text is cut into the same
tokens again, whatever stood between them before.

A blank behind a token keeps it apart from what follows.  No token goes on with a blank, except that a
string literal may hold one, and a string literal ends with its quote whatever follows.  So a token with a
blank behind it is still the longest one in front.  Nothing in front of it is skipped either: a `/` would
have to be followed by another one or by a star, and not by a blank.

Main definitions:

* `ShaderLang.Text.Spacing`, `ShaderLang.Text.Separator` — blanks and whole comments, and those that begin
  with a blank;
* `ShaderLang.Text.Joined` — words with a separator between each two.

Main results:

* `ShaderLang.TokenKind.Written.longest`, `ShaderLang.TokenKind.Written.gap_eq_zero` — a token with a blank
  behind it;
* `ShaderLang.TokenStream.exists_scan_spacing` — spacing changes nothing but the line;
* `ShaderLang.TokenStream.ofSource_respaced` — **the tokens of a source text, joined by separators, are the
  tokens of the text that they are joined to**.
-/

import ShaderLang.Proofs.Results
import ShaderLang.Proofs.Token.Longest

set_option relaxedAutoImplicit false
set_option autoImplicit false

namespace ShaderLang

open Text

/-! ### Separators -/

namespace Text

/-- Blanks and whole comments between `/*` and the first `*/` behind it. -/
inductive Spacing : List Char → Prop where
  | nil : Spacing []
  | blank {c : Char} {cs : List Char} (hc : isBlank c = true) (h : Spacing cs) : Spacing (c :: cs)
  | comment {body cs : List Char} (hbody : ¬ ['*', '/'] <:+: body ++ ['*']) (h : Spacing cs) :
      Spacing ('/' :: '*' :: (body ++ '*' :: '/' :: cs))

/-- Blanks and whole comments, beginning with a blank. -/
structure Separator (cs : List Char) : Prop where
  spacing : Spacing cs
  exists_blank : ∃ c ∈ cs.head?, isBlank c = true

/-- Words with a separator between each two. -/
inductive Joined : List (List Char) → List Char → Prop where
  | nil : Joined [] []
  | singleton (v : List Char) : Joined [v] v
  | cons {v sep w : List Char} {words : List (List Char)} {cs : List Char} (hsep : Separator sep)
      (h : Joined (w :: words) cs) : Joined (v :: w :: words) (v ++ (sep ++ cs))

end Text

/-! ### A token with a blank behind it -/

namespace Lexeme

variable {c : Char} {v cs rest : List Char}

theorem blanks_eq_zero (hc : isBlank c = false) : blanks (c :: cs) = 0 :=
  run_eq_zero (by rintro _ ⟨⟩; exact hc)

/-- What neither is a blank nor begins a comment or a preprocessor's line is not skipped. -/
theorem gap_eq_zero_of_head (hblank : isBlank c = false) (hsign : c ≠ '#')
    (hslash : c = '/' → ∀ d ∈ cs.head?, d ≠ '/' ∧ d ≠ '*') : gap (c :: cs) = 0 := by
  have hline : lineComment (c :: cs) = 0 := by
    unfold lineComment
    split
    · next heq =>
        obtain ⟨rfl, rfl⟩ := List.cons.inj heq
        exact absurd rfl (hslash rfl '/' rfl).1
    · rfl
  have hblock : blockComment (c :: cs) = 0 := by
    unfold blockComment
    split
    · next heq =>
        obtain ⟨rfl, rfl⟩ := List.cons.inj heq
        exact absurd rfl (hslash rfl '*' rfl).2
    · rfl
  have hdirective : directive (c :: cs) = 0 := by
    unfold directive
    split
    · next heq => exact absurd (List.cons.inj heq).1 hsign
    · rfl
  rw [gap, blanks_eq_zero hblank, hline, hblock, hdirective]
  rfl

end Lexeme

namespace TokenKind.Written

open Lexeme

variable {kind kind' : TokenKind} {c : Char} {v w rest : List Char}

/-- Only a string literal begins with a quote. -/
theorem eq_string_of_head (h : kind.Written v) (hhead : v.head? = some '"') : kind = .string := by
  cases h with
  | word hstart =>
      obtain rfl := Option.some.inj hhead
      contradiction
  | float hnumber =>
      obtain ⟨c, number, rfl⟩ := List.exists_cons_of_ne_nil hnumber.ne_nil
      obtain rfl := Option.some.inj hhead
      exact absurd (hnumber.head _ rfl) (by decide)
  | int hnumber =>
      obtain ⟨c, number, rfl⟩ := List.exists_cons_of_ne_nil hnumber.ne_nil
      obtain rfl := Option.some.inj hhead
      exact absurd (hnumber.head _ rfl) (by decide)
  | string => rfl
  | mark m => exact absurd rfl (head_spelling m '"' hhead).2.2.1

/-- Nothing goes on behind the quote at the end of a string literal. -/
theorem not_append_string (h : TokenKind.string.Written v) :
    ¬ TokenKind.string.Written (v ++ c :: w) := by
  intro h'
  obtain ⟨body, hv, hbody⟩ := h.exists_body
  obtain ⟨body', hv', hbody'⟩ := h'.exists_body
  -- the scan of the longer text would end at both quotes
  have hfirst : Lexeme.string (v ++ c :: w) = v.length := hv ▸ string_append hbody (c :: w)
  have hsecond : Lexeme.string (v ++ c :: w) = (v ++ c :: w).length := by
    have heq := string_append hbody' []
    rwa [List.append_nil, ← hv'] at heq
  rw [hfirst, List.length_append, List.length_cons] at hsecond
  omega

/-- No token goes on behind another one with a blank. -/
theorem not_isBlank_of_append (h : kind.Written v) (h' : kind'.Written (v ++ c :: w)) :
    isBlank c = false := by
  by_cases hstring : kind' = .string
  · subst hstring
    obtain ⟨d, v, rfl⟩ := List.exists_cons_of_ne_nil h.ne_nil
    obtain ⟨body, hbody, -⟩ := h'.exists_body
    obtain ⟨rfl, -⟩ := List.cons.inj hbody
    obtain rfl := h.eq_string_of_head rfl
    exact absurd h' h.not_append_string
  · exact (h'.visible hstring c (by simp)).not_isBlank

/-- **A token with a blank behind it is the longest one.** -/
theorem longest (h : kind.Written v) (hrest : ∀ d ∈ rest.head?, isBlank d = true) :
    Longest kind v (v ++ rest) where
  written := h
  front := List.prefix_append v rest
  le_length := by
    intro kind' v' h' hfront'
    refine Nat.le_of_not_lt fun hlt => ?_
    -- a longer token would go on with the blank
    obtain ⟨u, rfl⟩ := List.prefix_of_prefix_length_le (List.prefix_append v rest) hfront' hlt.le
    cases u with
    | nil => simp at hlt
    | cons d u =>
        have hd : d ∈ rest.head? := by
          obtain ⟨tail, htail⟩ := (List.prefix_append_right_inj v).1 hfront'
          rw [← htail]
          rfl
        have hblank := hrest d hd
        rw [h.not_isBlank_of_append h'] at hblank
        contradiction

theorem ne_of_opening {p : Char → Bool} (hsign : p '#' = false) (hslash : p '/' = false)
    (h : p c = true) : c ≠ '#' ∧ c ≠ '/' := ⟨ne_of_class hsign h, ne_of_class hslash h⟩

/-- Behind a slash at the front of a mark there is an equals sign or nothing. -/
theorem opens_spelling (m : Mark) : ∀ d ∈ m.spelling.toList.head?, d ≠ '#' ∧
    (d = '/' → m.spelling.toList.tail = [] ∨ m.spelling.toList.tail = ['=']) := by
  cases m <;> rintro _ ⟨⟩ <;> decide

/-- No token begins like a preprocessor's line or like a comment. -/
theorem opens (h : kind.Written v) : ∀ d ∈ v.head?, d ≠ '#' ∧
    (d = '/' → ∀ e ∈ v.tail.head?, e ≠ '/' ∧ e ≠ '*') := by
  have hplain {d : Char} (hd : d ≠ '#' ∧ d ≠ '/') : d ≠ '#' ∧
      (d = '/' → ∀ e ∈ v.tail.head?, e ≠ '/' ∧ e ≠ '*') := ⟨hd.1, fun heq => absurd heq hd.2⟩
  intro d hhead
  cases h with
  | word hstart =>
      obtain rfl := Option.some.inj hhead
      exact hplain (ne_of_opening rfl rfl hstart)
  | float hnumber =>
      obtain ⟨c, number, rfl⟩ := List.exists_cons_of_ne_nil hnumber.ne_nil
      obtain rfl := Option.some.inj hhead
      rcases hnumber.head _ rfl with hdecimal | rfl
      · exact hplain (ne_of_opening rfl rfl hdecimal)
      · exact hplain (by decide)
  | int hnumber =>
      obtain ⟨c, number, rfl⟩ := List.exists_cons_of_ne_nil hnumber.ne_nil
      obtain rfl := Option.some.inj hhead
      exact hplain (ne_of_opening rfl rfl (hnumber.head _ rfl))
  | string =>
      obtain rfl := Option.some.inj hhead
      exact hplain (by decide)
  | mark m =>
      obtain ⟨hsign, hslash⟩ := opens_spelling m d hhead
      refine ⟨hsign, fun hd e he => ?_⟩
      rcases hslash hd with htail | htail <;> rw [htail] at he
      · contradiction
      · obtain rfl := Option.some.inj he
        decide

/-- **Nothing is skipped in front of a token with a blank behind it.** -/
theorem gap_eq_zero (h : kind.Written v) (hrest : ∀ d ∈ rest.head?, isBlank d = true) :
    gap (v ++ rest) = 0 := by
  obtain ⟨c, w, rfl⟩ := List.exists_cons_of_ne_nil h.ne_nil
  obtain ⟨hsign, hslash⟩ := h.opens c rfl
  refine gap_eq_zero_of_head (h.visible_head c rfl).not_isBlank hsign fun hc d hd => ?_
  cases w with
  | nil =>
      have hblank := hrest d hd
      constructor <;> rintro rfl <;> contradiction
  | cons e w => exact hslash hc d hd

end TokenKind.Written

/-! ### The scan -/

namespace TokenStream

open Lexeme

variable {file : UInt16} {line : Nat} {v cs rest : List Char} {kind : TokenKind}

/-- What is skipped in front is cut off. -/
theorem scan_gap {n : Nat} (hn : gap cs = n + 1) : scan file line cs =
    scan file (line + newlines (cs.take (n + 1))) (cs.drop (n + 1)) := by
  cases cs with
  | nil => contradiction
  | cons c cs =>
      rw [List.drop_succ_cons]
      conv_lhs => rw [scan, hn]

/-- The token in front is cut off. -/
theorem scan_token (hne : v ≠ []) (hgap : gap (v ++ rest) = 0)
    (htoken : token (v ++ rest) = some (kind, v.length)) : scan file line (v ++ rest) =
      (scan file line rest).map (cons ⟨kind, String.ofList v, ⟨line, file⟩⟩) := by
  obtain ⟨c, w, rfl⟩ := List.exists_cons_of_ne_nil hne
  rw [List.cons_append] at hgap htoken ⊢
  rw [scan, hgap, htoken]
  dsimp only
  rw [List.length_cons, Nat.add_sub_cancel, List.drop_left, ← List.cons_append, ← List.length_cons,
    List.take_left]
  cases scan file line rest <;> rfl

theorem scan_nil : scan file line [] = .ok ⟨[], ⟨line, file⟩⟩ := by rw [scan]

/-- Blanks are skipped one by one as well as all at once. -/
theorem scan_blank {c : Char} (hc : isBlank c = true) (cs : List Char) :
    scan file line (c :: cs) = scan file (line + newlines [c]) cs := by
  rw [scan_gap (gap_of_isBlank hc), List.take_succ_cons, List.drop_succ_cons,
    ← List.singleton_append, newlines_append, ← Nat.add_assoc]
  cases cs with
  | nil => simp
  | cons d cs =>
      -- more blanks are skipped in the same step on the left, in one of their own on the right
      by_cases hd : isBlank d = true
      · rw [scan_gap (gap_of_isBlank hd), run_cons, if_pos hd]
      · rw [run_cons, if_neg hd]
        simp

theorem throughCommentEnd_append {body : List Char} (hbody : ¬ ['*', '/'] <:+: body ++ ['*'])
    (rest : List Char) : throughCommentEnd (body ++ '*' :: '/' :: rest) = some (body.length + 2) := by
  induction body with
  | nil => rfl
  | cons c body ih =>
      rw [List.cons_append, List.infix_cons_iff, not_or] at hbody
      obtain ⟨hfront, hlater⟩ := hbody
      have hopen : ∀ tail, c = '*' → body ++ '*' :: '/' :: rest = '/' :: tail → False := by
        rintro tail rfl heq
        refine hfront (List.cons_prefix_cons.2 ⟨rfl, ?_⟩)
        cases body with
        | nil => exact absurd (List.cons.inj heq).1 (by decide)
        | cons d body =>
            obtain ⟨rfl, -⟩ := List.cons.inj heq
            exact List.cons_prefix_cons.2 ⟨rfl, List.nil_prefix⟩
      rw [List.cons_append, throughCommentEnd, ih hlater]
      · rfl
      · exact hopen

theorem gap_of_comment {body : List Char} (hbody : ¬ ['*', '/'] <:+: body ++ ['*'])
    (rest : List Char) :
    gap ('/' :: '*' :: (body ++ '*' :: '/' :: rest)) = body.length + 3 + 1 := by
  have hblock : blockComment ('/' :: '*' :: (body ++ '*' :: '/' :: rest)) = 2 + (body.length + 2) := by
    rw [blockComment, throughCommentEnd_append hbody]
  rw [gap, blanks_eq_zero (by decide), hblock, Nat.add_comm 2]
  rfl

theorem scan_comment {body : List Char} (hbody : ¬ ['*', '/'] <:+: body ++ ['*'])
    (rest : List Char) : scan file line ('/' :: '*' :: (body ++ '*' :: '/' :: rest)) =
      scan file (line + newlines body) rest := by
  have hsplit : '/' :: '*' :: (body ++ '*' :: '/' :: rest) =
      '/' :: '*' :: (body ++ ['*', '/']) ++ rest := by simp
  have hlength : ('/' :: '*' :: (body ++ ['*', '/'])).length = body.length + 3 + 1 := by simp
  have hlines : newlines ('/' :: '*' :: (body ++ ['*', '/'])) = newlines body := by
    simp [newlines]
  rw [scan_gap (gap_of_comment hbody rest), hsplit, ← hlength, List.take_left, List.drop_left, hlines]

/-- **Spacing changes nothing but the line.** -/
theorem exists_scan_spacing {spacing : List Char} (h : Spacing spacing) (file : UInt16) (line : Nat)
    (rest : List Char) : ∃ line', scan file line (spacing ++ rest) = scan file line' rest := by
  induction h generalizing line with
  | nil => exact ⟨line, rfl⟩
  | @blank c cs hc _ ih =>
      obtain ⟨line', hscan⟩ := ih (line + newlines [c])
      exact ⟨line', by rw [List.cons_append, scan_blank hc, hscan]⟩
  | @comment body cs hbody _ ih =>
      obtain ⟨line', hscan⟩ := ih (line + newlines body)
      refine ⟨line', ?_⟩
      rw [List.cons_append, List.cons_append, List.append_assoc, List.cons_append, List.cons_append,
        scan_comment hbody, hscan]

/-- One token is cut off in front of a blank or of the end. -/
theorem scan_written (h : kind.Written v) (hrest : ∀ d ∈ rest.head?, isBlank d = true) :
    scan file line (v ++ rest) =
      (scan file line rest).map (cons ⟨kind, String.ofList v, ⟨line, file⟩⟩) :=
  scan_token h.ne_nil (h.gap_eq_zero hrest) (token_of_longest (h.longest hrest))

/-- Tokens that are joined are cut apart again. -/
theorem scan_joined {tokens : List Token} (hwritten : ∀ t ∈ tokens, t.kind.Written t.text.toList)
    (h : Joined (tokens.map fun t => t.text.toList) cs) (file : UInt16) (line : Nat) :
    ∃ s, scan file line cs = .ok s ∧ s.words = tokens.map Token.word := by
  generalize hwords : tokens.map (fun t => t.text.toList) = vs at h
  -- the line changes at the separators, and no word depends on it
  induction h generalizing tokens line with
  | nil =>
      obtain rfl := List.map_eq_nil_iff.1 hwords
      exact ⟨_, scan_nil, rfl⟩
  | singleton v =>
      obtain ⟨t, rfl, rfl⟩ := List.map_eq_singleton_iff.1 hwords
      have hscan : scan file line (t.text.toList ++ []) = (scan file line []).map _ :=
        scan_written (hwritten t (List.mem_singleton_self t)) nofun
      rw [List.append_nil, scan_nil] at hscan
      exact ⟨_, hscan, by rw [words_cons, String.ofList_toList]; rfl⟩
  | @cons v sep w vs cs hsep _ ih =>
      obtain ⟨t, tokens, rfl, rfl, hrest⟩ := List.map_eq_cons_iff.1 hwords
      obtain ⟨line', hspacing⟩ := exists_scan_spacing hsep.spacing file line cs
      obtain ⟨s, hs, hsWords⟩ := ih (fun u hu => hwritten u (List.mem_cons_of_mem t hu)) line' hrest
      have hblank : ∀ d ∈ (sep ++ cs).head?, isBlank d = true := by
        obtain ⟨c, hc, hblank⟩ := hsep.exists_blank
        intro d hd
        rw [List.head?_append, hc] at hd
        obtain rfl := Option.some.inj hd
        exact hblank
      refine ⟨_, by rw [scan_written (hwritten t (List.mem_cons_self ..)) hblank, hspacing, hs]; rfl, ?_⟩
      rw [words_cons, hsWords, String.ofList_toList]
      rfl

/-! ### A source text -/

/-- **Respacing a source text does not change its tokens.**  The tokens of a source text, written out with
any separators between them, are cut apart into the same tokens again, and the end is behind them. -/
theorem ofSource_respaced {source text : String} {file : UInt16} {s : TokenStream}
    (h : ofSource source file = .ok s)
    (htext : Joined (s.tokens.map fun t => t.text.toList) text.toList) (file' : UInt16) :
    ∃ s', ofSource text file' = .ok s' ∧ s'.toList.map Token.word = s.toList.map Token.word := by
  obtain ⟨s', hs', hwords⟩ := scan_joined (written_of_ofSource h) htext file' 1
  refine ⟨s', hs', ?_⟩
  rw [toList, toList, List.map_append, List.map_append]
  exact congrArg (· ++ [Token.word (Token.endOfFile s.stop)]) hwords

/-- Five tokens with as little between them as possible. -/
def tight : String := "a/=.5f//half\n+\"/*\""

/-- The same tokens with blanks and a comment between them. -/
def loose : String := "a /* of */ /=\t.5f\n+ \"/*\""

/-- A comment may stand in front of `/=`, and a string literal may look like one. -/
theorem ofSource_respaced_loose :
    ∃ s, ofSource tight 0 = .ok s ∧ Joined (s.tokens.map fun t => t.text.toList) loose.toList ∧
      ∃ s', ofSource loose 1 = .ok s' ∧ s'.toList.map Token.word = s.toList.map Token.word := by
  have hrun : ((ofSource tight 0).toOption.map fun s => s.tokens.map fun t => t.text.toList) =
      some [['a'], ['/', '='], ['.', '5', 'f'], ['+'], ['"', '/', '*', '"']] := by
    decide +kernel
  have hcomment : Separator ([' '] ++ '/' :: '*' :: ([' ', 'o', 'f', ' '] ++ '*' :: '/' :: [' '])) :=
    ⟨.blank (by decide) (.comment (by decide) (.blank (by decide) .nil)), ' ', rfl, by decide⟩
  have hblank (c : Char) (hc : isBlank c = true) : Separator [c] := ⟨.blank hc .nil, c, rfl, hc⟩
  have hjoined : Joined [['a'], ['/', '='], ['.', '5', 'f'], ['+'], ['"', '/', '*', '"']] loose.toList :=
    .cons hcomment <| .cons (hblank '\t' (by decide)) <| .cons (hblank '\n' (by decide)) <|
      .cons (hblank ' ' (by decide)) <| .singleton _
  obtain ⟨s, hsource, hvalues⟩ := exists_ok_of_toOption_map hrun
  rw [← hvalues] at hjoined
  exact ⟨s, hsource, hjoined, ofSource_respaced hsource hjoined 1⟩

end TokenStream

end ShaderLang
