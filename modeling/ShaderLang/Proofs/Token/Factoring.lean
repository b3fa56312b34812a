/-
**A source text is its tokens and what is skipped between them.**

Cutting a text into tokens loses nothing.  The text is taken apart into the texts of the tokens, in
their order, with skipped text in front of the first one and behind each; a token stands on the line
that the line feeds in front of it lead to, and so does the end.  Where no token can be cut, the same
is true of the text in front of the character that is reported.

The lines are counted up at skipped text only, so this rests on no token having a line feed in it.
They are counted without a bound: the last is one more than the number of line feeds.

Main definitions:

* `ShaderLang.TokenStream.written` — tokens written out, each with the skipped text behind it;
* `ShaderLang.TokenStream.Cut` — what is known of one token and the text behind it;
* `ShaderLang.TokenStream.Factored` — a text taken apart up to a rest.

Main results:

* `ShaderLang.TokenStream.Factored.skip`, `ShaderLang.TokenStream.Factored.token` — one step of the
  scan, in front of a text that is taken apart;
* `ShaderLang.TokenStream.accounted_scan` — a scan from any line on, by induction along its steps;
* `ShaderLang.TokenStream.ofSource_factored` — **every source text is taken apart into its tokens and
  skipped text, or up to the first character that nothing begins with**.
-/

import ShaderLang.Proofs.Token.Pieces
import ShaderLang.Token.Scan

set_option relaxedAutoImplicit false
set_option autoImplicit false

namespace ShaderLang.TokenStream

open Text Lexeme

variable {file : UInt16} {line : Nat} {cs front piece rest : List Char}
  {parts : List (Token × List Char)}

/-! ### A text taken apart -/

/-- Tokens written out, each with the text behind it. -/
def written (parts : List (Token × List Char)) : List Char :=
  parts.flatMap fun part => part.1.text.toList ++ part.2

@[simp] theorem written_nil : written [] = [] := rfl

@[simp] theorem written_cons (t : Token) (g : List Char) (parts : List (Token × List Char)) :
    written ((t, g) :: parts) = t.text.toList ++ (g ++ written parts) := by
  rw [written, List.flatMap_cons, List.append_assoc]
  rfl

/-- A token on a line, with skipped text behind it: it is the token in front of all this text. -/
structure Cut (file : UInt16) (line : Nat) (t : Token) (behind rest : List Char) : Prop where
  position : t.position = ⟨line, file⟩
  not_mem : '\n' ∉ t.text.toList
  gap_behind : Gap behind rest
  gap_eq_zero : gap (t.text.toList ++ (behind ++ rest)) = 0
  token_eq : token (t.text.toList ++ (behind ++ rest)) = some (t.kind, t.text.toList.length)

/-- A text that begins on a line: skipped text in front, tokens with skipped text behind each, and
a rest. -/
structure Factored (file : UInt16) (line : Nat) (cs front : List Char)
    (parts : List (Token × List Char)) (rest : List Char) : Prop where
  text : cs = front ++ (written parts ++ rest)
  gap_front : Gap front (written parts ++ rest)
  cut : ∀ {before t behind after}, parts = before ++ (t, behind) :: after →
    Cut file (line + newlines (front ++ written before)) t behind (written after ++ rest)

/-- Nothing taken apart yet. -/
theorem Factored.nil (cs : List Char) : Factored file line cs [] [] cs where
  text := rfl
  gap_front := .nil
  cut := fun h => by simp at h

/-- One more piece is skipped in front. -/
theorem Factored.skip (h : Factored file (line + newlines piece) cs front parts rest)
    (hpiece : Skipped piece cs) : Factored file line (piece ++ cs) (piece ++ front) parts rest where
  text := by rw [h.text, List.append_assoc]
  gap_front := .cons (h.text ▸ hpiece) h.gap_front
  cut := fun {before} _ _ _ hparts => by
    have hcut := h.cut hparts
    rwa [Nat.add_assoc, ← newlines_append, ← List.append_assoc] at hcut

/-- One more token in front; what was skipped in front now stands behind it. -/
theorem Factored.token {kind : TokenKind} {v : List Char}
    (h : Factored file line cs front parts rest) (hv : '\n' ∉ v) (hgap : gap (v ++ cs) = 0)
    (htoken : token (v ++ cs) = some (kind, v.length)) :
    Factored file line (v ++ cs) [] ((⟨kind, String.ofList v, ⟨line, file⟩⟩, front) :: parts) rest where
  text := by
    rw [h.text, List.nil_append, written_cons, String.toList_ofList, List.append_assoc,
      List.append_assoc]
  gap_front := .nil
  cut := by
    intro before t behind after hparts
    have hzero : newlines v = 0 := List.count_eq_zero.2 hv
    cases before with
    | nil =>
        obtain ⟨hhead, rfl⟩ := List.cons.inj hparts
        obtain ⟨rfl, rfl⟩ := Prod.mk.inj hhead
        rw [h.text] at hgap htoken
        refine ⟨by simp, ?_, h.gap_front, ?_, ?_⟩ <;> simpa
    | cons part before =>
        -- the new token has no line feed, so what stands behind it keeps its line
        obtain ⟨rfl, hrest⟩ := List.cons.inj hparts
        have hcut := h.cut hrest
        simpa [hzero] using hcut

/-! ### The scan -/

/-- What a scan gives accounts for the text: all of it when tokens are given, and when the text is
refused, everything in front of the character that is named. -/
def Accounted (file : UInt16) (line : Nat) (cs : List Char) : Except Diagnostic TokenStream → Prop
  | .ok s => ∃ front parts, Factored file line cs front parts [] ∧ parts.map Prod.fst = s.tokens ∧
      s.stop = ⟨line + newlines cs, file⟩
  | .error d => ∃ front parts c rest, Factored file line cs front parts (c :: rest) ∧
      gap (c :: rest) = 0 ∧ token (c :: rest) = none ∧
      d = ⟨.unrecognisedToken c.toString, ⟨line + newlines (front ++ written parts), file⟩⟩

theorem Accounted.skip {result : Except Diagnostic TokenStream}
    (h : Accounted file (line + newlines piece) cs result) (hpiece : Skipped piece cs) :
    Accounted file line (piece ++ cs) result := by
  cases result with
  | ok s =>
      obtain ⟨front, parts, hfactored, htokens, hstop⟩ := h
      refine ⟨piece ++ front, parts, hfactored.skip hpiece, htokens, ?_⟩
      rw [hstop, newlines_append, Nat.add_assoc]
  | error d =>
      obtain ⟨front, parts, c, rest, hfactored, hgap, htoken, rfl⟩ := h
      refine ⟨piece ++ front, parts, c, rest, hfactored.skip hpiece, hgap, htoken, ?_⟩
      rw [List.append_assoc, newlines_append piece, Nat.add_assoc]

theorem Accounted.token {result : Except Diagnostic TokenStream} {kind : TokenKind} {v : List Char}
    (h : Accounted file line cs result) (hv : '\n' ∉ v) (hgap : gap (v ++ cs) = 0)
    (htoken : token (v ++ cs) = some (kind, v.length)) :
    Accounted file line (v ++ cs) (result.map (cons ⟨kind, String.ofList v, ⟨line, file⟩⟩)) := by
  have hzero : newlines v = 0 := List.count_eq_zero.2 hv
  cases result with
  | ok s =>
      obtain ⟨front, parts, hfactored, htokens, hstop⟩ := h
      refine ⟨[], _, hfactored.token hv hgap htoken, by rw [List.map_cons, htokens]; rfl, ?_⟩
      rw [newlines_append, hzero, Nat.zero_add]
      exact hstop
  | error d =>
      obtain ⟨front, parts, c, rest, hfactored, hstop, hnone, rfl⟩ := h
      refine ⟨[], _, c, rest, hfactored.token hv hgap htoken, hstop, hnone, ?_⟩
      simp [hzero]

/-- One step of the scan: the token in front is cut off. -/
theorem Accounted.cut {result : Except Diagnostic TokenStream} {kind : TokenKind} {c : Char} {n : Nat}
    (h : Accounted file line (cs.drop (n - 1)) result) (hgap : gap (c :: cs) = 0)
    (htoken : Lexeme.token (c :: cs) = some (kind, n)) :
    Accounted file line (c :: cs)
      (result.map (cons ⟨kind, String.ofList ((c :: cs).take n), ⟨line, file⟩⟩)) := by
  obtain ⟨hline, hne⟩ := inLine_of_token htoken
  have hlength : ((c :: cs).take n).length = n := List.length_take_of_le hline.le_length
  have hsplit : (c :: cs).take n ++ cs.drop (n - 1) = c :: cs := by
    obtain ⟨k, rfl⟩ := Nat.exists_eq_succ_of_ne_zero hne
    rw [Nat.succ_sub_one, ← List.drop_succ_cons (a := c), List.take_append_drop]
  have hstep := h.token hline.not_mem (by rwa [hsplit]) (by rwa [hsplit, hlength])
  rwa [hsplit] at hstep

/-- **A scan from any line on accounts for its text**: each step cuts a piece or a token from the
front, and only a piece counts lines. -/
theorem accounted_scan (file : UInt16) (line : Nat) (cs : List Char) :
    Accounted file line cs (scan file line cs) := by
  fun_induction scan file line cs with
  | case1 line => exact ⟨[], [], .nil [], rfl, rfl⟩
  | case2 line c cs n hgap ih =>
      have hskipped : Skipped ((c :: cs).take (gap (c :: cs))) ((c :: cs).drop (gap (c :: cs))) :=
        skipped_of_gap (by rw [hgap]; exact Nat.succ_ne_zero n)
      rw [hgap, List.drop_succ_cons] at hskipped
      have hstep := ih.skip hskipped
      rwa [← List.drop_succ_cons (a := c), List.take_append_drop] at hstep
  | case3 line c cs hgap kind n htoken rest hscan ih =>
      rw [hscan] at ih
      exact ih.cut hgap htoken
  | case4 line c cs hgap kind n htoken e hscan ih =>
      rw [hscan] at ih
      exact ih.cut hgap htoken
  | case5 line c cs hgap htoken =>
      exact ⟨[], [], c, cs, .nil _, hgap, htoken, rfl⟩

/-! ### A source text -/

/-- **Tokenizing loses nothing and counts the lines.**  A source text is the texts of its tokens with
skipped text in front and behind each, every token on the line that the line feeds in front of it
lead to and the end behind them all; or it is so up to a character that nothing begins with, and that
character is named with its line. -/
theorem ofSource_factored (source : String) (file : UInt16) :
    (∃ s front parts, ofSource source file = .ok s ∧
      Factored file 1 source.toList front parts [] ∧ parts.map Prod.fst = s.tokens ∧
      s.stop = ⟨1 + newlines source.toList, file⟩) ∨
    ∃ front parts c rest, ofSource source file = .error
        ⟨.unrecognisedToken c.toString, ⟨1 + newlines (front ++ written parts), file⟩⟩ ∧
      Factored file 1 source.toList front parts (c :: rest) ∧
      gap (c :: rest) = 0 ∧ token (c :: rest) = none := by
  have haccounted : Accounted file 1 source.toList (ofSource source file) := accounted_scan ..
  cases hscan : ofSource source file with
  | ok s =>
      rw [hscan] at haccounted
      obtain ⟨front, parts, hfactored, htokens, hstop⟩ := haccounted
      exact .inl ⟨s, front, parts, rfl, hfactored, htokens, hstop⟩
  | error d =>
      rw [hscan] at haccounted
      obtain ⟨front, parts, c, rest, hfactored, hgap, htoken, rfl⟩ := haccounted
      exact .inr ⟨front, parts, c, rest, rfl, hfactored, hgap, htoken⟩

end ShaderLang.TokenStream
