/-
**The line that is shown is the right one.**

Two notions of a line meet here.  The scan counts the line feeds in front of a token; the text of a line
is found by taking the source text apart at its line feeds and cutting carriage returns from the end.
They agree: the line of a token, from the line feed in front of it up to the next one, is found at the number
that the token has.  The token is still in it when its end is cut, since no token ends with a carriage return,
and one in another place ends no line.  It is still in it when blanks are cut from both ends, since no token
begins or ends with a blank.  All this is true of a character that no token begins with, too.

Main definitions:

* `ShaderLang.Text.IsLine` — a line of a text, told by the line feeds around it and in front of it;
* `ShaderLang.Text.Shows` — a line of the source text is found and shown, and has a text in it.

Main results:

* `ShaderLang.Text.IsLine.getElem?_lines` — a line is found at its number;
* `ShaderLang.Text.exists_isLine` — the line on which a text without line feeds stands;
* `ShaderLang.Text.infix_trimEnd`, `ShaderLang.Text.infix_trim` — what is cut from the ends of a line;
* `ShaderLang.TokenStream.ofSource_shown` — **the line of a token or of a character that no token begins with
  has it in it**.
-/

import ShaderLang.Proofs.Token.Factoring
import ShaderLang.Proofs.Token.Written

set_option relaxedAutoImplicit false
set_option autoImplicit false

namespace ShaderLang

namespace Text

variable {c : Char} {v cs : List Char} {p : Char → Bool}

/-! ### Lines of a text -/

/-- A line of a text: what is before it ends with a line feed, and what is behind it begins with one. -/
def IsLine (text : List Char) (number : Nat) (line : List Char) : Prop :=
  ∃ earlier later, text = earlier ++ (line ++ later) ∧ number = 1 + newlines earlier ∧ '\n' ∉ line ∧
    (∀ c ∈ earlier.getLast?, c = '\n') ∧ ∀ c ∈ later.head?, c = '\n'

/-- The text behind a text without line feeds goes on with the rest of the line. -/
theorem exists_lineEnd (cs : List Char) :
    ∃ back later, cs = back ++ later ∧ '\n' ∉ back ∧ ∀ c ∈ later.head?, c = '\n' :=
  ⟨cs.take (Lexeme.restOfLine cs), cs.drop (Lexeme.restOfLine cs), (List.take_append_drop _ cs).symm,
    Lexeme.not_mem_restOfLine, fun _ => Lexeme.eq_of_mem_drop_restOfLine⟩

theorem exists_lineStart (cs : List Char) :
    ∃ earlier front, cs = earlier ++ front ∧ '\n' ∉ front ∧ ∀ c ∈ earlier.getLast?, c = '\n' := by
  obtain ⟨back, later, hsplit, hback, hlater⟩ := exists_lineEnd cs.reverse
  refine ⟨later.reverse, back.reverse, ?_, by simpa using hback, by simpa using hlater⟩
  rw [← List.reverse_append, ← hsplit, List.reverse_reverse]

/-- **A text without line feeds stands on one line**, the one that the line feeds in front lead to. -/
theorem exists_isLine (hv : '\n' ∉ v) (before after : List Char) :
    ∃ line, IsLine (before ++ (v ++ after)) (1 + newlines before) line ∧ v <:+: line := by
  obtain ⟨earlier, front, rfl, hfront, hearlier⟩ := exists_lineStart before
  obtain ⟨back, later, rfl, hback, hlater⟩ := exists_lineEnd after
  have hzero : newlines front = 0 := List.count_eq_zero.2 hfront
  refine ⟨front ++ (v ++ back), ⟨earlier, later, by simp, by simp [hzero], ?_, hearlier, hlater⟩,
    front, back, by simp⟩
  simp [hfront, hv, hback]

theorem lines_cons (hc : c ≠ '\n') (cs : List Char) :
    lines (c :: cs) = (c :: (lines cs).headD []) :: (lines cs).tail := by
  rw [lines, if_neg hc]
  cases lines cs <;> rfl

/-- The first line goes up to the first line feed. -/
theorem head?_lines {line later : List Char} (hne : line ≠ []) (hline : '\n' ∉ line)
    (hlater : ∀ c ∈ later.head?, c = '\n') : (lines (line ++ later)).head? = some line := by
  induction line with
  | nil => contradiction
  | cons c line ih =>
      rw [List.mem_cons, not_or] at hline
      rw [List.cons_append, lines_cons (Ne.symm hline.1), List.head?_cons, List.headD_eq_head?_getD]
      cases line with
      | nil =>
          cases later with
          | nil => rfl
          | cons d later =>
              obtain rfl := hlater d rfl
              rw [List.nil_append, lines_newline]
              rfl
      | cons d line => rw [ih (List.cons_ne_nil d line) hline.2, Option.getD_some]

/-- Text that ends with a line feed has a line for each line feed. -/
theorem length_lines (cs : List Char) : (lines (cs ++ ['\n'])).length = newlines cs + 1 := by
  induction cs with
  | nil => simp
  | cons c cs ih =>
      rw [List.cons_append]
      by_cases hc : c = '\n'
      · subst hc
        rw [lines_newline, List.length_cons, ih]
        simp [newlines]
      · rw [lines_cons hc, List.length_cons, List.length_tail, ih]
        simp [newlines, hc]

/-- The lines behind a line feed do not depend on what is in front of it. -/
theorem lines_append (cs rest : List Char) :
    lines (cs ++ '\n' :: rest) = lines (cs ++ ['\n']) ++ lines rest := by
  induction cs with
  | nil => simp
  | cons c cs ih =>
      rw [List.cons_append, List.cons_append]
      by_cases hc : c = '\n'
      · subst hc
        rw [lines_newline, lines_newline, ih, List.cons_append]
      · obtain ⟨line, more, hlines⟩ := List.exists_cons_of_length_eq_add_one (length_lines cs)
        rw [lines_cons hc, lines_cons hc, ih, hlines]
        rfl

/-- **A line of a text is found at its number.** -/
theorem IsLine.getElem?_lines {text line : List Char} {number : Nat} (h : IsLine text number line)
    (hne : line ≠ []) : (lines text)[number - 1]? = some line := by
  obtain ⟨earlier, later, rfl, rfl, hline, hearlier, hlater⟩ := h
  have hhead := head?_lines hne hline hlater
  rw [List.head?_eq_getElem?] at hhead
  rw [Nat.add_sub_cancel_left]
  rcases List.eq_nil_or_concat earlier with rfl | ⟨front, d, rfl⟩
  · exact hhead
  · rw [List.concat_eq_append] at hearlier ⊢
    obtain rfl := hearlier d List.getLast?_concat
    have hcount : newlines (front ++ ['\n']) = (lines (front ++ ['\n'])).length := by
      rw [length_lines, newlines_append]
      rfl
    rw [List.append_assoc, List.singleton_append, lines_append, hcount, List.getElem?_append_right le_rfl,
      Nat.sub_self, hhead]

/-! ### The ends of a line -/

/-- A text that begins otherwise is left when characters of a class are cut off in front. -/
theorem infix_dropWhile (hhead : ∀ d ∈ v.head?, p d = false) (h : v <:+: cs) :
    v <:+: cs.dropWhile p := by
  cases v with
  | nil => exact List.nil_infix
  | cons d v =>
      obtain ⟨front, back, rfl⟩ := h
      rw [List.append_assoc, List.dropWhile_append]
      -- the characters in front of the text are all cut off, or some are left
      split
      · rw [List.cons_append, List.dropWhile_cons_of_neg (by simp [hhead d rfl]), ← List.cons_append]
        exact (List.prefix_append _ back).isInfix
      · exact ⟨front.dropWhile p, back, List.append_assoc ..⟩

/-- A text that ends otherwise is left when characters of a class are cut off behind. -/
theorem infix_trimEnd (hlast : ∀ d ∈ v.getLast?, p d = false) (h : v <:+: cs) :
    v <:+: trimEnd p cs := by
  rw [trimEnd, ← List.reverse_infix, List.reverse_reverse]
  exact infix_dropWhile (by rwa [List.head?_reverse]) (List.reverse_infix.2 h)

/-- A text that neither begins nor ends with a blank is left when a line is shown without blanks. -/
theorem infix_trim {line : String} (hhead : ∀ d ∈ v.head?, isBlank d = false)
    (hlast : ∀ d ∈ v.getLast?, isBlank d = false) (h : v <:+: line.toList) :
    v <:+: (trim line).toList := by
  rw [trim, String.toList_ofList]
  exact infix_trimEnd hlast (infix_dropWhile hhead h)

/-- The line of the source text with this number is found and shown.  Carriage returns at its end are cut
off, and a text is in what is left of it, also without the blanks at both ends. -/
def Shows (source : String) (number : Nat) (v : List Char) : Prop :=
  ∃ line shown, IsLine source.toList number line ∧ lineText source number = some shown ∧
    shown.toList = trimEnd (· == '\r') line ∧ v <:+: shown.toList ∧ v <:+: (trim shown).toList

/-- The line of a text without blanks at its ends has it in it. -/
theorem shows {source : String} {before after : List Char}
    (hsource : source.toList = before ++ (v ++ after)) (hne : v ≠ []) (hv : '\n' ∉ v)
    (hhead : ∀ d ∈ v.head?, isBlank d = false) (hlast : ∀ d ∈ v.getLast?, isBlank d = false) :
    Shows source (1 + newlines before) v := by
  obtain ⟨line, hline, hinfix⟩ := exists_isLine hv before after
  rw [← hsource] at hline
  have hreturn : ∀ d ∈ v.getLast?, (d == '\r') = false := fun d hd =>
    beq_eq_false_iff_ne.2 (Lexeme.ne_of_class (c := '\r') (hlast d hd) (by decide)).symm
  have hshown : v <:+: (String.ofList (trimEnd (· == '\r') line)).toList := by
    rw [String.toList_ofList]
    exact infix_trimEnd hreturn hinfix
  have hlineNe : line ≠ [] := by
    rintro rfl
    exact hne (List.infix_nil.1 hinfix)
  refine ⟨line, _, hline, ?_, String.toList_ofList, hshown, infix_trim hhead hlast hshown⟩
  rw [lineText, if_neg (by omega), hline.getElem?_lines hlineNe]
  rfl

end Text

/-! ### Tokens and errors -/

namespace TokenStream

open Text Lexeme

variable {file : UInt16} {source : String} {front rest : List Char}
  {parts : List (Token × List Char)}

/-- Tokens written out, up to one of them and from it on. -/
theorem written_append (parts parts' : List (Token × List Char)) :
    written (parts ++ parts') = written parts ++ written parts' := List.flatMap_append

/-- A token of a text that is taken apart is shown. -/
theorem shows_of_factored (h : Factored file 1 source.toList front parts rest)
    {before after : List (Token × List Char)} {t : Token} {behind : List Char}
    (hparts : parts = before ++ (t, behind) :: after) :
    t.position.line ≤ 1 + newlines source.toList ∧ Shows source t.position.line t.text.toList := by
  have hcut := h.cut hparts
  have hwritten : t.kind.Written t.text.toList := by
    have hwritten := written_of_token hcut.token_eq
    rwa [List.take_left] at hwritten
  have hsource : source.toList =
      (front ++ written before) ++ (t.text.toList ++ (behind ++ (written after ++ rest))) := by
    rw [h.text, hparts, written_append, written_cons]
    simp only [List.append_assoc]
  have hshown := shows hsource hwritten.ne_nil hcut.not_mem
    (fun c hc => (hwritten.visible_head c hc).not_isBlank)
    (fun c hc => (hwritten.visible_last c hc).not_isBlank)
  rw [hcut.position]
  refine ⟨?_, hshown⟩
  rw [hsource, newlines_append (front ++ written before)]
  exact Nat.add_le_add_left (Nat.le_add_right ..) 1

/-- The character that a text is taken apart up to is shown, when it is neither skipped nor a blank. -/
theorem shows_of_gap {c : Char} (h : Factored file 1 source.toList front parts (c :: rest))
    (hgap : gap (c :: rest) = 0) :
    1 + newlines (front ++ written parts) ≤ 1 + newlines source.toList ∧
      Shows source (1 + newlines (front ++ written parts)) [c] := by
  have hblank : isBlank c = false := not_isBlank_of_gap hgap
  have hsource : source.toList = (front ++ written parts) ++ ([c] ++ rest) := by
    rw [h.text, List.append_assoc]
    rfl
  refine ⟨?_, shows hsource (List.cons_ne_nil c []) ?_ ?_ ?_⟩
  · rw [hsource, newlines_append (front ++ written parts)]
    exact Nat.add_le_add_left (Nat.le_add_right ..) 1
  · rw [List.mem_singleton]
    rintro rfl
    contradiction
  · rintro _ ⟨⟩
    exact hblank
  · rintro _ ⟨⟩
    exact hblank

/-- **The line of a token shows it.**  The line that a token names is a line of the source text and has the
text of the token in it; and where a character is found that no token begins with, the line that is named
has this character in it.  The numbers of lines fit in 32 bits if the line feeds are few enough. -/
theorem ofSource_shown {source : String} (hlines : newlines source.toList < UInt32.size - 1)
    (file : UInt16) :
    (∃ s, ofSource source file = .ok s ∧ ∀ t ∈ s.tokens,
      t.position.line < UInt32.size ∧ Shows source t.position.line t.text.toList) ∨
    ∃ c line, ofSource source file = .error ⟨.unrecognisedToken c.toString, ⟨line, file⟩⟩ ∧
      line < UInt32.size ∧ Shows source line [c] := by
  have haccounted : Accounted file 1 source.toList (ofSource source file) := accounted_scan ..
  cases hscan : ofSource source file with
  | ok s =>
      rw [hscan] at haccounted
      obtain ⟨front, parts, hfactored, htokens, -⟩ := haccounted
      refine .inl ⟨s, rfl, fun t ht => ?_⟩
      rw [← htokens, List.mem_map] at ht
      obtain ⟨⟨t, behind⟩, hpart, rfl⟩ := ht
      obtain ⟨before, after, hparts⟩ := List.append_of_mem hpart
      obtain ⟨hle, hshown⟩ := shows_of_factored hfactored hparts
      exact ⟨Nat.lt_of_le_of_lt hle (by omega), hshown⟩
  | error d =>
      rw [hscan] at haccounted
      obtain ⟨front, parts, c, rest, hfactored, hgap, -, rfl⟩ := haccounted
      obtain ⟨hle, hshown⟩ := shows_of_gap hfactored hgap
      exact .inr ⟨c, _, rfl, by omega, hshown⟩

/-- A carriage return before a line feed, in a string literal and alone, and a comment on two lines. -/
def carriages : String := "a;\r\n/*\n*/\r\"\r\" b \r\n"

/-- The lines of this text, and what is shown of them. -/
theorem ofSource_shown_carriages : newlines carriages.toList < UInt32.size - 1 ∧
    ∃ s, ofSource carriages 0 = .ok s ∧
      (s.tokens.map fun t => (t.position.line, t.text)) =
        [(1, "a"), (1, ";"), (3, "\"\r\""), (3, "b")] ∧
      ∀ t ∈ s.tokens, t.position.line < UInt32.size ∧
        Shows carriages t.position.line t.text.toList := by
  have hlines : newlines carriages.toList < UInt32.size - 1 := by decide
  have hrun : ((ofSource carriages 0).toOption.map fun s =>
      s.tokens.map fun t => (t.position.line, t.text)) =
        some [(1, "a"), (1, ";"), (3, "\"\r\""), (3, "b")] := by
    decide +kernel
  rcases ofSource_shown hlines 0 with ⟨s, hsource, hshown⟩ | ⟨c, line, hsource, -⟩
  · rw [hsource] at hrun
    exact ⟨hlines, s, hsource, Option.some.inj hrun, hshown⟩
  · rw [hsource] at hrun
    contradiction

end TokenStream

end ShaderLang
