/-
**Tokens stand in the order of their lines.**

The text is cut from the front and line feeds are only counted up, so no token stands on an earlier
line than the token before it, and none behind the end.

Main definitions:

* `ShaderLang.TokenStream.lines` — the lines of all tokens and of the end.

Main results:

* `ShaderLang.TokenStream.pairwise_lines` — **the lines of a source text's tokens never go back**.
-/

import ShaderLang.Token.Scan

set_option relaxedAutoImplicit false
set_option autoImplicit false

namespace ShaderLang.TokenStream

/-- The lines of all tokens and of the end. -/
def lines (s : TokenStream) : List Nat := s.tokens.map (·.position.line) ++ [s.stop.line]

@[simp] theorem lines_cons (t : Token) (s : TokenStream) :
    (s.cons t).lines = t.position.line :: s.lines := rfl

/-- What is cut from a line on stands on that line or behind it, in order. -/
theorem pairwise_lines_of_scan {file : UInt16} {line : Nat} {cs : List Char} {s : TokenStream}
    (h : scan file line cs = .ok s) : (line :: s.lines).Pairwise (· ≤ ·) := by
  fun_induction scan file line cs generalizing s with
  | case1 line =>
      obtain rfl := Except.ok.inj h
      exact List.pairwise_pair.2 (Nat.le_refl line)
  | case2 line c cs n _ ih =>
      obtain ⟨hfirst, hrest⟩ := List.pairwise_cons.1 (ih h)
      exact List.pairwise_cons.2 ⟨fun l hl => Nat.le_of_add_right_le (hfirst l hl), hrest⟩
  | case3 line c cs _ kind n _ rest hscan ih =>
      obtain rfl := Except.ok.inj h
      have hrest := ih hscan
      refine List.pairwise_cons.2 ⟨fun l hl => ?_, hrest⟩
      rcases List.mem_cons.1 hl with rfl | hl
      · exact Nat.le_refl _
      · exact (List.pairwise_cons.1 hrest).1 l hl
  | case4 => contradiction
  | case5 => contradiction

/-- **The lines of a source text's tokens never go back**, and begin with the first. -/
theorem pairwise_lines {source : String} {file : UInt16} {s : TokenStream}
    (h : ofSource source file = .ok s) : (1 :: s.lines).Pairwise (· ≤ ·) :=
  pairwise_lines_of_scan h

end ShaderLang.TokenStream
