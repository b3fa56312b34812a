/-
**From source text to tokens.**

The text is cut from the front: what is skipped, then a token, and so on.  Line feeds of skipped text
are counted, so each token knows its line; no token holds one.

Main definitions:

* `ShaderLang.TokenStream.scan` — cuts a text from a given line on;
* `ShaderLang.TokenStream.ofSource` — the tokens of a source text.
-/

import ShaderLang.Diagnostic
import ShaderLang.Text.Line
import ShaderLang.Token.Lexeme

set_option relaxedAutoImplicit false
set_option autoImplicit false

namespace ShaderLang.TokenStream

open Text

/-- Cuts a text into tokens; `line` is the line of its first character.  A character that no token
and nothing skipped begins with ends the scan. -/
def scan (file : UInt16) (line : Nat) : List Char → Except Diagnostic TokenStream
  | [] => .ok ⟨[], ⟨line, file⟩⟩
  | c :: cs =>
      match Lexeme.gap (c :: cs) with
      | n + 1 => scan file (line + newlines ((c :: cs).take (n + 1))) (cs.drop n)
      | 0 =>
          match Lexeme.token (c :: cs) with
          | some (kind, n) =>
              match scan file line (cs.drop (n - 1)) with
              | .ok rest =>
                  .ok (rest.cons ⟨kind, String.ofList ((c :: cs).take n), ⟨line, file⟩⟩)
              | .error e => .error e
          | none => .error ⟨.unrecognisedToken c.toString, ⟨line, file⟩⟩
termination_by cs => cs.length
decreasing_by all_goals (simp only [List.length_cons, List.length_drop]; omega)

/-- The tokens of a source text. -/
def ofSource (source : String) (file : UInt16) : Except Diagnostic TokenStream :=
  scan file 1 source.toList

end ShaderLang.TokenStream
