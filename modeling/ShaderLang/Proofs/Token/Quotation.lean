/-
**Texts written as string literals.**

Every text can be written between double quotes: a backslash goes in front of each backslash and each
quote, and a line feed becomes a backslash and an `n`.  Two readers meet such a literal, and neither
knows of the other.  The scan looks for the closing quote, and must not stop at a quote of the text nor
let a backslash of the text take the closing quote along; the pool cuts the quotes off and reads the
escapes.  Both find what was written, whatever the text holds.

Main definitions:

* `ShaderLang.Text.asLiteral` — a text as a string literal.

Main results:

* `ShaderLang.Text.stringBody_escape` — escaped text is what may stand between quotes;
* `ShaderLang.StringPool.addLiteral_asLiteral` — the pool takes the text itself, unless it is empty;
* `ShaderLang.TokenStream.ofSource_asLiteral` — **every text can be written as a literal and read back**.
-/

import ShaderLang.Names
import ShaderLang.Proofs.Token.Respacing

set_option relaxedAutoImplicit false
set_option autoImplicit false

namespace ShaderLang

open Text

/-! ### Writing -/

namespace Text

/-- A text between double quotes, with its backslashes, double quotes and line feeds escaped. -/
def asLiteral (text : String) : String :=
  String.ofList ('"' :: (escape text.toList ++ ['"']))

@[simp] theorem toList_asLiteral (text : String) :
    (asLiteral text).toList = '"' :: (escape text.toList ++ ['"']) := by
  simp [asLiteral]

/-- One escaped character more may stand in front. -/
theorem stringBody_escapeChar_append (c : Char) {rest : List Char} (h : StringBody rest) :
    StringBody (escapeChar c ++ rest) := by
  unfold escapeChar
  split
  · exact .escaped (by decide) h
  · exact .escaped (by decide) h
  · exact .escaped (by decide) h
  · next hslash hquote hfeed => exact .plain hquote hslash hfeed h

/-- Escaped text holds no quote that ends it, no backslash without a partner and no line feed. -/
theorem stringBody_escape (cs : List Char) : StringBody (escape cs) := by
  induction cs with
  | nil => exact .nil
  | cons c cs ih => exact stringBody_escapeChar_append c ih

end Text

/-! ### Reading -/

namespace StringPool

theorem unquote_quotes (body : List Char) : unquote ('"' :: (body ++ ['"'])) = body := by
  simp [unquote]

/-- The pool takes the text that was written, unless it is empty. -/
theorem addLiteral_asLiteral (p : StringPool) (text : String) :
    p.addLiteral (asLiteral text) true =
      if text = "" then (none, p) else (some p.nextId, p.add text) := by
  have hread : unescape (unquote (asLiteral text).toList) = text.toList := by
    rw [toList_asLiteral, unquote_quotes, unescape_escape]
  simp only [addLiteral, if_true, hread]
  split
  · next hnil => rw [if_pos (String.toList_eq_nil_iff.1 hnil)]
  · next hne => rw [if_neg fun hempty => hne (String.toList_eq_nil_iff.2 hempty), String.ofList_toList]

end StringPool

namespace TokenStream

/-- **Every text can be written as a string literal and read back.**  The literal is one token with the
end behind it, and the pool gets the text at its end; the empty text is not kept and gets no number. -/
theorem ofSource_asLiteral (text : String) (file : UInt16) :
    (ofSource (asLiteral text) file).map toList =
        .ok [⟨.string, asLiteral text, ⟨1, file⟩⟩, Token.endOfFile ⟨1, file⟩] ∧
      ∀ p : StringPool, p.addLiteral (asLiteral text) true =
        if text = "" then (none, p) else (some ⟨p.texts.size⟩, ⟨p.texts.push text⟩) := by
  refine ⟨?_, fun p => p.addLiteral_asLiteral text⟩
  have hwritten : TokenKind.string.Written (asLiteral text).toList := by
    rw [toList_asLiteral]
    exact .string (stringBody_escape text.toList)
  have hscan : scan file 1 ((asLiteral text).toList ++ []) =
      (scan file 1 []).map (cons ⟨.string, String.ofList (asLiteral text).toList, ⟨1, file⟩⟩) :=
    scan_written hwritten (by simp)
  rw [List.append_nil, scan_nil, String.ofList_toList] at hscan
  rw [ofSource, hscan]
  rfl

/-- A text that looks like an escape, and one that ends with a backslash. -/
example : asLiteral "\\x41" = "\"\\\\x41\"" ∧ asLiteral "a\"\n\\" = "\"a\\\"\\n\\\\\"" := by decide

end TokenStream

end ShaderLang
