/-
**Backslash escapes.**

Inside a string literal a backslash and a letter stand for a control character, a backslash and a
quote, question mark or backslash for that character, and `\x` with one or two hexadecimal digits
for the character with that number.  Any other backslash stands for itself.

Main definitions:

* `ShaderLang.Text.unescape` — the text that a literal's characters stand for;
* `ShaderLang.Text.escape` — a spelling of a text with its backslashes, double quotes and line
  feeds escaped.

Main results:

* `ShaderLang.Text.unescape_escape` — the spelling stands for the text.
-/

import ShaderLang.Text.Digit

set_option relaxedAutoImplicit false
set_option autoImplicit false

namespace ShaderLang.Text

/-- What a backslash in front of the character stands for, where that does not depend on what
follows. -/
def simpleEscape : Char → Option Char
  | 'n' => some '\n'
  | 't' => some '\t'
  | 'r' => some '\r'
  | 'a' => some '\x07'
  | 'b' => some '\x08'
  | 'f' => some '\x0c'
  | 'v' => some '\x0b'
  | '0' => some '\x00'
  | '\\' => some '\\'
  | '"' => some '"'
  | '\'' => some '\''
  | '?' => some '?'
  | _ => none

/-- The hexadecimal digits in front, two at most. -/
def hexRun (cs : List Char) : List Char := (cs.take 2).takeWhile isHexadecimal

/-- The text that the characters of a literal stand for. -/
def unescape : List Char → List Char
  | [] => []
  | '\\' :: c :: rest =>
      match simpleEscape c with
      | some d => d :: unescape rest
      | none =>
          if c = 'x' then
            match hexRun rest with
            | [] => '\\' :: 'x' :: unescape rest
            | digits =>
                Char.ofNat ((positional 16 digits).getD 0) :: unescape (rest.drop digits.length)
          else '\\' :: unescape (c :: rest)
  | c :: rest => c :: unescape rest
termination_by cs => cs.length
decreasing_by all_goals grind

@[simp] theorem unescape_nil : unescape [] = [] := by rw [unescape]

theorem unescape_simple {c d : Char} (h : simpleEscape c = some d) (rest : List Char) :
    unescape ('\\' :: c :: rest) = d :: unescape rest := by
  rw [unescape, h]

theorem unescape_plain {c : Char} (h : c ≠ '\\') (rest : List Char) :
    unescape (c :: rest) = c :: unescape rest := by
  rw [unescape]
  intro x y hx
  exact absurd hx h

/-! ### Writing escapes -/

/-- The spelling of one character. -/
def escapeChar : Char → List Char
  | '\\' => ['\\', '\\']
  | '"' => ['\\', '"']
  | '\n' => ['\\', 'n']
  | c => [c]

/-- A spelling of the text that holds no bare double quote and no line feed. -/
def escape (cs : List Char) : List Char := cs.flatMap escapeChar

@[simp] theorem escape_nil : escape [] = [] := rfl

@[simp] theorem escape_cons (c : Char) (cs : List Char) :
    escape (c :: cs) = escapeChar c ++ escape cs := rfl

theorem unescape_escapeChar_append (c : Char) (rest : List Char) :
    unescape (escapeChar c ++ rest) = c :: unescape rest := by
  unfold escapeChar
  split
  · exact unescape_simple rfl rest
  · exact unescape_simple rfl rest
  · exact unescape_simple rfl rest
  · next h _ _ => exact unescape_plain h rest

/-- The spelling of a text stands for the text. -/
theorem unescape_escape (cs : List Char) : unescape (escape cs) = cs := by
  induction cs with
  | nil => simp
  | cons c cs ih => rw [escape_cons, unescape_escapeChar_append, ih]

end ShaderLang.Text
