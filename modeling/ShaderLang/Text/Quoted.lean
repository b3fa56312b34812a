/-
**Quoted text.**

In messages a text stands between double quotes.  A backslash and a double quote get a backslash in
front; the null character, tab, line feed and carriage return are written as escapes; any other
character that cannot be shown as it is is written by its number in lower-case hexadecimal.

Main definitions:

* `ShaderLang.Text.quotedChar` — one character between quotes;
* `ShaderLang.Text.quoted` — a text between quotes.
-/

import ShaderLang.Text.Printable

set_option relaxedAutoImplicit false
set_option autoImplicit false

namespace ShaderLang.Text

/-- How a character is written between quotes. -/
def quotedChar (c : Char) : String :=
  match c with
  | '\x00' => "\\0"
  | '\t' => "\\t"
  | '\r' => "\\r"
  | '\n' => "\\n"
  | '"' => "\\\""
  | '\\' => "\\\\"
  | c =>
      if isShown c then c.toString
      else "\\u\x7b" ++ String.ofList (Nat.toDigits 16 c.toNat) ++ "\x7d"

/-- The text between double quotes. -/
def quoted (text : String) : String :=
  "\"" ++ String.join (text.toList.map quotedChar) ++ "\""

example : quoted "a\"\n" = "\"a\\\"\\n\"" := by decide +kernel

end ShaderLang.Text
