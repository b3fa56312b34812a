/-
**Lines of a source text.**

A line feed ends a line; text behind the last line feed is a line of its own, no text behind it is
none.  Lines count from one.  The text of a line is shown without the carriage returns at its end.

Main definitions:

* `ShaderLang.Text.lines` — the lines of a text, without their line feeds;
* `ShaderLang.Text.lineText` — the text of one line.
-/

import ShaderLang.Text.Blank

set_option relaxedAutoImplicit false
set_option autoImplicit false

namespace ShaderLang.Text

/-- The lines of a text, each without the line feed that ends it. -/
def lines : List Char → List (List Char)
  | [] => []
  | c :: cs =>
      if c = '\n' then [] :: lines cs
      else
        match lines cs with
        | [] => [[c]]
        | line :: rest => (c :: line) :: rest

@[simp] theorem lines_nil : lines [] = [] := rfl

@[simp] theorem lines_newline (cs : List Char) : lines ('\n' :: cs) = [] :: lines cs := by
  simp [lines]

/-- The number of line feeds in a text. -/
def newlines (cs : List Char) : Nat := cs.count '\n'

@[simp] theorem newlines_nil : newlines [] = 0 := rfl

@[simp] theorem newlines_append (xs ys : List Char) :
    newlines (xs ++ ys) = newlines xs + newlines ys := by
  simp [newlines]

/-- The text of a line, counted from one, without carriage returns at its end; `none` when the
source has no such line. -/
def lineText (source : String) (line : Nat) : Option String :=
  if line = 0 then none
  else (lines source.toList)[line - 1]?.map fun l => String.ofList (trimEnd (· == '\r') l)

example : lines ['a', '\n', '\n', 'b'] = [['a'], [], ['b']] := by decide

example : lines ['a', '\n'] = [['a']] := by decide

end ShaderLang.Text
