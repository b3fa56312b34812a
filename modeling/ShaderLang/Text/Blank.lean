/-
**Blank characters.**

A character is blank when it has the property White_Space: the five controls from tab to carriage
return, the space, and nineteen further spaces and separators, twenty-five characters in all.
Blank text separates tokens and is cut from both ends of a quoted source line.

Main definitions:

* `ShaderLang.Text.isBlank` — the property;
* `ShaderLang.Text.trimEnd`, `ShaderLang.Text.endRun` — text without its last characters of a class,
  and those characters;
* `ShaderLang.Text.trim` — text without blanks at either end.
-/

set_option relaxedAutoImplicit false
set_option autoImplicit false

namespace ShaderLang.Text

/-- The ranges of the property White_Space, both ends included. -/
def blankRanges : List (Nat × Nat) :=
  [(0x09, 0x0d), (0x20, 0x20), (0x85, 0x85), (0xa0, 0xa0), (0x1680, 0x1680), (0x2000, 0x200a),
    (0x2028, 0x2029), (0x202f, 0x202f), (0x205f, 0x205f), (0x3000, 0x3000)]

/-- A number lies in one of the ranges. -/
def inRanges (ranges : List (Nat × Nat)) (n : Nat) : Bool :=
  ranges.any fun r => r.1 ≤ n && n ≤ r.2

/-- The character has the property White_Space. -/
def isBlank (c : Char) : Bool := inRanges blankRanges c.toNat

example : (blankRanges.map fun r => r.2 + 1 - r.1).sum = 25 := by decide

example : isBlank '\n' = true ∧ isBlank '_' = false ∧ isBlank '\u3000' = true := by decide

/-- Text without its longest end whose characters all satisfy `p`. -/
def trimEnd (p : Char → Bool) (cs : List Char) : List Char := (cs.reverse.dropWhile p).reverse

/-- The longest end whose characters all satisfy `p`. -/
def endRun (p : Char → Bool) (cs : List Char) : List Char := (cs.reverse.takeWhile p).reverse

/-- Nothing but the end is cut off. -/
@[simp] theorem trimEnd_append_endRun (p : Char → Bool) (cs : List Char) :
    trimEnd p cs ++ endRun p cs = cs := by
  rw [trimEnd, endRun, ← List.reverse_append, List.takeWhile_append_dropWhile, List.reverse_reverse]

/-- Text without the blanks at its ends. -/
def trim (s : String) : String :=
  String.ofList (trimEnd isBlank (s.toList.dropWhile isBlank))

end ShaderLang.Text
