/-
**Positions.**

Main definitions:

* `ShaderLang.Position` — a line of a source file.
-/

set_option relaxedAutoImplicit false
set_option autoImplicit false

namespace ShaderLang

/-- A line, counted from one, and the number of the file that it is in. -/
structure Position where
  line : Nat
  file : UInt16
  deriving DecidableEq, Repr

/-- The first line of the first file. -/
def Position.start : Position := ⟨1, 0⟩

end ShaderLang
