/-
**Qualifiers.**

The qualifiers of a declaration are kept as bits of one byte.  `inout` is the bits of `in` and `out`
together.

Main definitions:

* `ShaderLang.Qualifiers` — a set of qualifiers;
* `ShaderLang.Qualifiers.ofKeyword` — the set that a keyword stands for;
* `ShaderLang.Qualifiers.text` — the keywords of a set.
-/

set_option relaxedAutoImplicit false
set_option autoImplicit false

namespace ShaderLang

/-- A set of qualifiers, as bits. -/
structure Qualifiers where
  bits : UInt8
  deriving DecidableEq, Repr

namespace Qualifiers

/-- No qualifier. -/
def none : Qualifiers := ⟨0⟩

/-- The keywords and their bits, in the order in which a set is written. -/
def table : List (String × Qualifiers) :=
  [("const", ⟨1⟩), ("inout", ⟨6⟩), ("in", ⟨2⟩), ("out", ⟨4⟩), ("uniform", ⟨8⟩), ("flat", ⟨16⟩)]

/-- The set that a keyword stands for. -/
def ofKeyword (keyword : String) : Option Qualifiers := table.lookup keyword

/-- The qualifiers of both sets. -/
def union (a b : Qualifiers) : Qualifiers := ⟨a.bits ||| b.bits⟩

/-- All qualifiers of the second set are in the first. -/
def contains (a b : Qualifiers) : Bool := a.bits &&& b.bits == b.bits

/-- The qualifiers of the first set that are not in the second. -/
def without (a b : Qualifiers) : Qualifiers := ⟨a.bits &&& ~~~b.bits⟩

/-- The set is empty. -/
def isEmpty (a : Qualifiers) : Bool := a.bits == 0

/-- The keywords from a table that a set holds; bits that a keyword stands for are not looked at
again. -/
def keywords (a : Qualifiers) : List (String × Qualifiers) → List String
  | [] => []
  | (keyword, q) :: rest =>
      if a.contains q then keyword :: (a.without q).keywords rest else a.keywords rest

/-- The keywords of a set, separated by spaces. -/
def text (a : Qualifiers) : String := " ".intercalate (a.keywords table)

example : text ⟨7⟩ = "const inout" ∧ text ⟨20⟩ = "out flat" := by decide +kernel

end Qualifiers

end ShaderLang
