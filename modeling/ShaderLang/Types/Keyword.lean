/-
**Type keywords.**

A base type is written by its name; a numeric base type may carry a vector's size or a matrix's rows
and columns behind its name, each of them 2, 3 or 4.

Main definitions:

* `ShaderLang.DataType.ofKeyword` — the type that a keyword names.
-/

import ShaderLang.Text.Front
import ShaderLang.Types.DataType

set_option relaxedAutoImplicit false
set_option autoImplicit false

namespace ShaderLang.DataType

/-- The base types that may carry extents. -/
def numericBases : List BaseType := BaseType.all.filter BaseType.isNumeric

/-- The base types that stand alone. -/
def plainBases : List BaseType := BaseType.all.filter fun b => !b.isNumeric

/-- The extent that a digit of a keyword names. -/
def keywordExtent : Char → Extent
  | '2' => some 2
  | '3' => some 3
  | '4' => some 4
  | _ => none

/-- The type with the given base that the text behind its name describes. -/
def ofSuffix (b : BaseType) : List Char → Option DataType
  | [] => some (scalar b)
  | [size] => (keywordExtent size).map fun n => ⟨b.id, some n, none⟩
  | [rows, 'x', columns] =>
      match keywordExtent rows, keywordExtent columns with
      | some r, some c => some ⟨b.id, some r, some c⟩
      | _, _ => none
  | _ => none

/-- A numeric base type whose name stands in front, and what follows it. -/
def splitNumeric (cs : List Char) : Option (BaseType × List Char) :=
  numericBases.findSome? fun b => (Text.stripFront b.name.toList cs).map fun rest => (b, rest)

/-- The type that a keyword names. -/
def ofKeyword (name : String) : Option DataType :=
  match plainBases.find? fun b => b.name == name with
  | some b => some (scalar b)
  | none =>
      match splitNumeric name.toList with
      | some (b, rest) => ofSuffix b rest
      | none => none

example : ofKeyword "float4x3" = some ⟨5, some 4, some 3⟩ := by decide +kernel

example : ofKeyword "float5" = none ∧ ofKeyword "sampler2" = none := by decide +kernel

end ShaderLang.DataType
