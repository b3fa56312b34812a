/-
**Data types.**

A data type is the number of a base type or of a struct together with up to two extents.  No extent
makes a scalar or a struct, the first alone a vector, both a matrix of that many rows and columns.
Every data type fits one word of sixty-four bits: the base in the low thirty-two, then the first and
the second extent in sixteen bits each, where the greatest sixteen-bit number stands for an absent
extent.

Main definitions:

* `ShaderLang.Extent`, `ShaderLang.DataType` — extents and data types;
* `ShaderLang.DataType.word`, `ShaderLang.DataType.ofWord` — the word of a data type;
* `ShaderLang.DataType.isScalar`, `isVector`, `isMatrix`, `isStruct`, … — kinds of data types;
* `ShaderLang.DataType.element`, `ShaderLang.DataType.indexed` — the type of a component and of what
  indexing selects;
* `ShaderLang.DataType.text` — how a type without a name of its own is written.
-/

import ShaderLang.Types.Base

set_option relaxedAutoImplicit false
set_option autoImplicit false

namespace ShaderLang

/-- The sixteen-bit number that stands for an absent extent. -/
def absentExtent : Nat := 0xffff

instance : @NeZero Nat Zero.ofOfNat0 absentExtent := ⟨Nat.succ_ne_zero _⟩

/-- How many components lie along one dimension, if the type has that dimension. -/
abbrev Extent : Type := Option (Fin absentExtent)

namespace Extent

/-- The sixteen-bit number of an extent. -/
def toNat : Extent → Nat
  | none => absentExtent
  | some n => n.val

/-- The extent with a sixteen-bit number. -/
def ofNat (n : Nat) : Extent := if h : n < absentExtent then some ⟨n, h⟩ else none

theorem toNat_le (e : Extent) : e.toNat ≤ absentExtent := by
  cases e with
  | none => exact Nat.le_refl _
  | some n => exact Nat.le_of_lt n.isLt

@[simp] theorem ofNat_toNat (e : Extent) : ofNat e.toNat = e := by
  cases e with
  | none => rfl
  | some n => simp [toNat, ofNat]

/-- The number of components along the dimension, one where it is absent. -/
def count : Extent → Nat
  | none => 1
  | some n => n.val

end Extent

/-- Numbers from here on belong to structs. -/
def firstStructId : UInt32 := 0x100

/-- The number of a base type or struct and the extents. -/
structure DataType where
  base : UInt32
  dim0 : Extent
  dim1 : Extent
  deriving DecidableEq, Repr

namespace DataType

/-- A base type without extents. -/
def scalar (b : BaseType) : DataType := ⟨b.id, none, none⟩

/-- The type `void`, which also stands in for a type that could not be made out. -/
def void : DataType := scalar .void

/-- A struct. -/
def struct (id : UInt32) : DataType := ⟨id, none, none⟩

/-! ### The word -/

/-- The word as a whole number. -/
def wordNat (t : DataType) : Nat :=
  (t.dim1.toNat * UInt16.size + t.dim0.toNat) * UInt32.size + t.base.toNat

/-- The word of a data type. -/
def word (t : DataType) : UInt64 := UInt64.ofNat t.wordNat

/-- The data type of a word. -/
def ofWord (w : UInt64) : DataType :=
  { base := UInt32.ofNat (w.toNat % UInt32.size)
    dim0 := Extent.ofNat (w.toNat / UInt32.size % UInt16.size)
    dim1 := Extent.ofNat (w.toNat / UInt32.size / UInt16.size) }

theorem wordNat_lt (t : DataType) : t.wordNat < UInt64.size := by
  have h0 := t.dim0.toNat_le
  have h1 := t.dim1.toNat_le
  have hb := t.base.toNat_lt
  unfold wordNat UInt16.size UInt32.size UInt64.size
  unfold absentExtent at h0 h1
  omega

@[simp] theorem toNat_word (t : DataType) : t.word.toNat = t.wordNat := by
  simp only [word, UInt64.toNat_ofNat']
  exact Nat.mod_eq_of_lt t.wordNat_lt

example : word ⟨5, some 4, none⟩ = 0xffff000400000005 := by decide

example : ofWord 0xffff000400000005 = ⟨5, some 4, none⟩ := by decide

/-! ### Kinds of data types -/

/-- The built-in base type, if the number is one. -/
def baseType (t : DataType) : Option BaseType := BaseType.ofId t.base

/-- The extent along dimension zero or one. -/
def extent (t : DataType) : Nat → Option Nat
  | 0 => t.dim0.map Fin.val
  | 1 => t.dim1.map Fin.val
  | _ => none

/-- Both extents are there. -/
def isMatrix (t : DataType) : Bool := t.dim0.isSome && t.dim1.isSome

/-- Only the first extent is there. -/
def isVector (t : DataType) : Bool := t.dim0.isSome && t.dim1.isNone

/-- The number belongs to a struct. -/
def isStruct (t : DataType) : Bool := firstStructId ≤ t.base

/-- A base type without extents. -/
def isScalar (t : DataType) : Bool := !t.isStruct && t.dim0.isNone && t.dim1.isNone

/-- The components are integers. -/
def isInteger (t : DataType) : Bool := t.baseType.any BaseType.isInteger

/-- The components are floating-point numbers. -/
def isFloating (t : DataType) : Bool := t.baseType.any BaseType.isFloating

/-- The components are numbers or truth values. -/
def isNumeric (t : DataType) : Bool := t.baseType.any BaseType.isNumeric

/-- The base is a sampler. -/
def isSampler (t : DataType) : Bool := t.baseType.any BaseType.isSampler

/-- The base is a texture. -/
def isTexture (t : DataType) : Bool := t.baseType.any BaseType.isTexture

/-! ### Components -/

/-- The same extents over another base. -/
def withBase (t : DataType) (base : UInt32) : DataType := { t with base }

/-- The type of one component. -/
def element (t : DataType) : DataType := ⟨t.base, none, none⟩

/-- The type that indexing once selects: a row of a matrix, a component of anything else. -/
def indexed (t : DataType) : DataType :=
  if t.isMatrix then ⟨t.base, t.dim1, none⟩ else t.element

/-! ### Text -/

/-- How the extents are written behind the name of the base.  A second extent without a first is
not written. -/
def extentText (t : DataType) : String :=
  match t.extent 0, t.extent 1 with
  | some rows, some columns => toString rows ++ "x" ++ toString columns
  | some size, none => toString size
  | none, _ => ""

/-- The number of a type without a name. -/
def numberText (label : String) (id : UInt32) : String := label ++ "#" ++ toString id.toNat

/-- How a type is written when no struct has a name. -/
def text (t : DataType) : String :=
  match t.baseType with
  | some b => b.name ++ t.extentText
  | none => numberText (if t.isStruct then "struct" else "type") t.base

example : text ⟨5, some 4, some 3⟩ = "float4x3" ∧ text ⟨300, none, none⟩ = "struct#300" := by
  decide +kernel

end DataType

end ShaderLang
