/-
**Types of operations on two values.**

An operator on two values runs in the wider of their base types and gives a value of a shape that
depends on theirs: a scalar takes the shape of the other operand, equal shapes are combined
component by component, and a product of a matrix and a vector is the linear map applied to the
vector from either side.

Main definitions:

* `ShaderLang.DataType.PairMode`, `ShaderLang.DataType.holdsFor` — a property of one of two types or
  of both;
* `ShaderLang.DataType.matrixDims`, `ShaderLang.DataType.vectorDim` — the extents of the one matrix
  or vector among two types;
* `ShaderLang.DataType.promote` — the wider base type;
* `ShaderLang.DataType.componentwise`, `ShaderLang.DataType.multiply` — the type of the result;
* `ShaderLang.DataType.swizzle` — the type of a selection of components by their letters.
-/

import ShaderLang.Types.DataType

set_option relaxedAutoImplicit false
set_option autoImplicit false

namespace ShaderLang.DataType

/-- Whether one of two types must have a property or both. -/
inductive PairMode where
  | either
  | both
  deriving DecidableEq, Repr

/-- The property holds for one of the types or for both. -/
def holdsFor (mode : PairMode) (p : DataType → Bool) (a b : DataType) : Bool :=
  match mode with
  | .either => p a || p b
  | .both => p a && p b

/-- The one operand with the property; `none` unless exactly one has it. -/
def theOne (p : DataType → Bool) (a b : DataType) : Option DataType :=
  match p a, p b with
  | true, false => some a
  | false, true => some b
  | _, _ => none

/-- Rows and columns of the one matrix among two types. -/
def matrixDims (a b : DataType) : Option (Fin absentExtent × Fin absentExtent) :=
  (theOne isMatrix a b).bind fun m =>
    match m.dim0, m.dim1 with
    | some rows, some columns => some (rows, columns)
    | _, _ => none

/-- The size of the one vector among two types. -/
def vectorDim (a b : DataType) : Option (Fin absentExtent) :=
  (theOne isVector a b).bind dim0

/-- The place of a type's base in the order of promotion. -/
def rank (t : DataType) : Option Nat := t.baseType.bind BaseType.rank

/-- The number of the wider of two numeric base types. -/
def promote (a b : DataType) : Option UInt32 :=
  match a.rank, b.rank with
  | some m, some n => some (if n ≤ m then a.base else b.base)
  | _, _ => none

/-- The two types have the same extents. -/
def sameShape (a b : DataType) : Bool := a.dim0 == b.dim0 && a.dim1 == b.dim1

/-- The type of a component-by-component operation. -/
def componentwise (a b : DataType) : Option DataType :=
  (promote a b).bind fun base =>
    if a.isScalar then some (b.withBase base)
    else if b.isScalar || sameShape a b then some (a.withBase base)
    else none

/-- The type of a matrix times a vector from the right, or a vector times a matrix. -/
def linearMap (base : UInt32) (a b : DataType) : Option DataType :=
  match matrixDims a b, vectorDim a b with
  | some (rows, columns), some size =>
      if a.isMatrix && size == columns then some ⟨base, some rows, none⟩
      else if b.isMatrix && size == rows then some ⟨base, some columns, none⟩
      else none
  | _, _ => none

/-- The type of a product. -/
def multiply (a b : DataType) : Option DataType :=
  (promote a b).bind fun base =>
    if holdsFor .either isScalar a b then
      some ((if a.isScalar then b else a).withBase base)
    else if holdsFor .either isMatrix a b && holdsFor .either isVector a b then
      linearMap base a b
    else if sameShape a b then some (a.withBase base)
    else none

/-- The letters of a selection all come from one alphabet. -/
def areComponents (letters : List Char) : Bool :=
  letters.all (['x', 'y', 'z', 'w'].contains ·) || letters.all (['r', 'g', 'b', 'a'].contains ·)

/-- The type of a selection of one to four components of a scalar or vector. -/
def swizzle (t : DataType) (letters : List Char) : Option DataType :=
  if t.isMatrix || t.isStruct || !areComponents letters then none
  else
    match letters.length with
    | 0 => none
    | 1 => some t.element
    | 2 => some ⟨t.base, some 2, none⟩
    | 3 => some ⟨t.base, some 3, none⟩
    | 4 => some ⟨t.base, some 4, none⟩
    | _ => none

example : multiply ⟨5, some 4, some 3⟩ ⟨2, some 3, none⟩ = some ⟨5, some 4, none⟩ := by decide

example : swizzle ⟨5, some 4, none⟩ ['x', 'y', 'z'] = some ⟨5, some 3, none⟩ := by decide

end ShaderLang.DataType
