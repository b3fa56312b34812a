/-
**Base types.**

The language has eighteen built-in base types.  Six of them are numeric and have a size in bytes;
the others are `void`, strings, samplers and textures.  Each has a number, its place in the list.

Main definitions:

* `ShaderLang.BaseType`, `ShaderLang.BaseType.all` — the base types, in the order of their numbers;
* `ShaderLang.BaseType.id`, `ShaderLang.BaseType.ofId` — the numbering;
* `ShaderLang.BaseType.name` — the keyword;
* `ShaderLang.BaseType.size` — the size of one component.

Main results:

* `ShaderLang.BaseType.ofId_id`, `ShaderLang.BaseType.ofId_eq_some_iff` — the numbering is
  one-to-one.
-/

set_option relaxedAutoImplicit false
set_option autoImplicit false

namespace ShaderLang

/-- The built-in base types. -/
inductive BaseType where
  | void
  | bool
  | int
  | uint
  | half
  | float
  | double
  | string
  | sampler
  | sampler1D
  | sampler2D
  | sampler3D
  | samplerCube
  | texture
  | texture1D
  | texture2D
  | texture3D
  | textureCube
  deriving DecidableEq, Repr

namespace BaseType

/-- The base types in the order of their numbers. -/
def all : List BaseType :=
  [void, bool, int, uint, half, float, double, string, sampler, sampler1D, sampler2D, sampler3D,
    samplerCube, texture, texture1D, texture2D, texture3D, textureCube]

/-- The number of a base type. -/
def id (b : BaseType) : UInt32 := UInt32.ofNat b.ctorIdx

/-- The base type with the given number. -/
def ofId (id : UInt32) : Option BaseType := all[id.toNat]?

theorem ofId_id (b : BaseType) : ofId b.id = some b := by
  cases b <;> rfl

theorem mem_all (b : BaseType) : b ∈ all := by
  cases b <;> decide

/-- Numbers from 18 on belong to no base type. -/
theorem ofId_eq_none {id : UInt32} (h : 18 ≤ id.toNat) : ofId id = none := by
  unfold ofId
  exact List.getElem?_eq_none h

theorem id_of_ofId {id : UInt32} {b : BaseType} (h : ofId id = some b) : b.id = id := by
  have hlt : id.toNat < 18 := by
    by_cases hlt : id.toNat < 18
    · exact hlt
    · rw [ofId_eq_none (by omega)] at h
      exact absurd h (by simp)
  have hid : id = UInt32.ofNat id.toNat := by simp
  rw [hid] at h ⊢
  generalize id.toNat = n at h hlt
  revert b
  revert n
  decide

/-- The numbering is one-to-one. -/
theorem ofId_eq_some_iff {id : UInt32} {b : BaseType} : ofId id = some b ↔ b.id = id :=
  ⟨id_of_ofId, fun h => h ▸ ofId_id b⟩

/-- The keyword of a base type. -/
def name : BaseType → String
  | void => "void"
  | bool => "bool"
  | int => "int"
  | uint => "uint"
  | half => "half"
  | float => "float"
  | double => "double"
  | string => "string"
  | sampler => "sampler"
  | sampler1D => "sampler1D"
  | sampler2D => "sampler2D"
  | sampler3D => "sampler3D"
  | samplerCube => "samplerCUBE"
  | texture => "texture"
  | texture1D => "texture1D"
  | texture2D => "texture2D"
  | texture3D => "texture3D"
  | textureCube => "textureCUBE"

/-- The size in bytes of one component; only numeric types have one. -/
def size : BaseType → Option Nat
  | bool | int | uint | float => some 4
  | half => some 2
  | double => some 8
  | _ => none

/-- The base type is numeric. -/
def isNumeric (b : BaseType) : Bool := b.size.isSome

/-- Signed and unsigned integers. -/
def isInteger : BaseType → Bool
  | int | uint => true
  | _ => false

/-- The three precisions of floating-point numbers. -/
def isFloating : BaseType → Bool
  | half | float | double => true
  | _ => false

/-- Samplers of every dimension. -/
def isSampler : BaseType → Bool
  | sampler | sampler1D | sampler2D | sampler3D | samplerCube => true
  | _ => false

/-- Textures of every dimension. -/
def isTexture : BaseType → Bool
  | texture | texture1D | texture2D | texture3D | textureCube => true
  | _ => false

/-- The place of a numeric type in the order of promotion, narrowest first. -/
def rank : BaseType → Option Nat
  | bool => some 0
  | int => some 1
  | uint => some 2
  | half => some 3
  | float => some 4
  | double => some 5
  | _ => none

theorem isSome_rank (b : BaseType) : b.rank.isSome = b.isNumeric := by
  cases b <;> rfl

end BaseType

end ShaderLang
