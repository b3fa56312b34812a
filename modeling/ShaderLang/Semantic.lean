/-
**Semantics.**

A semantic ties a declaration to a meaning outside the program: a name from a fixed table, in any
case of letters, and a number.  In the text the number stands behind the name and begins at the
first digit; a number that is missing, has other characters than digits or does not fit thirty-two
bits counts as zero.

Main definitions:

* `ShaderLang.SemanticKind`, `ShaderLang.SemanticKind.all` — the table;
* `ShaderLang.Semantic` — a kind and a number;
* `ShaderLang.Semantic.ofText`, `ShaderLang.Semantic.text` — reading and writing;
* `ShaderLang.Semantic.packed` — both in one word.
-/

import ShaderLang.Text.Digit

set_option relaxedAutoImplicit false
set_option autoImplicit false

namespace ShaderLang

/-- The meanings that a declaration can be tied to. -/
inductive SemanticKind where
  | position
  | positionT
  | normal
  | binormal
  | tangent
  | color
  | texCoord
  | blendWeight
  | blendIndices
  | pSize
  | fog
  | depth
  | vFace
  | vPos
  | tessFactor
  | world
  | view
  | projection
  | worldView
  | viewProjection
  | worldViewProj
  | worldInverse
  | viewInverse
  | projectionInverse
  | worldInverseTranspose
  | worldViewInverse
  | cameraPosition
  | time
  | elapsedTime
  | lightPosition
  | lightDirection
  | lightColor
  | lightAmbient
  | lightDiffuse
  | lightSpecular
  | lightAttenuation
  | lightRange
  | fogColor
  | fogStart
  | fogEnd
  | fogDensity
  | shadowMap
  | shadowMatrix
  | shadowBias
  | diffuseMap
  | normalMap
  | specularMap
  | environmentMap
  deriving DecidableEq, Repr

namespace SemanticKind

/-- The table, in the order of its numbers. -/
def all : List SemanticKind :=
  [.position, .positionT, .normal, .binormal, .tangent, .color, .texCoord, .blendWeight,
    .blendIndices, .pSize, .fog, .depth, .vFace, .vPos, .tessFactor, .world, .view, .projection,
    .worldView, .viewProjection, .worldViewProj, .worldInverse, .viewInverse, .projectionInverse,
    .worldInverseTranspose, .worldViewInverse, .cameraPosition, .time, .elapsedTime,
    .lightPosition, .lightDirection, .lightColor, .lightAmbient, .lightDiffuse, .lightSpecular,
    .lightAttenuation, .lightRange, .fogColor, .fogStart, .fogEnd, .fogDensity, .shadowMap,
    .shadowMatrix, .shadowBias, .diffuseMap, .normalMap, .specularMap, .environmentMap]

/-- The name in the table. -/
def name : SemanticKind → String
  | .position => "POSITION"
  | .positionT => "POSITIONT"
  | .normal => "NORMAL"
  | .binormal => "BINORMAL"
  | .tangent => "TANGENT"
  | .color => "COLOR"
  | .texCoord => "TEXCOORD"
  | .blendWeight => "BLENDWEIGHT"
  | .blendIndices => "BLENDINDICES"
  | .pSize => "PSIZE"
  | .fog => "FOG"
  | .depth => "DEPTH"
  | .vFace => "VFACE"
  | .vPos => "VPOS"
  | .tessFactor => "TESSFACTOR"
  | .world => "WORLD"
  | .view => "VIEW"
  | .projection => "PROJECTION"
  | .worldView => "WORLDVIEW"
  | .viewProjection => "VIEWPROJECTION"
  | .worldViewProj => "WORLDVIEWPROJ"
  | .worldInverse => "WORLDINVERSE"
  | .viewInverse => "VIEWINVERSE"
  | .projectionInverse => "PROJECTIONINVERSE"
  | .worldInverseTranspose => "WORLDINVERSETRANSPOSE"
  | .worldViewInverse => "WORLDVIEWINVERSE"
  | .cameraPosition => "CAMERAPOSITION"
  | .time => "TIME"
  | .elapsedTime => "ELAPSEDTIME"
  | .lightPosition => "LIGHTPOSITION"
  | .lightDirection => "LIGHTDIRECTION"
  | .lightColor => "LIGHTCOLOR"
  | .lightAmbient => "LIGHTAMBIENT"
  | .lightDiffuse => "LIGHTDIFFUSE"
  | .lightSpecular => "LIGHTSPECULAR"
  | .lightAttenuation => "LIGHTATTENUATION"
  | .lightRange => "LIGHTRANGE"
  | .fogColor => "FOGCOLOR"
  | .fogStart => "FOGSTART"
  | .fogEnd => "FOGEND"
  | .fogDensity => "FOGDENSITY"
  | .shadowMap => "SHADOWMAP"
  | .shadowMatrix => "SHADOWMATRIX"
  | .shadowBias => "SHADOWBIAS"
  | .diffuseMap => "DIFFUSEMAP"
  | .normalMap => "NORMALMAP"
  | .specularMap => "SPECULARMAP"
  | .environmentMap => "ENVIRONMENTMAP"

/-- The place in the table. -/
def number (k : SemanticKind) : Nat := k.ctorIdx

/-- The kind with a name, which must be in upper case. -/
def ofName (name : String) : Option SemanticKind := all.find? fun k => k.name == name

theorem mem_all (k : SemanticKind) : k ∈ all := by
  cases k <;> decide

theorem getElem_number (k : SemanticKind) : all[k.number]? = some k := by
  cases k <;> rfl

theorem name_of_ofName {name : String} {k : SemanticKind} (h : ofName name = some k) :
    k.name = name := by
  simpa using List.find?_some h

theorem ofName_name (k : SemanticKind) : ofName k.name = some k := by
  have h : ∀ k ∈ all, ofName k.name = some k := by decide +kernel
  exact h k (mem_all k)

end SemanticKind

/-- A meaning and its number. -/
structure Semantic where
  kind : SemanticKind
  index : UInt32
  deriving DecidableEq, Repr

namespace Semantic

open Text

/-- The number behind the name: zero unless it is digits only and fits. -/
def readIndex (cs : List Char) : UInt32 :=
  match positional 10 cs with
  | some n => if n < UInt32.size then UInt32.ofNat n else 0
  | none => 0

/-- Reads a name and a number. -/
def ofText (text : String) : Option Semantic :=
  let cs := text.toList
  let name := cs.takeWhile fun c => !isDecimal c
  let suffix := cs.dropWhile fun c => !isDecimal c
  (SemanticKind.ofName (String.ofList (name.map Char.toUpper))).map fun kind =>
    ⟨kind, readIndex suffix⟩

/-- Writes name and number. -/
def text (s : Semantic) : String := s.kind.name ++ toString s.index.toNat

/-- The kind's place in the low half of a word and the number in the high half. -/
def packed (s : Semantic) : UInt64 := UInt64.ofNat (s.index.toNat * UInt32.size + s.kind.number)

example : (ofText "texCoord3").map text = some "TEXCOORD3" := by decide +kernel

example : (ofText "COLOR7x").map packed = some 5 := by decide +kernel

end Semantic

end ShaderLang
