/-
**Sizes and offsets.**

Members lie behind one another in the order of their declaration.  A vector or matrix starts on a
boundary of sixteen bytes, and so does every element of an array of them; a struct is filled up to
such a boundary at its end.  A type has no size when a base without size occurs in it, when a number
does not fit thirty-two bits, and when structs are nested more than sixty-four deep, which a struct
that contains itself always is.

Main definitions:

* `ShaderLang.Structs.place` — where a member lies behind those before it;
* `ShaderLang.Structs.sizeOf`, `ShaderLang.Structs.layout` — the size of a type and the offsets of a
  struct's members.
-/

import ShaderLang.Structs

set_option relaxedAutoImplicit false
set_option autoImplicit false

namespace ShaderLang

namespace DataType

/-- Vectors and matrices start on a boundary. -/
def isPacked (t : DataType) : Bool := t.isVector || t.isMatrix

end DataType

namespace Structs

/-- The boundary of vectors, matrices and ends of structs. -/
def boundary : Nat := 16

/-- How deep structs may be nested. -/
def deepest : Nat := 64

/-- The number, if it fits thirty-two bits. -/
def fits (n : Nat) : Option Nat := if n < UInt32.size then some n else none

theorem fits_eq_some_iff {n m : Nat} : fits n = some m ↔ n = m ∧ n < UInt32.size := by
  unfold fits
  grind

/-- The next whole multiple of the boundary. -/
def roundUp (n : Nat) : Nat := (n + (boundary - 1)) / boundary * boundary

theorem le_roundUp (n : Nat) : n ≤ roundUp n := by
  unfold roundUp boundary
  omega

theorem roundUp_lt (n : Nat) : roundUp n < n + boundary := by
  unfold roundUp boundary
  omega

theorem roundUp_mod (n : Nat) : roundUp n % boundary = 0 := by
  unfold roundUp boundary
  omega

/-- It is the least one: no multiple of the boundary from `n` on lies before it. -/
theorem roundUp_le {n m : Nat} (h : n ≤ m) (whole : m % boundary = 0) : roundUp n ≤ m := by
  unfold roundUp boundary at *
  omega

/-- The next boundary, if it fits. -/
def align (n : Nat) : Option Nat := fits (roundUp n)

/-- Where a member starts and how many bytes it takes. -/
structure Placement where
  offset : Nat
  footprint : Nat
  deriving DecidableEq, Repr

/-- Where a placement ends. -/
def Placement.stop (p : Placement) : Nat := p.offset + p.footprint

/-- The bytes of a member of which one value takes `size` bytes. -/
def footprint (m : StructMember) (size : Nat) : Option Nat :=
  match m.count with
  | none => some size
  | some count =>
      (if m.type.isPacked then align size else some size).bind fun stride =>
        fits (stride * count.toNat)

/-- The place of a member of which one value takes `size` bytes, from `start` on. -/
def place (m : StructMember) (size start : Nat) : Option Placement :=
  (if m.type.isPacked then align start else some start).bind fun offset =>
    (footprint m size).map fun bytes => ⟨offset, bytes⟩

/-- The places of members from `start` on, one behind the other, and where the last one ends. -/
def placeAll (size : DataType → Option Nat) (start : Nat) :
    List StructMember → Option (List Placement × Nat)
  | [] => some ([], start)
  | m :: ms => do
      let bytes ← size m.type
      let p ← place m bytes start
      let stop ← fits p.stop
      let (ps, last) ← placeAll size stop ms
      some (p :: ps, last)

/-- The size of a type that is not a struct. -/
def plainSize (t : DataType) : Option Nat := do
  let base ← t.baseType
  let bytes ← base.size
  let row ← fits (bytes * t.dim0.count)
  fits (row * t.dim1.count)

/-- The size of a type in which structs are nested less than `depth` deep. -/
def sizeWithin (s : Structs) : Nat → DataType → Option Nat
  | 0, _ => none
  | depth + 1, t =>
      if t.isStruct then do
        let entry ← s.entry? t.base
        let (_, stop) ← placeAll (s.sizeWithin depth) 0 entry.members
        align stop
      else plainSize t

/-- The size of a type in bytes. -/
def sizeOf (s : Structs) (t : DataType) : Option Nat := s.sizeWithin (deepest + 1) t

/-- The size of the struct that a name stands for. -/
def sizeOfNamed (s : Structs) (name : String) : Option Nat :=
  (s.lookup name).bind fun id => s.sizeOf (.struct id)

/-- The places of a struct's members. -/
def placements (s : Structs) (t : DataType) : Option (List Placement) := do
  let entry ← s.entry? t.base
  let (ps, _) ← placeAll s.sizeOf 0 entry.members
  some ps

/-- The offsets of a struct's members, with their names. -/
def layout (s : Structs) (t : DataType) : Option (List (String × Nat)) := do
  let entry ← s.entry? t.base
  let ps ← s.placements t
  some ((entry.members.map StructMember.name).zip (ps.map Placement.offset))

example : (⟨#[⟨"S", [⟨"a", .scalar .float, none⟩, ⟨"b", ⟨5, some 4, none⟩, none⟩]⟩]⟩ : Structs).sizeOf
    (.struct 256) = some 32 := by decide +kernel

end Structs

end ShaderLang
