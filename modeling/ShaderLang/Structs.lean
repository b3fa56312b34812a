/-
**The catalogue of structs.**

A struct gets its number when its declaration opens and its members when the declaration closes.  A
name may be declared more than once; it then stands for the newest struct of that name.

One array of structs is all that is kept: the number of a struct is its place, and a name is looked for
from the end.  A counter of numbers, a map from names to numbers and a table of structs that are kept
beside each other give the same answers (`ShaderLang.Registry.answers_changed`).

Main definitions:

* `ShaderLang.StructMember`, `ShaderLang.StructEntry`, `ShaderLang.Structs` — the catalogue;
* `ShaderLang.Structs.register`, `ShaderLang.Structs.finalize` — a struct opens and closes;
* `ShaderLang.Structs.lookup` — the struct that a name stands for;
* `ShaderLang.Structs.entry?`, `ShaderLang.Structs.nameOf`, `ShaderLang.Structs.member?` — what is
  known of a struct;
* `ShaderLang.Structs.typeText` — how a type is written.
-/

import ShaderLang.LastIndex
import ShaderLang.Types.DataType

set_option relaxedAutoImplicit false
set_option autoImplicit false

namespace ShaderLang

/-- A member of a struct: one value of a type, or an array of them. -/
structure StructMember where
  name : String
  type : DataType
  count : Option UInt32
  deriving DecidableEq, Repr

/-- A struct. -/
structure StructEntry where
  name : String
  members : List StructMember
  deriving DecidableEq, Repr

/-- All structs in the order of their numbers. -/
structure Structs where
  entries : Array StructEntry
  deriving DecidableEq

namespace Structs

/-- No structs. -/
def empty : Structs := ⟨#[]⟩

/-- The number of structs. -/
def size (s : Structs) : Nat := s.entries.size

/-- The struct number of a place in the catalogue. -/
def idOf (place : Nat) : UInt32 := UInt32.ofNat (firstStructId.toNat + place)

/-- The place in the catalogue of a struct number. -/
def placeOf (id : UInt32) : Option Nat :=
  if firstStructId ≤ id then some (id.toNat - firstStructId.toNat) else none

/-- A new struct without members, and its number. -/
def register (s : Structs) (name : String) : UInt32 × Structs :=
  (idOf s.size, ⟨s.entries.push ⟨name, []⟩⟩)

/-- The place of the newest struct of a name. -/
def placeNamed (s : Structs) (name : String) : Option Nat :=
  lastIndex (fun e => e.name == name) s.entries.toList

/-- The number of the newest struct of a name. -/
def lookup (s : Structs) (name : String) : Option UInt32 := (s.placeNamed name).map idOf

/-- Sets the members of the newest struct of a name; gives its number, or none if there is no such
struct. -/
def finalize (s : Structs) (name : String) (members : List StructMember) :
    Option UInt32 × Structs :=
  match s.placeNamed name with
  | none => (none, s)
  | some place => (some (idOf place), ⟨s.entries.modify place fun e => { e with members }⟩)

/-- The struct with a number. -/
def entry? (s : Structs) (id : UInt32) : Option StructEntry :=
  (placeOf id).bind fun place => s.entries[place]?

/-- The name of a struct. -/
def nameOf (s : Structs) (id : UInt32) : Option String := (s.entry? id).map StructEntry.name

/-- The first member of a struct with a name. -/
def member? (s : Structs) (id : UInt32) (name : String) : Option StructMember :=
  (s.entry? id).bind fun e => e.members.find? fun m => m.name == name

/-- All structs with their numbers. -/
def toList (s : Structs) : List (UInt32 × StructEntry) :=
  s.entries.toList.zipIdx.map fun (entry, place) => (idOf place, entry)

/-- How a type is written: a struct by its name, everything else by its parts. -/
def typeText (s : Structs) (t : DataType) : String :=
  if t.isStruct then (s.nameOf t.base).getD (DataType.numberText "struct" t.base) else t.text

end Structs

end ShaderLang
