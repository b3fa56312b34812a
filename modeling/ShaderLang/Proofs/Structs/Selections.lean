/-
**Where vectors and matrices lie in nested structs.**

A vector or matrix lies on a boundary of the struct that it is a member of.  A struct is no vector or
matrix: as a member it lies at once behind the member before it, and everything inside is moved with it
(`ShaderLang.Structs.not_on_boundary`).  Nothing else moves a vector or matrix off the boundary.  The
elements of an array of structs, and those of an array of vectors or matrices, are whole boundaries
apart, so it does not matter which of them are selected on the way.

Main definitions:

* `ShaderLang.Structs.Selection`, `ShaderLang.Structs.Leads` — selections of a member and one of its
  elements, and where selections one after the other lead;
* `ShaderLang.Structs.locateAll`, `ShaderLang.Structs.displacement` — the places of what is selected,
  and how far the last one lies from where the outermost struct begins.

Main results:

* `ShaderLang.Structs.exists_location` — in a struct with a size every member has a place;
* `ShaderLang.Structs.on_boundary_iff` — **a vector or matrix lies on the boundary exactly if the
  offsets of the structs around it add up to one**.
-/

import ShaderLang.Proofs.Structs.Size

set_option relaxedAutoImplicit false
set_option autoImplicit false

namespace ShaderLang

/-- How many elements a member has; one that is no array is its only element. -/
def StructMember.elements (m : StructMember) : Nat :=
  match m.count with
  | none => 1
  | some count => count.toNat

namespace Structs

/-! ### Selections -/

/-- The place of a member in its struct, and the place of an element in the member. -/
structure Selection where
  member : Nat
  element : Nat
  deriving DecidableEq, Repr

/-- A member of the struct that the type is. -/
def memberAt (s : Structs) (t : DataType) (place : Nat) : Option StructMember :=
  (s.entry? t.base).bind fun entry => entry.members[place]?

/-- The selection is one of a member of the struct, and the element is there. -/
def Selects (s : Structs) (t : DataType) (c : Selection) (m : StructMember) : Prop :=
  s.memberAt t c.member = some m ∧ c.element < m.elements

instance (s : Structs) (t : DataType) (c : Selection) (m : StructMember) :
    Decidable (s.Selects t c m) := inferInstanceAs (Decidable (_ ∧ _))

/-- Selections one after the other, each in the struct that was selected last, lead to the member. -/
inductive Leads (s : Structs) : DataType → List Selection → StructMember → Prop where
  | last {t : DataType} {c : Selection} {m : StructMember} (h : s.Selects t c m) : Leads s t [c] m
  | into {t : DataType} {c : Selection} {cs : List Selection} {m n : StructMember}
      (h : s.Selects t c m) (rest : Leads s m.type cs n) : Leads s t (c :: cs) n

/-- Where a selected element lies: the offset of its member in the struct, and how far the element is
from where the member begins. -/
structure Location where
  offset : Nat
  distance : Nat
  deriving DecidableEq, Repr

/-- Where a selection leads in its struct. -/
def locate (s : Structs) (t : DataType) (c : Selection) : Option Location := do
  let m ← s.memberAt t c.member
  let offsets ← s.layout t
  let (_, offset) ← offsets[c.member]?
  let size ← s.sizeOf m.type
  some ⟨offset, c.element * strideOf m size⟩

/-- Where selections one after the other lead, each in the struct that was selected last. -/
def locateAll (s : Structs) : DataType → List Selection → Option (List Location)
  | _, [] => some []
  | t, c :: cs => do
      let l ← s.locate t c
      let m ← s.memberAt t c.member
      let ls ← s.locateAll m.type cs
      some (l :: ls)

/-- How far the last of these places is from where the outermost struct begins. -/
def displacement : List Location → Nat
  | [] => 0
  | l :: ls => l.offset + l.distance + displacement ls

/-- How far the innermost struct would be if only first elements were selected. -/
def structOffset : List Location → Nat
  | [] => 0
  | [_] => 0
  | l :: ls => l.offset + structOffset ls

theorem displacement_cons (l : Location) (ls : List Location) :
    displacement (l :: ls) = l.offset + l.distance + displacement ls := rfl

theorem structOffset_cons (l : Location) {ls : List Location} (h : ls ≠ []) :
    structOffset (l :: ls) = l.offset + structOffset ls := by
  cases ls with
  | nil => exact absurd rfl h
  | cons l' ls => rfl

variable {s : Structs} {t : DataType} {c : Selection} {cs : List Selection} {m : StructMember}

/-- Only a struct has members to select. -/
theorem Selects.isStruct (h : s.Selects t c m) : t.isStruct = true := by
  obtain ⟨entry, hentry, -⟩ := Option.bind_eq_some_iff.1 h.1
  exact isStruct_of_entry hentry

theorem Leads.isStruct (h : s.Leads t cs m) : t.isStruct = true := by
  cases h with
  | last h | into h => exact h.isStruct

/-! ### Whole boundaries -/

/-- The size of a struct is a whole number of boundaries. -/
theorem size_mod_of_struct {size : Nat} (ht : t.isStruct = true) (h : s.sizeOf t = some size) :
    size % 16 = 0 := by
  obtain ⟨_, _, -, -, hpacked⟩ := exists_packed ht h
  exact hpacked.size_whole

/-- Elements that are structs, vectors or matrices are whole boundaries apart. -/
theorem distance_mod {size : Nat} (hsize : s.sizeOf m.type = some size)
    (hwhole : m.type.isStruct = true ∨ m.type.isPacked = true) (hc : c.element < m.elements) :
    c.element * strideOf m size % 16 = 0 := by
  unfold StructMember.elements at hc
  cases hcount : m.count with
  | none =>
      -- the only element is where the member is
      rw [hcount, Nat.lt_one_iff] at hc
      rw [hc, Nat.zero_mul]
  | some count =>
      have hstride : strideOf m size % 16 = 0 := by
        rw [strideOf, hcount, Option.isSome_some, Bool.true_and]
        split
        · exact roundUp_mod size
        · next hplain => exact size_mod_of_struct (hwhole.resolve_right hplain) hsize
      rw [Nat.mul_mod, hstride, Nat.mul_zero, Nat.zero_mod]

/-- In a struct with a size every member has a place, and a size of its own; vectors and matrices lie
on the boundary. -/
theorem exists_location (ht : (s.sizeOf t).isSome) (h : s.Selects t c m) :
    ∃ l, s.locate t c = some l ∧ (s.sizeOf m.type).isSome ∧
      (m.type.isPacked = true → l.offset % 16 = 0) ∧
      (m.type.isStruct = true ∨ m.type.isPacked = true → l.distance % 16 = 0) := by
  obtain ⟨size, hsize⟩ := Option.isSome_iff_exists.1 ht
  obtain ⟨entry, hentry, hm⟩ := Option.bind_eq_some_iff.1 h.1
  obtain ⟨entry', ps, hentry', hps, hpacked⟩ := exists_packed h.isStruct hsize
  obtain rfl := Option.some.inj (hentry.symm.trans hentry')
  obtain ⟨p, bytes, hp, hbytes, -⟩ := hpacked.exists_placement hm
  have hzip : (entry.members.zip ps)[c.member]? = some (m, p) :=
    List.getElem?_zip_eq_some.2 ⟨hm, hp⟩
  have hlocate : s.locate t c = some ⟨p.offset, c.element * strideOf m bytes⟩ := by
    simp only [locate, h.1, layout_of_placements hentry hps, List.getElem?_map, hzip, hbytes,
      Option.bind_eq_bind, Option.bind_some, Option.map_some]
  exact ⟨_, hlocate, hbytes ▸ rfl, hpacked.onBoundary c.member m p hm hp,
    fun hwhole => distance_mod hbytes hwhole h.2⟩

/-! ### Structs inside structs -/

/-- What is selected has a place, and off the boundary it is moved only by the structs around it.  The
induction is on the selections: each but the last one selects a struct, and elements of structs are
whole boundaries apart. -/
theorem exists_locations (ht : (s.sizeOf t).isSome) (h : s.Leads t cs m)
    (hpacked : m.type.isPacked = true) :
    ∃ ls, s.locateAll t cs = some ls ∧ ls ≠ [] ∧ displacement ls % 16 = structOffset ls % 16 := by
  induction h with
  | @last t c m h =>
      obtain ⟨l, hl, -, hoffset, hdistance⟩ := exists_location ht h
      refine ⟨[l], ?_, List.cons_ne_nil _ _, ?_⟩
      · simp only [locateAll, hl, h.1, Option.bind_eq_bind, Option.bind_some]
      · have hoffset := hoffset hpacked
        have hdistance := hdistance (.inr hpacked)
        simp only [displacement, structOffset]
        omega
  | @into t c cs m n h rest ih =>
      obtain ⟨l, hl, hsize, -, hdistance⟩ := exists_location ht h
      obtain ⟨ls, hls, hne, hmod⟩ := ih hsize hpacked
      have hdistance := hdistance (.inl rest.isStruct)
      refine ⟨l :: ls, ?_, List.cons_ne_nil _ _, ?_⟩
      · simp only [locateAll, hl, h.1, hls, Option.bind_eq_bind, Option.bind_some]
      · rw [displacement_cons, structOffset_cons l hne]
        omega

/-- A number and a struct with a vector behind it: the vector lies at byte four. -/
theorem not_on_boundary :
    let inner := ((empty.register "Inner").2.finalize "Inner" [⟨"v", ⟨5, some 4, none⟩, none⟩]).2
    let s := ((inner.register "Outer").2.finalize "Outer"
      [⟨"x", .scalar .float, none⟩, ⟨"inner", .struct 256, none⟩]).2
    (s.sizeOf (.struct 257)).isSome ∧
      s.Leads (.struct 257) [⟨1, 0⟩, ⟨0, 0⟩] ⟨"v", ⟨5, some 4, none⟩, none⟩ ∧
      s.locateAll (.struct 257) [⟨1, 0⟩, ⟨0, 0⟩] = some [⟨4, 0⟩, ⟨0, 0⟩] ∧
      displacement [⟨4, 0⟩, ⟨0, 0⟩] = 4 ∧ 4 % 16 ≠ 0 := by
  intro inner s
  have hinner : s.Selects (.struct 257) ⟨1, 0⟩ ⟨"inner", .struct 256, none⟩ := by decide +kernel
  have hvector : s.Selects (.struct 256) ⟨0, 0⟩ ⟨"v", ⟨5, some 4, none⟩, none⟩ := by decide +kernel
  exact ⟨by decide +kernel, .into hinner (.last hvector), by decide +kernel, rfl, by decide⟩

/-- **A vector or matrix lies on the boundary exactly if the offsets of the structs around it add up to
one.**  Wherever selections in a struct with a size lead to a vector or matrix, it has a place; which
elements are selected does not matter, and neither does its own offset. -/
theorem on_boundary_iff (s : Structs) (t : DataType) (ht : (s.sizeOf t).isSome) (cs : List Selection)
    (m : StructMember) (h : s.Leads t cs m) (hpacked : m.type.isPacked) :
    ∃ ls, s.locateAll t cs = some ls ∧
      (displacement ls % 16 = 0 ↔ structOffset ls % 16 = 0) := by
  obtain ⟨ls, hls, -, hmod⟩ := exists_locations ht h hpacked
  exact ⟨ls, hls, by rw [hmod]⟩

/-- A color of the third of some lights, which lie behind a matrix, and a color of a light that lies
behind a number. -/
theorem on_boundary_iff_lights :
    let light : StructEntry :=
      ⟨"Light", [⟨"power", .scalar .float, none⟩, ⟨"colors", ⟨5, some 3, none⟩, some 2⟩]⟩
    let scene : StructEntry :=
      ⟨"Scene", [⟨"view", ⟨5, some 4, some 4⟩, none⟩, ⟨"lights", .struct 256, some 3⟩,
        ⟨"mode", .scalar .int, none⟩, ⟨"spot", .struct 256, none⟩]⟩
    let s : Structs := ⟨#[light, scene]⟩
    let color : StructMember := ⟨"colors", ⟨5, some 3, none⟩, some 2⟩
    (s.sizeOf (.struct 257)).isSome ∧ color.type.isPacked ∧
      s.Leads (.struct 257) [⟨1, 2⟩, ⟨1, 1⟩] color ∧ s.Leads (.struct 257) [⟨3, 0⟩, ⟨1, 1⟩] color ∧
      (∃ ls, s.locateAll (.struct 257) [⟨1, 2⟩, ⟨1, 1⟩] = some ls ∧ displacement ls = 192 ∧
        (displacement ls % 16 = 0 ↔ structOffset ls % 16 = 0)) ∧
      ∃ ls, s.locateAll (.struct 257) [⟨3, 0⟩, ⟨1, 1⟩] = some ls ∧ displacement ls = 244 ∧
        (displacement ls % 16 = 0 ↔ structOffset ls % 16 = 0) := by
  intro light scene s color
  have hsize : (s.sizeOf (.struct 257)).isSome := by decide +kernel
  have hlights : s.Selects (.struct 257) ⟨1, 2⟩ ⟨"lights", .struct 256, some 3⟩ := by decide +kernel
  have hspot : s.Selects (.struct 257) ⟨3, 0⟩ ⟨"spot", .struct 256, none⟩ := by decide +kernel
  have hcolor : s.Selects (.struct 256) ⟨1, 1⟩ color := by decide +kernel
  have hthird : s.Leads (.struct 257) [⟨1, 2⟩, ⟨1, 1⟩] color := .into hlights (.last hcolor)
  have hsingle : s.Leads (.struct 257) [⟨3, 0⟩, ⟨1, 1⟩] color := .into hspot (.last hcolor)
  have hpacked : color.type.isPacked := by decide
  obtain ⟨ls, hls, hiff⟩ := on_boundary_iff s (.struct 257) hsize _ color hthird hpacked
  obtain ⟨ks, hks, hiff'⟩ := on_boundary_iff s (.struct 257) hsize _ color hsingle hpacked
  have hplaces : s.locateAll (.struct 257) [⟨1, 2⟩, ⟨1, 1⟩] = some [⟨64, 96⟩, ⟨16, 16⟩] := by
    decide +kernel
  have hplaces' : s.locateAll (.struct 257) [⟨3, 0⟩, ⟨1, 1⟩] = some [⟨212, 0⟩, ⟨16, 16⟩] := by
    decide +kernel
  obtain rfl := Option.some.inj (hplaces.symm.trans hls)
  obtain rfl := Option.some.inj (hplaces'.symm.trans hks)
  exact ⟨hsize, hpacked, hthird, hsingle, ⟨_, hls, rfl, hiff⟩, _, hks, rfl, hiff'⟩

end Structs

end ShaderLang
