/-
**Structs and their numbers.**

A struct has the place in the catalogue at which it was opened.  Its number is that place counted from
the first struct number, in thirty-two bits; so numbers tell structs apart as long as they last.

Main definitions:

* `ShaderLang.Structs.capacity` — how many structs can be told apart by number;
* `ShaderLang.Structs.names` — the names of the structs.

Main results:

* `ShaderLang.Structs.entry?_idOf`, `ShaderLang.Structs.idOf_inj` — numbers stand for places;
* `ShaderLang.Structs.entries_register`, `ShaderLang.Structs.entries_finalize` — what opening and
  closing a struct change;
* `ShaderLang.Structs.placeNamed_register`, `ShaderLang.Structs.placeNamed_finalize` — the newest
  struct of a name is the one opened last;
* `ShaderLang.Structs.entry?_finalize` — closing a struct concerns the newest struct of the name.
-/

import ShaderLang.Structs

set_option relaxedAutoImplicit false
set_option autoImplicit false

namespace ShaderLang.Structs

/-! ### Numbers and places -/

/-- How many structs can be told apart by their numbers, which have thirty-two bits and begin behind
those of the base types. -/
def capacity : Nat := UInt32.size - firstStructId.toNat

theorem toNat_idOf {place : Nat} (h : place < capacity) :
    (idOf place).toNat = firstStructId.toNat + place := by
  have hfits : firstStructId.toNat + place < 2 ^ 32 := by
    simp only [capacity, UInt32.size] at h
    omega
  rw [idOf, UInt32.toNat_ofNat', Nat.mod_eq_of_lt hfits]

theorem placeOf_idOf {place : Nat} (h : place < capacity) : placeOf (idOf place) = some place := by
  have hle : firstStructId ≤ idOf place := by
    rw [UInt32.le_iff_toNat_le, toNat_idOf h]
    exact Nat.le_add_right _ _
  rw [placeOf, if_pos hle, toNat_idOf h, Nat.add_sub_cancel_left]

theorem idOf_inj {i j : Nat} (hi : i < capacity) (hj : j < capacity) (h : idOf i = idOf j) :
    i = j := by
  have hplace := placeOf_idOf hi
  rw [h, placeOf_idOf hj] at hplace
  exact (Option.some.inj hplace).symm

/-- A number that stands for a place is the number of that place. -/
theorem idOf_of_placeOf {id : UInt32} {place : Nat} (h : placeOf id = some place) :
    idOf place = id := by
  unfold placeOf at h
  split at h
  · next hle =>
      obtain rfl := Option.some.inj h
      have hle := UInt32.le_iff_toNat_le.1 hle
      rw [idOf, Nat.add_sub_cancel' hle, UInt32.ofNat_toNat]
  · contradiction

/-- The struct with the number of a place is the one at that place. -/
theorem entry?_idOf (s : Structs) {place : Nat} (h : place < capacity) :
    s.entry? (idOf place) = s.entries[place]? := by
  rw [ entry?, placeOf_idOf h, Option.bind_some]

/-- A struct with a number has a place. -/
theorem exists_place_of_entry? {s : Structs} {id : UInt32} {e : StructEntry}
    (h : s.entry? id = some e) : ∃ place, idOf place = id ∧ s.entries[place]? = some e := by
  obtain ⟨place, hplace, he⟩ := Option.bind_eq_some_iff.1 h
  exact ⟨place, idOf_of_placeOf hplace, he⟩

theorem lt_size {s : Structs} {place : Nat} {e : StructEntry} (h : s.entries[place]? = some e) :
    place < s.size :=
  (Array.getElem?_eq_some_iff.1 h).1

/-- The newest struct of a name is in the catalogue. -/
theorem lt_size_of_placeNamed {s : Structs} {name : String} {place : Nat}
    (h : s.placeNamed name = some place) : place < s.size := by
  obtain ⟨e, he, -⟩ := lastIndex_eq_some_iff.1 h
  exact (List.getElem?_eq_some_iff.1 he).1

/-- The names of the structs, in the order of their numbers. -/
def names (s : Structs) : List String := s.entries.toList.map StructEntry.name

@[simp] theorem length_names (s : Structs) : s.names.length = s.size := by
  simp [names, size]

/-- The name of the struct with the number of a place is the one at that place. -/
theorem nameOf_idOf_eq (s : Structs) {place : Nat} (h : place < capacity) :
    s.nameOf (idOf place) = s.names[place]? := by
  rw [nameOf, entry?_idOf s h, names, List.getElem?_map, Array.getElem?_toList]

/-- The newest struct of a name is looked for among the names. -/
theorem placeNamed_eq (s : Structs) (name : String) :
    s.placeNamed name = lastIndex (· == name) s.names := by
  rw [names, lastIndex_map]
  rfl

/-- What a name stands for depends on the names alone. -/
theorem lookup_congr {s s' : Structs} (h : s'.names = s.names) : s'.lookup = s.lookup := by
  funext name
  rw [lookup, lookup, placeNamed_eq, placeNamed_eq, h]

/-- The struct that a name stands for has the name. -/
theorem nameOf_idOf {s : Structs} {name : String} {place : Nat} (h : s.placeNamed name = some place)
    (hfits : place < capacity) : s.nameOf (idOf place) = some name := by
  obtain ⟨e, he, hname, -⟩ := lastIndex_eq_some_iff.1 h
  rw [nameOf, entry?_idOf s hfits, ← Array.getElem?_toList, he, Option.map_some,
    beq_iff_eq.1 hname]

/-- A struct with a name is not newer than the newest one of that name. -/
theorem exists_placeNamed {s : Structs} {name : String} {id : UInt32} (h : s.nameOf id = some name) :
    ∃ place, s.placeNamed name = some place := by
  obtain ⟨e, he, rfl⟩ := Option.map_eq_some_iff.1 h
  obtain ⟨i, -, hi⟩ := exists_place_of_entry? he
  cases hplace : s.placeNamed e.name with
  | some place => exact ⟨place, rfl⟩
  | none =>
      have hmem : e ∈ s.entries.toList := Array.mem_toList_iff.2 (Array.mem_of_getElem? hi)
      have hfalse := lastIndex_eq_none_iff.1 hplace e hmem
      rw [beq_self_eq_true] at hfalse
      contradiction

/-! ### Opening a struct -/

variable (s : Structs) (name : String)

theorem names_register : (s.register name).2.names = s.names ++ [name] := by
  simp [register, names]

@[simp] theorem size_register : (s.register name).2.size = s.size + 1 := by
  simp [register, size]

/-- The struct that is opened comes last. -/
theorem entries_register (place : Nat) :
    (s.register name).2.entries[place]? =
      if place = s.size then some ⟨name, []⟩ else s.entries[place]? := by
  rw [register, Array.getElem?_push]
  rfl

/-- The newest struct of a name is the one opened last. -/
theorem placeNamed_register : (s.register name).2.placeNamed name = some s.size := by
  rw [placeNamed, register, Array.toList_push, lastIndex_append_singleton, if_pos (by simp)]
  rfl

/-- Any other name stands for the same struct as before. -/
theorem placeNamed_register_of_ne {other : String} (h : name ≠ other) :
    (s.register name).2.placeNamed other = s.placeNamed other := by
  rw [placeNamed, register, Array.toList_push, lastIndex_append_singleton, if_neg (by simpa using h)]
  rfl

/-- The struct opened last has its name. -/
theorem nameOf_register (h : s.size < capacity) :
    (s.register name).2.nameOf (idOf s.size) = some name := by
  rw [nameOf, entry?_idOf _ h, entries_register, if_pos rfl]
  rfl

/-! ### Closing a struct -/

/-- Closing a struct gives members to the newest struct of the name and changes no other one. -/
theorem entries_finalize {place : Nat} (h : s.placeNamed name = some place)
    (members : List StructMember) (i : Nat) :
    (s.finalize name members).2.entries[i]? =
      if i = place then (s.entries[i]?).map (fun e => { e with members }) else s.entries[i]? := by
  simp only [finalize, h, Array.getElem?_modify, eq_comm]

/-- Closing a struct leaves all structs their names. -/
theorem names_finalize (members : List StructMember) :
    (s.finalize name members).2.names = s.names := by
  unfold names finalize
  split
  · rfl
  · next place _ =>
      apply List.ext_getElem?
      intro i
      simp only [List.getElem?_map, Array.getElem?_toList, Array.getElem?_modify]
      split
      · cases s.entries[i]? <;> rfl
      · rfl

/-- So a name stands for the same struct as before. -/
theorem placeNamed_finalize (members : List StructMember) (text : String) :
    (s.finalize name members).2.placeNamed text = s.placeNamed text := by
  rw [placeNamed_eq, placeNamed_eq, names_finalize]

/-- Giving members to a name concerns the newest struct of the name, and no other one. -/
theorem entry?_finalize {place : Nat} (h : s.placeNamed name = some place)
    (hfits : s.size ≤ capacity) (members : List StructMember) (id : UInt32) :
    Structs.entry? (s.finalize name members).2 id =
      if id = idOf place then some ⟨name, members⟩ else s.entry? id := by
  have hplace : place < capacity := Nat.lt_of_lt_of_le (lt_size_of_placeNamed h) hfits
  split
  · next heq =>
      obtain ⟨e, he, hname⟩ := Option.map_eq_some_iff.1 (nameOf_idOf h hplace)
      rw [ entry?_idOf s hplace] at he
      rw [heq, entry?_idOf _ hplace, entries_finalize s name h, if_pos rfl, he, ← hname]
      rfl
  · next hne =>
      unfold entry?
      cases hid : placeOf id with
      | none => rfl
      | some i =>
          have hi : i ≠ place := fun heq => hne ((idOf_of_placeOf hid).symm.trans (heq ▸ rfl))
          rw [Option.bind_some, Option.bind_some, entries_finalize s name h, if_neg hi]

theorem lookup_finalize (members : List StructMember) :
    (s.finalize name members).2.lookup = s.lookup :=
  lookup_congr (names_finalize s name members)

@[simp] theorem size_finalize (members : List StructMember) :
    (s.finalize name members).2.size = s.size := by
  unfold finalize size
  split
  · rfl
  · exact Array.size_modify

end ShaderLang.Structs
