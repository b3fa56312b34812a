/-
**A counter, a map and a table stay in step.**

The catalogue of `ShaderLang.Structs` is one array: the number of a struct is its place, and a name is looked
for among the entries.  A registry keeps three things instead.  A counter holds the next number, a map leads
from a name to the number that was given to it last, and a table has the descriptions.  Opening a struct
changes all three, and closing one goes from the map to the table, where it could miss; nothing but the
history keeps them in step.

The proof is a simulation.  One invariant says what the three hold in terms of the array
(`ShaderLang.Registry.Mirrors`); opening and closing keep it, so it holds after all changes, and every answer
is read off it.

Main definitions:

* `ShaderLang.Registry` — the counter, the map and the table;
* `ShaderLang.Registry.register`, `ShaderLang.Registry.finalize` — a struct opens and closes;
* `ShaderLang.Registry.Mirrors` — the three hold what the array holds;
* `ShaderLang.Registry.Answers` — the same is answered to every question.

Main results:

* `ShaderLang.Registry.Mirrors.register`, `ShaderLang.Registry.Mirrors.finalize` — one change keeps them in
  step;
* `ShaderLang.Registry.mirrors_changed` — they are in step after all changes;
* `ShaderLang.Registry.answers_changed` — **the counter, the map and the table answer as the array does**.
-/

import ShaderLang.Proofs.Structs.Numbering

set_option relaxedAutoImplicit false
set_option autoImplicit false

namespace ShaderLang

/-- A catalogue of structs in three parts. -/
structure Registry where
  /-- The number of the next struct. -/
  nextId : UInt32
  /-- The number that was given to a name last; in front of the older ones. -/
  byName : List (String × UInt32)
  /-- The structs in the order of their numbers. -/
  descriptors : Array StructEntry
  deriving DecidableEq

namespace Registry

/-- No structs. -/
def empty : Registry := ⟨firstStructId, [], #[]⟩

/-- A new struct without members, and its number. -/
def register (r : Registry) (name : String) : UInt32 × Registry :=
  (r.nextId, ⟨r.nextId + 1, (name, r.nextId) :: r.byName, r.descriptors.push ⟨name, []⟩⟩)

/-- The number that was given to a name last. -/
def lookup (r : Registry) (name : String) : Option UInt32 := r.byName.lookup name

/-- Sets the members of the struct with the number that was given to a name last; gives the number, or
none if the name has no number or the number no struct. -/
def finalize (r : Registry) (name : String) (members : List StructMember) : Option UInt32 × Registry :=
  match r.byName.lookup name with
  | none => (none, r)
  | some id =>
      let place := (id - firstStructId).toNat
      match r.descriptors[place]? with
      | none => (none, r)
      | some _ =>
          (some id, { r with descriptors := r.descriptors.modify place fun e => { e with members } })

/-- The struct with a number. -/
def descriptor (r : Registry) (id : UInt32) : Option StructEntry :=
  (Structs.placeOf id).bind fun place => r.descriptors[place]?

/-- The number of structs. -/
def size (r : Registry) : Nat := r.descriptors.size

/-- One more change. -/
def change (r : Registry) : Structs.Change → Registry
  | .register name => (r.register name).2
  | .finalize name members => (r.finalize name members).2

/-- The catalogue after all changes. -/
def changed (changes : List Structs.Change) : Registry := changes.foldl change empty

/-- The three parts hold what the array of structs holds. -/
structure Mirrors (r : Registry) (s : Structs) : Prop where
  nextId : r.nextId = Structs.idOf s.size
  byName : ∀ name, r.byName.lookup name = s.lookup name
  descriptors : r.descriptors = s.entries

/-- The three parts answer every question as the array of structs does, and a name with a number has a
struct. -/
structure Answers (r : Registry) (s : Structs) : Prop where
  register : ∀ name, (r.register name).1 = (s.register name).1
  finalize : ∀ name members, (r.finalize name members).1 = (s.finalize name members).1
  lookup : r.lookup = s.lookup
  descriptor : r.descriptor = Structs.entry? s
  size : r.size = s.size
  described {name : String} {id : UInt32} (h : r.lookup name = some id) :
    ∃ e, r.descriptor id = some e ∧ e.name = name

variable {r : Registry} {s : Structs} {name : String} {place : Nat}

/-! ### One change -/

theorem mirrors_empty : empty.Mirrors Structs.empty := ⟨rfl, fun _ => rfl, rfl⟩

theorem idOf_succ (place : Nat) : Structs.idOf (place + 1) = Structs.idOf place + 1 :=
  UInt32.ofNat_add (firstStructId.toNat + place) 1

/-- The number that is given out last stands first in the map. -/
theorem lookup_register (s : Structs) (name other : String) :
    (s.register name).2.lookup other = if other = name then some (Structs.idOf s.size) else s.lookup other := by
  unfold Structs.lookup
  split
  · next heq => rw [heq, s.placeNamed_register, Option.map_some]
  · next hne => rw [s.placeNamed_register_of_ne name (Ne.symm hne)]

/-- **Opening a struct keeps the three parts in step.** -/
theorem Mirrors.register (h : r.Mirrors s) (name : String) :
    (r.register name).2.Mirrors (s.register name).2 where
  nextId := by
    rw [Structs.size_register, idOf_succ, ← h.nextId]
    rfl
  byName := fun other => by
    rw [lookup_register, ← h.nextId, ← h.byName]
    by_cases heq : other = name
    · rw [if_pos heq, heq]
      exact List.lookup_cons_self
    · rw [if_neg heq, Registry.register, List.lookup_cons, beq_false_of_ne heq]
  descriptors := congrArg (·.push ⟨name, []⟩) h.descriptors

/-- The place of a number is how far it is from the first one. -/
theorem toNat_idOf_sub (h : place < Structs.capacity) :
    (Structs.idOf place - firstStructId).toNat = place := by
  have hid := Structs.toNat_idOf h
  have hle : firstStructId ≤ Structs.idOf place := by
    rw [UInt32.le_iff_toNat_le, hid]
    exact Nat.le_add_right _ _
  rw [UInt32.toNat_sub_of_le _ _ hle, hid, Nat.add_sub_cancel_left]

/-- Closing a struct whose name has a number reaches the table. -/
theorem Mirrors.finalize_eq (h : r.Mirrors s) (hfits : s.size ≤ Structs.capacity)
    (hplace : s.placeNamed name = some place) (members : List StructMember) :
    r.finalize name members = (some (Structs.idOf place),
      { r with descriptors := r.descriptors.modify place fun e => { e with members } }) := by
  have hlt := Structs.lt_size_of_placeNamed hplace
  have hname : r.byName.lookup name = some (Structs.idOf place) := by
    rw [h.byName, Structs.lookup, hplace, Option.map_some]
  have hentry : ∃ e, r.descriptors[place]? = some e := by
    rw [h.descriptors]
    exact ⟨_, Array.getElem?_eq_getElem hlt⟩
  obtain ⟨e, he⟩ := hentry
  simp only [Registry.finalize, hname, toNat_idOf_sub (Nat.lt_of_lt_of_le hlt hfits), he]

/-- A name without a number is not closed. -/
theorem Mirrors.finalize_eq_none (h : r.Mirrors s) (hnone : s.placeNamed name = none)
    (members : List StructMember) : r.finalize name members = (none, r) := by
  have hname : r.byName.lookup name = none := by
    rw [h.byName, Structs.lookup, hnone, Option.map_none]
  simp only [Registry.finalize, hname]

/-- **Closing a struct keeps the three parts in step.** -/
theorem Mirrors.finalize (h : r.Mirrors s) (hfits : s.size ≤ Structs.capacity) (name : String)
    (members : List StructMember) : (r.finalize name members).2.Mirrors (s.finalize name members).2 := by
  cases hplace : s.placeNamed name with
  | none =>
      rw [h.finalize_eq_none hplace, Structs.finalize_of_placeNamed hplace]
      exact h
  | some place =>
      rw [h.finalize_eq hfits hplace]
      constructor
      case nextId => rw [h.nextId, Structs.size_finalize]
      case byName =>
        intro other
        rw [h.byName, Structs.lookup_finalize]
      case descriptors => simp only [Structs.finalize, hplace, h.descriptors]

/-! ### All changes -/

/-- **The three parts are in step after all changes**, as long as there are numbers left. -/
theorem mirrors_changed (changes : List Structs.Change)
    (hfits : (Structs.opened changes).length < Structs.capacity) :
    (changed changes).Mirrors (Structs.changed changes) := by
  induction changes using List.reverseRecOn with
  | nil => exact mirrors_empty
  | append_singleton changes c ih =>
      have hle : (Structs.opened changes).length ≤ (Structs.opened (changes ++ [c])).length := by
        rw [Structs.opened, Structs.opened, List.filterMap_append, List.length_append]
        exact Nat.le_add_right _ _
      have hlt := Nat.lt_of_le_of_lt hle hfits
      have hbefore := ih hlt
      rw [changed, Structs.changed, List.foldl_append, List.foldl_append]
      cases c with
      | register name => exact hbefore.register name
      | finalize name members =>
          have hsize : (Structs.changed changes).size ≤ Structs.capacity := by
            rw [Structs.size_changed]
            exact Nat.le_of_lt hlt
          exact hbefore.finalize hsize name members

theorem Mirrors.descriptor (h : r.Mirrors s) : r.descriptor = Structs.entry? s := by
  funext id
  rw [Registry.descriptor, h.descriptors]
  rfl

/-- What is in step answers alike. -/
theorem Mirrors.answers (h : r.Mirrors s) (hfits : s.size ≤ Structs.capacity) : r.Answers s where
  register := fun _ => h.nextId
  finalize := fun name members => by
    rw [Structs.fst_finalize, Structs.lookup]
    cases hplace : s.placeNamed name with
    | none => rw [h.finalize_eq_none hplace, Option.map_none]
    | some place => rw [h.finalize_eq hfits hplace, Option.map_some]
  lookup := funext h.byName
  descriptor := h.descriptor
  size := congrArg Array.size h.descriptors
  described := by
    intro name id hid
    obtain ⟨place, hplace, rfl⟩ := Option.map_eq_some_iff.1 ((h.byName name).symm.trans hid)
    have hlt := Nat.lt_of_lt_of_le (Structs.lt_size_of_placeNamed hplace) hfits
    rw [h.descriptor]
    exact Option.map_eq_some_iff.1 (Structs.nameOf_idOf hplace hlt)

/-- **The counter, the map and the table answer as the array does**, whatever was opened and closed, as
long as there are numbers left. -/
theorem answers_changed (changes : List Structs.Change)
    (hfits : (Structs.opened changes).length < Structs.capacity) :
    (changed changes).Answers (Structs.changed changes) := by
  refine (mirrors_changed changes hfits).answers ?_
  rw [Structs.size_changed]
  exact Nat.le_of_lt hfits

/-- A name that is opened twice leads to the newer struct in all three parts. -/
theorem answers_changed_reopened :
    (Structs.opened Structs.reopened).length < Structs.capacity ∧
      (changed Structs.reopened).Answers (Structs.changed Structs.reopened) ∧
      changed Structs.reopened =
        ⟨259, [("Light", 258), ("Camera", 257), ("Light", 256)],
          #[⟨"Light", [⟨"color", .scalar .float, none⟩]⟩, ⟨"Camera", []⟩, ⟨"Light", []⟩]⟩ := by
  have hfits : (Structs.opened Structs.reopened).length < Structs.capacity := by decide
  exact ⟨hfits, answers_changed Structs.reopened hfits, by decide +kernel⟩

end Registry

end ShaderLang
