/-
**Struct numbers are fresh, and a name stands for its newest struct.**

Structs open and close in any order, and a name may be opened many times.  A struct gets the first number
that is free; closing gives members to the newest struct of a name, or to none if the name was never
opened.

The catalogue is a list of structs, and what it says of numbers and names depends on the list of their
names alone.  One invariant carries everything: these names are those that were opened, in the order in
which they were opened (`ShaderLang.Structs.names_changed`).  So the number of a struct is the count of
those opened before it, and the newest struct of a name is the last place of the name in that list.

Main definitions:

* `ShaderLang.Structs.Change`, `ShaderLang.Structs.changed` — opening and closing, and the catalogue
  after some of it;
* `ShaderLang.Structs.HandedOut` — the numbers that were given to structs of a name;
* `ShaderLang.Structs.Numbered` — what holds of the catalogue after all changes.

Main results:

* `ShaderLang.Structs.names_changed` — the names in the catalogue are those that were opened;
* `ShaderLang.Structs.handedOut_iff` — a number that was given to a name is that of a place of the name;
* `ShaderLang.Structs.numbered_changed` — **struct numbers are fresh and stable, and a name stands for
  the struct of that name with the greatest number**.
-/

import Mathlib.Data.List.Induction
import ShaderLang.Proofs.Structs.Registration

set_option relaxedAutoImplicit false
set_option autoImplicit false

namespace ShaderLang

/-- The last place of a property is the greatest of its places. -/
theorem lastIndex_eq_some_iff_le {α : Type} {p : α → Bool} {xs : List α} {i : Nat} :
    lastIndex p xs = some i ↔ (∃ x, xs[i]? = some x ∧ p x = true) ∧
      ∀ j x, xs[j]? = some x → p x = true → j ≤ i := by
  rw [lastIndex_eq_some_iff]
  constructor
  · rintro ⟨x, hx, hp, hbehind⟩
    refine ⟨⟨x, hx, hp⟩, fun j y hy hpy => ?_⟩
    by_contra hlt
    have hdrop : (xs.drop (i + 1))[j - (i + 1)]? = some y := by
      rw [List.getElem?_drop, show i + 1 + (j - (i + 1)) = j by omega, hy]
    rw [hbehind y (List.mem_of_getElem? hdrop)] at hpy
    contradiction
  · rintro ⟨⟨x, hx, hp⟩, hgreatest⟩
    refine ⟨x, hx, hp, fun y hy => ?_⟩
    obtain ⟨k, hk⟩ := List.mem_iff_getElem?.1 hy
    rw [List.getElem?_drop] at hk
    by_contra hpy
    have hle := hgreatest _ y hk (eq_true_of_ne_false hpy)
    omega

/-- An item that is not left out stands behind as many others as its place says. -/
theorem getElem?_filterMap_eq_some_iff {α β : Type} {f : α → Option β} {xs : List α} {i : Nat} {y : β} :
    (xs.filterMap f)[i]? = some y ↔
      ∃ front x rest, xs = front ++ x :: rest ∧ f x = some y ∧ (front.filterMap f).length = i := by
  constructor
  · intro h
    induction xs generalizing i with
    | nil => simp at h
    | cons x xs ih =>
        -- the first item is left out, or it is the one, or it stands in front of the one
        cases hx : f x with
        | none =>
            rw [List.filterMap_cons_none hx] at h
            obtain ⟨front, z, rest, rfl, hz, hlength⟩ := ih h
            exact ⟨x :: front, z, rest, rfl, hz, by rw [List.filterMap_cons_none hx, hlength]⟩
        | some w =>
            rw [List.filterMap_cons_some hx] at h
            cases i with
            | zero => exact ⟨[], x, xs, rfl, hx.trans h, rfl⟩
            | succ i =>
                obtain ⟨front, z, rest, rfl, hz, hlength⟩ := ih h
                refine ⟨x :: front, z, rest, rfl, hz, ?_⟩
                rw [List.filterMap_cons_some hx, List.length_cons, hlength]
  · rintro ⟨front, x, rest, rfl, hx, rfl⟩
    rw [List.filterMap_append, List.filterMap_cons_some hx, List.getElem?_append_right (Nat.le_refl _),
      Nat.sub_self, List.getElem?_cons_zero]

namespace Structs

/-- What is done to a catalogue: a struct of a name opens, or the newest one of a name closes. -/
inductive Change where
  | register (name : String)
  | finalize (name : String) (members : List StructMember)

/-- The name of the struct that opens, if one does. -/
def Change.opens? : Change → Option String
  | .register name => some name
  | .finalize _ _ => none

/-- One more change. -/
def change (s : Structs) : Change → Structs
  | .register name => (s.register name).2
  | .finalize name members => (s.finalize name members).2

/-- The catalogue after all changes. -/
def changed (changes : List Change) : Structs := changes.foldl change empty

/-- The names that are opened, in order. -/
def opened (changes : List Change) : List String := changes.filterMap Change.opens?

/-- The number was given to a struct that was opened with the name. -/
def HandedOut (changes : List Change) (name : String) (id : UInt32) : Prop :=
  ∃ front rest, changes = front ++ .register name :: rest ∧ ((changed front).register name).1 = id

/-- What holds of the catalogue after all changes. -/
structure Numbered (changes : List Change) : Prop where
  number {front rest : List Change} {name : String} (h : changes = front ++ .register name :: rest) :
    ((changed front).register name).1.toNat = firstStructId.toNat + (opened front).length
  builtIn {name : String} {id : UInt32} (h : HandedOut changes name id) (b : BaseType) : b.id ≠ id
  distinct {front rest front' rest' : List Change} {name name' : String}
    (h : changes = front ++ .register name :: rest) (h' : changes = front' ++ .register name' :: rest')
    (hne : front.length ≠ front'.length) :
      ((changed front).register name).1 ≠ ((changed front').register name').1
  nameOf {name : String} {id : UInt32} (h : HandedOut changes name id) :
    (changed changes).nameOf id = some name
  lookup {name : String} {id : UInt32} : (changed changes).lookup name = some id ↔
    HandedOut changes name id ∧ ∀ other, HandedOut changes name other → other ≤ id
  unnamed {name : String} : (changed changes).lookup name = none ↔ .register name ∉ changes
  unknown {name : String} (h : .register name ∉ changes) (members : List StructMember) :
    (changed changes).finalize name members = (none, changed changes)
  known {name : String} {id : UInt32} (h : (changed changes).lookup name = some id)
    (members : List StructMember) :
      ((changed changes).finalize name members).1 = some id ∧
      (∀ other, Structs.entry? ((changed changes).finalize name members).2 other =
        if other = id then some ⟨name, members⟩ else Structs.entry? (changed changes) other) ∧
      ((changed changes).finalize name members).2.lookup = (changed changes).lookup ∧
      ((changed changes).finalize name members).2.size = (changed changes).size
  absent {id : UInt32} : Structs.entry? (changed changes) id = none ↔ ∀ name, ¬HandedOut changes name id

/-! ### One change -/

variable {s : Structs} {changes : List Change} {name : String} {id : UInt32} {place : Nat}

/-- **A change adds the name that it opens.** -/
theorem names_change (s : Structs) (c : Change) : (s.change c).names = s.names ++ c.opens?.toList := by
  cases c with
  | register name => exact s.names_register name
  | finalize name members =>
      rw [Change.opens?, Option.toList_none, List.append_nil]
      exact s.names_finalize name members

/-- The newest struct of a name is at the greatest place of the name. -/
theorem placeNamed_eq_some_iff : s.placeNamed name = some place ↔
    s.names[place]? = some name ∧ ∀ i, s.names[i]? = some name → i ≤ place := by
  rw [placeNamed_eq, lastIndex_eq_some_iff_le]
  simp only [beq_iff_eq, exists_eq_right]
  refine and_congr_right' ⟨fun hall i hi => hall i name hi rfl, fun hall i text hi heq => ?_⟩
  exact hall i (heq ▸ hi)

theorem placeNamed_eq_none_iff : s.placeNamed name = none ↔ name ∉ s.names := by
  rw [placeNamed_eq, lastIndex_eq_none_iff]
  simp only [beq_eq_false_iff_ne]
  exact ⟨fun hall hmem => hall name hmem rfl, fun hne x hx heq => hne (heq ▸ hx)⟩

/-- There is a struct with a number if the number is that of a place. -/
theorem entry?_eq_none_iff (hfits : s.size ≤ capacity) :
    s.entry? id = none ↔ ∀ i, i < s.size → idOf i ≠ id := by
  constructor
  · rintro h i hi rfl
    rw [ entry?_idOf s (Nat.lt_of_lt_of_le hi hfits)] at h
    exact Nat.not_le.2 hi (Array.getElem?_eq_none_iff.1 h)
  · intro hall
    by_contra h
    obtain ⟨e, he⟩ := Option.ne_none_iff_exists'.1 h
    obtain ⟨i, hid, hi⟩ := exists_place_of_entry? he
    exact hall i (lt_size hi) hid

/-- Closing a struct of a name that has none changes nothing. -/
theorem finalize_of_placeNamed (h : s.placeNamed name = none) (members : List StructMember) :
    s.finalize name members = (none, s) := by
  rw [finalize, h]

theorem fst_finalize (s : Structs) (name : String) (members : List StructMember) :
    (s.finalize name members).1 = s.lookup name := by
  unfold finalize lookup
  cases s.placeNamed name <;> rfl

/-- Numbers of base types come before those of structs. -/
theorem toNat_id_lt (b : BaseType) : b.id.toNat < firstStructId.toNat := by
  cases b <;> decide

/-! ### All changes -/

/-- **The names in the catalogue are those that were opened.** -/
theorem names_changed (changes : List Change) : (changed changes).names = opened changes := by
  induction changes using List.reverseRecOn with
  | nil => rfl
  | append_singleton changes c ih =>
      have hopened : opened (changes ++ [c]) = opened changes ++ c.opens?.toList := by
        cases c <;> simp [opened, Change.opens?]
      rw [changed, List.foldl_append, hopened, ← ih]
      exact names_change _ c

theorem size_changed (changes : List Change) : (changed changes).size = (opened changes).length := by
  rw [← names_changed, length_names]

theorem mem_opened : name ∈ opened changes ↔ .register name ∈ changes := by
  rw [opened, List.mem_filterMap]
  constructor
  · rintro ⟨c, hc, hname⟩
    cases c with
    | finalize => contradiction
    | register other =>
        obtain rfl := Option.some.inj hname
        exact hc
  · intro h
    exact ⟨_, h, rfl⟩

/-- The place of a struct is the count of those opened before it. -/
theorem getElem?_opened_iff : (opened changes)[place]? = some name ↔
    ∃ front rest, changes = front ++ .register name :: rest ∧ (opened front).length = place := by
  rw [opened, getElem?_filterMap_eq_some_iff]
  constructor
  · rintro ⟨front, c, rest, hchanges, hc, hlength⟩
    cases c with
    | finalize => contradiction
    | register other =>
        obtain rfl := Option.some.inj hc
        exact ⟨front, rest, hchanges, hlength⟩
  · rintro ⟨front, rest, hchanges, hlength⟩
    exact ⟨front, _, rest, hchanges, rfl, hlength⟩

theorem fst_register (changes : List Change) (name : String) :
    ((changed changes).register name).1 = idOf (opened changes).length := by
  rw [← size_changed]
  rfl

/-- **A number that was given to a name is that of a place of the name.** -/
theorem handedOut_iff :
    HandedOut changes name id ↔ ∃ place, (opened changes)[place]? = some name ∧ idOf place = id := by
  simp only [HandedOut, getElem?_opened_iff, fst_register]
  constructor
  · rintro ⟨front, rest, hchanges, hid⟩
    exact ⟨_, ⟨front, rest, hchanges, rfl⟩, hid⟩
  · rintro ⟨place, ⟨front, rest, hchanges, rfl⟩, hid⟩
    exact ⟨front, rest, hchanges, hid⟩

theorem length_opened_lt {front rest : List Change} (h : changes = front ++ .register name :: rest) :
    (opened front).length < (opened changes).length :=
  (List.getElem?_eq_some_iff.1 (getElem?_opened_iff.2 ⟨front, rest, h, rfl⟩)).1

/-- Of two structs the one that is opened later comes later. -/
theorem length_opened_ne {front rest front' rest' : List Change} {name' : String}
    (h : changes = front ++ .register name :: rest) (h' : changes = front' ++ .register name' :: rest')
    (hne : front.length ≠ front'.length) : (opened front).length ≠ (opened front').length := by
  have hlt {front rest front' rest' : List Change} {name name' : String}
      (h : changes = front ++ .register name :: rest) (h' : changes = front' ++ .register name' :: rest')
      (hlt : front.length < front'.length) : (opened front).length < (opened front').length := by
    -- the shorter front and its struct come first in the longer front
    have hfront : front ++ [.register name] <+: changes := ⟨rest, by simp [h]⟩
    have hle : (front ++ [Change.register name]).length ≤ front'.length := by
      rw [List.length_append]
      exact hlt
    obtain ⟨between, hbetween⟩ := List.prefix_of_prefix_length_le hfront ⟨_, h'.symm⟩ hle
    exact length_opened_lt (by rw [← hbetween, List.append_assoc]; rfl)
  rcases Nat.lt_or_gt_of_ne hne with hless | hmore
  · exact Nat.ne_of_lt (hlt h h' hless)
  · exact Nat.ne_of_gt (hlt h' h hmore)

theorem idOf_le_idOf {i j : Nat} (hj : j < capacity) (h : i ≤ j) : idOf i ≤ idOf j := by
  rw [UInt32.le_iff_toNat_le, toNat_idOf hj, toNat_idOf (Nat.lt_of_le_of_lt h hj)]
  exact Nat.add_le_add_left h _

theorem le_of_idOf_le {i j : Nat} (hi : i < capacity) (hj : j < capacity) (h : idOf i ≤ idOf j) :
    i ≤ j := by
  rw [UInt32.le_iff_toNat_le, toNat_idOf hi, toNat_idOf hj] at h
  exact Nat.le_of_add_le_add_left h

/-- **A name stands for the struct of that name with the greatest number.** -/
theorem lookup_changed (hfits : (opened changes).length ≤ capacity) :
    (changed changes).lookup name = some id ↔
      HandedOut changes name id ∧ ∀ other, HandedOut changes name other → other ≤ id := by
  have hlt {i : Nat} (hi : (opened changes)[i]? = some name) : i < capacity :=
    Nat.lt_of_lt_of_le (List.getElem?_eq_some_iff.1 hi).1 hfits
  simp only [lookup, Option.map_eq_some_iff, placeNamed_eq_some_iff, names_changed, handedOut_iff]
  constructor
  · rintro ⟨place, ⟨hplace, hgreatest⟩, rfl⟩
    refine ⟨⟨place, hplace, rfl⟩, ?_⟩
    rintro _ ⟨i, hi, rfl⟩
    exact idOf_le_idOf (hlt hplace) (hgreatest i hi)
  · rintro ⟨⟨place, hplace, rfl⟩, hgreatest⟩
    exact ⟨place, ⟨hplace, fun i hi => le_of_idOf_le (hlt hi) (hlt hplace) (hgreatest _ ⟨i, hi, rfl⟩)⟩, rfl⟩

/-- **Struct numbers are fresh and stable, and a name stands for the struct of that name with the
greatest number**, as long as there are numbers left. -/
theorem numbered_changed (changes : List Change) (hfits : (opened changes).length < capacity) :
    Numbered changes := by
  have hsize : (changed changes).size ≤ capacity := by
    rw [size_changed]
    exact Nat.le_of_lt hfits
  have hnumber {front rest : List Change} {name : String}
      (h : changes = front ++ .register name :: rest) : (opened front).length < capacity :=
    Nat.lt_trans (length_opened_lt h) hfits
  constructor
  case number =>
    intro front rest name h
    rw [fst_register, toNat_idOf (hnumber h)]
  case builtIn =>
    rintro name _ ⟨front, rest, h, rfl⟩ b heq
    have hlt := toNat_id_lt b
    rw [heq, fst_register, toNat_idOf (hnumber h)] at hlt
    omega
  case distinct =>
    intro front rest front' rest' name name' h h' hne heq
    rw [fst_register, fst_register] at heq
    exact length_opened_ne h h' hne (idOf_inj (hnumber h) (hnumber h') heq)
  case nameOf =>
    intro name id h
    obtain ⟨place, hplace, rfl⟩ := handedOut_iff.1 h
    have hlt := (List.getElem?_eq_some_iff.1 hplace).1
    rw [nameOf_idOf_eq _ (Nat.lt_trans hlt hfits), names_changed, hplace]
  case lookup => exact lookup_changed (Nat.le_of_lt hfits)
  case unnamed =>
    intro name
    rw [lookup, Option.map_eq_none_iff, placeNamed_eq_none_iff, names_changed, mem_opened]
  case unknown =>
    intro name h members
    refine finalize_of_placeNamed (placeNamed_eq_none_iff.2 ?_) members
    rwa [names_changed, mem_opened]
  case known =>
    intro name id h members
    obtain ⟨place, hplace, rfl⟩ := Option.map_eq_some_iff.1 h
    exact ⟨(fst_finalize ..).trans h, entry?_finalize _ _ hplace hsize members,
      lookup_finalize .., size_finalize ..⟩
  case absent =>
    intro id
    simp only [ entry?_eq_none_iff hsize, size_changed, handedOut_iff]
    constructor
    · rintro hall name ⟨place, hplace, hid⟩
      exact hall place (List.getElem?_eq_some_iff.1 hplace).1 hid
    · intro hall i hi hid
      exact hall _ ⟨i, List.getElem?_eq_getElem hi, hid⟩

/-- A struct opens, closes, and opens again, with another one between. -/
def reopened : List Change :=
  [.register "Light", .finalize "Light" [⟨"color", .scalar .float, none⟩], .register "Camera",
    .register "Light", .finalize "Fog" []]

/-- The name stands for the newer struct, which has no members yet; the older one keeps its own. -/
theorem numbered_changed_reopened :
    (opened reopened).length < capacity ∧ Numbered reopened ∧
      (changed reopened).lookup "Light" = some 258 ∧
      (changed reopened).entries =
        #[⟨"Light", [⟨"color", .scalar .float, none⟩]⟩, ⟨"Camera", []⟩, ⟨"Light", []⟩] := by
  have hfits : (opened reopened).length < capacity := by decide
  exact ⟨hfits, numbered_changed reopened hfits, by decide +kernel⟩

end Structs

end ShaderLang
