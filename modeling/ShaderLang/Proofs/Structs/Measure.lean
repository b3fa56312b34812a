/-
**What a type measures.**

The bytes of a type in whole numbers without a bound.  A type that is not a struct measures the bytes
of its base times its extents.  The members of a struct lie behind one another, each from where the
one before it ends or, for a vector or matrix, from the next boundary; the struct is filled up to the
next boundary.  A struct may contain itself, so this is no recursion: a type that measures nothing is
one for which no measure can be derived.

Main definitions:

* `ShaderLang.Structs.stack` — where the last of some members ends, in whole numbers;
* `ShaderLang.Structs.Measures` — **what a type measures**;
* `ShaderLang.Structs.Occurs` — the numbers that occur on the way.

Main results:

* `ShaderLang.Structs.Measures.unique` — a type has one measure at most;
* `ShaderLang.Structs.exists_stack_of_placeAll`, `ShaderLang.Structs.exists_placeAll`,
  `ShaderLang.Structs.stackNumbers_lt` — placing members in thirty-two bits is stacking them, and it is
  done as long as the numbers that occur fit;
* `ShaderLang.Structs.measures_of_sizeWithin` — a size found within any depth is the measure.
-/

import ShaderLang.Proofs.Structs.Packing

set_option relaxedAutoImplicit false
set_option autoImplicit false

namespace ShaderLang.Structs

/-! ### Members behind one another -/

/-- Where a member begins if the one before it ends at `stop`. -/
def beginOf (m : StructMember) (stop : Nat) : Nat := if m.type.isPacked then roundUp stop else stop

/-- The bytes from one element of a member to the next, one value taking `size` bytes. -/
def strideOf (m : StructMember) (size : Nat) : Nat :=
  if m.count.isSome && m.type.isPacked then roundUp size else size

/-- Where the last of some members ends, the first one placed from `start` on.  Beside each member
stand the bytes of one value. -/
def stack (start : Nat) : List (StructMember × Nat) → Nat
  | [] => start
  | (m, size) :: parts => stack (beginOf m start + spread m size) parts

/-- The numbers that occur where members are stacked: for each member where it begins, its stride, its
bytes and where it ends. -/
def stackNumbers (start : Nat) : List (StructMember × Nat) → List Nat
  | [] => []
  | (m, size) :: parts =>
      let stop := beginOf m start + spread m size
      beginOf m start :: strideOf m size :: spread m size :: stop :: stackNumbers stop parts

variable {f : DataType → Option Nat} {ms : List StructMember} {start last : Nat}

/-- Members that are placed are stacked. -/
theorem exists_stack_of_placeAll {ps : List Placement} (h : placeAll f start ms = some (ps, last)) :
    ∃ parts : List (StructMember × Nat), parts.map Prod.fst = ms ∧
      (∀ p ∈ parts, f p.1.type = some p.2) ∧ stack start parts = last := by
  induction ms generalizing start ps last with
  | nil =>
      obtain ⟨-, rfl⟩ := Prod.mk.inj (Option.some.inj h)
      exact ⟨[], rfl, nofun, rfl⟩
  | cons m ms ih =>
      simp only [placeAll, Option.bind_eq_bind, Option.bind_eq_some_iff, Option.some.injEq,
        Prod.mk.injEq] at h
      obtain ⟨size, hsize, p, hp, stop, hstop, ⟨qs, last'⟩, hrest, -, rfl⟩ := h
      obtain ⟨rfl, -⟩ := fits_eq_some_iff.1 hstop
      obtain ⟨hoffset, hfootprint⟩ := place_eq_some hp
      obtain ⟨parts, rfl, hsizes, rfl⟩ := ih hrest
      refine ⟨(m, size) :: parts, rfl, List.forall_mem_cons.2 ⟨hsize, hsizes⟩, ?_⟩
      rw [stack, beginOf, ← hoffset, ← hfootprint, Placement.stop]

theorem fits_of_lt {n : Nat} (h : n < UInt32.size) : fits n = some n := if_pos h

/-- A member is placed if the numbers that occur fit. -/
theorem place_of_lt {m : StructMember} {size : Nat} (hbegin : beginOf m start < UInt32.size)
    (hstride : strideOf m size < UInt32.size) (hspread : spread m size < UInt32.size) :
    place m size start = some ⟨beginOf m start, spread m size⟩ := by
  have hfootprint : footprint m size = some (spread m size) := by
    unfold footprint spread strideOf at *
    cases hcount : m.count with
    | none => rfl
    | some count =>
        simp only [hcount, Option.isSome_some, Bool.true_and] at hstride hspread ⊢
        split <;> simp_all [align, fits_of_lt]
  unfold place
  rw [hfootprint]
  unfold beginOf at hbegin ⊢
  split <;> simp_all [align, fits_of_lt]

/-- Members are placed if their sizes are known and the numbers that occur fit. -/
theorem exists_placeAll {parts : List (StructMember × Nat)}
    (hsizes : ∀ p ∈ parts, f p.1.type = some p.2)
    (hfits : ∀ v ∈ stackNumbers start parts, v < UInt32.size) :
    ∃ ps, placeAll f start (parts.map Prod.fst) = some (ps, stack start parts) := by
  induction parts generalizing start with
  | nil => exact ⟨[], rfl⟩
  | cons part parts ih =>
      obtain ⟨m, size⟩ := part
      obtain ⟨hsize, hsizes⟩ := List.forall_mem_cons.1 hsizes
      simp only [stackNumbers, List.forall_mem_cons] at hfits
      obtain ⟨hbegin, hstride, hspread, hstop, hfits⟩ := hfits
      obtain ⟨ps, hps⟩ := ih hsizes hfits
      refine ⟨⟨beginOf m start, spread m size⟩ :: ps, ?_⟩
      simp only [List.map_cons, placeAll, hsize, place_of_lt hbegin hstride hspread, Placement.stop,
        fits_of_lt hstop, hps, stack, Option.bind_eq_bind, Option.bind_some]

/-- Where a member is placed, the numbers that occur fit. -/
theorem lt_of_place {m : StructMember} {size : Nat} {p : Placement} (hstart : start < UInt32.size)
    (hsize : size < UInt32.size) (h : place m size start = some p) :
    beginOf m start < UInt32.size ∧ strideOf m size < UInt32.size ∧ spread m size < UInt32.size := by
  obtain ⟨offset, hoffset, hrest⟩ := Option.bind_eq_some_iff.1 h
  obtain ⟨bytes, hbytes, -⟩ := Option.map_eq_some_iff.1 hrest
  refine ⟨?_, ?_⟩
  · unfold beginOf
    split at hoffset
    · next hpacked =>
        obtain ⟨rfl, hlt⟩ := fits_eq_some_iff.1 hoffset
        rwa [if_pos hpacked]
    · next hpacked => rwa [if_neg hpacked]
  · unfold footprint at hbytes
    unfold strideOf spread
    cases hcount : m.count with
    | none => simpa using hsize
    | some count =>
        rw [hcount] at hbytes
        obtain ⟨stride, hstride, hspread⟩ := Option.bind_eq_some_iff.1 hbytes
        obtain ⟨-, hspread⟩ := fits_eq_some_iff.1 hspread
        split at hstride
        · next hpacked =>
            obtain ⟨rfl, hlt⟩ := fits_eq_some_iff.1 hstride
            simpa [hpacked] using ⟨hlt, hspread⟩
        · next hpacked =>
            obtain rfl := Option.some.inj hstride
            simpa [hpacked] using ⟨hsize, hspread⟩

/-- Where members are placed, the numbers that occur fit. -/
theorem stackNumbers_lt {parts : List (StructMember × Nat)} {r : List Placement × Nat}
    (hstart : start < UInt32.size)
    (hsizes : ∀ p ∈ parts, f p.1.type = some p.2 ∧ p.2 < UInt32.size)
    (h : placeAll f start (parts.map Prod.fst) = some r) :
    ∀ v ∈ stackNumbers start parts, v < UInt32.size := by
  induction parts generalizing start r with
  | nil => exact nofun
  | cons part parts ih =>
      obtain ⟨m, size⟩ := part
      obtain ⟨⟨hsize, hlt⟩, hsizes⟩ := List.forall_mem_cons.1 hsizes
      simp only [List.map_cons, placeAll, hsize, Option.bind_eq_bind, Option.bind_some,
        Option.bind_eq_some_iff] at h
      obtain ⟨p, hp, stop, hfits, r', hrest, -⟩ := h
      obtain ⟨rfl, hstop⟩ := fits_eq_some_iff.1 hfits
      obtain ⟨hbegin, hstride, hspread⟩ := lt_of_place hstart hlt hp
      have hend : p.stop = beginOf m start + spread m size := by
        obtain ⟨hoffset, hfootprint⟩ := place_eq_some hp
        rw [Placement.stop, hoffset, hfootprint, beginOf]
      rw [hend] at hstop hrest
      simp only [stackNumbers, List.forall_mem_cons]
      exact ⟨hbegin, hstride, hspread, hstop, ih hstop hsizes hrest⟩

/-! ### The measure -/

/-- The type measures so many bytes. -/
inductive Measures (s : Structs) : DataType → Nat → Prop where
  | plain {t : DataType} {b : BaseType} {bytes : Nat} (ht : t.isStruct = false)
      (hbase : t.baseType = some b) (hbytes : b.size = some bytes) :
      Measures s t (bytes * t.dim0.count * t.dim1.count)
  | struct {t : DataType} {entry : StructEntry} {parts : List (StructMember × Nat)}
      (ht : t.isStruct = true) (hentry : s.entry? t.base = some entry)
      (hmembers : parts.map Prod.fst = entry.members)
      (hsizes : ∀ p ∈ parts, Measures s p.1.type p.2) : Measures s t (roundUp (stack 0 parts))

/-- A member of the struct that the first type is has the second type. -/
def HasMember (s : Structs) (t u : DataType) : Prop :=
  t.isStruct = true ∧ ∃ entry, s.entry? t.base = some entry ∧ ∃ m ∈ entry.members, m.type = u

/-- The number occurs where the type is measured. -/
inductive Occurs (s : Structs) : DataType → Nat → Prop where
  | row {t : DataType} {b : BaseType} {bytes : Nat} (ht : t.isStruct = false)
      (hbase : t.baseType = some b) (hbytes : b.size = some bytes) :
      Occurs s t (bytes * t.dim0.count)
  | member {t : DataType} {entry : StructEntry} {parts : List (StructMember × Nat)} {n : Nat}
      (ht : t.isStruct = true) (hentry : s.entry? t.base = some entry)
      (hmembers : parts.map Prod.fst = entry.members)
      (hsizes : ∀ p ∈ parts, Measures s p.1.type p.2) (hn : n ∈ stackNumbers 0 parts) :
      Occurs s t n
  | total {t : DataType} {n : Nat} (h : Measures s t n) : Occurs s t n
  | inside {t u : DataType} {n : Nat} (hu : s.HasMember t u) (hn : Occurs s u n) : Occurs s t n

variable {s : Structs} {t : DataType}

/-- Members with one size each at most have the same sizes. -/
theorem eq_of_sizes {P : StructMember → Nat → Prop} {parts others : List (StructMember × Nat)}
    (hunique : ∀ p ∈ parts, ∀ n, P p.1 n → p.2 = n) (hothers : ∀ p ∈ others, P p.1 p.2)
    (hmembers : parts.map Prod.fst = others.map Prod.fst) : parts = others := by
  induction parts generalizing others with
  | nil => exact (List.map_eq_nil_iff.1 hmembers.symm).symm
  | cons p parts ih =>
      cases others with
      | nil => contradiction
      | cons q others =>
          obtain ⟨hfst, hrest⟩ := List.cons.inj hmembers
          obtain ⟨hp, hunique⟩ := List.forall_mem_cons.1 hunique
          obtain ⟨hq, hothers⟩ := List.forall_mem_cons.1 hothers
          have hsnd : p.2 = q.2 := hp q.2 (hfst ▸ hq)
          rw [ih hunique hothers hrest, Prod.ext hfst hsnd]

/-- A type has one measure at most. -/
theorem Measures.unique {n m : Nat} (h : s.Measures t n) (h' : s.Measures t m) : n = m := by
  induction h generalizing m with
  | plain ht hbase hbytes =>
      cases h' with
      | plain _ hbase' hbytes' =>
          obtain rfl := Option.some.inj (hbase.symm.trans hbase')
          obtain rfl := Option.some.inj (hbytes.symm.trans hbytes')
          rfl
      | struct ht' => rw [ht] at ht'; contradiction
  | struct ht hentry hmembers _ ih =>
      cases h' with
      | plain ht' => rw [ht] at ht'; contradiction
      | struct _ hentry' hmembers' hsizes' =>
          obtain rfl := Option.some.inj (hentry.symm.trans hentry')
          have hsame := hmembers.trans hmembers'.symm
          rw [eq_of_sizes (P := fun m n => s.Measures m.type n) (fun p hp _ hn => ih p hp hn) hsizes'
            hsame]

/-- The size of a type that is not a struct is its measure. -/
theorem measures_of_plainSize {n : Nat} (ht : t.isStruct = false) (h : plainSize t = some n) :
    s.Measures t n := by
  simp only [plainSize, Option.bind_eq_bind, Option.bind_eq_some_iff] at h
  obtain ⟨b, hbase, bytes, hbytes, row, hrow, hn⟩ := h
  obtain ⟨rfl, -⟩ := fits_eq_some_iff.1 hrow
  obtain ⟨rfl, -⟩ := fits_eq_some_iff.1 hn
  exact .plain ht hbase hbytes

/-- A size found within any depth is the measure. -/
theorem measures_of_sizeWithin {depth n : Nat} (h : s.sizeWithin depth t = some n) :
    s.Measures t n := by
  induction depth generalizing t n with
  | zero => contradiction
  | succ depth ih =>
      rw [sizeWithin] at h
      cases ht : t.isStruct with
      | false =>
          rw [if_neg (ht ▸ Bool.false_ne_true)] at h
          exact measures_of_plainSize ht h
      | true =>
          rw [if_pos ht] at h
          simp only [Option.bind_eq_bind, Option.bind_eq_some_iff] at h
          obtain ⟨entry, hentry, ⟨ps, last⟩, hplaced, halign⟩ := h
          obtain ⟨rfl, -⟩ := fits_eq_some_iff.1 halign
          obtain ⟨parts, hmembers, hsizes, rfl⟩ := exists_stack_of_placeAll hplaced
          exact .struct ht hentry hmembers fun p hp => ih (hsizes p hp)

end ShaderLang.Structs
