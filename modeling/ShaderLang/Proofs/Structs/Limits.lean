/-
**Where offsets and sizes end.**

The members of a struct have offsets as long as each member has a size and ends within thirty-two bits.
The size of the struct asks for more.  It is filled up to the boundary, and may not fit any more when
the last member still does (`ShaderLang.Structs.not_sized_where_laid_out`); and it counts the levels
inside from the struct itself.  These two are all that can be missing.

Main results:

* `ShaderLang.Structs.sizeWithin_of_nested` — a size that is found is found within every depth in which
  all that is inside lies;
* `ShaderLang.Structs.isSome_sizeOf_iff` — **a struct has a size exactly if it has offsets, nothing lies
  too deep and the end of its last member can be filled up**.
-/

import ShaderLang.Proofs.Structs.Size

set_option relaxedAutoImplicit false
set_option autoImplicit false

namespace ShaderLang.Structs

variable {s : Structs} {t : DataType}

/-- A size that is found is found within every depth in which all that is inside lies. -/
theorem sizeWithin_of_nested {depth less n : Nat} (h : s.sizeWithin depth t = some n)
    (hinside : ∀ levels u, s.Nested levels t u → levels < less) : s.sizeWithin less t = some n := by
  obtain ⟨hknown, hfits⟩ := isSome_sizeWithin_iff.1 (h ▸ rfl : (s.sizeWithin depth t).isSome)
  have hfound : (s.sizeWithin less t).isSome :=
    isSome_sizeWithin (fun levels u hu => ⟨hinside levels u hu, (hknown levels u hu).2⟩) hfits
  obtain ⟨m, hm⟩ := Option.isSome_iff_exists.1 hfound
  rw [hm, (measures_of_sizeWithin hm).unique (measures_of_sizeWithin h)]

/-- Where members are placed is where the struct has them. -/
theorem placements_eq {entry : StructEntry} {ps : List Placement} {last : Nat}
    (hentry : s.entry? t.base = some entry)
    (hplaced : placeAll s.sizeOf 0 entry.members = some (ps, last)) : s.placements t = some ps := by
  simp only [placements, hentry, hplaced, Option.bind_eq_bind, Option.bind_some]

/-- A struct whose last member ends so close to the bound that it cannot be filled up has offsets and
no size. -/
theorem not_sized_where_laid_out :
    let s := ((empty.register "Table").2.finalize "Table"
      [⟨"rows", .scalar .float, some 1073741823⟩]).2
    (DataType.struct 256).isStruct ∧ s.layout (.struct 256) = some [("rows", 0)] ∧
      s.sizeOf (.struct 256) = none := by
  decide +kernel

/-- **A struct has a size exactly if it has offsets, nothing lies too deep and the end of its last member
can be filled up.** -/
theorem isSome_sizeOf_iff (s : Structs) (t : DataType) (ht : t.isStruct) :
    (s.sizeOf t).isSome ↔
      (s.layout t).isSome ∧ (∀ levels u, s.Nested levels t u → levels ≤ 64) ∧
        ∀ ps last, s.placements t = some ps → (ends 0 ps).getLast? = some last →
          roundUp last < UInt32.size := by
  constructor
  · intro hsize
    obtain ⟨size, hsome⟩ := Option.isSome_iff_exists.1 hsize
    rw [sizeOf, sizeWithin_struct ht] at hsome
    obtain ⟨entry, hentry, hsome⟩ := Option.bind_eq_some_iff.1 hsome
    obtain ⟨⟨ps, last⟩, hinner, halign⟩ := Option.bind_eq_some_iff.1 hsome
    have hplaced : placeAll s.sizeOf 0 entry.members = some (ps, last) :=
      placeAll_mono (fun _ _ _ => s.sizeWithin_mono (Nat.le_succ _)) hinner
    have hplaces := placements_eq hentry hplaced
    refine ⟨?_, fun levels u hu => Nat.le_of_lt_succ (hu.lt_depth hsize), ?_⟩
    · simp only [layout, hentry, hplaces, Option.bind_eq_bind, Option.bind_some, Option.isSome_some]
    · intro qs stop hqs hstop
      obtain rfl := Option.some.inj (hplaces.symm.trans hqs)
      obtain rfl := Option.some.inj ((placeAll_eq_some hplaced).2.2.symm.trans hstop)
      exact (fits_eq_some_iff.1 halign).2
  · rintro ⟨hlayout, hinside, hfits⟩
    obtain ⟨entry, ps, last, hentry, hplaces, hplaced⟩ := exists_placed_of_layout hlayout
    -- the offsets are found with one level more for the members than the size has
    have hmembers : placeAll (s.sizeWithin deepest) 0 entry.members = some (ps, last) := by
      refine placeAll_mono (fun m hm n hn => ?_) hplaced
      have hmember : s.HasMember t m.type := ⟨ht, entry, hentry, m, hm, rfl⟩
      exact sizeWithin_of_nested hn fun levels u hu => hinside (levels + 1) u (.deeper hmember hu)
    have hlast := hfits ps last hplaces (placeAll_eq_some hplaced).2.2
    rw [sizeOf, sizeWithin_struct ht, hentry, Option.bind_some, hmembers, Option.bind_some, align,
      fits_of_lt hlast]
    rfl

/-- A struct that can just be filled up. -/
theorem isSome_sizeOf_iff_brim :
    let s := ((empty.register "Table").2.finalize "Table"
      [⟨"rows", .scalar .float, some 1073741817⟩]).2
    (DataType.struct 256).isStruct ∧ s.sizeOf (.struct 256) = some 4294967280 ∧
      s.layout (.struct 256) = some [("rows", 0)] ∧
      (∀ levels u, s.Nested levels (.struct 256) u → levels ≤ 64) ∧
      ∀ ps last, s.placements (.struct 256) = some ps → (ends 0 ps).getLast? = some last →
        roundUp last < UInt32.size := by
  intro s
  have hstruct : (DataType.struct 256).isStruct := by decide
  have hsize : s.sizeOf (.struct 256) = some 4294967280 := by decide +kernel
  have hlimits := (isSome_sizeOf_iff s (.struct 256) hstruct).1 (hsize ▸ rfl)
  exact ⟨hstruct, hsize, by decide +kernel, hlimits.2⟩

end ShaderLang.Structs
