/-
**Members of a struct do not overlap.**

The offsets of a struct's members and its size come from two walks: one over the members of the
struct itself, one that begins a level deeper because it may meet the struct inside another one.
Where the size exists the walks agree: a size found within some depth is found within every greater
depth (`ShaderLang.Structs.sizeWithin_mono`).

Main definitions:

* `ShaderLang.Structs.footprintOf` — the bytes of a member, in whole numbers without a bound;
* `ShaderLang.Structs.ends` — where each member could begin at the earliest, and where the last ends;
* `ShaderLang.Structs.Packed` — members that lie behind one another without needless room.

Main results:

* `ShaderLang.Structs.packed_of_placeAll` — placing members one behind the other packs them;
* `ShaderLang.Structs.layout_packed` — **a struct with a size has a layout, and the layout packs its
  members into that size**.
-/

import ShaderLang.Structs.Layout

set_option relaxedAutoImplicit false
set_option autoImplicit false

namespace ShaderLang.Structs

/-! ### More depth finds the same sizes -/

theorem placeAll_mono {f g : DataType → Option Nat} {ms : List StructMember} {start : Nat}
    {r : List Placement × Nat} (hfg : ∀ m ∈ ms, ∀ n, f m.type = some n → g m.type = some n)
    (h : placeAll f start ms = some r) : placeAll g start ms = some r := by
  induction ms generalizing start r with
  | nil => exact h
  | cons m ms ih =>
      obtain ⟨hm, hfg⟩ := List.forall_mem_cons.1 hfg
      simp only [placeAll, Option.bind_eq_bind, Option.bind_eq_some_iff] at h ⊢
      obtain ⟨bytes, hbytes, p, hp, stop, hstop, ⟨ps, last⟩, hrest, hr⟩ := h
      exact ⟨bytes, hm bytes hbytes, p, hp, stop, hstop, (ps, last), ih hfg hrest, hr⟩

/-- A size found within some depth is found within one level more. -/
theorem sizeWithin_succ (s : Structs) : ∀ {depth : Nat} {t : DataType} {n : Nat},
    s.sizeWithin depth t = some n → s.sizeWithin (depth + 1) t = some n := by
  intro depth
  induction depth with
  | zero => intro t n h; exact absurd h (by simp [sizeWithin])
  | succ depth ih =>
      intro t n h
      rw [sizeWithin] at h ⊢
      by_cases ht : t.isStruct = true
      · rw [if_pos ht] at h ⊢
        simp only [Option.bind_eq_bind, Option.bind_eq_some_iff] at h ⊢
        obtain ⟨entry, hentry, ⟨ps, stop⟩, hps, hn⟩ := h
        exact ⟨entry, hentry, (ps, stop), placeAll_mono (fun _ _ _ => ih) hps, hn⟩
      · rw [if_neg ht] at h ⊢
        exact h

theorem sizeWithin_mono (s : Structs) {d e : Nat} (hde : d ≤ e) {t : DataType} {n : Nat}
    (h : s.sizeWithin d t = some n) : s.sizeWithin e t = some n := by
  induction hde with
  | refl => exact h
  | step _ ih => exact s.sizeWithin_succ ih

/-! ### Packed members -/

/-- The bytes that a member takes when one value takes `size` bytes.  Every element of an array of
vectors or matrices is filled up to the boundary. -/
def spread (m : StructMember) (size : Nat) : Nat :=
  match m.count with
  | none => size
  | some count => (if m.type.isPacked then roundUp size else size) * count.toNat

/-- The bytes that a member takes. -/
def footprintOf (s : Structs) (m : StructMember) : Option Nat := (s.sizeOf m.type).map (spread m)

/-- Where each member could begin at the earliest, the first one from `start` on, and behind these
where the last one ends. -/
def ends (start : Nat) (ps : List Placement) : List Nat := start :: ps.map Placement.stop

theorem ends_cons (start : Nat) (p : Placement) (ps : List Placement) :
    ends start (p :: ps) = start :: ends p.stop ps := rfl

/-- The members lie in order and do not overlap, vectors and matrices lie on the boundary, nothing
else leaves room before it, and the size leaves less than one boundary at the end. -/
structure Packed (s : Structs) (members : List StructMember) (ps : List Placement) (size : Nat) :
    Prop where
  footprints : members.map s.footprintOf = ps.map fun p => some p.footprint
  inOrder : ∀ (i : Nat) (p q : Placement),
    ps[i]? = some p → ps[i + 1]? = some q → p.offset + p.footprint ≤ q.offset
  onBoundary : ∀ (i : Nat) (m : StructMember) (p : Placement),
    members[i]? = some m → ps[i]? = some p → m.type.isPacked → p.offset % 16 = 0
  room : ∀ (i : Nat) (m : StructMember) (p : Placement) (e : Nat),
    members[i]? = some m → ps[i]? = some p → (ends 0 ps)[i]? = some e →
      e ≤ p.offset ∧ p.offset < e + 16 ∧ (m.type.isPacked = false → p.offset = e)
  size_whole : size % 16 = 0
  size_fits : ∀ last, (ends 0 ps).getLast? = some last → last ≤ size ∧ size < last + 16

/-- A member is placed on the next boundary if it must be, and at once if not. -/
theorem place_eq_some {m : StructMember} {size start : Nat} {p : Placement}
    (h : place m size start = some p) :
    p.offset = (if m.type.isPacked then roundUp start else start) ∧ p.footprint = spread m size := by
  simp only [place, Option.bind_eq_some_iff, Option.map_eq_some_iff] at h
  obtain ⟨offset, hoffset, bytes, hbytes, rfl⟩ := h
  constructor
  · split at hoffset <;> simp_all [align, fits_eq_some_iff]
  · unfold footprint at hbytes
    unfold spread
    split at hbytes
    · next hcount => simpa [hcount] using hbytes.symm
    · next count hcount =>
        obtain ⟨stride, hstride, hfits⟩ := Option.bind_eq_some_iff.1 hbytes
        have hb := (fits_eq_some_iff.1 hfits).1
        split at hstride <;> simp_all [align, fits_eq_some_iff]

/-- What placing members one behind the other gives: each has the bytes that belong to it and lies
at the first place allowed, counted from where the one before it ends. -/
theorem placeAll_eq_some {f : DataType → Option Nat} :
    ∀ {ms : List StructMember} {start : Nat} {ps : List Placement} {last : Nat},
      placeAll f start ms = some (ps, last) →
        (ms.map fun m => (f m.type).map (spread m)) = (ps.map fun p => some p.footprint) ∧
        (∀ (i : Nat) (m : StructMember) (p : Placement) (e : Nat),
          ms[i]? = some m → ps[i]? = some p → (ends start ps)[i]? = some e →
            p.offset = if m.type.isPacked then roundUp e else e) ∧
        (ends start ps).getLast? = some last := by
  intro ms
  induction ms with
  | nil =>
      intro start ps last h
      simp only [placeAll, Option.some.injEq, Prod.mk.injEq] at h
      obtain ⟨rfl, rfl⟩ := h
      exact ⟨rfl, by simp, rfl⟩
  | cons m ms ih =>
      intro start ps last h
      simp only [placeAll, Option.bind_eq_bind, Option.bind_eq_some_iff, Option.some.injEq,
        Prod.mk.injEq] at h
      obtain ⟨bytes, hbytes, p, hp, stop, hstop, ⟨qs, last'⟩, hrest, rfl, rfl⟩ := h
      obtain ⟨rfl, -⟩ := fits_eq_some_iff.1 hstop
      obtain ⟨hoffset, hfootprint⟩ := place_eq_some hp
      obtain ⟨hfeet, hplaces, hlast⟩ := ih hrest
      refine ⟨?_, ?_, ?_⟩
      · simp only [List.map_cons, hbytes, Option.map_some, hfeet, hfootprint]
      · intro i m' p' e hm hp' he
        rw [ends_cons] at he
        cases i with
        | zero =>
            simp only [List.getElem?_cons_zero, Option.some.injEq] at hm hp' he
            subst hm hp' he
            exact hoffset
        | succ i => exact hplaces i m' p' e hm hp' he
      · rw [ends_cons, ends, List.getLast?_cons_cons, ← ends]
        exact hlast

/-- Placing members one behind the other from zero on and filling up to the boundary packs them. -/
theorem packed_of_placeAll {s : Structs} {ms : List StructMember} {ps : List Placement}
    {last : Nat} (h : placeAll s.sizeOf 0 ms = some (ps, last)) : Packed s ms ps (roundUp last) := by
  obtain ⟨hfeet, hplaces, hlast⟩ := placeAll_eq_some h
  have hlength : ms.length = ps.length := by simpa using congrArg List.length hfeet
  have hroom : ∀ (i : Nat) (m : StructMember) (p : Placement) (e : Nat),
      ms[i]? = some m → ps[i]? = some p → (ends 0 ps)[i]? = some e →
        e ≤ p.offset ∧ p.offset < e + 16 ∧ (m.type.isPacked = false → p.offset = e) := by
    intro i m p e hm hp he
    rw [hplaces i m p e hm hp he]
    have hle := le_roundUp e
    have hlt := roundUp_lt e
    unfold boundary at hlt
    split <;> simp_all
  exact
    { footprints := hfeet
      inOrder := by
        intro i p q hp hq
        have hi : i + 1 < ms.length := hlength ▸ (List.getElem?_eq_some_iff.1 hq).1
        have he : (ends 0 ps)[i + 1]? = some p.stop := by simp [ends, hp]
        exact (hroom (i + 1) _ q p.stop (List.getElem?_eq_getElem hi) hq he).1
      onBoundary := by
        intro i m p hm hp hpacked
        have hi : i < (ends 0 ps).length := by
          have := (List.getElem?_eq_some_iff.1 hp).1
          simp only [ends, List.length_cons, List.length_map]
          omega
        rw [hplaces i m p _ hm hp (List.getElem?_eq_getElem hi), if_pos hpacked]
        exact roundUp_mod _
      room := hroom
      size_whole := roundUp_mod last
      size_fits := by
        intro l hl
        rw [hlast] at hl
        obtain rfl := Option.some.inj hl
        exact ⟨le_roundUp last, roundUp_lt last⟩ }

/-- Every one of the members has a place, a size of its own and the bytes that belong to it. -/
theorem Packed.exists_placement {s : Structs} {ms : List StructMember} {ps : List Placement}
    {size i : Nat} {m : StructMember} (h : Packed s ms ps size) (hm : ms[i]? = some m) :
    ∃ p bytes, ps[i]? = some p ∧ s.sizeOf m.type = some bytes ∧ p.footprint = spread m bytes := by
  have hfoot := congrArg (·[i]?) h.footprints
  simp only [List.getElem?_map, hm, Option.map_some] at hfoot
  obtain ⟨p, hp, hbytes⟩ := Option.map_eq_some_iff.1 hfoot.symm
  obtain ⟨bytes, hsize, hspread⟩ := Option.map_eq_some_iff.1 hbytes.symm
  exact ⟨p, bytes, hp, hsize, hspread.symm⟩

/-! ### Layout and size -/

/-- A struct with a size has its members placed, and packed into that size. -/
theorem exists_packed {s : Structs} {t : DataType} {size : Nat} (ht : t.isStruct)
    (hsize : s.sizeOf t = some size) :
    ∃ (entry : StructEntry) (ps : List Placement),
      s.entry? t.base = some entry ∧ s.placements t = some ps ∧ Packed s entry.members ps size := by
  rw [sizeOf, sizeWithin, if_pos ht] at hsize
  simp only [Option.bind_eq_bind, Option.bind_eq_some_iff] at hsize
  obtain ⟨entry, hentry, ⟨ps, last⟩, hps, halign⟩ := hsize
  obtain ⟨rfl, -⟩ := fits_eq_some_iff.1 halign
  -- the walk over the struct's own members starts one level less deep
  have hplaced : placeAll s.sizeOf 0 entry.members = some (ps, last) :=
    placeAll_mono (fun _ _ _ => s.sizeWithin_mono (Nat.le_succ _)) hps
  refine ⟨entry, ps, hentry, ?_, packed_of_placeAll hplaced⟩
  simp only [placements, hentry, hplaced, Option.bind_eq_bind, Option.bind_some]

/-- The offsets are those of the places, with the names of the members. -/
theorem layout_of_placements {s : Structs} {t : DataType} {entry : StructEntry} {ps : List Placement}
    (hentry : s.entry? t.base = some entry) (hps : s.placements t = some ps) :
    s.layout t = some ((entry.members.zip ps).map fun (m, p) => (m.name, p.offset)) := by
  simp only [layout, hentry, hps, Option.bind_eq_bind, Option.bind_some, Option.some.injEq]
  rw [List.zip_map]
  rfl

/-- **A struct with a size has a layout, and the layout packs its members into that size.** -/
theorem layout_packed (s : Structs) (t : DataType) (size : Nat) (ht : t.isStruct)
    (hsize : s.sizeOf t = some size) :
    ∃ (entry : StructEntry) (ps : List Placement),
      s.entry? t.base = some entry ∧
        s.layout t = some ((entry.members.zip ps).map fun (m, p) => (m.name, p.offset)) ∧
        Packed s entry.members ps size := by
  obtain ⟨entry, ps, hentry, hps, hpacked⟩ := exists_packed ht hsize
  exact ⟨entry, ps, hentry, layout_of_placements hentry hps, hpacked⟩

/-- A struct with an array of structs, an array of scalars and a matrix, in a catalogue of two. -/
theorem layout_packed_scene :
    let light : StructEntry :=
      ⟨"Light", [⟨"power", .scalar .float, none⟩, ⟨"colors", ⟨5, some 3, none⟩, some 2⟩]⟩
    let scene : StructEntry :=
      ⟨"Scene", [⟨"count", .scalar .int, none⟩, ⟨"lights", .struct 256, some 3⟩,
        ⟨"flags", .scalar .half, some 3⟩, ⟨"view", ⟨5, some 4, some 4⟩, none⟩]⟩
    let s : Structs := ⟨#[light, scene]⟩
    (DataType.struct 257).isStruct ∧ s.sizeOf (.struct 257) = some 224 ∧
      ∃ (entry : StructEntry) (ps : List Placement),
        s.entry? 257 = some entry ∧
          s.layout (.struct 257) =
            some ((entry.members.zip ps).map fun (m, p) => (m.name, p.offset)) ∧
          Packed s entry.members ps 224 := by
  intro light scene s
  have hstruct : (DataType.struct 257).isStruct := by decide
  have hsize : s.sizeOf (.struct 257) = some 224 := by decide +kernel
  exact ⟨hstruct, hsize, layout_packed s (.struct 257) 224 hstruct hsize⟩

end ShaderLang.Structs
