/-
**The size of a type is what it measures.**

Sizes are found in thirty-two bits and by going down a bounded number of levels; measures know neither
bound.  A size that is found is the measure.  No size is found for a struct that contains itself, for
a type without a size, for a number that belongs to no type, and for whatever contains one of these.
Everything else has a size as long as structs are not nested too deep and the numbers that occur fit.

Main definitions:

* `ShaderLang.Structs.Nested` — what is reached from a type so many levels down;
* `ShaderLang.Structs.Known`, `ShaderLang.Structs.ContainsItself`, `ShaderLang.Structs.Deficient` —
  types that can be measured by themselves, structs that are found again inside, and types with
  something inside that cannot be measured.

Main results:

* `ShaderLang.Structs.Deficient.sizeWithin_eq_none` — no depth is enough for a deficient type;
* `ShaderLang.Structs.isSome_sizeWithin_iff` — a depth is enough exactly if nothing lies deeper;
* `ShaderLang.Structs.sizeOf_measured` — **the size of a type is its measure, and it is found unless
  something is missing, too deep or too large**.
-/

import ShaderLang.Proofs.Structs.Measure

set_option relaxedAutoImplicit false
set_option autoImplicit false

namespace ShaderLang.Structs

/-! ### What lies inside a type -/

/-- The second type is reached from the first by going that many times from a struct to a member. -/
inductive Nested (s : Structs) : Nat → DataType → DataType → Prop where
  | here (t : DataType) : Nested s 0 t t
  | deeper {levels : Nat} {t u v : DataType} (hu : s.HasMember t u) (hv : Nested s levels u v) :
      Nested s (levels + 1) t v

/-- The type is a struct of the catalogue, or its base has a size. -/
def Known (s : Structs) (t : DataType) : Prop :=
  (t.isStruct = true ∧ ∃ entry, s.entry? t.base = some entry) ∨
    (t.isStruct = false ∧ ∃ b bytes, t.baseType = some b ∧ b.size = some bytes)

/-- The struct is found again inside itself. -/
def ContainsItself (s : Structs) (t : DataType) : Prop :=
  ∃ levels u, s.Nested (levels + 1) t u ∧ u.base = t.base

/-- The type is, or contains, a type that is not known or contains itself. -/
def Deficient (s : Structs) (t : DataType) : Prop :=
  ∃ levels u, s.Nested levels t u ∧ (¬ s.Known u ∨ s.ContainsItself u)

variable {s : Structs} {t u v : DataType} {levels depth : Nat}

/-- What a struct contains depends on its number alone. -/
theorem HasMember.of_base (h : s.HasMember t v) (hbase : u.base = t.base) : s.HasMember u v := by
  unfold HasMember DataType.isStruct at h ⊢
  rwa [hbase]

/-- A struct that is found again inside another type contains itself there. -/
theorem ContainsItself.again (hu : s.HasMember t u) (hv : s.Nested levels u v)
    (hbase : v.base = t.base) : s.ContainsItself v :=
  ⟨levels, v, .deeper (hu.of_base hbase) hv, rfl⟩

/-- A deficient type is not known, or a member of it is deficient. -/
theorem Deficient.cases (h : s.Deficient t) :
    ¬ s.Known t ∨ ∃ u, s.HasMember t u ∧ s.Deficient u := by
  obtain ⟨levels, v, hv, hlack⟩ := h
  cases hv with
  | deeper hu hv => exact .inr ⟨_, hu, _, v, hv, hlack⟩
  | here =>
      rcases hlack with hknown | ⟨levels, w, hw, hbase⟩
      · exact .inl hknown
      · -- the member on the way back to the struct contains a struct that contains itself
        cases hw with
        | deeper hu hw => exact .inr ⟨_, hu, levels, w, hw, .inr (.again hu hw hbase)⟩

/-! ### What a size needs -/

/-- The size of a struct within some depth. -/
theorem sizeWithin_struct (ht : t.isStruct = true) (depth : Nat) :
    s.sizeWithin (depth + 1) t = (s.entry? t.base).bind fun entry =>
      (placeAll (s.sizeWithin depth) 0 entry.members).bind fun r => align r.2 := by
  rw [sizeWithin, if_pos ht]
  rfl

/-- The size of a type that is not a struct is found at once. -/
theorem sizeWithin_plain (ht : t.isStruct = false) (depth : Nat) :
    s.sizeWithin (depth + 1) t = plainSize t := by
  rw [sizeWithin, if_neg (ht ▸ Bool.false_ne_true)]

/-- Members are placed only if all of them have sizes. -/
theorem isSome_of_placeAll {f : DataType → Option Nat} {start : Nat} {ms : List StructMember}
    {r : List Placement × Nat} (h : placeAll f start ms = some r) :
    ∀ m ∈ ms, (f m.type).isSome := by
  obtain ⟨ps, last⟩ := r
  obtain ⟨parts, rfl, hsizes, -⟩ := exists_stack_of_placeAll h
  intro m hm
  obtain ⟨p, hp, rfl⟩ := List.mem_map.1 hm
  rw [hsizes p hp]
  rfl

/-- A type has a size only if it is known. -/
theorem known_of_isSome (h : (s.sizeWithin depth t).isSome) : s.Known t := by
  cases depth with
  | zero => contradiction
  | succ depth =>
      obtain ⟨n, hn⟩ := Option.isSome_iff_exists.1 h
      cases ht : t.isStruct with
      | false =>
          rw [sizeWithin_plain ht] at hn
          obtain ⟨b, hbase, hrest⟩ := Option.bind_eq_some_iff.1 hn
          obtain ⟨bytes, hbytes, -⟩ := Option.bind_eq_some_iff.1 hrest
          exact .inr ⟨ht, b, bytes, hbase, hbytes⟩
      | true =>
          rw [sizeWithin_struct ht] at hn
          obtain ⟨entry, hentry, -⟩ := Option.bind_eq_some_iff.1 hn
          exact .inl ⟨ht, entry, hentry⟩

/-- A struct has a size only if its members have sizes one level less deep. -/
theorem HasMember.isSome (hu : s.HasMember t u) (h : (s.sizeWithin depth t).isSome) :
    ∃ less, depth = less + 1 ∧ (s.sizeWithin less u).isSome := by
  obtain ⟨ht, entry, hentry, m, hm, rfl⟩ := hu
  cases depth with
  | zero => contradiction
  | succ depth =>
      obtain ⟨n, hn⟩ := Option.isSome_iff_exists.1 h
      rw [sizeWithin_struct ht, hentry, Option.bind_some] at hn
      obtain ⟨r, hplaced, -⟩ := Option.bind_eq_some_iff.1 hn
      exact ⟨depth, rfl, isSome_of_placeAll hplaced m hm⟩

/-- A type has a size only if everything inside has one so many levels less deep. -/
theorem Nested.isSome (hu : s.Nested levels t u) (h : (s.sizeWithin depth t).isSome) :
    ∃ less, depth = less + levels ∧ (s.sizeWithin less u).isSome := by
  induction hu generalizing depth with
  | here => exact ⟨depth, rfl, h⟩
  | deeper hmember _ ih =>
      obtain ⟨inner, rfl, hinner⟩ := hmember.isSome h
      obtain ⟨less, rfl, hless⟩ := ih hinner
      exact ⟨less, rfl, hless⟩

/-- Where a type has a size, everything inside lies less deep than was allowed. -/
theorem Nested.lt_depth (hu : s.Nested levels t u) (h : (s.sizeWithin depth t).isSome) :
    levels < depth := by
  obtain ⟨less, rfl, hless⟩ := hu.isSome h
  cases less with
  | zero => contradiction
  | succ less => omega

/-! ### Types without a size -/

/-- No depth is enough for a deficient type.  The induction is on the depth: a type that is known lacks
something one level down. -/
theorem Deficient.sizeWithin_eq_none (h : s.Deficient t) (depth : Nat) :
    s.sizeWithin depth t = none := by
  induction depth using Nat.strongRecOn generalizing t with
  | ind depth ih =>
      rw [← Option.not_isSome_iff_eq_none]
      intro hsize
      rcases h.cases with hknown | ⟨u, hu, hlack⟩
      · exact hknown (known_of_isSome hsize)
      · obtain ⟨less, rfl, hless⟩ := hu.isSome hsize
        rw [ih less (Nat.lt_succ_self less) hlack] at hless
        contradiction

/-- Where there are offsets there is a struct, and all its members have sizes. -/
theorem exists_placed_of_layout (h : (s.layout t).isSome) :
    ∃ entry ps last, s.entry? t.base = some entry ∧ s.placements t = some ps ∧
      placeAll s.sizeOf 0 entry.members = some (ps, last) := by
  obtain ⟨offsets, hoffsets⟩ := Option.isSome_iff_exists.1 h
  obtain ⟨entry, hentry, hrest⟩ := Option.bind_eq_some_iff.1 hoffsets
  obtain ⟨ps, hplacements, -⟩ := Option.bind_eq_some_iff.1 hrest
  have hps := hplacements
  simp only [placements, hentry, Option.bind_eq_bind, Option.bind_some,
    Option.bind_eq_some_iff, Option.some.injEq] at hps
  obtain ⟨⟨qs, last⟩, hplaced, rfl⟩ := hps
  exact ⟨entry, qs, last, hentry, hplacements, hplaced⟩

/-- Only structs have numbers in the catalogue. -/
theorem isStruct_of_entry {entry : StructEntry} (h : s.entry? t.base = some entry) :
    t.isStruct = true := by
  obtain ⟨place, hplace, -⟩ := Option.bind_eq_some_iff.1 h
  unfold placeOf at hplace
  split at hplace
  · next hle => exact decide_eq_true hle
  · contradiction

/-- A deficient type has no offsets. -/
theorem Deficient.layout_eq_none (h : s.Deficient t) : s.layout t = none := by
  rw [← Option.not_isSome_iff_eq_none]
  intro hlayout
  obtain ⟨entry, ps, last, hentry, -, hplaced⟩ := exists_placed_of_layout hlayout
  rcases h.cases with hknown | ⟨u, ⟨-, entry', hentry', m, hm, rfl⟩, hlack⟩
  · exact hknown (.inl ⟨isStruct_of_entry hentry, entry, hentry⟩)
  · obtain rfl := Option.some.inj (hentry.symm.trans hentry')
    have hsize := isSome_of_placeAll hplaced m hm
    rw [sizeOf, hlack.sizeWithin_eq_none] at hsize
    contradiction

/-! ### Types with a size -/

/-- Sizes of all members, beside the members. -/
theorem exists_parts {f : DataType → Option Nat} {ms : List StructMember}
    (h : ∀ m ∈ ms, (f m.type).isSome) :
    ∃ parts : List (StructMember × Nat), parts.map Prod.fst = ms ∧
      ∀ p ∈ parts, f p.1.type = some p.2 := by
  refine ⟨ms.map fun m => (m, (f m.type).getD 0), ?_, fun p hp => ?_⟩
  · rw [List.map_map]
    exact List.map_id ms
  · obtain ⟨m, hm, rfl⟩ := List.mem_map.1 hp
    obtain ⟨n, hn⟩ := Option.isSome_iff_exists.1 (h m hm)
    rw [hn]
    rfl

/-- A depth is enough if nothing lies deeper, everything is known and all numbers that occur fit. -/
theorem isSome_sizeWithin (hinside : ∀ levels u, s.Nested levels t u → levels < depth ∧ s.Known u)
    (hfits : ∀ n, s.Occurs t n → n < UInt32.size) : (s.sizeWithin depth t).isSome := by
  induction depth generalizing t with
  | zero => exact absurd (hinside 0 t (.here t)).1 (Nat.lt_irrefl 0)
  | succ depth ih =>
      rcases (hinside 0 t (.here t)).2 with ⟨ht, entry, hentry⟩ | ⟨ht, b, bytes, hbase, hbytes⟩
      case inr =>
          have hrow := hfits _ (.row ht hbase hbytes)
          have hwhole := hfits _ (.total (.plain ht hbase hbytes))
          simp [sizeWithin_plain ht, plainSize, hbase, hbytes, fits_of_lt hrow, fits_of_lt hwhole]
      case inl =>
          have hmembers : ∀ m ∈ entry.members, (s.sizeWithin depth m.type).isSome := by
            intro m hm
            have hmember : s.HasMember t m.type := ⟨ht, entry, hentry, m, hm, rfl⟩
            refine ih (fun levels u hu => ?_) fun n hn => hfits n (.inside hmember hn)
            obtain ⟨hlt, hknown⟩ := hinside (levels + 1) u (.deeper hmember hu)
            exact ⟨Nat.lt_of_succ_lt_succ hlt, hknown⟩
          obtain ⟨parts, hparts, hsizes⟩ := exists_parts hmembers
          have hmeasures := fun p hp => measures_of_sizeWithin (hsizes p hp)
          obtain ⟨ps, hplaced⟩ := exists_placeAll hsizes fun n hn =>
            hfits n (.member ht hentry hparts hmeasures hn)
          have htotal := hfits _ (.total (.struct ht hentry hparts hmeasures))
          rw [sizeWithin_struct ht, hentry, Option.bind_some, ← hparts, hplaced, Option.bind_some,
            align, fits_of_lt htotal]
          rfl

/-- A size that is found fits. -/
theorem lt_of_sizeWithin {n : Nat} (h : s.sizeWithin depth t = some n) : n < UInt32.size := by
  cases depth with
  | zero => contradiction
  | succ depth =>
      cases ht : t.isStruct with
      | false =>
          rw [sizeWithin_plain ht] at h
          simp only [plainSize, Option.bind_eq_bind, Option.bind_eq_some_iff] at h
          obtain ⟨b, -, bytes, -, row, -, hn⟩ := h
          obtain ⟨rfl, hlt⟩ := fits_eq_some_iff.1 hn
          exact hlt
      | true =>
          rw [sizeWithin_struct ht] at h
          obtain ⟨entry, -, h⟩ := Option.bind_eq_some_iff.1 h
          obtain ⟨r, -, halign⟩ := Option.bind_eq_some_iff.1 h
          obtain ⟨rfl, hlt⟩ := fits_eq_some_iff.1 halign
          exact hlt

/-- Where a type has a size, all numbers that occur fit. -/
theorem Occurs.lt_size {n : Nat} (hn : s.Occurs t n) (h : (s.sizeWithin depth t).isSome) :
    n < UInt32.size := by
  induction hn generalizing depth with
  | row ht hbase hbytes =>
      obtain ⟨size, hsize⟩ := Option.isSome_iff_exists.1 h
      cases depth with
      | zero => contradiction
      | succ depth =>
          simp only [sizeWithin_plain ht, plainSize, hbase, hbytes, Option.bind_eq_bind,
            Option.bind_some, Option.bind_eq_some_iff] at hsize
          obtain ⟨row, hrow, -⟩ := hsize
          exact (fits_eq_some_iff.1 hrow).2
  | member ht hentry hmembers hsizes hn =>
      obtain ⟨size, hsize⟩ := Option.isSome_iff_exists.1 h
      cases depth with
      | zero => contradiction
      | succ depth =>
          rw [sizeWithin_struct ht, hentry, Option.bind_some, ← hmembers] at hsize
          obtain ⟨r, hplaced, -⟩ := Option.bind_eq_some_iff.1 hsize
          refine stackNumbers_lt (by decide) (fun p hp => ?_) hplaced _ hn
          -- the size of the member is its measure
          have hmember := isSome_of_placeAll hplaced p.1 (List.mem_map_of_mem hp)
          obtain ⟨m, hm⟩ := Option.isSome_iff_exists.1 hmember
          obtain rfl := (hsizes p hp).unique (measures_of_sizeWithin hm)
          exact ⟨hm, lt_of_sizeWithin hm⟩
  | total hmeasure =>
      obtain ⟨size, hsize⟩ := Option.isSome_iff_exists.1 h
      obtain rfl := hmeasure.unique (measures_of_sizeWithin hsize)
      exact lt_of_sizeWithin hsize
  | inside hmember _ ih =>
      obtain ⟨less, -, hless⟩ := hmember.isSome h
      exact ih hless

/-- A depth is enough exactly if nothing lies deeper, everything is known and all numbers that occur
fit. -/
theorem isSome_sizeWithin_iff : (s.sizeWithin depth t).isSome ↔
    (∀ levels u, s.Nested levels t u → levels < depth ∧ s.Known u) ∧
      ∀ n, s.Occurs t n → n < UInt32.size := by
  refine ⟨fun h => ⟨fun levels u hu => ⟨hu.lt_depth h, ?_⟩, fun n hn => hn.lt_size h⟩,
    fun h => isSome_sizeWithin h.1 h.2⟩
  obtain ⟨less, -, hless⟩ := hu.isSome h
  exact known_of_isSome hless

/-- **The size of a type is its measure, and it is found exactly if nothing is missing, too deep or too
large.**  Within the depth that is allowed no struct contains itself. -/
theorem sizeOf_measured (s : Structs) (t : DataType) :
    (∀ size, s.sizeOf t = some size → ∀ n, s.Measures t n ↔ n = size) ∧
      (s.Deficient t → s.sizeOf t = none ∧ s.layout t = none) ∧
      ((s.sizeOf t).isSome ↔
        (∀ levels u, s.Nested levels t u → levels ≤ 64 ∧ s.Known u) ∧
          ∀ n, s.Occurs t n → n < UInt32.size) := by
  refine ⟨fun size hsize n => ?_, fun h => ⟨h.sizeWithin_eq_none _, h.layout_eq_none⟩, ?_⟩
  · have hmeasure := measures_of_sizeWithin hsize
    exact ⟨fun hn => hn.unique hmeasure, fun hn => hn ▸ hmeasure⟩
  · simp only [sizeOf, isSome_sizeWithin_iff, deepest, Nat.lt_succ_iff]

/-- A struct with an array of vectors, and two structs that contain each other. -/
theorem sizeOf_measured_entangled :
    let light : StructEntry :=
      ⟨"Light", [⟨"power", .scalar .float, none⟩, ⟨"colors", ⟨5, some 3, none⟩, some 2⟩]⟩
    let node : StructEntry := ⟨"Node", [⟨"next", .struct 258, none⟩]⟩
    let link : StructEntry := ⟨"Link", [⟨"light", .struct 256, none⟩, ⟨"back", .struct 257, some 0⟩]⟩
    let s : Structs := ⟨#[light, node, link]⟩
    s.sizeOf (.struct 256) = some 48 ∧ (∀ n, s.Measures (.struct 256) n ↔ n = 48) ∧
      s.Deficient (.struct 257) ∧ s.sizeOf (.struct 257) = none ∧ s.layout (.struct 257) = none ∧
      (∀ levels u, s.Nested levels (.struct 256) u → levels ≤ 64 ∧ s.Known u) ∧
      ∀ n, s.Occurs (.struct 256) n → n < UInt32.size := by
  intro light node link s
  obtain ⟨hmeasure, -, hfound⟩ := sizeOf_measured s (.struct 256)
  obtain ⟨-, hmissing, -⟩ := sizeOf_measured s (.struct 257)
  have hsize : s.sizeOf (.struct 256) = some 48 := by decide +kernel
  have hnext : s.HasMember (.struct 257) (.struct 258) :=
    ⟨by decide, node, by decide, ⟨"next", .struct 258, none⟩, by simp [node], rfl⟩
  have hback : s.HasMember (.struct 258) (.struct 257) :=
    ⟨by decide, link, by decide, ⟨"back", .struct 257, some 0⟩, by simp [link], rfl⟩
  have hself : s.ContainsItself (.struct 257) := ⟨1, _, .deeper hnext (.deeper hback (.here _)), rfl⟩
  have hdeficient : s.Deficient (.struct 257) := ⟨0, _, .here _, .inr hself⟩
  exact ⟨hsize, hmeasure 48 hsize, hdeficient, (hmissing hdeficient).1, (hmissing hdeficient).2,
    hfound.1 (hsize ▸ rfl)⟩

end ShaderLang.Structs
