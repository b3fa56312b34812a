/-
**Keywords and the types that have one.**

A keyword is looked for in two ways: among the names of the base types that stand alone, and as a numeric
base type whose name stands in front, with extents behind it.  No name of a numeric base type stands in
front of any other name of a base type (`ShaderLang.BaseType.eq_of_name_prefix`), so a keyword is read in
one way only, and what stands behind the name is the written extents and nothing else.

Not every type has a keyword: extents must be small and belong to a numeric base.  A type with a second
extent and no first is written like its component, and that keyword gives the component back.

Main definitions:

* `ShaderLang.DataType.HasKeyword` — the types that have a keyword.

Main results:

* `ShaderLang.DataType.ofKeyword_numeric` — a keyword of a numeric base type is read as its extents are;
* `ShaderLang.DataType.ofSuffix_eq_some_iff` — extents are read from the text that they are written as;
* `ShaderLang.DataType.keyword_written` — **a keyword names the one type that is written like it**.
-/

import ShaderLang.Types.Keyword

set_option relaxedAutoImplicit false
set_option autoImplicit false

namespace ShaderLang

/-- A search with only one possible answer finds it. -/
theorem findSome?_eq_some_of_forall {α β : Type} {f : α → Option β} {xs : List α} {x : α} {y : β}
    (hx : x ∈ xs) (hy : f x = some y) (hall : ∀ x' ∈ xs, ∀ z, f x' = some z → z = y) :
    xs.findSome? f = some y := by
  cases hfound : xs.findSome? f with
  | none =>
      rw [List.findSome?_eq_none_iff.1 hfound x hx] at hy
      contradiction
  | some z =>
      obtain ⟨x', hx', hz⟩ := List.exists_of_findSome?_eq_some hfound
      rw [hall x' hx' z hz]

/-! ### Names of base types -/

namespace BaseType

/-- **No name of a numeric base type stands in front of the name of another base type.** -/
theorem eq_of_name_prefix {b d : BaseType} (hb : b.isNumeric = true)
    (h : b.name.toList <+: d.name.toList) : b = d := by
  have htable : ∀ b ∈ all, b.isNumeric = true → ∀ d ∈ all,
      b.name.toList.isPrefixOf d.name.toList = true → b = d := by
    decide +kernel
  exact htable b b.mem_all hb d d.mem_all (List.isPrefixOf_iff_prefix.2 h)

theorem eq_of_name {b d : BaseType} (h : b.name = d.name) : b = d := by
  have htable : ∀ b ∈ all, ∀ d ∈ all, b.name = d.name → b = d := by
    decide +kernel
  exact htable b b.mem_all d d.mem_all h

theorem eq_of_id {b d : BaseType} (h : b.id = d.id) : b = d :=
  Option.some.inj ((ofId_id b).symm.trans ((congrArg ofId h).trans (ofId_id d)))

end BaseType

namespace DataType

open Text

variable {name : String} {t : DataType} {b : BaseType} {cs rest : List Char}

/-- The types that have a keyword: base types without extents, and vectors and matrices of a numeric base
type with extents between two and four.  A vector has the first extent, a matrix has both. -/
inductive HasKeyword : DataType → Prop where
  | bare (b : BaseType) : HasKeyword (scalar b)
  | vector {b : BaseType} {size : Fin absentExtent} (hb : b.isNumeric = true)
      (hsize : 2 ≤ size.val ∧ size.val ≤ 4) : HasKeyword ⟨b.id, some size, none⟩
  | matrix {b : BaseType} {rows columns : Fin absentExtent} (hb : b.isNumeric = true)
      (hrows : 2 ≤ rows.val ∧ rows.val ≤ 4) (hcolumns : 2 ≤ columns.val ∧ columns.val ≤ 4) :
      HasKeyword ⟨b.id, some rows, some columns⟩

theorem mem_numericBases : b ∈ numericBases ↔ b.isNumeric = true := by
  simp [numericBases, b.mem_all]

theorem mem_plainBases : b ∈ plainBases ↔ b.isNumeric = false := by
  simp [plainBases, b.mem_all]

/-! ### The extents behind a name -/

/-- The digit that names an extent is how the extent is written. -/
theorem keywordExtent_written {c : Char} {n : Fin absentExtent} (h : keywordExtent c = some n) :
    (2 ≤ n.val ∧ n.val ≤ 4) ∧ (toString n.val).toList = [c] := by
  unfold keywordExtent at h
  split at h
  case h_4 => contradiction
  all_goals
    obtain rfl := Option.some.inj h
    decide

/-- A small extent has a digit. -/
theorem exists_keywordExtent {n : Fin absentExtent} (h : 2 ≤ n.val ∧ n.val ≤ 4) :
    ∃ c, keywordExtent c = some n ∧ (toString n.val).toList = [c] := by
  obtain ⟨n, hn⟩ := n
  obtain ⟨hlow, hhigh⟩ : 2 ≤ n ∧ n ≤ 4 := h
  obtain rfl | rfl | rfl : n = 2 ∨ n = 3 ∨ n = 4 := by omega
  · exact ⟨'2', rfl, show (toString 2).toList = ['2'] by decide⟩
  · exact ⟨'3', rfl, show (toString 3).toList = ['3'] by decide⟩
  · exact ⟨'4', rfl, show (toString 4).toList = ['4'] by decide⟩

/-- A type with a keyword has a built-in base, which is numeric if there are extents. -/
theorem HasKeyword.exists_base (h : t.HasKeyword) :
    ∃ b : BaseType, t.base = b.id ∧ (b.isNumeric = false → t = scalar b) := by
  cases h with
  | bare b => exact ⟨b, rfl, fun _ => rfl⟩
  | vector hb => exact ⟨_, rfl, fun hplain => by simp [hb] at hplain⟩
  | matrix hb => exact ⟨_, rfl, fun hplain => by simp [hb] at hplain⟩

/-- **Extents are read from the text that they are written as.** -/
theorem ofSuffix_eq_some_iff (hb : b.isNumeric = true) :
    ofSuffix b cs = some t ↔ t.HasKeyword ∧ t.base = b.id ∧ t.extentText.toList = cs := by
  constructor
  · intro h
    unfold ofSuffix at h
    split at h
    · obtain rfl := Option.some.inj h
      exact ⟨.bare b, rfl, rfl⟩
    · next size =>
        obtain ⟨n, hn, rfl⟩ := Option.map_eq_some_iff.1 h
        obtain ⟨hsmall, htext⟩ := keywordExtent_written hn
        exact ⟨.vector hb hsmall, rfl, htext⟩
    · next rows columns =>
        split at h
        · next m n hm hn =>
            obtain rfl := Option.some.inj h
            obtain ⟨hrows, hrowsText⟩ := keywordExtent_written hm
            obtain ⟨hcolumns, hcolumnsText⟩ := keywordExtent_written hn
            refine ⟨.matrix hb hrows hcolumns, rfl, ?_⟩
            show (toString m.val ++ "x" ++ toString n.val).toList = _
            rw [String.toList_append, String.toList_append, hrowsText, hcolumnsText]
            rfl
        · contradiction
    · contradiction
  · rintro ⟨hkeyword, hbase, rfl⟩
    cases hkeyword with
    | bare d =>
        obtain rfl := BaseType.eq_of_id hbase
        rfl
    | @vector d size hd hsize =>
        obtain rfl := BaseType.eq_of_id hbase
        obtain ⟨c, hc, htext⟩ := exists_keywordExtent hsize
        show ofSuffix d (toString size.val).toList = _
        rw [htext, ofSuffix, hc]
        rfl
    | @matrix d rows columns hd hrows hcolumns =>
        obtain rfl := BaseType.eq_of_id hbase
        obtain ⟨r, hr, hrowsText⟩ := exists_keywordExtent hrows
        obtain ⟨c, hc, hcolumnsText⟩ := exists_keywordExtent hcolumns
        show ofSuffix d (toString rows.val ++ "x" ++ toString columns.val).toList = _
        rw [String.toList_append, String.toList_append, hrowsText, hcolumnsText]
        show ofSuffix d [r, 'x', c] = _
        simp only [ofSuffix, hr, hc]

/-! ### The name in front -/

/-- The name of a numeric base type is found in front of any text. -/
theorem splitNumeric_append (hb : b.isNumeric = true) (rest : List Char) :
    splitNumeric (b.name.toList ++ rest) = some (b, rest) := by
  refine findSome?_eq_some_of_forall (mem_numericBases.2 hb) ?_ fun d hd z hz => ?_
  · rw [stripFront_eq_some_iff.2 rfl]
    rfl
  · obtain ⟨rest', hrest', rfl⟩ := Option.map_eq_some_iff.1 hz
    have heq := stripFront_eq_some_iff.1 hrest'
    -- two names in front of one text are the same, since none stands in front of another
    have hsame : d = b := by
      rcases List.prefix_or_prefix_of_prefix ⟨rest', heq.symm⟩ (List.prefix_append b.name.toList rest)
        with hfront | hfront
      · exact BaseType.eq_of_name_prefix (mem_numericBases.1 hd) hfront
      · exact (BaseType.eq_of_name_prefix hb hfront).symm
    subst hsame
    rw [List.append_cancel_left heq]

theorem splitNumeric_eq_some_iff :
    splitNumeric cs = some (b, rest) ↔ b.isNumeric = true ∧ cs = b.name.toList ++ rest := by
  constructor
  · intro h
    obtain ⟨d, hd, hstrip⟩ := List.exists_of_findSome?_eq_some h
    obtain ⟨rest', hrest', heq⟩ := Option.map_eq_some_iff.1 hstrip
    obtain ⟨rfl, rfl⟩ := Prod.mk.inj heq
    exact ⟨mem_numericBases.1 hd, stripFront_eq_some_iff.1 hrest'⟩
  · rintro ⟨hb, rfl⟩
    exact splitNumeric_append hb rest

/-- A base type that stands alone is read from its name. -/
theorem ofKeyword_plain (hb : b.isNumeric = false) : ofKeyword b.name = some (scalar b) := by
  have hfound : (plainBases.find? fun d => d.name == b.name) = some b := by
    cases hfind : plainBases.find? fun d => d.name == b.name with
    | none => simpa using List.find?_eq_none.1 hfind b (mem_plainBases.2 hb)
    | some d =>
        have hname := List.find?_some hfind
        rw [BaseType.eq_of_name (beq_iff_eq.1 hname)]
  rw [ofKeyword, hfound]

/-- **A keyword of a numeric base type is read as its extents are.** -/
theorem ofKeyword_numeric (hb : b.isNumeric = true) (hname : name.toList = b.name.toList ++ rest) :
    ofKeyword name = ofSuffix b rest := by
  have hnone : (plainBases.find? fun d => d.name == name) = none := by
    refine List.find?_eq_none.2 fun d hd heq => ?_
    have hfront : b.name.toList <+: d.name.toList := by
      rw [beq_iff_eq.1 heq, hname]
      exact List.prefix_append _ _
    rw [← BaseType.eq_of_name_prefix hb hfront, mem_plainBases, hb] at hd
    contradiction
  rw [ofKeyword, hnone, hname, splitNumeric_append hb]

/-! ### Keywords and texts -/

theorem toList_text (h : t.base = b.id) :
    t.text.toList = b.name.toList ++ t.extentText.toList := by
  have hbase : t.baseType = some b := by
    rw [baseType, h]
    exact BaseType.ofId_id b
  rw [text, hbase, String.toList_append]

/-- **A keyword names a type exactly if the type has a keyword and is written like it.** -/
theorem ofKeyword_eq_some_iff : ofKeyword name = some t ↔ t.HasKeyword ∧ t.text = name := by
  constructor
  · intro h
    unfold ofKeyword at h
    split at h
    · next b hfind =>
        obtain rfl := Option.some.inj h
        have hname : b.name = name := by simpa using List.find?_some hfind
        refine ⟨.bare b, String.toList_inj.1 ?_⟩
        rw [toList_text rfl, ← hname]
        exact List.append_nil _
    · split at h
      · next b rest hsplit =>
          obtain ⟨hb, hname⟩ := splitNumeric_eq_some_iff.1 hsplit
          obtain ⟨hkeyword, hbase, hrest⟩ := (ofSuffix_eq_some_iff hb).1 h
          refine ⟨hkeyword, String.toList_inj.1 ?_⟩
          rw [toList_text hbase, hrest, hname]
      · contradiction
  · rintro ⟨hkeyword, rfl⟩
    obtain ⟨b, hbase, hplain⟩ := hkeyword.exists_base
    cases hb : b.isNumeric with
    | true =>
        rw [ofKeyword_numeric hb (toList_text hbase)]
        exact (ofSuffix_eq_some_iff hb).2 ⟨hkeyword, hbase, rfl⟩
    | false =>
        rw [hplain hb, ← ofKeyword_plain hb]
        exact congrArg ofKeyword (String.toList_inj.1 ((toList_text rfl).trans (List.append_nil _)))

/-- **A keyword names the one type that is written like it**: every keyword is how its type is written, the
keywords are the texts of the types that have one, and of all types those are the ones that are read back
from their texts. -/
theorem keyword_written (name : String) (t : DataType) :
    (ofKeyword name = some t ↔ t.HasKeyword ∧ t.text = name) ∧
      ((ofKeyword name).isSome = true ↔ ∃ u : DataType, u.HasKeyword ∧ u.text = name) ∧
      (ofKeyword t.text = some t ↔ t.HasKeyword) := by
  refine ⟨ofKeyword_eq_some_iff, ?_, ?_⟩
  · rw [Option.isSome_iff_exists]
    simp only [ofKeyword_eq_some_iff]
  · rw [ofKeyword_eq_some_iff]
    exact and_iff_left rfl

/-- A second extent without a first is not written, so the component is read back. -/
example : text ⟨5, none, some 3⟩ = "float" ∧ ofKeyword "float" = some ⟨5, none, none⟩ := by
  decide +kernel

end DataType

end ShaderLang
