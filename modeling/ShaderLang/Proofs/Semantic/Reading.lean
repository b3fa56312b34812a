/-
**Semantics are read, written and packed without loss.**

A semantic is a name from a table and a number behind it.  No name of the table has a digit, so the first
digit of a text is where the number begins, and a text that is written for a semantic is read as that
semantic again, whatever the case of its letters.  The number behind a name counts only if it is digits and
nothing else and fits thirty-two bits; any other text behind a name stands for zero.

The packed word keeps the number in its high half and the place of the name in the table in its low half,
so two declarations with one packed word carry one semantic.

Main definitions:

* `ShaderLang.Text.SameButCase` — texts that are the same but for the case of letters;
* `ShaderLang.Text.Splits` — a text up to its first digit, and from there on;
* `ShaderLang.Semantic.Indexes` — the number that a text behind a name stands for;
* `ShaderLang.Arena.Carries` — a declaration carries a semantic;
* `ShaderLang.Semantic.Faithful` — what holds of a semantic and of a text.

Main results:

* `ShaderLang.Semantic.ofText_eq_some_iff` — **when a text is read as a semantic**;
* `ShaderLang.Semantic.ofText_sameButCase` — what is written is read again, in any case of letters;
* `ShaderLang.Semantic.packed_injective` — the packed word tells semantics apart;
* `ShaderLang.Semantic.faithful` — **semantics are read, written and packed without loss**.
-/

import Mathlib
import ShaderLang.Arena
import ShaderLang.Proofs.Text.Digits

set_option relaxedAutoImplicit false
set_option autoImplicit false

namespace ShaderLang

/-! ### The case of letters -/

namespace Text

variable {cs ds front rest : List Char}

/-- Two texts are the same but for the case of the letters `a` to `z`. -/
def SameButCase (cs ds : List Char) : Prop := cs.map Char.toLower = ds.map Char.toLower

/-- The case may be told from capital letters as well. -/
theorem sameButCase_iff : SameButCase cs ds ↔ cs.map Char.toUpper = ds.map Char.toUpper := by
  constructor
  · intro h
    have hupper := congrArg (List.map Char.toUpper) h
    simpa only [List.map_map, Function.comp_def, Char.toUpper_toLower_eq_toUpper] using hupper
  · intro h
    have hlower := congrArg (List.map Char.toLower) h
    unfold SameButCase
    simpa only [List.map_map, Function.comp_def, Char.toLower_toUpper_eq_toLower] using hlower

/-- No letter is a digit. -/
theorem not_isDecimal_of_isAlpha {c : Char} (h : c.isAlpha = true) : isDecimal c = false := by
  show c.isDigit = false
  simp only [Char.isAlpha, Char.isUpper, Char.isLower, Char.isDigit, ge_iff_le,
    UInt32.le_iff_toNat_le, Bool.or_eq_true, Bool.and_eq_true, Bool.and_eq_false_iff,
    decide_eq_true_eq, decide_eq_false_iff_not] at h ⊢
  simp only [UInt32.reduceToNat, Char.reduceVal] at h ⊢
  omega

theorem isDecimal_toLower (c : Char) : isDecimal c.toLower = isDecimal c := by
  by_cases hc : c.isUpper = true
  · have halpha : c.isAlpha = true := by simp [Char.isAlpha, hc]
    rw [not_isDecimal_of_isAlpha halpha, not_isDecimal_of_isAlpha]
    rw [Char.isAlpha_toLower_eq_isAlpha, halpha]
  · rw [Char.toLower_eq_of_not_isUpper hc]

/-- Digits stand where digits stand. -/
theorem SameButCase.forall_isDecimal (h : SameButCase cs ds) {digit : Bool}
    (hds : ∀ d ∈ ds, isDecimal d = digit) : ∀ c ∈ cs, isDecimal c = digit := by
  intro c hc
  have hmem : c.toLower ∈ ds.map Char.toLower := h ▸ List.mem_map_of_mem hc
  obtain ⟨d, hd, heq⟩ := List.mem_map.1 hmem
  rw [← isDecimal_toLower, ← heq, isDecimal_toLower, hds d hd]

theorem map_toLower_of_isDecimal (h : ∀ c ∈ cs, isDecimal c = true) : cs.map Char.toLower = cs := by
  refine (List.map_congr_left fun c hc => ?_).trans (List.map_id cs)
  refine Char.toLower_eq_of_not_isUpper fun hupper => ?_
  have hletter := not_isDecimal_of_isAlpha (c := c) (by simp [Char.isAlpha, hupper])
  rw [h c hc] at hletter
  contradiction

/-- Digits have no case. -/
theorem SameButCase.eq_of_isDecimal (h : SameButCase cs ds) (hds : ∀ d ∈ ds, isDecimal d = true) :
    cs = ds := by
  have hcs := h.forall_isDecimal hds
  rwa [SameButCase, map_toLower_of_isDecimal hcs, map_toLower_of_isDecimal hds] at h

/-- A text in two parts, each with letters in its own case. -/
theorem SameButCase.exists_append (h : SameButCase cs (front ++ rest)) :
    ∃ front' rest', cs = front' ++ rest' ∧ SameButCase front' front ∧ SameButCase rest' rest := by
  rw [SameButCase, List.map_append] at h
  exact List.map_eq_append_iff.1 h

/-! ### The first digit -/

/-- A text up to its first digit, and from there on. -/
structure Splits (cs front rest : List Char) : Prop where
  eq : cs = front ++ rest
  front : ∀ c ∈ front, isDecimal c = false
  rest : ∀ c ∈ rest.head?, isDecimal c = true

theorem splits_takeWhile (cs : List Char) :
    Splits cs (cs.takeWhile fun c => !isDecimal c) (cs.dropWhile fun c => !isDecimal c) where
  eq := List.takeWhile_append_dropWhile.symm
  front c hc := by simpa using List.mem_takeWhile_imp hc
  rest c hc := by
    have hhead := List.head?_dropWhile_not (fun c => !isDecimal c) cs
    rw [Option.mem_def.1 hc] at hhead
    simpa using hhead

/-- There is one way to split a text. -/
theorem Splits.takeWhile_eq (h : Splits cs front rest) :
    (cs.takeWhile fun c => !isDecimal c) = front ∧ (cs.dropWhile fun c => !isDecimal c) = rest := by
  have hfront : ∀ c ∈ front, (!isDecimal c) = true := fun c hc => by simp [h.front c hc]
  rw [h.eq, List.takeWhile_append_of_pos hfront, List.dropWhile_append_of_pos hfront]
  cases hrest : rest with
  | nil => simp
  | cons c cs => simp [h.rest c (by rw [hrest]; rfl)]

end Text

open Text

/-! ### The table -/

namespace SemanticKind

/-- Names are in capital letters and have no digits. -/
theorem name_capital (k : SemanticKind) :
    ∀ c ∈ k.name.toList, c.toUpper = c ∧ isDecimal c = false := by
  have htable : ∀ k ∈ all, (k.name.toList.all fun c => c.toUpper == c && !isDecimal c) = true := by
    decide +kernel
  intro c hc
  simpa using List.all_eq_true.1 (htable k k.mem_all) c hc

theorem ofName_eq_some_iff {name : String} {k : SemanticKind} : ofName name = some k ↔ k.name = name :=
  ⟨name_of_ofName, fun h => h ▸ ofName_name k⟩

/-- **A name is found whatever the case of its letters.** -/
theorem ofName_toUpper_eq_some_iff {cs : List Char} {k : SemanticKind} :
    ofName (String.ofList (cs.map Char.toUpper)) = some k ↔ SameButCase cs k.name.toList := by
  have hname : k.name.toList.map Char.toUpper = k.name.toList :=
    (List.map_congr_left fun c hc => (k.name_capital c hc).1).trans (List.map_id _)
  rw [ofName_eq_some_iff, sameButCase_iff, hname, ← String.toList_inj, String.toList_ofList, eq_comm]

theorem number_lt (k : SemanticKind) : k.number < UInt32.size := by
  have hlt : k.number < all.length := (List.getElem?_eq_some_iff.1 k.getElem_number).1
  exact Nat.lt_trans hlt (by decide)

end SemanticKind

namespace Semantic

variable {s s' : Semantic} {text : String} {front rest : List Char} {index : UInt32}

/-! ### The number behind a name -/

/-- The number that a text behind a name stands for: what its digits spell if there are digits and nothing
else and the number fits, and zero otherwise. -/
inductive Indexes : List Char → UInt32 → Prop where
  | number {digits : List Char} {index : UInt32} (hne : digits ≠ [])
      (hdigits : ∀ c ∈ digits, isDecimal c = true) (h : Spells 10 digits index.toNat) :
      Indexes digits index
  | absent : Indexes [] 0
  | other {rest : List Char} {c : Char} (hc : c ∈ rest) (h : isDecimal c = false) : Indexes rest 0
  | tooLarge {digits : List Char} {n : Nat} (hdigits : ∀ c ∈ digits, isDecimal c = true)
      (h : Spells 10 digits n) (hn : UInt32.size ≤ n) : Indexes digits 0

theorem readIndex_of_spells {n : Nat} (h : Spells 10 rest n) :
    readIndex rest = if n < UInt32.size then UInt32.ofNat n else 0 := by
  rw [readIndex, positional_eq_some_iff.2 h]

theorem readIndex_of_other {c : Char} (hc : c ∈ rest) (h : isDecimal c = false) :
    readIndex rest = 0 := by
  have hnone : positional 10 rest = none := by
    refine Option.eq_none_iff_forall_ne_some.2 fun n hn => ?_
    rw [isDecimal_of_spells (positional_eq_some_iff.1 hn) c hc] at h
    contradiction
  rw [readIndex, hnone]

theorem indexes_readIndex (rest : List Char) : Indexes rest (readIndex rest) := by
  by_cases hdigits : ∀ c ∈ rest, isDecimal c = true
  · obtain ⟨n, hn⟩ := exists_positional hdigits
    have hspells := positional_eq_some_iff.1 hn
    rw [readIndex_of_spells hspells]
    split
    · next hlt =>
        by_cases hne : rest = []
        · subst hne
          rw [spells_nil.1 hspells]
          exact .absent
        · refine .number hne hdigits ?_
          rwa [UInt32.toNat_ofNat_of_lt' hlt]
    · next hge => exact .tooLarge hdigits hspells (Nat.not_lt.1 hge)
  · obtain ⟨c, hc, hother⟩ : ∃ c ∈ rest, ¬isDecimal c = true := by simpa using hdigits
    have hother := eq_false_of_ne_true hother
    rw [readIndex_of_other hc hother]
    exact .other hc hother

/-- **The number behind a name is read as what it stands for.** -/
theorem readIndex_eq_iff : readIndex rest = index ↔ Indexes rest index := by
  constructor
  · rintro rfl
    exact indexes_readIndex rest
  · intro h
    cases h with
    | number _ _ h => rw [readIndex_of_spells h, if_pos index.toNat_lt, UInt32.ofNat_toNat]
    | absent => rfl
    | other hc hother => exact readIndex_of_other hc hother
    | tooLarge _ h hn => rw [readIndex_of_spells h, if_neg (Nat.not_lt.2 hn)]

/-! ### Reading -/

/-- A text is read part by part. -/
theorem ofText_of_splits (h : Splits text.toList front rest) :
    ofText text = (SemanticKind.ofName (String.ofList (front.map Char.toUpper))).map
      fun kind => ⟨kind, readIndex rest⟩ := by
  obtain ⟨hfront, hrest⟩ := h.takeWhile_eq
  rw [ofText, hfront, hrest]

theorem ofText_eq_some_iff_of_splits (h : Splits text.toList front rest) :
    ofText text = some s ↔ SameButCase front s.kind.name.toList ∧ Indexes rest s.index := by
  rw [ofText_of_splits h, Option.map_eq_some_iff, ← readIndex_eq_iff]
  constructor
  · rintro ⟨k, hk, rfl⟩
    exact ⟨SemanticKind.ofName_toUpper_eq_some_iff.1 hk, rfl⟩
  · rintro ⟨hname, hindex⟩
    refine ⟨s.kind, SemanticKind.ofName_toUpper_eq_some_iff.2 hname, ?_⟩
    rw [hindex]

/-- **When a text is read as a semantic.** -/
theorem ofText_eq_some_iff : ofText text = some s ↔ ∃ front rest, Splits text.toList front rest ∧
    SameButCase front s.kind.name.toList ∧ Indexes rest s.index := by
  constructor
  · intro h
    have hsplits := splits_takeWhile text.toList
    exact ⟨_, _, hsplits, (ofText_eq_some_iff_of_splits hsplits).1 h⟩
  · rintro ⟨front, rest, hsplits, h⟩
    exact (ofText_eq_some_iff_of_splits hsplits).2 h

/-- A text is read if a name of the table stands in front of its first digit. -/
theorem isSome_ofText_iff : (ofText text).isSome = true ↔ ∃ (kind : SemanticKind) (front rest : List Char),
    Splits text.toList front rest ∧ SameButCase front kind.name.toList := by
  rw [Option.isSome_iff_exists]
  constructor
  · rintro ⟨s, h⟩
    obtain ⟨front, rest, hsplits, hname, -⟩ := ofText_eq_some_iff.1 h
    exact ⟨s.kind, front, rest, hsplits, hname⟩
  · rintro ⟨kind, front, rest, hsplits, hname⟩
    exact ⟨⟨kind, readIndex rest⟩, ofText_eq_some_iff.2
      ⟨front, rest, hsplits, hname, indexes_readIndex rest⟩⟩

/-! ### Writing -/

theorem toList_text (s : Semantic) :
    s.text.toList = s.kind.name.toList ++ (toString s.index.toNat).toList := by
  rw [Semantic.text, String.toList_append]

/-- **What is written is read again**, in any case of letters. -/
theorem ofText_sameButCase (h : SameButCase text.toList s.text.toList) : ofText text = some s := by
  rw [toList_text] at h
  obtain ⟨front, rest, heq, hfront, hrest⟩ := h.exists_append
  have hdigits : ∀ c ∈ (toString s.index.toNat).toList, isDecimal c = true :=
    fun c => isDecimal_of_mem_toString
  obtain rfl := hrest.eq_of_isDecimal hdigits
  have hsplits : Splits text.toList front (toString s.index.toNat).toList :=
    ⟨heq, hfront.forall_isDecimal fun c hc => (s.kind.name_capital c hc).2,
      fun c hc => hdigits c (List.mem_of_mem_head? hc)⟩
  exact ofText_eq_some_iff.2 ⟨front, _, hsplits, hfront,
    .number (toString_ne_nil _) hdigits (spells_toString _)⟩

/-! ### The packed word -/

theorem toNat_packed (s : Semantic) :
    s.packed.toNat = s.index.toNat * UInt32.size + s.kind.number := by
  have hnumber := s.kind.number_lt
  have hindex := s.index.toNat_lt
  rw [packed, UInt64.toNat_ofNat_of_lt']
  simp only [UInt32.size, UInt64.size] at hnumber ⊢
  omega

/-- The low half of the word is the place of the kind. -/
theorem low_packed (s : Semantic) : s.packed.toUInt32.toNat = s.kind.number := by
  have hnumber := s.kind.number_lt
  rw [UInt64.toNat_toUInt32, toNat_packed]
  simp only [UInt32.size] at hnumber ⊢
  omega

/-- The high half of the word is the number. -/
theorem high_packed (s : Semantic) : (s.packed >>> 32).toUInt32 = s.index := by
  have hnumber := s.kind.number_lt
  have hindex := s.index.toNat_lt
  have hshift : (32 : UInt64).toNat % 64 = 32 := rfl
  apply UInt32.toNat_inj.1
  rw [UInt64.toNat_toUInt32, UInt64.toNat_shiftRight, hshift, toNat_packed, Nat.shiftRight_eq_div_pow]
  simp only [UInt32.size] at hnumber ⊢
  omega

theorem packed_injective (h : s.packed = s'.packed) : s = s' := by
  have hkind : s.kind = s'.kind := by
    have hplace := s.kind.getElem_number
    rw [← low_packed, h, low_packed, s'.kind.getElem_number] at hplace
    exact (Option.some.inj hplace).symm
  have hindex : s.index = s'.index := by rw [← high_packed, h, high_packed]
  cases s
  cases s'
  obtain rfl := hkind
  obtain rfl := hindex
  rfl

end Semantic

/-! ### Declarations -/

namespace Arena

variable {a : Arena} {d : NodeId} {s : Semantic}

/-- The node is a declaration, and a node of the semantic is attached to it. -/
def Carries (a : Arena) (d : NodeId) (s : Semantic) : Prop :=
  ∃ n id, a.node? d = some n ∧ n.attached = some (some id) ∧ a.node? id = some (.semantic s)

/-- The semantic of a declaration is the one that it carries. -/
theorem semanticOf_of_carries (h : a.Carries d s) : a.semanticOf d = .ok (some s) := by
  obtain ⟨n, id, hn, hattached, hid⟩ := h
  have hd : a.get d = .ok n := by rw [get, hn]
  have htie : a.get id = .ok (.semantic s) := by rw [get, hid]
  -- the walk has a step for the declaration and one for its semantic
  obtain ⟨m, hm⟩ : ∃ m, a.walkLength = m + 2 := by
    have hsome : (a.node? d).isSome := by rw [hn]; rfl
    have hlt := (a.isSome_node?_iff d).1 hsome
    exact ⟨a.size - 1, by unfold walkLength; omega⟩
  rw [semanticOf, hm, findSemantic, hd]
  cases n with
  | semantic => contradiction
  | declaration | structDeclarator | parameter | prototype =>
      obtain rfl := Option.some.inj hattached
      show a.findSemantic (m + 1) id = _
      rw [findSemantic, htie]
  | _ => contradiction

end Arena

namespace Semantic

/-- What holds of a semantic, and of a text that may be read as the semantic. -/
structure Faithful (s : Semantic) (text : String) : Prop where
  written (h : SameButCase text.toList s.text.toList) : ofText text = some s
  isSome_iff : (ofText text).isSome = true ↔ ∃ (kind : SemanticKind) (front rest : List Char),
    Splits text.toList front rest ∧ SameButCase front kind.name.toList
  read_iff : ofText text = some s ↔ ∃ front rest, Splits text.toList front rest ∧
    SameButCase front s.kind.name.toList ∧ Indexes rest s.index
  low : SemanticKind.all[s.packed.toUInt32.toNat]? = some s.kind
  high : (s.packed >>> 32).toUInt32 = s.index
  injective {s' : Semantic} (h : s.packed = s'.packed) : s = s'
  carried {a : Arena} {d : NodeId} (h : a.Carries d s) :
    (a.semanticOf d).map (Option.map packed) = .ok (some s.packed)
  identified {a a' : Arena} {d d' : NodeId} {s' : Semantic} (h : a.Carries d s)
    (h' : a'.Carries d' s') :
      (a.semanticOf d).map (Option.map packed) = (a'.semanticOf d').map (Option.map packed) ↔ s = s'

/-- **Semantics are read, written and packed without loss.** -/
theorem faithful (s : Semantic) (text : String) : Faithful s text := by
  have hcarried {a : Arena} {d : NodeId} {s : Semantic} (h : a.Carries d s) :
      (a.semanticOf d).map (Option.map packed) = .ok (some s.packed) := by
    rw [Arena.semanticOf_of_carries h]
    rfl
  constructor
  case written => exact ofText_sameButCase
  case isSome_iff => exact isSome_ofText_iff
  case read_iff => exact ofText_eq_some_iff
  case low =>
    rw [low_packed]
    exact s.kind.getElem_number
  case high => exact high_packed s
  case injective => exact packed_injective
  case carried => exact hcarried
  case identified =>
    intro a a' d d' s' h h'
    rw [hcarried h, hcarried h']
    constructor
    · intro heq
      exact packed_injective (Option.some.inj (Except.ok.inj heq))
    · rintro rfl
      rfl

/-- Numbers with a letter behind them and numbers that do not fit count as zero. -/
example : ofText "tExCoOrD4294967295" = some ⟨.texCoord, 4294967295⟩ ∧
    ofText "COLOR4294967296" = some ⟨.color, 0⟩ ∧ ofText "Fog1x" = some ⟨.fog, 0⟩ := by
  decide +kernel

end Semantic

end ShaderLang
