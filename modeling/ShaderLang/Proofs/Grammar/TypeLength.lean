/-
**How far ahead a type is seen.**

Whether a conversion or a declaration stands ahead is told by how many tokens make up the type in front.
They are counted without reading the type, up to the first `>`.  An extent of a generic type may hold a
`>` of its own, between parentheses or behind another generic type; then the count ends there, and what
is behind it is taken for what is behind the type.  As no extent goes beyond a semicolon, the count is
never too long, and without such a `>` it is right.

Main results:

* `ShaderLang.Grammar.typeLength_of_dataType` — **the type that is read, as far as its first `>`, is the
  type that is seen ahead**;
* `ShaderLang.Grammar.castAhead_of_dataType`, `ShaderLang.Grammar.declarationAhead_of_dataType` —
  conversions and declarations are told where no `>` stands inside the type.
-/

import ShaderLang.Grammar.Statement
import ShaderLang.Proofs.Grammar.Retracing
import ShaderLang.Token.Scan

set_option relaxedAutoImplicit false
set_option autoImplicit false

namespace ShaderLang

/-- The token is a `>`. -/
def Token.isGreater (t : Token) : Bool := t.kind == .mark .greater

/-- The place of the first `>` in front of the last token, or of the last token. -/
def closing (ts : List Token) : Nat := ts.dropLast.findIdx Token.isGreater

/-- No `>` stands in front of the last token. -/
def Simple (ts : List Token) : Prop := ∀ x ∈ ts.dropLast, x.kind ≠ .mark .greater

instance (ts : List Token) : Decidable (Simple ts) :=
  inferInstanceAs (Decidable (∀ x ∈ ts.dropLast, x.kind ≠ .mark .greater))

section

variable {ts us : List Token} {g : Token}

/-- The place lies among the tokens; it is that of the last one if no `>` stands in front of it. -/
theorem closing_lt (h : ts ≠ []) : closing ts < ts.length := by
  have hle : closing ts ≤ ts.dropLast.length := List.findIdx_le_length
  have hpos := List.length_pos_iff.2 h
  rw [List.length_dropLast] at hle
  omega

theorem closing_eq_iff (h : ts ≠ []) : closing ts + 1 = ts.length ↔ Simple ts := by
  have hlength : ts.length = ts.dropLast.length + 1 := by
    have hpos := List.length_pos_iff.2 h
    rw [List.length_dropLast]
    omega
  rw [hlength, Nat.add_right_cancel_iff, closing, List.findIdx_eq_length]
  simp [Simple, Token.isGreater]

/-- Tokens without a semicolon are passed over up to the first `>`. -/
theorem Cursor.throughGreater_of_unstopped (hts : Unstopped ts) (hg : g.kind = .mark .greater) :
    throughGreater (ts ++ g :: us) = some (ts.findIdx Token.isGreater + 1) := by
  induction ts with
  | nil => simp [throughGreater, hg]
  | cons t ts ih =>
      obtain ⟨ht, hts⟩ := Unstopped.cons_iff.1 hts
      rw [List.cons_append, throughGreater, List.findIdx_cons, ih hts]
      split
      case h_1 hkind => simp [Token.isGreater, hkind]
      case h_2 hkind | h_3 hkind =>
          rw [hkind] at ht
          contradiction
      case h_4 hne _ _ =>
          have hplain : t.isGreater = false := beq_eq_false_iff_ne.2 hne
          rw [hplain]
          rfl

end

namespace TypeSpelled

variable {structs : Structs} {type : DataType} {extents : List (List Token)} {ts rest : List Token}
  {isStruct : String → Bool}

theorem ne_nil (h : TypeSpelled structs type extents ts) : ts ≠ [] := by
  cases h <;> nofun

/-- The tokens of a type are counted up to the first `>`, if the type can begin where it does and a word
for a generic type stands alone only where no `<` follows. -/
theorem typeLengthOf_eq (h : TypeSpelled structs type extents ts)
    (hextents : ∀ us ∈ extents, Unstopped us)
    (hstart : ∀ k us, ts = k :: us → Cursor.startsType isStruct k = true)
    (halone : ∀ k, ts = [k] → Cursor.isGeneric k.kind = true →
      ∀ u us, rest = u :: us → u.kind ≠ .mark .less) :
    Cursor.typeLengthOf isStruct (ts ++ rest) = some (closing ts + 1) := by
  -- a type of one token is not counted on, whatever follows
  have hword : ∀ k, ts = [k] → Cursor.typeLengthOf isStruct (ts ++ rest) = some (closing ts + 1) := by
    rintro k rfl
    have hstart := hstart k [] rfl
    cases rest with
    | nil => simp [Cursor.typeLengthOf, hstart, closing]
    | cons u us =>
        have hplain : (Cursor.isGeneric k.kind && u.kind == .mark .less) = false := by
          rw [Bool.and_eq_false_imp]
          exact fun hgeneric => beq_eq_false_iff_ne.2 (halone k rfl hgeneric u us rfl)
        simp [Cursor.typeLengthOf, hstart, hplain, closing]
  cases h with
  | word | struct | bare => exact hword _ rfl
  | @generic _ _ w l k c g us hw hl hk hc hus hg =>
      have hinside : Unstopped (k :: c :: us) := by
        simp [hk, hc, TokenKind.isStop, Unstopped.separated hus hextents]
      have hplain : w.isGreater = false := by
        rcases Cursor.eq_of_isGeneric hw with hw | hw <;> simp [Token.isGreater, hw]
      have hclosing : closing (w :: l :: k :: c :: (us ++ [g])) =
          (k :: c :: us).findIdx Token.isGreater + 2 := by
        have hlast : w :: l :: k :: c :: (us ++ [g]) = (w :: l :: k :: c :: us) ++ [g] := rfl
        have hless : l.isGreater = false := by
          rw [Token.isGreater, hl]
          rfl
        rw [closing, hlast, List.dropLast_concat, List.findIdx_cons, List.findIdx_cons, hplain, hless]
        rfl
      have hthrough : Cursor.throughGreater (k :: c :: (us ++ g :: rest)) =
          some ((k :: c :: us).findIdx Token.isGreater + 1) :=
        Cursor.throughGreater_of_unstopped hinside hg
      simp only [List.cons_append, List.append_assoc, List.nil_append]
      simp only [Cursor.typeLengthOf, hstart w _ rfl, hw, hl, beq_self_eq_true, Bool.and_self,
        if_true, hthrough, Option.map_some, hclosing]

end TypeSpelled

namespace Grammar

open ShaderLang.Parser

variable {s t : ParseState} {type : DataType}

/-- **The type that is read, as far as its first `>`, is the type that is seen ahead.**  If no `>` stands
in front of its last token that is all of it, and otherwise it is less. -/
theorem typeLength_of_dataType (hstart : StartsType s.builder.structs s.cursor)
    (h : dataType s = .ok type t) :
    ∃ read, s.cursor.rest = read ++ t.cursor.rest ∧ closing read < read.length ∧
      (closing read + 1 = read.length ↔ Simple read) ∧
      typeLength 0 s = .ok (some (closing read + 1)) s := by
  have hconsumes := consumes_typeSpecifier (retraces_expression s.builder.structs) rfl hstart
  obtain ⟨read, hread, -, extents, htype, hextents, halone⟩ := hconsumes type t h
  refine ⟨read, hread, closing_lt htype.ne_nil, closing_eq_iff htype.ne_nil, ?_⟩
  rw [typeLength_apply, Cursor.typeLength, List.drop_zero, hread]
  refine congrArg (EStateM.Result.ok · s) (htype.typeLengthOf_eq ?_ ?_ ?_)
  · exact Unstopped.parts fun p hp => (hextents p hp).unstopped
  · rintro k us rfl
    rwa [StartsType, Cursor.current_of_rest hread] at hstart
  · rintro k rfl hgeneric u us hu
    have hnext := halone k rfl hgeneric
    rwa [Cursor.kind_current_next hread, Cursor.current_of_rest hu] at hnext

/-- In front of a source text, if it can be split into tokens. -/
def inFrontOf (source : String) : Option ParseState :=
  (TokenStream.ofSource source 0).toOption.map fun tokens =>
    ⟨.ofStream tokens, .start .empty, 0⟩

/-- What is seen of a type that is read behind some tokens of a source text. -/
theorem exists_dataType_of_seen {source : String} {back : ParseState → ParseState}
    {seen : ParseState → ParseState → Bool}
    (h : ((inFrontOf source).any fun s => match dataType (back s) with
      | .ok _ t => seen s t
      | .error .. => false) = true) :
    ∃ s type t, inFrontOf source = some s ∧ dataType (back s) = .ok type t ∧ seen s t = true := by
  obtain ⟨s, hs, hread⟩ := (Option.any_eq_true _ _).1 h
  split at hread
  · next type t ht => exact ⟨s, type, t, hs, ht, hread⟩
  · contradiction

/-- What was read, told by its length. -/
theorem take_of_read {ts read rest : List Token} {n : Nat} (h : ts = read ++ rest)
    (hlength : ts.length = n + rest.length) : read.length = n ∧ ts.take n = read := by
  have hlong : read.length = n := by
    rw [h, List.length_append] at hlength
    omega
  exact ⟨hlong, by rw [h, ← hlong, List.take_left]⟩

/-- An extent with a `>` of its own: five of the twelve tokens of the type are not seen. -/
theorem typeLength_of_dataType_greater :
    ∃ s type t, inFrontOf "vector<int, (5 > 3) + 1> v;" = some s ∧
      StartsType s.builder.structs s.cursor ∧ dataType s = .ok type t ∧
      ∃ read, s.cursor.rest = read ++ t.cursor.rest ∧ closing read < read.length ∧
        (closing read + 1 = read.length ↔ Simple read) ∧
        typeLength 0 s = .ok (some (closing read + 1)) s ∧ read.length = 12 ∧ closing read = 6 := by
  obtain ⟨s, type, t, hs, ht, hseen⟩ :=
    @exists_dataType_of_seen "vector<int, (5 > 3) + 1> v;" id (fun s t =>
      decide (StartsType s.builder.structs s.cursor ∧ s.cursor.rest.length = 12 + t.cursor.rest.length ∧
        closing (s.cursor.rest.take 12) = 6)) (by decide +kernel)
  obtain ⟨hstart, hlength, hclosing⟩ := of_decide_eq_true hseen
  obtain ⟨read, hread, hlt, hall, hlook⟩ := typeLength_of_dataType hstart ht
  obtain ⟨hlong, htake⟩ := take_of_read hread hlength
  rw [htake] at hclosing
  exact ⟨s, type, t, hs, hstart, ht, read, hread, hlt, hall, hlook, hlong, hclosing⟩

/-- The token behind some others. -/
theorem kind_peek {c d : Cursor} {n : Nat} {read : List Token} (h : c.rest.drop n = read ++ d.rest) :
    (c.peek (n + read.length)).kind = d.current.kind := by
  have hget : c.rest[n + read.length]? = d.rest[0]? := by
    rw [← List.getElem?_drop, h, List.getElem?_append_right (Nat.le_refl _), Nat.sub_self]
  rw [Cursor.peek, hget, Cursor.current]
  cases d.rest <;> rfl

/-- **A conversion is told**: behind a parenthesis a type is taken for one if the closing parenthesis
follows, where no `>` stands inside the type. -/
theorem castAhead_of_dataType (hstart : StartsType s.builder.structs s.cursor.next)
    (h : dataType s.advanced = .ok type t) :
    ∃ read, s.cursor.next.rest = read ++ t.cursor.rest ∧ (Simple read →
      castAhead s = .ok (decide (t.cursor.current.kind = .mark .closeParen)) s) := by
  obtain ⟨read, hread, -, hall, hlength⟩ := typeLength_of_dataType (s := s.advanced) hstart h
  refine ⟨read, hread, fun hsimple => ?_⟩
  rw [hall.2 hsimple] at hlength
  have hlook : typeLength 1 s = .ok (some read.length) s := by
    have hsame := (EStateM.Result.ok.inj hlength).1
    rw [Cursor.typeLength, List.drop_zero] at hsame
    rw [typeLength_apply, Cursor.typeLength, List.drop_one]
    exact congrArg (EStateM.Result.ok · s) hsame
  have hdrop : s.cursor.rest.drop 1 = read ++ t.cursor.rest := by
    rw [List.drop_one]
    exact hread
  unfold castAhead
  rw [bind_apply, hlook]
  show EStateM.Result.ok (decide ((s.cursor.peek (1 + read.length)).kind = _)) s = _
  rw [kind_peek hdrop]

/-- A conversion to a vector. -/
theorem castAhead_of_dataType_vector :
    ∃ s type t, inFrontOf "(vector<int, 3>) b;" = some s ∧
      StartsType s.builder.structs s.cursor.next ∧ dataType s.advanced = .ok type t ∧
      ∃ read, s.cursor.next.rest = read ++ t.cursor.rest ∧ Simple read ∧ read.length = 6 ∧
        castAhead s = .ok true s := by
  obtain ⟨s, type, t, hs, ht, hseen⟩ :=
    @exists_dataType_of_seen "(vector<int, 3>) b;" ParseState.advanced (fun s t =>
      decide (StartsType s.builder.structs s.cursor.next ∧
        s.cursor.next.rest.length = 6 + t.cursor.rest.length ∧ Simple (s.cursor.next.rest.take 6) ∧
        t.cursor.current.kind = .mark .closeParen)) (by decide +kernel)
  obtain ⟨hstart, hlength, hsimple, hclose⟩ := of_decide_eq_true hseen
  obtain ⟨read, hread, hcast⟩ := castAhead_of_dataType hstart ht
  obtain ⟨hlong, htake⟩ := take_of_read hread hlength
  rw [htake] at hsimple
  have hcast := hcast hsimple
  rw [decide_eq_true hclose] at hcast
  exact ⟨s, type, t, hs, hstart, ht, read, hread, hsimple, hlong, hcast⟩

/-- **A declaration is told**: a type that no parenthesis follows begins one, where no `>` stands inside
the type. -/
theorem declarationAhead_of_dataType (hstart : StartsType s.builder.structs s.cursor)
    (h : dataType s = .ok type t) :
    ∃ read, s.cursor.rest = read ++ t.cursor.rest ∧ (Simple read →
      declarationAhead s = .ok (t.cursor.current.kind != .mark .openParen) s) := by
  obtain ⟨read, hread, -, hall, hlength⟩ := typeLength_of_dataType hstart h
  refine ⟨read, hread, fun hsimple => ?_⟩
  have hplain : s.cursor.current.kind ≠ .qualifier := by
    intro hkind
    rw [StartsType, Cursor.startsType, hkind] at hstart
    contradiction
  have hpeek := kind_peek (n := 0) hread
  rw [hall.2 hsimple] at hlength
  rw [Nat.zero_add] at hpeek
  unfold declarationAhead
  rw [bind_apply, currentKind_apply]
  dsimp only
  rw [if_neg hplain, bind_apply, hlength]
  show EStateM.Result.ok ((s.cursor.peek read.length).kind != _) s = _
  rw [hpeek]

/-- A declaration of a vector. -/
theorem declarationAhead_of_dataType_vector :
    ∃ s type t, inFrontOf "vector<int, 3> v;" = some s ∧
      StartsType s.builder.structs s.cursor ∧ dataType s = .ok type t ∧
      ∃ read, s.cursor.rest = read ++ t.cursor.rest ∧ Simple read ∧ read.length = 6 ∧
        declarationAhead s = .ok true s := by
  obtain ⟨s, type, t, hs, ht, hseen⟩ :=
    @exists_dataType_of_seen "vector<int, 3> v;" id (fun s t =>
      decide (StartsType s.builder.structs s.cursor ∧ s.cursor.rest.length = 6 + t.cursor.rest.length ∧
        Simple (s.cursor.rest.take 6) ∧ t.cursor.current.kind ≠ .mark .openParen)) (by decide +kernel)
  obtain ⟨hstart, hlength, hsimple, hopen⟩ := of_decide_eq_true hseen
  obtain ⟨read, hread, hahead⟩ := declarationAhead_of_dataType hstart ht
  obtain ⟨hlong, htake⟩ := take_of_read hread hlength
  rw [htake] at hsimple
  have hahead := hahead hsimple
  rw [bne_iff_ne.2 hopen] at hahead
  exact ⟨s, type, t, hs, hstart, ht, read, hread, hsimple, hlong, hahead⟩

end Grammar

end ShaderLang
