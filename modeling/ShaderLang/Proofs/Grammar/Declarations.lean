/-
**Declarations keep to the terms.**

Main results:

* `ShaderLang.Grammar.yields_initializer` — initial values;
* `ShaderLang.Grammar.obeys_declarators`, `ShaderLang.Grammar.yields_declarationStatement` —
  variables;
* `ShaderLang.Grammar.yields_structDeclaration` — structs;
* `ShaderLang.Grammar.obeys_parameters` — parameters.
-/

import ShaderLang.Grammar.Declaration
import ShaderLang.Proofs.Grammar.Expressions

set_option relaxedAutoImplicit false
set_option autoImplicit false

namespace ShaderLang.Grammar

open ShaderLang.Parser ShaderLang.Arena

variable {n : Nat} {s : ParseState} {k : Balance} {pre : List Part}

/-! ### The parts of declarations -/

/-- A type reads something and leaves no part. -/
theorem obeys_dataType (s : ParseState) :
    dataType.Obeys .credit [] (fun _ => True) (fun _ => []) s :=
  obeys_typeSpecifier (n := s.left) yieldsBelow_expression (Nat.le_refl _)

theorem obeys_qualifierTurn (q : Qualifiers) :
    (qualifierTurn q).Obeys k pre (Turn.Moves fun _ => False)
      (Turn.leaves (fun _ => pre) fun _ => pre) s := by
  refine .on_kind ?_
  split
  · next hkind =>
      refine (obeys_advance (.inl (hkind ▸ nofun))).bind_moved fun _ _ _ => ?_
      exact obeys_pure not_false fun _ => Trades.refl
  · exact obeys_pure not_false fun _ => Trades.refl

theorem obeys_qualifiers (s : ParseState) :
    qualifiers.Obeys k pre (fun _ => False) (fun _ => pre) s := by
  have hturn : ∀ q (t : ParseState), t.left < s.left + 1 →
      (qualifierTurn q).Obeys k pre (Turn.Moves fun _ => False)
        (Turn.leaves (fun _ => pre) fun _ => pre) t :=
    fun q _ _ => obeys_qualifierTurn q
  exact Obeys.repeated hturn .none s (Nat.lt_succ_self _)

/-- The size between brackets is an expression, if there is one. -/
theorem obeys_arraySuffix :
    arraySuffix.Obeys .credit [] (fun _ => False) (fun size => optional size .expression) s := by
  refine (obeys_acceptMark .openBracket).bind fun _ t₁ h₁ _ => ?_
  split
  · refine (obeys_expression .default []).bind fun size t₂ h₂ _ => ?_
    refine (obeys_expectMark .closeBracket).bind fun _ t₃ h₃ _ => ?_
    exact obeys_pure not_false fun _ => Trades.refl
  · exact obeys_pure not_false fun _ => Trades.refl

/-- The semantic behind a colon is a semantic, if there is one that is known. -/
theorem obeys_semantic :
    semantic.Obeys .credit [] (fun _ => False) (fun tie => optional tie .semantic) s := by
  refine (obeys_acceptMark .colon).bind fun _ t₁ h₁ _ => ?_
  split
  · refine (obeys_expect .name nofun).bind fun t t₂ h₂ _ => ?_
    exact obeys_build (Build.grafts_semantic t.text)
  · exact obeys_pure not_false fun _ => Trades.refl

/-! ### Initial values -/

theorem obeys_initializerTurn {inner : Unit → Parser NodeId} (hi : (inner ()).Yields .initializer s)
    (list : Option NodeId) :
    (initializerTurn inner list).Obeys .credit (sequence .initializers list)
      (Turn.Moves fun _ => False)
      (Turn.leaves (sequence .initializers) (sequence .initializers)) s := by
  refine .on_kind ?_
  split
  · exact obeys_pure not_false fun _ => Trades.refl
  · refine (Obeys.beside _ hi).bind_moved fun value t₁ h₁ => ?_
    refine (obeys_buildLink .initializers list value).bind fun list t₂ h₂ _ => ?_
    refine (obeys_acceptMark .comma).bind fun more t₃ h₃ _ => ?_
    split
    · exact obeys_pure not_false fun _ => Trades.refl
    · exact obeys_pure not_false fun _ => Trades.refl

theorem yields_initializerRule {inner : Unit → Parser NodeId}
    (hi : ∀ u t, t.left < n → (inner u).Yields .initializer t) (u : Unit) (hs : s.left ≤ n) :
    (initializerRule inner u).Yields .initializer s := by
  refine Obeys.on_kind ?_
  split
  · next hkind =>
      refine (obeys_advance (.inl (hkind ▸ nofun))).bind_moved fun _ t₁ h₁ => ?_
      have hturn := fun list t (ht : t.left < n) => obeys_initializerTurn (hi () t ht) list
      refine (Obeys.repeated hturn none t₁ (by omega)).bind fun list t₂ h₂ _ => ?_
      split
      · refine .on_kind ?_
        split
        · next list hkind =>
            refine (obeys_advance (.inl (hkind ▸ nofun))).bind fun _ _ _ _ => ?_
            refine obeys_pure not_false fun _ => Trades.cast fun n hn => ?_
            simp only [Node.plays] at hn ⊢
            rw [hn, Bool.or_true]
        · exact obeys_unexpected _
      · exact obeys_unexpected _
  · exact (yields_expression .comma s).cast fun _ => Node.plays_initializer

/-- **An initial value reads something and leaves an initial value.** -/
theorem yields_initializer (s : ParseState) : initializer.Yields .initializer s :=
  Yields.fix (fun _ _ hi u _ ht => yields_initializerRule hi u ht) () s

/-! ### Variables -/

theorem obeys_declarator (q : Qualifiers) (type : DataType) (name : Token) :
    (declarator q type name).Obeys .credit [] (fun _ => False) (fun id => [(id, .declaration)])
      s := by
  refine obeys_arraySuffix.bind fun size t₁ h₁ _ => ?_
  refine (Obeys.beside _ obeys_semantic).bind fun tie t₂ h₂ _ => ?_
  refine (obeys_acceptMark .assignment).bind fun _ t₃ h₃ _ => ?_
  have hbuild := fun value (t : ParseState) =>
    obeys_build (k := .credit) (s := t)
      (Build.grafts_declaration q type name.text size tie value)
  dsimp only
  split
  · refine ((yields_initializer t₃).map_some _).bind fun value t₄ h₄ _ => ?_
    exact hbuild value t₄
  · have hnone := hbuild none t₃
    rw [optional_none, List.append_nil] at hnone
    exact Obeys.look rfl hnone

theorem obeys_declaratorTurn (q : Qualifiers) (type : DataType) (list : NodeId) :
    (declaratorTurn q type list).Obeys .credit [(list, .list .declarators)]
      (Turn.Moves fun _ => False)
      (Turn.leaves (fun id => [(id, .list .declarators)]) fun id => [(id, .list .declarators)])
      s := by
  refine (obeys_acceptMark .comma).bind fun more t₁ h₁ hmore => ?_
  split
  · refine (obeys_expect .name nofun).bind_moved fun name t₂ h₂ => ?_
    refine (Obeys.beside _ (obeys_declarator q type name)).bind fun item t₃ h₃ _ => ?_
    have hgrafts := Build.grafts_add (.link .declarators (some list) item)
      (r := .list .declarators) rfl
    refine (obeys_build hgrafts).bind fun id t₄ h₄ _ => ?_
    exact obeys_pure not_false fun _ => Trades.refl
  · exact obeys_pure not_false fun _ => Trades.refl

/-- Variables are a statement and a part of a program. -/
theorem obeys_declarators {r : Role} (hr : ∀ d, (Node.declarationStatement d).plays r)
    (q : Qualifiers) (type : DataType) (first : Token) :
    (declarators q type first).Obeys .credit [] (fun _ => False) (fun id => [(id, r)]) s := by
  refine (obeys_declarator q type first).bind fun item t₁ h₁ _ => ?_
  have hgrafts := Build.grafts_add (.link .declarators none item) (r := .list .declarators) rfl
  refine (obeys_build hgrafts).bind fun list t₂ h₂ _ => ?_
  have hturn := fun list t (_ : t.left < t₂.left + 1) =>
    obeys_declaratorTurn (s := t) q type list
  refine (Obeys.repeated hturn list t₂ (Nat.lt_succ_self _)).bind fun list t₃ h₃ _ => ?_
  refine .on_kind ?_
  split
  · next hkind =>
      refine (obeys_advance (.inl (hkind ▸ nofun))).bind fun _ _ _ _ => ?_
      exact obeys_build (Build.grafts_add (.declarationStatement list) (hr list))
  · exact obeys_unexpected _

theorem yields_declarationStatement (s : ParseState) :
    declarationStatement.Yields .statement s := by
  refine (obeys_qualifiers s).bind fun q t₁ h₁ _ => ?_
  refine (obeys_dataType t₁).bind_moved fun type t₂ h₂ => ?_
  refine (obeys_expect .name nofun).bind fun name t₃ h₃ _ => ?_
  exact obeys_declarators (fun _ => rfl) q type name

/-! ### Structs -/

theorem obeys_structDeclarator (list : Option NodeId) :
    (structDeclarator list).Obeys .credit (sequence .structDeclarators list)
      (Turn.Moves fun _ => True)
      (Turn.leaves (sequence .structDeclarators) (sequence .structDeclarators)) s := by
  refine (obeys_expect .name nofun).bind_moved fun name t₁ h₁ => ?_
  refine (Obeys.beside _ obeys_arraySuffix).bind fun size t₂ h₂ _ => ?_
  refine (Obeys.beside _ obeys_semantic).bind fun tie t₃ h₃ _ => ?_
  rw [List.append_assoc]
  refine (obeys_build ((Build.grafts_structDeclarator name.text size tie).framed _)).bind
    fun item t₄ h₄ _ => ?_
  refine (obeys_buildLink .structDeclarators list item).bind fun list t₅ h₅ _ => ?_
  refine (obeys_acceptMark .comma).bind fun more t₆ h₆ _ => ?_
  split
  · exact obeys_pure not_false fun _ => Trades.refl
  · exact obeys_pure not_false fun _ => Trades.refl

theorem yields_structMember (s : ParseState) : structMember.Yields .structMember s := by
  refine (obeys_dataType s).bind_moved fun type t₁ h₁ => ?_
  have hturn := fun list t (_ : t.left < s.left) => obeys_structDeclarator (s := t) list
  refine (Obeys.repeated hturn none t₁ h₁).bind fun list t₂ h₂ _ => ?_
  refine .on_kind ?_
  split
  · next hkind =>
      refine (obeys_advance (.inl (hkind ▸ nofun))).bind fun _ _ _ _ => ?_
      split
      · next list => exact obeys_build (Build.grafts_add (.structMember type list) rfl)
      · exact obeys_unexpected _
  · exact obeys_unexpected _

theorem obeys_structMemberTurn (list : Option NodeId) :
    (structMemberTurn list).Obeys .credit (sequence .structMembers list)
      (Turn.Moves fun _ => False)
      (Turn.leaves (sequence .structMembers) (sequence .structMembers)) s := by
  refine .on_kind ?_
  split
  · exact obeys_pure not_false fun _ => Trades.refl
  · refine (Obeys.beside _ (yields_structMember s)).bind_moved fun member t₁ h₁ => ?_
    refine (obeys_buildLink .structMembers list member).bind fun list t₂ h₂ _ => ?_
    exact obeys_pure not_false fun _ => Trades.refl

theorem yields_structDeclaration (s : ParseState) : structDeclaration.Yields .external s := by
  refine (obeys_expectKeyword .structWord).bind_moved fun _ t₁ h₁ => ?_
  refine (obeys_expect .name nofun).bind fun name t₂ h₂ _ => ?_
  refine (obeys_build ((Build.apart_beginStruct name.text).grafts [])).bind fun id t₃ h₃ _ => ?_
  refine (obeys_expectMark .openCurly).bind fun _ t₄ h₄ _ => ?_
  have hturn := fun list t (_ : t.left < s.left) => obeys_structMemberTurn (s := t) list
  refine (Obeys.repeated hturn none t₄ (by omega)).bind fun members t₅ h₅ _ => ?_
  refine (obeys_expectMark .closeCurly).bind fun _ t₆ h₆ _ => ?_
  refine (obeys_expectMark .semicolon).bind fun _ t₇ h₇ _ => ?_
  exact obeys_build (Build.grafts_structDeclaration id members)

/-! ### Parameters -/

theorem yields_parameter (s : ParseState) : parameter.Yields .parameter s := by
  refine (obeys_qualifiers s).bind fun q t₁ h₁ _ => ?_
  refine (obeys_dataType t₁).bind_moved fun type t₂ h₂ => ?_
  have htail : ∀ (name : Option String) (t : ParseState),
      (arraySuffix >>= fun size => semantic >>= fun tie =>
        build (Build.parameter q type name size tie)).Obeys .credit [] (fun _ => False)
        (fun id => [(id, .parameter)]) t := by
    intro name t
    refine obeys_arraySuffix.bind fun size t₄ h₄ _ => ?_
    refine (Obeys.beside _ obeys_semantic).bind fun tie t₅ h₅ _ => ?_
    exact obeys_build (Build.grafts_parameter q type name size tie)
  refine .on_kind ?_
  dsimp only
  split
  · next hkind =>
      refine (obeys_advance (.inl (hkind ▸ nofun))).bind fun t t₃ h₃ _ => ?_
      exact Obeys.look rfl (htail (some t.text) t₃)
  · exact Obeys.look rfl (htail none t₂)

/-- The word `void` is read only where it may be. -/
theorem voidAhead_apply (s : ParseState) :
    ∃ v, voidAhead s = .ok v s ∧ (v = true → s.cursor.Readable) := by
  by_cases htext : s.cursor.current.text = "void"
  · refine ⟨decide ((s.cursor.peek 1).kind = .mark .closeParen), ?_, fun h => ?_⟩
    · unfold voidAhead
      rw [bind_apply, current_apply]
      simp only [if_pos htext]
      rfl
    · exact .inr ⟨htext, of_decide_eq_true h⟩
  · refine ⟨false, ?_, nofun⟩
    unfold voidAhead
    rw [bind_apply, current_apply]
    simp only [if_neg htext]
    rfl

theorem obeys_parameterTurn (list : Option NodeId) :
    (parameterTurn list).Obeys .credit (sequence .parameters list) (Turn.Moves fun _ => True)
      (Turn.leaves (sequence .parameters) (sequence .parameters)) s := by
  refine (Obeys.beside _ (yields_parameter s)).bind_moved fun item t₁ h₁ => ?_
  refine (obeys_buildLink .parameters list item).bind fun list t₂ h₂ _ => ?_
  refine (obeys_acceptMark .comma).bind fun more t₃ h₃ _ => ?_
  split
  · exact obeys_pure not_false fun _ => Trades.refl
  · exact obeys_pure not_false fun _ => Trades.refl

/-- Parameters leave their sequence, or nothing if there are none. -/
theorem obeys_parameters (s : ParseState) :
    parameters.Obeys .credit [] (fun _ => False) (sequence .parameters) s := by
  obtain ⟨isVoid, hvoid, hread⟩ := voidAhead_apply s
  refine Obeys.look hvoid (Obeys.on_kind ?_)
  dsimp only
  split
  · next h =>
      refine (obeys_advance (hread h)).bind fun _ t₁ h₁ _ => ?_
      exact Obeys.look rfl (obeys_closeParen .parameters none)
  · split
    · exact Obeys.look rfl (obeys_closeParen .parameters none)
    · have hturn := fun list t (_ : t.left < s.left + 1) => obeys_parameterTurn (s := t) list
      refine (Obeys.repeated hturn none s (Nat.lt_succ_self _)).bind fun list t₂ h₂ _ => ?_
      exact obeys_closeParen .parameters list

end ShaderLang.Grammar
