/-
**Types and expressions keep to the terms.**

The rules are looked at under the assumption that `expr` keeps to the terms where fewer than `n`
tokens are left; each reads a token before it comes to `expr`, so it keeps to them where `n` are.

Main results:

* `ShaderLang.Grammar.obeys_typeSpecifier` — types;
* `ShaderLang.Grammar.yields_operand`, `ShaderLang.Grammar.obeys_extension` — operands and extensions;
* `ShaderLang.Grammar.yields_expression` — **an expression reads something and leaves one
  expression**.
-/

import ShaderLang.Grammar.Expression
import ShaderLang.Proofs.Grammar.Conduct

set_option relaxedAutoImplicit false
set_option autoImplicit false

namespace ShaderLang.Grammar

open ShaderLang.Parser ShaderLang.Arena

variable {expr : Power → Parser NodeId} {n : Nat} {s : ParseState} {k : Balance} {pre : List Part}

/-- The rule for expressions keeps to the terms where fewer than `n` tokens are left. -/
def YieldsBelow (n : Nat) (expr : Power → Parser NodeId) : Prop :=
  ∀ j t, t.left < n → (expr j).Yields .expression t

/-- An expression beside other parts. -/
theorem YieldsBelow.beside (he : YieldsBelow n expr) (j : Power) {t : ParseState} (ht : t.left < n)
    (extra : List Part) :
    (expr j).Obeys .credit extra (fun _ => True) (fun id => extra ++ [(id, .expression)]) t :=
  Obeys.beside extra (he j t ht)

/-! ### Types -/

/-- The name of a type leaves the parts as they are. -/
theorem obeys_componentType :
    componentType.Obeys k pre (fun _ => True) (fun _ => pre) s :=
  (obeys_expect .typeName nofun).bind_moved fun t _ _ =>
    obeys_build ((Build.apart_namedType t.text).grafts pre)

theorem obeys_vectorSpecifier (he : YieldsBelow n expr) (hs : s.left ≤ n) :
    (vectorSpecifier expr).Obeys .credit [] (fun _ => True) (fun _ => []) s := by
  refine (obeys_expectKeyword .vectorWord).bind_moved fun _ t₁ h₁ => ?_
  refine (obeys_acceptMark .less).bind fun _ t₂ h₂ _ => ?_
  split
  · refine obeys_componentType.bind fun component t₃ h₃ _ => ?_
    refine (obeys_expectMark .comma).bind fun _ t₄ h₄ _ => ?_
    refine (he.beside .relational (by omega) []).bind fun size t₅ h₅ _ => ?_
    refine (obeys_expectMark .greater).bind fun _ t₆ h₆ _ => ?_
    exact obeys_build (Build.grafts_vectorType component size)
  · exact obeys_build ((Build.apart_namedType _).grafts [])

theorem obeys_matrixSpecifier (he : YieldsBelow n expr) (hs : s.left ≤ n) :
    (matrixSpecifier expr).Obeys .credit [] (fun _ => True) (fun _ => []) s := by
  refine (obeys_expectKeyword .matrixWord).bind_moved fun _ t₁ h₁ => ?_
  refine (obeys_acceptMark .less).bind fun _ t₂ h₂ _ => ?_
  split
  · refine obeys_componentType.bind fun component t₃ h₃ _ => ?_
    refine (obeys_expectMark .comma).bind fun _ t₄ h₄ _ => ?_
    refine (he.beside .relational (by omega) []).bind fun rows t₅ h₅ _ => ?_
    refine (obeys_expectMark .comma).bind fun _ t₆ h₆ _ => ?_
    refine (he.beside .relational (by omega) [(rows, .expression)]).bind fun columns t₇ h₇ _ => ?_
    refine (obeys_expectMark .greater).bind fun _ t₈ h₈ _ => ?_
    exact obeys_build (Build.grafts_matrixType component rows columns)
  · exact obeys_build ((Build.apart_namedType _).grafts [])

/-- A type reads something and leaves no part. -/
theorem obeys_typeSpecifier (he : YieldsBelow n expr) (hs : s.left ≤ n) :
    (typeSpecifier expr).Obeys .credit [] (fun _ => True) (fun _ => []) s := by
  refine .on_kind ?_
  split
  · exact obeys_componentType
  · exact obeys_vectorSpecifier he hs
  · exact obeys_matrixSpecifier he hs
  · next hkind =>
      refine (obeys_advance (.inl (hkind ▸ nofun))).bind_moved fun t _ _ => ?_
      exact obeys_build ((Build.apart_structType t.text).grafts [])
  · exact obeys_unexpected _

/-! ### Arguments -/

/-- A sequence so far. -/
abbrev sequence (kind : ListKind) (list : Option NodeId) : List Part := optional list (.list kind)

theorem obeys_argumentTurn (he : YieldsBelow n expr) (list : Option NodeId) (hs : s.left < n) :
    (argumentTurn expr list).Obeys .credit (sequence .arguments list)
      (Turn.Moves fun _ => True)
      (Turn.leaves (sequence .arguments) (sequence .arguments)) s := by
  refine (he.beside .comma hs _).bind_moved fun item t₁ h₁ => ?_
  refine (obeys_buildLink .arguments list item).bind fun list t₂ h₂ _ => ?_
  refine (obeys_acceptMark .comma).bind fun more t₃ h₃ _ => ?_
  split
  · exact obeys_pure not_false fun _ => Trades.refl
  · exact obeys_pure not_false fun _ => Trades.refl

/-- What a sequence in parentheses ends with. -/
theorem obeys_closeParen (kind : ListKind) (list : Option NodeId) :
    (currentKind >>= fun next =>
      if next = .mark .closeParen then advance >>= fun _ => pure list
      else unexpected [.mark .comma, .mark .closeParen] : Parser (Option NodeId)).Obeys k
        (sequence kind list) (fun _ => False) (sequence kind) s := by
  refine .on_kind ?_
  split
  · next hkind =>
      refine (obeys_advance (.inl (hkind ▸ nofun))).bind fun _ _ _ _ => ?_
      exact obeys_pure not_false fun _ => Trades.refl
  · exact obeys_unexpected _

/-- Arguments leave their sequence, or nothing if there are none. -/
theorem obeys_arguments (he : YieldsBelow n expr) (hs : s.left ≤ n) :
    (arguments expr).Obeys .credit [] (fun _ => True) (sequence .arguments) s := by
  refine (obeys_expectMark .openParen).bind_moved fun _ t₁ h₁ => ?_
  refine (obeys_acceptMark .closeParen).bind fun _ t₂ h₂ _ => ?_
  split
  · exact obeys_pure not_false fun _ => Trades.refl
  · have hturn := fun list t ht => obeys_argumentTurn (s := t) he list ht
    refine (Obeys.repeated hturn none t₂ (by omega)).bind fun list t₃ h₃ _ => ?_
    exact obeys_closeParen .arguments list

/-! ### Operands -/

/-- A token that is an expression by itself. -/
theorem yields_literal {step : String → Build NodeId}
    (hstep : ∀ text, (step text).Grafts [] fun id => [(id, .expression)])
    (hread : s.cursor.Readable) : (literal step).Yields .expression s :=
  (obeys_advance hread).bind_moved fun t _ _ => obeys_build (hstep t.text)

theorem typeLength_apply (ahead : Nat) (s : ParseState) :
    typeLength ahead s =
      .ok (s.cursor.typeLength (fun name => (s.builder.structs.lookup name).isSome) ahead) s := rfl

/-- Looking for a conversion reads nothing. -/
theorem castAhead_apply (s : ParseState) : ∃ v, castAhead s = .ok v s := by
  unfold castAhead
  rw [bind_apply, typeLength_apply]
  cases s.cursor.typeLength (fun name => (s.builder.structs.lookup name).isSome) 1 with
  | none => exact ⟨_, rfl⟩
  | some length => exact ⟨_, rfl⟩

theorem yields_parenthesised (he : YieldsBelow n expr) (hs : s.left ≤ n) :
    (parenthesised expr).Yields .expression s := by
  obtain ⟨isCast, hcast⟩ := castAhead_apply s
  refine Obeys.look hcast ?_
  refine (obeys_expectMark .openParen).bind_moved fun _ t₁ h₁ => ?_
  split
  · refine (obeys_typeSpecifier he (by omega)).bind fun type t₂ h₂ _ => ?_
    refine (obeys_expectMark .closeParen).bind fun _ t₃ h₃ _ => ?_
    refine (he.beside .unary (by omega) []).bind fun value t₄ h₄ _ => ?_
    exact obeys_build (Build.grafts_add (.cast type value) rfl)
  · refine (he.beside .default (by omega) []).bind fun value t₂ h₂ _ => ?_
    refine (obeys_expectMark .closeParen).bind fun _ t₃ h₃ _ => ?_
    exact obeys_pure not_false fun _ => Trades.refl

theorem yields_construction (he : YieldsBelow n expr) (hs : s.left ≤ n) :
    (construction expr).Yields .expression s := by
  refine (obeys_typeSpecifier he hs).bind_moved fun type t₁ h₁ => ?_
  refine (obeys_arguments he (by omega)).bind fun list t₂ h₂ _ => ?_
  exact obeys_build (Build.grafts_add (.construct type list) rfl)

theorem yields_intrinsicCall (he : YieldsBelow n expr) (hs : s.left ≤ n)
    (hread : s.cursor.Readable) : (intrinsicCall expr).Yields .expression s := by
  refine (obeys_advance hread).bind_moved fun t t₁ h₁ => ?_
  refine (obeys_arguments he (by omega)).bind fun list t₂ h₂ _ => ?_
  exact obeys_build (Build.grafts_intrinsicCall t.text list)

theorem yields_leading (he : YieldsBelow n expr) (hs : s.left ≤ n) (hread : s.cursor.Readable)
    (op : Leading) : (leading expr op).Yields .expression s := by
  refine (obeys_advance hread).bind_moved fun _ t₁ h₁ => ?_
  refine (he.beside .unary (by omega) []).bind fun value t₂ h₂ _ => ?_
  split
  · next op => exact obeys_build (Build.grafts_add (.unary op value) rfl)
  · next direction => exact obeys_build (Build.grafts_add (.step .before direction value) rfl)

/-- An operand reads something and leaves an expression. -/
theorem yields_operand (he : YieldsBelow n expr) (hs : s.left ≤ n) :
    (operand expr).Yields .expression s := by
  refine Obeys.on_kind ?_
  split
  case h_1 hkind => exact yields_literal Build.grafts_intLiteral (.inl (hkind ▸ nofun))
  case h_2 hkind => exact yields_literal Build.grafts_floatLiteral (.inl (hkind ▸ nofun))
  case h_3 hkind => exact yields_literal Build.grafts_stringLiteral (.inl (hkind ▸ nofun))
  case h_4 hkind =>
      exact yields_literal (fun _ => Build.grafts_add (.bool true) rfl) (.inl (hkind ▸ nofun))
  case h_5 hkind =>
      exact yields_literal (fun _ => Build.grafts_add (.bool false) rfl) (.inl (hkind ▸ nofun))
  case h_6 hkind => exact yields_literal Build.grafts_name (.inl (hkind ▸ nofun))
  case h_7 hkind => exact yields_intrinsicCall he hs (.inl (hkind ▸ nofun))
  case h_8 hkind => exact yields_construction he hs
  case h_9 hkind => exact yields_construction he hs
  case h_10 hkind => exact yields_construction he hs
  case h_11 hkind => exact yields_parenthesised he hs
  case h_12 m _ hkind =>
      split
      · next op _ => exact yields_leading he hs (.inl (hkind ▸ nofun)) op
      · exact obeys_unexpected _
  case h_13 => exact obeys_unexpected _

/-! ### Extensions -/

theorem obeys_fieldName : fieldName.Obeys k pre (fun _ => True) (fun _ => pre) s := by
  refine .on_kind ?_
  split
  · next hkind => exact obeys_advance (.inl (hkind ▸ nofun))
  · next hkind => exact obeys_advance (.inl (hkind ▸ nofun))
  · exact obeys_unexpected _

/-- An extension reads something and makes one expression of the one so far. -/
theorem obeys_extend (he : YieldsBelow n expr) (hs : s.left ≤ n) (hread : s.cursor.Readable)
    (left : NodeId) (e : Extension) :
    (extend expr left e).Obeys .credit [(left, .expression)] (fun _ => True)
      (fun id => [(id, .expression)]) s := by
  cases e with
  | binary op =>
      refine (obeys_advance hread).bind_moved fun _ t₁ h₁ => ?_
      refine (he.beside op.power (by omega) _).bind fun right t₂ h₂ _ => ?_
      exact obeys_build (Build.grafts_add (.binary op left right) rfl)
  | assign op =>
      refine (obeys_advance hread).bind_moved fun _ t₁ h₁ => ?_
      refine (he.beside .comma (by omega) _).bind fun value t₂ h₂ _ => ?_
      exact obeys_build (Build.grafts_add (.assign op left value) rfl)
  | ternary =>
      refine (obeys_advance hread).bind_moved fun _ t₁ h₁ => ?_
      refine (he.beside .default (by omega) _).bind fun yes t₂ h₂ _ => ?_
      refine (obeys_expectMark .colon).bind fun _ t₃ h₃ _ => ?_
      refine (he.beside .assignment (by omega) _).bind fun no t₄ h₄ _ => ?_
      exact obeys_build (Build.grafts_add (.ternary left yes no) rfl)
  | comma =>
      refine (obeys_advance hread).bind_moved fun _ t₁ h₁ => ?_
      refine (he.beside .comma (by omega) _).bind fun right t₂ h₂ _ => ?_
      exact obeys_build (Build.grafts_add (.comma left right) rfl)
  | step direction =>
      refine (obeys_advance hread).bind_moved fun _ t₁ h₁ => ?_
      exact obeys_build (Build.grafts_add (.step .after direction left) rfl)
  | element =>
      refine (obeys_advance hread).bind_moved fun _ t₁ h₁ => ?_
      refine (he.beside .default (by omega) _).bind fun position t₂ h₂ _ => ?_
      refine (obeys_expectMark .closeBracket).bind fun _ t₃ h₃ _ => ?_
      exact obeys_build (Build.grafts_element left position)
  | call =>
      refine ((obeys_arguments he hs).beside _).bind_moved fun list t₁ h₁ => ?_
      exact obeys_build (Build.grafts_call left list)
  | field =>
      refine (obeys_advance hread).bind_moved fun _ t₁ h₁ => ?_
      refine obeys_fieldName.bind fun t t₂ h₂ _ => ?_
      exact obeys_build (Build.grafts_field left t.text)

/-- Where an extension begins a token may be read. -/
theorem readable_of_above {level : Power} {e : Extension}
    (h : Extension.above level s.cursor.current.kind = some e) : s.cursor.Readable := by
  refine .inl fun hkind => ?_
  rw [hkind] at h
  contradiction

/-- One more extension, or the expression as it is. -/
theorem obeys_extension (he : YieldsBelow n expr) (hs : s.left ≤ n) (level : Power)
    (left : NodeId) :
    (extension expr level left).Obeys .credit [(left, .expression)] (Turn.Moves fun _ => False)
      (Turn.leaves (fun id => [(id, .expression)]) fun id => [(id, .expression)]) s := by
  refine .on_kind ?_
  split
  · next e h =>
      refine (obeys_extend he hs (readable_of_above h) left e).bind_moved fun longer _ _ => ?_
      exact obeys_pure not_false fun _ => Trades.refl
  · exact obeys_pure not_false fun _ => Trades.refl

/-! ### Expressions -/

theorem yields_expressionRule (he : YieldsBelow n expr) (hs : s.left ≤ n) (level : Power) :
    (expressionRule expr level).Yields .expression s := by
  refine (yields_operand he hs).bind_moved fun first t₁ h₁ => ?_
  have hturn := fun left t (ht : t.left < n) =>
    obeys_extension (s := t) he (Nat.le_of_lt ht) level left
  exact Obeys.repeated hturn first t₁ (by omega)

/-- **An expression reads something and leaves one expression.** -/
theorem yields_expression (level : Power) (s : ParseState) :
    (expression level).Yields .expression s :=
  Yields.fix (fun _ _ he j _ ht => yields_expressionRule he ht j) level s

/-- An expression beside other parts. -/
theorem obeys_expression (level : Power) (extra : List Part) :
    (expression level).Obeys .credit extra (fun _ => True)
      (fun id => extra ++ [(id, .expression)]) s :=
  Obeys.beside extra (yields_expression level s)

/-- Expressions keep to the terms wherever they are read. -/
theorem yieldsBelow_expression : YieldsBelow n expression := fun j t _ => yields_expression j t

end ShaderLang.Grammar
