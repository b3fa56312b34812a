/-
**Expressions are laid out as they are written.**

Each rule for a type or an expression is looked at once: the pieces that it puts behind those before it are
the tokens that it reads and the nodes that the rules inside it leave, and the step of building at its end
finds the pieces of a production.

A type leaves its first token only, since the extents in it are not part of the tree.  Of parentheses
around an expression nothing is left.

Main results:

* `ShaderLang.Build.carries_name`, `ShaderLang.Build.carries_call`, … — what the steps of building find;
* `ShaderLang.Grammar.carries_typeSpecifier`, `ShaderLang.Grammar.carries_arguments` — types and
  arguments;
* `ShaderLang.Grammar.writes_expression` — **an expression is laid out as it is written**.
-/

import ShaderLang.Proofs.Grammar.Carrying
import ShaderLang.Proofs.Grammar.Expressions
import ShaderLang.Proofs.Grammar.Retracing

set_option relaxedAutoImplicit false
set_option autoImplicit false

namespace ShaderLang

/-! ### Building expressions -/

namespace Build

open Arena

variable {pieces : List Piece}

theorem carries_intLiteral (text : String) :
    (intLiteral text).Carries [.token [.int]] fun id => [.node id] := by
  unfold intLiteral
  split
  · exact carries_add (.int ..)
  · exact (carries_report _ _).bind fun _ => carries_add (.int ..)

theorem carries_floatLiteral (text : String) :
    (floatLiteral text).Carries [.token [.float]] fun id => [.node id] := by
  unfold floatLiteral
  split
  · exact carries_add (.float _)
  · exact (carries_report _ _).bind fun _ => carries_add (.float _)

theorem carries_stringLiteral (text : String) :
    (stringLiteral text).Carries [.token [.string]] fun id => [.node id] := by
  refine Carries.bind (fun b x b' hx => ?_) fun id => carries_add (.string id)
  obtain ⟨-, rfl⟩ := EStateM.Result.ok.inj hx
  have hgrows : b.Grows { b with names := (b.names.addLiteral text true).2 } :=
    (Builder.Step.literal text).steps.grows
  refine ⟨hgrows, fun front ts hw => ⟨?_, hgrows.covers hw.covers⟩⟩
  exact hw.sourced.of_pool rfl (b.names.pool.texts_addLiteral text true) rfl

theorem carries_name (text : String) {kinds : List TokenKind} (hkinds : kinds ⊆ [.name, .intrinsic]) :
    (name text).Carries [.text kinds text] fun id => [.node id] :=
  carries_occur_add text hkinds [] [] fun _ => rfl

theorem carries_element (array position : NodeId) :
    (element array position).Carries (Node.index array position).production fun id => [.node id] := by
  refine (carries_ask _ _).bind fun isInt => ?_
  split
  · exact (carries_report _ _).bind fun _ => carries_add (.index array position)
  · exact carries_add (.index array position)

theorem carries_field (base : NodeId) (text : String) :
    (field base text).Carries [.node base, .mark .dot, .text [.name, .intrinsic] text]
      fun id => [.node id] :=
  carries_occur_add text (List.Subset.refl _) [.node base, .mark .dot] [] fun _ => rfl

theorem carries_noteCall (callee : NodeId) (pieces : List Piece) :
    (noteCall callee).Carries pieces fun _ => pieces := by
  refine (carries_ask _ pieces).bind fun n => ?_
  split
  · next x =>
      refine carries_of_same (fun b y b' hy => ?_) pieces
      obtain ⟨-, rfl⟩ := EStateM.Result.ok.inj hy
      dsimp only
      split
      · exact ⟨⟨fun _ _ h => h, fun _ _ h => h, Nat.le_refl _⟩, rfl, rfl⟩
      · exact ⟨.refl b, rfl, rfl⟩
  · exact carries_pure rfl

theorem carries_call (callee : NodeId) (arguments : Option NodeId) :
    (call callee arguments).Carries (.node callee :: Piece.enlisted arguments) fun id => [.node id] :=
  (carries_noteCall callee _).bind fun _ => carries_add (.call callee arguments)

/-- A word for an intrinsic function that there is not is a name that is called. -/
theorem carries_intrinsicCall (text : String) (arguments : Option NodeId) :
    (intrinsicCall text arguments).Carries (.text [.intrinsic] text :: Piece.enlisted arguments)
      fun id => [.node id] := by
  unfold intrinsicCall
  split
  · next i _ =>
      refine (carries_add (.intrinsicCall i arguments)).of_looser ?_
      exact (loosens_text (List.Subset.refl _) text).among [] (Piece.enlisted arguments)
  · refine (carries_report _ _).bind fun _ => ?_
    have hname : (name text).Carries [.text [.intrinsic] text] fun id => [.node id] :=
      carries_name text (by simp)
    exact (hname.among [] _).bind fun callee => carries_call callee arguments

/-! ### Building types -/

theorem carries_namedType (text : String) : (namedType text).Carries pieces fun _ => pieces := by
  unfold namedType
  split
  · exact carries_pure rfl
  · exact (carries_report _ _).bind fun _ => carries_pure rfl

theorem carries_structType (text : String) : (structType text).Carries pieces fun _ => pieces := by
  have hget : (get : Build Builder).Carries pieces fun _ => pieces := by
    refine carries_of_same (fun b x b' hx => ?_) pieces
    obtain ⟨-, rfl⟩ := EStateM.Result.ok.inj hx
    exact ⟨.refl b, rfl, rfl⟩
  refine hget.bind fun b => ?_
  split
  · exact carries_pure rfl
  · exact (carries_report _ _).bind fun _ => carries_pure rfl

theorem carries_dimension (id : NodeId) : (dimension id).Carries pieces fun _ => pieces := by
  refine (carries_ask _ pieces).bind fun value => ?_
  split
  · exact (carries_report _ _).bind fun _ => carries_pure rfl
  · exact (carries_report _ _).bind fun _ => carries_pure rfl
  · split
    · exact carries_pure rfl
    · exact (carries_report _ _).bind fun _ => carries_pure rfl

theorem carries_vectorType (component : DataType) (size : NodeId) :
    (vectorType component size).Carries pieces fun _ => pieces := by
  refine (carries_dimension size).bind fun n => ?_
  split <;> exact carries_pure rfl

theorem carries_matrixType (component : DataType) (rows columns : NodeId) :
    (matrixType component rows columns).Carries pieces fun _ => pieces := by
  refine (carries_dimension rows).bind fun r => (carries_dimension columns).bind fun c => ?_
  split <;> exact carries_pure rfl

end Build

/-! ### Types -/

namespace Grammar

open ShaderLang.Parser Arena

variable {expr : Power → Parser NodeId} {s t : ParseState} {pieces : List Piece}

theorem carries_componentType : componentType.Carries s [] fun _ => [Piece.type] :=
  (carries_expect_token .typeName (by simp [typeStart]) nofun).bind fun t _ =>
    carries_build (Build.carries_namedType t.text)

/-- A word for a generic type is the beginning of a type. -/
theorem carries_genericWord (k : Keyword) (hk : TokenKind.keyword k ∈ typeStart) :
    (expectKeyword k).Carries s [] fun _ => [Piece.type] :=
  (carries_expectKeyword k).loosen fun _ => loosens_token (by simpa using hk)

theorem carries_vectorSpecifier (he : ∀ j, (expr j).Writes) :
    (vectorSpecifier expr).Carries s [] fun _ => [Piece.type] := by
  refine (carries_genericWord .vectorWord (by simp [typeStart])).bind fun _ _ => ?_
  refine ((carries_accept (.mark .less) nofun).skip _).bind fun more _ => ?_
  split
  · refine (carries_componentType.skip _).bind fun component _ => ?_
    refine ((carries_expectMark .comma).skip _).bind fun _ t => ?_
    refine ((he .relational t).skip _).bind fun size _ => ?_
    refine ((carries_expectMark .greater).skip _).bind fun _ _ => ?_
    exact carries_build (Build.carries_vectorType component size)
  · exact carries_build (Build.carries_namedType _)

theorem carries_matrixSpecifier (he : ∀ j, (expr j).Writes) :
    (matrixSpecifier expr).Carries s [] fun _ => [Piece.type] := by
  refine (carries_genericWord .matrixWord (by simp [typeStart])).bind fun _ _ => ?_
  refine ((carries_accept (.mark .less) nofun).skip _).bind fun more _ => ?_
  split
  · refine (carries_componentType.skip _).bind fun component _ => ?_
    refine ((carries_expectMark .comma).skip _).bind fun _ t => ?_
    refine ((he .relational t).skip _).bind fun rows _ => ?_
    refine ((carries_expectMark .comma).skip _).bind fun _ t => ?_
    refine ((he .relational t).skip _).bind fun columns _ => ?_
    refine ((carries_expectMark .greater).skip _).bind fun _ _ => ?_
    exact carries_build (Build.carries_matrixType component rows columns)
  · exact carries_build (Build.carries_namedType _)

/-- **A type leaves its first token.** -/
theorem carries_typeSpecifier (he : ∀ j, (expr j).Writes) :
    (typeSpecifier expr).Carries s [] fun _ => [Piece.type] := by
  refine .on_kind ?_
  split
  case h_1 => exact carries_componentType
  case h_2 => exact carries_vectorSpecifier he
  case h_3 => exact carries_matrixSpecifier he
  case h_4 hkind =>
      have hread : advance.Carries s [] fun _ => [Piece.type] :=
        carries_token (hkind ▸ by simp [typeStart]) (hkind ▸ nofun)
      exact hread.bind fun k _ => carries_build (Build.carries_structType k.text)
  case h_5 => exact carries_unexpected _

/-! ### Sequences -/

/-- Behind an item there is a comma and one more item, or the sequence is done. -/
theorem carries_comma {kind : ListKind} (hkind : kind.separator = [.mark .comma]) (list : Option NodeId) :
    (accept (.mark .comma) >>= fun more =>
      if more = true then pure (Turn.again list) else pure (.done list)).Carries s (Piece.nodes list)
        (Turn.written kind.front Piece.nodes) := by
  have hread : (accept (.mark .comma)).Carries s (Piece.nodes list) fun more =>
      cond more (kind.front list) (Piece.nodes list) := by
    refine (carries_accept (.mark .comma) nofun).sublist fun more => ?_
    cases more with
    | true => exact hkind ▸ kind.front_sublist list
    | false => exact List.sublist_append_left ..
  refine hread.bind fun more _ => ?_
  cases more <;> exact carries_pure rfl

theorem carries_argumentTurn (he : ∀ j, (expr j).Writes) (list : Option NodeId) :
    (argumentTurn expr list).Carries s (ListKind.front .arguments list)
      (Turn.written (ListKind.front .arguments) Piece.nodes) := by
  refine ((he .comma s).next _).bind fun item _ => ?_
  exact (carries_buildLink .arguments list item).bind fun list _ => carries_comma rfl list

/-- Behind the opening parenthesis and the items the closing one stands. -/
theorem carries_closeParen (list : Option NodeId) :
    (currentKind >>= fun next =>
      if next = .mark .closeParen then advance >>= fun _ => pure list
      else unexpected [.mark .comma, .mark .closeParen] : Parser (Option NodeId)).Carries s
        (.mark .openParen :: Piece.nodes list) Piece.enlisted := by
  refine .on_kind ?_
  split
  · next hkind => exact (carries_mark hkind).bind fun _ _ => carries_pure rfl
  · exact carries_unexpected _

/-- Arguments between parentheses. -/
theorem carries_arguments (he : ∀ j, (expr j).Writes) :
    (arguments expr).Carries s [] Piece.enlisted := by
  refine (carries_expectMark .openParen).bind fun _ t => ?_
  refine (carries_accept (.mark .closeParen) nofun).bind fun isEmpty t => ?_
  cases isEmpty with
  | true => exact carries_pure rfl
  | false =>
      have hitems := carries_repeated (fun list _ => carries_argumentTurn he list) none t
      exact (hitems.next [.mark .openParen]).bind fun list _ => carries_closeParen list

/-! ### Operands -/

/-- A token that is an expression by itself. -/
theorem carries_literal {step : String → Build NodeId} {kind : TokenKind}
    (hkind : s.cursor.current.kind = kind) (hne : kind ≠ .endOfFile)
    (hstep : ∀ text, (step text).Carries [.token [kind]] fun id => [.node id]) :
    (literal step).Carries s [] fun id => [.node id] := by
  have hread : advance.Carries s [] fun _ => [.token [kind]] :=
    carries_token (hkind ▸ List.mem_singleton_self _) (hkind ▸ hne)
  exact hread.bind fun t _ => carries_build (hstep t.text)

theorem carries_castAhead : castAhead.Carries s pieces fun _ => pieces := by
  obtain ⟨v, hv⟩ := castAhead_apply s
  exact .congr (.refl s pieces) (carries_pure rfl) (hv.trans (pure_apply v s).symm)

/-- Of parentheses around an expression nothing is left. -/
theorem writes_parenthesised (he : ∀ j, (expr j).Writes) : (parenthesised expr).Writes := by
  intro s
  refine carries_castAhead.bind fun isCast _ => ?_
  refine (carries_expectMark .openParen).bind fun _ t => ?_
  split
  · refine ((carries_typeSpecifier he).next _).bind fun type _ => ?_
    refine (carries_expectMark .closeParen).bind fun _ t => ?_
    refine ((he .unary t).next _).bind fun value _ => ?_
    exact carries_build (Build.carries_add (.cast type value))
  · refine ((he .default t).next _).bind fun value t => ?_
    have hclose : (expectMark .closeParen).Carries t [.mark .openParen, .node value]
        fun _ => [.node value] := (carries_expectMark .closeParen).sublist fun _ => by simp
    exact hclose.bind fun _ _ => carries_pure rfl

theorem writes_construction (he : ∀ j, (expr j).Writes) : (construction expr).Writes := by
  intro s
  refine (carries_typeSpecifier he).bind fun type _ => ?_
  refine ((carries_arguments he).next _).bind fun list _ => ?_
  exact carries_build (Build.carries_add (.construct type list))

theorem carries_intrinsicCall (he : ∀ j, (expr j).Writes) (hkind : s.cursor.current.kind = .intrinsic) :
    (intrinsicCall expr).Carries s [] fun id => [.node id] := by
  have hread : advance.Carries s [] fun x => [.text [.intrinsic] x.text] := carries_word hkind nofun
  refine hread.bind fun k _ => ((carries_arguments he).next _).bind fun list _ => ?_
  exact carries_build (Build.carries_intrinsicCall k.text list)

theorem carries_leading (he : ∀ j, (expr j).Writes) {m : Mark} {op : Leading}
    (hm : Leading.ofMark m = some op) (hkind : s.cursor.current.kind = .mark m) :
    (leading expr op).Carries s [] fun id => [.node id] := by
  have hread : advance.Carries s [] fun _ => [Piece.mark op.mark] :=
    carries_token (by rw [hkind, Leading.mark_of_ofMark hm]; simp) (hkind ▸ nofun)
  refine hread.bind fun _ t => ((he .unary t).next _).bind fun value _ => ?_
  cases op with
  | unary op => exact carries_build (Build.carries_add (.unary op value))
  | step direction => exact carries_build (Build.carries_add (.step .before direction value))

theorem writes_operand (he : ∀ j, (expr j).Writes) : (operand expr).Writes := by
  intro s
  refine .on_kind ?_
  split
  case h_1 hkind => exact carries_literal hkind nofun Build.carries_intLiteral
  case h_2 hkind => exact carries_literal hkind nofun Build.carries_floatLiteral
  case h_3 hkind => exact carries_literal hkind nofun Build.carries_stringLiteral
  case h_4 hkind => exact carries_literal hkind nofun fun _ => Build.carries_add (.bool true)
  case h_5 hkind => exact carries_literal hkind nofun fun _ => Build.carries_add (.bool false)
  case h_6 hkind =>
      have hread : advance.Carries s [] fun x => [.text [.name] x.text] := carries_word hkind nofun
      exact hread.bind fun k _ => carries_build (Build.carries_name k.text (by simp))
  case h_7 hkind => exact carries_intrinsicCall he hkind
  case h_8 => exact writes_construction he s
  case h_9 => exact writes_construction he s
  case h_10 => exact writes_construction he s
  case h_11 => exact writes_parenthesised he s
  case h_12 m _ hkind =>
      split
      · next op hm => exact carries_leading he hm hkind
      · exact carries_unexpected _
  case h_13 => exact carries_unexpected _

/-! ### Extensions -/

/-- The name of a member. -/
theorem carries_fieldName :
    fieldName.Carries s pieces fun x => pieces ++ [.text [.name, .intrinsic] x.text] := by
  refine .on_kind ?_
  split
  case h_1 hkind => exact carries_text (hkind ▸ by simp) (hkind ▸ nofun)
  case h_2 hkind => exact carries_text (hkind ▸ by simp) (hkind ▸ nofun)
  case h_3 => exact carries_unexpected _

/-- What extends an expression stands behind it. -/
theorem carries_extend (he : ∀ j, (expr j).Writes) (left : NodeId) {x : Extension} {m : Mark}
    (hm : x.mark = some m) (hkind : s.cursor.current.kind = .mark m) :
    (extend expr left x).Carries s [.node left] fun id => [.node id] := by
  have hread : advance.Carries s [.node left] fun _ => [.node left, .mark m] := carries_mark hkind
  cases x with
  | binary op =>
      cases hm
      refine hread.bind fun _ t => ((he op.power t).next _).bind fun right _ => ?_
      exact carries_build (Build.carries_add (.binary op left right))
  | assign op =>
      refine hread.bind fun _ t => ((he .comma t).next _).bind fun value _ => ?_
      have hadd := Build.carries_add (.assign op left value)
      rw [Node.production, show op.mark = some m from hm] at hadd
      exact carries_build hadd
  | ternary =>
      cases hm
      refine hread.bind fun _ t => ((he .default t).next _).bind fun yes _ => ?_
      refine (carries_expectMark .colon).bind fun _ t => ((he .assignment t).next _).bind fun no _ => ?_
      exact carries_build (Build.carries_add (.ternary left yes no))
  | comma =>
      cases hm
      refine hread.bind fun _ t => ((he .comma t).next _).bind fun right _ => ?_
      exact carries_build (Build.carries_add (.comma left right))
  | step direction =>
      cases hm
      exact hread.bind fun _ _ => carries_build (Build.carries_add (.step .after direction left))
  | element =>
      cases hm
      refine hread.bind fun _ t => ((he .default t).next _).bind fun position _ => ?_
      refine (carries_expectMark .closeBracket).bind fun _ _ => ?_
      exact carries_build (Build.carries_element left position)
  | call =>
      refine ((carries_arguments he).next _).bind fun list _ => ?_
      exact carries_build (Build.carries_call left list)
  | field =>
      cases hm
      refine hread.bind fun _ _ => carries_fieldName.bind fun k _ => ?_
      exact carries_build (Build.carries_field left k.text)

/-! ### Expressions -/

theorem carries_extension (he : ∀ j, (expr j).Writes) (level : Power) (left : NodeId) :
    (extension expr level left).Carries s [.node left]
      (Turn.written (fun id => [.node id]) fun id => [.node id]) := by
  refine .on_kind ?_
  split
  · next x hx =>
      obtain ⟨m, hkind, hm⟩ := kind_of_above hx
      exact (carries_extend he left hm hkind).bind fun longer _ => carries_pure rfl
  · exact carries_pure rfl

/-- **An expression is laid out as it is written.** -/
theorem writes_expression (level : Power) : (expression level).Writes := by
  refine writes_fix (fun inner he level s => ?_) level
  refine (writes_operand he s).bind fun first t => ?_
  exact carries_repeated (fun left _ => carries_extension he level left) first t

end Grammar

end ShaderLang
