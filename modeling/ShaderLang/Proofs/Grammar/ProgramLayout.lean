/-
**Programs are laid out as they are written.**

Declarations, statements and whole programs are looked at as expressions were: each rule puts pieces behind
those before it.  A sequence leaves its last link, and in front of one more item its separator too.  A
statement or a part of a program that breaks a rule leaves nothing.

Main results:

* `ShaderLang.Build.carries_declaration`, `ShaderLang.Build.carries_structDeclaration`, … — what the steps
  of building find;
* `ShaderLang.Grammar.writes_declarationStatement`, `ShaderLang.Grammar.writes_structDeclaration`,
  `ShaderLang.Grammar.carries_parameters` — declarations;
* `ShaderLang.Grammar.writes_statement` — statements;
* `ShaderLang.Grammar.carries_program` — **a program is laid out as it is written**.
-/

import ShaderLang.Grammar.Program
import ShaderLang.Proofs.Grammar.Layout
import ShaderLang.Proofs.Grammar.Statements

set_option relaxedAutoImplicit false
set_option autoImplicit false

namespace ShaderLang

namespace Build

open Arena

/-! ### Building declarations -/

/-- A text that names no semantic is reported, and nothing is left of it. -/
theorem carries_semantic (text : String) :
    (semantic text).Carries [.token [.name]] Piece.nodes := by
  unfold semantic
  split
  · next tie _ => exact (carries_add (.semantic tie)).bind fun _ => carries_pure rfl
  · have hnone : Carries (pure none : Build (Option NodeId)) [] Piece.nodes := carries_pure rfl
    refine (carries_report _ _).bind fun _ => hnone.of_looser ?_
    exact loosens_of_sublist (List.nil_sublist _)

theorem carries_checkSize (size : Option NodeId) (pieces : List Piece) :
    (checkSize size).Carries pieces fun _ => pieces := by
  cases size with
  | none => exact carries_pure rfl
  | some id =>
      refine (carries_ask _ pieces).bind fun isInt => ?_
      split
      · refine (carries_ask _ pieces).bind fun value => ?_
        split
        · split
          · exact carries_report _ _
          · exact carries_pure rfl
        · exact carries_pure rfl
      · exact carries_report _ _

theorem carries_declaration (q : Qualifiers) (type : DataType) (text : String)
    (size tie initializer : Option NodeId) :
    (declaration q type text size tie initializer).Carries
      (.text [.name] text ::
        (Piece.sized size ++ Piece.behind .colon tie ++ Piece.behind .assignment initializer))
      fun id => [.node id] := by
  refine (carries_checkSize size _).bind fun _ => ?_
  refine (carries_declare text type size.isSome _).bind fun _ => ?_
  exact carries_occur_add text (by simp) [] _ fun _ => rfl

theorem carries_structDeclarator (text : String) (size tie : Option NodeId) :
    (structDeclarator text size tie).Carries
      (.text [.name] text :: (Piece.sized size ++ Piece.behind .colon tie)) fun id => [.node id] := by
  refine (carries_checkSize size _).bind fun _ => ?_
  exact carries_occur_add text (by simp) [] _ fun _ => rfl

theorem carries_parameter (q : Qualifiers) (type : DataType) (text : Option String)
    (size tie : Option NodeId) :
    (parameter q type text size tie).Carries
      (Piece.type :: (text.toList.map (Piece.text [.name]) ++ Piece.sized size ++
        Piece.behind .colon tie)) fun id => [.node id] := by
  refine (carries_checkSize size _).bind fun _ => ?_
  cases text with
  | none => exact carries_add (.parameter q type none size tie)
  | some text =>
      refine (carries_declare text type size.isSome _).bind fun _ => ?_
      exact carries_occur_add text (by simp) [Piece.type] _
        (n := fun x => .parameter q type (some x) size tie) fun _ => rfl

/-- The name of a struct that opens was read. -/
theorem carries_beginStruct (name : String) :
    (beginStruct name).Carries [.text [.name] name] fun _ => [.text [.name] name] := by
  intro b id b' h
  obtain ⟨-, rfl⟩ := EStateM.Result.ok.inj h
  have hgrows : b.Grows (b.opened name) := Builder.grows_opened b name
  refine ⟨hgrows, fun front ts hw => ⟨⟨hw.sourced.names, fun other hother => ?_⟩, hgrows.covers hw.covers⟩⟩
  have hother : other ∈ b.structs.names ++ [name] := Structs.names_register b.structs name ▸ hother
  rcases List.mem_append.1 hother with hother | hother
  · exact hw.sourced.structs other hother
  · obtain rfl := List.mem_singleton.1 hother
    exact hw.given (by simp)

/-- A struct that closes is named as it was when it opened. -/
theorem carries_structDeclaration (id : UInt32) (members : Option NodeId) :
    (structDeclaration id members).Carries
      (Piece.word .structWord :: .token [.name] :: .mark .openCurly ::
        (Piece.nodes members ++ [.mark .closeCurly, .mark .semicolon])) fun id => [.node id] := by
  intro b x b' h
  rw [Builder.structDeclaration_apply] at h
  split at h
  · next collected _ =>
      obtain ⟨rfl, rfl⟩ := EStateM.Result.ok.inj h
      have hgrows := Builder.grows_closed b id members collected
      have hnode := Arena.node?_add_self b.arena (.structDeclaration id
        (b.names.occur ((b.structs.nameOf id).getD "")).1 members) b.position
      refine ⟨hgrows, fun front ts hw => ⟨?_, ?_⟩⟩
      · have hsourced := hw.sourced.occur (hw.sourced.given_nameOf id)
        refine ⟨hsourced.names, fun name hname => hw.sourced.structs name ?_⟩
        exact Structs.names_finalize b.structs _ collected ▸ hname
      · exact covers_node_iff.2 ((laid_iff_covers hnode).2 (hgrows.covers hw.covers))
  · contradiction

theorem carries_prototype (result : DataType) (text : String) (parameters tie : Option NodeId) :
    (prototype result text parameters tie).Carries
      (Piece.type :: .text [.name] text :: (Piece.enlisted parameters ++ Piece.behind .colon tie))
      fun id => [.node id] := by
  refine (carries_setCurrent _ _).bind fun _ => ?_
  exact carries_occur_add text (by simp) [Piece.type] _ fun _ => rfl

theorem carries_definition (head body : NodeId) :
    (definition head body).Carries [.node head, .node body] fun id => [.node id] :=
  (carries_setCurrent _ _).bind fun _ => carries_add (.definition head body)

end Build

namespace Grammar

open ShaderLang.Parser Arena

variable {s t : ParseState} {pieces : List Piece} {inner : Unit → Parser NodeId}

/-! ### The parts of declarations -/

theorem carries_dataType : dataType.Carries s [] fun _ => [Piece.type] :=
  carries_typeSpecifier writes_expression

/-- Of qualifiers nothing is left. -/
theorem carries_qualifiers : qualifiers.Carries s [] fun _ => [] := by
  have hturn : ∀ q t, (qualifierTurn q).Carries t [] (Turn.written (fun _ => []) fun _ => []) := by
    intro q t
    refine .on_kind ?_
    split
    · exact carries_advance.bind fun _ _ => carries_pure rfl
    · exact carries_pure rfl
  exact carries_repeated hturn Qualifiers.none s

theorem carries_arraySuffix : arraySuffix.Carries s [] Piece.sized := by
  refine (carries_accept (.mark .openBracket) nofun).bind fun isArray t => ?_
  cases isArray with
  | true =>
      refine ((writes_expression .default t).next _).bind fun size _ => ?_
      exact (carries_expectMark .closeBracket).bind fun _ _ => carries_pure rfl
  | false => exact carries_pure rfl

/-- A semantic behind its colon; of a text that names none nothing is left. -/
theorem carries_semantic : semantic.Carries s [] (Piece.behind .colon) := by
  refine (carries_accept (.mark .colon) nofun).bind fun isTied t => ?_
  cases isTied with
  | true =>
      refine (carries_expect_token .name (List.Subset.refl _) nofun).bind fun k _ => ?_
      have hbuild := (Build.carries_semantic k.text).among [.mark .colon] []
      refine (carries_build hbuild).sublist fun tie => ?_
      cases tie with
      | none => exact List.nil_sublist _
      | some tie => exact List.Sublist.refl _
  | false => exact carries_pure rfl

/-! ### Initial values -/

theorem carries_initializerTurn (hi : ∀ u, (inner u).Writes) (list : Option NodeId) :
    (initializerTurn inner list).Carries s (ListKind.front .initializers list)
      (Turn.written (ListKind.front .initializers) Piece.nodes) := by
  refine .on_kind ?_
  split
  · have hdone : (pure (.done list) : Parser (Turn (Option NodeId) _)).Carries s (Piece.nodes list)
        (Turn.written (ListKind.front .initializers) Piece.nodes) := carries_pure rfl
    refine hdone.of_looser (loosens_of_sublist ?_)
    cases list with
    | none => exact List.Sublist.refl _
    | some list => exact List.sublist_append_left [Piece.node list] _
  · refine ((hi () s).next _).bind fun value _ => ?_
    exact (carries_buildLink .initializers list value).bind fun list _ => carries_comma rfl list

/-- Of braces around initial values nothing is left. -/
theorem writes_initializer : initializer.Writes := by
  refine writes_fix (fun inner hi u s => ?_) ()
  refine .on_kind ?_
  split
  · have hread : advance.Carries s [] fun _ => [] := carries_advance
    refine hread.bind fun _ t => ?_
    refine (carries_repeated (fun list _ => carries_initializerTurn hi list) none t).bind fun list t => ?_
    cases list with
    | none => exact carries_unexpected _
    | some list =>
        refine .on_kind ?_
        split
        · exact carries_advance.bind fun _ _ => carries_pure rfl
        · exact carries_unexpected _
  · exact writes_expression .comma s

/-! ### Variables -/

/-- What follows the name of a variable. -/
theorem carries_declarator (q : Qualifiers) (type : DataType) (name : Token) :
    (declarator q type name).Carries s [.text [.name] name.text] fun id => [.node id] := by
  refine (carries_arraySuffix.next _).bind fun size _ => (carries_semantic.next _).bind fun tie _ => ?_
  have hbuild := fun value t => carries_build (s := t)
    (Build.carries_declaration q type name.text size tie value)
  refine (carries_accept (.mark .assignment) nofun).bind fun hasValue t => ?_
  cases hasValue with
  | true =>
      have hvalue : (some <$> initializer).Carries t [.mark .assignment] (Piece.behind .assignment) := by
        refine Carries.map ?_
        exact (writes_initializer t).next _
      exact (hvalue.behind _).bind hbuild
  | false => exact (carries_pure rfl).bind hbuild

/-- One more variable behind a comma. -/
theorem carries_declaratorTurn (q : Qualifiers) (type : DataType) (list : NodeId) :
    (declaratorTurn q type list).Carries s [.node list]
      (Turn.written (fun id => [.node id]) fun id => [.node id]) := by
  refine (carries_accept (.mark .comma) nofun).bind fun more t => ?_
  cases more with
  | true =>
      refine (carries_expect .name nofun).bind fun name _ => ?_
      refine ((carries_declarator q type name).behind [.node list, .mark .comma]).bind fun item _ => ?_
      exact (carries_build (Build.carries_add (.link .declarators (some list) item))).bind
        fun _ _ => carries_pure rfl
  | false => exact carries_pure rfl

/-- What follows the name of the first of several variables. -/
theorem carries_declarators (q : Qualifiers) (type : DataType) (first : Token) :
    (declarators q type first).Carries s [Piece.type, .text [.name] first.text]
      fun id => [.node id] := by
  refine ((carries_declarator q type first).behind [Piece.type]).bind fun item _ => ?_
  have hlink := (Build.carries_add (.link .declarators none item)).among [Piece.type] []
  refine (carries_build hlink).bind fun list t => ?_
  have hitems := carries_repeated (fun list _ => carries_declaratorTurn q type list) list t
  refine (hitems.behind [Piece.type]).bind fun list _ => .on_kind ?_
  split
  · next hkind =>
      refine (carries_mark hkind).bind fun _ _ => ?_
      exact carries_build (Build.carries_add (.declarationStatement list))
  · exact carries_unexpected _

theorem writes_declarationStatement : declarationStatement.Writes := by
  intro s
  refine carries_qualifiers.bind fun q _ => carries_dataType.bind fun type _ => ?_
  exact (carries_expect .name nofun).bind fun name _ => carries_declarators q type name

/-! ### Structs -/

theorem carries_structDeclarator (list : Option NodeId) :
    (structDeclarator list).Carries s (ListKind.front .structDeclarators list)
      (Turn.written (ListKind.front .structDeclarators) Piece.nodes) := by
  refine (carries_expect .name nofun).bind fun name _ => ?_
  refine ((carries_arraySuffix.next _).behind _).bind fun size _ => ?_
  refine ((carries_semantic.next _).behind _).bind fun tie _ => ?_
  refine ((carries_build (Build.carries_structDeclarator name.text size tie)).behind _).bind
    fun item _ => ?_
  exact (carries_buildLink .structDeclarators list item).bind fun list _ => carries_comma rfl list

/-- A line of a struct. -/
theorem writes_structMember : structMember.Writes := by
  intro s
  refine carries_dataType.bind fun type t => ?_
  have hitems := carries_repeated (fun list _ => carries_structDeclarator list) none t
  refine (hitems.next [Piece.type]).bind fun list _ => .on_kind ?_
  split
  · next hkind =>
      refine (carries_mark hkind).bind fun _ _ => ?_
      cases list with
      | some list => exact carries_build (Build.carries_add (.structMember type list))
      | none => exact carries_unexpected _
  · exact carries_unexpected _

theorem carries_structMemberTurn (list : Option NodeId) :
    (structMemberTurn list).Carries s (ListKind.front .structMembers list)
      (Turn.written (ListKind.front .structMembers) Piece.nodes) := by
  refine .on_kind ?_
  split
  · exact carries_pure (ListKind.front_eq rfl list).symm
  · refine ((writes_structMember s).next _).bind fun member _ => ?_
    exact (carries_buildLink .structMembers list member).bind fun list _ =>
      carries_pure (ListKind.front_eq rfl list)

/-- **A struct is laid out as it is written.** -/
theorem writes_structDeclaration : structDeclaration.Writes := by
  intro s
  refine (carries_expectKeyword .structWord).bind fun _ _ => (carries_expect .name nofun).bind fun name t => ?_
  have hopen : (build (Build.beginStruct name.text)).Carries t
      [Piece.word .structWord, .text [.name] name.text] fun _ => [Piece.word .structWord, .token [.name]] :=
    (carries_build ((Build.carries_beginStruct name.text).among [Piece.word .structWord] [])).loosen
      fun _ => (loosens_text (List.Subset.refl _) name.text).among [Piece.word .structWord] []
  refine hopen.bind fun id _ => (carries_expectMark .openCurly).bind fun _ t => ?_
  have hitems := carries_repeated (fun list _ => carries_structMemberTurn list) none t
  refine (hitems.next _).bind fun members t => ?_
  have hclose : (expectMark .closeCurly).Carries t [] fun _ => [.mark .closeCurly] :=
    carries_expectMark .closeCurly
  have hstop : ∀ t, (expectMark .semicolon).Carries t [.mark .closeCurly]
      fun _ => [.mark .closeCurly, .mark .semicolon] := fun t => carries_expectMark .semicolon
  refine (hclose.next _).bind fun _ t => ((hstop t).behind _).bind fun _ _ => ?_
  exact carries_build (Build.carries_structDeclaration id members)

/-! ### Parameters -/

theorem writes_parameter : parameter.Writes := by
  intro s
  refine carries_qualifiers.bind fun q _ => carries_dataType.bind fun type _ => ?_
  have hrest : ∀ (name : Option String) t, (arraySuffix >>= fun size => semantic >>= fun tie =>
      build (Build.parameter q type name size tie)).Carries t
        (Piece.type :: name.toList.map (Piece.text [.name])) fun id => [.node id] := by
    intro name t
    refine (carries_arraySuffix.next _).bind fun size _ => (carries_semantic.next _).bind fun tie _ => ?_
    exact carries_build (Build.carries_parameter q type name size tie)
  refine .on_kind ?_
  dsimp only
  split
  · next hkind =>
      refine (carries_word hkind nofun).bind fun k _ => ?_
      exact (carries_pure rfl).bind hrest
  · exact (carries_pure rfl).bind hrest

theorem carries_parameterTurn (list : Option NodeId) :
    (parameterTurn list).Carries s (ListKind.front .parameters list)
      (Turn.written (ListKind.front .parameters) Piece.nodes) := by
  refine ((writes_parameter s).next _).bind fun item _ => ?_
  exact (carries_buildLink .parameters list item).bind fun list _ => carries_comma rfl list

/-- Parameters, through the closing parenthesis. -/
theorem carries_parameters : parameters.Carries s [.mark .openParen] Piece.enlisted := by
  obtain ⟨isVoid, hvoid, -⟩ := voidAhead_apply s
  refine .look hvoid (.on_kind ?_)
  dsimp only
  split
  · exact carries_advance.bind fun _ _ => (carries_pure rfl).bind fun _ _ => carries_closeParen _
  · split
    · exact (carries_pure rfl).bind fun _ _ => carries_closeParen _
    · have hitems := carries_repeated (fun list _ => carries_parameterTurn list) none s
      exact (hitems.next _).bind fun list _ => carries_closeParen list

/-! ### Simple statements -/

theorem writes_expressionStatement : expressionStatement.Writes := by
  intro s
  refine (writes_expression .default s).bind fun value _ => ?_
  refine (carries_expectMark .semicolon).bind fun _ _ => ?_
  exact carries_build (Build.carries_add (.expression (some value)))

theorem writes_emptyStatement : emptyStatement.Writes := by
  intro s
  refine (carries_expectMark .semicolon).bind fun _ _ => ?_
  exact carries_build (Build.carries_add (.expression none))

theorem carries_jumpStatement (jump : Jump) (hkind : s.cursor.current.kind = .keyword jump.word) :
    (jumpStatement jump).Carries s [] fun id => [.node id] := by
  have hread : advance.Carries s [] fun _ => [Piece.word jump.word] :=
    carries_token (hkind ▸ List.mem_singleton_self _) (hkind ▸ nofun)
  refine hread.bind fun _ _ => (carries_expectMark .semicolon).bind fun _ _ => ?_
  exact carries_build (Build.carries_add (.jump jump))

theorem carries_optionalExpression (stop : Mark) :
    (optionalExpression stop).Carries s [] Piece.nodes := by
  refine .on_kind ?_
  split
  · exact carries_pure rfl
  · exact (writes_expression .default s).bind fun value _ => carries_pure rfl

theorem writes_returnStatement : returnStatement.Writes := by
  intro s
  refine (carries_expectKeyword .returnWord).bind fun _ _ => ?_
  refine ((carries_optionalExpression .semicolon).next _).bind fun value _ => ?_
  refine (carries_expectMark .semicolon).bind fun _ _ => ?_
  exact carries_build (Build.carries_add (.result value))

/-- A condition between parentheses. -/
theorem carries_condition :
    condition.Carries s [] fun id => [.mark .openParen, .node id, .mark .closeParen] := by
  refine (carries_expectMark .openParen).bind fun _ t => ?_
  refine ((writes_expression .default t).next _).bind fun value _ => ?_
  exact (carries_expectMark .closeParen).bind fun _ _ => carries_pure rfl

/-! ### Statements between braces -/

theorem carries_recoverStatement : recoverStatement.Carries s [] fun _ => [] := by
  have hturn : ∀ u t, (recoverStatementTurn u).Carries t [] (Turn.written (fun _ => []) fun _ => []) := by
    intro u t
    refine .on_kind ?_
    split
    · exact carries_pure rfl
    · exact carries_pure rfl
    · exact carries_advance.bind fun _ _ => carries_pure rfl
    · exact carries_advance.bind fun _ _ => carries_pure rfl
  exact carries_repeated hturn () s

/-- A statement that broke a rule leaves nothing behind those before it. -/
theorem carries_blockTurn (hi : ∀ u, (inner u).Writes) (list : Option NodeId) :
    (blockTurn inner list).Carries s (ListKind.front .statements list)
      (Turn.written (ListKind.front .statements) Piece.nodes) := by
  refine .on_kind ?_
  have hdone : (pure (.done list) : Parser (Turn (Option NodeId) _)).Carries s
      (ListKind.front .statements list) (Turn.written (ListKind.front .statements) Piece.nodes) :=
    carries_pure (ListKind.front_eq rfl list).symm
  split
  · exact hdone
  · exact hdone
  · refine ((carries_attempt (hi () s)).next _).bind fun answer t => ?_
    split
    · next item =>
        exact (carries_buildLink .statements list item).bind fun list _ =>
          carries_pure (ListKind.front_eq rfl list)
    · refine (carries_report _ _).bind fun _ _ => (carries_recoverStatement.skip _).bind fun _ _ => ?_
      exact carries_pure (List.append_nil _).symm

theorem writes_blockRule (hi : ∀ u, (inner u).Writes) : (blockRule inner).Writes := by
  intro s
  refine (carries_expectMark .openCurly).bind fun _ t => ?_
  have hitems := carries_repeated (fun list _ => carries_blockTurn hi list) none t
  refine (hitems.next [.mark .openCurly]).bind fun list _ => ?_
  refine (carries_expectMark .closeCurly).bind fun _ _ => ?_
  exact carries_build (Build.carries_add (.compound list))

/-! ### Statements that hold statements -/

theorem writes_ifStatement (hi : ∀ u, (inner u).Writes) : (ifStatement inner).Writes := by
  intro s
  refine (carries_expectKeyword .ifWord).bind fun _ _ => (carries_condition.next _).bind fun test t => ?_
  refine ((hi () t).next _).bind fun yes _ => ?_
  refine (carries_accept (.keyword .elseWord) nofun).bind fun hasElse t => ?_
  have hbuild := fun no t => carries_build (s := t) (Build.carries_add (.conditional test yes no))
  cases hasElse with
  | true =>
      have helse : (some <$> inner ()).Carries t [Piece.word .elseWord] (Piece.following .elseWord) := by
        refine Carries.map ?_
        exact (hi () t).next _
      exact (helse.behind _).bind hbuild
  | false => exact (carries_pure rfl).bind hbuild

theorem writes_whileStatement (hi : ∀ u, (inner u).Writes) : (whileStatement inner).Writes := by
  intro s
  refine (carries_expectKeyword .whileWord).bind fun _ _ => ?_
  refine (carries_condition.next _).bind fun test t => ((hi () t).next _).bind fun body _ => ?_
  exact carries_build (Build.carries_add (.whileLoop test body))

theorem writes_doStatement (hi : ∀ u, (inner u).Writes) : (doStatement inner).Writes := by
  intro s
  refine (carries_expectKeyword .doWord).bind fun _ t => ((hi () t).next _).bind fun body _ => ?_
  refine (carries_expectKeyword .whileWord).bind fun _ _ => ?_
  refine (carries_condition.next _).bind fun test _ => ?_
  refine (carries_expectMark .semicolon).bind fun _ _ => ?_
  exact carries_build (Build.carries_add (.doLoop body test))

theorem carries_forStart : forStart.Carries s [] Piece.opening := by
  refine (carries_accept (.mark .semicolon) nofun).bind fun isEmpty t => ?_
  cases isEmpty with
  | true => exact carries_pure rfl
  | false =>
      obtain ⟨isDeclaration, hahead⟩ := declarationAhead_apply t
      refine .look hahead ?_
      split
      · exact Carries.map (writes_declarationStatement t)
      · exact Carries.map (writes_expressionStatement t)

theorem writes_forStatement (hi : ∀ u, (inner u).Writes) : (forStatement inner).Writes := by
  intro s
  refine (carries_expectKeyword .forWord).bind fun _ _ => ?_
  refine (carries_expectMark .openParen).bind fun _ _ => (carries_forStart.next _).bind fun first _ => ?_
  refine ((carries_optionalExpression .semicolon).next _).bind fun test _ => ?_
  refine (carries_expectMark .semicolon).bind fun _ _ => ?_
  refine ((carries_optionalExpression .closeParen).next _).bind fun next t => ?_
  have hclose : (expectMark .closeParen).Carries t [] fun _ => [.mark .closeParen] :=
    carries_expectMark .closeParen
  refine (hclose.next _).bind fun _ t => ?_
  refine (((hi () t).next [.mark .closeParen]).behind _).bind fun body _ => ?_
  exact carries_build (Build.carries_add (.forLoop first test next body))

theorem writes_statementRule (hi : ∀ u, (inner u).Writes) (u : Unit) : (statementRule inner u).Writes := by
  intro s
  refine .on_kind ?_
  split
  case h_1 => exact writes_blockRule hi s
  case h_2 => exact writes_ifStatement hi s
  case h_3 => exact writes_whileStatement hi s
  case h_4 => exact writes_doStatement hi s
  case h_5 => exact writes_forStatement hi s
  case h_6 hkind => exact carries_jumpStatement .breakLoop hkind
  case h_7 hkind => exact carries_jumpStatement .continueLoop hkind
  case h_8 hkind => exact carries_jumpStatement .discardFragment hkind
  case h_9 => exact writes_returnStatement s
  case h_10 => exact writes_emptyStatement s
  case h_11 =>
      obtain ⟨isDeclaration, hahead⟩ := declarationAhead_apply s
      refine .look hahead ?_
      split
      · exact writes_declarationStatement s
      · exact writes_expressionStatement s

/-- **A statement is laid out as it is written.** -/
theorem writes_statement : statement.Writes :=
  writes_fix (fun _ hi u => writes_statementRule hi u) ()

theorem writes_block : block.Writes := writes_blockRule fun _ => writes_statement

/-! ### Programs -/

theorem carries_endFunction : (build Build.endFunction).Carries s pieces fun _ => pieces :=
  carries_build (Build.carries_setCurrent none pieces)

/-- The head of a function is a part by itself, or stands in front of a body. -/
theorem carries_functionEnd (head : NodeId) :
    (functionEnd head).Carries s [.node head] fun id => [.node id] := by
  refine .on_kind ?_
  split
  · exact carries_advance.bind fun _ _ => carries_endFunction.bind fun _ _ => carries_pure rfl
  · refine ((writes_block s).next _).bind fun body _ => ?_
    exact carries_build (Build.carries_definition head body)
  · exact carries_unexpected _

theorem carries_function (type : DataType) (name : Token) :
    (function type name).Carries s [Piece.type, .text [.name] name.text] fun id => [.node id] := by
  refine (carries_expectMark .openParen).bind fun _ _ => ?_
  refine (carries_parameters.behind [Piece.type, .text [.name] name.text]).bind fun list _ => ?_
  refine (carries_semantic.next _).bind fun tie _ => ?_
  refine (carries_build (Build.carries_prototype type name.text list tie)).bind fun head _ => ?_
  exact carries_functionEnd head

theorem writes_functionOrVariables : functionOrVariables.Writes := by
  intro s
  refine carries_qualifiers.bind fun q _ => carries_dataType.bind fun type _ => ?_
  refine (carries_expect .name nofun).bind fun name _ => .on_kind ?_
  split
  · exact carries_function type name
  · exact carries_declarators q type name

theorem writes_typedExternal : typedExternal.Writes := by
  intro s
  refine .on_kind ?_
  split
  case h_1 => exact writes_functionOrVariables s
  case h_2 => exact writes_functionOrVariables s
  case h_3 => exact writes_functionOrVariables s
  case h_4 => exact writes_functionOrVariables s
  case h_5 =>
      refine .look (peek_apply 1 s) ?_
      split
      · exact writes_functionOrVariables s
      · exact carries_unexpected _
  case h_6 => exact carries_unexpected _

/-- A part of a program; a semicolon is none. -/
theorem carries_external : external.Carries s [] Piece.nodes := by
  refine .on_kind ?_
  split
  · exact carries_advance.bind fun _ _ => carries_pure rfl
  · exact Carries.map (writes_structDeclaration s)
  · exact Carries.map (writes_typedExternal s)

theorem carries_recover : recover.Carries s [] fun _ => [] := by
  have hturn : ∀ u t, (recoverTurn u).Carries t [] (Turn.written (fun _ => []) fun _ => []) := by
    intro u t
    refine .on_kind ?_
    split
    · exact carries_pure rfl
    · exact carries_advance.bind fun _ _ => carries_pure rfl
    · exact carries_advance.bind fun _ _ => carries_pure rfl
    · exact carries_advance.bind fun _ _ => carries_pure rfl
  exact carries_repeated hturn () s

/-- A part that broke a rule leaves nothing behind those before it. -/
theorem carries_programTurn (list : Option NodeId) :
    (programTurn list).Carries s (Piece.nodes list) (Turn.written Piece.nodes Piece.nodes) := by
  refine .look (v := s.cursor.current.kind != .endOfFile) rfl ?_
  split
  · refine ((carries_attempt carries_external).next _).bind fun answer _ => ?_
    split
    · next item =>
        have hfront : ListKind.front .externals list = Piece.nodes list := ListKind.front_eq rfl list
        rw [← hfront]
        exact (carries_buildLink .externals list item).bind fun _ _ => carries_pure rfl
    · exact carries_pure (List.append_nil _).symm
    · refine (carries_report _ _).bind fun _ _ => carries_endFunction.bind fun _ _ => ?_
      refine (carries_recover.skip _).bind fun _ _ => ?_
      exact carries_pure (List.append_nil _).symm
  · exact carries_pure rfl

/-- **A program is laid out as it is written.** -/
theorem carries_program : program.Carries s [] Piece.nodes :=
  carries_repeated (fun list _ => carries_programTurn list) none s

end Grammar

end ShaderLang
