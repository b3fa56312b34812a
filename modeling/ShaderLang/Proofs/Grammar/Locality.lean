/-
**The rules of the grammar do not look past where they end.**

Every rule of the grammar does the same with more tokens behind, wherever it leaves a token and nothing
was reported; and the rules for whole declarations do so in any case, since they end with a semicolon
or a brace.  What a declaration is does not depend on what comes behind it.

How a rule is put together does not tell this.  A look ahead goes as far as the type that stands there, and
only what is read behind the look shows that the type ends before the tokens do; and in the other run
there are more tokens left, so a rule that refers to itself is given itself with another bound.

Main results:

* `ShaderLang.Grammar.local_expression`, `ShaderLang.Grammar.local_statement`, … — types, expressions,
  parts of declarations and statements;
* `ShaderLang.Grammar.closed_external` — **a part of a program is read as it is whatever comes
  behind**.
-/

import ShaderLang.Proofs.Grammar.Lookahead

set_option relaxedAutoImplicit false
set_option autoImplicit false

namespace ShaderLang.Grammar

open ShaderLang.Parser

variable {m : TokenStream} {expr expr' : Power → Parser NodeId} {inner inner' : Unit → Parser NodeId}
  {s : ParseState}

/-! ### Types -/

theorem closed_componentType : componentType.Closed m componentType s :=
  (closed_expect .typeName nofun).still fun t _ => steady_inner (Build.inner_namedType t.text)

theorem local_vectorSpecifier (he : Twins m expr expr') :
    (vectorSpecifier expr).Local m (vectorSpecifier expr') s := by
  refine (closed_expectKeyword .vectorWord).toLocal.bind fun _ t₁ => ?_
  refine (local_accept _).bind fun isLong t₂ => ?_
  split
  · refine closed_componentType.toLocal.bind fun component t₃ => ?_
    refine (closed_expectMark .comma).toLocal.bind fun _ t₄ => ?_
    refine (he.same .relational t₄).bind fun size t₅ => ?_
    refine (closed_expectMark .greater).toLocal.bind fun _ t₆ => ?_
    exact (steady_inner (Build.inner_vectorType component size)).toLocal
  · exact (steady_inner (Build.inner_namedType _)).toLocal

theorem local_matrixSpecifier (he : Twins m expr expr') :
    (matrixSpecifier expr).Local m (matrixSpecifier expr') s := by
  refine (closed_expectKeyword .matrixWord).toLocal.bind fun _ t₁ => ?_
  refine (local_accept _).bind fun isLong t₂ => ?_
  split
  · refine closed_componentType.toLocal.bind fun component t₃ => ?_
    refine (closed_expectMark .comma).toLocal.bind fun _ t₄ => ?_
    refine (he.same .relational t₄).bind fun rows t₅ => ?_
    refine (closed_expectMark .comma).toLocal.bind fun _ t₆ => ?_
    refine (he.same .relational t₆).bind fun columns t₇ => ?_
    refine (closed_expectMark .greater).toLocal.bind fun _ t₈ => ?_
    exact (steady_inner (Build.inner_matrixType component rows columns)).toLocal
  · exact (steady_inner (Build.inner_namedType _)).toLocal

theorem local_typeSpecifier (he : Twins m expr expr') :
    (typeSpecifier expr).Local m (typeSpecifier expr') s := by
  refine .on_kind ?_
  generalize s.cursor.current.kind = kind
  split
  · exact closed_componentType.toLocal
  · exact local_vectorSpecifier he
  · exact local_matrixSpecifier he
  · exact local_advance.bind fun t _ => (steady_inner (Build.inner_structType t.text)).toLocal
  · exact local_unexpected _

/-! ### Expressions -/

theorem local_argumentTurn (he : Twins m expr expr') (list : Option NodeId) :
    (argumentTurn expr list).Local m (argumentTurn expr' list) s := by
  refine (he.same .comma s).bind fun item t₁ => ?_
  refine (steady_buildLink .arguments list item).toLocal.bind fun list t₂ => ?_
  refine (local_accept _).bind fun more t₃ => ?_
  split <;> exact local_pure _

theorem closed_arguments (he : Twins m expr expr') :
    (arguments expr).Closed m (arguments expr') s := by
  refine (closed_expectMark .openParen).toLocal.close fun _ t₁ => ?_
  refine .accept (.mark .closeParen) nofun (fun t₂ => ?_) ?_
  · exact steady_pure none
  · refine (local_repeated (fun list _ => local_argumentTurn he list) none t₁).close fun list t₂ => ?_
    exact closed_stop (.mark .closeParen) nofun fun _ _ => steady_pure list

theorem local_literal {step : String → Build NodeId} (h : ∀ text, (step text).Inner) :
    (literal step).Local m (literal step) s :=
  local_advance.bind fun t _ => (steady_inner (h t.text)).toLocal

/-- A type or an expression with a mark behind it is enclosed. -/
theorem enclosed_of_ok {α β : Type} {p : Parser α} {mark : Mark} {f : α → Unit → Parser β} {y : β}
    {u : ParseState} (hp : p.Encloses s)
    (h : (p >>= fun x => expectMark mark >>= f x) s = .ok y u) : Cursor.Enclosed s.cursor.rest := by
  obtain ⟨x, t, hx, h⟩ := bind_eq_ok h
  obtain ⟨_, t', hmark, -⟩ := bind_eq_ok h
  have hkind := (expectMark_eq_ok hmark).1
  exact (hp x t hx).2 (Cursor.left_pos_of_kind (hkind ▸ nofun))

theorem local_parenthesised (he : Twins m expr expr') (hc : ∀ j s, (expr j).Encloses s) :
    (parenthesised expr).Local m (parenthesised expr') s := by
  refine .look (fun x t hx => ?_) (fun isCast y u hx hy => ?_) fun isCast => ?_
  · obtain ⟨v, hv⟩ := castAhead_apply s
    exact (EStateM.Result.ok.inj (hx.symm.trans hv)).2
  · obtain ⟨_, t, ht, hy⟩ := bind_eq_ok hy
    obtain ⟨hkind, rfl⟩ := expectMark_eq_ok ht
    refine castAhead_followed (Cursor.left_pos_of_kind (hkind ▸ nofun)) ?_ hx
    split at hy
    · exact enclosed_of_ok (encloses_typeSpecifier he.regular s.advanced) hy
    · exact enclosed_of_ok (hc .default s.advanced) hy
  · refine (closed_expectMark .openParen).toLocal.bind fun _ t₁ => ?_
    split
    · refine (local_typeSpecifier he).bind fun type t₂ => ?_
      refine (closed_expectMark .closeParen).toLocal.bind fun _ t₃ => ?_
      exact (he.same .unary t₃).bind fun value t₄ => (steady_add _).toLocal
    · refine (he.same .default t₁).bind fun value t₂ => ?_
      exact (closed_expectMark .closeParen).toLocal.bind fun _ _ => local_pure _

theorem local_construction (he : Twins m expr expr') :
    (construction expr).Local m (construction expr') s := by
  refine (local_typeSpecifier he).bind fun type t₁ => ?_
  exact (closed_arguments he).toLocal.bind fun list t₂ => (steady_add _).toLocal

theorem local_intrinsicCall (he : Twins m expr expr') :
    (intrinsicCall expr).Local m (intrinsicCall expr') s := by
  refine local_advance.bind fun t t₁ => (closed_arguments he).toLocal.bind fun list t₂ => ?_
  exact (steady_inner (Build.inner_intrinsicCall t.text list)).toLocal

theorem local_leading (he : Twins m expr expr') (op : Leading) :
    (leading expr op).Local m (leading expr' op) s := by
  refine local_advance.bind fun _ t₁ => (he.same .unary t₁).bind fun value t₂ => ?_
  split <;> exact (steady_add _).toLocal

theorem local_operand (he : Twins m expr expr') (hc : ∀ j s, (expr j).Encloses s) :
    (operand expr).Local m (operand expr') s := by
  refine .on_kind ?_
  generalize s.cursor.current.kind = kind
  split
  case h_1 => exact local_literal Build.inner_intLiteral
  case h_2 => exact local_literal Build.inner_floatLiteral
  case h_3 => exact local_literal Build.inner_stringLiteral
  case h_4 => exact local_literal fun _ => Build.inner_add rfl rfl rfl
  case h_5 => exact local_literal fun _ => Build.inner_add rfl rfl rfl
  case h_6 => exact local_literal Build.inner_name
  case h_7 => exact local_intrinsicCall he
  case h_8 => exact local_construction he
  case h_9 => exact local_construction he
  case h_10 => exact local_construction he
  case h_11 => exact local_parenthesised he hc
  case h_12 =>
      split
      · exact local_leading he _
      · exact local_unexpected _
  case h_13 => exact local_unexpected _

theorem local_fieldName : fieldName.Local m fieldName s := by
  refine .on_kind ?_
  split
  · exact local_advance
  · exact local_advance
  · exact local_unexpected _

theorem local_extend (he : Twins m expr expr') (left : NodeId) (e : Extension) :
    (extend expr left e).Local m (extend expr' left e) s := by
  cases e with
  | binary op =>
      refine local_advance.bind fun _ t₁ => (he.same op.power t₁).bind fun right t₂ => ?_
      exact (steady_add _).toLocal
  | assign op =>
      refine local_advance.bind fun _ t₁ => (he.same .comma t₁).bind fun value t₂ => ?_
      exact (steady_add _).toLocal
  | ternary =>
      refine local_advance.bind fun _ t₁ => (he.same .default t₁).bind fun yes t₂ => ?_
      refine (closed_expectMark .colon).toLocal.bind fun _ t₃ => ?_
      exact (he.same .assignment t₃).bind fun no t₄ => (steady_add _).toLocal
  | comma =>
      refine local_advance.bind fun _ t₁ => (he.same .comma t₁).bind fun right t₂ => ?_
      exact (steady_add _).toLocal
  | step direction => exact local_advance.bind fun _ t₁ => (steady_add _).toLocal
  | element =>
      refine local_advance.bind fun _ t₁ => (he.same .default t₁).bind fun position t₂ => ?_
      refine (closed_expectMark .closeBracket).toLocal.bind fun _ t₃ => ?_
      exact (steady_inner (Build.inner_element left position)).toLocal
  | call =>
      refine (closed_arguments he).toLocal.bind fun list t₁ => ?_
      exact (steady_inner (Build.inner_call left list)).toLocal
  | field =>
      refine local_advance.bind fun _ t₁ => local_fieldName.bind fun t t₂ => ?_
      exact (steady_inner (Build.inner_field left t.text)).toLocal

theorem local_extension (he : Twins m expr expr') (level : Power) (left : NodeId) :
    (extension expr level left).Local m (extension expr' level left) s := by
  refine .on_kind ?_
  split
  · exact (local_extend he left _).bind fun _ _ => local_pure _
  · exact local_pure _

/-- **An expression that leaves a token is read as it is whatever comes behind.** -/
theorem local_expression (level : Power) (s : ParseState) :
    (expression level).Local m (expression level) s := by
  refine local_fix regular_expression (fun n he level s => ?_) level s
  have hc : ∀ j s, (below n expression j).Encloses s :=
    fun j s => encloses_below (encloses_expression j s)
  refine (local_operand he hc).bind fun first t₁ => ?_
  exact local_repeated (fun left _ => local_extension he level left) first t₁

theorem twins_expression : Twins m expression expression := ⟨local_expression, regular_expression⟩

/-! ### Declarations -/

theorem local_dataType : dataType.Local m dataType s := local_typeSpecifier twins_expression

theorem local_qualifierTurn (q : Qualifiers) : (qualifierTurn q).Local m (qualifierTurn q) s := by
  refine .on_kind ?_
  split
  · exact local_advance.bind fun _ _ => local_pure _
  · exact local_pure _

theorem local_qualifiers : qualifiers.Local m qualifiers s :=
  local_repeated (fun q _ => local_qualifierTurn q) .none s

theorem local_arraySuffix : arraySuffix.Local m arraySuffix s := by
  refine (local_accept _).bind fun isArray t₁ => ?_
  split
  · refine (local_expression .default t₁).bind fun size t₂ => ?_
    exact (closed_expectMark .closeBracket).toLocal.bind fun _ _ => local_pure _
  · exact local_pure _

theorem local_semantic : semantic.Local m semantic s := by
  refine (local_accept _).bind fun isTied t₁ => ?_
  split
  · refine (closed_expect .name nofun).toLocal.bind fun t t₂ => ?_
    exact (steady_inner (Build.inner_semantic t.text)).toLocal
  · exact local_pure _

theorem local_initializerTurn (hi : Twins m inner inner') (list : Option NodeId) :
    (initializerTurn inner list).Local m (initializerTurn inner' list) s := by
  refine .on_kind ?_
  split
  · exact local_pure _
  · refine (hi.same () s).bind fun value t₁ => ?_
    refine (steady_buildLink .initializers list value).toLocal.bind fun list t₂ => ?_
    refine (local_accept _).bind fun more t₃ => ?_
    split <;> exact local_pure _

theorem local_initializerRule (hi : Twins m inner inner') (u : Unit) :
    (initializerRule inner u).Local m (initializerRule inner' u) s := by
  refine .on_kind ?_
  split
  · refine local_advance.bind fun _ t₁ => ?_
    refine (local_repeated (fun list _ => local_initializerTurn hi list) none t₁).bind
      fun list t₂ => ?_
    cases list with
    | some list =>
        exact (closed_stop (.mark .closeCurly) nofun fun _ _ => steady_pure list).toLocal
    | none => exact local_unexpected _
  · exact local_expression .comma s

theorem local_initializer (s : ParseState) : initializer.Local m initializer s :=
  local_fix (fun _ => regular_initializer) (fun _ hi u _ => local_initializerRule hi u) () s

theorem local_declarator (q : Qualifiers) (type : DataType) (name : Token) :
    (declarator q type name).Local m (declarator q type name) s := by
  refine local_arraySuffix.bind fun size t₁ => local_semantic.bind fun tie t₂ => ?_
  refine (local_accept _).bind fun hasValue t₃ => ?_
  have hbuild := fun value (t : ParseState) =>
    (steady_inner (m := m) (s := t)
      (Build.inner_declaration q type name.text size tie value)).toLocal
  dsimp only
  split
  · exact (local_initializer t₃).map.bind hbuild
  · exact (local_pure none).bind hbuild

theorem local_declaratorTurn (q : Qualifiers) (type : DataType) (list : NodeId) :
    (declaratorTurn q type list).Local m (declaratorTurn q type list) s := by
  refine (local_accept _).bind fun more t₁ => ?_
  split
  · refine (closed_expect .name nofun).toLocal.bind fun name t₂ => ?_
    refine (local_declarator q type name).bind fun item t₃ => ?_
    exact (steady_add _).toLocal.bind fun _ _ => local_pure _
  · exact local_pure _

theorem closed_declarators (q : Qualifiers) (type : DataType) (first : Token) :
    (declarators q type first).Closed m (declarators q type first) s := by
  refine (local_declarator q type first).close fun item t₁ => ?_
  refine (steady_add _).toLocal.close fun list t₂ => ?_
  refine (local_repeated (fun list _ => local_declaratorTurn q type list) list t₂).close
    fun list t₃ => ?_
  exact closed_stop (.mark .semicolon) nofun fun _ _ => steady_add _

theorem closed_declarationStatement :
    declarationStatement.Closed m declarationStatement s := by
  refine local_qualifiers.close fun q t₁ => local_dataType.close fun type t₂ => ?_
  refine (closed_expect .name nofun).toLocal.close fun name t₃ => ?_
  exact closed_declarators q type name

/-! ### Structs -/

theorem local_structDeclarator (list : Option NodeId) :
    (structDeclarator list).Local m (structDeclarator list) s := by
  refine (closed_expect .name nofun).toLocal.bind fun name t₁ => ?_
  refine local_arraySuffix.bind fun size t₂ => local_semantic.bind fun tie t₃ => ?_
  refine (steady_inner (Build.inner_structDeclarator name.text size tie)).toLocal.bind
    fun item t₄ => ?_
  refine (steady_buildLink .structDeclarators list item).toLocal.bind fun list t₅ => ?_
  refine (local_accept _).bind fun more t₆ => ?_
  split <;> exact local_pure _

theorem closed_structMember : structMember.Closed m structMember s := by
  refine local_dataType.close fun type t₁ => ?_
  refine (local_repeated (fun list _ => local_structDeclarator list) none t₁).close
    fun list t₂ => ?_
  refine closed_stop (.mark .semicolon) nofun fun _ t₃ => ?_
  split
  · exact steady_add _
  · exact steady_unexpected _

theorem local_structMemberTurn (list : Option NodeId) :
    (structMemberTurn list).Local m (structMemberTurn list) s := by
  refine .on_kind ?_
  split
  · exact local_pure _
  · refine closed_structMember.toLocal.bind fun member t₁ => ?_
    exact (steady_buildLink .structMembers list member).toLocal.bind fun _ _ => local_pure _

/-- Building a struct reports nothing about tokens. -/
theorem steady_structDeclaration (id : UInt32) (lines : Option NodeId) :
    (build (Build.structDeclaration id lines)).Steady m
      (build (Build.structDeclaration id lines)) s := by
  refine steady_build fun b x b' hb => ?_
  rw [Builder.structDeclaration_apply] at hb
  split at hb
  · next collected _ =>
      obtain ⟨-, rfl⟩ := EStateM.Result.ok.inj hb
      exact (Builder.grows_closed b id lines collected).errors
  · contradiction

theorem closed_structDeclaration : structDeclaration.Closed m structDeclaration s := by
  refine (closed_expectKeyword .structWord).toLocal.close fun _ t₁ => ?_
  refine (closed_expect .name nofun).toLocal.close fun name t₂ => ?_
  have hopened : (build (Build.beginStruct name.text)).Steady m
      (build (Build.beginStruct name.text)) t₂ := by
    refine steady_build fun b x b' hb => ?_
    obtain ⟨-, rfl⟩ := EStateM.Result.ok.inj hb
    exact Nat.le_refl _
  refine hopened.toLocal.close fun id t₃ => ?_
  refine (closed_expectMark .openCurly).toLocal.close fun _ t₄ => ?_
  refine (local_repeated (fun list _ => local_structMemberTurn list) none t₄).close
    fun members t₅ => ?_
  refine (closed_expectMark .closeCurly).toLocal.close fun _ t₆ => ?_
  exact (closed_expectMark .semicolon).still fun _ t₇ => steady_structDeclaration id members

/-! ### Parameters -/

theorem local_parameter : parameter.Local m parameter s := by
  refine local_qualifiers.bind fun q t₁ => local_dataType.bind fun type t₂ => ?_
  have hrest : ∀ (name : Option String) (t : ParseState), Local m
      (arraySuffix >>= fun size => semantic >>= fun tie =>
        build (Build.parameter q type name size tie))
      (arraySuffix >>= fun size => semantic >>= fun tie =>
        build (Build.parameter q type name size tie)) t := by
    intro name t
    refine local_arraySuffix.bind fun size t₃ => local_semantic.bind fun tie t₄ => ?_
    exact (steady_inner (Build.inner_parameter q type name size tie)).toLocal
  refine .on_kind ?_
  dsimp only
  split
  · exact local_advance.bind fun t t₃ => (local_pure _).bind hrest
  · exact (local_pure none).bind hrest

theorem local_parameterTurn (list : Option NodeId) :
    (parameterTurn list).Local m (parameterTurn list) s := by
  refine local_parameter.bind fun item t₁ => ?_
  refine (steady_buildLink .parameters list item).toLocal.bind fun list t₂ => ?_
  refine (local_accept _).bind fun more t₃ => ?_
  split <;> exact local_pure _

/-- The closing parenthesis is read behind the word `void`; where it is not the last token, there are
two. -/
theorem local_parameters : parameters.Local m parameters s := by
  refine Closed.look_two (fun x t hx => ?_) (fun isVoid htwo hx => voidAhead_followed htwo hx) fun isVoid => ?_
  · obtain ⟨v, hv, -⟩ := voidAhead_apply s
    exact (EStateM.Result.ok.inj (hx.symm.trans hv)).2
  · have hclose : ∀ (list : Option NodeId) (t : ParseState), Closed m
        (currentKind >>= fun next => if next = .mark .closeParen then advance >>= fun _ => pure list
          else unexpected [.mark .comma, .mark .closeParen])
        (currentKind >>= fun next => if next = .mark .closeParen then advance >>= fun _ => pure list
          else unexpected [.mark .comma, .mark .closeParen]) t :=
      fun list t => closed_stop (.mark .closeParen) nofun fun _ _ => steady_pure list
    dsimp only
    split
    · exact local_advance.close fun _ t₁ => (local_pure none).close hclose
    · refine .on_kind ?_
      split
      · exact (local_pure none).close hclose
      · exact (local_repeated (fun list _ => local_parameterTurn list) none s).close hclose

/-! ### Statements -/

/-- A declaration with a name behind its type is enclosed. -/
theorem enclosed_of_declarationStatement {y : NodeId} {u : ParseState}
    (h : declarationStatement s = .ok y u) : Cursor.Enclosed s.cursor.rest := by
  obtain ⟨q, t₁, hq, h⟩ := bind_eq_ok h
  obtain ⟨type, t₂, htype, h⟩ := bind_eq_ok h
  obtain ⟨name, t₃, hname, -⟩ := bind_eq_ok h
  obtain ⟨hlt, henclosed⟩ := encloses_dataType t₁ type t₂ htype
  have hpos : 0 < t₂.left := Cursor.left_pos_of_kind ((expect_eq_ok hname).1 ▸ nofun)
  by_cases hkind : s.cursor.current.kind = .qualifier
  · have hregular : qualifiers.Regular .inside := regular_qualifiers
    have hle := ((hregular.orderly s).of_ok hq).1.left_le
    refine Cursor.enclosed_of_plain ?_ fun word rest heq => ?_
    · rw [← s.cursor.left_eq]
      show 2 ≤ s.left
      omega
    · rw [Cursor.current, heq] at hkind
      rw [hkind]
      rfl
  · have hturn : qualifierTurn .none s = .ok (.done .none) s := by
      unfold qualifierTurn
      rw [bind_apply, currentKind_apply]
      simp only [if_neg hkind]
      rfl
    have hloop : qualifiers s = _ := loop_eq qualifierTurn .none s
    rw [hloop, hturn] at hq
    obtain ⟨-, rfl⟩ := EStateM.Result.ok.inj hq
    exact henclosed hpos

theorem closed_expressionStatement : expressionStatement.Closed m expressionStatement s := by
  refine (local_expression .default s).close fun value t₁ => ?_
  exact (closed_expectMark .semicolon).still fun _ _ => steady_add _

theorem closed_emptyStatement : emptyStatement.Closed m emptyStatement s :=
  (closed_expectMark .semicolon).still fun _ _ => steady_add _

theorem closed_jumpStatement (jump : Jump) :
    (jumpStatement jump).Closed m (jumpStatement jump) s :=
  local_advance.close fun _ _ => (closed_expectMark .semicolon).still fun _ _ => steady_add _

theorem local_optionalExpression (stop : Mark) :
    (optionalExpression stop).Local m (optionalExpression stop) s := by
  refine .on_kind ?_
  split
  · exact local_pure _
  · exact (local_expression .default s).bind fun _ _ => local_pure _

theorem closed_returnStatement : returnStatement.Closed m returnStatement s := by
  refine (closed_expectKeyword .returnWord).toLocal.close fun _ t₁ => ?_
  refine (local_optionalExpression .semicolon).close fun value t₂ => ?_
  exact (closed_expectMark .semicolon).still fun _ _ => steady_add _

theorem closed_condition : condition.Closed m condition s := by
  refine (closed_expectMark .openParen).toLocal.close fun _ t₁ => ?_
  refine (local_expression .default t₁).close fun value t₂ => ?_
  exact (closed_expectMark .closeParen).still fun _ _ => steady_pure _

/-- The look for a declaration has the same answer with more tokens behind, where a statement comes
of it. -/
theorem closed_declarationAhead {α : Type} {f f' : Bool → Parser α}
    (henclosed : ∀ isDeclaration y u, f isDeclaration s = .ok y u → Cursor.Enclosed s.cursor.rest)
    (hf : ∀ isDeclaration, (f isDeclaration).Closed m (f' isDeclaration) s) :
    (declarationAhead >>= f).Closed m (declarationAhead >>= f') s := by
  refine .look (fun x t hx => ?_) (fun isDeclaration y u hx hy => ?_) hf
  · obtain ⟨v, hv⟩ := declarationAhead_apply s
    exact (EStateM.Result.ok.inj (hx.symm.trans hv)).2
  · exact declarationAhead_followed (henclosed isDeclaration y u hy) hx

theorem enclosed_of_statement {isDeclaration : Bool} {y : NodeId} {u : ParseState}
    (h : (if isDeclaration = true then declarationStatement else expressionStatement) s = .ok y u) :
    Cursor.Enclosed s.cursor.rest := by
  split at h
  · exact enclosed_of_declarationStatement h
  · exact enclosed_of_ok (encloses_expression .default s) h

/-- One more statement of a block: behind a report nothing is claimed. -/
theorem local_blockTurn (hi : Twins m inner inner') (list : Option NodeId) :
    (blockTurn inner list).Local m (blockTurn inner' list) s := by
  refine .on_kind ?_
  generalize s.cursor.current.kind = kind
  split
  case h_1 => exact local_pure _
  case h_2 => exact local_pure _
  case h_3 =>
      refine .attempt (hi.same () s) (fun item t₁ => ?_) fun found allowed t ht y u hy => ?_
      · exact (steady_buildLink .statements list item).toLocal.bind fun _ _ => local_pure _
      · obtain ⟨⟨settled, hcourse⟩, -⟩ := ((hi.regular ()).orderly s).of_unexpected ht
        obtain ⟨_, t₂, hreport, hy⟩ := bind_eq_ok hy
        obtain ⟨t₂', hreport', hcursor, -, herrors⟩ := report_apply found allowed t
        obtain ⟨-, rfl⟩ := EStateM.Result.ok.inj (hreport.symm.trans hreport')
        obtain ⟨_, t₃, hrecover, hy⟩ := bind_eq_ok hy
        obtain ⟨-, rfl⟩ := EStateM.Result.ok.inj hy
        obtain ⟨settled', hrest⟩ := (rests_recoverStatement .start hrecover).course
        have hleft : t₂.left = t.left := congrArg Cursor.left hcursor
        have hle := hcourse.left_le
        have hle' := hcourse.errors_le
        have hrestLeft := hrest.left_le
        have hrestErrors := hrest.errors_le
        exact ⟨by omega, by omega⟩

theorem closed_blockRule (hi : Twins m inner inner') :
    (blockRule inner).Closed m (blockRule inner') s := by
  refine (closed_expectMark .openCurly).toLocal.close fun _ t₁ => ?_
  refine (local_repeated (fun list _ => local_blockTurn hi list) none t₁).close fun list t₂ => ?_
  exact (closed_expectMark .closeCurly).still fun _ _ => steady_add _

theorem local_ifStatement (hi : Twins m inner inner') :
    (ifStatement inner).Local m (ifStatement inner') s := by
  refine (closed_expectKeyword .ifWord).toLocal.bind fun _ t₁ => ?_
  refine closed_condition.toLocal.bind fun test t₂ => (hi.same () t₂).bind fun yes t₃ => ?_
  refine (local_accept _).bind fun hasElse t₄ => ?_
  dsimp only
  split
  · exact (hi.same () t₄).map.bind fun no t₅ => (steady_add _).toLocal
  · exact (local_pure none).bind fun no t₅ => (steady_add _).toLocal

theorem local_whileStatement (hi : Twins m inner inner') :
    (whileStatement inner).Local m (whileStatement inner') s := by
  refine (closed_expectKeyword .whileWord).toLocal.bind fun _ t₁ => ?_
  refine closed_condition.toLocal.bind fun test t₂ => (hi.same () t₂).bind fun body t₃ => ?_
  exact (steady_add _).toLocal

theorem closed_doStatement (hi : Twins m inner inner') :
    (doStatement inner).Closed m (doStatement inner') s := by
  refine (closed_expectKeyword .doWord).toLocal.close fun _ t₁ => ?_
  refine (hi.same () t₁).close fun body t₂ => ?_
  refine (closed_expectKeyword .whileWord).toLocal.close fun _ t₃ => ?_
  refine closed_condition.toLocal.close fun test t₄ => ?_
  exact (closed_expectMark .semicolon).still fun _ _ => steady_add _

theorem closed_forStart : forStart.Closed m forStart s := by
  refine .accept (.mark .semicolon) nofun (fun t₁ => ?_) ?_
  · exact steady_pure none
  · refine closed_declarationAhead (fun isDeclaration y u hy => ?_) fun isDeclaration => ?_
    · split at hy
      · obtain ⟨_, hy⟩ := map_eq_ok hy
        exact enclosed_of_declarationStatement hy
      · obtain ⟨_, hy⟩ := map_eq_ok hy
        exact enclosed_of_ok (encloses_expression .default s) hy
    · split
      · exact closed_declarationStatement.map
      · exact closed_expressionStatement.map

theorem local_forStatement (hi : Twins m inner inner') :
    (forStatement inner).Local m (forStatement inner') s := by
  refine (closed_expectKeyword .forWord).toLocal.bind fun _ t₁ => ?_
  refine (closed_expectMark .openParen).toLocal.bind fun _ t₂ => ?_
  refine closed_forStart.toLocal.bind fun first t₃ => ?_
  refine (local_optionalExpression _).bind fun test t₄ => ?_
  refine (closed_expectMark .semicolon).toLocal.bind fun _ t₅ => ?_
  refine (local_optionalExpression _).bind fun next t₆ => ?_
  refine (closed_expectMark .closeParen).toLocal.bind fun _ t₇ => ?_
  exact (hi.same () t₇).bind fun body t₈ => (steady_add _).toLocal

theorem local_statementRule (hi : Twins m inner inner') (u : Unit) :
    (statementRule inner u).Local m (statementRule inner' u) s := by
  refine .on_kind ?_
  generalize s.cursor.current.kind = kind
  split
  case h_1 => exact (closed_blockRule hi).toLocal
  case h_2 => exact local_ifStatement hi
  case h_3 => exact local_whileStatement hi
  case h_4 => exact (closed_doStatement hi).toLocal
  case h_5 => exact local_forStatement hi
  case h_6 => exact (closed_jumpStatement _).toLocal
  case h_7 => exact (closed_jumpStatement _).toLocal
  case h_8 => exact (closed_jumpStatement _).toLocal
  case h_9 => exact closed_returnStatement.toLocal
  case h_10 => exact closed_emptyStatement.toLocal
  case h_11 =>
      refine (closed_declarationAhead (fun _ _ _ => enclosed_of_statement) fun _ => ?_).toLocal
      split
      · exact closed_declarationStatement
      · exact closed_expressionStatement

/-- **A statement that leaves a token is read as it is whatever comes behind.** -/
theorem local_statement (s : ParseState) : statement.Local m statement s :=
  local_fix (fun _ => regular_statement) (fun _ hi u _ => local_statementRule hi u) () s

theorem closed_block : block.Closed m block s :=
  closed_blockRule ⟨fun _ => local_statement, fun _ => regular_statement⟩

/-! ### Parts of a program -/

theorem closed_functionEnd (head : NodeId) : (functionEnd head).Closed m (functionEnd head) s := by
  refine .on_kind ?_
  split
  · next hkind =>
      refine (closed_advance (hkind ▸ nofun)).still fun _ t₁ => ?_
      have hend : (build Build.endFunction).Steady m (build Build.endFunction) t₁ := by
        refine steady_build fun b x b' hb => ?_
        obtain ⟨-, rfl⟩ := EStateM.Result.ok.inj hb
        exact Nat.le_refl _
      exact hend.bind fun _ _ => steady_pure head
  · refine closed_block.still fun body t₁ => steady_build fun b x b' hb => ?_
    obtain ⟨-, rfl⟩ := EStateM.Result.ok.inj hb
    exact (Builder.grows_defined b head body).errors
  · exact closed_unexpected _

theorem closed_function (type : DataType) (name : Token) :
    (function type name).Closed m (function type name) s := by
  refine (closed_expectMark .openParen).toLocal.close fun _ t₁ => ?_
  refine local_parameters.close fun list t₂ => local_semantic.close fun tie t₃ => ?_
  have hhead : (build (Build.prototype type name.text list tie)).Steady m
      (build (Build.prototype type name.text list tie)) t₃ := by
    refine steady_build fun b x b' hb => ?_
    obtain ⟨-, rfl⟩ := EStateM.Result.ok.inj hb
    exact (Builder.grows_headed b type name.text list tie).errors
  exact hhead.toLocal.close fun head t₄ => closed_functionEnd head

theorem closed_functionOrVariables : functionOrVariables.Closed m functionOrVariables s := by
  refine local_qualifiers.close fun q t₁ => local_dataType.close fun type t₂ => ?_
  refine (closed_expect .name nofun).toLocal.close fun name t₃ => ?_
  refine .on_kind ?_
  split
  · exact closed_function type name
  · exact closed_declarators q type name

theorem closed_typedExternal : typedExternal.Closed m typedExternal s := by
  refine .on_kind ?_
  split
  case h_5 =>
      refine .look (fun x t hx => (EStateM.Result.ok.inj hx).2.symm) (fun next y u hx hy => ?_)
        fun next => ?_
      · obtain ⟨rfl, -⟩ := EStateM.Result.ok.inj hx
        split at hy
        · next hkind =>
            have hlt : 1 < s.cursor.left := Cursor.lt_left_of_kind (hkind ▸ nofun)
            exact congrArg (EStateM.Result.ok · _) (Cursor.peek_followed hlt)
        · contradiction
      · split
        · exact closed_functionOrVariables
        · exact closed_unexpected _
  case h_6 => exact closed_unexpected _
  all_goals exact closed_functionOrVariables

/-- **A part of a program is read as it is whatever comes behind.** -/
theorem closed_external : external.Closed m external s := by
  refine .on_kind ?_
  split
  · next hkind => exact (closed_advance (hkind ▸ nofun)).still fun _ _ => steady_pure none
  · exact closed_structDeclaration.map
  · exact closed_typedExternal.map

end ShaderLang.Grammar
