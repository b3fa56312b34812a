/-
**How each rule of the grammar is put together.**

This is the one walk through the rules for all that follows from how they are put together: the small
steps of building, what the reports are about, the positions of nodes, the admitted types and the depth of
braces are each told from it.  So a rule that changes changes its lemma here, and what it builds has to be
sound.

Types are read first, and what is known of them is needed later: a component type is built in, and the
type of a variable is admitted.  Braces are read by initial values and by structs.  At the parameters of a
function a token is taken for the word `void` by its text.

Main results:

* `ShaderLang.Grammar.regular_expression`, `ShaderLang.Grammar.regular_declarationStatement`,
  `ShaderLang.Grammar.regular_statement` — **expressions, declarations and statements**;
* `ShaderLang.Grammar.composed_typeSpecifier` — a type, which is admitted;
* `ShaderLang.Grammar.regular_external` — **the parts of a program**.
-/

import ShaderLang.Proofs.Grammar.Composition

set_option relaxedAutoImplicit false
set_option autoImplicit false

namespace ShaderLang.Grammar

open ShaderLang.Parser
open ShaderLang.Build hiding bind_apply bind_eq_ok pure_apply Matches

variable {site : Site} {words : List Token} {known : List Fact} {next : Token → Prop} {d : Nat}
  {expr : Power → Parser NodeId} {inner : Unit → Parser NodeId}

/-! ### Types -/

theorem admitted_subset (type : DataType) :
    [Fact.admitted type] ⊆ [.builtIn type, .admitted type] :=
  List.subset_cons_self ..

theorem builtIn_subset (type : DataType) : [Fact.builtIn type] ⊆ [.builtIn type, .admitted type] :=
  List.cons_subset_cons _ (List.nil_subset _)

/-- The type that a type word names is built in. -/
theorem composed_componentType {gives : DataType → List Fact}
    (hgives : ∀ type, gives type ⊆ [.builtIn type, .admitted type]) :
    Composed site words known next d d componentType gives :=
  .expect .typeName rfl (fun _ _ h => by rw [Token.text_eq_of_word h]) fun _ hkind =>
    .build (sound_namedType (List.mem_cons_self ..) hkind hgives)

theorem composed_vectorSpecifier (he : ∀ j, (expr j).Regular site) :
    Composed site words known next d d (vectorSpecifier expr) fun type => [.admitted type] := by
  refine .andThen (regular_expectKeyword _) fun _ => .andThen (regular_accept _ rfl) fun isLong => ?_
  split
  · refine .bind (composed_componentType builtIn_subset) fun component => ?_
    refine .andThen (regular_expectMark _ rfl) fun _ => .andThen (he _) fun size => ?_
    refine .andThen (regular_expectMark _ rfl) fun _ => ?_
    exact .build (sound_vectorType (List.mem_cons_self ..) admitted_subset size)
  · exact .build (sound_standard (by decide) admitted_subset)

theorem composed_matrixSpecifier (he : ∀ j, (expr j).Regular site) :
    Composed site words known next d d (matrixSpecifier expr) fun type => [.admitted type] := by
  refine .andThen (regular_expectKeyword _) fun _ => .andThen (regular_accept _ rfl) fun isLong => ?_
  split
  · refine .bind (composed_componentType builtIn_subset) fun component => ?_
    refine .andThen (regular_expectMark _ rfl) fun _ => .andThen (he _) fun rows => ?_
    refine .andThen (regular_expectMark _ rfl) fun _ => .andThen (he _) fun columns => ?_
    refine .andThen (regular_expectMark _ rfl) fun _ => ?_
    exact .build (sound_matrixType (List.mem_cons_self ..) admitted_subset rows columns)
  · exact .build (sound_standard (by decide) admitted_subset)

/-- **A type that is read is admitted.** -/
theorem composed_typeSpecifier (he : ∀ j, (expr j).Regular site) :
    Composed site words known next d d (typeSpecifier expr) fun type => [.admitted type] := by
  refine .on_kind fun kind => ?_
  split
  · exact composed_componentType admitted_subset
  · exact composed_vectorSpecifier he
  · exact composed_matrixSpecifier he
  · refine .read rfl (fun _ _ h => by rw [Token.text_eq_of_word h]) fun _ hkind => ?_
    exact .build (sound_structType (List.mem_cons_self ..) hkind)
  · exact .unexpected _

/-! ### Expressions -/

theorem regular_argumentTurn (he : ∀ j, (expr j).Regular site) (list : Option NodeId) :
    (argumentTurn expr list).Regular site := by
  refine (he .comma).bind fun item => ?_
  refine (regular_buildLink .arguments nofun list item).bind fun list => ?_
  refine (regular_accept _ rfl).bind fun more => ?_
  split <;> exact regular_pure _

/-- What a sequence in parentheses ends with. -/
theorem regular_closeParen (list : Option NodeId) :
    (currentKind >>= fun next =>
      if next = .mark .closeParen then advance >>= fun _ => pure list
      else unexpected [.mark .comma, .mark .closeParen] : Parser (Option NodeId)).Regular site := by
  refine regular_on_kind fun kind words known next d => ?_
  split
  · next h =>
      subst h
      exact .skip rfl fun _ => .pure list
  · exact .unexpected _

theorem regular_arguments (he : ∀ j, (expr j).Regular site) : (arguments expr).Regular site := by
  refine (regular_expectMark .openParen rfl).bind fun _ => (regular_accept _ rfl).bind fun isEmpty => ?_
  split
  · exact regular_pure _
  · exact (regular_repeated (regular_argumentTurn he) none).bind regular_closeParen

/-- A token that is an expression by itself. -/
theorem composed_literal {kind : TokenKind} {step : String → Build NodeId}
    (hkind : kind.isBrace = false)
    (hstep : ∀ t, t.kind = kind → (step t.text).Sound site (t :: words) known nothing) :
    Composed site words known (fun t => next t ∧ t.kind = kind) d d (literal step) nothing :=
  .read (TokenKind.shifts_of_plain hkind d) (fun _ _ h => by rw [Token.text_eq_of_word h])
    fun t ht => .build (hstep t ht)

theorem looks_castAhead : castAhead.Looks fun _ _ => True := by
  intro s
  obtain ⟨length, -, hlength⟩ := looks_typeLength 1 s
  cases length with
  | none => exact ⟨false, trivial, fun s' h => by rw [castAhead, bind_apply, hlength s' h]; rfl⟩
  | some length =>
      obtain ⟨isCast, -, hcast⟩ :=
        (looks_kindAhead (1 + length)).derived (fun kind => decide (kind = .mark .closeParen)) s
      refine ⟨isCast, trivial, fun s' h => ?_⟩
      rw [castAhead, bind_apply, hlength s' h]
      exact hcast s' h

theorem regular_parenthesised (he : ∀ j, (expr j).Regular site) :
    (parenthesised expr).Regular site := by
  refine looks_castAhead.regular.bind fun isCast => (regular_expectMark .openParen rfl).bind fun _ => ?_
  split
  · intro words known next d
    refine .bind (composed_typeSpecifier he) fun type => ?_
    refine .andThen (regular_expectMark .closeParen rfl) fun _ => .andThen (he .unary) fun value => ?_
    exact .build (sound_add_typed rfl rfl rfl (by simp [Node.types]))
  · refine (he .default).bind fun value => ?_
    exact (regular_expectMark .closeParen rfl).bind fun _ => regular_pure _

theorem regular_construction (he : ∀ j, (expr j).Regular site) : (construction expr).Regular site := by
  intro words known next d
  refine .bind (composed_typeSpecifier he) fun type => .andThen (regular_arguments he) fun list => ?_
  exact .build (sound_add_typed rfl rfl rfl (by simp [Node.types]))

/-- A call of an intrinsic function is built behind its arguments, but what is said of its name is
about the word in front of them. -/
theorem composed_intrinsicCall (he : ∀ j, (expr j).Regular site) :
    Composed site words known (fun t => next t ∧ t.kind = .intrinsic) d d (intrinsicCall expr) nothing := by
  refine .read rfl (fun _ _ h => by rw [Token.text_eq_of_word h]) fun t hkind => ?_
  refine .andThen (regular_arguments he) fun list => ?_
  exact .build (sound_intrinsicCall (List.mem_cons_self ..) hkind list)

theorem composed_leading {m : Mark} (he : ∀ j, (expr j).Regular site) {op : Leading}
    (hop : Leading.ofMark m = some op) :
    Composed site words known (fun t => next t ∧ t.kind = .mark m) d d (leading expr op) nothing := by
  have hm : (TokenKind.mark m).isBrace = false := by
    cases m <;> first | rfl | contradiction
  refine .skip (TokenKind.shifts_of_plain hm d) fun _ => .andThen (he .unary) fun value => ?_
  cases op <;> exact .build (sound_add rfl rfl rfl rfl)

theorem regular_operand (he : ∀ j, (expr j).Regular site) : (operand expr).Regular site := by
  refine regular_on_kind fun kind words known next d => ?_
  split
  case h_1 => exact composed_literal rfl fun _ => sound_intLiteral (List.mem_cons_self ..)
  case h_2 => exact composed_literal rfl fun _ => sound_floatLiteral (List.mem_cons_self ..)
  case h_3 => exact composed_literal rfl fun t _ => sound_stringLiteral t.text
  case h_4 => exact composed_literal rfl fun _ _ => sound_add rfl rfl rfl rfl
  case h_5 => exact composed_literal rfl fun _ _ => sound_add rfl rfl rfl rfl
  case h_6 => exact composed_literal rfl fun t _ => sound_name t.text
  case h_7 => exact composed_intrinsicCall he
  case h_8 | h_9 | h_10 => exact regular_construction he _ _ _ _
  case h_11 => exact regular_parenthesised he _ _ _ _
  case h_12 =>
      split
      · next hop => exact composed_leading he hop
      · exact .unexpected _
  case h_13 => exact .unexpected _

/-- The name of a member is read, and what comes next depends on its word. -/
theorem composed_fieldName {β : Type} {f : Token → Parser β} {gives : β → List Fact}
    (hcongr : ∀ t t', t.word = t'.word → f t = f t')
    (hf : ∀ t words, Composed site words known anyToken d d (f t) gives) :
    Composed site words known next d d (fieldName >>= f) gives := by
  have hname : (fieldName >>= f) = (currentKind >>= fun kind =>
      if kind = .name ∨ kind = .intrinsic then advance >>= f else unexpected [.name]) := by
    unfold fieldName
    rw [bind_assoc]
    exact bind_congr fun kind => by cases kind <;> rfl
  rw [hname]
  refine .on_kind fun kind => ?_
  split
  · next h => exact .read (by rcases h with rfl | rfl <;> rfl) hcongr fun t _ => hf t _
  · exact .unexpected _

/-- A brace extends no expression. -/
theorem isBrace_of_above {level : Power} {kind : TokenKind} {e : Extension}
    (h : Extension.above level kind = some e) : kind.isBrace = false := by
  cases hbrace : kind.isBrace with
  | false => rfl
  | true =>
      rcases kind_of_isBrace hbrace with rfl | rfl <;> contradiction

theorem composed_extend {kind : TokenKind} (he : ∀ j, (expr j).Regular site) (left : NodeId)
    (e : Extension) (hkind : kind.isBrace = false) :
    Composed site words known (fun t => next t ∧ t.kind = kind) d d (extend expr left e) nothing := by
  have hshifts := TokenKind.shifts_of_plain hkind d
  cases e with
  | binary op =>
      refine .skip hshifts fun _ => .andThen (he op.power) fun right => ?_
      exact .build (sound_add rfl rfl rfl rfl)
  | assign op =>
      refine .skip hshifts fun _ => .andThen (he .comma) fun value => ?_
      exact .build (sound_add rfl rfl rfl rfl)
  | ternary =>
      refine .skip hshifts fun _ => .andThen (he .default) fun yes => ?_
      refine .andThen (regular_expectMark .colon rfl) fun _ => .andThen (he .assignment) fun no => ?_
      exact .build (sound_add rfl rfl rfl rfl)
  | comma =>
      refine .skip hshifts fun _ => .andThen (he .comma) fun right => ?_
      exact .build (sound_add rfl rfl rfl rfl)
  | step direction => exact .skip hshifts fun _ => .build (sound_add rfl rfl rfl rfl)
  | element =>
      refine .skip hshifts fun _ => .andThen (he .default) fun position => ?_
      refine .andThen (regular_expectMark .closeBracket rfl) fun _ => ?_
      exact .build (sound_element left position)
  | call => exact .andThen (regular_arguments he) fun list => .build (sound_call left list)
  | field =>
      refine .skip hshifts fun _ => ?_
      refine composed_fieldName (fun _ _ h => by rw [Token.text_eq_of_word h]) fun t _ => ?_
      exact .build (sound_field left t.text)

theorem regular_extension (he : ∀ j, (expr j).Regular site) (level : Power) (left : NodeId) :
    (extension expr level left).Regular site := by
  refine regular_on_kind fun kind words known next d => ?_
  split
  · next e h => exact .bind (composed_extend he left e (isBrace_of_above h)) fun _ => .pure _
  · exact .pure _

/-- **An expression.** -/
theorem regular_expression (level : Power) : (expression level).Regular site := by
  refine regular_fix (fun inner he level => ?_) level
  exact (regular_operand he).bind fun first => regular_repeated (regular_extension he level) first

/-! ### Parts of declarations -/

theorem composed_dataType :
    Composed site words known next d d dataType fun type => [.admitted type] :=
  composed_typeSpecifier regular_expression

theorem regular_qualifierTurn (q : Qualifiers) : (qualifierTurn q).Regular site := by
  refine regular_on_kind fun kind words known next d => ?_
  split
  · next h =>
      subst h
      exact .read rfl (fun _ _ h => by rw [Token.text_eq_of_word h]) fun _ _ => .pure _
  · exact .pure _

theorem regular_qualifiers : qualifiers.Regular site := regular_repeated regular_qualifierTurn .none

theorem regular_arraySuffix : arraySuffix.Regular site := by
  refine (regular_accept _ rfl).bind fun isArray => ?_
  split
  · refine (regular_expression .default).bind fun size => ?_
    exact (regular_expectMark .closeBracket rfl).bind fun _ => regular_pure _
  · exact regular_pure _

/-- A semantic is reported as none behind the name that it is read from. -/
theorem regular_semantic : semantic.Regular site := by
  refine (regular_accept _ rfl).bind fun isTied words known next d => ?_
  split
  · refine .expect .name rfl (fun _ _ h => by rw [Token.text_eq_of_word h]) fun _ hkind => ?_
    exact .build (sound_semantic (List.mem_cons_self ..) hkind)
  · exact .pure _

theorem regular_initializerTurn (hi : ∀ u, (inner u).Regular site) (list : Option NodeId) :
    (initializerTurn inner list).Regular site := by
  refine regular_on_kind fun kind words known next d => ?_
  split
  · exact .pure _
  · refine .andThen (hi ()) fun value => ?_
    refine .andThen (regular_buildLink .initializers nofun list value) fun list => ?_
    refine .andThen (regular_accept _ rfl) fun more => ?_
    split <;> exact .pure _

/-- Initial values between braces. -/
theorem regular_initializerRule (hi : ∀ u, (inner u).Regular site) (u : Unit) :
    (initializerRule inner u).Regular site := by
  refine regular_on_kind fun kind words known next d => ?_
  split
  · next h =>
      subst h
      refine .skip rfl fun _ => ?_
      refine .andThen (regular_repeated (regular_initializerTurn hi) none) fun list => ?_
      split
      · refine .on_kind fun kind => ?_
        split
        · next h =>
            subst h
            exact .skip rfl fun _ => .pure _
        · exact .unexpected _
      · exact .unexpected _
  · exact regular_expression .comma _ _ _ _

theorem regular_initializer : initializer.Regular site :=
  regular_fix (fun _ hi u => regular_initializerRule hi u) ()

/-! ### Variables -/

/-- Of the name of a variable only its text counts. -/
theorem declarator_congr (q : Qualifiers) (type : DataType) {name name' : Token}
    (h : name.word = name'.word) : declarator q type name = declarator q type name' := by
  unfold declarator
  rw [Token.text_eq_of_word h]

theorem declarators_congr (q : Qualifiers) (type : DataType) {first first' : Token}
    (h : first.word = first'.word) : declarators q type first = declarators q type first' := by
  unfold declarators
  rw [declarator_congr q type h]

theorem composed_declarator (q : Qualifiers) {type : DataType} (h : .admitted type ∈ known)
    (name : Token) : Composed site words known next d d (declarator q type name) nothing := by
  refine .andThen regular_arraySuffix fun size => .andThen regular_semantic fun tie => ?_
  refine .andThen (regular_accept _ rfl) fun hasValue => ?_
  have hbuild : ∀ value, Composed site words known anyToken d d
      (build (Build.declaration q type name.text size tie value)) nothing :=
    fun value => .build (sound_declaration q h name.text size tie value)
  dsimp only
  split
  · exact .andThen regular_initializer.map hbuild
  · exact .andThen (regular_pure none) hbuild

theorem composed_declaratorTurn (q : Qualifiers) {type : DataType} (h : .admitted type ∈ known)
    (list : NodeId) : Composed site words known next d d (declaratorTurn q type list) nothing := by
  refine .andThen (regular_accept _ rfl) fun more => ?_
  split
  · refine .expect .name rfl (fun _ _ h => ?_) fun name _ => ?_
    · simp only [declarator_congr q type h]
    · refine .bind (composed_declarator q h name) fun item => ?_
      exact .andThen (regular_add rfl rfl rfl rfl) fun _ => .pure _
  · exact .pure _

theorem composed_declarators (q : Qualifiers) {type : DataType} (h : .admitted type ∈ known)
    (first : Token) : Composed site words known next d d (declarators q type first) nothing := by
  refine .bind (composed_declarator q h first) fun item => ?_
  refine .andThen (regular_add rfl rfl rfl rfl) fun list => ?_
  refine .bind (.repeated (fun list next => composed_declaratorTurn q h list) list) fun list => ?_
  refine .on_kind fun kind => ?_
  split
  · next h =>
      subst h
      exact .skip rfl fun _ => .build (sound_add rfl rfl rfl rfl)
  · exact .unexpected _

/-- **A declaration of variables.** -/
theorem regular_declarationStatement : declarationStatement.Regular site := by
  refine regular_qualifiers.bind fun q words known next d => .bind composed_dataType fun type => ?_
  refine .expect .name rfl (fun _ _ h => declarators_congr q type h) fun name _ => ?_
  exact composed_declarators q (by simp) name

/-! ### Structs -/

theorem regular_structDeclarator (list : Option NodeId) : (structDeclarator list).Regular site := by
  intro words known next d
  refine .expect .name rfl (fun _ _ h => by rw [Token.text_eq_of_word h]) fun name _ => ?_
  refine .andThen regular_arraySuffix fun size => .andThen regular_semantic fun tie => ?_
  refine .bind (.build (sound_structDeclarator name.text size tie)) fun item => ?_
  refine .andThen (regular_buildLink .structDeclarators nofun list item) fun list => ?_
  refine .andThen (regular_accept _ rfl) fun more => ?_
  split <;> exact .pure _

theorem regular_structMember : structMember.Regular site := by
  intro words known next d
  refine .bind composed_dataType fun type => ?_
  refine .andThen (regular_repeated regular_structDeclarator none) fun list => ?_
  refine .on_kind fun kind => ?_
  split
  · next h =>
      subst h
      refine .skip rfl fun _ => ?_
      split
      · exact .build (sound_add_typed rfl rfl rfl (by simp [Node.types]))
      · exact .unexpected _
  · exact .unexpected _

theorem regular_structMemberTurn (list : Option NodeId) : (structMemberTurn list).Regular site := by
  refine regular_on_kind fun kind words known next d => ?_
  split
  · exact .pure _
  · refine .andThen regular_structMember fun member => ?_
    exact .andThen (regular_buildLink .structMembers nofun list member) fun _ => .pure _

/-- What follows the name of a struct. -/
def structRest (id : UInt32) : Parser NodeId := do
  expectMark .openCurly
  let members ← repeated structMemberTurn none
  expectMark .closeCurly
  expectMark .semicolon
  build (Build.structDeclaration id members)

theorem regular_structRest (hsite : site.isInner = false) (id : UInt32) :
    (structRest id).Regular site := by
  intro words known next d
  refine .bind (.expectMark .openCurly rfl) fun _ => ?_
  refine .andThen (regular_repeated regular_structMemberTurn none) fun members => ?_
  refine .bind (.expectMark .closeCurly rfl) fun _ => ?_
  refine .andThen (regular_expectMark .semicolon rfl) fun _ => ?_
  exact .build (sound_structDeclaration hsite id members)

/-! ### Parameters -/

theorem regular_parameter : parameter.Regular site := by
  refine regular_qualifiers.bind fun q words known next d => .bind composed_dataType fun type => ?_
  have hrest : ∀ (name : Option String) words known, .admitted type ∈ known →
      Composed site words known anyToken d d (arraySuffix >>= fun size => semantic >>= fun tie =>
        build (Build.parameter q type name size tie)) nothing := by
    intro name words known h
    refine .andThen regular_arraySuffix fun size => .andThen regular_semantic fun tie => ?_
    exact .build (sound_parameter q h name size tie)
  refine .on_kind fun kind => ?_
  dsimp only
  split
  · next h =>
      subst h
      refine .read rfl (fun _ _ h => by rw [Token.text_eq_of_word h]) fun t _ => ?_
      exact .andThen (regular_pure (some t.text)) fun name => hrest name _ _ (by simp)
  · exact .andThen (regular_pure none) fun name => hrest name _ _ (by simp)

theorem regular_parameterTurn (list : Option NodeId) : (parameterTurn list).Regular site := by
  refine regular_parameter.bind fun item => ?_
  refine (regular_buildLink .parameters nofun list item).bind fun list => ?_
  refine (regular_accept _ rfl).bind fun more => ?_
  split <;> exact regular_pure _

/-- Only a token that is spelled so is taken for the word `void`. -/
theorem looks_voidAhead : voidAhead.Looks fun isVoid t => isVoid = true → t.text = "void" := by
  intro s
  by_cases htext : s.cursor.current.text = "void"
  · obtain ⟨isVoid, -, hvoid⟩ :=
      (looks_kindAhead 1).derived (fun kind => decide (kind = .mark .closeParen)) s
    refine ⟨isVoid, fun _ => htext, fun s' h => ?_⟩
    rw [voidAhead, bind_apply, current_apply]
    simp only [if_pos (Token.text_eq_of_word h.word_current ▸ htext)]
    exact hvoid s' h
  · refine ⟨false, nofun, fun s' h => ?_⟩
    rw [voidAhead, bind_apply, current_apply]
    simp only [if_neg (Token.text_eq_of_word h.word_current ▸ htext)]
    rfl

theorem regular_parameters (hsite : site ≠ .inside) : parameters.Regular site := by
  refine fun words known next d => .look looks_voidAhead fun isVoid => .on_kind fun kind => ?_
  dsimp only
  split
  · next h =>
      subst h
      refine .advance (fun t ht => .inr ⟨hsite, ht.1.2 rfl, rfl⟩) (fun _ _ _ => rfl) fun _ _ => ?_
      exact .andThen (regular_pure none) fun list => regular_closeParen list _ _ _ _
  · split
    · exact .andThen (regular_pure none) fun list => regular_closeParen list _ _ _ _
    · exact .andThen (regular_repeated regular_parameterTurn none) fun list =>
        regular_closeParen list _ _ _ _

/-! ### Simple statements -/

theorem looks_declarationAhead : declarationAhead.Looks fun _ _ => True := by
  intro s
  obtain ⟨kind, -, hkind⟩ := looks_currentKind s
  by_cases hqualifier : kind = .qualifier
  · refine ⟨true, trivial, fun s' h => ?_⟩
    rw [declarationAhead, bind_apply, hkind s' h]
    simp only [if_pos hqualifier]
    rfl
  obtain ⟨length, -, hlength⟩ := looks_typeLength 0 s
  cases length with
  | some length =>
      obtain ⟨isType, -, htype⟩ :=
        (looks_kindAhead length).derived (fun kind => kind != .mark .openParen) s
      refine ⟨isType, trivial, fun s' h => ?_⟩
      rw [declarationAhead, bind_apply, hkind s' h]
      simp only [if_neg hqualifier]
      rw [bind_apply, hlength s' h]
      exact htype s' h
  | none =>
      obtain ⟨isTwo, -, htwo⟩ :=
        (looks_kindAhead 1).derived (fun ahead => decide (kind = .name) && decide (ahead = .name)) s
      refine ⟨isTwo, trivial, fun s' h => ?_⟩
      rw [declarationAhead, bind_apply, hkind s' h]
      simp only [if_neg hqualifier]
      rw [bind_apply, hlength s' h]
      dsimp only
      rw [bind_apply, hkind s' h]
      exact htwo s' h

theorem regular_expressionStatement : expressionStatement.Regular site := by
  refine (regular_expression .default).bind fun value => ?_
  exact (regular_expectMark .semicolon rfl).bind fun _ => regular_add rfl rfl rfl rfl

theorem regular_emptyStatement : emptyStatement.Regular site :=
  (regular_expectMark .semicolon rfl).bind fun _ => regular_add rfl rfl rfl rfl

theorem composed_jumpStatement {w : Keyword} (jump : Jump) :
    Composed site words known (fun t => next t ∧ t.kind = .keyword w) d d (jumpStatement jump) nothing := by
  refine .skip rfl fun _ => .andThen (regular_expectMark .semicolon rfl) fun _ => ?_
  exact .build (sound_add rfl rfl rfl rfl)

theorem regular_optionalExpression (stop : Mark) : (optionalExpression stop).Regular site := by
  refine regular_currentKind.bind fun kind => ?_
  split
  · exact regular_pure _
  · exact (regular_expression .default).bind fun _ => regular_pure _

theorem regular_returnStatement : returnStatement.Regular site := by
  refine (regular_expectKeyword .returnWord).bind fun _ => ?_
  refine (regular_optionalExpression .semicolon).bind fun value => ?_
  exact (regular_expectMark .semicolon rfl).bind fun _ => regular_add rfl rfl rfl rfl

theorem regular_condition : condition.Regular site := by
  refine (regular_expectMark .openParen rfl).bind fun _ => ?_
  refine (regular_expression .default).bind fun value => ?_
  exact (regular_expectMark .closeParen rfl).bind fun _ => regular_pure _

/-! ### Statements that hold statements -/

theorem regular_ifStatement (hi : ∀ u, (inner u).Regular site) : (ifStatement inner).Regular site := by
  refine (regular_expectKeyword .ifWord).bind fun _ => regular_condition.bind fun test => ?_
  refine (hi ()).bind fun yes => (regular_accept _ rfl).bind fun hasElse => ?_
  dsimp only
  split
  · exact (hi ()).map.bind fun _ => regular_add rfl rfl rfl rfl
  · exact (regular_pure none).bind fun _ => regular_add rfl rfl rfl rfl

theorem regular_whileStatement (hi : ∀ u, (inner u).Regular site) :
    (whileStatement inner).Regular site := by
  refine (regular_expectKeyword .whileWord).bind fun _ => regular_condition.bind fun test => ?_
  exact (hi ()).bind fun body => regular_add rfl rfl rfl rfl

theorem regular_doStatement (hi : ∀ u, (inner u).Regular site) : (doStatement inner).Regular site := by
  refine (regular_expectKeyword .doWord).bind fun _ => (hi ()).bind fun body => ?_
  refine (regular_expectKeyword .whileWord).bind fun _ => regular_condition.bind fun test => ?_
  exact (regular_expectMark .semicolon rfl).bind fun _ => regular_add rfl rfl rfl rfl

theorem regular_forStart : forStart.Regular site := by
  refine (regular_accept _ rfl).bind fun isEmpty => ?_
  split
  · exact regular_pure _
  · refine looks_declarationAhead.regular.bind fun isDeclaration => ?_
    split
    · exact regular_declarationStatement.map
    · exact regular_expressionStatement.map

theorem regular_forStatement (hi : ∀ u, (inner u).Regular site) :
    (forStatement inner).Regular site := by
  refine (regular_expectKeyword .forWord).bind fun _ => ?_
  refine (regular_expectMark .openParen rfl).bind fun _ => regular_forStart.bind fun first => ?_
  refine (regular_optionalExpression .semicolon).bind fun test => ?_
  refine (regular_expectMark .semicolon rfl).bind fun _ => ?_
  refine (regular_optionalExpression .closeParen).bind fun next => ?_
  refine (regular_expectMark .closeParen rfl).bind fun _ => (hi ()).bind fun body => ?_
  exact regular_add rfl rfl rfl rfl

/-- The statements of a block stand inside a part of a program, wherever the block does. -/
theorem regular_statementRule (hi : ∀ u, (inner u).Regular .inside) (u : Unit) :
    (statementRule inner u).Regular .inside := by
  refine regular_on_kind fun kind words known next d => ?_
  split
  case h_1 => exact regular_block hi _ _ _ _
  case h_2 => exact regular_ifStatement hi _ _ _ _
  case h_3 => exact regular_whileStatement hi _ _ _ _
  case h_4 => exact regular_doStatement hi _ _ _ _
  case h_5 => exact regular_forStatement hi _ _ _ _
  case h_6 | h_7 | h_8 => exact composed_jumpStatement _
  case h_9 => exact regular_returnStatement _ _ _ _
  case h_10 => exact regular_emptyStatement _ _ _ _
  case h_11 =>
      refine .andThen looks_declarationAhead.regular fun isDeclaration => ?_
      split
      · exact regular_declarationStatement _ _ _ _
      · exact regular_expressionStatement _ _ _ _

/-- **A statement.** -/
theorem regular_statement : statement.Regular .inside :=
  regular_fix (fun _ hi u => regular_statementRule hi u) ()

theorem regular_body : block.Regular site := regular_block fun _ => regular_statement

/-! ### Functions and variables -/

theorem function_congr (type : DataType) {name name' : Token} (h : name.word = name'.word) :
    function type name = function type name' := by
  unfold function
  rw [Token.text_eq_of_word h]

theorem regular_functionEnd (hsite : site.isInner = false) (head : NodeId) :
    (functionEnd head).Regular site := by
  refine regular_on_kind fun kind words known next d => ?_
  split
  · exact .skip rfl fun _ => .bind (.build (sound_endFunction hsite)) fun _ => .pure _
  · refine .andThen regular_body fun body => ?_
    exact .build (sound_definition hsite head body)
  · exact .unexpected _

theorem composed_function (hsite : site.isInner = false) {type : DataType}
    (h : .admitted type ∈ known) (name : Token) :
    Composed site words known next d d (function type name) nothing := by
  refine .andThen (regular_expectMark .openParen rfl) fun _ => ?_
  refine .andThen (regular_parameters (Site.ne_inside hsite)) fun list => ?_
  refine .andThen regular_semantic fun tie => ?_
  refine .bind (.build (sound_prototype hsite h name.text list tie)) fun head => ?_
  exact regular_functionEnd hsite head _ _ _ _

theorem regular_functionOrVariables (hsite : site.isInner = false) :
    functionOrVariables.Regular site := by
  refine regular_qualifiers.bind fun q words known next d => .bind composed_dataType fun type => ?_
  refine .expect .name rfl (fun name name' h => ?_) fun name _ => .on_kind fun kind => ?_
  · simp only [function_congr type h, declarators_congr q type h]
  · split
    · exact composed_function hsite (by simp) name
    · exact composed_declarators q (by simp) name

theorem regular_typedExternal (hsite : site.isInner = false) : typedExternal.Regular site := by
  refine regular_currentKind.bind fun kind => ?_
  split
  case h_5 =>
      have hahead : (peek 1 >>= fun t => if t.kind = .name then functionOrVariables
          else unexpected declarationStart) = ((peek 1 >>= fun t => pure t.kind) >>= fun kind =>
            if kind = .name then functionOrVariables else unexpected declarationStart) := by
        rw [bind_assoc]
        rfl
      rw [hahead]
      refine (looks_kindAhead 1).regular.bind fun kind => ?_
      split
      · exact regular_functionOrVariables hsite
      · exact regular_unexpected _
  case h_6 => exact regular_unexpected _
  all_goals exact regular_functionOrVariables hsite

/-! ### Parts of a program -/

/-- Behind its name a struct is open, and its name stands for it. -/
theorem regular_structDeclaration : structDeclaration.Regular .anywhere := by
  refine (regular_expectKeyword .structWord).bind fun _ words known next d => ?_
  refine .expect .name rfl (fun _ _ h => by rw [Token.text_eq_of_word h]) fun name _ => ?_
  refine .bind (.build (sound_beginStruct name.text)) fun id => ?_
  exact regular_structRest rfl id _ _ _ _

/-- **A part of a program.** -/
theorem regular_external : external.Regular .anywhere := by
  refine regular_on_kind fun kind words known next d => ?_
  split
  · exact .skip rfl fun _ => .pure _
  · exact regular_structDeclaration.map _ _ _ _
  · exact (regular_typedExternal rfl).map _ _ _ _

end ShaderLang.Grammar
