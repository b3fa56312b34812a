/-
**Statements keep to the terms.**

Inside a block a token that is not allowed is reported, and reading goes on behind it.  The report
is paid for by the tokens of the statement that broke a rule: the statement read one, or the next
one is neither the end nor a closing brace and is passed over.  So a block spends at most what its
statements read, and the brace in front of them is to spare.

Main results:

* `ShaderLang.Grammar.obeys_recoverStatement` — going on behind an error reads something, unless the
  end or a closing brace is next;
* `ShaderLang.Grammar.obeys_blockTurn`, `ShaderLang.Grammar.yields_blockRule` — blocks;
* `ShaderLang.Grammar.yields_statement` — **a statement reads something and leaves one statement**.
-/

import ShaderLang.Grammar.Statement
import ShaderLang.Proofs.Grammar.Declarations

set_option relaxedAutoImplicit false
set_option autoImplicit false

namespace ShaderLang.Grammar

open ShaderLang.Parser ShaderLang.Arena

variable {n : Nat} {s : ParseState} {k : Balance} {pre : List Part} {inner : Unit → Parser NodeId}

/-! ### Simple statements -/

theorem yields_expressionStatement (s : ParseState) : expressionStatement.Yields .statement s := by
  refine (yields_expression .default s).bind_moved fun value t₁ h₁ => ?_
  refine (obeys_expectMark .semicolon).bind fun _ t₂ h₂ _ => ?_
  exact obeys_build (Build.grafts_add (.expression (some value)) rfl)

theorem yields_emptyStatement (s : ParseState) : emptyStatement.Yields .statement s := by
  refine (obeys_expectMark .semicolon).bind_moved fun _ t₁ h₁ => ?_
  exact obeys_build (Build.grafts_add (.expression none) rfl)

theorem yields_jumpStatement (hread : s.cursor.Readable) (jump : Jump) :
    (jumpStatement jump).Yields .statement s := by
  refine (obeys_advance hread).bind_moved fun _ t₁ h₁ => ?_
  refine (obeys_expectMark .semicolon).bind fun _ t₂ h₂ _ => ?_
  exact obeys_build (Build.grafts_add (.jump jump) rfl)

theorem obeys_optionalExpression (stop : Mark) :
    (optionalExpression stop).Obeys .credit [] (fun _ => False)
      (fun value => optional value .expression) s := by
  refine .on_kind ?_
  split
  · exact obeys_pure not_false fun _ => Trades.refl
  · refine (obeys_expression .default []).bind fun value t₁ h₁ _ => ?_
    exact obeys_pure not_false fun _ => Trades.refl

theorem yields_returnStatement (s : ParseState) : returnStatement.Yields .statement s := by
  refine (obeys_expectKeyword .returnWord).bind_moved fun _ t₁ h₁ => ?_
  refine (obeys_optionalExpression .semicolon).bind fun value t₂ h₂ _ => ?_
  refine (obeys_expectMark .semicolon).bind fun _ t₃ h₃ _ => ?_
  exact obeys_build (Build.grafts_add (.result value) rfl)

theorem yields_condition (s : ParseState) : condition.Yields .expression s := by
  refine (obeys_expectMark .openParen).bind_moved fun _ t₁ h₁ => ?_
  refine (obeys_expression .default []).bind fun value t₂ h₂ _ => ?_
  refine (obeys_expectMark .closeParen).bind fun _ t₃ h₃ _ => ?_
  exact obeys_pure not_false fun _ => Trades.refl

/-! ### Going on behind an error -/

/-- Passing over a token; only in front of the end or a closing brace nothing is read. -/
theorem obeys_recoverStatementTurn (u : Unit) :
    (recoverStatementTurn u).Obeys k pre
      (Turn.Moves fun _ => s.cursor.current.kind ≠ .endOfFile ∧
        s.cursor.current.kind ≠ .mark .closeCurly)
      (Turn.leaves (fun _ => pre) fun _ => pre) s := by
  refine .on_kind ?_
  split
  case h_1 hkind => exact obeys_pure (fun h => h.1 hkind) fun _ => Trades.refl
  case h_2 hkind => exact obeys_pure (fun h => h.2 hkind) fun _ => Trades.refl
  case h_3 hkind =>
      refine (obeys_advance (.inl (hkind ▸ nofun))).bind_moved fun _ _ _ => ?_
      exact obeys_pure not_false fun _ => Trades.refl
  case h_4 hend _ _ =>
      refine (obeys_advance (.inl hend)).bind_moved fun _ _ _ => ?_
      exact obeys_pure not_false fun _ => Trades.refl

/-- **Going on behind an error reads something**, unless the end or a closing brace is next. -/
theorem obeys_recoverStatement (s : ParseState) :
    recoverStatement.Obeys k pre
      (fun _ => s.cursor.current.kind ≠ .endOfFile ∧ s.cursor.current.kind ≠ .mark .closeCurly)
      (fun _ => pre) s :=
  Obeys.repeated_from (fun u _ => obeys_recoverStatementTurn u) () s

theorem tolerant_recoverStatement : recoverStatement.Tolerant := by
  refine tolerant_repeated (fun _ => tolerant_currentKind.bind fun kind => ?_) ()
  split
  · exact tolerant_pure _
  · exact tolerant_pure _
  · exact tolerant_advance.bind fun _ => tolerant_pure _
  · exact tolerant_advance.bind fun _ => tolerant_pure _

/-- One more statement of a block, or a report that is paid for by what is passed over. -/
theorem obeys_blockTurn (hi : (inner ()).Yields .statement s) (list : Option NodeId) :
    (blockTurn inner list).Obeys .even (sequence .statements list) (Turn.Moves fun _ => False)
      (Turn.leaves (sequence .statements) (sequence .statements)) s := by
  refine .on_kind ?_
  split
  case h_1 => exact obeys_pure not_false fun _ => Trades.refl
  case h_2 => exact obeys_pure not_false fun _ => Trades.refl
  case h_3 hend hclose =>
      refine Obeys.attempt_bind hi (fun item t ht => ?_) (fun _ _ => rfl) ?_ fun t ht => ?_
      · refine (obeys_buildLink .statements list item).bind fun list t₂ h₂ _ => ?_
        exact obeys_pure not_false fun _ => Trades.refl
      · exact tolerant_recoverStatement.bind fun _ => tolerant_pure _
      · -- a statement that read nothing broke the rule at the token that is passed over now
        refine Obeys.bind_kept ((obeys_recoverStatement t).of_moves fun _ hleft => ?_) fun _ _ _ => ?_
        · rw [ht.eq_of_left_eq hleft]
          exact ⟨hend, hclose⟩
        · exact obeys_pure not_false fun _ => Trades.refl

/-- Statements between braces are a compound statement. -/
theorem yields_blockRule (hi : ∀ u t, t.left < n → (inner u).Yields .statement t)
    (hs : s.left ≤ n) : (blockRule inner).Yields .compound s := by
  refine (obeys_expectMark .openCurly).spend fun _ t₁ h₁ => ?_
  have hturn := fun list t (ht : t.left < n) => obeys_blockTurn (hi () t ht) list
  refine (Obeys.repeated hturn none t₁ (by omega)).bind fun list t₂ h₂ _ => ?_
  refine (obeys_expectMark .closeCurly).bind fun _ t₃ h₃ _ => ?_
  exact obeys_build (Build.grafts_add (.compound list) rfl)

/-! ### Statements that hold statements -/

theorem yields_ifStatement (hi : ∀ u t, t.left < n → (inner u).Yields .statement t)
    (hs : s.left ≤ n) : (ifStatement inner).Yields .statement s := by
  refine (obeys_expectKeyword .ifWord).bind_moved fun _ t₁ h₁ => ?_
  refine (yields_condition t₁).bind fun test t₂ h₂ _ => ?_
  refine (Obeys.beside _ (hi () t₂ (by omega))).bind fun yes t₃ h₃ _ => ?_
  refine (obeys_accept (.keyword .elseWord) nofun).bind fun _ t₄ h₄ _ => ?_
  dsimp only
  split
  · refine ((hi () t₄ (by omega)).map_some _).bind fun no t₅ h₅ _ => ?_
    exact obeys_build (Build.grafts_add (.conditional test yes no) rfl)
  · exact Obeys.look rfl (obeys_build (Build.grafts_add (.conditional test yes none) rfl))

theorem yields_whileStatement (hi : ∀ u t, t.left < n → (inner u).Yields .statement t)
    (hs : s.left ≤ n) : (whileStatement inner).Yields .statement s := by
  refine (obeys_expectKeyword .whileWord).bind_moved fun _ t₁ h₁ => ?_
  refine (yields_condition t₁).bind fun test t₂ h₂ _ => ?_
  refine (Obeys.beside _ (hi () t₂ (by omega))).bind fun body t₃ h₃ _ => ?_
  exact obeys_build (Build.grafts_add (.whileLoop test body) rfl)

theorem yields_doStatement (hi : ∀ u t, t.left < n → (inner u).Yields .statement t)
    (hs : s.left ≤ n) : (doStatement inner).Yields .statement s := by
  refine (obeys_expectKeyword .doWord).bind_moved fun _ t₁ h₁ => ?_
  refine Obeys.bind (hi () t₁ (by omega)) fun body t₂ h₂ _ => ?_
  refine (obeys_expectKeyword .whileWord).bind fun _ t₃ h₃ _ => ?_
  refine (Obeys.beside _ (yields_condition t₃)).bind fun test t₄ h₄ _ => ?_
  refine (obeys_expectMark .semicolon).bind fun _ t₅ h₅ _ => ?_
  exact obeys_build (Build.grafts_add (.doLoop body test) rfl)

/-- Looking for a declaration reads nothing. -/
theorem declarationAhead_apply (s : ParseState) : ∃ v, declarationAhead s = .ok v s := by
  unfold declarationAhead
  rw [bind_apply, currentKind_apply]
  dsimp only
  split
  · exact ⟨true, rfl⟩
  · rw [bind_apply, typeLength_apply]
    cases s.cursor.typeLength (fun name => (s.builder.structs.lookup name).isSome) 0 with
    | none => exact ⟨_, rfl⟩
    | some length => exact ⟨_, rfl⟩

theorem obeys_forStart :
    forStart.Obeys .credit [] (fun _ => False) (fun first => optional first .statement) s := by
  refine (obeys_acceptMark .semicolon).bind fun _ t₁ h₁ _ => ?_
  split
  · exact obeys_pure not_false fun _ => Trades.refl
  · obtain ⟨isDeclaration, hlook⟩ := declarationAhead_apply t₁
    refine Obeys.look hlook ?_
    split
    · exact ((yields_declarationStatement t₁).map_some []).still
    · exact ((yields_expressionStatement t₁).map_some []).still

theorem yields_forStatement (hi : ∀ u t, t.left < n → (inner u).Yields .statement t)
    (hs : s.left ≤ n) : (forStatement inner).Yields .statement s := by
  refine (obeys_expectKeyword .forWord).bind_moved fun _ t₁ h₁ => ?_
  refine (obeys_expectMark .openParen).bind fun _ t₂ h₂ _ => ?_
  refine obeys_forStart.bind fun first t₃ h₃ _ => ?_
  refine (Obeys.beside _ (obeys_optionalExpression .semicolon)).bind fun test t₄ h₄ _ => ?_
  refine (obeys_expectMark .semicolon).bind fun _ t₅ h₅ _ => ?_
  refine (Obeys.beside _ (obeys_optionalExpression .closeParen)).bind fun next t₆ h₆ _ => ?_
  refine (obeys_expectMark .closeParen).bind fun _ t₇ h₇ _ => ?_
  refine (Obeys.beside _ (hi () t₇ (by omega))).bind fun body t₈ h₈ _ => ?_
  exact obeys_build (Build.grafts_add (.forLoop first test next body) rfl)

/-- A compound statement is a statement. -/
theorem plays_statement {n : Node} (h : n.plays .compound) : n.plays .statement := by
  cases n <;> simp_all [Node.plays, Node.isStatement]

theorem yields_statementRule (hi : ∀ u t, t.left < n → (inner u).Yields .statement t) (u : Unit)
    (hs : s.left ≤ n) : (statementRule inner u).Yields .statement s := by
  refine Obeys.on_kind ?_
  split
  case h_1 => exact (yields_blockRule hi hs).cast fun _ => plays_statement
  case h_2 => exact yields_ifStatement hi hs
  case h_3 => exact yields_whileStatement hi hs
  case h_4 => exact yields_doStatement hi hs
  case h_5 => exact yields_forStatement hi hs
  case h_6 hkind => exact yields_jumpStatement (.inl (hkind ▸ nofun)) .breakLoop
  case h_7 hkind => exact yields_jumpStatement (.inl (hkind ▸ nofun)) .continueLoop
  case h_8 hkind => exact yields_jumpStatement (.inl (hkind ▸ nofun)) .discardFragment
  case h_9 => exact yields_returnStatement s
  case h_10 => exact yields_emptyStatement s
  case h_11 =>
      obtain ⟨isDeclaration, hlook⟩ := declarationAhead_apply s
      refine Obeys.look hlook ?_
      split
      · exact yields_declarationStatement s
      · exact yields_expressionStatement s

/-- **A statement reads something and leaves one statement.** -/
theorem yields_statement (s : ParseState) : statement.Yields .statement s :=
  Yields.fix (fun _ _ hi u _ ht => yields_statementRule hi u ht) () s

theorem yields_block (s : ParseState) : block.Yields .compound s :=
  yields_blockRule (n := s.left) (fun _ t _ => yields_statement t) (Nat.le_refl _)

end ShaderLang.Grammar
