/-
**Reading a program comes to an end.**

A repetition whose turn goes on without reading a token, and a rule that refers to itself without
reading one, would end with a fault.  Reading a program never does, so every such repetition makes
progress and the reading terminates by its own measure, the tokens left.  It ends in front of an end
of the tokens.  That is the first one, unless a token of the end's kind stands in a parameter list
and is spelled as the word `void`: the list `(void)` is told by its text.

Main definitions:

* `ShaderLang.Grammar.Advances`, `ShaderLang.Grammar.RepetitionsAdvance` — a further turn reads a
  token first.

Main results:

* `ShaderLang.Grammar.repetitionsAdvance` — every repetition of the grammar advances;
* `ShaderLang.CompilationUnit.ofTokens_progress` — **reading any tokens ends at an end of them, and
  reports no more tokens than were read**;
* `ShaderLang.CompilationUnit.not_ends_at_first_end` — the end where it stops need not be the first.
-/

import ShaderLang.Proofs.CompilationUnit.WellFormed

set_option relaxedAutoImplicit false
set_option autoImplicit false

namespace ShaderLang

namespace Grammar

open ShaderLang.Parser

variable {α β : Type}

/-! ### Repetitions advance -/

/-- With fewer than `n` tokens left, a turn that goes on has read a token. -/
def Advances (n : Nat) (turn : β → Parser (Turn β α)) : Prop :=
  ∀ b b' s t, s.left < n → turn b s = .ok (.again b') t → t.left < s.left

theorem Advances.of_obeys {n : Nat} {k : Balance} {turn : β → Parser (Turn β α)}
    {parts : β → List Part} {moves : ParseState → α → Prop} {post : Turn β α → List Part}
    (h : ∀ b s, s.left < n → (turn b).Obeys k (parts b) (Turn.Moves (moves s)) post s) :
    Advances n turn :=
  fun b _ s _ hs ht => ((h b s hs).of_ok ht).2.1 trivial

/-- Every repetition of the grammar advances where fewer than `n` tokens are left.  A rule inside a
rule that refers to itself stands behind where that began. -/
structure RepetitionsAdvance (n : Nat) : Prop where
  program : Advances n programTurn
  block : Advances n (blockTurn fun _ => statement)
  innerBlock : Advances n (blockTurn (below n fun _ => statement))
  structMembers : Advances n structMemberTurn
  structDeclarators : Advances n structDeclarator
  declarators : ∀ q type, Advances n (declaratorTurn q type)
  parameters : Advances n parameterTurn
  arguments : Advances n (argumentTurn (below n expression))
  initializers : Advances n (initializerTurn (below n fun _ => initializer))
  extensions : ∀ level, Advances n (extension (below n expression) level)
  qualifiers : Advances n qualifierTurn
  recovery : Advances n recoverTurn
  statementRecovery : Advances n recoverStatementTurn

/-- **Every repetition of the grammar reads a token before it goes on.** -/
theorem repetitionsAdvance (n : Nat) : RepetitionsAdvance n where
  program := .of_obeys fun list _ _ => obeys_programTurn list
  block := .of_obeys fun list s _ => obeys_blockTurn (yields_statement s) list
  innerBlock := .of_obeys fun list s hs =>
    obeys_blockTurn (Yields.below (fun _ t _ => yields_statement t) () s hs) list
  structMembers := .of_obeys fun list _ _ => obeys_structMemberTurn list
  structDeclarators := .of_obeys fun list _ _ => obeys_structDeclarator list
  declarators := fun q type => .of_obeys fun list _ _ => obeys_declaratorTurn q type list
  parameters := .of_obeys fun list _ _ => obeys_parameterTurn list
  arguments := .of_obeys fun list _ hs =>
    obeys_argumentTurn (Yields.below yieldsBelow_expression) list hs
  initializers := .of_obeys fun list s hs =>
    obeys_initializerTurn (Yields.below (fun _ t _ => yields_initializer t) () s hs) list
  extensions := fun level => .of_obeys fun left _ hs =>
    obeys_extension (Yields.below yieldsBelow_expression) (Nat.le_of_lt hs) level left
  qualifiers := .of_obeys fun q s _ => @obeys_qualifierTurn s .credit [] q
  recovery := .of_obeys fun u s _ => @obeys_recoverTurn s .credit [] u
  statementRecovery := .of_obeys fun u s _ => @obeys_recoverStatementTurn s .credit [] u

end Grammar

namespace CompilationUnit

open Grammar

/-! ### Reading a program -/

/-- **Reading any tokens ends at an end of them.**  Only tokens that may be read are passed, every
repetition reads a token before it goes on, and no more tokens are reported as not allowed than were
read.  Where no token of the end's kind is taken for the word `void`, the end is the first one. -/
theorem ofTokens_progress (tokens : TokenStream) (o : Options) :
    ∃ root t, program (.start tokens o) = .ok root t ∧
      ofTokens tokens o = .ok (t.builder.finish root) ∧
      t.cursor.current.kind = .endOfFile ∧
      (Cursor.ofStream tokens).Reads t.cursor ∧
      t.errors + t.left ≤ tokens.tokens.length ∧
      (NoVoidEnd tokens.tokens →
        t.cursor.rest = tokens.tokens.dropWhile Token.isInside ∧
          t.errors ≤ (tokens.tokens.takeWhile Token.isInside).length) ∧
      ∀ n, RepetitionsAdvance n := by
  obtain ⟨root, t, hp, hend, ⟨hreads, hpays⟩, -⟩ := program_ends (s := .start tokens o) rfl
  have hunit : ofTokens tokens o = .ok (t.builder.finish root) := by
    unfold ofTokens
    rw [hp]
  have hcount : t.errors + t.left ≤ tokens.tokens.length := by
    have hstart : (ParseState.start tokens o).errors = 0 := rfl
    have hleft : (ParseState.start tokens o).left = tokens.tokens.length := rfl
    simp only [ParseState.Pays, hstart, hleft] at hpays
    omega
  refine ⟨root, t, hp, hunit, hend, hreads, hcount, ?_, repetitionsAdvance⟩
  intro hvoid
  have hrest : t.cursor.rest = tokens.tokens.dropWhile Token.isInside := hreads.rest_eq hvoid hend
  refine ⟨hrest, ?_⟩
  have hlength := congrArg List.length (List.takeWhile_append_dropWhile
    (p := Token.isInside) (l := tokens.tokens))
  have hleft : t.left = (tokens.tokens.dropWhile Token.isInside).length := by
    rw [← hrest]
    exact t.cursor.left_eq
  rw [List.length_append] at hlength
  omega

/-- A head of a function whose list of parameters is a token of the end's kind, spelled `void`. -/
def voidEnd : TokenStream where
  tokens :=
    [⟨.typeName, "int", ⟨1, 0⟩⟩, ⟨.name, "f", ⟨1, 0⟩⟩, ⟨.mark .openParen, "(", ⟨1, 0⟩⟩,
      ⟨.endOfFile, "void", ⟨1, 0⟩⟩, ⟨.mark .closeParen, ")", ⟨1, 0⟩⟩,
      ⟨.mark .semicolon, ";", ⟨1, 0⟩⟩]
  stop := ⟨1, 0⟩

/-- The end where the reading stops need not be the first. -/
theorem not_ends_at_first_end :
    ¬ ∃ root t, program (.start voidEnd .standard) = .ok root t ∧
      t.cursor.rest = voidEnd.tokens.dropWhile Token.isInside := by
  rintro ⟨root, t, hp, hrest⟩
  have hleft : (match program (.start voidEnd .standard) with
      | .ok _ u => u.left
      | .error _ _ => 1) = 0 := by
    decide +kernel
  rw [hp] at hleft
  have hlength := t.cursor.left_eq
  rw [hrest] at hlength
  exact absurd (hlength.symm.trans hleft) (by decide)

end CompilationUnit

end ShaderLang
