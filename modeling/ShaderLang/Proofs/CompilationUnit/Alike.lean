/-
**Positions and options never influence a program.**

The words of a program, its tokens without their positions, determine all that is built: the nodes,
the texts and names, the structs, the calls and the root.  They also determine what is reported, but
for one thing: the report of a token that is not allowed lists no more alternatives than the options
allow.  So there is one list of full reports that belongs to the words, and every reading shows it with
the lists of alternatives cut to its own limit.

Main definitions:

* `ShaderLang.CompilationUnit.SameProgram` — two compilation units that differ in positions and reports
  only;
* `ShaderLang.Problem.Shortens` — a report with some of the alternatives of another.

Main results:

* `ShaderLang.CompilationUnit.exists_full` — the words determine what is built and the full reports;
* `ShaderLang.CompilationUnit.ofTokens_alike` — **two readings of the same words build the same and
  report the same, each up to its own limit**.
-/

import ShaderLang.Compile
import ShaderLang.Proofs.Grammar.Candid

set_option relaxedAutoImplicit false
set_option autoImplicit false

namespace ShaderLang

/-! ### Reports of different lengths -/

namespace Problem

/-- The first problem is the second one, or lists only the first of its alternatives. -/
inductive Shortens : Problem → Problem → Prop where
  | same (p : Problem) : Shortens p p
  | listed (token : String) {expected expected' : List String} (front : expected <+: expected') :
      Shortens (.unexpectedToken token expected) (.unexpectedToken token expected')

/-- The smaller of two limits leaves the first of the alternatives that the greater one leaves. -/
theorem shortens_cut (p : Problem) {limit limit' : Nat} (h : limit ≤ limit') :
    Shortens (p.cut limit) (p.cut limit') := by
  cases p with
  | unexpectedToken token expected => exact .listed token (List.take_prefix_take_left h)
  | _ => exact .same _

end Problem

namespace CompilationUnit

/-- The problems reported, in the order of their reports. -/
def problems (u : CompilationUnit) : List Problem :=
  u.diagnostics.reports.toList.map Diagnostic.problem

/-- The compilation units hold the same nodes under the same numbers, the same texts and names, the
same structs and calls, and have the same root. -/
structure SameProgram (u u' : CompilationUnit) : Prop where
  arena : u.arena.Alike u'.arena
  names : u.names = u'.names
  structs : u.structs = u'.structs
  calls : u.calls = u'.calls
  root : u.root = u'.root

namespace SameProgram

variable {u u' u'' : CompilationUnit}

theorem symm (h : u.SameProgram u') : u'.SameProgram u :=
  ⟨Eq.symm h.arena, h.names.symm, h.structs.symm, h.calls.symm, h.root.symm⟩

theorem trans (h : u.SameProgram u') (h' : u'.SameProgram u'') : u.SameProgram u'' :=
  ⟨Eq.trans h.arena h'.arena, h.names.trans h'.names, h.structs.trans h'.structs,
    h.calls.trans h'.calls, h.root.trans h'.root⟩

end SameProgram

/-- Readings of the same words begin in states that are alike. -/
theorem alike_start {tokens tokens' : TokenStream} (h : tokens.words = tokens'.words)
    (o o' : Options) : (ParseState.start tokens o).Alike (.start tokens' o') where
  words := h
  builder := ⟨.refl _, rfl, rfl, rfl, rfl, rfl⟩

/-- **The words determine what is built and the full reports.**  Every reading of them builds the same,
and reports each problem with as many alternatives as its options allow. -/
theorem exists_full (tokens : TokenStream) :
    ∃ (u : CompilationUnit) (full : List Problem), ∀ tokens' o', tokens'.words = tokens.words →
      ∃ u', ofTokens tokens' o' = .ok u' ∧ u'.SameProgram u ∧
        u'.problems = full.map (Problem.cut o'.limit) := by
  -- the options of the first reading do not matter
  obtain ⟨root, t, hp, -⟩ := Grammar.program_ends (s := .start tokens .standard) rfl
  obtain ⟨full, -, hruns⟩ := Grammar.candid_program.exists_of_ok hp nofun
  refine ⟨t.builder.finish root, full, fun tokens' o' hwords => ?_⟩
  obtain ⟨t', halike, htells, hp'⟩ := hruns (.start tokens' o') (alike_start hwords.symm _ _)
  refine ⟨t'.builder.finish root, ?_, ?_, ?_⟩
  · unfold ofTokens
    rw [hp']
  · have hbuilder := halike.builder
    exact ⟨Eq.symm hbuilder.arena, hbuilder.names.symm, hbuilder.structs.symm,
      hbuilder.calls.symm, rfl⟩
  · exact htells.problems

/-- **Positions and options never influence a program.**  Two readings of the same words end with
compilation units that hold the same program.  They report the same problems in the same order: there
is one list of full reports that every reading of the words shows, each list of alternatives cut to the
limit of the reading, so the reading with the smaller limit shows the fronts of what the other shows. -/
theorem ofTokens_alike {tokens tokens' : TokenStream} (h : tokens.words = tokens'.words)
    {o o' : Options} (hlimit : o.limit ≤ o'.limit) :
    ∃ (u u' : CompilationUnit) (full : List Problem),
      ofTokens tokens o = .ok u ∧ ofTokens tokens' o' = .ok u' ∧ u.SameProgram u' ∧
      u.problems = full.map (Problem.cut o.limit) ∧
      u'.problems = full.map (Problem.cut o'.limit) ∧
      List.Forall₂ Problem.Shortens u.problems u'.problems ∧
      ∀ tokens'' o'' u'', tokens''.words = tokens.words → ofTokens tokens'' o'' = .ok u'' →
        u''.problems = full.map (Problem.cut o''.limit) := by
  obtain ⟨v, full, hall⟩ := exists_full tokens
  obtain ⟨u, hu, hsame, hproblems⟩ := hall tokens o rfl
  obtain ⟨u', hu', hsame', hproblems'⟩ := hall tokens' o' h.symm
  refine ⟨u, u', full, hu, hu', hsame.trans hsame'.symm, hproblems, hproblems', ?_, ?_⟩
  · rw [hproblems, hproblems', List.forall₂_map_left_iff, List.forall₂_map_right_iff]
    exact List.forall₂_same.2 fun p _ => p.shortens_cut hlimit
  · intro tokens'' o'' u'' hwords hu''
    obtain ⟨w, hw, -, hproblems''⟩ := hall tokens'' o'' hwords
    obtain rfl := Except.ok.inj (hu''.symm.trans hw)
    exact hproblems''

/-- A declaration whose initial value is missing, and one that is spread over several lines. -/
def unfinished (line : Nat) : TokenStream where
  tokens :=
    [⟨.typeName, "int", ⟨1, 0⟩⟩, ⟨.name, "a", ⟨line, 0⟩⟩, ⟨.mark .assignment, "=", ⟨line, 0⟩⟩,
      ⟨.mark .semicolon, ";", ⟨line + line, 0⟩⟩, ⟨.typeName, "int", ⟨line + line, 0⟩⟩,
      ⟨.name, "b", ⟨line + line, 0⟩⟩, ⟨.mark .semicolon, ";", ⟨line + line, 0⟩⟩]
  stop := ⟨line + line + 1, 0⟩

/-- Its two readings differ in their lines and in how many alternatives they list: the first two of
fifteen, and all. -/
theorem ofTokens_alike_unfinished :
    (unfinished 1).words = (unfinished 7).words ∧
    ∃ (u u' : CompilationUnit) (full : List Problem),
      ofTokens (unfinished 1) ⟨"first", 2⟩ = .ok u ∧
      ofTokens (unfinished 7) ⟨"second", 20⟩ = .ok u' ∧ u.SameProgram u' ∧
      u.problems = full.map (Problem.cut 2) ∧ u'.problems = full.map (Problem.cut 20) ∧
      List.Forall₂ Problem.Shortens u.problems u'.problems ∧
      (∀ tokens'' o'' u'', tokens''.words = (unfinished 1).words →
        ofTokens tokens'' o'' = .ok u'' → u''.problems = full.map (Problem.cut o''.limit)) ∧
      u.problems = [.unexpectedToken ";" ["identifier", "integer literal"]] ∧
      u'.problems = [.unexpectedToken ";" ["identifier", "integer literal", "float literal", "`(`",
        "type name", "intrinsic", "string literal", "`true`", "`false`", "`-`", "`+`", "`!`", "`~`",
        "`++`", "`--`"]] := by
  have hwords : (unfinished 1).words = (unfinished 7).words := rfl
  obtain ⟨u, u', full, hu, hu', hsame, hproblems, hproblems', hshorter, hall⟩ :=
    @ofTokens_alike (unfinished 1) (unfinished 7) hwords ⟨"first", 2⟩ ⟨"second", 20⟩ (by decide)
  have hfew : (ofTokens (unfinished 1) ⟨"first", 2⟩).toOption.map problems =
      some [.unexpectedToken ";" ["identifier", "integer literal"]] := by
    decide +kernel
  have hmany : (ofTokens (unfinished 7) ⟨"second", 20⟩).toOption.map problems =
      some [.unexpectedToken ";" ["identifier", "integer literal", "float literal", "`(`",
        "type name", "intrinsic", "string literal", "`true`", "`false`", "`-`", "`+`", "`!`", "`~`",
        "`++`", "`--`"]] := by
    decide +kernel
  rw [hu] at hfew
  rw [hu'] at hmany
  exact ⟨hwords, u, u', full, hu, hu', hsame, hproblems, hproblems', hshorter, hall,
    Option.some.inj hfew, Option.some.inj hmany⟩

end CompilationUnit

end ShaderLang
