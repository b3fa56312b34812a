/-
**Braces and broken rules in a whole program.**

A program none of whose tokens is reported has matching braces.  And a rule that is broken in the body
of a function stays inside of it, if there are no braces inside of the body: the function is defined,
and what stands behind its closing brace is read as if nothing had happened.

Main definitions:

* `ShaderLang.CompilationUnit.functionWith` — a function with a given body, and a variable behind it.

Main results:

* `ShaderLang.CompilationUnit.ofTokens_balanced` — **braces that do not match are reported**;
* `ShaderLang.CompilationUnit.ofTokens_confined` — **a broken rule in a body without braces inside
  stays inside the body**.
-/

import ShaderLang.Proofs.CompilationUnit.Continuation
import ShaderLang.Proofs.Grammar.Confinement

set_option relaxedAutoImplicit false
set_option autoImplicit false

namespace ShaderLang.CompilationUnit

open Grammar ShaderLang.Parser

/-! ### Functions with a given body -/

/-- A variable that is declared behind the body. -/
def variableBehind : List Token :=
  [⟨.typeName, "int", ⟨1, 0⟩⟩, ⟨.name, "y", ⟨1, 0⟩⟩, ⟨.mark .semicolon, ";", ⟨1, 0⟩⟩]

/-- A function with a body, and a variable behind it. -/
def functionWith (body : List Token) : TokenStream where
  tokens :=
    [⟨.typeName, "void", ⟨1, 0⟩⟩, ⟨.name, "f", ⟨1, 0⟩⟩, ⟨.mark .openParen, "(", ⟨1, 0⟩⟩,
      ⟨.mark .closeParen, ")", ⟨1, 0⟩⟩] ++ openingBrace :: (body ++ closingBrace :: variableBehind)
  stop := ⟨1, 0⟩

/-- How many declarations there are, and how many reports. -/
def outcome (tokens : TokenStream) : Option (Option Nat × Nat) :=
  (ofTokens tokens .standard).toOption.map fun u =>
    (u.declarations.toOption.map List.length, u.diagnostics.reports.size)

/-! ### Matching braces -/

/-- **Braces that do not match are reported**: where no token is, every brace that opens is closed, and
none closes that was not opened. -/
theorem ofTokens_balanced (tokens : TokenStream) (o : Options)
    (hinside : ∀ x ∈ tokens.tokens, x.kind ≠ .endOfFile) (hvoid : NoVoidBrace tokens.tokens) :
    ∃ u, ofTokens tokens o = .ok u ∧ (u.Clean → depthBehind 0 tokens.tokens = some 0) := by
  obtain ⟨root, t, hp, hend, -, -⟩ := program_ends (s := .start tokens o) rfl
  refine ⟨t.builder.finish root, by unfold ofTokens; rw [hp], fun hclean => ?_⟩
  have hnone : t.errors = 0 := by
    refine Array.countP_eq_zero.2 fun d hd => ?_
    rw [hclean d hd]
    exact Bool.false_ne_true
  have hnests : program.Nests False 0 0 (.start tokens o) := nests_program hvoid
  obtain ⟨read, hread, hdepth⟩ := hnests.of_ok hp
  have hrest : tokens.tokens = read ++ t.cursor.rest := hread.rest_eq
  -- no token of the end's kind is left, so nothing is
  have hleft : t.cursor.rest = [] := by
    cases ht : t.cursor.rest with
    | nil => rfl
    | cons x ts =>
        rw [Cursor.current, ht] at hend
        rw [ht] at hrest
        exact absurd hend (hinside x (hrest ▸ by simp))
  rw [hrest, hleft, List.append_nil]
  exact hdepth hnone

/-- A block in the body of the function: no token is reported, and its braces match. -/
theorem ofTokens_balanced_block :
    let tokens := functionWith [openingBrace, closingBrace]
    (∀ x ∈ tokens.tokens, x.kind ≠ .endOfFile) ∧ NoVoidBrace tokens.tokens ∧
      ∃ u, ofTokens tokens .standard = .ok u ∧ u.Clean ∧ depthBehind 0 tokens.tokens = some 0 := by
  have hinside : ∀ x ∈ (functionWith [openingBrace, closingBrace]).tokens, x.kind ≠ .endOfFile := by
    decide
  have hvoid : NoVoidBrace (functionWith [openingBrace, closingBrace]).tokens := by decide
  have hrun : outcome (functionWith [openingBrace, closingBrace]) = some (some 2, 0) := by
    decide +kernel
  obtain ⟨u, hu, hbalanced⟩ := ofTokens_balanced _ .standard hinside hvoid
  rw [outcome, hu] at hrun
  have hclean : u.Clean := clean_of_size (Prod.mk.inj (Option.some.inj hrun)).2
  exact ⟨hinside, hvoid, u, hu, hclean, hbalanced hclean⟩

/-! ### Broken rules -/

/-- Behind a part that is kept reading goes on. -/
theorem parts_of_external {s t : ParseState} {list : Option NodeId} {item : NodeId}
    (h : external s = .ok (some item) t) :
    repeated programTurn list s = repeated programTurn (some t.builder.arena.nextId)
      { t with builder := t.builder.push (.link .externals list item) } := by
  have hlt : t.left < s.left := ((obeys_external s).of_ok h).2.1 trivial
  have hmore : s.cursor.current.kind ≠ .endOfFile := by
    intro hend
    unfold external at h
    rw [bind_apply, currentKind_apply, hend] at h
    obtain ⟨id, h⟩ := map_eq_ok h
    unfold typedExternal at h
    rw [bind_apply, currentKind_apply, hend] at h
    contradiction
  have hloop : repeated programTurn list s = _ := loop_eq programTurn list s
  rw [hloop, programTurn_of_external hmore h]
  exact if_pos hlt

/-- **A broken rule in a body without braces inside stays inside the body.**  The function is the
first declaration, only tokens of its body are reported in it, and from behind its closing brace the
rest is read as the parts behind any other one; if no token is reported there, only those of the body
are at all. -/
theorem ofTokens_confined {tokens : TokenStream} {o : Options} {head : NodeId} {t : ParseState}
    {opening closing : Token} {body tail : List Token}
    (hhead : functionHead (.start tokens o) = .ok head t)
    (hrest : t.cursor.rest = opening :: (body ++ closing :: tail))
    (hopening : opening.kind = .mark .openCurly) (hclosing : closing.kind = .mark .closeCurly)
    (hbody : Flat body) :
    ∃ id block list v root w more, v.cursor.rest = tail ∧
      v.builder.arena.node? id = some (.definition head block) ∧ t.Blames (body ++ [closing]) v ∧
      repeated programTurn (some list) v = .ok root w ∧
      ofTokens tokens o = .ok (w.builder.finish root) ∧
      (w.builder.finish root).declarations = .ok (id :: more) ∧
      (w.errors = v.errors → t.Blames (body ++ [closing]) w) := by
  obtain ⟨id, u, block, hpart, htail, hblames, hnode⟩ :=
    external_confined hhead hrest hopening hclosing hbody Arena.holds_empty
  obtain ⟨root, w, hp, -, -, -⟩ := program_ends (s := .start tokens o) rfl
  -- the function is linked as the first part, and the rest is read behind it
  let v : ParseState := { u with builder := u.builder.push (.link .externals none id) }
  have hparts : repeated programTurn (some u.builder.arena.nextId) v = .ok root w := by
    have hfirst : program (.start tokens o) = _ := parts_of_external hpart
    exact hfirst.symm.trans hp
  have hlinked : v.builder.arena.sequenceItems (some u.builder.arena.nextId) = .ok [id] :=
    Builder.sequenceItems_push .externals id (show u.builder.arena.sequenceItems none = .ok [] from rfl)
  obtain ⟨more, hmore⟩ := sequenceItems_parts hparts hlinked
  have hblames : t.Blames (body ++ [closing]) v := hblames.trans (.of_same rfl)
  refine ⟨id, block, u.builder.arena.nextId, v, root, w, more, htail, ?_, hblames, hparts, ?_, ?_,
    fun herrors => hblames.trans (.of_longer (turns_parts hparts).continues.reports herrors)⟩
  · exact (Builder.grows_push u.builder _).nodes id _ hnode
  · unfold ofTokens
    rw [hp]
  · rw [declarations_finish, hmore]
    rfl

/-- A body in which a rule is broken: an operator is missing in `1 2;`. -/
def brokenBody : List Token :=
  [⟨.int, "1", ⟨1, 0⟩⟩, ⟨.int, "2", ⟨1, 0⟩⟩, ⟨.mark .semicolon, ";", ⟨1, 0⟩⟩]

/-- The function and the variable behind it are declared, and one token of the body is reported. -/
theorem ofTokens_confined_broken :
    Flat brokenBody ∧ ∃ head t,
      functionHead (.start (functionWith brokenBody) .standard) = .ok head t ∧
      t.cursor.rest = openingBrace :: (brokenBody ++ closingBrace :: variableBehind) ∧
      ∃ id block list v root w more, v.cursor.rest = variableBehind ∧
        v.builder.arena.node? id = some (.definition head block) ∧
        t.Blames (brokenBody ++ [closingBrace]) v ∧
        repeated programTurn (some list) v = .ok root w ∧
        ofTokens (functionWith brokenBody) .standard = .ok (w.builder.finish root) ∧
        (w.builder.finish root).declarations = .ok (id :: more) ∧
        (w.errors = v.errors → t.Blames (brokenBody ++ [closingBrace]) w) ∧
        outcome (functionWith brokenBody) = some (some 2, 1) := by
  have hbody : Flat brokenBody := by decide
  have hrun : (match functionHead (.start (functionWith brokenBody) .standard) with
      | .ok _ t => t.cursor.rest
      | .error .. => []) = openingBrace :: (brokenBody ++ closingBrace :: variableBehind) := by
    decide +kernel
  split at hrun
  · next head t hhead =>
      obtain ⟨id, block, list, v, root, w, more, htail, hnode, hblames, hparts, hu, hmore, hall⟩ :=
        ofTokens_confined hhead hrun rfl rfl hbody
      exact ⟨hbody, head, t, hhead, hrun, id, block, list, v, root, w, more, htail, hnode, hblames,
        hparts, hu, hmore, hall, by decide +kernel⟩
  · contradiction

-- With braces inside, the inner one ends the body: the outer one is reported as well, and what stands
-- between them is a declaration of its own.
example : outcome (functionWith
    [⟨.typeName, "int", ⟨1, 0⟩⟩, ⟨.name, "a", ⟨1, 0⟩⟩, ⟨.mark .assignment, "=", ⟨1, 0⟩⟩,
      ⟨.mark .openCurly, "\x7b", ⟨1, 0⟩⟩, ⟨.int, "1", ⟨1, 0⟩⟩, ⟨.int, "2", ⟨1, 0⟩⟩,
      ⟨.mark .closeCurly, "\x7d", ⟨1, 0⟩⟩, ⟨.mark .semicolon, ";", ⟨1, 0⟩⟩,
      ⟨.typeName, "int", ⟨1, 0⟩⟩, ⟨.name, "x", ⟨1, 0⟩⟩, ⟨.mark .semicolon, ";", ⟨1, 0⟩⟩]) =
      some (some 3, 2) := by
  decide +kernel

end ShaderLang.CompilationUnit
