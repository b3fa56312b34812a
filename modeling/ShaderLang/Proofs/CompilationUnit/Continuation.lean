/-
**What comes later does not change what was read.**

Where no token of a program was reported, each of its parts ends with a semicolon or a brace, and none
of the looks ahead goes beyond that.  So with more tokens behind, the program is read up to its end as
if they were not there, and then reading goes on from the state that was reached.  From there on only
additions are made.

Main definitions:

* `ShaderLang.TokenStream.append` — the tokens of two streams;
* `ShaderLang.CompilationUnit.Continues` — what the first unit holds comes first in the second one.

Main results:

* `ShaderLang.Grammar.parts_followed` — **reading goes on where the first program ended**;
* `ShaderLang.CompilationUnit.ofTokens_append` — **what comes later never changes how earlier
  declarations were read**.
-/

import ShaderLang.Proofs.Builder.Continuation
import ShaderLang.Proofs.Builder.Sequences
import ShaderLang.Proofs.CompilationUnit.Calls
import ShaderLang.Proofs.CompilationUnit.WellFormed
import ShaderLang.Proofs.Grammar.Locality

set_option relaxedAutoImplicit false
set_option autoImplicit false

namespace ShaderLang

/-! ### Reading on -/

namespace Grammar

open ShaderLang.Parser ShaderLang.Builder

variable {m : TokenStream} {list root : Option NodeId} {s t : ParseState}

/-- One more part of a program, if it breaks no rule. -/
theorem programTurn_of_external (hmore : s.cursor.current.kind ≠ .endOfFile) {item : Option NodeId}
    (hp : external s = .ok item t) :
    programTurn list s =
      match item with
      | some item => .ok (.again (some t.builder.arena.nextId))
          { t with builder := t.builder.push (.link .externals list item) }
      | none => .ok (.again list) t := by
  have hattempt : attempt external s = .ok (.ok item) t := by
    unfold attempt
    rw [hp]
  unfold programTurn
  rw [bind_apply, hasTokens_apply]
  dsimp only
  rw [if_pos (bne_iff_ne.2 hmore), bind_apply, hattempt]
  cases item <;> rfl

/-- A part that goes on without a report is read as it is whatever comes behind. -/
theorem programTurn_followed {list' : Option NodeId}
    (hturn : programTurn list s = .ok (.again list') t) (hnone : t.errors = 0) :
    programTurn list (s.followed m) = .ok (.again list') (t.followed m) := by
  have hmore : s.cursor.current.kind ≠ .endOfFile := by
    intro hend
    unfold programTurn at hturn
    rw [bind_apply, hasTokens_apply] at hturn
    simp [hend] at hturn
  have hmore' : (s.followed m).cursor.current.kind ≠ .endOfFile := by
    rwa [ParseState.current_followed (Cursor.left_pos_of_kind hmore)]
  cases programTurn_of_ok hturn with
  | nothing part =>
      obtain ⟨-, -, hsame⟩ := closed_external (m := m) none t part
      exact programTurn_of_external hmore' (hsame hnone)
  | @linked u item part =>
      obtain ⟨-, -, hsame⟩ := closed_external (m := m) (some item) u part
      exact programTurn_of_external hmore' (hsame hnone)
  | @rejected u _ found allowed p part unexpected inner =>
      -- the report is still there
      have hle := inner.grows.errors
      rw [errors_rejected u.builder unexpected found.position] at hle
      have hnone : t.builder.errors = 0 := hnone
      omega

/-- **Reading goes on where the first program ended.**  The induction is on the tokens left. -/
theorem parts_followed (h : repeated programTurn list s = .ok root t) (hnone : t.errors = 0) :
    repeated programTurn list (s.followed m) = repeated programTurn root (t.followed m) := by
  induction hleft : s.left using Nat.strongRecOn generalizing list s with
  | ind l ih =>
      subst hleft
      have hloop : repeated programTurn list s = _ := loop_eq programTurn list s
      rw [hloop] at h
      rcases hturn : programTurn list s with ⟨list' | root', u⟩ | ⟨e, u⟩
      · rw [hturn] at h
        dsimp only at h
        by_cases hlt : u.cursor.left < s.cursor.left
        · rw [if_pos hlt] at h
          have hle : u.errors ≤ t.errors := (turns_parts h).grows.errors
          have hturn' := programTurn_followed (m := m) hturn (by omega)
          have hloop' : repeated programTurn list (s.followed m) = _ := loop_eq programTurn list _
          rw [hloop', hturn']
          dsimp only
          rw [if_pos (show (u.followed m).left < (s.followed m).left from Nat.add_lt_add_right hlt _)]
          exact ih u.left hlt h rfl
        · rw [if_neg hlt] at h
          contradiction
      · rw [hturn] at h
        obtain ⟨rfl, rfl⟩ := EStateM.Result.ok.inj h
        cases programTurn_of_ok hturn with
        | last => rfl
      · rw [hturn] at h
        contradiction

/-! ### The chain of the parts -/

/-- The parts that are read are put behind those from before. -/
theorem sequenceItems_parts (h : repeated programTurn list s = .ok root t) {items : List NodeId}
    (hitems : s.builder.arena.sequenceItems list = .ok items) :
    ∃ more, t.builder.arena.sequenceItems root = .ok (items ++ more) := by
  refine repeated_induction
    (P := fun l u => ∃ more, u.builder.arena.sequenceItems l = .ok (items ++ more))
    (Q := fun r u => ∃ more, u.builder.arena.sequenceItems r = .ok (items ++ more)) ?_ ?_
    ⟨[], by rwa [List.append_nil]⟩ h
  · rintro list u list' v ⟨more, hmore⟩ hturn -
    have hturn := programTurn_of_ok hturn
    have hgrows := hturn.turns.grows
    cases hturn with
    | nothing | rejected => exact ⟨more, hgrows.nodes.sequenceItems hmore⟩
    | @linked v item part =>
        have hpart := (closes_external.of_ok (.refl _) part).turns.grows
        have hpush := sequenceItems_push .externals item
          (hpart.nodes.sequenceItems hmore)
        exact ⟨more ++ [item], by rw [← List.append_assoc]; exact hpush⟩
  · rintro list u root v ⟨more, hmore⟩ hturn
    cases programTurn_of_ok hturn with
    | last => exact ⟨more, hmore⟩

end Grammar

/-- The tokens of the first stream and then those of the second one, with the end of the second. -/
def TokenStream.append (a b : TokenStream) : TokenStream := ⟨a.tokens ++ b.tokens, b.stop⟩

namespace CompilationUnit

open Grammar

/-! ### Reading a program -/

/-- What the first unit holds comes first in the second one. -/
structure Continues (u v : CompilationUnit) : Prop where
  /-- The nodes with their positions. -/
  cells : u.arena.cells.toList <+: v.arena.cells.toList
  texts : u.names.pool.texts.toList <+: v.names.pool.texts.toList
  occurrences : u.names.table.occurrences.toList <+: v.names.table.occurrences.toList
  reports : u.diagnostics.reports.toList <+: v.diagnostics.reports.toList
  files : v.diagnostics.files = u.diagnostics.files
  /-- The structs are the same, as long as there is a number for every one of the second unit. -/
  structs : v.structs.size ≤ Structs.capacity →
    u.structs.entries.toList <+: v.structs.entries.toList
  callees : ∀ f, u.calls.callees f <+: v.calls.callees f
  declarations : ∃ items more, u.declarations = .ok items ∧ v.declarations = .ok (items ++ more)

/-- More tokens behind the first ones. -/
theorem followed_start (a b : TokenStream) (o : Options) :
    (ParseState.start a o).followed b = .start (a.append b) o := by
  have hcursor : (Cursor.ofStream a).followed b = .ofStream (a.append b) :=
    Cursor.eq_of_rest rfl rfl
  unfold ParseState.followed ParseState.start
  rw [hcursor]

theorem declarations_finish (b : Builder) (root : Option NodeId) :
    (b.finish root).declarations = b.arena.sequenceItems root := by
  cases root <;> rfl

/-- **What comes later never changes how earlier declarations were read**: whatever tokens follow a
program none of whose tokens was reported, all that was read from it comes first in what is read from
both. -/
theorem ofTokens_append (a b : TokenStream) (o : Options) :
    ∃ u v, ofTokens a o = .ok u ∧ ofTokens (a.append b) o = .ok v ∧ (u.Clean → u.Continues v) := by
  obtain ⟨root, t, hp, -, -, hholds⟩ := program_ends (s := .start a o) rfl
  obtain ⟨root', t', hp', -, -, -⟩ := program_ends (s := .start (a.append b) o) rfl
  refine ⟨t.builder.finish root, t'.builder.finish root', by unfold ofTokens; rw [hp],
    by unfold ofTokens; rw [hp'], fun hclean => ?_⟩
  have hnone : t.errors = 0 := by
    refine Array.countP_eq_zero.2 fun d hd => ?_
    rw [hclean d hd]
    exact Bool.false_ne_true
  have hrest : Parser.repeated programTurn root (t.followed b) = .ok root' t' := by
    rw [← parts_followed hp hnone, followed_start]
    exact hp'
  have hturns : t.builder.Turns t'.builder := turns_parts (s := t.followed b) hrest
  have hcontinues := hturns.continues
  obtain ⟨items, hitems, -⟩ := (wellFormed_finish hholds).declarations_ends
  rw [declarations_finish] at hitems
  obtain ⟨more, hmore⟩ := sequenceItems_parts hrest hitems
  exact
    { cells := hcontinues.cells
      texts := hcontinues.texts
      occurrences := hcontinues.occurrences
      reports := hcontinues.reports
      files := hcontinues.files
      structs := hturns.entries_prefix
      callees := hcontinues.callees
      declarations := ⟨items, more, by rw [declarations_finish, hitems],
        by rw [declarations_finish, hmore]⟩ }

/-- A struct, and a function that calls another one. -/
def opening : TokenStream where
  tokens :=
    [⟨.keyword .structWord, "struct", ⟨1, 0⟩⟩, ⟨.name, "A", ⟨1, 0⟩⟩,
      ⟨.mark .openCurly, "\x7b", ⟨1, 0⟩⟩, ⟨.typeName, "int", ⟨1, 0⟩⟩, ⟨.name, "x", ⟨1, 0⟩⟩,
      ⟨.mark .semicolon, ";", ⟨1, 0⟩⟩, ⟨.mark .closeCurly, "\x7d", ⟨1, 0⟩⟩,
      ⟨.mark .semicolon, ";", ⟨1, 0⟩⟩, ⟨.typeName, "int", ⟨1, 0⟩⟩, ⟨.name, "f", ⟨1, 0⟩⟩,
      ⟨.mark .openParen, "(", ⟨1, 0⟩⟩, ⟨.mark .closeParen, ")", ⟨1, 0⟩⟩,
      ⟨.mark .openCurly, "\x7b", ⟨1, 0⟩⟩, ⟨.name, "g", ⟨1, 0⟩⟩, ⟨.mark .openParen, "(", ⟨1, 0⟩⟩,
      ⟨.mark .closeParen, ")", ⟨1, 0⟩⟩, ⟨.mark .semicolon, ";", ⟨1, 0⟩⟩,
      ⟨.mark .closeCurly, "\x7d", ⟨1, 0⟩⟩]
  stop := ⟨1, 0⟩

/-- A struct of the same name, and a function whose only statement breaks a rule. -/
def sequel : TokenStream where
  tokens :=
    [⟨.keyword .structWord, "struct", ⟨1, 0⟩⟩, ⟨.name, "A", ⟨1, 0⟩⟩,
      ⟨.mark .openCurly, "\x7b", ⟨1, 0⟩⟩, ⟨.typeName, "float", ⟨1, 0⟩⟩, ⟨.name, "y", ⟨1, 0⟩⟩,
      ⟨.mark .semicolon, ";", ⟨1, 0⟩⟩, ⟨.mark .closeCurly, "\x7d", ⟨1, 0⟩⟩,
      ⟨.mark .semicolon, ";", ⟨1, 0⟩⟩, ⟨.typeName, "int", ⟨1, 0⟩⟩, ⟨.name, "f", ⟨1, 0⟩⟩,
      ⟨.mark .openParen, "(", ⟨1, 0⟩⟩, ⟨.mark .closeParen, ")", ⟨1, 0⟩⟩,
      ⟨.mark .openCurly, "\x7b", ⟨1, 0⟩⟩, ⟨.name, "g", ⟨1, 0⟩⟩, ⟨.mark .openParen, "(", ⟨1, 0⟩⟩,
      ⟨.mark .semicolon, ";", ⟨1, 0⟩⟩, ⟨.mark .closeCurly, "\x7d", ⟨1, 0⟩⟩]
  stop := ⟨1, 0⟩

/-- The second struct has a place of its own, and the first one keeps its members. -/
theorem ofTokens_append_sequel :
    ∃ u v, ofTokens opening .standard = .ok u ∧ ofTokens (opening.append sequel) .standard = .ok v ∧
      u.Clean ∧ ¬ v.Clean ∧ u.Continues v ∧ v.structs.size ≤ Structs.capacity ∧
      v.structs.entries =
        #[⟨"A", [⟨"x", .scalar .int, none⟩]⟩, ⟨"A", [⟨"y", .scalar .float, none⟩]⟩] := by
  obtain ⟨u, v, hu, hv, hcontinues⟩ := ofTokens_append opening sequel .standard
  have hfirst : (match ofTokens opening .standard with
      | .ok u => u.diagnostics.reports.size
      | .error _ => 1) = 0 := by
    decide +kernel
  have hboth : (match ofTokens (opening.append sequel) .standard with
      | .ok v => (v.diagnostics.reports.any fun d => d.problem.isUnexpected, v.structs.entries)
      | .error _ => (false, #[])) =
        (true, #[⟨"A", [⟨"x", .scalar .int, none⟩]⟩, ⟨"A", [⟨"y", .scalar .float, none⟩]⟩]) := by
    decide +kernel
  rw [hu] at hfirst
  rw [hv] at hboth
  obtain ⟨hreported, hentries⟩ := Prod.mk.inj hboth
  have hclean : u.Clean := clean_of_size hfirst
  have hspoiled : ¬ v.Clean := by
    intro h
    obtain ⟨i, hi, hd⟩ := Array.any_eq_true.1 hreported
    rw [h _ (Array.getElem_mem hi)] at hd
    contradiction
  have hfits : v.structs.size ≤ Structs.capacity := by
    rw [Structs.size, hentries]
    decide
  exact ⟨u, v, hu, hv, hclean, hspoiled, hcontinues hclean, hfits, hentries⟩

end CompilationUnit

end ShaderLang
