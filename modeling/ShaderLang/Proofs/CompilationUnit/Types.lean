/-
**Only well-formed types are ever built.**

Whatever the tokens are, the types that a program leaves in its nodes and in the members of its
structs are built in, with at most two extents from two to four, or they are structs of the catalogue.
So are the types of all expressions, with what the builder knows of names and members and without it.
A type that could not be made out counts as `void`, an extent that could not counts as absent, and
neither leads out of these types.

Main definitions:

* `ShaderLang.Builder.WellTyped` — all types that are kept, and those of all expressions, are
  well-formed.

Main results:

* `ShaderLang.Builder.Typed.wellTyped` — admitted types are well-formed, and so are those of
  expressions;
* `ShaderLang.CompilationUnit.ofTokens_wellTyped` — **reading any tokens leaves well-formed types
  only**.
-/

import ShaderLang.Proofs.CompilationUnit.WellFormed
import ShaderLang.Proofs.Grammar.Orderly

set_option relaxedAutoImplicit false
set_option autoImplicit false

namespace ShaderLang

namespace Builder

/-- The types in nodes and of members are well-formed, and so are the types of expressions, both in
the builder's scope and in the finished arena alone. -/
structure WellTyped (b : Builder) : Prop where
  nodes : ∀ id n, b.arena.node? id = some n → ∀ t ∈ n.types, t.WellFormed b.structs
  members : ∀ e ∈ b.structs.entries, ∀ m ∈ e.members, m.type.WellFormed b.structs
  building : ∀ id t, b.typeOf id = .ok (some t) → t.WellFormed b.structs
  finished : ∀ root id t, (b.finish root).arena.typeOf .empty id = .ok (some t) →
    t.WellFormed (b.finish root).structs

/-- **Where only admitted types are kept, all types are well-formed**, as long as numbers tell structs
apart. -/
theorem Typed.wellTyped {b : Builder} (h : b.Typed) (hfits : b.structs.size ≤ Structs.capacity) :
    b.WellTyped where
  nodes := fun id n hn t ht => (h.nodes id n hn t ht).wellFormed hfits
  members := fun e he m hm => (h.members e he m hm).wellFormed hfits
  building := fun _ _ ht => (Arena.admits_typeOf h.nodes h.scope hfits ht).wellFormed hfits
  finished := fun _ _ _ ht =>
    (Arena.admits_typeOf h.nodes (Scope.typed_empty b.structs) hfits ht).wellFormed hfits

end Builder

namespace CompilationUnit

open Grammar

/-- **Reading any tokens leaves well-formed types only.**  A program declares at most one struct for
each token; the numbers of structs tell them apart as long as there are no more than numbers. -/
theorem ofTokens_wellTyped (tokens : TokenStream) (o : Options) :
    ∃ root t, program (.start tokens o) = .ok root t ∧
      ofTokens tokens o = .ok (t.builder.finish root) ∧
      t.builder.structs.size ≤ tokens.tokens.length ∧
      (t.builder.structs.size ≤ Structs.capacity → t.builder.WellTyped) := by
  obtain ⟨root, t, hp, -⟩ := program_ends (s := .start tokens o) rfl
  obtain ⟨settled, hcourse⟩ := course_program hp
  have htyped : t.builder.Typed := hcourse.typed (.start _)
  have hsize := size_structs_program hp
  rw [show (ParseState.start tokens o).builder.structs.size = 0 from rfl, Nat.zero_add] at hsize
  refine ⟨root, t, hp, ?_, hsize, htyped.wellTyped⟩
  unfold ofTokens
  rw [hp]

/-- A struct with a vector, and a function that selects components of it. -/
def selection : TokenStream where
  tokens :=
    [⟨.keyword .structWord, "struct", ⟨1, 0⟩⟩, ⟨.name, "S", ⟨1, 0⟩⟩,
      ⟨.mark .openCurly, "\x7b", ⟨1, 0⟩⟩, ⟨.typeName, "float3", ⟨1, 0⟩⟩, ⟨.name, "v", ⟨1, 0⟩⟩,
      ⟨.mark .semicolon, ";", ⟨1, 0⟩⟩, ⟨.mark .closeCurly, "\x7d", ⟨1, 0⟩⟩,
      ⟨.mark .semicolon, ";", ⟨1, 0⟩⟩,
      ⟨.name, "S", ⟨1, 0⟩⟩, ⟨.name, "s", ⟨1, 0⟩⟩, ⟨.mark .semicolon, ";", ⟨1, 0⟩⟩,
      ⟨.typeName, "void", ⟨1, 0⟩⟩, ⟨.name, "f", ⟨1, 0⟩⟩, ⟨.mark .openParen, "(", ⟨1, 0⟩⟩,
      ⟨.mark .closeParen, ")", ⟨1, 0⟩⟩, ⟨.mark .openCurly, "\x7b", ⟨1, 0⟩⟩,
      ⟨.name, "s", ⟨1, 0⟩⟩, ⟨.mark .dot, ".", ⟨1, 0⟩⟩, ⟨.name, "v", ⟨1, 0⟩⟩,
      ⟨.mark .dot, ".", ⟨1, 0⟩⟩, ⟨.name, "zx", ⟨1, 0⟩⟩, ⟨.mark .semicolon, ";", ⟨1, 0⟩⟩,
      ⟨.mark .closeCurly, "\x7d", ⟨1, 0⟩⟩]
  stop := ⟨1, 0⟩

/-- The selected components make up a vector; the struct and its member are there as well. -/
theorem ofTokens_wellTyped_selection :
    ∃ root t, program (.start selection .standard) = .ok root t ∧
      t.builder.structs.size ≤ Structs.capacity ∧ t.builder.WellTyped ∧
      t.builder.typeOf ⟨13⟩ = .ok (some ⟨BaseType.float.id, some 2, none⟩) := by
  obtain ⟨root, t, hp, -, -, htyped⟩ := ofTokens_wellTyped selection .standard
  have hanswers : (match program (.start selection .standard) with
      | .ok _ u => (u.builder.structs.size, (u.builder.typeOf ⟨13⟩).toOption)
      | .error _ _ => (0, none)) = (1, some (some ⟨BaseType.float.id, some 2, none⟩)) := by
    decide +kernel
  rw [hp] at hanswers
  obtain ⟨hsize, htype⟩ := Prod.mk.inj hanswers
  have hfits : t.builder.structs.size ≤ Structs.capacity := by
    rw [hsize]
    decide
  refine ⟨root, t, hp, hfits, htyped hfits, ?_⟩
  cases hok : t.builder.typeOf ⟨13⟩ with
  | ok type =>
      rw [hok] at htype
      exact congrArg Except.ok (Option.some.inj htype)
  | error =>
      rw [hok] at htype
      contradiction

end CompilationUnit

end ShaderLang
