/-
**Programs keep to the terms.**

Main results:

* `ShaderLang.Grammar.obeys_external` — the parts of a program;
* `ShaderLang.Grammar.obeys_programTurn`, `ShaderLang.Grammar.obeys_program` — **a program leaves the
  chain of its parts, and every report is paid for by a token**;
* `ShaderLang.Grammar.program_ends` — **reading a program from an empty arena always comes to an end
  of the tokens**.
-/

import ShaderLang.Grammar.Program
import ShaderLang.Proofs.Grammar.Statements

set_option relaxedAutoImplicit false
set_option autoImplicit false

namespace ShaderLang.Grammar

open ShaderLang.Parser ShaderLang.Arena

variable {s : ParseState} {k : Balance} {pre : List Part}

/-! ### Functions -/

/-- The head of a function without a body is a part of a program. -/
theorem plays_external {n : Node} (h : n.plays .prototype) : n.plays .external := by
  cases n <;> simp_all [Node.plays, Node.isExternal]

theorem obeys_functionEnd (head : NodeId) :
    (functionEnd head).Obeys .credit [(head, .prototype)] (fun _ => False)
      (fun id => [(id, .external)]) s := by
  refine .on_kind ?_
  split
  · next hkind =>
      refine (obeys_advance (.inl (hkind ▸ nofun))).bind fun _ t₁ h₁ _ => ?_
      refine Obeys.build_bind ((Build.apart_setCurrent none).grafts _) fun _ t₂ h₂ => ?_
      exact obeys_pure not_false fun _ => Trades.cast fun _ => plays_external
  · refine (Obeys.beside _ (yields_block s)).bind fun body t₁ h₁ _ => ?_
    exact obeys_build (Build.grafts_definition head body)
  · exact obeys_unexpected _

theorem obeys_function (type : DataType) (name : Token) :
    (function type name).Obeys .credit [] (fun _ => False) (fun id => [(id, .external)]) s := by
  refine (obeys_expectMark .openParen).bind fun _ t₁ h₁ _ => ?_
  refine (obeys_parameters t₁).bind fun list t₂ h₂ _ => ?_
  refine (Obeys.beside _ obeys_semantic).bind fun tie t₃ h₃ _ => ?_
  refine (obeys_build (Build.grafts_prototype type name.text list tie)).bind fun head t₄ h₄ _ => ?_
  exact obeys_functionEnd head

theorem yields_functionOrVariables (s : ParseState) :
    functionOrVariables.Yields .external s := by
  refine (obeys_qualifiers s).bind fun q t₁ h₁ _ => ?_
  refine (obeys_dataType t₁).bind_moved fun type t₂ h₂ => ?_
  refine (obeys_expect .name nofun).bind fun name t₃ h₃ _ => ?_
  refine .on_kind ?_
  split
  · exact obeys_function type name
  · exact obeys_declarators (fun _ => rfl) q type name

/-! ### The parts of a program -/

theorem yields_typedExternal (s : ParseState) : typedExternal.Yields .external s := by
  refine Obeys.on_kind ?_
  split
  case h_1 => exact yields_functionOrVariables s
  case h_2 => exact yields_functionOrVariables s
  case h_3 => exact yields_functionOrVariables s
  case h_4 => exact yields_functionOrVariables s
  case h_5 =>
      refine Obeys.look (peek_apply 1 s) ?_
      split
      · exact yields_functionOrVariables s
      · exact obeys_unexpected _
  case h_6 => exact obeys_unexpected _

/-- A part of a program reads something; a semicolon leaves nothing. -/
theorem obeys_external (s : ParseState) :
    external.Obeys .credit [] (fun _ => True) (fun id => optional id .external) s := by
  refine .on_kind ?_
  split
  · next hkind =>
      refine (obeys_advance (.inl (hkind ▸ nofun))).bind_moved fun _ _ _ => ?_
      exact obeys_pure not_false fun _ => Trades.refl
  · exact (yields_structDeclaration s).map_some []
  · exact (yields_typedExternal s).map_some []

/-! ### Going on behind an error -/

/-- Passing over a token; only in front of the end nothing is read. -/
theorem obeys_recoverTurn (u : Unit) :
    (recoverTurn u).Obeys k pre (Turn.Moves fun _ => s.cursor.current.kind ≠ .endOfFile)
      (Turn.leaves (fun _ => pre) fun _ => pre) s := by
  refine .on_kind ?_
  split
  case h_1 hkind => exact obeys_pure (fun h => h hkind) fun _ => Trades.refl
  case h_2 hkind =>
      refine (obeys_advance (.inl (hkind ▸ nofun))).bind_moved fun _ _ _ => ?_
      exact obeys_pure not_false fun _ => Trades.refl
  case h_3 hkind =>
      refine (obeys_advance (.inl (hkind ▸ nofun))).bind_moved fun _ _ _ => ?_
      exact obeys_pure not_false fun _ => Trades.refl
  case h_4 hend _ _ =>
      refine (obeys_advance (.inl hend)).bind_moved fun _ _ _ => ?_
      exact obeys_pure not_false fun _ => Trades.refl

/-- **Going on behind an error reads something**, unless the end is next. -/
theorem obeys_recover (s : ParseState) :
    recover.Obeys k pre (fun _ => s.cursor.current.kind ≠ .endOfFile) (fun _ => pre) s :=
  Obeys.repeated_from (fun u _ => obeys_recoverTurn u) () s

theorem tolerant_recover : recover.Tolerant := by
  refine tolerant_repeated (fun _ => tolerant_currentKind.bind fun kind => ?_) ()
  split
  · exact tolerant_pure _
  · exact tolerant_advance.bind fun _ => tolerant_pure _
  · exact tolerant_advance.bind fun _ => tolerant_pure _
  · exact tolerant_advance.bind fun _ => tolerant_pure _

/-! ### Programs -/

theorem hasTokens_apply (s : ParseState) :
    hasTokens s = .ok (s.cursor.current.kind != .endOfFile) s := rfl

/-- One more part of a program, or a report that is paid for by what is passed over. -/
theorem obeys_programTurn (list : Option NodeId) :
    (programTurn list).Obeys .even (sequence .externals list) (Turn.Moves fun _ => False)
      (Turn.leaves (sequence .externals) (sequence .externals)) s := by
  refine Obeys.look (hasTokens_apply s) ?_
  split
  · next hend =>
      have hend : s.cursor.current.kind ≠ .endOfFile := bne_iff_ne.1 hend
      refine Obeys.attempt_bind (obeys_external s) (fun item t ht => ?_) (fun _ _ => rfl) ?_
        fun t ht => ?_
      · cases item with
        | none =>
            refine obeys_pure not_false fun _ => ?_
            exact Trades.drop (List.append_nil _ ▸ .refl _)
        | some item =>
            refine (obeys_buildLink .externals list item).bind fun list t₂ h₂ _ => ?_
            exact obeys_pure not_false fun _ => Trades.refl
      · exact (tolerant_build _).bind fun _ => tolerant_recover.bind fun _ => tolerant_pure _
      · -- a part that read nothing broke the rule at the token that is passed over now
        refine Obeys.build_bind ((Build.apart_setCurrent none).grafts _) fun _ t₂ h₂ => ?_
        refine Obeys.bind_kept ((obeys_recover t₂).of_moves fun _ hleft => ?_) fun _ _ _ => ?_
        · rw [h₂, ht.eq_of_left_eq hleft]
          exact hend
        · exact obeys_pure not_false fun _ => Trades.refl
  · exact obeys_pure not_false fun _ => Trades.refl

theorem tolerant_programTurn (list : Option NodeId) : (programTurn list).Tolerant := by
  refine (tolerant_of_ok fun s => ⟨_, s, hasTokens_apply s⟩).bind fun more => ?_
  split
  · refine (tolerant_attempt _).bind fun answer => ?_
    split
    · exact (tolerant_buildLink _ _ _).bind fun _ => tolerant_pure _
    · exact tolerant_pure _
    · refine (tolerant_report _ _).bind fun _ => (tolerant_build _).bind fun _ => ?_
      exact tolerant_recover.bind fun _ => tolerant_pure _
  · exact tolerant_pure _

/-- **A program leaves the chain of its parts, and every report is paid for by a token.** -/
theorem obeys_program (s : ParseState) :
    program.Obeys .even [] (fun _ => False) (sequence .externals) s :=
  Obeys.repeated (fun list _ _ => obeys_programTurn list) none s (Nat.lt_succ_self _)

/-- A program is done only at an end. -/
theorem kind_of_program {s t : ParseState} {root : Option NodeId}
    (h : program s = .ok root t) : t.cursor.current.kind = .endOfFile := by
  obtain ⟨list, u, hturn⟩ := exists_done_of_repeated h
  obtain ⟨more, _, hmore, hturn⟩ := bind_eq_ok hturn
  obtain ⟨rfl, rfl⟩ := EStateM.Result.ok.inj hmore
  split at hturn
  · -- behind a part, and behind a report, the program goes on
    obtain ⟨answer, _, -, hturn⟩ := bind_eq_ok hturn
    split at hturn
    · obtain ⟨_, _, -, hturn⟩ := bind_eq_ok hturn
      simp at hturn
    · simp at hturn
    · obtain ⟨_, _, -, hturn⟩ := bind_eq_ok hturn
      obtain ⟨_, _, -, hturn⟩ := bind_eq_ok hturn
      obtain ⟨_, _, -, hturn⟩ := bind_eq_ok hturn
      simp at hturn
  · next hend =>
      obtain ⟨-, rfl⟩ := EStateM.Result.ok.inj hturn
      simpa using hend

/-- **Reading a program from an empty arena always comes to an end of the tokens**; all nodes are
then trees, and the chain of the parts is one of them. -/
theorem program_ends {s : ParseState} (hs : s.builder.arena = .empty) :
    ∃ root t, program s = .ok root t ∧ t.cursor.current.kind = .endOfFile ∧ s.Within .even t ∧
      t.builder.arena.Holds (sequence .externals root) := by
  have hobeys := obeys_program s
  have hempty : s.builder.arena.Holds ([] ++ []) := hs ▸ holds_empty
  rcases hp : program s with ⟨root, t⟩ | ⟨⟨found, allowed⟩ | e, t⟩
  · obtain ⟨hw, -, htrade⟩ := hobeys.of_ok hp
    exact ⟨root, t, rfl, kind_of_program hp, hw, htrade [] hempty⟩
  · exact absurd hp (tolerant_repeated tolerant_programTurn none s found allowed t)
  · exact absurd hempty (hobeys.of_fault hp [])

end ShaderLang.Grammar
