/-
**Every rule is candid.**

No rule of the grammar looks at a position, at what has been reported, or at how many alternatives a
report may list.  So all of them do the same wherever the same words are left to be read.  The reports
that name a word are made behind the token they are about, which was read as such.  Both are told from how
a rule is put together.

All rules up to those for the parts of a program keep the names of structs as they are.  The rule that
opens a struct does not, so for it and for a program as a whole only the first half is shown.

Main results:

* `ShaderLang.Grammar.candid_blockRule` — a block, in which reading goes on behind a report;
* `ShaderLang.Parser.Composed.candid`, `ShaderLang.Parser.Regular.candid` — **every rule is candid**;
* `ShaderLang.Grammar.candid_program` — **reading a program depends on the words alone**.
-/

import ShaderLang.Proofs.Grammar.Rules

set_option relaxedAutoImplicit false
set_option autoImplicit false

namespace ShaderLang

namespace Grammar

open ShaderLang.Parser
open ShaderLang.Build hiding bind_apply bind_eq_ok pure_apply Matches

variable {inner : Unit → Parser NodeId} {whole : Option (List Token)} {s : ParseState}

/-! ### Blocks -/

/-- Passing over a token and going on. -/
theorem candid_again {β γ : Type} (next : β) :
    (advance >>= fun _ => pure (.again next) : Parser (Turn β γ)).Candid whole s :=
  candid_skip fun _ => candid_pure _

theorem candid_recoverStatement : recoverStatement.Candid whole s := by
  refine candid_repeated (fun _ t => candid_kind ?_) () s
  split
  · exact candid_pure _
  · exact candid_pure _
  · exact candid_skip fun _ => candid_pure _
  · exact candid_again ()

theorem candid_blockTurn (hi : ∀ u t, (inner u).Candid whole t) (list : Option NodeId) :
    (blockTurn inner list).Candid whole s := by
  refine candid_kind ?_
  split
  · exact candid_pure _
  · exact candid_pure _
  · refine (hi () s).attempt_bind (fun item t => ?_) (fun _ _ => rfl) fun t => ?_
    · exact (candid_buildLink _ _ _).bind fun _ _ => candid_pure _
    · exact candid_recoverStatement.bind fun _ _ => candid_pure _

theorem candid_blockRule (hi : ∀ u t, (inner u).Candid whole t) :
    (blockRule inner).Candid whole s := by
  refine (candid_expectMark _).bind fun _ t₁ => ?_
  refine (candid_repeated (fun list t => candid_blockTurn hi list) none t₁).bind ?_
  exact fun list t₂ => (candid_expectMark _).bind fun _ _ => candid_add _

end Grammar

/-! ### How rules are put together -/

namespace Parser

open ParseState

variable {α : Type} {site : Site} {words : List Token} {known : List Fact} {p : Parser α}
  {whole : Option (List Token)} {s : ParseState}

/-- A step that is sound is candid behind the words that it may be about. -/
theorem candid_of_sound {step : Build α} {gives : α → List Fact} (h : step.Sound site words known gives)
    (hsite : site ≠ .anywhere ∨ whole = none) (hread : ∀ w ∈ whole, withoutEnds words ⊆ s.seen w) :
    (build step).Candid whole s := by
  have hplace : ∀ w ∈ whole, site ≠ .anywhere := by
    rintro w hw
    rcases hsite with hsite | rfl
    · exact hsite
    · contradiction
  obtain ⟨said, hsaid, hblind⟩ := h.tells s.builder
  refine candid_build hblind (fun p hp => (hsaid p hp).1) (fun w hw x b hb => ?_) fun w hw p hp => ?_
  · have hnames := h.names (hplace w hw) s.builder
    rw [Build.after, hb] at hnames
    exact Structs.lookup_congr hnames
  · exact ((hsaid p hp).2 (hplace w hw)).mono (hread w hw) rfl

/-- **Every rule is candid** behind the words that were read.  The induction is on how the rule is put
together. -/
theorem Composed.candid {next : Token → Prop} {d e : Nat} {gives : α → List Fact}
    (h : Composed site words known next d e p gives) (hsite : site ≠ .anywhere ∨ whole = none)
    (hs : next s.cursor.current) (hread : ∀ w ∈ whole, withoutEnds words ⊆ s.seen w) :
    p.Candid whole s := by
  induction h generalizing s with
  | pure x => exact candid_pure x
  | unexpected allowed => exact candid_unexpected allowed
  | fault f => exact candid_fault f
  | build sound => exact candid_of_sound sound hsite hread
  | bind first rest ihFirst ihRest =>
      refine (ihFirst hsite hs hread).bind_left fun x t hleft => ihRest x hsite trivial fun w hw => ?_
      exact List.Subset.trans (hread w hw) (seen_subset (hleft w hw))
  | look looks rest ih =>
      obtain ⟨x, hx, hrun⟩ := looks s
      refine (ih x hsite ⟨hs, hx⟩ hread).congr fun s' h => ?_
      rw [bind_apply, hrun s' h]
  | advance shifts congr rest ih =>
      refine candid_advance congr fun hamong => ih _ hs hsite trivial fun w hw t ht => ?_
      obtain ⟨hmem, hkind⟩ := List.mem_filter.1 ht
      rcases List.mem_cons.1 hmem with rfl | hmem
      · exact mem_seen_advanced (hamong w hw) (of_decide_eq_true hkind)
      · exact seen_subset (Nat.sub_le _ _) (hread w hw (List.mem_filter.2 ⟨hmem, hkind⟩))
  | ofLeft q agrees each ih => exact candid_of_left q agrees (ih s.left hsite hs hread)
  | block statements ih =>
      refine Grammar.candid_blockRule fun u t => ?_
      exact ih u [] [] anyToken 0 (.inl nofun) trivial fun _ _ => List.nil_subset _

theorem Regular.candid (h : p.Regular site) (hsite : site ≠ .anywhere ∨ whole = none) :
    p.Candid whole s :=
  (h [] [] anyToken 0).candid hsite trivial fun _ _ => List.nil_subset _

end Parser

namespace Grammar

open ShaderLang.Parser
open ShaderLang.Build hiding bind_apply bind_eq_ok pure_apply Matches

variable {whole : Option (List Token)} {s : ParseState}

/-! ### Programs -/

theorem candid_recover : recover.Candid whole s := by
  refine candid_repeated (fun _ t => candid_kind ?_) () s
  split
  · exact candid_pure _
  · exact candid_skip fun _ => candid_pure _
  · exact candid_skip fun _ => candid_pure _
  · exact candid_again ()

/-- What follows the report of a part that broke a rule. -/
theorem candid_afterReport (list : Option NodeId) :
    (build Build.endFunction >>= fun _ => recover >>= fun _ => pure (.again list) :
      Parser (Turn (Option NodeId) (Option NodeId))).Candid whole s := by
  refine (candid_static fun _ => tells_setCurrent none).bind fun _ t₁ => ?_
  exact candid_recover.bind fun _ _ => candid_pure _

theorem candid_programTurn (list : Option NodeId) : (programTurn list).Candid none s := by
  have hmore : hasTokens.Candid none s := candid_kind (candid_pure _)
  refine hmore.bind fun more t => ?_
  split
  · refine (regular_external.candid (.inr rfl)).attempt_bind (fun item t => ?_) (fun _ _ => rfl) fun t => ?_
    · cases item with
      | none => exact candid_pure _
      | some item => exact (candid_buildLink _ _ _).bind fun _ _ => candid_pure _
    · exact candid_afterReport list
  · exact candid_pure _

/-- **Reading a program depends on the words alone.** -/
theorem candid_program : program.Candid none s :=
  candid_repeated (fun list _ => candid_programTurn list) none s

end Grammar

end ShaderLang
