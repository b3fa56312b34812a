/-
**Every rule of the grammar takes a course.**

A rule reads tokens and builds, and what it builds relies on facts that were found out before: a type that
is read is admitted, and it stays so until it is put into a node.  So that a rule takes a course is told
from how it is put together.

A block is looked at for itself.  It may come to its closing brace, or to the end, with a report behind it
and no token read since; it ends only with the brace, so a statement has settled when it ends.  Only a
program may end otherwise.

Main results:

* `ShaderLang.Grammar.orderly_blockRule` — **a block takes a course**, whatever is wrong inside it;
* `ShaderLang.Parser.Composed.follows`, `ShaderLang.Parser.Regular.orderly` — **every rule takes a course,
  and what it finds out holds**;
* `ShaderLang.Grammar.course_program` — **reading a program takes a course**.
-/

import ShaderLang.Proofs.Grammar.Turns

set_option relaxedAutoImplicit false
set_option autoImplicit false

namespace ShaderLang

namespace Grammar

open ShaderLang.Parser
open ShaderLang.Build hiding bind_apply bind_eq_ok pure_apply

variable {inner : Unit → Parser NodeId} {s t : ParseState}

/-! ### Going on behind an error -/

/-- A course that has settled, or that has come to where nothing is built before a token is read. -/
def Rests (stops : ParseState → Prop) (s t : ParseState) : Prop :=
  s.Course true t ∨ (∃ settled, s.Course settled t) ∧ stops t

theorem Rests.course {stops : ParseState → Prop} (h : Rests stops s t) :
    ∃ settled, s.Course settled t := by
  rcases h with h | ⟨h, -⟩
  · exact ⟨true, h⟩
  · exact h

/-- Tokens that are passed over settle a course, or none is passed over. -/
theorem rests_repeated {stops : ParseState → Prop} {turn : Unit → Parser (Turn Unit Unit)}
    (hturn : ∀ v x w, turn () v = .ok x w → w = v.advanced ∨ w = v ∧ stops v) {settled : Bool}
    (ht : s.Course settled t) {u : ParseState} (h : repeated turn () t = .ok () u) :
    Rests stops s u := by
  refine repeated_induction (P := fun _ v => ∃ settled, s.Course settled v)
    (Q := fun _ v => Rests stops s v) ?_ ?_ ⟨settled, ht⟩ h
  · rintro _ v _ w ⟨settled, hv⟩ hw -
    rcases hturn v _ w hw with rfl | ⟨rfl, -⟩
    · exact ⟨true, .read hv⟩
    · exact ⟨settled, hv⟩
  · rintro _ v _ w ⟨settled, hv⟩ hw
    rcases hturn v _ w hw with rfl | ⟨rfl, hstops⟩
    · exact .inl (.read hv)
    · exact .inr ⟨⟨settled, hv⟩, hstops⟩

/-- The end stands ahead. -/
def AtEnd (s : ParseState) : Prop := s.cursor.current.kind = .endOfFile

/-- The closing brace of a block or the end stands ahead. -/
def AtBlockEnd (s : ParseState) : Prop :=
  s.cursor.current.kind = .mark .closeCurly ∨ s.cursor.current.kind = .endOfFile

theorem rests_recoverStatement {settled : Bool} {u : ParseState} (ht : s.Course settled t)
    (h : recoverStatement t = .ok () u) : Rests AtBlockEnd s u := by
  have hturn : ∀ v x w, recoverStatementTurn () v = .ok x w →
      w = v.advanced ∨ w = v ∧ AtBlockEnd v := by
    intro v x w hw
    obtain ⟨kind, v', hkind, hw⟩ := bind_eq_ok hw
    obtain ⟨hnext, rfl⟩ := EStateM.Result.ok.inj hkind
    split at hw <;> obtain ⟨-, rfl⟩ := EStateM.Result.ok.inj hw
    · exact .inr ⟨rfl, .inr hnext⟩
    · exact .inr ⟨rfl, .inl hnext⟩
    · exact .inl rfl
    · exact .inl rfl
  exact rests_repeated hturn ht h

theorem rests_recover {settled : Bool} {u : ParseState} (ht : s.Course settled t)
    (h : recover t = .ok () u) : Rests AtEnd s u := by
  have hturn : ∀ v x w, recoverTurn () v = .ok x w → w = v.advanced ∨ w = v ∧ AtEnd v := by
    intro v x w hw
    obtain ⟨kind, v', hkind, hw⟩ := bind_eq_ok hw
    obtain ⟨hnext, rfl⟩ := EStateM.Result.ok.inj hkind
    split at hw <;> obtain ⟨-, rfl⟩ := EStateM.Result.ok.inj hw
    · exact .inr ⟨rfl, hnext⟩
    · exact .inl rfl
    · exact .inl rfl
    · exact .inl rfl
  exact rests_repeated hturn ht h

/-! ### Blocks -/

/-- One more statement of a block, behind a course that rests. -/
theorem rests_blockTurn (hi : ∀ u, (inner u).Orderly) {list : Option NodeId} {u : ParseState}
    {x : Turn (Option NodeId) (Option NodeId)} (ht : Rests AtBlockEnd s t)
    (h : blockTurn inner list t = .ok x u) : Rests AtBlockEnd s u := by
  obtain ⟨kind, t', hkind, h⟩ := bind_eq_ok h
  obtain ⟨hnext, rfl⟩ := EStateM.Result.ok.inj hkind
  split at h
  case h_1 | h_2 =>
      obtain ⟨-, rfl⟩ := EStateM.Result.ok.inj h
      exact ht
  case h_3 hend hclose =>
      -- in front of a statement the course has settled
      have hsettled : s.Course true t := by
        rcases ht with ht | ⟨-, hblock | hblock⟩
        · exact ht
        · exact (hclose (hnext.symm.trans hblock)).elim
        · exact (hend (hnext.symm.trans hblock)).elim
      obtain ⟨answer, t₁, hanswer, h⟩ := bind_eq_ok h
      rcases attempt_eq_ok hanswer with ⟨item, rfl, hp⟩ | ⟨found, allowed, rfl, hp⟩
      · have hitem := hsettled.trans (hi () t |>.of_ok hp).1
        have hlink := ((orderly_buildLink .statements list item).bind fun list =>
          orderly_pure (Turn.again list : Turn (Option NodeId) (Option NodeId))) t₁
        exact .inl (hitem.trans (hlink.of_ok h).1)
      · obtain ⟨⟨settled, hcourse⟩, rfl⟩ := (hi () t).of_unexpected hp
        obtain ⟨_, t₂, hreport, h⟩ := bind_eq_ok h
        obtain ⟨-, rfl⟩ := EStateM.Result.ok.inj hreport
        obtain ⟨_, t₃, hrecover, h⟩ := bind_eq_ok h
        obtain ⟨-, rfl⟩ := EStateM.Result.ok.inj h
        exact rests_recoverStatement (.reject (hsettled.trans hcourse) _) hrecover

theorem tolerant_blockTurn (list : Option NodeId) : (blockTurn inner list).Tolerant := by
  refine tolerant_currentKind.bind fun kind => ?_
  split
  · exact tolerant_pure _
  · exact tolerant_pure _
  · refine (tolerant_attempt _).bind fun answer => ?_
    split
    · exact (tolerant_buildLink _ _ _).bind fun _ => tolerant_pure _
    · exact (tolerant_report _ _).bind fun _ => tolerant_recoverStatement.bind fun _ => tolerant_pure _

/-- The closing brace settles a course, and without it the next token is not allowed. -/
theorem follows_closeCurly {settled : Bool} (ht : s.Course settled t) {p q : Parser NodeId}
    (hq : q.Orderly) (hrun : p s = (expectMark .closeCurly >>= fun _ => q) t) :
    p.Follows Unknown s := by
  rw [bind_apply] at hrun
  by_cases hkind : t.cursor.current.kind = .mark .closeCurly
  · rw [expectMark_of_kind hkind] at hrun
    exact .behind (.read ht) (hq t.advanced) hrun
  · rw [expectMark_of_ne hkind] at hrun
    unfold Follows
    rw [hrun]
    exact ⟨⟨settled, ht⟩, rfl⟩

/-- **A block takes a course**: whatever is wrong inside it, it ends with its closing brace. -/
theorem orderly_blockRule (hi : ∀ u, (inner u).Orderly) : (blockRule inner).Orderly := by
  refine (orderly_expectMark .openCurly).bind fun _ s => ?_
  rcases hloop : repeated (blockTurn inner) none s with ⟨list, t⟩ | ⟨⟨found, allowed⟩ | e, t⟩
  · have ht : Rests AtBlockEnd s t := by
      refine repeated_induction (P := fun _ u => Rests AtBlockEnd s u)
        (Q := fun _ u => Rests AtBlockEnd s u) ?_ ?_
        (.inl .start) hloop
      · exact fun list u list' v hu hturn _ => rests_blockTurn hi hu hturn
      · exact fun list u x v hu hturn => rests_blockTurn hi hu hturn
    obtain ⟨settled, hcourse⟩ := ht.course
    have hbuild : (build (Build.compound list)).Orderly := orderly_add rfl
    exact follows_closeCurly hcourse hbuild (by rw [bind_apply, hloop])
  · exact absurd hloop (tolerant_repeated tolerant_blockTurn none s found allowed t)
  · unfold Follows
    rw [bind_apply, hloop]
    trivial

end Grammar

/-! ### How rules are put together -/

namespace Parser

variable {α : Type}

/-- **Every rule takes a course, and what it finds out holds.**  The induction is on how the rule is put
together. -/
theorem Composed.follows {site : Site} {words : List Token} {known : List Fact} {next : Token → Prop}
    {d e : Nat} {p : Parser α} {gives : α → List Fact} (h : Composed site words known next d e p gives)
    {s : ParseState} (hs : next s.cursor.current) (hknown : ∀ k ∈ known, k.Holds s.builder.structs) :
    p.Follows (fun x structs => ∀ k ∈ gives x, k.Holds structs) s := by
  induction h generalizing s with
  | pure x => exact follows_pure nofun
  | unexpected allowed => exact follows_unexpected allowed
  | fault f => trivial
  | build sound => exact follows_build (sound.moves _ hknown)
  | bind first rest ihFirst ihRest =>
      refine (ihFirst hs hknown).bind fun x t hsize hfinds => ihRest x trivial fun k hk => ?_
      rcases List.mem_append.1 hk with hk | hk
      · exact hfinds k hk
      · exact (hknown k hk).mono hsize
  | look looks rest ih =>
      obtain ⟨x, hx, hrun⟩ := looks s
      refine .congr (ih x ⟨hs, hx⟩ hknown) ?_
      rw [bind_apply, hrun s (.refl s)]
  | advance shifts congr rest ih => exact .behind (.read .start) (ih _ hs trivial hknown) rfl
  | ofLeft q agrees each ih => exact .congr (ih s.left hs hknown) (agrees s)
  | @block _ _ _ _ _ inner _ ih =>
      have hstatements : ∀ u, (inner u).Orderly := fun u t =>
        (ih u [] [] anyToken 0 trivial nofun).mono fun _ _ _ => trivial
      exact (Grammar.orderly_blockRule hstatements s).mono fun _ _ _ => nofun

theorem Regular.orderly {site : Site} {p : Parser α} (h : p.Regular site) : p.Orderly :=
  fun _ => ((h [] [] anyToken 0).follows trivial nofun).mono fun _ _ _ => trivial

end Parser

namespace Grammar

open ShaderLang.Parser

variable {s t : ParseState}

/-! ### Programs -/

/-- One more part of a program, behind a course that rests. -/
theorem rests_programTurn {list : Option NodeId} {u : ParseState}
    {x : Turn (Option NodeId) (Option NodeId)} (ht : Rests AtEnd s t)
    (h : programTurn list t = .ok x u) : Rests AtEnd s u := by
  obtain ⟨more, t', hmore, h⟩ := bind_eq_ok h
  obtain ⟨rfl, rfl⟩ := EStateM.Result.ok.inj hmore
  split at h
  · next hnext =>
      have hsettled : s.Course true t := by
        rcases ht with ht | ⟨-, hend⟩
        · exact ht
        · exact absurd hend (bne_iff_ne.1 hnext)
      obtain ⟨answer, t₁, hanswer, h⟩ := bind_eq_ok h
      rcases attempt_eq_ok hanswer with ⟨item, rfl, hp⟩ | ⟨found, allowed, rfl, hp⟩
      · have hitem := hsettled.trans ((regular_external.orderly t).of_ok hp).1
        cases item with
        | none =>
            obtain ⟨-, rfl⟩ := EStateM.Result.ok.inj h
            exact .inl hitem
        | some item =>
            have hlink := ((orderly_buildLink .externals list item).bind fun list =>
              orderly_pure (Turn.again list : Turn (Option NodeId) (Option NodeId))) t₁
            exact .inl (hitem.trans (hlink.of_ok h).1)
      · obtain ⟨⟨settled, hcourse⟩, rfl⟩ := (regular_external.orderly t).of_unexpected hp
        obtain ⟨_, t₂, hreport, h⟩ := bind_eq_ok h
        obtain ⟨-, rfl⟩ := EStateM.Result.ok.inj hreport
        obtain ⟨_, t₃, hleave, h⟩ := bind_eq_ok h
        obtain ⟨-, rfl⟩ := EStateM.Result.ok.inj hleave
        obtain ⟨_, t₄, hrecover, h⟩ := bind_eq_ok h
        obtain ⟨-, rfl⟩ := EStateM.Result.ok.inj h
        exact rests_recover (.leave (.reject (hsettled.trans hcourse) _)) hrecover
  · obtain ⟨-, rfl⟩ := EStateM.Result.ok.inj h
    exact ht

/-- **Reading a program takes a course.** -/
theorem course_program {root : Option NodeId} (h : program s = .ok root t) :
    ∃ settled, s.Course settled t := by
  have hrests : Rests AtEnd s t := by
    refine repeated_induction (P := fun _ u => Rests AtEnd s u) (Q := fun _ u => Rests AtEnd s u)
      ?_ ?_ (.inl .start) h
    · exact fun list u list' v hu hturn _ => rests_programTurn hu hturn
    · exact fun list u x v hu hturn => rests_programTurn hu hturn
  exact hrests.course

end Grammar

end ShaderLang
