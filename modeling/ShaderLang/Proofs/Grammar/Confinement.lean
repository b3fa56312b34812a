/-
**A broken rule stays inside the body of its function.**

A statement that breaks a rule is passed over up to the next semicolon or closing brace, without
counting braces.  So a body ends with its own brace for sure where there are no braces inside of it,
whatever its other tokens are, and where no token is reported.  With braces inside, what is passed over
may begin with one of them, and the brace that closes it is taken for the end of the body.

Main definitions:

* `ShaderLang.Flat` — tokens without braces and ends;
* `ShaderLang.ParseState.Blames`, `ShaderLang.ParseState.Inside` — which tokens were reported, and
  where in a body a state stands;
* `ShaderLang.Grammar.functionHead` — what stands in front of the body of a function.

Main results:

* `ShaderLang.Grammar.block_confined` — **a block without braces inside ends with its own brace**, and
  no token behind it is reported;
* `ShaderLang.Grammar.block_matched` — **a block in which no token is reported ends with the brace
  that matches**;
* `ShaderLang.Grammar.external_confined` — a function whose body has no braces inside is read as one
  part of a program.
-/

import ShaderLang.Proofs.Grammar.Braces
import ShaderLang.Proofs.Grammar.Lookahead

set_option relaxedAutoImplicit false
set_option autoImplicit false

namespace ShaderLang

/-- The tokens are no braces and no ends. -/
def Flat (ts : List Token) : Prop := ∀ x ∈ ts, x.kind ≠ .endOfFile ∧ x.kind.isBrace = false

instance (ts : List Token) : Decidable (Flat ts) :=
  inferInstanceAs (Decidable (∀ x ∈ ts, x.kind ≠ .endOfFile ∧ x.kind.isBrace = false))

/-- A brace that opens. -/
def openingBrace : Token := ⟨.mark .openCurly, "\x7b", ⟨1, 0⟩⟩

/-- A brace that closes. -/
def closingBrace : Token := ⟨.mark .closeCurly, "\x7d", ⟨1, 0⟩⟩

namespace ParseState

variable {s t u : ParseState} {ts body tail : List Token} {c : Token}

/-! ### Reports of tokens -/

/-- Every report of a token that was made between the two states is about one of these tokens. -/
def Blames (ts : List Token) (s t : ParseState) : Prop :=
  ∀ r ∈ t.builder.diagnostics.reports, r.problem.isUnexpected = true →
    r ∈ s.builder.diagnostics.reports ∨
      ∃ x ∈ ts, ∃ expected, r = ⟨.unexpectedToken x.text expected, x.position⟩

namespace Blames

theorem of_same (h : t.builder.diagnostics = s.builder.diagnostics) : Blames ts s t :=
  fun _ hr _ => .inl (h ▸ hr)

theorem trans (h : Blames ts s t) (h' : Blames ts t u) : Blames ts s u := by
  intro r hr hun
  rcases h' r hr hun with hr | hr
  · exact h r hr hun
  · exact .inr hr

/-- Whatever was reported, it was no token. -/
theorem of_longer
    (h : s.builder.diagnostics.reports.toList <+: t.builder.diagnostics.reports.toList)
    (herrors : t.errors = s.errors) : Blames ts s t := by
  obtain ⟨new, hnew⟩ := h
  have hcount : t.builder.errors = s.builder.errors + new.countP fun d => d.problem.isUnexpected := by
    rw [Builder.errors, Builder.errors, ← Array.countP_toList, ← Array.countP_toList, ← hnew,
      List.countP_append]
  have hnone : new.countP (fun d => d.problem.isUnexpected) = 0 := by
    have herrors : t.builder.errors = s.builder.errors := herrors
    omega
  intro r hr hun
  rw [← Array.mem_toList_iff, ← hnew, List.mem_append] at hr
  rcases hr with hr | hr
  · exact .inl (Array.mem_toList_iff.1 hr)
  · exact absurd hun (List.countP_eq_zero.1 hnone r hr)

/-- Small steps that report no token. -/
theorem of_steps (h : Builder.Steps s.builder t.builder) (herrors : t.errors = s.errors) :
    Blames ts s t := by
  obtain ⟨new, hnew, -⟩ := h.extends.reports
  exact of_longer ⟨new.toList, by rw [hnew, Array.toList_append]⟩ herrors

theorem of_report {found : Token} {allowed : List TokenKind}
    (h : Parser.report found allowed s = .ok () t) (hfound : found ∈ ts) : Blames ts s t := by
  obtain ⟨-, rfl⟩ := EStateM.Result.ok.inj h
  intro r hr _
  rcases Array.mem_push.1 hr with hr | rfl
  · exact .inl hr
  · exact .inr ⟨found, hfound, _, rfl⟩

end Blames

/-! ### In a body -/

/-- The state stands in front of the last tokens of a body, and of its closing brace. -/
def Inside (body : List Token) (c : Token) (tail : List Token) (s : ParseState) : Prop :=
  ∃ ts, ts <:+ body ∧ s.cursor.rest = ts ++ c :: tail

namespace Inside

/-- The closing brace is next, or a token of the body is. -/
theorem next (h : s.Inside body c tail) :
    s.cursor.current = c ∧ s.cursor.rest = c :: tail ∨
      s.cursor.current ∈ body ∧ s.advanced.Inside body c tail := by
  obtain ⟨ts, hts, hrest⟩ := h
  cases ts with
  | nil => exact .inl ⟨by rw [Cursor.current, hrest]; rfl, hrest⟩
  | cons x ts =>
      refine .inr ⟨?_, ts, (List.suffix_cons x ts).trans hts, ?_⟩
      · rw [Cursor.current, hrest]
        exact hts.subset (List.mem_cons_self ..)
      · show s.cursor.rest.tail = _
        rw [hrest, List.cons_append, List.tail_cons]

theorem current_mem (h : s.Inside body c tail) : s.cursor.current ∈ body ++ [c] := by
  rcases h.next with ⟨hnext, -⟩ | ⟨hnext, -⟩
  · exact List.mem_append_right _ (hnext ▸ List.mem_singleton_self _)
  · exact List.mem_append_left _ hnext

theorem kind_ne_end (h : s.Inside body c tail) (hbody : Flat body) (hc : c.kind.isBrace = true) :
    s.cursor.current.kind ≠ .endOfFile := by
  rcases h.next with ⟨hnext, -⟩ | ⟨hnext, -⟩
  · rintro hend
    rw [← hnext, hend] at hc
    contradiction
  · exact (hbody _ hnext).1

theorem rest_of_close (h : s.Inside body c tail) (hbody : Flat body)
    (hkind : s.cursor.current.kind.isBrace = true) : s.cursor.rest = c :: tail := by
  rcases h.next with ⟨-, hrest⟩ | ⟨hnext, -⟩
  · exact hrest
  · rw [(hbody _ hnext).2] at hkind
    contradiction

/-- The first brace ahead is the closing one, and outside of all braces it is not read. -/
theorem passes (h : s.Inside body c tail) (hbody : Flat body) (hc : c.kind = .mark .closeCurly)
    {read : List Token} (hread : s.Passes True read t) :
    t.errors = s.errors ∧ t.Inside body c tail := by
  obtain ⟨ts, hts, hrest⟩ := h
  have hplain : ∀ x ∈ ts, x.kind.isBrace = false := fun x hx => (hbody x (hts.subset hx)).2
  have hbrace : c.kind.isBrace = true := hc ▸ rfl
  have hsplit := hread.rest_eq
  rw [hrest] at hsplit
  rcases hread.quiet trivial with ⟨herrors, hflat⟩ | ⟨before, brace, behind, rfl, hbefore, hopen⟩
  · refine ⟨herrors, ?_⟩
    rcases List.append_eq_append_iff.1 hsplit with ⟨more, rfl, hmore⟩ | ⟨left, rfl, hleft⟩
    · cases more with
      | nil => exact ⟨[], List.nil_suffix, hmore.symm⟩
      | cons x more =>
          obtain ⟨rfl, -⟩ := List.cons.inj hmore
          rw [hflat c (by simp)] at hbrace
          contradiction
    · exact ⟨left, (List.suffix_append _ _).trans hts, hleft⟩
  · -- an opening brace cannot be the first one
    rw [List.append_assoc, List.cons_append] at hsplit
    rcases List.append_eq_append_iff.1 hsplit with ⟨more, rfl, hmore⟩ | ⟨left, rfl, hleft⟩
    · cases more with
      | nil =>
          obtain ⟨rfl, -⟩ := List.cons.inj hmore
          rw [hc] at hopen
          contradiction
      | cons x more =>
          obtain ⟨rfl, -⟩ := List.cons.inj hmore
          rw [hbefore c (by simp)] at hbrace
          contradiction
    · cases left with
      | nil =>
          obtain ⟨rfl, -⟩ := List.cons.inj hleft
          rw [hc] at hopen
          contradiction
      | cons x left =>
          obtain ⟨rfl, -⟩ := List.cons.inj hleft
          have hnone := hplain brace (by simp)
          rw [hopen] at hnone
          contradiction

end Inside

end ParseState

namespace Grammar

open ShaderLang.Parser

variable {s t u : ParseState} {body tail : List Token} {o c : Token}

/-! ### Going on behind an error -/

/-- What is passed over in a body without braces belongs to the body. -/
theorem inside_recoverStatement (hc : c.kind = .mark .closeCurly) (h : s.Inside body c tail)
    (hrecover : recoverStatement s = .ok () t) :
    t.Inside body c tail ∧ t.builder.diagnostics = s.builder.diagnostics := by
  -- a turn leaves the state as it is, or passes over a token that is no brace
  have hturn : ∀ v x w, v.Inside body c tail → recoverStatementTurn () v = .ok x w →
      w.Inside body c tail ∧ w.builder.diagnostics = v.builder.diagnostics := by
    intro v x w hv hw
    obtain ⟨kind, v', hkind, hw⟩ := bind_eq_ok hw
    obtain ⟨hnext, rfl⟩ := EStateM.Result.ok.inj hkind
    have hread : v.cursor.current.kind ≠ .mark .closeCurly → v.advanced.Inside body c tail := by
      intro hne
      rcases hv.next with ⟨hcurrent, -⟩ | ⟨-, hadvanced⟩
      · exact absurd (hcurrent ▸ hc) hne
      · exact hadvanced
    split at hw <;> obtain ⟨-, rfl⟩ := EStateM.Result.ok.inj hw
    case h_1 | h_2 => exact ⟨hv, rfl⟩
    case h_3 => exact ⟨hread (hnext ▸ nofun), rfl⟩
    case h_4 hclose _ _ => exact ⟨hread fun hkind => hclose (hnext.symm.trans hkind), rfl⟩
  refine repeated_induction
    (P := fun _ v => v.Inside body c tail ∧ v.builder.diagnostics = s.builder.diagnostics)
    (Q := fun _ v => v.Inside body c tail ∧ v.builder.diagnostics = s.builder.diagnostics)
    ?_ ?_ ⟨h, rfl⟩ hrecover
  · rintro _ v _ w ⟨hv, hsame⟩ hw -
    exact ⟨(hturn v _ w hv hw).1, (hturn v _ w hv hw).2.trans hsame⟩
  · rintro _ v _ w ⟨hv, hsame⟩ hw
    exact ⟨(hturn v _ w hv hw).1, (hturn v _ w hv hw).2.trans hsame⟩

/-! ### Blocks -/

/-- One more statement of a body without braces stays inside of it, whether it breaks a rule or not. -/
theorem inside_blockTurn (hbody : Flat body) (hc : c.kind = .mark .closeCurly)
    (h : s.Inside body c tail) {list : Option NodeId} {x : Turn (Option NodeId) (Option NodeId)}
    (hturn : blockTurn (fun _ => statement) list s = .ok x t) :
    t.Inside body c tail ∧ s.Blames (body ++ [c]) t ∧
      ∀ result, x = .done result → t.cursor.rest = c :: tail := by
  obtain ⟨kind, s', hkind, hturn⟩ := bind_eq_ok hturn
  obtain ⟨hnext, rfl⟩ := EStateM.Result.ok.inj hkind
  split at hturn
  case h_1 => exact absurd hnext (h.kind_ne_end hbody (hc ▸ rfl))
  case h_2 =>
      obtain ⟨-, rfl⟩ := EStateM.Result.ok.inj hturn
      exact ⟨h, .of_same rfl, fun _ _ => h.rest_of_close hbody (hnext ▸ rfl)⟩
  case h_3 =>
      obtain ⟨answer, t₁, hanswer, hturn⟩ := bind_eq_ok hturn
      rcases attempt_eq_ok hanswer with ⟨item, rfl, hp⟩ | ⟨found, allowed, rfl, hp⟩
      · obtain ⟨read, hread, -⟩ := (regular_statement.keeps True 0 s).of_ok hp
        obtain ⟨herrors, hinside⟩ := h.passes hbody hc hread
        obtain ⟨rfl, rfl⟩ := EStateM.Result.ok.inj hturn
        have hsteps := (inner_statement s).of_ok hp
        exact ⟨hinside, (ParseState.Blames.of_steps hsteps herrors).trans (.of_same rfl), nofun⟩
      · obtain ⟨read, hread⟩ := (regular_statement.keeps True 0 s).of_unexpected hp
        obtain ⟨herrors, hinside⟩ := h.passes hbody hc hread
        obtain ⟨-, rfl⟩ := (regular_statement.orderly s).of_unexpected hp
        obtain ⟨_, t₂, hreport, hturn⟩ := bind_eq_ok hturn
        obtain ⟨_, t₃, hrecover, hturn⟩ := bind_eq_ok hturn
        obtain ⟨rfl, rfl⟩ := EStateM.Result.ok.inj hturn
        have hsteps := (inner_statement s).of_error hp
        have hblames := (ParseState.Blames.of_steps hsteps herrors).trans
          (.of_report hreport hinside.current_mem)
        have hinside₂ : t₂.Inside body c tail := by
          obtain ⟨-, rfl⟩ := EStateM.Result.ok.inj hreport
          exact hinside
        obtain ⟨hinside₃, hsame⟩ := inside_recoverStatement hc hinside₂ hrecover
        exact ⟨hinside₃, hblames.trans (.of_same hsame), nofun⟩

/-- The statements of a body without braces end in front of its closing brace. -/
theorem inside_blockTurns (hbody : Flat body) (hc : c.kind = .mark .closeCurly)
    (h : s.Inside body c tail) {list result : Option NodeId}
    (hloop : repeated (blockTurn fun _ => statement) list s = .ok result t) :
    t.cursor.rest = c :: tail ∧ s.Blames (body ++ [c]) t := by
  refine repeated_induction (P := fun _ v => v.Inside body c tail ∧ s.Blames (body ++ [c]) v)
    (Q := fun _ v => v.cursor.rest = c :: tail ∧ s.Blames (body ++ [c]) v) ?_ ?_
    ⟨h, .of_same rfl⟩ hloop
  · rintro list v list' w ⟨hv, hblames⟩ hw -
    obtain ⟨hinside, hblames', -⟩ := inside_blockTurn hbody hc hv hw
    exact ⟨hinside, hblames.trans hblames'⟩
  · rintro list v result w ⟨hv, hblames⟩ hw
    obtain ⟨-, hblames', hdone⟩ := inside_blockTurn hbody hc hv hw
    exact ⟨hdone result rfl, hblames.trans hblames'⟩

/-- What happened in a block that has a result. -/
theorem block_eq_ok {id : NodeId} (h : block s = .ok id t) :
    ∃ list u, repeated (blockTurn fun _ => statement) none s.advanced = .ok list u ∧
      u.cursor.current.kind = .mark .closeCurly ∧ t.cursor = u.cursor.next ∧
      t.builder.diagnostics = u.builder.diagnostics := by
  obtain ⟨_, t₁, hopen, h⟩ := bind_eq_ok h
  obtain ⟨-, rfl⟩ := expectMark_eq_ok hopen
  obtain ⟨list, u, hloop, h⟩ := bind_eq_ok h
  obtain ⟨_, t₂, hclose, h⟩ := bind_eq_ok h
  obtain ⟨hkind, rfl⟩ := expectMark_eq_ok hclose
  obtain ⟨-, rfl⟩ := EStateM.Result.ok.inj h
  exact ⟨list, u, hloop, hkind, rfl, rfl⟩

/-- **A block without braces inside ends with its own brace**, whatever its tokens are; only tokens of
the block are reported. -/
theorem block_confined (hs : s.cursor.rest = o :: (body ++ c :: tail))
    (ho : o.kind = .mark .openCurly) (hc : c.kind = .mark .closeCurly) (hbody : Flat body)
    {frame : List Part} (hheld : s.builder.arena.Holds frame) :
    ∃ id t, block s = .ok id t ∧ t.cursor.rest = tail ∧ s.Blames (body ++ [c]) t := by
  have hcurrent : s.cursor.current = o := by rw [Cursor.current, hs]
  have hinside : s.advanced.Inside body c tail := by
    refine ⟨body, List.suffix_refl _, ?_⟩
    show s.cursor.rest.tail = _
    rw [hs, List.tail_cons]
  rcases hp : block s with ⟨id, t⟩ | ⟨⟨found, allowed⟩ | e, t⟩
  · obtain ⟨list, u, hloop, -, hcursor, hsame⟩ := block_eq_ok hp
    obtain ⟨hrest, hblames⟩ := inside_blockTurns hbody hc hinside hloop
    refine ⟨id, t, rfl, ?_, hblames.trans (.of_same hsame)⟩
    rw [hcursor, Cursor.rest_next, hrest, List.tail_cons]
  · -- only a brace that is missing could break the rule
    have hopen := expectMark_of_kind (hcurrent ▸ ho)
    rw [block, blockRule, bind_apply, hopen] at hp
    rcases hloop : repeated (blockTurn fun _ => statement) none s.advanced with ⟨list, u⟩ | ⟨e, u⟩
    · obtain ⟨hrest, -⟩ := inside_blockTurns hbody hc hinside hloop
      have hclose : u.cursor.current.kind = .mark .closeCurly := by rw [Cursor.current, hrest, hc]
      simp only [bind_apply, hloop, expectMark_of_kind hclose] at hp
      exact absurd hp (tolerant_build _ u.advanced found allowed t)
    · simp only [bind_apply, hloop] at hp
      obtain ⟨rfl, rfl⟩ := EStateM.Result.error.inj hp
      exact absurd hloop (tolerant_repeated tolerant_blockTurn none s.advanced found allowed u)
  · refine absurd ?_ ((yields_block s).of_fault hp frame)
    rwa [List.append_nil]

/-- **A block in which no token is reported ends with the brace that matches.** -/
theorem block_matched (hs : s.cursor.rest = o :: (body ++ c :: tail))
    (hc : c.kind = .mark .closeCurly) (hbody : depthBehind 0 body = some 0) {id : NodeId}
    (h : block s = .ok id t) (herrors : t.errors = s.errors) : t.cursor.rest = tail := by
  obtain ⟨list, u, hloop, hkind, hcursor, hsame⟩ := block_eq_ok h
  have hturns : (repeated (blockTurn fun _ => statement) none).Nests False 0 0 s.advanced :=
    nests_repeated none s.advanced fun list t _ => nests_blockTurn (fun _ => regular_statement.keeps) list 0 t
  obtain ⟨read, hread, hdepth⟩ := hturns.of_ok hloop
  have hquiet : u.errors = s.advanced.errors := by
    have hu : u.errors = t.errors := by
      show u.builder.errors = t.builder.errors
      rw [Builder.errors, Builder.errors, hsame]
    exact hu.trans herrors
  have hrest : s.advanced.cursor.rest = body ++ c :: tail := by
    show s.cursor.rest.tail = _
    rw [hs, List.tail_cons]
  have hclose : u.cursor.rest = u.cursor.current :: t.cursor.rest := by
    rw [ParseState.rest_eq_cons hkind, hcursor]
    rfl
  have hsplit := hread.rest_eq
  rw [hrest, hclose] at hsplit
  exact (eq_of_matching hbody (hdepth hquiet) hc hkind hsplit).2.symm

/-- In front of a block in a block, with a semicolon behind it. -/
def blockInBlock : ParseState where
  cursor := .ofStream ⟨openingBrace :: ([openingBrace, closingBrace] ++ closingBrace ::
    [⟨.mark .semicolon, ";", ⟨1, 0⟩⟩]), ⟨1, 0⟩⟩
  builder := .start .empty
  limit := 0

/-- The outer block ends with the second of the braces that close. -/
theorem block_matched_blockInBlock :
    depthBehind 0 [openingBrace, closingBrace] = some 0 ∧
      ∃ id t, block blockInBlock = .ok id t ∧ t.errors = blockInBlock.errors ∧
        t.cursor.rest = [⟨.mark .semicolon, ";", ⟨1, 0⟩⟩] := by
  have hbody : depthBehind 0 [openingBrace, closingBrace] = some 0 := by decide
  have hrun : (match block blockInBlock with
      | .ok _ t => t.errors
      | .error .. => 1) = blockInBlock.errors := by
    decide +kernel
  split at hrun
  · next id t h => exact ⟨hbody, id, t, h, hrun, block_matched rfl rfl hbody h hrun⟩
  · contradiction

/-! ### Functions -/

/-- What stands in front of the body of a function, or of the semicolon in its place. -/
def functionHead : Parser NodeId := do
  let _ ← qualifiers
  let type ← dataType
  let name ← expect .name
  expectMark .openParen
  let list ← parameters
  let tie ← semantic
  build (Build.prototype type name.text list tie)

/-- Without a qualifier ahead nothing is read. -/
theorem qualifiers_of_ne (h : s.cursor.current.kind ≠ .qualifier) : qualifiers s = .ok .none s := by
  have hloop : qualifiers s = _ := loop_eq qualifierTurn .none s
  have hturn : qualifierTurn .none s = .ok (.done .none) s := by
    unfold qualifierTurn
    rw [bind_apply, currentKind_apply]
    simp only [if_neg h]
    rfl
  rw [hloop, hturn]

/-- What a type begins with; one that is a name is that name alone. -/
theorem kind_of_dataType {type : DataType} (h : dataType s = .ok type t) :
    s.cursor.current.kind = .typeName ∨ s.cursor.current.kind = .keyword .vectorWord ∨
      s.cursor.current.kind = .keyword .matrixWord ∨
      s.cursor.current.kind = .name ∧ t.cursor = s.cursor.next := by
  obtain ⟨kind, s', hkind, h⟩ := bind_eq_ok h
  obtain ⟨hnext, rfl⟩ := EStateM.Result.ok.inj hkind
  split at h
  · exact .inl hnext
  · exact .inr (.inl hnext)
  · exact .inr (.inr (.inl hnext))
  · obtain ⟨x, t₁, hread, h⟩ := bind_eq_ok h
    obtain ⟨-, rfl⟩ := EStateM.Result.ok.inj hread
    exact .inr (.inr (.inr ⟨hnext, cursor_of_build h⟩))
  · contradiction

/-- The head of a function is read as what a function begins with. -/
theorem functionOrVariables_of_head {head : NodeId} (h : functionHead s = .ok head t) :
    functionOrVariables s = functionEnd head t := by
  obtain ⟨q, t₁, hq, h⟩ := bind_eq_ok h
  obtain ⟨type, t₂, htype, h⟩ := bind_eq_ok h
  obtain ⟨name, t₃, hname, h⟩ := bind_eq_ok h
  obtain ⟨_, t₄, hopen, h⟩ := bind_eq_ok h
  obtain ⟨list, t₅, hlist, h⟩ := bind_eq_ok h
  obtain ⟨tie, t₆, htie, hhead⟩ := bind_eq_ok h
  have hkind := (expectMark_eq_ok hopen).1
  simp only [functionOrVariables, function, bind_apply, currentKind_apply, hq, htype, hname,
    if_pos hkind, hopen, hlist, htie, hhead]

/-- What the head of a function begins with. -/
theorem kind_of_functionHead {head : NodeId} (h : functionHead s = .ok head t) :
    s.cursor.current.kind = .qualifier ∨ s.cursor.current.kind = .typeName ∨
      s.cursor.current.kind = .keyword .vectorWord ∨
      s.cursor.current.kind = .keyword .matrixWord ∨
      s.cursor.current.kind = .name ∧ (s.cursor.peek 1).kind = .name := by
  by_cases hqualifier : s.cursor.current.kind = .qualifier
  · exact .inl hqualifier
  · obtain ⟨q, t₁, hq, hrest⟩ := bind_eq_ok h
    obtain ⟨-, rfl⟩ := EStateM.Result.ok.inj (hq.symm.trans (qualifiers_of_ne hqualifier))
    obtain ⟨type, t₂, htype, hrest⟩ := bind_eq_ok hrest
    obtain ⟨name, t₃, hname, -⟩ := bind_eq_ok hrest
    refine .inr ((kind_of_dataType htype).imp id (.imp id (.imp id ?_)))
    rintro ⟨hkind, hcursor⟩
    refine ⟨hkind, ?_⟩
    have hnext := (expect_eq_ok hname).1
    rwa [hcursor, Cursor.current_eq_peek, Cursor.peek, Cursor.rest_next, List.getElem?_tail] at hnext

/-- **A part of a program that begins with the head of a function goes on with its end.** -/
theorem external_of_functionHead {head : NodeId} (h : functionHead s = .ok head t) :
    external s = (some <$> functionEnd head) t := by
  have hrun := functionOrVariables_of_head h
  have htyped : typedExternal s = functionEnd head t := by
    unfold typedExternal
    rw [bind_apply, currentKind_apply]
    rcases kind_of_functionHead h with hk | hk | hk | hk | ⟨hk, hpeek⟩
    all_goals
      rw [hk]
      dsimp only
    · exact hrun
    · exact hrun
    · exact hrun
    · exact hrun
    · rw [bind_apply, peek_apply]
      simp only [if_pos hpeek]
      exact hrun
  have hexternal : external s = (some <$> typedExternal) s := by
    unfold external
    rw [bind_apply, currentKind_apply]
    rcases kind_of_functionHead h with hk | hk | hk | hk | ⟨hk, -⟩
    all_goals
      rw [hk]
  rw [hexternal, map_eq_pure_bind, map_eq_pure_bind, bind_apply, bind_apply, htyped]

/-- The head of a function leaves a head. -/
theorem obeys_functionHead (s : ParseState) :
    functionHead.Obeys .credit [] (fun _ => False) (fun id => [(id, .prototype)]) s := by
  refine (obeys_qualifiers s).bind fun q t₁ h₁ _ => ?_
  refine (obeys_dataType t₁).bind fun type t₂ h₂ _ => ?_
  refine (obeys_expect .name nofun).bind fun name t₃ h₃ _ => ?_
  refine (obeys_expectMark .openParen).bind fun _ t₄ h₄ _ => ?_
  refine (obeys_parameters t₄).bind fun list t₅ h₅ _ => ?_
  refine (Obeys.beside _ obeys_semantic).bind fun tie t₆ h₆ _ => ?_
  exact obeys_build (Build.grafts_prototype type name.text list tie)

/-- A function is read as one part of a program if its body is read. -/
theorem external_of_block {head body : NodeId} (hhead : functionHead s = .ok head t)
    (hkind : t.cursor.current.kind = .mark .openCurly) (hblock : block t = .ok body u) :
    external s = .ok (some u.builder.arena.nextId)
      { u with builder := u.builder.defined head body } := by
  have hend : functionEnd head t =
      .ok u.builder.arena.nextId { u with builder := u.builder.defined head body } := by
    unfold functionEnd
    rw [bind_apply, currentKind_apply, hkind]
    dsimp only
    rw [bind_apply, hblock]
    rfl
  rw [external_of_functionHead hhead, map_eq_pure_bind, bind_apply, hend]
  rfl

/-- **A function whose body has no braces inside is read as one part of a program**, whatever the
tokens of the body are, and reading goes on behind the closing brace of the body. -/
theorem external_confined {head : NodeId} (hhead : functionHead s = .ok head t)
    (hrest : t.cursor.rest = o :: (body ++ c :: tail)) (ho : o.kind = .mark .openCurly)
    (hc : c.kind = .mark .closeCurly) (hbody : Flat body) {frame : List Part}
    (hheld : s.builder.arena.Holds frame) :
    ∃ id u block, external s = .ok (some id) u ∧ u.cursor.rest = tail ∧ t.Blames (body ++ [c]) u ∧
      u.builder.arena.node? id = some (.definition head block) := by
  have hheld' : t.builder.arena.Holds (frame ++ [(head, .prototype)]) := by
    refine ((obeys_functionHead s).of_ok hhead).2.2 frame ?_
    rwa [List.append_nil]
  have hkind : t.cursor.current.kind = .mark .openCurly := by rw [Cursor.current, hrest, ho]
  obtain ⟨id, u, hblock, htail, hblames⟩ := block_confined hrest ho hc hbody hheld'
  exact ⟨_, _, id, external_of_block hhead hkind hblock, htail, hblames.trans (.of_same rfl),
    Arena.node?_add_self ..⟩

end Grammar

end ShaderLang
