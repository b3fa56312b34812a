/-
**The rules of the grammar keep the depth of braces.**

Types, expressions, declarations and statements read as many opening as closing braces, and so do the
parts of a program.  This is told from how a rule is put together, which says for each token how deep the
braces are behind it.  Only inside the braces of a block are statements passed over that break a rule;
outside of them a closing brace is left alone.

Main results:

* `ShaderLang.Grammar.nests_blockTurn` — one more statement of a block, or a report of a token;
* `ShaderLang.Parser.Composed.nests`, `ShaderLang.Parser.Regular.keeps` — **rules take the depth of braces
  from where it was to where they say**;
* `ShaderLang.Grammar.nests_program` — **a program none of whose tokens is reported keeps the depth**,
  if no brace is spelled as the word `void`.
-/

import ShaderLang.Proofs.Grammar.Nesting
import ShaderLang.Proofs.Grammar.Orderly

set_option relaxedAutoImplicit false
set_option autoImplicit false

namespace ShaderLang

namespace Grammar

open ShaderLang.Parser

variable {inner : Unit → Parser NodeId} {d : Nat} {s : ParseState}

/-! ### Blocks -/

/-- A rule that may break off, if the token that it does not allow is reported and what is passed over
then is inside of braces. -/
theorem nests_attempt {α β : Type} {p : Parser α} {f : Except (Token × List TokenKind) α → Parser β}
    (hp : p.Nests False d d s) (hok : ∀ x, (f (.ok x)).Keeps)
    (herror : ∀ found allowed t y u, f (.error (found, allowed)) t = .ok y u →
      t.errors < u.errors ∧ u.cursor.rest <:+ t.cursor.rest)
    (htolerant : ∀ e, (f (.error e)).Tolerant) : (attempt p >>= f).Nests False d d s := by
  rcases hps : p s with ⟨x, t⟩ | ⟨⟨found, allowed⟩ | e, t⟩
  · have hbind : (attempt p >>= f) s = (p >>= fun x => f (.ok x)) s := by
      simp only [bind_apply, attempt, hps]
    exact Nests.congr (hp.andThen hok) hbind
  · have hbind : (attempt p >>= f) s = f (.error (found, allowed)) t := by
      simp only [bind_apply, attempt, hps]
    obtain ⟨read, hread⟩ := hp.of_unexpected hps
    refine .intro (fun y u hy => ?_) fun found' allowed' u hy => ?_
    · obtain ⟨hlt, more, hmore⟩ := herror found allowed t y u (hbind.symm.trans hy)
      have hle := hread.errors_le
      refine ⟨read ++ more, ⟨?_, by omega, False.elim⟩, fun hsame => by omega⟩
      rw [hread.rest_eq, ← hmore, List.append_assoc]
    · exact absurd (hbind.symm.trans hy) (htolerant _ t found' allowed' u)
  · unfold Nests
    simp only [bind_apply, attempt, hps]

/-- The report of a token that is not allowed is there behind the tokens that are passed over. -/
theorem reported_course {s t u : ParseState} {settled : Bool} {found : Token}
    {allowed : List TokenKind} (hreport : report found allowed s = .ok () t)
    (hcourse : t.Course settled u) : s.errors < u.errors ∧ u.cursor.rest <:+ s.cursor.rest := by
  obtain ⟨t', ht', hcursor, -, herrors⟩ := report_apply found allowed s
  obtain ⟨-, rfl⟩ := EStateM.Result.ok.inj (ht'.symm.trans hreport)
  refine ⟨Nat.lt_of_lt_of_le (by omega) hcourse.errors_le, ?_⟩
  rw [← hcursor]
  exact hcourse.suffix

/-- One more statement of a block.  One that breaks a rule is reported and passed over up to some
semicolon or closing brace, so this is said of blocks only. -/
theorem nests_blockTurn (hi : ∀ u, (inner u).Keeps) (list : Option NodeId) (d : Nat)
    (s : ParseState) : (blockTurn inner list).Nests False d d s := by
  refine .look (currentKind_apply s) ?_
  split
  · exact keeps_pure _ False d s
  · exact keeps_pure _ False d s
  · refine nests_attempt (hi () False d s) (fun item => ?_) (fun found allowed t y u h => ?_)
      fun _ => ?_
    · exact (keeps_buildLink .statements list item).bind fun _ => keeps_pure _
    · obtain ⟨_, t₁, hreport, h⟩ := bind_eq_ok h
      obtain ⟨_, t₂, hrecover, h⟩ := bind_eq_ok h
      obtain ⟨-, rfl⟩ := EStateM.Result.ok.inj h
      obtain ⟨settled, hcourse⟩ := (rests_recoverStatement .start hrecover).course
      exact reported_course hreport hcourse
    · exact (tolerant_report _ _).bind fun _ => tolerant_recoverStatement.bind fun _ => tolerant_pure _

/-- Statements between braces leave the depth as it was in front of them. -/
theorem keeps_blockRule (hi : ∀ u, (inner u).Keeps) : (blockRule inner).Keeps := by
  intro outside d s
  refine nests_expectOpen.bind_of False (fun _ t₁ _ => ?_) fun _ hsame => by omega
  have hturns := nests_repeated none t₁ fun list t _ => nests_blockTurn hi list (d + 1) t
  exact hturns.bind fun list t₂ _ => nests_expectClose.andThen fun _ => keeps_add _

/-! ### Tokens -/

/-- No brace is spelled as the word `void`, which is read by its text. -/
def NoVoidBrace (ts : List Token) : Prop := ∀ x ∈ ts, x.kind.isBrace = true → x.text ≠ "void"

instance (ts : List Token) : Decidable (NoVoidBrace ts) :=
  inferInstanceAs (Decidable (∀ x ∈ ts, x.kind.isBrace = true → x.text ≠ "void"))

theorem NoVoidBrace.suffix {ts us : List Token} (h : NoVoidBrace us) (hts : ts <:+ us) :
    NoVoidBrace ts :=
  fun x hx => h x (hts.subset hx)

theorem NoVoidBrace.current {c : Cursor} (h : NoVoidBrace c.rest) (htext : c.current.text = "void") :
    c.current.kind.isBrace = false := by
  unfold Cursor.current at htext ⊢
  split
  · next t ts hrest =>
      rw [hrest] at htext
      refine eq_false_of_ne_true fun hbrace => ?_
      exact h t (hrest ▸ List.mem_cons_self ..) hbrace htext
  · rfl

end Grammar

/-! ### How rules are put together -/

/-- What is no brace leaves the depth as it is. -/
theorem TokenKind.eq_of_shifts {kind : TokenKind} {d e : Nat} (hkind : kind.isBrace = false)
    (h : kind.Shifts d e) : d = e := by
  unfold Shifts at h
  split at h
  · contradiction
  · contradiction
  · exact h

namespace Parser

variable {α : Type} {outside : Prop} {base d e : Nat} {s : ParseState}

/-- A token that is read takes the depth to where its kind says. -/
theorem passes_of_shifts (h : s.cursor.current.kind.Shifts d e) :
    ∃ read, s.Passes (outside ∧ d = 0) read s.advanced ∧
      depthBehind (base + d) read = some (base + e) := by
  cases hbrace : s.cursor.current.kind.isBrace with
  | false =>
      obtain ⟨read, hread, hdepth⟩ := ParseState.passes_advanced (outside ∧ d = 0) hbrace
      obtain rfl := TokenKind.eq_of_shifts hbrace h
      exact ⟨read, hread, hdepth (base + d)⟩
  | true =>
      rcases kind_of_isBrace hbrace with hkind | hkind
      · obtain rfl : e = d + 1 := by rwa [hkind] at h
        refine ⟨_, .opened hkind, ?_⟩
        rw [depthBehind_of_open hkind, depthBehind_nil]
        rfl
      · obtain rfl : d = e + 1 := by rwa [hkind] at h
        refine ⟨_, (ParseState.Passes.closed hkind).mono (fun hs => nomatch hs.2), ?_⟩
        rw [← Nat.add_assoc, depthBehind_of_close hkind, depthBehind_nil]

/-- **Rules take the depth of braces from where it was to where they say**, counted from the depth where
they began, and outside of all braces they stay there up to the first one that opens.  The induction is on
how the rule is put together. -/
theorem Composed.nests {site : Site} {words : List Token} {known : List Fact} {next : Token → Prop}
    {p : Parser α} {gives : α → List Fact} (h : Composed site words known next d e p gives)
    (hs : next s.cursor.current) (hvoid : site ≠ .inside → Grammar.NoVoidBrace s.cursor.rest) :
    p.Nests (outside ∧ d = 0) (base + d) (base + e) s := by
  induction h generalizing outside base s with
  | pure x => exact keeps_pure x _ _ s
  | unexpected allowed => exact nests_unexpected allowed
  | fault f => trivial
  | build sound => exact keeps_build sound.errors _ _ s
  | @bind _ _ _ _ _ e _ _ _ _ _ _ _ first rest ihFirst ihRest =>
      refine (ihFirst hs hvoid).bind_of (outside ∧ e = 0) (fun x t ht => ihRest x trivial ?_) ?_
      · exact fun hsite => (hvoid hsite).suffix ht
      · rintro ⟨hs, rfl⟩ hsame
        exact ⟨hs, by omega⟩
  | look looks rest ih =>
      obtain ⟨x, hx, hrun⟩ := looks s
      exact .look (hrun s (.refl s)) (ih x ⟨hs, hx⟩ hvoid)
  | @advance _ _ _ _ d e _ _ _ _ shifts congr rest ih =>
      have hread : ∃ read, s.Passes (outside ∧ d = 0) read s.advanced ∧
          depthBehind (base + d) read = some (base + e) := by
        rcases shifts _ hs with hshifts | ⟨hsite, htext, rfl⟩
        · exact passes_of_shifts hshifts
        · -- the token is spelled as the word, so it is no brace
          refine passes_of_shifts (TokenKind.shifts_of_plain ?_ d)
          exact (hvoid hsite).current htext
      obtain ⟨read, hread, hdepth⟩ := hread
      have hrest : Nests (outside ∧ e = 0) (base + e) _ _ s.advanced :=
        ih _ hs trivial fun hsite => (hvoid hsite).suffix hread.suffix
      refine .behind hread (fun _ => hdepth) hrest ?_ rfl
      rintro ⟨hs, rfl⟩ hsame
      exact ⟨hs, by omega⟩
  | ofLeft q agrees each ih => exact (ih s.left hs hvoid).congr (agrees s)
  | @block _ _ _ _ d inner _ ih =>
      have hstatements : ∀ u, (inner u).Keeps := fun u outside base t =>
        (ih u [] [] anyToken 0 trivial fun hsite => absurd rfl hsite).mono fun hs => ⟨hs, rfl⟩
      exact Grammar.keeps_blockRule hstatements _ _ s

/-- Rules inside a part of a program keep the depth. -/
theorem Regular.keeps {p : Parser α} (h : p.Regular .inside) : p.Keeps :=
  fun _ _ _ => ((h [] [] anyToken 0).nests trivial fun hsite => absurd rfl hsite).mono fun hs =>
    ⟨hs, rfl⟩

end Parser

namespace Grammar

open ShaderLang.Parser

variable {d : Nat} {s : ParseState}

/-! ### Programs -/

/-- A part of a program keeps the depth, unless a brace is taken for the word `void`. -/
theorem nests_external (outside : Prop) (h : NoVoidBrace s.cursor.rest) :
    external.Nests outside d d s :=
  ((regular_external [] [] anyToken 0).nests trivial fun _ => h).mono fun hs => ⟨hs, rfl⟩

/-- One more part of a program, or a report of a token. -/
theorem nests_programTurn (h : NoVoidBrace s.cursor.rest) (list : Option NodeId) :
    (programTurn list).Nests False d d s := by
  refine .look (hasTokens_apply s) ?_
  split
  · refine nests_attempt (nests_external False h) (fun item => ?_) (fun found allowed t y u h => ?_)
      fun _ => ?_
    · cases item with
      | none => exact keeps_pure _
      | some item => exact (keeps_buildLink .externals list item).bind fun _ => keeps_pure _
    · obtain ⟨_, t₁, hreport, h⟩ := bind_eq_ok h
      obtain ⟨_, t₂, hleave, h⟩ := bind_eq_ok h
      obtain ⟨-, rfl⟩ := EStateM.Result.ok.inj hleave
      obtain ⟨_, t₃, hrecover, h⟩ := bind_eq_ok h
      obtain ⟨-, rfl⟩ := EStateM.Result.ok.inj h
      obtain ⟨settled, hcourse⟩ := (rests_recover (.leave .start) hrecover).course
      exact reported_course hreport hcourse
    · refine (tolerant_report _ _).bind fun _ => (tolerant_build _).bind fun _ => ?_
      exact tolerant_recover.bind fun _ => tolerant_pure _
  · exact keeps_pure _ False d s

/-- **A program none of whose tokens is reported keeps the depth of braces.** -/
theorem nests_program (h : NoVoidBrace s.cursor.rest) : program.Nests False d d s :=
  nests_repeated none s fun list _ ht => nests_programTurn (h.suffix ht) list

end Grammar

end ShaderLang
