/-
**What a rule with a result has read.**

Some facts about a rule hold whenever it has a result, whatever made it have one: which tokens were read
between its two states, and how they go with the result.  Nothing is said of a rule that ends otherwise.
So a rule that refers to itself needs no bound on the tokens that are left: beyond the bound it has no
result.

Main definitions:

* `ShaderLang.Parser.Consumes` — **something is known of the tokens read and the result**;
* `ShaderLang.Parser.Turn.Known` — what is known of a turn of a repetition.

Main results:

* `ShaderLang.Parser.Consumes.bind` — rules in a row: what they read is put together;
* `ShaderLang.Parser.consumes_of_lands` — a rule of which it is known how it ends;
* `ShaderLang.Parser.consumes_repeated`, `ShaderLang.Parser.consumes_fix` — **rules repeated and referring
  to themselves**.
-/

import ShaderLang.Proofs.Grammar.Course
import ShaderLang.Proofs.Grammar.Inner
import ShaderLang.Proofs.Grammar.Landing
import ShaderLang.Proofs.Grammar.Lookahead

set_option relaxedAutoImplicit false
set_option autoImplicit false

namespace ShaderLang

namespace Parser

variable {ι α β : Type}

/-- If the rule has a result, something is known of the tokens that it has read, of the result and of
what is built then; and everything built before is still there. -/
def Consumes (p : Parser α) (s : ParseState) (known : List Token → Builder → α → Prop) : Prop :=
  ∀ x t, p s = .ok x t → ∃ read, s.cursor.rest = read ++ t.cursor.rest ∧
    s.builder.Extends (fun _ => True) t.builder ∧ known read t.builder x

variable {p : Parser α} {f : α → Parser β} {s : ParseState} {known : List Token → Builder → α → Prop}
  {known' : List Token → Builder → β → Prop} {kind : TokenKind}

namespace Consumes

/-- Rules in a row. -/
theorem bind (hp : p.Consumes s known)
    (hf : ∀ x t read, s.cursor.rest = read ++ t.cursor.rest →
      s.builder.Extends (fun _ => True) t.builder → known read t.builder x →
      (f x).Consumes t fun more => known' (read ++ more)) : (p >>= f).Consumes s known' := by
  intro y u hy
  obtain ⟨x, t, hx, hy⟩ := bind_eq_ok hy
  obtain ⟨read, hread, hgrows, hknown⟩ := hp x t hx
  obtain ⟨more, hmore, hgrows', hknown'⟩ := hf x t read hread hgrows hknown y u hy
  exact ⟨read ++ more, by rw [hread, hmore, List.append_assoc], hgrows.trans hgrows', hknown'⟩

/-- Less may be known. -/
theorem mono {known' : List Token → Builder → α → Prop} (hp : p.Consumes s known)
    (h : ∀ read b x, s.builder.Extends (fun _ => True) b → known read b x → known' read b x) :
    p.Consumes s known' := by
  intro x t hx
  obtain ⟨read, hread, hgrows, hknown⟩ := hp x t hx
  exact ⟨read, hread, hgrows, h read _ x hgrows hknown⟩

/-- A look at the state, and a rule that depends on what is seen. -/
theorem look {v : α} (hp : p s = .ok v s) (hf : (f v).Consumes s known') :
    (p >>= f).Consumes s known' := by
  intro y u hy
  rw [bind_apply, hp] at hy
  exact hf y u hy

/-- A rule that depends on the kind of the next token. -/
theorem on_kind {f : TokenKind → Parser β} (hf : (f s.cursor.current.kind).Consumes s known') :
    (currentKind >>= f).Consumes s known' :=
  look rfl hf

end Consumes

/-! ### The steps -/

theorem consumes_pure {x : α} (h : known [] s.builder x) : (pure x : Parser α).Consumes s known := by
  intro y t hy
  obtain ⟨rfl, rfl⟩ := EStateM.Result.ok.inj hy
  exact ⟨[], rfl, .refl _, h⟩

theorem consumes_unexpected (allowed : List TokenKind) :
    (unexpected allowed : Parser α).Consumes s known :=
  nofun

/-- A rule of which it is known how it ends. -/
theorem consumes_of_lands {read rest : List Token} {contents : Builder → α → Prop}
    (h : p.Lands (fun _ => True) s rest contents) (hs : s.cursor.rest = read ++ rest) :
    p.Consumes s fun ts b x => ts = read ∧ contents b x := by
  obtain ⟨x, t, hx, rfl, hgrows, hcontents⟩ := h
  intro y u hy
  obtain ⟨rfl, rfl⟩ := EStateM.Result.ok.inj (hx.symm.trans hy)
  exact ⟨read, hs, hgrows, rfl, hcontents⟩

/-- A rule that builds only. -/
theorem consumes_of_lands_here {contents : Builder → α → Prop}
    (h : p.Lands (fun _ => True) s s.cursor.rest contents) :
    p.Consumes s fun ts b x => ts = [] ∧ contents b x :=
  consumes_of_lands h rfl

/-- A new node whose children are grounded. -/
theorem consumes_add {n : Node} (h : ∀ c ∈ n.children, s.builder.arena.Grounded c) :
    (build (Build.add n)).Consumes s fun ts b id =>
      ts = [] ∧ b.arena.Grounded id ∧ b.arena.node? id = some n :=
  consumes_of_lands_here (lands_add h)

/-- Reading a token that is not the end. -/
theorem consumes_advance (hkind : s.cursor.current.kind ≠ .endOfFile) :
    advance.Consumes s fun read _ x => read = [x] ∧ x = s.cursor.current := by
  intro x t hx
  obtain ⟨rfl, rfl⟩ := EStateM.Result.ok.inj hx
  have hpos : 0 < s.cursor.left := Cursor.left_pos_of_kind hkind
  exact ⟨[s.cursor.current], (Cursor.cons_current_next hpos).symm, .position _ _, rfl, rfl⟩

theorem consumes_expect (kind : TokenKind) (hne : kind ≠ .endOfFile) :
    (expect kind).Consumes s fun read _ x => read = [x] ∧ x.kind = kind := by
  refine .on_kind ?_
  split
  · next hkind =>
      refine (consumes_advance (hkind ▸ hne)).mono fun read _ x _ hx => ?_
      exact ⟨hx.1, hx.2 ▸ hkind⟩
  · exact consumes_unexpected _

theorem consumes_expectMark (m : Mark) :
    (expectMark m).Consumes s fun read _ _ => ∃ x, read = [x] ∧ x.kind = .mark m := by
  refine (consumes_expect (.mark m) nofun).bind fun x t read _ _ hread => ?_
  exact consumes_pure ⟨x, by rw [List.append_nil]; exact hread⟩

theorem consumes_expectKeyword (k : Keyword) :
    (expectKeyword k).Consumes s fun read _ _ => ∃ x, read = [x] ∧ x.kind = .keyword k := by
  refine (consumes_expect (.keyword k) nofun).bind fun x t read _ _ hread => ?_
  exact consumes_pure ⟨x, by rw [List.append_nil]; exact hread⟩

/-- The next token is read, or it is of another kind. -/
theorem consumes_accept (kind : TokenKind) (hne : kind ≠ .endOfFile) :
    (accept kind).Consumes s fun read _ more =>
      if more then ∃ x, read = [x] ∧ x.kind = kind
      else read = [] ∧ s.cursor.current.kind ≠ kind := by
  refine .on_kind ?_
  split
  · next hkind =>
      refine (consumes_advance (hkind ▸ hne)).bind fun x t read _ _ hx => ?_
      exact consumes_pure ⟨x, by rw [List.append_nil]; exact hx.1, hx.2 ▸ hkind⟩
  · next hkind => exact consumes_pure ⟨rfl, hkind⟩

/-- A step of building that is made of small steps. -/
theorem consumes_build {step : Build α} (h : step.Inner) :
    (build step).Consumes s fun read _ x => read = [] ∧ ∃ b, step s.builder = .ok x b := by
  intro x t hx
  have hgrows := ((inner_build h s).of_ok hx).extends
  refine ⟨[], by rw [cursor_of_build hx]; rfl, hgrows, rfl, ?_⟩
  rcases hb : step s.builder with ⟨y, b⟩ | ⟨e, b⟩
  · rw [build_ok hb] at hx
    obtain ⟨rfl, -⟩ := EStateM.Result.ok.inj hx
    exact ⟨b, rfl⟩
  · rw [build_error hb] at hx
    contradiction

/-! ### Repetition and recursion -/

/-- What is known of a turn that goes on, and of one that is done. -/
def Turn.Known (again : β → Prop) (done : α → Prop) : Turn β α → Prop
  | .again b => again b
  | .done x => done x

/-- **A repetition consumes what all its turns consume.**  The induction is on the tokens left;
`read` are the tokens of the turns before. -/
theorem consumes_repeated {turn : β → Parser (Turn β α)} {before : List Token → Builder → β → Prop}
    (h : ∀ read b t, before read t.builder b →
      (turn b).Consumes t fun more bld =>
        Turn.Known (before (read ++ more) bld) (known (read ++ more) bld))
    (read : List Token) (b : β) (s : ParseState) (hb : before read s.builder b) :
    (repeated turn b).Consumes s fun more => known (read ++ more) := by
  induction hleft : s.left using Nat.strongRecOn generalizing read b s with
  | ind l ih =>
      subst hleft
      intro x u hx
      have hloop : repeated turn b s = _ := loop_eq turn b s
      rw [hloop] at hx
      split at hx
      · next y t hturn =>
          obtain ⟨rfl, rfl⟩ := EStateM.Result.ok.inj hx
          exact h read b s hb _ t hturn
      · next b' t hturn =>
          split at hx
          · next hlt =>
              obtain ⟨more, hmore, hgrows, hagain⟩ := h read b s hb _ t hturn
              obtain ⟨last, hlast, hgrows', hknown⟩ := ih t.left hlt _ b' t hagain rfl x u hx
              refine ⟨more ++ last, by rw [hmore, hlast, List.append_assoc],
                hgrows.trans hgrows', ?_⟩
              show known (read ++ (more ++ last)) u.builder x
              rwa [← List.append_assoc]
          · contradiction
      · contradiction

/-- **What a rule that refers to itself consumes, given that the references consume the like.**  The
induction is on the tokens left. -/
theorem consumes_fix {rule : (ι → Parser α) → ι → Parser α}
    {known : Structs → List Token → Builder → α → Prop}
    (h : ∀ inner : ι → Parser α, (∀ j s, (inner j).Consumes s (known s.builder.structs)) →
      ∀ i s, (rule inner i).Consumes s (known s.builder.structs)) (i : ι) (s : ParseState) :
    Consumes (fix rule i) s (known s.builder.structs) := by
  induction hleft : s.left using Nat.strongRecOn generalizing i s with
  | ind l ih =>
      subst hleft
      intro x t hx
      rw [fix_eq_below] at hx
      refine h _ (fun j u y v hy => ?_) i s x t hx
      -- beyond the bound there is no result
      by_cases hlt : u.left < s.left
      · exact ih u.left hlt j u rfl y v ((below_apply hlt).symm.trans hy)
      · simp only [below, if_neg hlt] at hy
        contradiction

end Parser

end ShaderLang
