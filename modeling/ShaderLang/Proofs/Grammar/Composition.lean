/-
**How rules are put together.**

A rule of the grammar looks at the tokens ahead, reads a token, takes a step of building or meets a token
that it does not allow; rules are put in a row, repeated and referred to, and statements are put into a
block.  That is all there is to a rule, as long as nothing is asked of it but what follows from its
parts: that what it does depends on the words alone, that it builds in small steps, that the types it
keeps are admitted, that it reads as many opening as closing braces.  Each of these is proved by one
induction on how a rule is put together, with one case for each way, and not by going through the rules.

So that the parts can be told what they rely on, it is carried along: the words that were read, what was
found out of types, and what a look has shown of the next token.  The depth of braces is counted from where
the rule began.

What a rule takes and leaves, which tokens its nodes stand for and how far it looks ahead is another thing
for each rule; that is not told from how rules are put together.

Main definitions:

* `ShaderLang.Parser.Looks` — a rule that only looks ahead, and what it shows of the next token;
* `ShaderLang.Parser.Composed` — **how a rule is put together**;
* `ShaderLang.Parser.Regular` — a rule that relies on nothing, finds nothing out, and keeps the depth.

Main results:

* `ShaderLang.Parser.Composed.expect`, `ShaderLang.Parser.Composed.on_kind` — reading tokens;
* `ShaderLang.Parser.Composed.repeated`, `ShaderLang.Parser.regular_fix` — **rules that are repeated and
  that refer to themselves**.
-/

import ShaderLang.Proofs.Grammar.Nesting
import ShaderLang.Proofs.Grammar.Programs
import ShaderLang.Proofs.Grammar.Soundness

set_option relaxedAutoImplicit false
set_option autoImplicit false

namespace ShaderLang

/-! ### Looking ahead and reading -/

/-- Behind a token of the kind the braces are as deep as the second number says. -/
def TokenKind.Shifts : TokenKind → Nat → Nat → Prop
  | .mark .openCurly, d, e => e = d + 1
  | .mark .closeCurly, d, e => d = e + 1
  | _, d, e => d = e

theorem TokenKind.shifts_of_plain {kind : TokenKind} (h : kind.isBrace = false) (d : Nat) :
    kind.Shifts d d := by
  unfold Shifts
  split
  · contradiction
  · contradiction
  · rfl

/-- Where the token is read the braces are as deep as the second number says.  Outside of the parts of a
program a token may be read as the word `void` because it is spelled so; it counts as no brace. -/
def Site.Shifts (site : Site) (t : Token) (d e : Nat) : Prop :=
  t.kind.Shifts d e ∨ site ≠ .inside ∧ t.text = "void" ∧ d = e

namespace Parser

variable {ι α β : Type}

/-- The rule only looks ahead, its answer depends on the words alone, and it shows something of the next
token. -/
def Looks (learned : α → Token → Prop) (p : Parser α) : Prop :=
  ∀ s : ParseState, ∃ x, learned x s.cursor.current ∧ ∀ s', s.Alike s' → p s' = .ok x s'

/-! ### Rules that are put together -/

/-- Anything may be the next token. -/
abbrev anyToken : Token → Prop := fun _ => True

/-- How a rule is put together that stands at some place, relies on the words that were read and on some
facts, and on something that is known of the next token, takes the depth of braces from the first number
to the second, and finds something out. -/
inductive Composed : Site → List Token → List Fact → (Token → Prop) → Nat → Nat → {α : Type} →
    Parser α → (α → List Fact) → Prop where
  | pure {site : Site} {words : List Token} {known : List Fact} {next : Token → Prop} {d : Nat}
      {α : Type} (x : α) : Composed site words known next d d (pure x : Parser α) nothing
  | unexpected {site : Site} {words : List Token} {known : List Fact} {next : Token → Prop} {d e : Nat}
      {α : Type} {gives : α → List Fact} (allowed : List TokenKind) :
      Composed site words known next d e (unexpected allowed) gives
  | fault {site : Site} {words : List Token} {known : List Fact} {next : Token → Prop} {d e : Nat}
      {α : Type} {gives : α → List Fact} (f : Fault) :
      Composed site words known next d e (fun s => .error (.fault f) s) gives
  | build {site : Site} {words : List Token} {known : List Fact} {next : Token → Prop} {d : Nat}
      {α : Type} {gives : α → List Fact} {step : Build α} (sound : step.Sound site words known gives) :
      Composed site words known next d d (build step) gives
  | bind {site : Site} {words : List Token} {known : List Fact} {next : Token → Prop} {d e c : Nat}
      {α β : Type} {finds : α → List Fact} {gives : β → List Fact} {p : Parser α} {f : α → Parser β}
      (first : Composed site words known next d e p finds)
      (rest : ∀ x, Composed site words (finds x ++ known) anyToken e c (f x) gives) :
      Composed site words known next d c (p >>= f) gives
  | look {site : Site} {words : List Token} {known : List Fact} {next : Token → Prop} {d e : Nat}
      {α β : Type} {gives : β → List Fact} {learned : α → Token → Prop} {p : Parser α} {f : α → Parser β}
      (looks : p.Looks learned)
      (rest : ∀ x, Composed site words known (fun t => next t ∧ learned x t) d e (f x) gives) :
      Composed site words known next d e (p >>= f) gives
  | advance {site : Site} {words : List Token} {known : List Fact} {next : Token → Prop} {d e c : Nat}
      {β : Type} {gives : β → List Fact} {f : Token → Parser β}
      (shifts : ∀ t, next t → site.Shifts t d e)
      (congr : ∀ t t', t.word = t'.word → f t = f t')
      (rest : ∀ t, next t → Composed site (t :: words) known anyToken e c (f t) gives) :
      Composed site words known next d c (advance >>= f) gives
  | ofLeft {site : Site} {words : List Token} {known : List Fact} {next : Token → Prop} {d e : Nat}
      {α : Type} {gives : α → List Fact} {p : Parser α} (q : Nat → Parser α)
      (agrees : ∀ s, p s = q s.left s) (each : ∀ n, Composed site words known next d e (q n) gives) :
      Composed site words known next d e p gives
  | block {site : Site} {words : List Token} {known : List Fact} {next : Token → Prop} {d : Nat}
      {inner : Unit → Parser NodeId}
      (statements : ∀ u words known next d, Composed .inside words known next d d (inner u) nothing) :
      Composed site words known next d d (Grammar.blockRule inner) nothing

/-- The rule relies on nothing, finds nothing out, and keeps the depth of braces. -/
def Regular (site : Site) (p : Parser α) : Prop :=
  ∀ words known next d, Composed site words known next d d p nothing

variable {site : Site} {words : List Token} {known : List Fact} {next : Token → Prop} {d e c : Nat}
  {p : Parser α} {f : α → Parser β} {gives : β → List Fact}

/-! ### Looks -/

theorem looks_currentKind : currentKind.Looks fun kind t => t.kind = kind :=
  fun s => ⟨s.cursor.current.kind, rfl, fun s' h => by rw [currentKind_apply, h.kind_current]⟩

/-- What is made of a look depends on the words alone if the look does. -/
theorem Looks.derived {learned : α → Token → Prop} (hp : p.Looks learned) (g : α → β) :
    Looks (fun _ _ => True) (p >>= fun x => (pure (g x) : Parser β)) := by
  intro s
  obtain ⟨x, -, hx⟩ := hp s
  exact ⟨g x, trivial, fun s' h => by rw [bind_apply, hx s' h]; rfl⟩

theorem looks_kindAhead (ahead : Nat) :
    Looks (fun _ _ => True) (peek ahead >>= fun t => (pure t.kind : Parser TokenKind)) := by
  intro s
  refine ⟨(s.cursor.peek ahead).kind, trivial, fun s' h => ?_⟩
  rw [bind_apply, peek_apply, Token.kind_eq_of_word (Cursor.word_peek h.words ahead)]
  rfl

theorem looks_typeLength (ahead : Nat) : (Grammar.typeLength ahead).Looks fun _ _ => True := by
  intro s
  refine ⟨s.cursor.typeLength (fun name => (s.builder.structs.lookup name).isSome) ahead, trivial,
    fun s' h => ?_⟩
  rw [Grammar.typeLength_apply, h.typeLength_eq ahead]

/-! ### Rules in a row -/

namespace Composed

/-- A rule behind one that is regular. -/
theorem andThen (hp : p.Regular site)
    (hf : ∀ x, Composed site words known anyToken d e (f x) gives) :
    Composed site words known next d e (p >>= f) gives :=
  .bind (hp words known next d) hf

/-- A rule that depends on the kind of the next token. -/
theorem on_kind {f : TokenKind → Parser β}
    (hf : ∀ kind, Composed site words known (fun t => next t ∧ t.kind = kind) d e (f kind) gives) :
    Composed site words known next d e (currentKind >>= f) gives :=
  .look looks_currentKind hf

/-- A token of a kind that was seen is read, and what comes next depends on its word. -/
theorem read {kind : TokenKind} {f : Token → Parser β} (hshifts : kind.Shifts d e)
    (hcongr : ∀ t t', t.word = t'.word → f t = f t')
    (hf : ∀ t, t.kind = kind → Composed site (t :: words) known anyToken e c (f t) gives) :
    Composed site words known (fun t => next t ∧ t.kind = kind) d c (Parser.advance >>= f) gives :=
  .advance (fun _ ht => .inl (ht.2 ▸ hshifts)) hcongr fun t ht => hf t ht.2

/-- A token of a kind that was seen is read, and what comes next does not depend on it. -/
theorem skip {kind : TokenKind} {q : Parser β} (hshifts : kind.Shifts d e)
    (hq : ∀ t, Composed site (t :: words) known anyToken e c q gives) :
    Composed site words known (fun t => next t ∧ t.kind = kind) d c (Parser.advance >>= fun _ => q)
      gives :=
  .read hshifts (fun _ _ _ => rfl) fun t _ => hq t

/-- A token of a kind is read, and what comes next depends on its word. -/
theorem expect {f : Token → Parser β} (kind : TokenKind) (hshifts : kind.Shifts d e)
    (hcongr : ∀ t t', t.word = t'.word → f t = f t')
    (hf : ∀ t, t.kind = kind → Composed site (t :: words) known anyToken e c (f t) gives) :
    Composed site words known next d c (Parser.expect kind >>= f) gives := by
  rw [expect_bind_eq]
  refine on_kind fun found => ?_
  split
  · next hfound =>
      subst hfound
      exact .read hshifts hcongr hf
  · exact .unexpected _

/-- A mark is read. -/
theorem expectMark (m : Mark) (hshifts : (TokenKind.mark m).Shifts d e) :
    Composed site words known next d e (Parser.expectMark m) nothing :=
  expect (.mark m) hshifts (fun _ _ _ => rfl) fun _ _ => .pure ()

end Composed

/-! ### Regular rules -/

theorem regular_pure (x : α) : (pure x : Parser α).Regular site := fun _ _ _ _ => .pure x

theorem regular_unexpected (allowed : List TokenKind) :
    (unexpected allowed : Parser α).Regular site :=
  fun _ _ _ _ => .unexpected allowed

theorem Regular.bind (hp : p.Regular site) (hf : ∀ x, (f x).Regular site) : (p >>= f).Regular site :=
  fun words known _ d => .andThen hp fun x => hf x words known anyToken d

theorem Regular.map {g : α → β} (hp : p.Regular site) : (g <$> p).Regular site := by
  rw [map_eq_pure_bind]
  exact hp.bind fun x => regular_pure (g x)

/-- A look by itself. -/
theorem Looks.regular {learned : α → Token → Prop} (hp : p.Looks learned) : p.Regular site := by
  intro words known next d
  have hlook : Composed site words known next d d (p >>= pure) nothing := .look hp fun x => .pure x
  rwa [bind_pure] at hlook

theorem regular_currentKind : currentKind.Regular site := looks_currentKind.regular

/-- A rule that depends on the kind of the next token. -/
theorem regular_on_kind {f : TokenKind → Parser β}
    (hf : ∀ kind words known (next : Token → Prop) d,
      Composed site words known (fun t => next t ∧ t.kind = kind) d d (f kind) nothing) :
    (currentKind >>= f).Regular site :=
  fun words known next d => .on_kind fun kind => hf kind words known next d

theorem regular_accept (kind : TokenKind) (hkind : kind.isBrace = false) :
    (accept kind).Regular site := by
  refine regular_on_kind fun found words known next d => ?_
  split
  · next hfound =>
      subst hfound
      exact .skip (TokenKind.shifts_of_plain hkind d) fun _ => .pure true
  · exact .pure false

theorem regular_expectMark (m : Mark) (hm : (TokenKind.mark m).isBrace = false) :
    (expectMark m).Regular site :=
  fun _ _ _ d => .expectMark m (TokenKind.shifts_of_plain hm d)

theorem regular_expectKeyword (w : Keyword) : (expectKeyword w).Regular site :=
  fun _ _ _ _ => .expect (.keyword w) rfl (fun _ _ _ => rfl) fun _ _ => .pure ()

/-- A step of building that relies on nothing. -/
theorem regular_build {step : Build α} (h : ∀ words known, step.Sound site words known nothing) :
    (build step).Regular site :=
  fun words known _ _ => .build (h words known)

/-- A plain node without names, a size or types. -/
theorem regular_add {n : Node} (hplain : n.isPlain = true) (hnames : n.names = [])
    (hsize : n.size? = none) (htypes : n.types = []) : (build (Build.add n)).Regular site :=
  regular_build fun _ _ => Build.sound_add hplain hnames hsize htypes

theorem isPlain_link {kind : ListKind} (h : kind ≠ .externals) (previous : Option NodeId)
    (item : NodeId) : (Node.link kind previous item).isPlain = true := by
  cases kind <;> first | rfl | exact absurd rfl h

theorem regular_buildLink (kind : ListKind) (h : kind ≠ .externals) (previous : Option NodeId)
    (item : NodeId) : (buildLink kind previous item).Regular site :=
  (regular_add (isPlain_link h previous item) rfl rfl rfl).bind fun _ => regular_pure _

theorem regular_block {inner : Unit → Parser NodeId} (h : ∀ u, (inner u).Regular .inside) :
    (Grammar.blockRule inner).Regular site :=
  fun _ _ _ _ => .block h

/-! ### Repetition and recursion -/

/-- A rule as it is given to a rule that refers to itself. -/
theorem regular_below {rule : ι → Parser α} {n : Nat} (h : ∀ j, (rule j).Regular site) (j : ι) :
    (below n rule j).Regular site := by
  intro words known next d
  refine .ofLeft (fun m s => if m < n then rule j s else .error (.fault .endless) s)
    (fun _ => rfl) fun m => ?_
  by_cases hlt : m < n
  · simp only [if_pos hlt]
    exact h j words known next d
  · simp only [if_neg hlt]
    exact .fault .endless

/-- **Rules that come back to themselves where fewer tokens are left.**  Something holds of each of them
if it passes from all of them, as they are given to each other, to what each of them does where so many
tokens are left.  The induction is on that number. -/
theorem holds_of_left {rule : ι → Parser α} (holds : Parser α → Prop) (step : Nat → ι → Parser α)
    (hstep : ∀ j s, rule j s = step s.left j s)
    (hleft : ∀ (p : Parser α) (q : Nat → Parser α), (∀ s, p s = q s.left s) → (∀ m, holds (q m)) →
      holds p)
    (hfault : holds fun s => .error (.fault .endless) s)
    (h : ∀ n, (∀ j, holds (below n rule j)) → ∀ j, holds (step n j)) (j : ι) : holds (rule j) := by
  have hbelow : ∀ n j, holds (below n rule j) := by
    intro n
    induction n using Nat.strongRecOn with
    | ind n ih =>
        intro j
        refine hleft _ (fun m s => if m < n then step m j s else .error (.fault .endless) s)
          (fun s => ?_) fun m => ?_
        · unfold below
          rw [hstep j s]
        · by_cases hlt : m < n
          · simp only [if_pos hlt]
            exact h m (ih m hlt) j
          · simp only [if_neg hlt]
            exact hfault
  exact hleft _ (fun n => step n j) (hstep j) fun n => h n (hbelow n) j

/-- A rule that refers to itself is regular if it is so where the references are. -/
theorem regular_fix {rule : (ι → Parser α) → ι → Parser α}
    (h : ∀ inner : ι → Parser α, (∀ j, (inner j).Regular site) → ∀ i, (rule inner i).Regular site)
    (i : ι) : Regular site (fix rule i) :=
  holds_of_left (Regular site) (fun n => rule (below n (fix rule))) (fix_eq_below rule)
    (fun _ q hq h words known next d => .ofLeft q hq fun m => h m words known next d)
    (fun _ _ _ _ => .fault .endless) (fun _ hbelow => h _ hbelow) i

/-- **A repetition of turns that find nothing out and keep the depth.** -/
theorem Composed.repeated {turn : β → Parser (Turn β α)}
    (h : ∀ b next, Composed site words known next d d (turn b) nothing) (b : β) :
    Composed site words known next d d (Parser.repeated turn b) nothing := by
  refine holds_of_left (fun p => ∀ next, Composed site words known next d d p nothing) (oneTurn turn)
    (repeated_eq_oneTurn turn) (fun _ q hq h next => .ofLeft q hq fun m => h m next)
    (fun _ => .fault .endless) ?_ b next
  intro n hbelow b next
  refine .bind (h b next) fun outcome => ?_
  cases outcome with
  | done x => exact .pure x
  | again b' => exact hbelow b' anyToken

theorem regular_repeated {turn : β → Parser (Turn β α)} (h : ∀ b, (turn b).Regular site) (b : β) :
    (repeated turn b).Regular site :=
  fun words known _ d => .repeated (fun b next => h b words known next d) b

end Parser

end ShaderLang
