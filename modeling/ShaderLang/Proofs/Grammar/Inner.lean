/-
**Rules inside a part of a program build in small steps.**

Some relations hold between the state where a rule begins and the one where it ends, with a result, at a
token that it does not allow or with a fault: those that hold where nothing is done, where a token is read
or reported, where a sound step is built, and in a row.  That a rule leads along such a relation is told
from how it is put together.

One of them is to build in small steps.  Expressions, types, declarations of variables, parameters, the
lines of a struct and statements are all read without entering or leaving a function and without touching
the structs.  Another is to open no struct.

Main definitions:

* `ShaderLang.Parser.Lasting` — a relation that lasts through the rules of a place;
* `ShaderLang.Parser.Inner` — a rule that builds in small steps.

Main results:

* `ShaderLang.Parser.Composed.leads` — **rules lead along relations that last**;
* `ShaderLang.Parser.Regular.inner` — **rules inside a part of a program build in small steps**;
* `ShaderLang.Parser.Regular.names_eq` — **functions and declarations of variables open no struct**.
-/

import ShaderLang.Proofs.Builder.Steps
import ShaderLang.Proofs.Grammar.Rules

set_option relaxedAutoImplicit false
set_option autoImplicit false

namespace ShaderLang

namespace Parser

open Builder ParseState

variable {α β : Type}

/-! ### The ends of a rule -/

/-- The state in which a rule ends, whatever it ends with. -/
def after (p : Parser α) (s : ParseState) : ParseState :=
  match p s with
  | .ok _ t => t
  | .error _ t => t

/-- A relation that lasts through the rules of a place: it holds where nothing is done, in a row, where a
token is read or reported, and where something sound is built. -/
structure Lasting (site : Site) (R : ParseState → ParseState → Prop) : Prop where
  refl : ∀ s, R s s
  trans : ∀ {s t u}, R s t → R t u → R s u
  read : ∀ s, R s s.advanced
  reported : ∀ (s : ParseState) (found : Token) (allowed : List TokenKind),
    R s (s.reported found allowed)
  build : ∀ {α : Type} {step : Build α} {words : List Token} {known : List Fact} {gives : α → List Fact},
    step.Sound site words known gives → ∀ s, R s ((Parser.build step).after s)

/-- The relation holds between the state and the one where the rule ends. -/
def Leads (R : ParseState → ParseState → Prop) (p : Parser α) (s : ParseState) : Prop := R s (p.after s)

section Leads

variable {site : Site} {R : ParseState → ParseState → Prop} {p q : Parser α} {f : α → Parser β}
  {s t : ParseState}

theorem leads_of_ok {x : α} (hp : p s = .ok x t) (h : R s t) : p.Leads R s := by
  unfold Leads after
  rwa [hp]

theorem leads_of_error {e : Halt} (hp : p s = .error e t) (h : R s t) : p.Leads R s := by
  unfold Leads after
  rwa [hp]

namespace Leads

theorem of_ok (h : p.Leads R s) {x : α} (hp : p s = .ok x t) : R s t := by
  unfold Leads after at h
  rwa [hp] at h

theorem of_error (h : p.Leads R s) {e : Halt} (hp : p s = .error e t) : R s t := by
  unfold Leads after at h
  rwa [hp] at h

/-- A rule that goes on as another one does behind a state that was reached. -/
theorem behind (hR : Lasting site R) (hst : R s t) (hq : q.Leads R t) (hrun : p s = q t) :
    p.Leads R s := by
  unfold Leads after at hq ⊢
  rw [hrun]
  exact hR.trans hst hq

theorem congr (hq : q.Leads R s) (hrun : p s = q s) : p.Leads R s := by
  unfold Leads after at hq ⊢
  rwa [hrun]

/-- Rules in a row. -/
theorem bind (hR : Lasting site R) (hp : p.Leads R s) (hf : ∀ x t, (f x).Leads R t) :
    (p >>= f).Leads R s := by
  rcases hps : p s with ⟨x, t⟩ | ⟨e, t⟩
  · exact .behind hR (hp.of_ok hps) (hf x t) (by rw [bind_apply, hps])
  · exact leads_of_error (by rw [bind_apply, hps]) (hp.of_error hps)

end Leads

/-- A rule that depends on the kind of the next token. -/
theorem leads_on_kind {f : TokenKind → Parser β} (hf : ∀ kind, (f kind).Leads R s) :
    (currentKind >>= f).Leads R s :=
  .congr (hf s.cursor.current.kind) (by rw [bind_apply, currentKind_apply])

variable (hR : Lasting site R)
include hR

theorem leads_pure (x : α) (s : ParseState) : (pure x : Parser α).Leads R s := hR.refl s

theorem leads_expect (kind : TokenKind) (s : ParseState) : (expect kind).Leads R s := by
  by_cases hkind : s.cursor.current.kind = kind
  · exact leads_of_ok (expect_of_kind hkind) (hR.read s)
  · exact leads_of_error (expect_of_ne hkind) (hR.refl s)

theorem leads_expectMark (m : Mark) (s : ParseState) : (expectMark m).Leads R s :=
  .bind hR (leads_expect hR (.mark m) s) fun _ => leads_pure hR ()

/-- A token is passed over. -/
theorem leads_skip (hq : ∀ t, q.Leads R t) : (advance >>= fun _ => q).Leads R s :=
  .bind hR (hR.read s) fun _ => hq

/-- The induction is on the tokens left. -/
theorem leads_repeated {turn : β → Parser (Turn β α)} (h : ∀ b t, (turn b).Leads R t) (b : β)
    (s : ParseState) : (repeated turn b).Leads R s := by
  induction hleft : s.left using Nat.strongRecOn generalizing b s with
  | ind l ih =>
      subst hleft
      refine .congr (.bind hR (h b s) fun outcome t => ?_) (repeated_eq_oneTurn turn b s)
      cases outcome with
      | done x => exact leads_pure hR x t
      | again b' =>
          by_cases hlt : t.left < s.left
          · exact .congr (ih t.left hlt b' t rfl) (below_apply hlt)
          · exact leads_of_error (if_neg hlt) (hR.refl t)

/-- A rule that may break off, and what follows the report. -/
theorem leads_attempt {f : Except (Token × List TokenKind) α → Parser β} {next : Parser β}
    (hp : p.Leads R s) (hok : ∀ x t, (f (.ok x)).Leads R t)
    (hreport : ∀ found allowed, f (.error (found, allowed)) = report found allowed >>= fun _ => next)
    (hnext : ∀ t, next.Leads R t) : (attempt p >>= f).Leads R s := by
  refine .bind hR ?_ fun answer t => ?_
  · rcases hps : p s with ⟨x, t⟩ | ⟨⟨found, allowed⟩ | e, t⟩
    · exact leads_of_ok (x := .ok x) (by rw [attempt, hps]) (hp.of_ok hps)
    · exact leads_of_ok (x := .error (found, allowed)) (by rw [attempt, hps]) (hp.of_error hps)
    · exact leads_of_error (by rw [attempt, hps]) (hp.of_error hps)
  · rcases answer with ⟨found, allowed⟩ | x
    · rw [hreport]
      exact .bind hR (hR.reported t found allowed) fun _ => hnext
    · exact hok x t

/-! ### Blocks -/

theorem leads_recoverStatement (s : ParseState) : Grammar.recoverStatement.Leads R s := by
  refine leads_repeated hR (fun _ t => leads_on_kind fun kind => ?_) () s
  split
  · exact leads_pure hR _ t
  · exact leads_pure hR _ t
  · exact leads_skip hR (leads_pure hR _)
  · exact leads_skip hR (leads_pure hR _)

/-- A statement of a block that broke a rule is reported and passed over. -/
theorem leads_blockRule {inner : Unit → Parser NodeId} (hi : ∀ u t, (inner u).Leads R t)
    (s : ParseState) : (Grammar.blockRule inner).Leads R s := by
  have hadd {n : Node} (hplain : n.isPlain = true) (hnames : n.names = []) (hsize : n.size? = none)
      (htypes : n.types = []) (t : ParseState) : (build (Build.add n)).Leads R t := by
    have hsound : (Build.add n).Sound site [] [] nothing :=
      Build.sound_add hplain hnames hsize htypes
    exact hR.build hsound t
  have hturn (list : Option NodeId) (t : ParseState) : (Grammar.blockTurn inner list).Leads R t := by
    refine leads_on_kind fun kind => ?_
    split
    · exact leads_pure hR _ t
    · exact leads_pure hR _ t
    · refine leads_attempt hR (hi () t) (fun item t => ?_) (fun _ _ => rfl) fun t => ?_
      · refine .bind hR (.bind hR (hadd rfl rfl rfl rfl t) fun _ => leads_pure hR _) fun _ => ?_
        exact leads_pure hR _
      · exact .bind hR (leads_recoverStatement hR t) fun _ => leads_pure hR _
  refine .bind hR (leads_expectMark hR _ s) fun _ t => ?_
  refine .bind hR (leads_repeated hR hturn none t) fun list t => ?_
  exact .bind hR (leads_expectMark hR _ t) fun _ => hadd rfl rfl rfl rfl

end Leads

/-- What lasts where more may be built lasts inside a part of a program. -/
theorem Lasting.inside {site : Site} {R : ParseState → ParseState → Prop} (hR : Lasting site R) :
    Lasting .inside R :=
  ⟨hR.refl, hR.trans, hR.read, hR.reported, fun h => hR.build h.of_inside⟩

/-- **Rules lead along relations that last.**  The induction is on how the rule is put together. -/
theorem Composed.leads {site : Site} {words : List Token} {known : List Fact} {next : Token → Prop}
    {d e : Nat} {p : Parser α} {gives : α → List Fact} (h : Composed site words known next d e p gives)
    {R : ParseState → ParseState → Prop} (hR : Lasting site R) {s : ParseState}
    (hs : next s.cursor.current) : p.Leads R s := by
  induction h generalizing s with
  | pure x => exact hR.refl s
  | unexpected allowed => exact hR.refl s
  | fault f => exact hR.refl s
  | build sound => exact hR.build sound s
  | bind first rest ihFirst ihRest => exact .bind hR (ihFirst hR hs) fun x t => ihRest x hR trivial
  | look looks rest ih =>
      obtain ⟨x, hx, hrun⟩ := looks s
      refine .congr (ih x hR ⟨hs, hx⟩) ?_
      rw [bind_apply, hrun s (.refl s)]
  | advance shifts congr rest ih => exact .behind hR (hR.read s) (ih _ hs hR trivial) rfl
  | ofLeft q agrees each ih => exact .congr (ih s.left hR hs) (agrees s)
  | block statements ih => exact leads_blockRule hR (fun u t => ih u [] [] anyToken 0 hR.inside trivial) s

/-! ### Small steps -/

/-- The rule builds in small steps, wherever it ends. -/
def Inner (p : Parser α) : Prop := ∀ s, p.Leads (fun s t => Steps s.builder t.builder) s

theorem after_build (step : Build α) (s : ParseState) :
    ((build step).after s).builder = step.after s.builder := by
  unfold after Build.after
  rcases hb : step s.builder with ⟨x, b⟩ | ⟨e, b⟩
  · rw [build_ok hb]
  · rw [build_error hb]

theorem inner_build {step : Build α} (h : step.Inner) : (build step).Inner := by
  intro s
  show Steps s.builder ((build step).after s).builder
  rw [after_build]
  exact h s.builder

/-- To build in small steps is a relation that lasts inside a part of a program. -/
theorem lasting_steps : Lasting .heading fun s t => Steps s.builder t.builder where
  refl := fun _ => .refl _
  trans := .trans
  read := fun s => (Step.position s.cursor.current.position).steps
  reported := fun _ found _ => (Step.report _ found.position).steps
  build := fun h => inner_build (h.inner rfl)

/-- **Rules inside a part of a program build in small steps.** -/
theorem Composed.inner {words : List Token} {known : List Fact} {d e : Nat} {p : Parser α}
    {gives : α → List Fact} (h : Composed .heading words known anyToken d e p gives) : p.Inner :=
  fun _ => h.leads lasting_steps trivial

theorem Regular.inner {p : Parser α} (h : p.Regular .heading) : p.Inner := (h [] [] anyToken 0).inner

theorem inner_statement : Grammar.statement.Inner :=
  fun _ => (Grammar.regular_statement [] [] anyToken 0).leads lasting_steps.inside trivial

theorem inner_expect (kind : TokenKind) : (expect kind).Inner :=
  leads_expect lasting_steps kind

theorem inner_expectMark (m : Mark) : (expectMark m).Inner :=
  leads_expectMark lasting_steps m

/-- What is passed over between the parts of a program. -/
theorem inner_recover : Grammar.recover.Inner := by
  have hR := lasting_steps
  refine leads_repeated hR (fun _ t => leads_on_kind fun kind => ?_) ()
  split
  · exact leads_pure hR _ t
  · exact leads_skip hR (leads_pure hR _)
  · exact leads_skip hR (leads_pure hR _)
  · exact leads_skip hR (leads_pure hR _)

/-! ### Structs -/

/-- That no struct is opened lasts through functions and declarations of variables. -/
theorem lasting_names :
    Lasting .around fun s t => t.builder.structs.names = s.builder.structs.names where
  refl := fun _ => rfl
  trans := fun h h' => h'.trans h
  read := fun _ => rfl
  reported := fun _ _ _ => rfl
  build := fun h s => after_build _ s ▸ h.names nofun s.builder

/-- **Functions and declarations of variables open no struct.** -/
theorem Regular.names_eq {p : Parser α} (h : p.Regular .around) (s : ParseState) :
    (p.after s).builder.structs.names = s.builder.structs.names :=
  (h [] [] anyToken 0).leads lasting_names trivial

theorem names_eq_of_expect (kind : TokenKind) (s : ParseState) :
    ((expect kind).after s).builder.structs.names = s.builder.structs.names :=
  leads_expect lasting_names kind s

end Parser

end ShaderLang
