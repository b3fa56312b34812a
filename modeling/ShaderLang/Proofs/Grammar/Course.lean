/-
**The course of reading a program.**

Reading a program reads tokens and builds, and what is built gets the position of the token read
last.  A token that is not allowed is reported at its own position, which lies ahead.  Behind such a
report nothing is built or reported at the present position until a token has been read: a block goes
on behind a semicolon or ends with its closing brace, and at the end of the tokens there is nothing
left to do but to report the end itself.

So every state that is reached has a course behind it, and every rule ends settled when it has a
result: a token was read since the last such report.  Along its course types are only kept that the
catalogue of structs admits.

Main definitions:

* `ShaderLang.ParseState.Course` — the course from one state to another, settled or not;
* `ShaderLang.Parser.Follows`, `ShaderLang.Parser.Orderly` — rules that take such a course.

Main results:

* `ShaderLang.Parser.Follows.bind`, `ShaderLang.Parser.follows_build` — **rules in a row and steps of
  building take a course**;
* `ShaderLang.ParseState.Course.typed` — types that are kept stay admitted.
-/

import ShaderLang.Proofs.Builder.Moves
import ShaderLang.Proofs.Grammar.Conduct

set_option relaxedAutoImplicit false
set_option autoImplicit false

namespace ShaderLang

/-! ### Courses -/

namespace ParseState

/-- The state behind the next token. -/
def advanced (s : ParseState) : ParseState :=
  { s with
    cursor := s.cursor.next
    builder := { s.builder with position := s.cursor.current.position } }

/-- The state in which the next token is reported. -/
def rejecting (s : ParseState) (p : Problem) : ParseState :=
  { s with builder :=
      { s.builder with diagnostics := s.builder.diagnostics.report p s.cursor.current.position } }

/-- The state that has left the function whose body was being built. -/
def outside (s : ParseState) : ParseState := { s with builder := { s.builder with current := none } }

/-- From one state to another by reading, building and reporting tokens that are not allowed.  The
mark says that a token was read since the last such report; only then is anything built. -/
inductive Course (s : ParseState) : Bool → ParseState → Prop where
  | start : Course s true s
  | read {settled : Bool} {t : ParseState} (before : Course s settled t) : Course s true t.advanced
  | moves {t : ParseState} {b : Builder} (before : Course s true t)
      (moves : Builder.Moves t.builder b) : Course s true { t with builder := b }
  | reject {settled : Bool} {t : ParseState} (before : Course s settled t) (p : Problem) :
      Course s false (t.rejecting p)
  | leave {settled : Bool} {t : ParseState} (before : Course s settled t) : Course s settled t.outside

namespace Course

variable {s t u : ParseState} {settled : Bool}

/-- A course behind a course that has settled. -/
theorem trans (h : s.Course true t) (h' : t.Course settled u) : s.Course settled u := by
  induction h' with
  | start => exact h
  | read _ ih => exact .read ih
  | moves _ hmoves ih => exact .moves ih hmoves
  | reject _ p ih => exact .reject ih p
  | leave _ ih => exact .leave ih

/-- No struct is taken out of the catalogue. -/
theorem size_le (h : s.Course settled t) :
    s.builder.structs.size ≤ t.builder.structs.size := by
  induction h with
  | start => exact Nat.le_refl _
  | moves _ hmoves ih => exact Nat.le_trans ih hmoves.size_le
  | read _ ih | reject _ _ ih | leave _ ih => exact ih

/-- The tokens that are left are the last ones. -/
theorem suffix (h : s.Course settled t) : t.cursor.rest <:+ s.cursor.rest := by
  induction h with
  | start => exact List.suffix_refl _
  | read _ ih => exact (List.tail_suffix _).trans ih
  | moves _ _ ih | reject _ _ ih | leave _ ih => exact ih

theorem left_le (h : s.Course settled t) : t.left ≤ s.left := by
  show t.cursor.left ≤ s.cursor.left
  rw [s.cursor.left_eq, t.cursor.left_eq]
  exact h.suffix.length_le

/-- No report is taken back. -/
theorem errors_le (h : s.Course settled t) : s.errors ≤ t.errors := by
  induction h with
  | start => exact Nat.le_refl _
  | moves _ hmoves ih => exact Nat.le_trans ih hmoves.errors_le
  | @reject settled t before p ih =>
      refine Nat.le_trans ih ?_
      show t.builder.errors ≤ (t.rejecting p).builder.errors
      rw [Builder.errors, Builder.errors, ParseState.rejecting, Diagnostics.countP_report]
      exact Nat.le_add_right _ _
  | read _ ih | leave _ ih => exact ih

/-- **Types that are kept stay admitted.** -/
theorem typed (h : s.Course settled t) (hs : s.builder.Typed) : t.builder.Typed := by
  induction h with
  | start => exact hs
  | moves _ hmoves ih => exact ih.moves hmoves
  | read _ ih | reject _ _ ih | leave _ ih => exact ih.of_same rfl rfl rfl

end Course

end ParseState

namespace Parser

open Build

variable {ι α β : Type}

/-! ### Reading a token of a kind -/

section

variable {kind : TokenKind} {s : ParseState}

theorem accept_of_kind (h : s.cursor.current.kind = kind) : accept kind s = .ok true s.advanced := by
  unfold accept
  rw [bind_apply, currentKind_apply]
  simp only [if_pos h]
  rfl

theorem accept_of_ne (h : s.cursor.current.kind ≠ kind) : accept kind s = .ok false s := by
  unfold accept
  rw [bind_apply, currentKind_apply]
  simp only [if_neg h]
  rfl

theorem expect_of_kind (h : s.cursor.current.kind = kind) :
    expect kind s = .ok s.cursor.current s.advanced := by
  unfold expect
  rw [bind_apply, currentKind_apply]
  simp only [if_pos h]
  rfl

theorem expect_of_ne (h : s.cursor.current.kind ≠ kind) :
    expect kind s = .error (.unexpected s.cursor.current [kind]) s := by
  unfold expect
  rw [bind_apply, currentKind_apply]
  simp only [if_neg h]
  rfl

/-- A token that must be of a kind was the next one. -/
theorem expect_eq_ok {x : Token} {t : ParseState} (h : expect kind s = .ok x t) :
    s.cursor.current.kind = kind ∧ t = s.advanced := by
  by_cases hnext : s.cursor.current.kind = kind
  · rw [expect_of_kind hnext] at h
    exact ⟨hnext, (EStateM.Result.ok.inj h).2.symm⟩
  · rw [expect_of_ne hnext] at h
    contradiction

/-- A token that must be of a kind is looked at and read. -/
theorem expect_bind_eq (kind : TokenKind) (f : Token → Parser β) :
    (expect kind >>= f) = (currentKind >>= fun found =>
      if found = kind then advance >>= f else unexpected [kind]) := by
  unfold expect
  rw [bind_assoc]
  refine bind_congr fun found => ?_
  split <;> rfl

theorem expectMark_of_kind {m : Mark} (h : s.cursor.current.kind = .mark m) :
    expectMark m s = .ok () s.advanced := by
  rw [expectMark, bind_apply, expect_of_kind h]
  rfl

theorem expectMark_of_ne {m : Mark} (h : s.cursor.current.kind ≠ .mark m) :
    expectMark m s = .error (.unexpected s.cursor.current [.mark m]) s := by
  rw [expectMark, bind_apply, expect_of_ne h]

/-- A mark that must be there was the next token. -/
theorem expectMark_eq_ok {m : Mark} {x : Unit} {t : ParseState} (h : expectMark m s = .ok x t) :
    s.cursor.current.kind = .mark m ∧ t = s.advanced := by
  obtain ⟨_, t', hexpect, hunit⟩ := bind_eq_ok h
  obtain ⟨-, rfl⟩ := EStateM.Result.ok.inj hunit
  exact expect_eq_ok hexpect

end

/-! ### Rules that take a course -/

/-- With a result the rule has settled, and something is known of the result; a token that it does
not allow is the next one. -/
def Follows (known : α → Structs → Prop) (p : Parser α) (s : ParseState) : Prop :=
  match p s with
  | .ok x t => s.Course true t ∧ known x t.builder.structs
  | .error (.unexpected found _) t => (∃ settled, s.Course settled t) ∧ found = t.cursor.current
  | .error (.fault _) _ => True

/-- The rule takes a course in every state. -/
def Orderly (p : Parser α) : Prop := ∀ s, p.Follows Unknown s

variable {s t : ParseState} {p : Parser α} {f : α → Parser β} {known : α → Structs → Prop}
  {known' : β → Structs → Prop}

namespace Follows

theorem of_ok (h : p.Follows known s) {x : α} (hp : p s = .ok x t) :
    s.Course true t ∧ known x t.builder.structs := by
  unfold Follows at h
  rwa [hp] at h

theorem of_unexpected (h : p.Follows known s) {found : Token} {allowed : List TokenKind}
    (hp : p s = .error (.unexpected found allowed) t) :
    (∃ settled, s.Course settled t) ∧ found = t.cursor.current := by
  unfold Follows at h
  rwa [hp] at h

theorem intro (hok : ∀ x t, p s = .ok x t → s.Course true t ∧ known x t.builder.structs)
    (hun : ∀ found allowed t, p s = .error (.unexpected found allowed) t →
      (∃ settled, s.Course settled t) ∧ found = t.cursor.current) : p.Follows known s := by
  unfold Follows
  split
  · next x t hp => exact hok x t hp
  · next found allowed t hp => exact hun found allowed t hp
  · trivial

/-- Less may be said of the results. -/
theorem mono {known' : α → Structs → Prop} (h : p.Follows known s)
    (hknown : ∀ x structs, known x structs → known' x structs) : p.Follows known' s :=
  .intro (fun _ _ hp => ⟨(h.of_ok hp).1, hknown _ _ (h.of_ok hp).2⟩) fun _ _ _ hp => h.of_unexpected hp

/-- Only what a rule does in the state matters. -/
theorem congr {q : Parser α} (h : q.Follows known s) (hrun : p s = q s) : p.Follows known s := by
  unfold Follows at h ⊢
  rwa [hrun]

/-- A rule that goes on as another one does behind a course that has settled. -/
theorem behind {q : Parser α} (hcourse : s.Course true t) (h : q.Follows known t)
    (hrun : p s = q t) : p.Follows known s := by
  refine intro (fun x u hx => ?_) fun found allowed u hx => ?_
  · obtain ⟨hcourse', hknown⟩ := h.of_ok (hrun.symm.trans hx)
    exact ⟨hcourse.trans hcourse', hknown⟩
  · obtain ⟨⟨settled, hcourse'⟩, hfound⟩ := h.of_unexpected (hrun.symm.trans hx)
    exact ⟨⟨settled, hcourse.trans hcourse'⟩, hfound⟩

/-- A rule that ends early because another one does. -/
theorem of_error {q : Parser β} (h : q.Follows known' s) {e : Halt} (hq : q s = .error e t)
    (hp : p s = .error e t) : p.Follows known s := by
  unfold Follows at h ⊢
  rw [hq] at h
  rw [hp]
  cases e with
  | unexpected => exact h
  | fault => trivial

/-- Rules in a row. -/
theorem bind (hp : p.Follows known s)
    (hf : ∀ x t, s.builder.structs.size ≤ t.builder.structs.size → known x t.builder.structs →
      (f x).Follows known' t) : (p >>= f).Follows known' s := by
  rcases hps : p s with ⟨x, t⟩ | ⟨e, t⟩
  · obtain ⟨hcourse, hknown⟩ := hp.of_ok hps
    exact .behind hcourse (hf x t hcourse.size_le hknown) (by rw [bind_apply, hps])
  · exact .of_error hp hps (by rw [bind_apply, hps])

end Follows

theorem Orderly.bind (hp : p.Orderly) (hf : ∀ x, (f x).Orderly) : (p >>= f).Orderly :=
  fun s => (hp s).bind fun x t _ _ => hf x t

theorem follows_pure {x : α} (h : known x s.builder.structs) : (pure x : Parser α).Follows known s :=
  ⟨.start, h⟩

theorem orderly_pure (x : α) : (pure x : Parser α).Orderly := fun _ => follows_pure trivial

/-! ### Reading tokens -/

theorem orderly_currentKind : currentKind.Orderly := fun _ => ⟨.start, trivial⟩

theorem orderly_advance : advance.Orderly := fun _ => ⟨.read .start, trivial⟩

theorem follows_unexpected (allowed : List TokenKind) :
    (unexpected allowed : Parser α).Follows known s :=
  ⟨⟨true, .start⟩, rfl⟩

theorem orderly_unexpected (allowed : List TokenKind) : (unexpected allowed : Parser α).Orderly :=
  fun _ => follows_unexpected allowed

theorem orderly_expect (kind : TokenKind) : (expect kind).Orderly := by
  refine orderly_currentKind.bind fun next => ?_
  split
  · exact orderly_advance
  · exact orderly_unexpected _

theorem orderly_expectMark (m : Mark) : (expectMark m).Orderly :=
  (orderly_expect (.mark m)).bind fun _ => orderly_pure _

/-! ### Building -/

theorem follows_build {step : Build α} (h : step.MovesTo known s.builder) :
    (build step).Follows known s := by
  unfold Follows
  rcases hb : step s.builder with ⟨x, b⟩ | ⟨e, b⟩
  · rw [build_ok hb]
    obtain ⟨hmoves, hknown⟩ := h x b hb
    exact ⟨.moves .start hmoves, hknown⟩
  · rw [build_error hb]
    trivial

theorem orderly_build {step : Build α} (h : ∀ b, step.MovesTo Unknown b) : (build step).Orderly :=
  fun s => follows_build (h s.builder)

/-- A node without types. -/
theorem orderly_add {n : Node} (h : n.types = []) : (build (Build.add n)).Orderly :=
  orderly_build fun _ => movesTo_add_plain h

theorem orderly_buildLink (kind : ListKind) (previous : Option NodeId) (item : NodeId) :
    (buildLink kind previous item).Orderly :=
  (orderly_add rfl).bind fun _ => orderly_pure _

end Parser

end ShaderLang
