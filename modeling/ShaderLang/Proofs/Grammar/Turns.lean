/-
**Programs are read in turns.**

A part of a program opens at most one function or one struct, goes on in small steps, and closes what
it opened with its last step.  A part that breaks a rule leaves open what it opened; it is rejected,
and what was built for it stays in the arena.

Main definitions:

* `ShaderLang.Parser.ClosesAt`, `ShaderLang.Parser.Closes` — a rule that closes what was opened, or
  ends at a token in small steps;
* `ShaderLang.Parser.Opens` — how many structs a rule opens at most.

Main results:

* `ShaderLang.Grammar.closes_function`, `ShaderLang.Grammar.closes_structDeclaration` — functions and
  structs;
* `ShaderLang.Grammar.turns_program` — **reading a program takes the builder through turns**;
* `ShaderLang.Grammar.size_structs_program` — **a program opens at most one struct for each of its
  tokens**.
-/

import ShaderLang.Proofs.Builder.Turns
import ShaderLang.Proofs.Grammar.Inner
import ShaderLang.Proofs.Structs.Registration

set_option relaxedAutoImplicit false
set_option autoImplicit false

namespace ShaderLang

namespace Parser

open Builder

variable {α β : Type}

/-- Something may be open, and small steps were made before and since. -/
def Pending (b b' : Builder) : Prop :=
  ∃ b₁ b₂, Steps b b₁ ∧ Opening b₁ b₂ ∧ Steps b₂ b'

/-- The rule closes with its result what is open since `b`, or it ends at a token that it does not
allow, with what is open still open. -/
def ClosesAt (b : Builder) (p : Parser α) (s : ParseState) : Prop :=
  match p s with
  | .ok _ t => OnePart b t.builder
  | .error (.unexpected _ _) t => Pending b t.builder
  | .error (.fault _) _ => True

/-- The rule closes what is open behind any small steps. -/
def Closes (b opened : Builder) (p : Parser α) : Prop :=
  ∀ s, Steps opened s.builder → p.ClosesAt b s

variable {b opened : Builder} {p : Parser α} {f : α → Parser β} {s t : ParseState}

/-- A rule that depends on the kind of the next token. -/
theorem ClosesAt.on_kind {f : TokenKind → Parser β}
    (h : (f s.cursor.current.kind).ClosesAt b s) : (currentKind >>= f).ClosesAt b s := by
  unfold ClosesAt at h ⊢
  rwa [bind_apply, currentKind_apply]

namespace Closes

theorem of_ok (h : p.Closes b opened) (hs : Steps opened s.builder) {x : α} (hp : p s = .ok x t) :
    OnePart b t.builder := by
  have hclose := h s hs
  unfold ClosesAt at hclose
  rwa [hp] at hclose

theorem of_unexpected (h : p.Closes b opened) (hs : Steps opened s.builder) {found : Token}
    {allowed : List TokenKind} (hp : p s = .error (.unexpected found allowed) t) :
    Pending b t.builder := by
  have hclose := h s hs
  unfold ClosesAt at hclose
  rwa [hp] at hclose

/-- A rule that builds in small steps, in front of one that closes what is open. -/
theorem after_inner (ho : Opening b opened) (hp : p.Inner) (hf : ∀ x, (f x).Closes b opened) :
    (p >>= f).Closes b opened := by
  intro s hs
  unfold ClosesAt
  rw [bind_apply]
  rcases hps : p s with ⟨x, t⟩ | ⟨⟨found, allowed⟩ | e, t⟩
  · exact hf x t (hs.trans ((hp s).of_ok hps))
  · exact ⟨b, opened, .refl b, ho, hs.trans ((hp s).of_error hps)⟩
  · trivial

/-- A rule inside a part of a program, in front of one that closes what is open. -/
theorem after_regular (ho : Opening b opened) (hp : p.Regular .heading)
    (hf : ∀ x, (f x).Closes b opened) : (p >>= f).Closes b opened :=
  after_inner ho hp.inner hf

/-- Where nothing is open, a rule that builds in small steps closes nothing. -/
theorem of_inner (hp : p.Inner) : p.Closes b b := by
  intro s hs
  unfold ClosesAt
  rcases hps : p s with ⟨x, t⟩ | ⟨⟨found, allowed⟩ | e, t⟩
  · exact .of_steps (hs.trans ((hp s).of_ok hps))
  · exact ⟨b, b, .refl b, .nothing, hs.trans ((hp s).of_error hps)⟩
  · trivial

theorem of_forbidden (ho : Opening b opened) (allowed : List TokenKind) :
    (unexpected allowed : Parser α).Closes b opened :=
  fun _ hs => ⟨b, opened, .refl b, ho, hs⟩

/-- A step of building that opens something, in front of a rule that closes it. -/
theorem of_open {step : Build α}
    (h : ∀ c, ∃ x c', step c = .ok x c' ∧ ∀ t, t.builder = c' → (f x).ClosesAt c t) :
    (build step >>= f).Closes b b := by
  intro s hs
  obtain ⟨x, c, hstep, hclose⟩ := h s.builder
  have hrest := hclose { s with builder := c } rfl
  unfold ClosesAt at hrest ⊢
  rw [bind_apply, build_ok hstep]
  dsimp only
  rcases hf : f x { s with builder := c } with ⟨y, t⟩ | ⟨⟨found, allowed⟩ | e, t⟩
  · rw [hf] at hrest
    exact .behind_steps hs hrest
  · rw [hf] at hrest
    obtain ⟨b₁, b₂, hsteps, hrest⟩ := hrest
    exact ⟨b₁, b₂, hs.trans hsteps, hrest⟩
  · trivial

theorem map {g : α → β} (h : p.Closes b opened) : (g <$> p).Closes b opened := by
  intro s hs
  have hclose := h s hs
  unfold ClosesAt at hclose ⊢
  rw [map_eq_pure_bind, bind_apply]
  rcases hps : p s with ⟨x, t⟩ | ⟨e, t⟩
  · rw [hps] at hclose
    exact hclose
  · rw [hps] at hclose
    cases e <;> exact hclose

end Closes

/-! ### How many structs are opened -/

/-- The rule opens at most so many structs, wherever it ends. -/
def Opens (k : Nat) (p : Parser α) : Prop :=
  ∀ s, (p.after s).builder.structs.size ≤ s.builder.structs.size + k

theorem Opens.of_names (h : ∀ s, (p.after s).builder.structs.names = s.builder.structs.names) :
    p.Opens 0 := by
  intro s
  rw [← Structs.length_names, ← Structs.length_names, h s]
  exact Nat.le_refl _

theorem Regular.opens (h : p.Regular .around) : p.Opens 0 := .of_names h.names_eq

namespace Opens

variable {j k : Nat}

theorem of_ok (h : p.Opens k) {x : α} (hp : p s = .ok x t) :
    t.builder.structs.size ≤ s.builder.structs.size + k := by
  have hsize := h s
  unfold after at hsize
  rwa [hp] at hsize

theorem of_error (h : p.Opens k) {e : Halt} (hp : p s = .error e t) :
    t.builder.structs.size ≤ s.builder.structs.size + k := by
  have hsize := h s
  unfold after at hsize
  rwa [hp] at hsize

theorem bind (hp : p.Opens j) (hf : ∀ x, (f x).Opens k) : (p >>= f).Opens (j + k) := by
  intro s
  have hfirst := hp s
  unfold after at hfirst ⊢
  rw [bind_apply]
  rcases hps : p s with ⟨x, t⟩ | ⟨e, t⟩
  · rw [hps] at hfirst
    have hrest := hf x t
    unfold after at hrest
    dsimp only at hfirst ⊢
    omega
  · rw [hps] at hfirst
    dsimp only at hfirst ⊢
    omega

/-- A rule that opens no struct, in front of another one. -/
theorem after_none (hp : p.Opens 0) (hf : ∀ x, (f x).Opens k) : (p >>= f).Opens k := by
  have h := hp.bind hf
  rwa [Nat.zero_add] at h

theorem bind_none (hp : p.Opens k) (hf : ∀ x, (f x).Opens 0) : (p >>= f).Opens k := hp.bind hf

theorem mono (h : p.Opens j) (hjk : j ≤ k) : p.Opens k :=
  fun s => Nat.le_trans (h s) (Nat.add_le_add_left hjk _)

theorem map {g : α → β} (h : p.Opens k) : (g <$> p).Opens k := by
  rw [map_eq_pure_bind]
  exact h.bind_none fun x => (regular_pure (g x)).opens

end Opens

theorem opens_build {step : Build α} {k : Nat}
    (h : ∀ b, (step.after b).structs.size ≤ b.structs.size + k) : (build step).Opens k := by
  intro s
  rw [after_build]
  exact h s.builder

end Parser

namespace Grammar

open ShaderLang.Parser ShaderLang.Builder

variable {b : Builder}

/-! ### Functions -/

/-- Behind its head a function ends with its body or a semicolon; with a semicolon nothing is built
in between. -/
theorem closes_functionEnd (result : DataType) (text : String) (parameters tie : Option NodeId)
    {t : ParseState} (ht : t.builder = b.headed result text parameters tie) :
    (functionEnd b.arena.nextId).ClosesAt b t := by
  have ho : Opening b t.builder := ht ▸ .head result text parameters tie
  refine .on_kind ?_
  split
  · have hturn := Turn.head (b := b) result text parameters tie t.cursor.current.position
    rw [← ht] at hturn
    exact .of_turn hturn
  · have hblock : Closes b t.builder (block >>= fun body =>
        build (Build.definition b.arena.nextId body)) := by
      refine .after_regular ho regular_body fun body s hs => ?_
      rw [ht] at hs
      exact OnePart.of_turn (.function hs body)
    exact hblock t (.refl _)
  · exact ⟨b, t.builder, .refl b, ho, .refl _⟩

theorem closes_function (type : DataType) (name : Token) : (function type name).Closes b b := by
  refine .after_regular .nothing (regular_expectMark .openParen rfl) fun _ => ?_
  refine .after_regular .nothing (regular_parameters nofun) fun list => ?_
  refine .after_regular .nothing regular_semantic fun tie => ?_
  refine .of_open fun c => ⟨c.arena.nextId, c.headed type name.text list tie, rfl, fun t ht => ?_⟩
  exact closes_functionEnd type name.text list tie ht

theorem closes_functionOrVariables : functionOrVariables.Closes b b := by
  have htype : Composed .heading [] [] anyToken 0 0 dataType _ := composed_dataType
  refine .after_regular .nothing regular_qualifiers fun q => ?_
  refine .after_inner .nothing htype.inner fun type => ?_
  refine .after_inner .nothing (inner_expect .name) fun name => ?_
  refine .after_regular .nothing regular_currentKind fun kind => ?_
  split
  · exact closes_function type name
  · have hvariables : Composed .heading [] [.admitted type] anyToken 0 0 (declarators q type name) _ :=
      composed_declarators q (List.mem_singleton_self _) name
    exact .of_inner hvariables.inner

theorem closes_typedExternal : typedExternal.Closes b b := by
  refine .after_regular .nothing regular_currentKind fun kind => ?_
  split
  case h_5 =>
      refine .after_inner .nothing (fun s => .refl s.builder) fun next => ?_
      split
      · exact closes_functionOrVariables
      · exact .of_forbidden .nothing _
  case h_6 => exact .of_forbidden .nothing _
  all_goals exact closes_functionOrVariables

/-! ### Structs -/

/-- No other struct is opened before the one that was opened is closed. -/
theorem closes_structDeclaration : structDeclaration.Closes b b := by
  refine .after_regular .nothing (regular_expectKeyword .structWord) fun _ => ?_
  refine .after_inner .nothing (inner_expect .name) fun name => ?_
  -- the number is that of the next place; nothing behind it opens another struct
  refine .of_open fun c => ⟨Structs.idOf c.structs.size, c.opened name.text, rfl, fun t ht => ?_⟩
  have ho : Opening c (c.opened name.text) := .struct name.text
  refine Closes.after_inner ho (inner_expectMark .openCurly) (fun _ => ?_) t (ht ▸ .refl _)
  refine .after_regular ho (regular_repeated regular_structMemberTurn none) fun members => ?_
  refine .after_inner ho (inner_expectMark .closeCurly) fun _ => ?_
  refine .after_inner ho (inner_expectMark .semicolon) fun _ => ?_
  intro s hs
  have hstep := structDeclaration_apply s.builder (Structs.idOf c.structs.size) members
  unfold ClosesAt
  cases hc : s.builder.collectMembers members with
  | ok collected =>
      rw [hc] at hstep
      rw [build_ok hstep]
      exact OnePart.of_turn (.struct hs hc)
  | error e =>
      rw [hc] at hstep
      rw [build_error hstep]
      trivial

/-! ### Programs -/

theorem closes_external : external.Closes b b := by
  refine .after_regular .nothing regular_currentKind fun kind => ?_
  split
  · exact .of_inner fun s => (Step.position s.cursor.current.position).steps
  · exact closes_structDeclaration.map
  · exact closes_typedExternal.map

/-- What one more turn of a program does: it ends the program; or it reads a part that leaves nothing,
or one that is linked to those before; or it reports a token of a part, and goes on behind it. -/
inductive ProgramTurn (list : Option NodeId) (s : ParseState) :
    Parser.Turn (Option NodeId) (Option NodeId) → ParseState → Prop where
  | last : ProgramTurn list s (.done list) s
  | nothing {t : ParseState} (part : external s = .ok none t) : ProgramTurn list s (.again list) t
  | linked {t : ParseState} {item : NodeId} (part : external s = .ok (some item) t) :
      ProgramTurn list s (.again (some t.builder.arena.nextId))
        { t with builder := t.builder.push (.link .externals list item) }
  | rejected {t u : ParseState} {found : Token} {allowed : List TokenKind} {p : Problem}
      (part : external s = .error (.unexpected found allowed) t) (unexpected : p.isUnexpected = true)
      (inner : Steps (t.builder.rejected p found.position) u.builder) :
      ProgramTurn list s (.again list) u

theorem programTurn_of_ok {list : Option NodeId} {s t : ParseState}
    {x : Parser.Turn (Option NodeId) (Option NodeId)} (h : programTurn list s = .ok x t) :
    ProgramTurn list s x t := by
  obtain ⟨more, s₁, hmore, h⟩ := bind_eq_ok h
  obtain ⟨-, rfl⟩ := EStateM.Result.ok.inj hmore
  split at h
  · obtain ⟨answer, s₂, hanswer, h⟩ := bind_eq_ok h
    rcases attempt_eq_ok hanswer with ⟨item, rfl, hp⟩ | ⟨found, allowed, rfl, hp⟩
    · cases item with
      | none =>
          obtain ⟨rfl, rfl⟩ := EStateM.Result.ok.inj h
          exact .nothing hp
      | some item =>
          obtain ⟨rfl, rfl⟩ := EStateM.Result.ok.inj h
          exact .linked hp
    · -- the report and the end of the function belong to the turn, what is passed over does not
      obtain ⟨_, s₃, hreport, h⟩ := bind_eq_ok h
      obtain ⟨_, s₄, hend, h⟩ := bind_eq_ok h
      obtain ⟨-, rfl⟩ := EStateM.Result.ok.inj hreport
      obtain ⟨-, rfl⟩ := EStateM.Result.ok.inj hend
      obtain ⟨_, s₅, hrecover, h⟩ := bind_eq_ok h
      obtain ⟨rfl, rfl⟩ := EStateM.Result.ok.inj h
      have hinner := (inner_recover _).of_ok hrecover
      exact .rejected (p := .unexpectedToken found.text
        ((allowed.take s₂.limit).map TokenKind.describe)) hp rfl hinner
  · obtain ⟨rfl, rfl⟩ := EStateM.Result.ok.inj h
    exact .last

/-- One more part of a program takes the builder through turns, also if it is rejected. -/
theorem ProgramTurn.turns {list : Option NodeId} {s t : ParseState}
    {x : Parser.Turn (Option NodeId) (Option NodeId)} (h : ProgramTurn list s x t) :
    Turns s.builder t.builder := by
  cases h with
  | last => exact .refl _
  | nothing part => exact (closes_external.of_ok (.refl _) part).turns
  | @linked u item part =>
      exact (closes_external.of_ok (.refl _) part).turns.trans (Turn.link list item).turns
  | @rejected u t found allowed p part unexpected inner =>
      obtain ⟨b₁, b₂, hsteps, hopen, hpending⟩ := closes_external.of_unexpected (.refl _) part
      have hturn : Turn b₁ (u.builder.rejected p found.position) :=
        .rejected hopen hpending unexpected found.position
      exact (hsteps.turns.trans hturn.turns).trans inner.turns

/-- The parts of a program take the builder through turns, whatever parts came before. -/
theorem turns_parts {list : Option NodeId} {s t : ParseState} {root : Option NodeId}
    (h : repeated programTurn list s = .ok root t) : Turns s.builder t.builder := by
  refine repeated_induction (P := fun _ u => Turns s.builder u.builder)
    (Q := fun _ u => Turns s.builder u.builder) ?_ ?_ (.refl s.builder) h
  · intro list u list' v hturns hturn _
    exact hturns.trans (programTurn_of_ok hturn).turns
  · intro list u root v hturns hturn
    exact hturns.trans (programTurn_of_ok hturn).turns

/-- **Reading a program takes the builder through turns.** -/
theorem turns_program {s t : ParseState} {root : Option NodeId} (h : program s = .ok root t) :
    Turns s.builder t.builder :=
  turns_parts h

/-! ### The structs of a program -/

theorem opens_beginStruct (name : String) : (build (Build.beginStruct name)).Opens 1 :=
  opens_build fun b => Nat.le_of_eq (Structs.size_register b.structs name)

theorem opens_structDeclaration : structDeclaration.Opens 1 := by
  refine .after_none (regular_expectKeyword .structWord).opens fun _ => ?_
  refine .after_none (.of_names (names_eq_of_expect .name)) fun name => ?_
  exact (opens_beginStruct name.text).bind_none fun id => (regular_structRest rfl id).opens

/-- A part of a program opens at most one struct. -/
theorem opens_external : external.Opens 1 := by
  refine .after_none regular_currentKind.opens fun kind => ?_
  split
  · exact fun s => Nat.le_succ _
  · exact opens_structDeclaration.map
  · exact (regular_typedExternal rfl).opens.map.mono (Nat.zero_le _)

/-- **A program opens at most one struct for each of its tokens.** -/
theorem size_structs_program {s t : ParseState} {root : Option NodeId}
    (h : program s = .ok root t) :
    t.builder.structs.size ≤ s.builder.structs.size + s.left := by
  refine repeated_induction
    (P := fun _ u => u.builder.structs.size + u.left ≤ s.builder.structs.size + s.left)
    (Q := fun _ u => u.builder.structs.size ≤ s.builder.structs.size + s.left) ?_ ?_
    (Nat.le_refl _) h
  · intro list u list' v hle hturn hleft
    have hsize : v.builder.structs.size ≤ u.builder.structs.size + 1 := by
      cases programTurn_of_ok hturn with
      | nothing part => exact opens_external.of_ok part
      | linked part =>
          have hone := opens_external.of_ok part
          exact hone
      | rejected part _ inner =>
          rw [inner.structs_eq]
          exact opens_external.of_error part
    omega
  · intro list u root v hle hturn
    cases programTurn_of_ok hturn with
    | last => exact Nat.le_of_add_right_le hle

end Grammar

end ShaderLang
