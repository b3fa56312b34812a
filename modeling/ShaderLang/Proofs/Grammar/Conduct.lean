/-
**The conduct of a rule.**

Every rule of the grammar keeps to the same terms, whatever the tokens are.  It reads only tokens
that may be read.  It takes some parts that are held and leaves others; where it meets a token that
it does not allow, it lets go of what it took.  Each report of such a token is paid for by a token
that was read.  A rule meets a fault only if it was not given what it takes.

The terms are stated for a rule in one state, so that a rule that refers to itself can be looked at
under the assumption that the references keep to them where fewer tokens are left.  What a rule takes and
leaves is its own, so each rule has one lemma about them; what all rules have in common follows from how
they are put together (`ShaderLang.Parser.Composed`).

Main definitions:

* `ShaderLang.Balance`, `ShaderLang.ParseState.Within` — the tokens and reports between two states;
* `ShaderLang.Parser.Obeys` — the terms, with what a rule takes, leaves and must read;
* `ShaderLang.Parser.Yields` — a rule that reads something and leaves one part;
* `ShaderLang.Parser.below` — a rule as it is given to a rule that refers to itself.

Main results:

* `ShaderLang.Parser.Obeys.bind`, `ShaderLang.Parser.Obeys.bind_moved`,
  `ShaderLang.Parser.Obeys.spend` — rules in a row;
* `ShaderLang.Parser.Obeys.repeated` — **a repetition keeps to the terms if each turn does**;
* `ShaderLang.Parser.Yields.fix` — **a rule that refers to itself keeps to them if it does where the
  references do**.
-/

import ShaderLang.Grammar.Parser
import ShaderLang.Proofs.Builder.Grafts
import ShaderLang.Proofs.Grammar.Reading

set_option relaxedAutoImplicit false
set_option autoImplicit false

namespace ShaderLang

/-! ### Between two states -/

/-- How reports are paid for by tokens: with a token to spare unless nothing happened, or just so. -/
inductive Balance where
  | credit
  | even

namespace ParseState

/-- How many tokens are left. -/
abbrev left (s : ParseState) : Nat := s.cursor.left

/-- How many tokens that were not allowed have been reported. -/
abbrev errors (s : ParseState) : Nat := s.builder.errors

/-- The reports between two states are paid for by the tokens between them. -/
def Pays (s : ParseState) : Balance → ParseState → Prop
  | .credit, t => t.left = s.left ∧ t.errors = s.errors ∨ t.errors + t.left < s.errors + s.left
  | .even, t => t.errors + t.left ≤ s.errors + s.left

/-- From the first state to the second only tokens were read that may be read, and they pay for the
reports. -/
def Within (s : ParseState) (k : Balance) (t : ParseState) : Prop :=
  s.cursor.Reads t.cursor ∧ s.Pays k t

namespace Within

variable {s t u : ParseState} {k : Balance}

theorem left_le (h : s.Within k t) : t.left ≤ s.left := h.1.left_le

theorem refl : s.Within k s := by
  refine ⟨.refl _, ?_⟩
  cases k with
  | credit => exact .inl ⟨rfl, rfl⟩
  | even => exact Nat.le_refl _

theorem trans (h : s.Within k t) (h' : t.Within k u) : s.Within k u := by
  refine ⟨h.1.trans h'.1, ?_⟩
  have hp := h.2
  have hp' := h'.2
  cases k with
  | credit =>
      simp only [Pays] at hp hp' ⊢
      omega
  | even =>
      simp only [Pays] at hp hp' ⊢
      omega

theorem toEven (h : s.Within .credit t) : s.Within .even t := by
  refine ⟨h.1, ?_⟩
  have hp := h.2
  simp only [Pays] at hp ⊢
  omega

/-- A token that was read beforehand is a token to spare. -/
theorem spend (h : s.Within .credit t) (hread : t.left < s.left) (h' : t.Within .even u) :
    s.Within .credit u := by
  refine ⟨h.1.trans h'.1, ?_⟩
  have hp := h.2
  have hp' := h'.2
  simp only [Pays] at hp hp' ⊢
  omega

end Within

end ParseState

namespace Parser

open Arena

variable {ι α β : Type}

/-- What happened before a result. -/
theorem bind_eq_ok {p : Parser α} {f : α → Parser β} {s u : ParseState} {y : β}
    (h : (p >>= f) s = .ok y u) : ∃ x t, p s = .ok x t ∧ f x t = .ok y u := by
  rw [bind_apply] at h
  split at h
  · next x t hp => exact ⟨x, t, hp, h⟩
  · contradiction

/-! ### The terms -/

/-- The rule keeps to the terms in a state: it takes the first parts and leaves the second ones; for
a result with `moves` it reads a token; and it meets a fault only if it cannot take what it takes. -/
def Obeys (k : Balance) (pre : List Part) (p : Parser α) (moves : α → Prop)
    (post : α → List Part) (s : ParseState) : Prop :=
  match p s with
  | .ok x t =>
      s.Within k t ∧ (moves x → t.left < s.left) ∧
        Trades s.builder.arena pre t.builder.arena (post x)
  | .error (.unexpected _ _) t =>
      s.Within k t ∧ Trades s.builder.arena pre t.builder.arena []
  | .error (.fault _) _ => ∀ frame, ¬ s.builder.arena.Holds (frame ++ pre)

/-- The rule reads a token and leaves one part. -/
def Yields (r : Role) (p : Parser NodeId) (s : ParseState) : Prop :=
  p.Obeys .credit [] (fun _ => True) (fun id => [(id, r)]) s

variable {s : ParseState} {k : Balance} {pre : List Part} {p : Parser α} {f : α → Parser β}
  {moves : α → Prop} {post : α → List Part}

namespace Obeys

/-- Only what a rule does in the state matters. -/
theorem congr {q : Parser α} (h : p.Obeys k pre moves post s) (hpq : q s = p s) :
    q.Obeys k pre moves post s := by
  unfold Obeys at h ⊢
  rw [hpq]
  exact h

/-- What is known of a result. -/
theorem of_ok (h : p.Obeys k pre moves post s) {x : α} {t : ParseState} (hp : p s = .ok x t) :
    s.Within k t ∧ (moves x → t.left < s.left) ∧
      Trades s.builder.arena pre t.builder.arena (post x) := by
  unfold Obeys at h
  rw [hp] at h
  exact h

/-- What is known where a token is not allowed. -/
theorem of_unexpected (h : p.Obeys k pre moves post s) {found : Token} {allowed : List TokenKind}
    {t : ParseState} (hp : p s = .error (.unexpected found allowed) t) :
    s.Within k t ∧ Trades s.builder.arena pre t.builder.arena [] := by
  unfold Obeys at h
  rw [hp] at h
  exact h

/-- A fault means that what the rule takes was not held. -/
theorem of_fault (h : p.Obeys k pre moves post s) {e : Fault} {t : ParseState}
    (hp : p s = .error (.fault e) t) : ∀ frame, ¬ s.builder.arena.Holds (frame ++ pre) := by
  unfold Obeys at h
  rw [hp] at h
  exact h

/-- The three ways in which a rule can end. -/
theorem intro
    (hok : ∀ x t, p s = .ok x t → s.Within k t ∧ (moves x → t.left < s.left) ∧
      Trades s.builder.arena pre t.builder.arena (post x))
    (hun : ∀ found allowed t, p s = .error (.unexpected found allowed) t →
      s.Within k t ∧ Trades s.builder.arena pre t.builder.arena [])
    (hfault : ∀ e t, p s = .error (.fault e) t →
      ∀ frame, ¬ s.builder.arena.Holds (frame ++ pre)) :
    p.Obeys k pre moves post s := by
  unfold Obeys
  split
  · next x t hp => exact hok x t hp
  · next found allowed t hp => exact hun found allowed t hp
  · next e t hp => exact hfault e t hp

/-! ### Weaker terms -/

theorem of_moves {moves' : α → Prop} (h : p.Obeys k pre moves post s)
    (hm : ∀ x, moves' x → moves x) : p.Obeys k pre moves' post s :=
  intro
    (fun x _ hp => ⟨(h.of_ok hp).1, fun hx => (h.of_ok hp).2.1 (hm x hx), (h.of_ok hp).2.2⟩)
    (fun _ _ _ hp => h.of_unexpected hp)
    (fun _ _ hp => h.of_fault hp)

/-- It need not be known that the rule reads something. -/
theorem still (h : p.Obeys k pre moves post s) : p.Obeys k pre (fun _ => False) post s :=
  h.of_moves fun _ => False.elim

theorem toEven (h : p.Obeys .credit pre moves post s) : p.Obeys .even pre moves post s :=
  intro
    (fun _ _ hp => ⟨(h.of_ok hp).1.toEven, (h.of_ok hp).2⟩)
    (fun _ _ _ hp => ⟨(h.of_unexpected hp).1.toEven, (h.of_unexpected hp).2⟩)
    (fun _ _ hp => h.of_fault hp)

/-- What is left may be held in other roles, or be let go. -/
theorem trade {post' : α → List Part} (h : p.Obeys k pre moves post s)
    (ht : ∀ (a : Arena) x, Trades a (post x) a (post' x)) : p.Obeys k pre moves post' s :=
  intro
    (fun x _ hp =>
      ⟨(h.of_ok hp).1, (h.of_ok hp).2.1, (h.of_ok hp).2.2.trans (ht _ x)⟩)
    (fun _ _ _ hp => h.of_unexpected hp)
    (fun _ _ hp => h.of_fault hp)

/-- Other parts do not stand in the way of a rule; they are let go where it ends early. -/
theorem framed (extra : List Part) (h : p.Obeys k pre moves post s) :
    p.Obeys k (extra ++ pre) moves (fun x => extra ++ post x) s := by
  refine intro ?_ ?_ ?_
  · intro x t hp
    obtain ⟨hw, hm, ht⟩ := h.of_ok hp
    exact ⟨hw, hm, ht.framed extra⟩
  · intro found allowed t hp
    obtain ⟨hw, ht⟩ := h.of_unexpected hp
    exact ⟨hw, (ht.framed extra).trans (Trades.drop List.nil_subperm)⟩
  · intro e t hp frame hh
    rw [← List.append_assoc] at hh
    exact h.of_fault hp _ hh

/-- A rule that takes nothing, beside other parts. -/
theorem beside (extra : List Part) (h : p.Obeys k [] moves post s) :
    p.Obeys k extra moves (fun x => extra ++ post x) s := by
  have hframed := h.framed extra
  rwa [List.append_nil] at hframed

/-! ### Rules in a row -/

/-- How the second rule goes on from the first. -/
theorem bind_of {movesP : α → Prop} {mid : α → List Part} {moves : β → Prop}
    {post : β → List Part} {k₁ k₂ : Balance} (hp : p.Obeys k₁ pre movesP mid s)
    (hf : ∀ x t, p s = .ok x t → t.left ≤ s.left → (movesP x → t.left < s.left) →
      ∃ movesF : β → Prop, (f x).Obeys k₂ (mid x) movesF post t ∧
        ∀ y (u : ParseState), u.left ≤ t.left → (movesF y → u.left < t.left) → moves y →
          u.left < s.left)
    (hk : ∀ t, s.Within k₁ t → s.Within k t)
    (hkk : ∀ x t u, p s = .ok x t → s.Within k₁ t → (movesP x → t.left < s.left) →
      t.Within k₂ u → s.Within k u) :
    (p >>= f).Obeys k pre moves post s := by
  rcases hps : p s with ⟨x, t⟩ | ⟨e, t⟩
  · obtain ⟨hw, hm, ht⟩ := hp.of_ok hps
    obtain ⟨movesF, hobeys, hmoves⟩ := hf x t hps hw.left_le hm
    have hbind : (p >>= f) s = f x t := by rw [bind_apply, hps]
    refine intro ?_ ?_ ?_
    · intro y u hy
      rw [hbind] at hy
      obtain ⟨hw', hm', ht'⟩ := hobeys.of_ok hy
      exact ⟨hkk x t u hps hw hm hw', hmoves y u hw'.left_le hm', ht.trans ht'⟩
    · intro found allowed u hy
      rw [hbind] at hy
      obtain ⟨hw', ht'⟩ := hobeys.of_unexpected hy
      exact ⟨hkk x t u hps hw hm hw', ht.trans ht'⟩
    · intro e u hy frame hh
      rw [hbind] at hy
      exact hobeys.of_fault hy frame (ht frame hh)
  · have hbind : (p >>= f) s = .error e t := by rw [bind_apply, hps]
    refine intro ?_ ?_ ?_
    · intro y u hy
      rw [hbind] at hy
      contradiction
    · intro found allowed u hy
      rw [hbind] at hy
      obtain ⟨rfl, rfl⟩ := EStateM.Result.error.inj hy
      obtain ⟨hw, ht⟩ := hp.of_unexpected hps
      exact ⟨hk _ hw, ht⟩
    · intro e' u hy
      rw [hbind] at hy
      obtain ⟨rfl, rfl⟩ := EStateM.Result.error.inj hy
      exact hp.of_fault hps

variable {movesP : α → Prop} {mid : α → List Part} {movesF : β → Prop} {postF : β → List Part}

/-- One rule behind another. -/
theorem bind (hp : p.Obeys k pre movesP mid s)
    (hf : ∀ x t, t.left ≤ s.left → (movesP x → t.left < s.left) →
      (f x).Obeys k (mid x) movesF postF t) : (p >>= f).Obeys k pre movesF postF s :=
  hp.bind_of
    (fun x t _ hle hm => ⟨movesF, hf x t hle hm, fun _ _ _ hu hy => Nat.lt_of_lt_of_le (hu hy) hle⟩)
    (fun _ h => h) fun _ _ _ _ h _ h' => h.trans h'

/-- One rule behind another that reads something. -/
theorem bind_moved (hp : p.Obeys k pre (fun _ => True) mid s)
    (hf : ∀ x t, t.left < s.left → (f x).Obeys k (mid x) (fun _ => False) postF t) :
    (p >>= f).Obeys k pre movesF postF s :=
  hp.bind_of
    (fun x t _ _ hm =>
      ⟨_, hf x t (hm trivial), fun _ _ hle _ _ => Nat.lt_of_le_of_lt hle (hm trivial)⟩)
    (fun _ h => h) fun _ _ _ _ h _ h' => h.trans h'

/-- One rule behind another that may be known to read something. -/
theorem bind_kept {c : Prop} (hp : p.Obeys k pre (fun _ => c) mid s)
    (hf : ∀ x t, t.left ≤ s.left → (f x).Obeys k (mid x) (fun _ => False) postF t) :
    (p >>= f).Obeys k pre (fun _ => c) postF s :=
  hp.bind_of
    (fun x t _ hle hm => ⟨_, hf x t hle, fun _ _ hu _ hc => Nat.lt_of_le_of_lt hu (hm hc)⟩)
    (fun _ h => h) fun _ _ _ _ h _ h' => h.trans h'

/-- A rule that spends all that it reads, behind one that reads something. -/
theorem spend (hp : p.Obeys .credit pre (fun _ => True) mid s)
    (hf : ∀ x t, t.left < s.left → (f x).Obeys .even (mid x) (fun _ => False) postF t) :
    (p >>= f).Obeys .credit pre movesF postF s :=
  hp.bind_of
    (fun x t _ _ hm =>
      ⟨_, hf x t (hm trivial), fun _ _ hle _ _ => Nat.lt_of_le_of_lt hle (hm trivial)⟩)
    (fun _ h => h) fun _ _ _ _ h hm h' => h.spend (hm trivial) h'

/-- A look at the state, and a rule that depends on what is seen. -/
theorem look {v : α} (hp : p s = .ok v s) (hf : (f v).Obeys k pre movesF postF s) :
    (p >>= f).Obeys k pre movesF postF s :=
  hf.congr (by rw [bind_apply, hp])

/-- A rule that depends on the kind of the next token. -/
theorem on_kind {f : TokenKind → Parser β}
    (hf : (f s.cursor.current.kind).Obeys k pre movesF postF s) :
    (currentKind >>= f).Obeys k pre movesF postF s :=
  look rfl hf

end Obeys

/-! ### The steps -/

/-- A result without reading anything. -/
theorem obeys_pure {x : α} (hm : ¬ moves x) (ht : ∀ a : Arena, Trades a pre a (post x)) :
    (pure x : Parser α).Obeys k pre moves post s :=
  ⟨.refl, fun h => absurd h hm, ht _⟩

theorem obeys_unexpected (allowed : List TokenKind) :
    (unexpected allowed : Parser α).Obeys k pre moves post s :=
  ⟨.refl, Trades.drop List.nil_subperm⟩

/-- Reading a token that may be read. -/
theorem obeys_advance (h : s.cursor.Readable) :
    advance.Obeys k pre (fun _ => True) (fun _ => pre) s := by
  have hlt : s.cursor.next.left < s.cursor.left := by
    have hpos := h.left_pos
    rw [Cursor.left_next]
    omega
  refine ⟨⟨.single h, ?_⟩, fun _ => hlt, Trades.refl⟩
  cases k with
  | credit => exact .inr (Nat.add_lt_add_left hlt s.errors)
  | even => exact Nat.add_le_add_left (Nat.le_of_lt hlt) s.errors

/-- Reading the next token if it is of a kind. -/
theorem obeys_accept (kind : TokenKind) (hkind : kind ≠ .endOfFile) :
    (accept kind).Obeys k pre (fun read => read = true) (fun _ => pre) s := by
  refine .on_kind ?_
  split
  · next h =>
      refine (obeys_advance (.inl (h ▸ hkind))).bind_moved fun _ _ _ => ?_
      exact obeys_pure not_false fun _ => Trades.refl
  · exact obeys_pure (by simp) fun _ => Trades.refl

/-- Reading the next token, which must be of a kind. -/
theorem obeys_expect (kind : TokenKind) (hkind : kind ≠ .endOfFile) :
    (expect kind).Obeys k pre (fun _ => True) (fun _ => pre) s := by
  refine .on_kind ?_
  split
  · next h => exact obeys_advance (.inl (h ▸ hkind))
  · exact obeys_unexpected _

theorem obeys_acceptMark (m : Mark) :
    (accept (.mark m)).Obeys k pre (fun read => read = true) (fun _ => pre) s :=
  obeys_accept (.mark m) nofun

theorem obeys_expectMark (m : Mark) :
    (expectMark m).Obeys k pre (fun _ => True) (fun _ => pre) s :=
  (obeys_expect (.mark m) nofun).bind_moved fun _ _ _ =>
    obeys_pure not_false fun _ => Trades.refl

theorem obeys_expectKeyword (w : Keyword) :
    (expectKeyword w).Obeys k pre (fun _ => True) (fun _ => pre) s :=
  (obeys_expect (.keyword w) nofun).bind_moved fun _ _ _ =>
    obeys_pure not_false fun _ => Trades.refl

theorem build_ok {step : Build α} {x : α} {b : Builder} (h : step s.builder = .ok x b) :
    build step s = .ok x { s with builder := b } := by
  unfold build
  simp only [h]

theorem build_error {step : Build α} {e : Fault} {b : Builder} (h : step s.builder = .error e b) :
    build step s = .error (.fault e) { s with builder := b } := by
  unfold build
  simp only [h]

/-- A step of building keeps to the terms of a rule. -/
theorem obeys_build {step : Build α} (h : step.Grafts pre post) :
    (build step).Obeys k pre (fun _ => False) post s := by
  have hs := h s.builder
  unfold Obeys
  rcases hb : step s.builder with ⟨x, b⟩ | ⟨e, b⟩
  · rw [hb] at hs
    rw [build_ok hb]
    refine ⟨⟨.refl _, ?_⟩, False.elim, hs.2⟩
    cases k with
    | credit => exact .inl ⟨rfl, hs.1⟩
    | even => exact Nat.le_of_eq (congrArg (· + s.left) hs.1)
  · rw [hb] at hs
    rw [build_error hb]
    exact hs

/-- A rule behind a step of building stands where the step did. -/
theorem Obeys.build_bind {step : Build α} {movesF : β → Prop} {postF : β → List Part}
    (h : step.Grafts pre post)
    (hf : ∀ x t, t.cursor = s.cursor → (f x).Obeys k (post x) movesF postF t) :
    (build step >>= f).Obeys k pre movesF postF s := by
  refine (obeys_build h).bind_of (fun x t hx hle _ => ?_) (fun _ h => h)
    fun _ _ _ _ h _ h' => h.trans h'
  have hcursor : t.cursor = s.cursor := by
    rcases hb : step s.builder with ⟨y, b⟩ | ⟨e, b⟩
    · rw [build_ok hb] at hx
      obtain ⟨-, rfl⟩ := EStateM.Result.ok.inj hx
      rfl
    · rw [build_error hb] at hx
      contradiction
  exact ⟨movesF, hf x t hcursor, fun _ _ _ hu hy => Nat.lt_of_lt_of_le (hu hy) hle⟩

/-- One more item of a sequence. -/
theorem obeys_buildLink (kind : ListKind) (previous : Option NodeId) (item : NodeId) :
    (buildLink kind previous item).Obeys k
      (optional previous (.list kind) ++ [(item, kind.itemRole)]) (fun _ => False)
      (fun list => optional list (.list kind)) s := by
  refine (obeys_build (Build.grafts_add (.link kind previous item) (r := .list kind) ?_)).bind
    fun id t _ _ => obeys_pure not_false fun _ => Trades.refl
  simp [Node.plays, Node.isLinkOf]

/-- A part that a rule leaves, as one that need not be there. -/
theorem Yields.map_some {p : Parser NodeId} {r : Role} (h : p.Yields r s) (extra : List Part) :
    (some <$> p).Obeys .credit extra (fun _ => True) (fun id => extra ++ optional id r) s := by
  rw [map_eq_pure_bind]
  exact (Obeys.beside extra h).bind_moved fun _ _ _ => obeys_pure not_false fun _ => Trades.refl

/-- A part that a rule leaves, in another role that it can play. -/
theorem Yields.cast {p : Parser NodeId} {r r' : Role} (h : p.Yields r s)
    (hr : ∀ n : Node, n.plays r → n.plays r') : p.Yields r' s :=
  Obeys.trade h fun _ _ => Trades.cast hr

/-! ### Repetition -/

/-- A turn that goes on must read a token; one that is done, if its result says so. -/
def Turn.Moves (moves : α → Prop) : Turn β α → Prop
  | .again _ => True
  | .done x => moves x

/-- What a turn leaves. -/
def Turn.leaves (again : β → List Part) (done : α → List Part) : Turn β α → List Part
  | .again b => again b
  | .done x => done x

/-- A repetition keeps to the terms if its first turn does, and the rest does behind it. -/
theorem Obeys.repeated_of_turn {turn : β → Parser (Turn β α)} {parts : β → List Part} {b : β}
    (hturn : (turn b).Obeys k (parts b) (Turn.Moves moves) (Turn.leaves parts post) s)
    (hrest : ∀ b' t, t.left < s.left →
      (repeated turn b').Obeys k (parts b') (fun _ => False) post t) :
    (repeated turn b).Obeys k (parts b) moves post s := by
  have hloop : Parser.repeated turn b s = _ := loop_eq turn b s
  rcases ht : turn b s with ⟨b' | x, t⟩ | ⟨e, t⟩
  · obtain ⟨hw, hm, htrade⟩ := hturn.of_ok ht
    have hlt : t.left < s.left := hm trivial
    have hgo := hrest b' t hlt
    rw [ht] at hloop
    simp only [if_pos hlt] at hloop
    refine intro ?_ ?_ ?_
    · intro x u hx
      obtain ⟨hw', -, htrade'⟩ := hgo.of_ok (hloop.symm.trans hx)
      exact ⟨hw.trans hw', fun _ => Nat.lt_of_le_of_lt hw'.left_le hlt, htrade.trans htrade'⟩
    · intro found allowed u hx
      obtain ⟨hw', htrade'⟩ := hgo.of_unexpected (hloop.symm.trans hx)
      exact ⟨hw.trans hw', htrade.trans htrade'⟩
    · intro e u hx frame hh
      exact hgo.of_fault (hloop.symm.trans hx) frame (htrade frame hh)
  · rw [ht] at hloop
    refine intro ?_ ?_ ?_
    · intro y u hy
      obtain ⟨rfl, rfl⟩ := EStateM.Result.ok.inj (hloop.symm.trans hy)
      exact hturn.of_ok ht
    · intro found allowed u hy
      have := hloop.symm.trans hy
      contradiction
    · intro e u hy
      have := hloop.symm.trans hy
      contradiction
  · rw [ht] at hloop
    refine intro ?_ ?_ ?_
    · intro y u hy
      have := hloop.symm.trans hy
      contradiction
    · intro found allowed u hy
      obtain ⟨rfl, rfl⟩ := EStateM.Result.error.inj (hloop.symm.trans hy)
      exact hturn.of_unexpected ht
    · intro e' u hy
      obtain ⟨rfl, rfl⟩ := EStateM.Result.error.inj (hloop.symm.trans hy)
      exact hturn.of_fault ht

/-- **A repetition keeps to the terms if each turn does.**  The induction is on the tokens left:
a turn that goes on leaves fewer. -/
theorem Obeys.repeated {turn : β → Parser (Turn β α)} {parts : β → List Part} {n : Nat}
    (h : ∀ b t, t.left < n →
      (turn b).Obeys k (parts b) (Turn.Moves moves) (Turn.leaves parts post) t)
    (b : β) (s : ParseState) (hs : s.left < n) :
    (repeated turn b).Obeys k (parts b) moves post s := by
  induction hleft : s.left using Nat.strongRecOn generalizing b s with
  | ind l ih =>
      subst hleft
      refine Obeys.repeated_of_turn (h b s hs) fun b' t hlt => ?_
      exact (ih t.left hlt b' t (Nat.lt_trans hlt hs) rfl).still

/-- What a repetition reads may depend on where it begins: then only its first turn counts. -/
theorem Obeys.repeated_from {turn : β → Parser (Turn β α)} {parts : β → List Part}
    {movesAt : ParseState → α → Prop}
    (h : ∀ b t, (turn b).Obeys k (parts b) (Turn.Moves (movesAt t)) (Turn.leaves parts post) t)
    (b : β) (s : ParseState) :
    (Parser.repeated turn b).Obeys k (parts b) (movesAt s) post s := by
  -- turns behind the first are only known to read something if they go on
  have hlater : ∀ b (t : ParseState), t.left < s.left →
      (turn b).Obeys k (parts b) (Turn.Moves fun _ => False) (Turn.leaves parts post) t := by
    intro b t _
    refine (h b t).of_moves fun turn hm => ?_
    cases turn with
    | again => trivial
    | done => exact hm.elim
  exact Obeys.repeated_of_turn (h b s) fun b t ht => Obeys.repeated hlater b t ht

/-- A repetition ends with the end of a turn. -/
theorem exists_done_of_repeated {turn : β → Parser (Turn β α)} {b : β} {x : α} {t : ParseState}
    (h : repeated turn b s = .ok x t) : ∃ b' s', turn b' s' = .ok (.done x) t := by
  induction hleft : s.left using Nat.strongRecOn generalizing b s with
  | ind l ih =>
      subst hleft
      have hloop : Parser.repeated turn b s = _ := loop_eq turn b s
      rw [hloop] at h
      split at h
      · next y u hturn =>
          obtain ⟨rfl, rfl⟩ := EStateM.Result.ok.inj h
          exact ⟨b, s, hturn⟩
      · next b' u _ =>
          split at h
          · next hlt => exact ih u.left hlt h rfl
          · contradiction
      · contradiction

/-! ### Rules that allow every token -/

/-- The rule never ends at a token that it does not allow. -/
def Tolerant (p : Parser α) : Prop :=
  ∀ s found allowed t, p s ≠ .error (.unexpected found allowed) t

theorem tolerant_of_ok (h : ∀ s, ∃ x t, p s = .ok x t) : p.Tolerant := by
  intro s found allowed t hs
  obtain ⟨x, u, hok⟩ := h s
  have hne := hok.symm.trans hs
  contradiction

theorem tolerant_pure (x : α) : (pure x : Parser α).Tolerant :=
  tolerant_of_ok fun s => ⟨x, s, rfl⟩

theorem tolerant_currentKind : currentKind.Tolerant :=
  tolerant_of_ok fun s => ⟨s.cursor.current.kind, s, rfl⟩

theorem tolerant_advance : advance.Tolerant := tolerant_of_ok fun _ => ⟨_, _, rfl⟩

theorem tolerant_report (found : Token) (allowed : List TokenKind) :
    (report found allowed).Tolerant :=
  tolerant_of_ok fun _ => ⟨_, _, rfl⟩

theorem Tolerant.bind {f : α → Parser β} (hp : p.Tolerant) (hf : ∀ x, (f x).Tolerant) :
    (p >>= f).Tolerant := by
  intro s found allowed t h
  rw [bind_apply] at h
  split at h
  · next x u _ => exact hf x u found allowed t h
  · next e u hpe =>
      obtain ⟨rfl, rfl⟩ := EStateM.Result.error.inj h
      exact hp s found allowed u hpe

theorem tolerant_build (step : Build α) : (build step).Tolerant := by
  intro s found allowed t h
  rcases hb : step s.builder with ⟨x, b⟩ | ⟨e, b⟩
  · rw [build_ok hb] at h
    contradiction
  · rw [build_error hb] at h
    simp at h

theorem tolerant_buildLink (kind : ListKind) (previous : Option NodeId) (item : NodeId) :
    (buildLink kind previous item).Tolerant :=
  (tolerant_build _).bind fun _ => tolerant_pure _

theorem tolerant_attempt (p : Parser α) : (attempt p).Tolerant := by
  intro s found allowed t h
  unfold attempt at h
  split at h <;> simp at h

/-- A repetition of turns that allow every token allows every token. -/
theorem tolerant_repeated {turn : β → Parser (Turn β α)} (h : ∀ b, (turn b).Tolerant) (b : β) :
    (repeated turn b).Tolerant := by
  intro s found allowed t ht
  induction hleft : s.left using Nat.strongRecOn generalizing b s with
  | ind l ih =>
      subst hleft
      have hloop : Parser.repeated turn b s = _ := loop_eq turn b s
      rw [hloop] at ht
      split at ht
      · contradiction
      · next b' u _ =>
          split at ht
          · next hlt => exact ih u.left hlt b' u ht rfl
          · simp at ht
      · next e u hturn =>
          obtain ⟨rfl, rfl⟩ := EStateM.Result.error.inj ht
          exact h b s found allowed u hturn

/-! ### Going on behind a token that is not allowed -/

/-- The state with one more report of a token that is not allowed. -/
theorem report_apply (found : Token) (allowed : List TokenKind) (s : ParseState) :
    ∃ t, report found allowed s = .ok () t ∧ t.cursor = s.cursor ∧
      t.builder.arena = s.builder.arena ∧ t.errors = s.errors + 1 := by
  refine ⟨_, rfl, rfl, rfl, ?_⟩
  exact Diagnostics.countP_report _ (.unexpectedToken ..) _

/-- A rule that may meet a token that it does not allow, and how it goes on then: the token is
reported, and what comes next reads one unless the rule has read one before. -/
theorem Obeys.attempt_bind {f : Except (Token × List TokenKind) α → Parser β} {extra : List Part}
    {movesF : β → Prop} {postF : β → List Part} {next : Parser β}
    (hp : p.Obeys .credit [] (fun _ => True) post s)
    (hok : ∀ x t, t.left < s.left →
      (f (.ok x)).Obeys .even (extra ++ post x) (fun _ => False) postF t)
    (hreport : ∀ found allowed, f (.error (found, allowed)) = report found allowed >>= fun _ => next)
    (htolerant : next.Tolerant)
    (hnext : ∀ t, s.cursor.Reads t.cursor →
      next.Obeys .credit extra (fun _ => t.left = s.left) postF t) :
    (attempt p >>= f).Obeys .even extra movesF postF s := by
  have hgood : (p >>= fun x => f (.ok x)).Obeys .even extra movesF postF s :=
    (Obeys.beside extra hp).toEven.bind_moved hok
  rcases hps : p s with ⟨x, t⟩ | ⟨⟨found, allowed⟩ | e, t⟩
  · refine hgood.congr ?_
    simp only [bind_apply, attempt, hps]
  · obtain ⟨hw, htrade⟩ := hp.of_unexpected hps
    obtain ⟨u, hu, hcursor, harena, herrors⟩ := report_apply found allowed t
    have hread : s.cursor.Reads u.cursor := hcursor ▸ hw.1
    have hleft : u.left = t.left := congrArg Cursor.left hcursor
    have hkeep : Trades s.builder.arena extra u.builder.arena extra := by
      have := htrade.framed extra
      rwa [List.append_nil, ← harena] at this
    have hbind : (attempt p >>= f) s = next u := by
      simp only [bind_apply, attempt, hps, hreport, hu]
    have hgo := hnext u hread
    -- a rule that read nothing leaves it to what comes next to pay for the report
    have hpays : ∀ v, u.Within .credit v → (u.left = s.left → v.left < u.left) →
        s.Within .even v := by
      intro v hv hm
      refine ⟨hread.trans hv.1, ?_⟩
      have hpaid := hw.2
      have hpaid' := hv.2
      have hle := hw.left_le
      simp only [ParseState.Pays] at hpaid hpaid' ⊢
      omega
    refine intro ?_ ?_ ?_
    · intro y v hy
      obtain ⟨hv, hm, hlast⟩ := hgo.of_ok (hbind.symm.trans hy)
      refine ⟨hpays v hv hm, fun _ => ?_, hkeep.trans hlast⟩
      have hle := hw.left_le
      have hle' := hv.left_le
      omega
    · intro found' allowed' v hy
      exact absurd (hbind.symm.trans hy) (htolerant u found' allowed' v)
    · intro e v hy frame hh
      exact hgo.of_fault (hbind.symm.trans hy) frame (hkeep frame hh)
  · refine hgood.congr ?_
    simp only [bind_apply, attempt, hps]

/-! ### Rules that refer to themselves -/

/-- A rule as it is given to a rule that refers to itself: only where fewer than `n` tokens are
left. -/
def below (n : Nat) (rule : ι → Parser α) : ι → Parser α := fun j s =>
  if s.left < n then rule j s else .error (.fault .endless) s

theorem below_apply {n : Nat} {rule : ι → Parser α} {j : ι} (hs : s.left < n) :
    below n rule j s = rule j s :=
  if_pos hs

/-- A rule that refers to itself is the rule with itself put in, from behind where it began. -/
theorem fix_eq_below (rule : (ι → Parser α) → ι → Parser α) (i : ι) (s : ParseState) :
    fix rule i s = rule (below s.left (fix rule)) i s :=
  fix_eq rule i s

/-- A turn, and what a repetition does behind it where so many tokens were left. -/
def oneTurn (turn : β → Parser (Turn β α)) (left : Nat) (b : β) : Parser α :=
  turn b >>= fun
    | .done x => pure x
    | .again b' => below left (repeated turn) b'

theorem repeated_eq_oneTurn (turn : β → Parser (Turn β α)) (b : β) (s : ParseState) :
    repeated turn b s = oneTurn turn s.left b s := by
  have hloop : repeated turn b s = _ := loop_eq turn b s
  rw [hloop, oneTurn, bind_apply]
  rcases turn b s with ⟨b' | x, t⟩ | ⟨e, t⟩ <;> rfl

theorem Yields.below {rule : ι → Parser NodeId} {r : Role} {n : Nat}
    (h : ∀ j t, t.left < n → (rule j).Yields r t) (j : ι) (t : ParseState) (ht : t.left < n) :
    (Parser.below n rule j).Yields r t :=
  Obeys.congr (h j t ht) (below_apply ht)

/-- **A rule that refers to itself keeps to the terms if it does where the references do.**  The
induction is on the tokens left: a reference stands behind where the rule began. -/
theorem Yields.fix {rule : (ι → Parser NodeId) → ι → Parser NodeId} {r : Role}
    (h : ∀ (n : Nat) (inner : ι → Parser NodeId),
      (∀ j t, t.left < n → (inner j).Yields r t) →
        ∀ i s, s.left ≤ n → (rule inner i).Yields r s)
    (i : ι) (s : ParseState) : Yields r (Parser.fix rule i) s := by
  induction hleft : s.left using Nat.strongRecOn generalizing i s with
  | ind l ih =>
      subst hleft
      refine Obeys.congr ?_ (fix_eq_below rule i s)
      refine h s.left _ (Yields.below fun j t ht => ?_) i s (Nat.le_refl _)
      exact ih t.left ht j t rfl

/-! ### What repetitions and attempts answer -/

variable {t : ParseState}

/-- What holds in front of a repetition and is kept by each turn that goes on holds in front of the
last turn.  The induction is on the tokens that are left. -/
theorem repeated_induction {turn : β → Parser (Turn β α)} {P : β → ParseState → Prop}
    {Q : α → ParseState → Prop}
    (again : ∀ b s b' t, P b s → turn b s = .ok (.again b') t → t.left < s.left → P b' t)
    (done : ∀ b s x t, P b s → turn b s = .ok (.done x) t → Q x t) {b : β} {x : α} (hP : P b s)
    (hx : repeated turn b s = .ok x t) : Q x t := by
  induction hleft : s.left using Nat.strongRecOn generalizing b s with
  | ind l ih =>
      subst hleft
      have hloop : repeated turn b s = _ := loop_eq turn b s
      rw [hloop] at hx
      rcases hturn : turn b s with ⟨b' | y, u⟩ | ⟨e, u⟩
      · rw [hturn] at hx
        dsimp only at hx
        by_cases hlt : u.cursor.left < s.cursor.left
        · rw [if_pos hlt] at hx
          exact ih u.left hlt (again b s b' u hP hturn hlt) hx rfl
        · rw [if_neg hlt] at hx
          contradiction
      · rw [hturn] at hx
        obtain ⟨rfl, rfl⟩ := EStateM.Result.ok.inj hx
        exact done b s _ u hP hturn
      · rw [hturn] at hx
        contradiction

/-- What an attempt answers with is how the rule ended. -/
theorem attempt_eq_ok {answer : Except (Token × List TokenKind) α}
    (h : attempt p s = .ok answer t) :
    (∃ x, answer = .ok x ∧ p s = .ok x t) ∨
      ∃ found allowed, answer = .error (found, allowed) ∧
        p s = .error (.unexpected found allowed) t := by
  unfold attempt at h
  rcases hp : p s with ⟨x, u⟩ | ⟨⟨found, allowed⟩ | e, u⟩
  · rw [hp] at h
    obtain ⟨rfl, rfl⟩ := EStateM.Result.ok.inj h
    exact .inl ⟨x, rfl, rfl⟩
  · rw [hp] at h
    obtain ⟨rfl, rfl⟩ := EStateM.Result.ok.inj h
    exact .inr ⟨found, allowed, rfl, rfl⟩
  · rw [hp] at h
    contradiction

end Parser

end ShaderLang
