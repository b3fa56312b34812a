/-
**Rules that end well.**

The terms that every rule keeps to say nothing about when a rule has a result.  Here it is said of a
rule in one state that it does have one, which tokens come next then, and what is known of the
result; everything built before is still there.

Main definitions:

* `ShaderLang.Parser.Lands` — a rule has a result, of which something is known.

Main results:

* `ShaderLang.Parser.Lands.bind` — one rule behind another;
* `ShaderLang.Parser.lands_advance`, `ShaderLang.Parser.lands_expectMark`,
  `ShaderLang.Parser.lands_accept`, … — reading tokens that are there;
* `ShaderLang.Parser.lands_build` — a step of building;
* `ShaderLang.Parser.Lands.again`, `ShaderLang.Parser.Lands.done` — the turns of a repetition.
-/

import ShaderLang.Proofs.Builder.Growth
import ShaderLang.Proofs.Grammar.Conduct

set_option relaxedAutoImplicit false
set_option autoImplicit false

namespace ShaderLang

namespace Cursor

variable {c : Cursor} {t : Token} {ts : List Token}

theorem left_eq_length (h : c.rest = ts) : c.left = ts.length := by rw [c.left_eq, h]

theorem current_of_rest (h : c.rest = t :: ts) : c.current = t := by rw [current, h]

end Cursor

namespace Parser

variable {α β : Type} {allowed : Problem → Prop}

/-- The rule has a result of which something is known.  The tokens `rest` come next; everything built
before is still there, and only allowed problems have been reported. -/
def Lands (allowed : Problem → Prop) (p : Parser α) (s : ParseState) (rest : List Token)
    (known : Builder → α → Prop) : Prop :=
  ∃ x t, p s = .ok x t ∧ t.cursor.rest = rest ∧ s.builder.Extends allowed t.builder ∧
    known t.builder x

variable {p : Parser α} {f : α → Parser β} {s : ParseState} {rest mid : List Token}
  {known : Builder → α → Prop} {known' : Builder → β → Prop}

namespace Lands

/-- One rule behind another. -/
theorem bind (hp : p.Lands allowed s mid known)
    (hf : ∀ x t, t.cursor.rest = mid → s.builder.Extends allowed t.builder → known t.builder x →
      (f x).Lands allowed t rest known') : (p >>= f).Lands allowed s rest known' := by
  obtain ⟨x, t, hx, hmid, hgrows, hknown⟩ := hp
  obtain ⟨y, u, hy, hrest, hgrows', hknown'⟩ := hf x t hmid hgrows hknown
  refine ⟨y, u, ?_, hrest, hgrows.trans hgrows', hknown'⟩
  rw [bind_apply, hx]
  exact hy

/-- Something else may be known of the result. -/
theorem mono {known' : Builder → α → Prop} (hp : p.Lands allowed s rest known)
    (h : ∀ b x, s.builder.Extends allowed b → known b x → known' b x) :
    p.Lands allowed s rest known' := by
  obtain ⟨x, t, hx, hrest, hgrows, hknown⟩ := hp
  exact ⟨x, t, hx, hrest, hgrows, h _ _ hgrows hknown⟩

/-- More problems may be allowed. -/
theorem weaken {allowed' : Problem → Prop} (hp : p.Lands allowed s rest known)
    (h : ∀ problem, allowed problem → allowed' problem) : p.Lands allowed' s rest known := by
  obtain ⟨x, t, hx, hrest, hgrows, hknown⟩ := hp
  exact ⟨x, t, hx, hrest, hgrows.weaken h, hknown⟩

/-- The tokens that come next may be named in another way. -/
theorem upTo (hp : p.Lands allowed s mid known) (h : mid = rest) :
    p.Lands allowed s rest known := h ▸ hp

/-- What is made of the result. -/
theorem map {g : α → β} (hp : p.Lands allowed s rest known) :
    (g <$> p).Lands allowed s rest fun b y => ∃ x, y = g x ∧ known b x := by
  obtain ⟨x, t, hx, hrest, hgrows, hknown⟩ := hp
  refine ⟨g x, t, ?_, hrest, hgrows, x, rfl, hknown⟩
  rw [map_eq_pure_bind, bind_apply, hx]
  rfl

/-- An attempt at a rule that has a result. -/
theorem attempt (hp : p.Lands allowed s rest known) :
    (Parser.attempt p).Lands allowed s rest fun b r => ∃ x, r = .ok x ∧ known b x := by
  obtain ⟨x, t, hx, hrest, hgrows, hknown⟩ := hp
  refine ⟨.ok x, t, ?_, hrest, hgrows, x, rfl, hknown⟩
  simp only [Parser.attempt, hx]

/-- A look at the state, and a rule that depends on what is seen. -/
theorem look {v : α} (hp : p s = .ok v s) (hf : (f v).Lands allowed s rest known') :
    (p >>= f).Lands allowed s rest known' := by
  obtain ⟨y, u, hy, hland⟩ := hf
  refine ⟨y, u, ?_, hland⟩
  rw [bind_apply, hp]
  exact hy

/-- A rule that depends on the kind of the next token. -/
theorem on_kind {f : TokenKind → Parser β} {t : Token} {ts : List Token} {kind : TokenKind}
    (hs : s.cursor.rest = t :: ts) (hkind : t.kind = kind)
    (hf : (f kind).Lands allowed s rest known') :
    (currentKind >>= f).Lands allowed s rest known' := by
  refine look rfl ?_
  rw [Cursor.current_of_rest hs, hkind]
  exact hf

end Lands

/-! ### The steps -/

theorem lands_pure {x : α} (h : known s.builder x) :
    (pure x : Parser α).Lands allowed s s.cursor.rest known :=
  ⟨x, s, rfl, rfl, .refl _, h⟩

/-- Reading the next token. -/
theorem lands_advance {t : Token} (hs : s.cursor.rest = t :: rest) :
    advance.Lands allowed s rest fun _ x => x = t := by
  refine ⟨_, _, rfl, ?_, .position _ _, Cursor.current_of_rest hs⟩
  show s.cursor.rest.tail = rest
  rw [hs, List.tail_cons]

theorem lands_expect {t : Token} {kind : TokenKind} (hs : s.cursor.rest = t :: rest)
    (hkind : t.kind = kind) : (expect kind).Lands allowed s rest fun _ x => x = t := by
  refine .on_kind hs hkind ?_
  rw [if_pos rfl]
  exact lands_advance hs

theorem lands_expectMark {t : Token} {m : Mark} (hs : s.cursor.rest = t :: rest)
    (hkind : t.kind = .mark m) : (expectMark m).Lands allowed s rest fun _ _ => True := by
  refine (lands_expect hs hkind).bind fun _ t ht _ _ => ?_
  exact ht ▸ lands_pure trivial

theorem lands_expectKeyword {t : Token} {k : Keyword} (hs : s.cursor.rest = t :: rest)
    (hkind : t.kind = .keyword k) : (expectKeyword k).Lands allowed s rest fun _ _ => True := by
  refine (lands_expect hs hkind).bind fun _ t ht _ _ => ?_
  exact ht ▸ lands_pure trivial

/-- Reading the next token if it is of a kind, and it is. -/
theorem lands_accept {t : Token} {kind : TokenKind} (hs : s.cursor.rest = t :: rest)
    (hkind : t.kind = kind) : (accept kind).Lands allowed s rest fun _ read => read = true := by
  refine .on_kind hs hkind ?_
  rw [if_pos rfl]
  refine (lands_advance hs).bind fun _ t ht _ _ => ?_
  exact ht ▸ lands_pure rfl

/-- Reading the next token if it is of a kind, and it is not. -/
theorem lands_accept_not {kind : TokenKind} (hkind : s.cursor.current.kind ≠ kind) :
    (accept kind).Lands allowed s s.cursor.rest fun _ read => read = false := by
  refine .look (currentKind_apply s) ?_
  rw [if_neg hkind]
  exact lands_pure rfl

/-- A step of building that makes a node. -/
theorem lands_build {step : Build NodeId} {contents : Builder → Node → Prop}
    (h : Build.Makes allowed s.builder step contents) :
    (build step).Lands allowed s s.cursor.rest fun b id =>
      b.arena.Grounded id ∧ ∃ n, b.arena.node? id = some n ∧ contents b n := by
  obtain ⟨id, b, n, hstep, hgrows, hground, hnode, hcontents⟩ := h
  exact ⟨id, _, build_ok hstep, rfl, hgrows, hground, n, hnode, hcontents⟩

/-- A new node whose children are grounded. -/
theorem lands_add {n : Node} (h : ∀ c ∈ n.children, s.builder.arena.Grounded c) :
    (build (Build.add n)).Lands allowed s s.cursor.rest fun b id =>
      b.arena.Grounded id ∧ b.arena.node? id = some n := by
  have hmakes : Build.Makes allowed s.builder (Build.add n) fun _ m => m = n :=
    Build.makes_add h rfl
  refine (lands_build hmakes).mono ?_
  rintro b id - ⟨hground, _, hnode, rfl⟩
  exact ⟨hground, hnode⟩

/-! ### Rules that refer to themselves -/

/-- A rule that refers to itself, where the rule put in has a result. -/
theorem Lands.of_fix {ι : Type} {rule : (ι → Parser α) → ι → Parser α} {i : ι}
    (h : (rule (below s.left (fix rule)) i).Lands allowed s rest known) :
    Lands allowed (fix rule i) s rest known := by
  obtain ⟨x, t, hx, hland⟩ := h
  exact ⟨x, t, (fix_eq_below rule i s).trans hx, hland⟩

/-- Where fewer tokens are left than the bound, the bound does not matter. -/
theorem Lands.below {ι : Type} {rule : ι → Parser α} {i : ι} {n : Nat}
    (h : (rule i).Lands allowed s rest known) (hn : s.left < n) :
    (Parser.below n rule i).Lands allowed s rest known := by
  obtain ⟨x, t, hx, hland⟩ := h
  exact ⟨x, t, (below_apply hn).trans hx, hland⟩

/-! ### Repetition -/

variable {turn : β → Parser (Turn β α)} {b : β}

/-- A turn that is done. -/
theorem Lands.done (h : (turn b).Lands allowed s rest fun bld r => ∃ x, r = .done x ∧ known bld x) :
    (repeated turn b).Lands allowed s rest known := by
  obtain ⟨_, t, hturn, hrest, hgrows, x, rfl, hknown⟩ := h
  refine ⟨x, t, ?_, hrest, hgrows, hknown⟩
  rw [repeated, loop_eq, hturn]

/-- A turn that goes on, and the turns behind it. -/
theorem Lands.again {mid : List Token} {before : Builder → β → Prop}
    (h : (turn b).Lands allowed s mid fun bld r => ∃ b', r = .again b' ∧ before bld b')
    (hshort : mid.length < s.cursor.rest.length)
    (hrest : ∀ b' t, t.cursor.rest = mid → s.builder.Extends allowed t.builder →
      before t.builder b' → (repeated turn b').Lands allowed t rest known) :
    (repeated turn b).Lands allowed s rest known := by
  obtain ⟨_, t, hturn, hmid, hgrows, b', rfl, hbefore⟩ := h
  obtain ⟨x, u, hgo, hlast, hgrows', hknown⟩ := hrest b' t hmid hgrows hbefore
  have hlt : t.cursor.left < s.cursor.left := by
    rw [Cursor.left_eq_length hmid, s.cursor.left_eq]
    exact hshort
  refine ⟨x, u, ?_, hlast, hgrows.trans hgrows', hknown⟩
  rw [repeated, loop_eq, hturn]
  simp only [if_pos hlt]
  exact hgo

end Parser

end ShaderLang
