/-
**More tokens behind.**

A rule that leaves a token where it ends has not looked at the end of the tokens, as a rule; so it
does the same if more tokens stand behind the last one.  A rule that ends by reading a certain token
does the same even if that is the last one.  A report of a token that is not allowed spoils this, since
what is passed over then may go on into the tokens behind.

A rule that refers to itself is given itself with a bound on the tokens that are left, and the bound is
another one if there are more tokens.  So the terms are stated for two rules, one for each of the runs.

Main definitions:

* `ShaderLang.ParseState.followed` — a state with more tokens behind;
* `ShaderLang.Parser.Local`, `ShaderLang.Parser.Closed`, `ShaderLang.Parser.Steady` — rules that do the
  same where they leave a token, where they end, and where they only build;
* `ShaderLang.Parser.Twins` — a rule as it is given to another one in each of the runs.

Main results:

* `ShaderLang.Parser.Local.bind`, `ShaderLang.Parser.Local.close`, `ShaderLang.Parser.Closed.still` —
  rules in a row;
* `ShaderLang.Parser.local_repeated`, `ShaderLang.Parser.local_fix` — **rules repeated and referring to
  themselves**.
-/

import ShaderLang.Proofs.Grammar.Composition

set_option relaxedAutoImplicit false
set_option autoImplicit false

namespace ShaderLang

/-! ### More tokens -/

namespace Cursor

variable {c : Cursor} {m : TokenStream}

/-- The cursor with more tokens behind the last one, and their end. -/
def followed (c : Cursor) (m : TokenStream) : Cursor :=
  ⟨c.rest ++ m.tokens, m.stop, c.left + m.tokens.length, by rw [c.left_eq, List.length_append]⟩

@[simp] theorem left_followed (c : Cursor) (m : TokenStream) :
    (c.followed m).left = c.left + m.tokens.length := rfl

/-- A cursor is told by its tokens and the end. -/
theorem eq_of_rest {c d : Cursor} (hrest : c.rest = d.rest) (hstop : c.stop = d.stop) : c = d := by
  obtain ⟨_, _, _, rfl⟩ := c
  obtain ⟨_, _, _, rfl⟩ := d
  cases hrest
  cases hstop
  rfl

theorem peek_followed {ahead : Nat} (h : ahead < c.left) :
    (c.followed m).peek ahead = c.peek ahead := by
  rw [c.left_eq] at h
  simp only [peek, followed, List.getElem?_append_left h, List.getElem?_eq_getElem h,
    Option.getD_some]

/-- Only a token that is left is of another kind than the end. -/
theorem lt_left_of_kind {ahead : Nat} (h : (c.peek ahead).kind ≠ .endOfFile) : ahead < c.left := by
  rw [c.left_eq]
  by_contra hge
  rw [peek, List.getElem?_eq_none (Nat.le_of_not_lt hge)] at h
  exact h rfl

theorem current_followed (h : 0 < c.left) : (c.followed m).current = c.current := by
  rw [current_eq_peek, current_eq_peek, peek_followed h]

theorem next_followed (h : 0 < c.left) : (c.followed m).next = c.next.followed m := by
  refine eq_of_rest ?_ rfl
  rw [c.left_eq] at h
  exact List.tail_append_of_ne_nil (List.ne_nil_of_length_pos h)

end Cursor

namespace ParseState

/-- The state with more tokens behind the last one. -/
def followed (s : ParseState) (m : TokenStream) : ParseState :=
  { s with cursor := s.cursor.followed m }

variable {s : ParseState} {m : TokenStream}

theorem current_followed (h : 0 < s.left) :
    (s.followed m).cursor.current = s.cursor.current :=
  Cursor.current_followed h

theorem advanced_followed (h : 0 < s.left) : (s.followed m).advanced = s.advanced.followed m := by
  unfold advanced followed
  simp only [Cursor.next_followed h, Cursor.current_followed h]

end ParseState

namespace Parser

variable {ι α β : Type} {m : TokenStream} {s : ParseState}

/-! ### Rules that do the same -/

/-- Where the rule ends with a token left and nothing was reported, the other rule does the same with
more tokens behind. -/
def Local (m : TokenStream) (p q : Parser α) (s : ParseState) : Prop :=
  ∀ x t, p s = .ok x t → t.left ≤ s.left ∧ s.errors ≤ t.errors ∧
    (t.errors = 0 → 0 < t.left → q (s.followed m) = .ok x (t.followed m))

/-- The rule reads a token; and wherever it ends and nothing was reported, the other rule does the same
with more tokens behind. -/
def Closed (m : TokenStream) (p q : Parser α) (s : ParseState) : Prop :=
  ∀ x t, p s = .ok x t → t.left < s.left ∧ s.errors ≤ t.errors ∧
    (t.errors = 0 → q (s.followed m) = .ok x (t.followed m))

/-- The rule reads nothing, and the other rule does the same with more tokens behind. -/
def Steady (m : TokenStream) (p q : Parser α) (s : ParseState) : Prop :=
  ∀ x t, p s = .ok x t → t.left = s.left ∧ s.errors ≤ t.errors ∧
    q (s.followed m) = .ok x (t.followed m)

variable {p p' : Parser α} {f f' : α → Parser β}

theorem Closed.toLocal (h : p.Closed m p' s) : p.Local m p' s :=
  fun x t hp => ⟨Nat.le_of_lt (h x t hp).1, (h x t hp).2.1, fun herrors _ => (h x t hp).2.2 herrors⟩

theorem Steady.toLocal (h : p.Steady m p' s) : p.Local m p' s :=
  fun x t hp => ⟨Nat.le_of_eq (h x t hp).1, (h x t hp).2.1, fun _ _ => (h x t hp).2.2⟩

/-! ### Rules in a row -/

theorem map_eq_ok {g : α → β} {y : β} {t : ParseState} (h : (g <$> p) s = .ok y t) :
    ∃ x, p s = .ok x t := by
  rw [map_eq_pure_bind] at h
  obtain ⟨x, u, hx, h⟩ := bind_eq_ok h
  obtain ⟨-, rfl⟩ := EStateM.Result.ok.inj h
  exact ⟨x, hx⟩

theorem Local.bind (hp : p.Local m p' s) (hf : ∀ x t, (f x).Local m (f' x) t) :
    (p >>= f).Local m (p' >>= f') s := by
  intro y u hy
  obtain ⟨x, t, hx, hy⟩ := bind_eq_ok hy
  obtain ⟨hleft, herrors, hsame⟩ := hp x t hx
  obtain ⟨hleft', herrors', hsame'⟩ := hf x t y u hy
  refine ⟨hleft'.trans hleft, herrors.trans herrors', fun hnone hpos => ?_⟩
  rw [bind_apply, hsame (by omega) (by omega)]
  exact hsame' hnone hpos

/-- The second rule ends by reading a certain token, so the first one leaves a token. -/
theorem Local.close (hp : p.Local m p' s) (hf : ∀ x t, (f x).Closed m (f' x) t) :
    (p >>= f).Closed m (p' >>= f') s := by
  intro y u hy
  obtain ⟨x, t, hx, hy⟩ := bind_eq_ok hy
  obtain ⟨hleft, herrors, hsame⟩ := hp x t hx
  obtain ⟨hleft', herrors', hsame'⟩ := hf x t y u hy
  refine ⟨Nat.lt_of_lt_of_le hleft' hleft, herrors.trans herrors', fun hnone => ?_⟩
  rw [bind_apply, hsame (by omega) (by omega)]
  exact hsame' hnone

theorem Closed.still (hp : p.Closed m p' s) (hf : ∀ x t, (f x).Steady m (f' x) t) :
    (p >>= f).Closed m (p' >>= f') s := by
  intro y u hy
  obtain ⟨x, t, hx, hy⟩ := bind_eq_ok hy
  obtain ⟨hleft, herrors, hsame⟩ := hp x t hx
  obtain ⟨hleft', herrors', hsame'⟩ := hf x t y u hy
  refine ⟨hleft' ▸ hleft, herrors.trans herrors', fun hnone => ?_⟩
  rw [bind_apply, hsame (by omega)]
  exact hsame'

theorem Steady.bind (hp : p.Steady m p' s) (hf : ∀ x t, (f x).Steady m (f' x) t) :
    (p >>= f).Steady m (p' >>= f') s := by
  intro y u hy
  obtain ⟨x, t, hx, hy⟩ := bind_eq_ok hy
  obtain ⟨hleft, herrors, hsame⟩ := hp x t hx
  obtain ⟨hleft', herrors', hsame'⟩ := hf x t y u hy
  refine ⟨hleft'.trans hleft, herrors.trans herrors', ?_⟩
  rw [bind_apply, hsame]
  exact hsame'

theorem steady_pure (x : α) : (pure x : Parser α).Steady m (pure x) s := by
  intro y t hy
  obtain ⟨rfl, rfl⟩ := EStateM.Result.ok.inj hy
  exact ⟨rfl, Nat.le_refl _, rfl⟩

theorem local_pure (x : α) : (pure x : Parser α).Local m (pure x) s := (steady_pure x).toLocal

theorem Local.map {g : α → β} (hp : p.Local m p' s) : (g <$> p).Local m (g <$> p') s := by
  rw [map_eq_pure_bind, map_eq_pure_bind]
  exact hp.bind fun x _ => local_pure (g x)

theorem Closed.map {g : α → β} (hp : p.Closed m p' s) : (g <$> p).Closed m (g <$> p') s := by
  rw [map_eq_pure_bind, map_eq_pure_bind]
  exact hp.still fun x _ => steady_pure (g x)

/-! ### Reading tokens -/

/-- A rule that depends on the kind of the next token. -/
theorem Local.on_kind {f f' : TokenKind → Parser β}
    (h : (f s.cursor.current.kind).Local m (f' s.cursor.current.kind) s) :
    (currentKind >>= f).Local m (currentKind >>= f') s := by
  intro y u hy
  rw [bind_apply, currentKind_apply] at hy
  obtain ⟨hleft, herrors, hsame⟩ := h y u hy
  refine ⟨hleft, herrors, fun hnone hpos => ?_⟩
  rw [bind_apply, currentKind_apply, ParseState.current_followed (by omega)]
  exact hsame hnone hpos

theorem Closed.on_kind {f f' : TokenKind → Parser β}
    (h : (f s.cursor.current.kind).Closed m (f' s.cursor.current.kind) s) :
    (currentKind >>= f).Closed m (currentKind >>= f') s := by
  intro y u hy
  rw [bind_apply, currentKind_apply] at hy
  obtain ⟨hleft, herrors, hsame⟩ := h y u hy
  refine ⟨hleft, herrors, fun hnone => ?_⟩
  rw [bind_apply, currentKind_apply, ParseState.current_followed (by omega)]
  exact hsame hnone

theorem closed_unexpected (allowed : List TokenKind) {q : Parser α} :
    (unexpected allowed : Parser α).Closed m q s :=
  fun _ _ h => absurd h nofun

theorem steady_unexpected (allowed : List TokenKind) {q : Parser α} :
    (unexpected allowed : Parser α).Steady m q s :=
  fun _ _ h => absurd h nofun

theorem local_unexpected (allowed : List TokenKind) {q : Parser α} :
    (unexpected allowed : Parser α).Local m q s :=
  (closed_unexpected allowed).toLocal

theorem local_advance : advance.Local m advance s := by
  intro x t hx
  obtain ⟨rfl, rfl⟩ := EStateM.Result.ok.inj hx
  refine ⟨Nat.sub_le _ _, Nat.le_refl _, fun _ hpos => ?_⟩
  have hs : 0 < s.left := Nat.lt_of_lt_of_le hpos (Nat.sub_le _ _)
  show EStateM.Result.ok (s.followed m).cursor.current (s.followed m).advanced = _
  rw [ParseState.current_followed hs, ParseState.advanced_followed hs]
  rfl

/-- Reading the next token, which is not the end. -/
theorem closed_advance (h : s.cursor.current.kind ≠ .endOfFile) : advance.Closed m advance s := by
  intro x t hx
  obtain ⟨rfl, rfl⟩ := EStateM.Result.ok.inj hx
  have hs : 0 < s.left := Cursor.left_pos_of_kind h
  refine ⟨Nat.sub_lt hs Nat.one_pos, Nat.le_refl _, fun _ => ?_⟩
  show EStateM.Result.ok (s.followed m).cursor.current (s.followed m).advanced = _
  rw [ParseState.current_followed hs, ParseState.advanced_followed hs]
  rfl

theorem local_accept (kind : TokenKind) : (accept kind).Local m (accept kind) s := by
  refine .on_kind ?_
  split
  · exact local_advance.bind fun _ _ => local_pure _
  · exact local_pure _

theorem closed_expect (kind : TokenKind) (hkind : kind ≠ .endOfFile) :
    (expect kind).Closed m (expect kind) s := by
  refine .on_kind ?_
  split
  · next h => exact closed_advance (h ▸ hkind)
  · exact closed_unexpected _

theorem closed_expectMark (mark : Mark) : (expectMark mark).Closed m (expectMark mark) s :=
  (closed_expect (.mark mark) nofun).still fun _ _ => steady_pure _

theorem closed_expectKeyword (w : Keyword) :
    (expectKeyword w).Closed m (expectKeyword w) s :=
  (closed_expect (.keyword w) nofun).still fun _ _ => steady_pure _

/-- Reading a token of the kind ends the rule; without one it ends in the other way. -/
theorem Closed.accept (kind : TokenKind) (hkind : kind ≠ .endOfFile) {f f' : Bool → Parser β}
    (htrue : ∀ t, (f true).Steady m (f' true) t) (hfalse : (f false).Closed m (f' false) s) :
    (Parser.accept kind >>= f).Closed m (Parser.accept kind >>= f') s := by
  by_cases hnext : s.cursor.current.kind = kind
  · have hs : 0 < s.left := Cursor.left_pos_of_kind (hnext ▸ hkind)
    intro y u hy
    rw [bind_apply, accept_of_kind hnext] at hy
    obtain ⟨hleft, herrors, hsame⟩ := htrue _ y u hy
    refine ⟨hleft ▸ Nat.sub_lt hs Nat.one_pos, herrors, fun _ => ?_⟩
    have hnext' : (s.followed m).cursor.current.kind = kind := by
      rwa [ParseState.current_followed hs]
    rw [bind_apply, accept_of_kind hnext', ParseState.advanced_followed hs]
    exact hsame
  · intro y u hy
    rw [bind_apply, accept_of_ne hnext] at hy
    obtain ⟨hleft, herrors, hsame⟩ := hfalse y u hy
    refine ⟨hleft, herrors, fun hnone => ?_⟩
    have hnext' : (s.followed m).cursor.current.kind ≠ kind := by
      rwa [ParseState.current_followed (by omega)]
    rw [bind_apply, accept_of_ne hnext']
    exact hsame hnone

/-- Reading a certain token ends the rule; any other one is not allowed. -/
theorem closed_stop (kind : TokenKind) (hkind : kind ≠ .endOfFile) {allowed : List TokenKind}
    {f : Token → Parser β} (hf : ∀ x t, (f x).Steady m (f x) t) :
    (currentKind >>= fun next => if next = kind then advance >>= f else unexpected allowed).Closed m
      (currentKind >>= fun next => if next = kind then advance >>= f else unexpected allowed) s := by
  refine .on_kind ?_
  split
  · next h => exact (closed_advance (h ▸ hkind)).still hf
  · exact closed_unexpected _

/-! ### Looking ahead -/

section

variable {γ : Type} {ahead : Parser γ} {f f' : γ → Parser β}

/-- A rule behind a look at the tokens, whose answer is the same with more of them behind wherever the
rule then has a result. -/
theorem Local.look (hstay : ∀ x t, ahead s = .ok x t → t = s)
    (hlook : ∀ x y u, ahead s = .ok x s → f x s = .ok y u →
      ahead (s.followed m) = .ok x (s.followed m))
    (hf : ∀ x, (f x).Local m (f' x) s) : (ahead >>= f).Local m (ahead >>= f') s := by
  intro y u hrun
  obtain ⟨x, t, hx, hy⟩ := bind_eq_ok hrun
  obtain rfl := hstay x t hx
  obtain ⟨hleft, herrors, hsame⟩ := hf x y u hy
  refine ⟨hleft, herrors, fun hnone hpos => ?_⟩
  rw [bind_apply, hlook x y u hx hy]
  exact hsame hnone hpos

theorem Closed.look (hstay : ∀ x t, ahead s = .ok x t → t = s)
    (hlook : ∀ x y u, ahead s = .ok x s → f x s = .ok y u →
      ahead (s.followed m) = .ok x (s.followed m))
    (hf : ∀ x, (f x).Closed m (f' x) s) : (ahead >>= f).Closed m (ahead >>= f') s := by
  intro y u hrun
  obtain ⟨x, t, hx, hy⟩ := bind_eq_ok hrun
  obtain rfl := hstay x t hx
  obtain ⟨hleft, herrors, hsame⟩ := hf x y u hy
  refine ⟨hleft, herrors, fun hnone => ?_⟩
  rw [bind_apply, hlook x y u hx hy]
  exact hsame hnone

/-- A look at two tokens, if the rule behind it reads one and leaves one. -/
theorem Closed.look_two (hstay : ∀ x t, ahead s = .ok x t → t = s)
    (hlook : ∀ x, 2 ≤ s.left → ahead s = .ok x s → ahead (s.followed m) = .ok x (s.followed m))
    (hf : ∀ x, (f x).Closed m (f' x) s) : (ahead >>= f).Local m (ahead >>= f') s := by
  intro y u hrun
  obtain ⟨x, t, hx, hy⟩ := bind_eq_ok hrun
  obtain rfl := hstay x t hx
  obtain ⟨hleft, herrors, hsame⟩ := hf x y u hy
  refine ⟨Nat.le_of_lt hleft, herrors, fun hnone hpos => ?_⟩
  rw [bind_apply, hlook x (by omega) hx]
  exact hsame hnone

end

/-! ### Going on behind an error -/

/-- A rule that may meet a token that it does not allow, if the token is reported then. -/
theorem Local.attempt {f f' : Except (Token × List TokenKind) α → Parser β} (hp : p.Local m p' s)
    (hok : ∀ x t, (f (.ok x)).Local m (f' (.ok x)) t)
    (herror : ∀ found allowed t, p s = .error (.unexpected found allowed) t →
      ∀ y u, f (.error (found, allowed)) t = .ok y u → u.left ≤ s.left ∧ s.errors < u.errors) :
    (Parser.attempt p >>= f).Local m (Parser.attempt p' >>= f') s := by
  intro y u hy
  obtain ⟨answer, t, hanswer, hy⟩ := bind_eq_ok hy
  rcases attempt_eq_ok hanswer with ⟨x, rfl, hx⟩ | ⟨found, allowed, rfl, hx⟩
  · obtain ⟨hleft, herrors, hsame⟩ := hp x t hx
    obtain ⟨hleft', herrors', hsame'⟩ := hok x t y u hy
    refine ⟨hleft'.trans hleft, herrors.trans herrors', fun hnone hpos => ?_⟩
    have hattempt : Parser.attempt p' (s.followed m) = .ok (.ok x) (t.followed m) := by
      unfold Parser.attempt
      rw [hsame (by omega) (by omega)]
    rw [bind_apply, hattempt]
    exact hsame' hnone hpos
  · obtain ⟨hleft, hlt⟩ := herror found allowed t hx y u hy
    exact ⟨hleft, Nat.le_of_lt hlt, fun hnone => by omega⟩

/-! ### Building -/

/-- A step of building that takes no report away. -/
theorem steady_build {step : Build α}
    (h : ∀ b x b', step b = .ok x b' → b.errors ≤ b'.errors) :
    (build step).Steady m (build step) s := by
  intro x t hx
  rcases hb : step s.builder with ⟨y, b⟩ | ⟨e, b⟩
  · rw [build_ok hb] at hx
    obtain ⟨rfl, rfl⟩ := EStateM.Result.ok.inj hx
    refine ⟨rfl, h _ _ _ hb, ?_⟩
    have hb' : step (s.followed m).builder = .ok y b := hb
    rw [build_ok hb']
    rfl
  · rw [build_error hb] at hx
    contradiction

/-- A step inside a part of a program. -/
theorem steady_inner {step : Build α} (h : step.Inner) :
    (build step).Steady m (build step) s := by
  refine steady_build fun b x b' hb => ?_
  have hsteps := h b
  unfold Build.after at hsteps
  rw [hb] at hsteps
  exact hsteps.grows.errors

/-- A new node. -/
theorem steady_add (n : Node) : (build (Build.add n)).Steady m (build (Build.add n)) s := by
  refine steady_build fun b x b' hb => ?_
  obtain ⟨-, rfl⟩ := EStateM.Result.ok.inj hb
  exact Nat.le_refl _

theorem steady_buildLink (kind : ListKind) (previous : Option NodeId) (item : NodeId) :
    (buildLink kind previous item).Steady m (buildLink kind previous item) s :=
  (steady_add _).bind fun _ _ => steady_pure _

/-! ### Repetition and recursion -/

/-- A repetition does the same if each turn does.  The induction is on the tokens left. -/
theorem local_repeated {turn turn' : β → Parser (Turn β α)}
    (h : ∀ b t, (turn b).Local m (turn' b) t) (b : β) (s : ParseState) :
    (repeated turn b).Local m (repeated turn' b) s := by
  intro x u hx
  induction hl : s.left using Nat.strongRecOn generalizing b s with
  | ind l ih =>
      subst hl
      have hloop : repeated turn b s = _ := loop_eq turn b s
      rw [hloop] at hx
      rcases hturn : turn b s with ⟨b' | y, t⟩ | ⟨e, t⟩
      · obtain ⟨hleft, herrors, hsame⟩ := h b s _ t hturn
        rw [hturn] at hx
        dsimp only at hx
        by_cases hlt : t.left < s.left
        · rw [if_pos hlt] at hx
          obtain ⟨hleft', herrors', hsame'⟩ := ih t.left hlt b' t hx rfl
          refine ⟨hleft'.trans hleft, herrors.trans herrors', fun hnone hpos => ?_⟩
          have hturn' := hsame (by omega) (by omega)
          have hlt' : (t.followed m).left < (s.followed m).left := Nat.add_lt_add_right hlt _
          have hloop' : repeated turn' b (s.followed m) = _ := loop_eq turn' b _
          rw [hloop', hturn']
          dsimp only
          rw [if_pos hlt']
          exact hsame' hnone hpos
        · rw [if_neg hlt] at hx
          contradiction
      · rw [hturn] at hx
        obtain ⟨rfl, rfl⟩ := EStateM.Result.ok.inj hx
        obtain ⟨hleft, herrors, hsame⟩ := h b s _ t hturn
        refine ⟨hleft, herrors, fun hnone hpos => ?_⟩
        have hloop' : repeated turn' b (s.followed m) = _ := loop_eq turn' b _
        rw [hloop', hsame hnone hpos]
      · rw [hturn] at hx
        contradiction

/-- Two rules that do the same where they leave a token; the first one is put together regularly. -/
structure Twins (m : TokenStream) (rule rule' : ι → Parser α) : Prop where
  same : ∀ i s, (rule i).Local m (rule' i) s
  regular : ∀ i, (rule i).Regular .inside

/-- **A rule that refers to itself does the same if it does where the references do.**  The induction
is on the tokens left: a reference stands behind where the rule began. -/
theorem local_fix {rule : (ι → Parser α) → ι → Parser α}
    (hregular : ∀ i, Regular .inside (fix rule i))
    (h : ∀ n, Twins m (below n (fix rule)) (below (n + m.tokens.length) (fix rule)) → ∀ i s,
      (rule (below n (fix rule)) i).Local m (rule (below (n + m.tokens.length) (fix rule)) i) s)
    (i : ι) (s : ParseState) : Local m (fix rule i) (fix rule i) s := by
  induction hl : s.left using Nat.strongRecOn generalizing i s with
  | ind l ih =>
      subst hl
      have hsame : ∀ j t, (below s.left (fix rule) j).Local m
          (below (s.left + m.tokens.length) (fix rule) j) t := by
        intro j t x u hx
        by_cases hlt : t.left < s.left
        · have hx' : fix rule j t = .ok x u := (below_apply hlt).symm.trans hx
          obtain ⟨hleft, herrors, hsame⟩ := ih t.left hlt j t rfl x u hx'
          refine ⟨hleft, herrors, fun hnone hpos => ?_⟩
          have hlt' : (t.followed m).left < s.left + m.tokens.length := Nat.add_lt_add_right hlt _
          exact (below_apply hlt').trans (hsame hnone hpos)
        · simp only [below, if_neg hlt] at hx
          contradiction
      intro x u hx
      rw [fix_eq_below rule i s] at hx
      have htwins := Twins.mk hsame (regular_below hregular)
      obtain ⟨hleft, herrors, hsame⟩ := h s.left htwins i s x u hx
      refine ⟨hleft, herrors, fun hnone hpos => ?_⟩
      rw [fix_eq_below rule i (s.followed m)]
      exact hsame hnone hpos

end Parser

end ShaderLang
