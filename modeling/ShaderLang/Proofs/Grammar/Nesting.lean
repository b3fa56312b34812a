/-
**Braces between two states.**

Where a rule has a result and no token was reported, the tokens that it read take the depth of the
braces from where it was to where the rule says.  A report spoils this, since what is passed over then
is passed over without counting braces.  But outside of all braces nothing is passed over: there a
rule reads no closing brace, and reports no token, unless it has read an opening one before.

Main definitions:

* `ShaderLang.depthBehind` — how deep the braces are behind some tokens;
* `ShaderLang.ParseState.Passes` — the tokens read between two states;
* `ShaderLang.Parser.Nests`, `ShaderLang.Parser.Keeps` — rules that change the depth, and rules that
  keep it.

Main results:

* `ShaderLang.eq_of_matching` — **the brace that matches is determined by the tokens**;
* `ShaderLang.Parser.Nests.bind_of`, `ShaderLang.Parser.nests_repeated` — **rules in a row and repeated**.
-/

import ShaderLang.Proofs.Grammar.Course

set_option relaxedAutoImplicit false
set_option autoImplicit false

namespace ShaderLang

/-! ### The depth of braces -/

/-- A brace, opening or closing. -/
def TokenKind.isBrace : TokenKind → Bool
  | .mark .openCurly => true
  | .mark .closeCurly => true
  | _ => false

/-- How deep the braces are behind the tokens; nothing if one closes that was never opened. -/
def depthBehind : Nat → List Token → Option Nat
  | depth, [] => some depth
  | depth, t :: ts =>
      match t.kind, depth with
      | .mark .openCurly, _ => depthBehind (depth + 1) ts
      | .mark .closeCurly, 0 => none
      | .mark .closeCurly, outer + 1 => depthBehind outer ts
      | _, _ => depthBehind depth ts

section

variable {t : Token} {d e : Nat} {ts us : List Token}

@[simp] theorem depthBehind_nil (d : Nat) : depthBehind d [] = some d := rfl

theorem depthBehind_of_open (h : t.kind = .mark .openCurly) (d : Nat) (ts : List Token) :
    depthBehind d (t :: ts) = depthBehind (d + 1) ts := by
  simp only [depthBehind, h]

theorem depthBehind_of_close (h : t.kind = .mark .closeCurly) (d : Nat) (ts : List Token) :
    depthBehind (d + 1) (t :: ts) = depthBehind d ts := by
  simp only [depthBehind, h]

theorem depthBehind_zero_of_close (h : t.kind = .mark .closeCurly) (ts : List Token) :
    depthBehind 0 (t :: ts) = none := by
  simp only [depthBehind, h]

theorem depthBehind_of_plain (h : t.kind.isBrace = false) (d : Nat) (ts : List Token) :
    depthBehind d (t :: ts) = depthBehind d ts := by
  rw [depthBehind.eq_def]
  dsimp only
  split
  case h_1 hopen | h_2 hopen | h_3 hopen =>
      rw [hopen] at h
      contradiction
  case h_4 => rfl

/-- A brace opens or closes. -/
theorem kind_of_isBrace {kind : TokenKind} (h : kind.isBrace = true) :
    kind = .mark .openCurly ∨ kind = .mark .closeCurly := by
  unfold TokenKind.isBrace at h
  split at h
  · exact .inl rfl
  · exact .inr rfl
  · contradiction

theorem depthBehind_append (d : Nat) (ts us : List Token) :
    depthBehind d (ts ++ us) = (depthBehind d ts).bind fun e => depthBehind e us := by
  induction ts generalizing d with
  | nil => rfl
  | cons t ts ih =>
      rw [List.cons_append]
      cases hbrace : t.kind.isBrace with
      | false => rw [depthBehind_of_plain hbrace, depthBehind_of_plain hbrace, ih]
      | true =>
          rcases kind_of_isBrace hbrace with hopen | hclose
          · rw [depthBehind_of_open hopen, depthBehind_of_open hopen, ih]
          · cases d with
            | zero =>
                rw [depthBehind_zero_of_close hclose, depthBehind_zero_of_close hclose,
                  Option.bind_none]
            | succ d => rw [depthBehind_of_close hclose, depthBehind_of_close hclose, ih]

theorem depthBehind_append_of {ts us : List Token} (h : depthBehind d ts = some e) :
    depthBehind d (ts ++ us) = depthBehind e us := by
  rw [depthBehind_append, h, Option.bind_some]

/-- Tokens that are no braces leave the depth as it is. -/
theorem depthBehind_of_flat (h : ∀ x ∈ ts, x.kind.isBrace = false) : depthBehind d ts = some d := by
  induction ts with
  | nil => rfl
  | cons t ts ih =>
      rw [depthBehind_of_plain (h t (List.mem_cons_self ..))]
      exact ih fun x hx => h x (List.mem_cons_of_mem _ hx)

/-- Behind tokens whose braces match, a closing brace closes what was opened before them. -/
theorem depthBehind_balanced_close (hts : depthBehind 0 ts = some 0) (ht : t.kind = .mark .closeCurly)
    (us : List Token) : depthBehind 0 (ts ++ t :: us) = none := by
  rw [depthBehind_append_of hts, depthBehind_zero_of_close ht]

/-- **The brace that matches is determined by the tokens**: there is only one closing brace with
matching braces in front of it. -/
theorem eq_of_matching {b c : Token} {xs ys : List Token} (hts : depthBehind 0 ts = some 0)
    (hus : depthBehind 0 us = some 0) (hb : b.kind = .mark .closeCurly)
    (hc : c.kind = .mark .closeCurly) (h : ts ++ b :: xs = us ++ c :: ys) : ts = us ∧ xs = ys := by
  rcases List.append_eq_append_iff.1 h with ⟨vs, rfl, hvs⟩ | ⟨vs, rfl, hvs⟩
  · cases vs with
    | nil => exact ⟨(List.append_nil _).symm, (List.cons.inj hvs).2⟩
    | cons v vs =>
        obtain ⟨rfl, -⟩ := List.cons.inj hvs
        rw [depthBehind_balanced_close hts hb] at hus
        contradiction
  · cases vs with
    | nil => exact ⟨List.append_nil _, (List.cons.inj hvs).2.symm⟩
    | cons v vs =>
        obtain ⟨rfl, -⟩ := List.cons.inj hvs
        rw [depthBehind_balanced_close hus hc] at hts
        contradiction

end

/-! ### Between two states -/

/-- The first brace among the tokens is an opening one. -/
def OpensFirst (ts : List Token) : Prop :=
  ∃ before brace behind, ts = before ++ brace :: behind ∧ (∀ x ∈ before, x.kind.isBrace = false) ∧
    brace.kind = .mark .openCurly

namespace OpensFirst

variable {ts us : List Token}

theorem append (h : OpensFirst ts) (us : List Token) : OpensFirst (ts ++ us) := by
  obtain ⟨before, brace, behind, rfl, hbefore, hopen⟩ := h
  exact ⟨before, brace, behind ++ us, by simp, hbefore, hopen⟩

theorem behind (h : OpensFirst us) (hts : ∀ x ∈ ts, x.kind.isBrace = false) :
    OpensFirst (ts ++ us) := by
  obtain ⟨before, brace, behind, rfl, hbefore, hopen⟩ := h
  refine ⟨ts ++ before, brace, behind, by simp, fun x hx => ?_, hopen⟩
  rcases List.mem_append.1 hx with hx | hx
  · exact hts x hx
  · exact hbefore x hx

end OpensFirst

namespace ParseState

/-- The tokens were read between the two states, and no report was taken back.  Outside of all braces
nothing was reported and no brace was read, unless one was opened first. -/
structure Passes (outside : Prop) (s : ParseState) (read : List Token) (t : ParseState) : Prop where
  rest_eq : s.cursor.rest = read ++ t.cursor.rest
  errors_le : s.errors ≤ t.errors
  quiet : outside → t.errors = s.errors ∧ (∀ x ∈ read, x.kind.isBrace = false) ∨ OpensFirst read

namespace Passes

variable {outside : Prop} {s t u : ParseState} {read more : List Token}

theorem refl : s.Passes outside [] s := ⟨rfl, Nat.le_refl _, fun _ => .inl ⟨rfl, nofun⟩⟩

/-- What is asked for outside of all braces may be asked for behind the first tokens as well, if none of
them was a brace. -/
theorem trans {outside' : Prop} (h : s.Passes outside read t) (h' : t.Passes outside' more u)
    (hout : outside → t.errors = s.errors → (∀ x ∈ read, x.kind.isBrace = false) → outside') :
    s.Passes outside (read ++ more) u where
  rest_eq := by rw [h.rest_eq, h'.rest_eq, List.append_assoc]
  errors_le := h.errors_le.trans h'.errors_le
  quiet := by
    intro hs
    rcases h.quiet hs with ⟨herrors, hread⟩ | hopens
    · rcases h'.quiet (hout hs herrors hread) with ⟨herrors', hmore⟩ | hopens
      · refine .inl ⟨herrors'.trans herrors, fun x hx => ?_⟩
        exact (List.mem_append.1 hx).elim (hread x) (hmore x)
      · exact .inr (hopens.behind hread)
    · exact .inr (hopens.append _)

/-- Less may be asked for. -/
theorem mono {outside' : Prop} (h : s.Passes outside read t) (hout : outside' → outside) :
    s.Passes outside' read t :=
  ⟨h.rest_eq, h.errors_le, fun hs => h.quiet (hout hs)⟩

theorem suffix (h : s.Passes outside read t) : t.cursor.rest <:+ s.cursor.rest :=
  ⟨read, h.rest_eq.symm⟩

end Passes

/-- Reading a token that is no brace leaves every depth as it is. -/
theorem passes_advanced (outside : Prop) {s : ParseState}
    (h : s.cursor.current.kind.isBrace = false) :
    ∃ read, s.Passes outside read s.advanced ∧ ∀ d, depthBehind d read = some d := by
  cases hrest : s.cursor.rest with
  | nil =>
      have hrest' : s.advanced.cursor.rest = [] := by
        show s.cursor.rest.tail = []
        rw [hrest, List.tail_nil]
      exact ⟨[], ⟨by rw [hrest, hrest', List.append_nil], Nat.le_refl _, fun _ => .inl ⟨rfl, nofun⟩⟩,
        depthBehind_nil⟩
  | cons t ts =>
      have hrest' : s.advanced.cursor.rest = ts := by
        show s.cursor.rest.tail = ts
        rw [hrest, List.tail_cons]
      have hcurrent : s.cursor.current = t := by rw [Cursor.current, hrest]
      rw [hcurrent] at h
      have hflat : ∀ x ∈ [t], x.kind.isBrace = false := fun x hx => List.mem_singleton.1 hx ▸ h
      exact ⟨[t], ⟨by rw [hrest, hrest', List.singleton_append], Nat.le_refl _,
        fun _ => .inl ⟨rfl, hflat⟩⟩, fun _ => depthBehind_of_flat hflat⟩

/-- A mark that is next is the first of the tokens that are left. -/
theorem rest_eq_cons {s : ParseState} {m : Mark} (h : s.cursor.current.kind = .mark m) :
    s.cursor.rest = s.cursor.current :: s.advanced.cursor.rest := by
  have hpos : 0 < s.cursor.left := Cursor.left_pos_of_kind (by rw [h]; exact nofun)
  rw [s.cursor.left_eq] at hpos
  obtain ⟨t, ts, hrest⟩ := List.exists_cons_of_length_pos hpos
  have hrest' : s.advanced.cursor.rest = s.cursor.rest.tail := rfl
  rw [hrest', Cursor.current, hrest, List.tail_cons]

/-- Reading an opening brace. -/
theorem Passes.opened {outside : Prop} {s : ParseState} (h : s.cursor.current.kind = .mark .openCurly) :
    s.Passes outside [s.cursor.current] s.advanced :=
  ⟨rest_eq_cons h, Nat.le_refl _, fun _ => .inr ⟨[], _, [], rfl, nofun, h⟩⟩

/-- Reading a closing brace, which is not done outside of all braces. -/
theorem Passes.closed {s : ParseState} (h : s.cursor.current.kind = .mark .closeCurly) :
    s.Passes False [s.cursor.current] s.advanced :=
  ⟨rest_eq_cons h, Nat.le_refl _, False.elim⟩

end ParseState

namespace Parser

variable {ι α β : Type}

/-! ### Rules between depths -/

/-- The rule takes the depth of the braces from the first to the second where it has a result and no
token was reported. -/
def Nests (outside : Prop) (d e : Nat) (p : Parser α) (s : ParseState) : Prop :=
  match p s with
  | .ok _ t => ∃ read, s.Passes outside read t ∧ (t.errors = s.errors → depthBehind d read = some e)
  | .error (.unexpected _ _) t => ∃ read, s.Passes outside read t
  | .error (.fault _) _ => True

/-- The rule keeps every depth in every state. -/
def Keeps (p : Parser α) : Prop := ∀ outside d s, p.Nests outside d d s

variable {outside : Prop} {d e c : Nat} {s t : ParseState} {p : Parser α} {f : α → Parser β}

namespace Nests

theorem of_ok (h : p.Nests outside d e s) {x : α} (hp : p s = .ok x t) :
    ∃ read, s.Passes outside read t ∧ (t.errors = s.errors → depthBehind d read = some e) := by
  unfold Nests at h
  rwa [hp] at h

theorem of_unexpected (h : p.Nests outside d e s) {found : Token} {allowed : List TokenKind}
    (hp : p s = .error (.unexpected found allowed) t) : ∃ read, s.Passes outside read t := by
  unfold Nests at h
  rwa [hp] at h

theorem intro
    (hok : ∀ x t, p s = .ok x t →
      ∃ read, s.Passes outside read t ∧ (t.errors = s.errors → depthBehind d read = some e))
    (hun : ∀ found allowed t, p s = .error (.unexpected found allowed) t →
      ∃ read, s.Passes outside read t) : p.Nests outside d e s := by
  unfold Nests
  split
  · next x t hp => exact hok x t hp
  · next found allowed t hp => exact hun found allowed t hp
  · trivial

/-- Only what a rule does in the state matters. -/
theorem congr {q : Parser α} (h : p.Nests outside d e s) (hpq : q s = p s) :
    q.Nests outside d e s := by
  unfold Nests at h ⊢
  rwa [hpq]

/-- A rule that goes on as another one does behind tokens that were read.  If none of them was a brace,
the other one stands outside of all braces where this one does. -/
theorem behind {q : Parser α} {outside' : Prop} {read : List Token} (hread : s.Passes outside read t)
    (hdepth : t.errors = s.errors → depthBehind d read = some e) (h : q.Nests outside' e c t)
    (hout : outside → d = e → outside') (hrun : p s = q t) : p.Nests outside d c s := by
  have hflat : outside → t.errors = s.errors → (∀ x ∈ read, x.kind.isBrace = false) → outside' := by
    intro hs herrors hplain
    have hsame := hdepth herrors
    rw [depthBehind_of_flat hplain] at hsame
    exact hout hs (Option.some.inj hsame)
  refine intro (fun y u hy => ?_) fun found allowed u hy => ?_
  · obtain ⟨more, hmore, hdepth'⟩ := h.of_ok (hrun.symm.trans hy)
    have hle := hread.errors_le
    have hle' := hmore.errors_le
    refine ⟨read ++ more, hread.trans hmore hflat, fun hsame => ?_⟩
    rw [depthBehind_append_of (hdepth (by omega))]
    exact hdepth' (by omega)
  · obtain ⟨more, hmore⟩ := h.of_unexpected (hrun.symm.trans hy)
    exact ⟨read ++ more, hread.trans hmore hflat⟩

/-- A rule that ends early because another one does. -/
theorem of_error {q : Parser β} (h : q.Nests outside d e s) {halt : Halt} (hq : q s = .error halt t)
    (hp : p s = .error halt t) : p.Nests outside d c s := by
  unfold Nests at h ⊢
  rw [hq] at h
  rw [hp]
  cases halt with
  | unexpected => exact h
  | fault => trivial

/-- Rules in a row; the second one stands behind where the first one began. -/
theorem bind_of (outside' : Prop) (hp : p.Nests outside d e s)
    (hf : ∀ x t, t.cursor.rest <:+ s.cursor.rest → (f x).Nests outside' e c t)
    (hout : outside → d = e → outside') : (p >>= f).Nests outside d c s := by
  rcases hps : p s with ⟨x, t⟩ | ⟨halt, t⟩
  · obtain ⟨read, hread, hdepth⟩ := hp.of_ok hps
    exact behind hread hdepth (hf x t hread.suffix) hout (by rw [bind_apply, hps])
  · exact of_error hp hps (by rw [bind_apply, hps])

/-- Rules in a row, outside of all braces or not. -/
theorem bind (hp : p.Nests outside d e s)
    (hf : ∀ x t, t.cursor.rest <:+ s.cursor.rest → (f x).Nests outside e c t) :
    (p >>= f).Nests outside d c s :=
  hp.bind_of outside hf fun hs _ => hs

/-- A rule in front of one that keeps the depth. -/
theorem andThen (hp : p.Nests outside d e s) (hf : ∀ x, (f x).Keeps) :
    (p >>= f).Nests outside d e s :=
  hp.bind fun x t _ => hf x outside e t

/-- Less may be asked for. -/
theorem mono {outside' : Prop} (h : p.Nests outside d e s) (hout : outside' → outside) :
    p.Nests outside' d e s := by
  refine intro (fun x t hx => ?_) fun found allowed t hx => ?_
  · obtain ⟨read, hread, hdepth⟩ := h.of_ok hx
    exact ⟨read, hread.mono hout, hdepth⟩
  · obtain ⟨read, hread⟩ := h.of_unexpected hx
    exact ⟨read, hread.mono hout⟩

/-- A look at the state, and a rule that depends on what is seen. -/
theorem look {v : α} (hp : p s = .ok v s) (hf : (f v).Nests outside d e s) :
    (p >>= f).Nests outside d e s :=
  hf.congr (by rw [bind_apply, hp])

end Nests

theorem Keeps.bind (hp : p.Keeps) (hf : ∀ x, (f x).Keeps) : (p >>= f).Keeps :=
  fun outside d s => (hp outside d s).andThen hf

/-! ### The steps -/

theorem keeps_pure (x : α) : (pure x : Parser α).Keeps :=
  fun _ d _ => ⟨[], .refl, fun _ => depthBehind_nil d⟩

/-- Without a result nothing is said of the depth. -/
theorem nests_unexpected (allowed : List TokenKind) :
    (unexpected allowed : Parser α).Nests outside d e s :=
  ⟨[], .refl⟩

/-- A mark that must be there, and is read. -/
theorem nests_expectMark {m : Mark}
    (hread : s.cursor.current.kind = .mark m → ∃ read, s.Passes outside read s.advanced ∧
      depthBehind d read = some e) : (expectMark m).Nests outside d e s := by
  unfold Nests
  by_cases hkind : s.cursor.current.kind = .mark m
  · obtain ⟨read, hread, hdepth⟩ := hread hkind
    rw [expectMark_of_kind hkind]
    exact ⟨read, hread, fun _ => hdepth⟩
  · rw [expectMark_of_ne hkind]
    exact ⟨[], .refl⟩

theorem nests_expectOpen : (expectMark .openCurly).Nests outside d (d + 1) s := by
  refine nests_expectMark fun hkind => ⟨_, .opened hkind, ?_⟩
  rw [depthBehind_of_open hkind, depthBehind_nil]

/-- A closing brace is not read outside of all braces. -/
theorem nests_expectClose : (expectMark .closeCurly).Nests False (d + 1) d s := by
  refine nests_expectMark fun hkind => ⟨_, .closed hkind, ?_⟩
  rw [depthBehind_of_close hkind, depthBehind_nil]

/-! ### Building -/

/-- A step of building that reports no token. -/
theorem keeps_build {step : Build α}
    (h : ∀ b x b', step b = .ok x b' → b'.errors = b.errors) : (build step).Keeps := by
  intro outside d s
  unfold Nests
  rcases hb : step s.builder with ⟨x, b⟩ | ⟨e, b⟩
  · rw [build_ok hb]
    have herrors : b.errors = s.builder.errors := h _ _ _ hb
    exact ⟨[], ⟨rfl, Nat.le_of_eq herrors.symm, fun _ => .inl ⟨herrors, nofun⟩⟩,
      fun _ => depthBehind_nil d⟩
  · rw [build_error hb]
    trivial

theorem keeps_add (n : Node) : (build (Build.add n)).Keeps := by
  refine keeps_build fun b x b' hb => ?_
  obtain ⟨-, rfl⟩ := EStateM.Result.ok.inj hb
  rfl

theorem keeps_buildLink (kind : ListKind) (previous : Option NodeId) (item : NodeId) :
    (buildLink kind previous item).Keeps :=
  (keeps_add _).bind fun _ => keeps_pure _

/-! ### Repetition -/

/-- A repetition keeps a depth if each turn does, wherever it may begin.  The induction is on the
tokens left. -/
theorem nests_repeated {turn : β → Parser (Turn β α)} (b : β) (s : ParseState)
    (h : ∀ b t, t.cursor.rest <:+ s.cursor.rest → (turn b).Nests outside d d t) :
    (repeated turn b).Nests outside d d s := by
  induction hleft : s.left using Nat.strongRecOn generalizing b s with
  | ind l ih =>
      subst hleft
      have hloop : repeated turn b s = _ := loop_eq turn b s
      have hturn := h b s (List.suffix_refl _)
      rcases ht : turn b s with ⟨b' | x, t⟩ | ⟨halt, t⟩
      · obtain ⟨read, hread, hdepth⟩ := hturn.of_ok ht
        rw [ht] at hloop
        dsimp only at hloop
        by_cases hlt : t.left < s.left
        · rw [if_pos hlt] at hloop
          have hrest := ih t.left hlt b' t (fun b u hu => h b u (hu.trans hread.suffix)) rfl
          exact .behind hread hdepth hrest (fun hs _ => hs) hloop
        · rw [if_neg hlt] at hloop
          unfold Nests
          rw [hloop]
          trivial
      · unfold Nests
        rw [hloop, ht]
        exact hturn.of_ok ht
      · exact .of_error hturn ht (by rw [hloop, ht])

end Parser

end ShaderLang
