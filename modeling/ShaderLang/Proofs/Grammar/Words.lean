/-
**What a rule does depends on the words alone.**

A token is a word, which is its kind and its text, at a position.  States are alike if the same words
are left to be read and only positions and reports set the builders apart; how many alternatives a
report may list is not compared either.  A rule is candid if it does the same in all states that are
alike and says the same: the same problems in the same order, each cut to the length that is allowed.

Beside that, a candid rule is one whose reports can be traced to a word.  A report that something is no
type, no semantic, no number or no intrinsic function is about a word that has been read, and what is
reported is true of it.

Main definitions:

* `ShaderLang.ParseState.Alike` — states that are alike;
* `ShaderLang.Problem.IsAbout` — what a report of a problem has to do with the words read before;
* `ShaderLang.Parser.Candid` — candid rules.

Main results:

* `ShaderLang.Parser.Candid.bind`, `ShaderLang.Parser.candid_advance`,
  `ShaderLang.Parser.candid_build` — rules in a row, reading and building;
* `ShaderLang.Parser.candid_repeated` — **repetition**;
* `ShaderLang.Parser.Candid.attempt_bind` — **going on behind a token that is not allowed**.
-/

import ShaderLang.Proofs.Builder.Alike
import ShaderLang.Proofs.Grammar.Course

set_option relaxedAutoImplicit false
set_option autoImplicit false

namespace ShaderLang

/-! ### Words -/

namespace Cursor

variable {c c' : Cursor}

/-- A place ahead holds the same word. -/
theorem word_peek (h : c.rest.map Token.word = c'.rest.map Token.word) (ahead : Nat) :
    (c.peek ahead).word = (c'.peek ahead).word := by
  have hword := congrArg (·[ahead]?) h
  simp only [List.getElem?_map] at hword
  unfold peek
  cases hc : c.rest[ahead]? <;> cases hc' : c'.rest[ahead]? <;> simp_all [Token.word, Token.endOfFile]

theorem word_current (h : c.rest.map Token.word = c'.rest.map Token.word) :
    c.current.word = c'.current.word := by
  rw [current_eq_peek, current_eq_peek]
  exact word_peek h 0

theorem throughGreater_eq {ts ts' : List Token} (h : ts.map Token.word = ts'.map Token.word) :
    throughGreater ts = throughGreater ts' := by
  induction ts generalizing ts' with
  | nil =>
      cases ts' with
      | nil => rfl
      | cons t' ts' => simp at h
  | cons t ts ih =>
      cases ts' with
      | nil => simp at h
      | cons t' ts' =>
          simp only [List.map_cons, List.cons.injEq, Token.word, Prod.mk.injEq] at h
          simp only [throughGreater, h.1.1, ih h.2]

/-- The same tokens make up a type. -/
theorem typeLengthOf_eq (isStruct : String → Bool) {ts ts' : List Token}
    (h : ts.map Token.word = ts'.map Token.word) :
    typeLengthOf isStruct ts = typeLengthOf isStruct ts' := by
  cases ts with
  | nil =>
      cases ts' with
      | nil => rfl
      | cons t' ts' => simp at h
  | cons t ts =>
      cases ts' with
      | nil => simp at h
      | cons t' ts' =>
          simp only [List.map_cons, List.cons.injEq, Token.word, Prod.mk.injEq] at h
          have hstarts : startsType isStruct t = startsType isStruct t' := by
            unfold startsType
            rw [h.1.1, h.1.2]
          cases ts with
          | nil =>
              cases ts' with
              | nil => simp only [typeLengthOf, hstarts]
              | cons u' us' => simp at h
          | cons u us =>
              cases ts' with
              | nil => simp at h
              | cons u' us' =>
                  have htail := h.2
                  simp only [List.map_cons, List.cons.injEq, Token.word, Prod.mk.injEq] at htail
                  simp only [typeLengthOf, hstarts, h.1.1, htail.1.1, throughGreater_eq htail.2]

end Cursor

/-! ### What a report is about -/

namespace Problem

/-- What a report of a problem has to do with the tokens read before: a word that is reported as no
type, semantic, number or intrinsic function is one of them, of the kind that is read as such, and it
is none. -/
def IsAbout (seen : List Token) (structs : Structs) : Problem → Prop
  | .unknownType text => ∃ t ∈ seen, t.text = text ∧
      (t.kind = .name ∧ structs.lookup text = none ∨
        t.kind = .typeName ∧ DataType.ofKeyword text = none)
  | .unknownSemantic text => ∃ t ∈ seen, t.text = text ∧ t.kind = .name ∧ Semantic.ofText text = none
  | .malformedNumber text => ∃ t ∈ seen, t.text = text ∧
      (t.kind = .int ∧ IntegerLiteral.ofText text = none ∨
        t.kind = .float ∧ floatLiteral text = none)
  | .unknownIntrinsic text =>
      ∃ t ∈ seen, t.text = text ∧ t.kind = .intrinsic ∧ Intrinsic.ofName text = none
  | .unrecognisedToken _ => False
  | .outOfMemory => False
  | _ => True

variable {p : Problem} {seen seen' : List Token} {structs structs' : Structs}

theorem isAbout_of_isStatic (h : p.IsStatic) : p.IsAbout seen structs := by
  cases p <;> trivial

/-- More tokens may have been read since, as long as no name stands for another struct. -/
theorem IsAbout.mono (h : p.IsAbout seen structs) (hseen : seen ⊆ seen')
    (hlookup : structs'.lookup = structs.lookup) : p.IsAbout seen' structs' := by
  cases p with
  | unknownType text =>
      obtain ⟨t, ht, htext, hkind⟩ := h
      exact ⟨t, hseen ht, htext, by rwa [hlookup]⟩
  | unknownSemantic text =>
      obtain ⟨t, ht, hrest⟩ := h
      exact ⟨t, hseen ht, hrest⟩
  | malformedNumber text =>
      obtain ⟨t, ht, hrest⟩ := h
      exact ⟨t, hseen ht, hrest⟩
  | unknownIntrinsic text =>
      obtain ⟨t, ht, hrest⟩ := h
      exact ⟨t, hseen ht, hrest⟩
  | _ => exact h

end Problem

/-! ### States that are alike -/

namespace ParseState

/-- The same words are left, and only positions and reports set the builders apart. -/
structure Alike (s s' : ParseState) : Prop where
  words : s.cursor.rest.map Token.word = s'.cursor.rest.map Token.word
  builder : s.builder.Alike s'.builder

namespace Alike

variable {s s' : ParseState}

theorem refl (s : ParseState) : s.Alike s := ⟨rfl, .refl _⟩

theorem left_eq (h : s.Alike s') : s.left = s'.left := by
  have hlength := congrArg List.length h.words
  show s.cursor.left = s'.cursor.left
  rw [s.cursor.left_eq, s'.cursor.left_eq]
  simpa using hlength

theorem word_current (h : s.Alike s') : s.cursor.current.word = s'.cursor.current.word :=
  Cursor.word_current h.words

theorem kind_current (h : s.Alike s') : s.cursor.current.kind = s'.cursor.current.kind :=
  Token.kind_eq_of_word h.word_current

theorem advanced (h : s.Alike s') : s.advanced.Alike s'.advanced where
  words := by
    have htail := congrArg List.tail h.words
    simpa [ParseState.advanced] using htail
  builder := ⟨h.builder.arena, h.builder.names, h.builder.structs, h.builder.calls,
    h.builder.current, h.builder.declared⟩

/-- The same number of tokens makes up a type. -/
theorem typeLength_eq (h : s.Alike s') (ahead : Nat) :
    s.cursor.typeLength (fun name => (s.builder.structs.lookup name).isSome) ahead =
      s'.cursor.typeLength (fun name => (s'.builder.structs.lookup name).isSome) ahead := by
  unfold Cursor.typeLength
  rw [h.builder.structs]
  refine Cursor.typeLengthOf_eq _ ?_
  have hdrop := congrArg (List.drop ahead) h.words
  simpa only [List.map_drop] using hdrop

end Alike

/-! ### What was said between two states -/

/-- The tokens that have been read, out of all of them. -/
def seen (whole : List Token) (s : ParseState) : List Token := whole.take (whole.length - s.left)

/-- The tokens that are left are the last of those that are looked at, if any are looked at. -/
def Among (whole : Option (List Token)) (s : ParseState) : Prop :=
  ∀ w ∈ whole, s.cursor.rest <:+ w

/-- From the first state to the second: no name stands for another struct, and what was said is about
words that have been read. -/
def Accounts (whole : Option (List Token)) (s : ParseState) (said : List Problem)
    (t : ParseState) : Prop :=
  ∀ w ∈ whole, t.cursor.rest <:+ s.cursor.rest ∧
    t.builder.structs.lookup = s.builder.structs.lookup ∧
    ∀ p ∈ said, p.IsAbout (t.seen w) t.builder.structs

/-- From the first state to the second these problems were reported, each cut to the length that is
allowed. -/
structure Tells (s : ParseState) (said : List Problem) (t : ParseState) : Prop where
  limit : t.limit = s.limit
  problems : t.builder.problems = s.builder.problems ++ said.map (Problem.cut s.limit)

variable {whole : Option (List Token)} {w : List Token} {s t u : ParseState}
  {said said' : List Problem}

theorem seen_subset (h : t.left ≤ s.left) : s.seen w ⊆ t.seen w := by
  unfold seen
  refine (List.take_prefix_take_left ?_).subset
  omega

/-- The token that was read last has been read. -/
theorem mem_seen_advanced (h : s.cursor.rest <:+ w) (hkind : s.cursor.current.kind ≠ .endOfFile) :
    s.cursor.current ∈ s.advanced.seen w := by
  obtain ⟨before, hw⟩ := h
  have hleft : s.advanced.left = s.cursor.rest.length - 1 := by
    show s.cursor.left - 1 = _
    rw [s.cursor.left_eq]
  unfold seen
  rw [hleft, ← hw]
  unfold Cursor.current at hkind ⊢
  cases hrest : s.cursor.rest with
  | nil =>
      rw [hrest] at hkind
      exact absurd rfl hkind
  | cons t ts =>
      have hlength : (before ++ t :: ts).length - ((t :: ts).length - 1) = before.length + 1 := by
        simp only [List.length_append, List.length_cons]
        omega
      rw [hlength, List.take_append]
      simp

namespace Accounts

theorem refl (s : ParseState) : s.Accounts whole [] s :=
  fun _ _ => ⟨List.suffix_refl _, rfl, nofun⟩

theorem left_le (h : s.Accounts whole said t) (hw : w ∈ whole) : t.left ≤ s.left := by
  show t.cursor.left ≤ s.cursor.left
  rw [s.cursor.left_eq, t.cursor.left_eq]
  exact (h w hw).1.length_le

theorem among (h : s.Accounts whole said t) (hs : s.Among whole) : t.Among whole :=
  fun w hw => (h w hw).1.trans (hs w hw)

/-- What was said before is still about words that have been read. -/
theorem trans (h : s.Accounts whole said t) (h' : t.Accounts whole said' u) :
    s.Accounts whole (said ++ said') u := by
  intro w hw
  obtain ⟨hrest, hlookup, hsaid⟩ := h w hw
  obtain ⟨hrest', hlookup', hsaid'⟩ := h' w hw
  refine ⟨hrest'.trans hrest, hlookup'.trans hlookup, fun p hp => ?_⟩
  rcases List.mem_append.1 hp with hp | hp
  · exact (hsaid p hp).mono (seen_subset (h'.left_le hw)) hlookup'
  · exact hsaid' p hp

theorem read (s : ParseState) : s.Accounts whole [] s.advanced :=
  fun _ _ => ⟨List.tail_suffix _, rfl, nofun⟩

end Accounts

namespace Tells

theorem refl (s : ParseState) : s.Tells [] s := ⟨rfl, (List.append_nil _).symm⟩

theorem trans (h : s.Tells said t) (h' : t.Tells said' u) : s.Tells (said ++ said') u where
  limit := h'.limit.trans h.limit
  problems := by rw [h'.problems, h.problems, h.limit, List.map_append, List.append_assoc]

theorem read (s : ParseState) : s.Tells [] s.advanced := ⟨rfl, (List.append_nil _).symm⟩

end Tells

/-! ### Reporting a token that is not allowed -/

/-- The state with a report of a token that is not allowed. -/
def reported (s : ParseState) (found : Token) (allowed : List TokenKind) : ParseState :=
  let problem := .unexpectedToken found.text ((allowed.take s.limit).map TokenKind.describe)
  { s with builder :=
      { s.builder with diagnostics := s.builder.diagnostics.report problem found.position } }

/-- The report with all alternatives. -/
def rejection (found : Token) (allowed : List TokenKind) : Problem :=
  .unexpectedToken found.text (allowed.map TokenKind.describe)

theorem Alike.reported (h : s.Alike t) (found found' : Token) (allowed : List TokenKind) :
    (s.reported found allowed).Alike (t.reported found' allowed) :=
  ⟨h.words, h.builder.arena, h.builder.names, h.builder.structs, h.builder.calls,
    h.builder.current, h.builder.declared⟩

theorem Accounts.reported (s : ParseState) (found : Token) (allowed : List TokenKind) :
    s.Accounts whole [rejection found allowed] (s.reported found allowed) := by
  intro w _
  refine ⟨List.suffix_refl _, rfl, fun p hp => ?_⟩
  obtain rfl := List.mem_singleton.1 hp
  trivial

theorem Tells.reported (s : ParseState) {found found' : Token} (hword : found.word = found'.word)
    (allowed : List TokenKind) :
    s.Tells [rejection found allowed] (s.reported found' allowed) where
  limit := rfl
  problems := by
    rw [ParseState.reported, Builder.problems_report]
    simp [rejection, Problem.cut, Token.text_eq_of_word hword, List.map_take]

end ParseState

namespace Parser

open ParseState

variable {ι α β : Type} {whole : Option (List Token)} {s t : ParseState} {said : List Problem}
  {p : Parser α} {f : α → Parser β}

/-! ### Candid rules -/

/-- The outcomes of a rule in two states are alike, and in the second state this was said. -/
inductive Matches (said : List Problem) (s' : ParseState) :
    EStateM.Result Halt ParseState α → EStateM.Result Halt ParseState α → Prop where
  | ok {x : α} {t t' : ParseState} (alike : t.Alike t') (tells : s'.Tells said t') :
      Matches said s' (.ok x t) (.ok x t')
  | unexpected {found found' : Token} {allowed : List TokenKind} {t t' : ParseState}
      (word : found.word = found'.word) (alike : t.Alike t') (tells : s'.Tells said t') :
      Matches said s' (.error (.unexpected found allowed) t)
        (.error (.unexpected found' allowed) t')
  | fault {f : Fault} {t t' : ParseState} :
      Matches said s' (.error (.fault f) t) (.error (.fault f) t')

/-- What was said up to the end of a rule is accounted for; a fault needs no account. -/
def Ends (whole : Option (List Token)) (s : ParseState) (said : List Problem) :
    EStateM.Result Halt ParseState α → Prop
  | .ok _ t => s.Accounts whole said t
  | .error (.unexpected _ _) t => s.Accounts whole said t
  | .error (.fault _) _ => True

/-- The rule does the same in all states that are alike to this one and says the same, and what it says
is accounted for. -/
def Candid (whole : Option (List Token)) (p : Parser α) (s : ParseState) : Prop :=
  s.Among whole → ∃ said : List Problem, Ends whole s said (p s) ∧
    ∀ s', s.Alike s' → Matches said s' (p s) (p s')

namespace Candid

/-- **A rule that goes on as a candid rule from a later state is candid**, if it does so in all states
that are alike and has accounted for what it said so far. -/
theorem behind {q : Parser α} (haccounts : s.Among whole → s.Accounts whole said t)
    (hrun : p s = q t)
    (hruns : ∀ s', s.Alike s' → ∃ t', t.Alike t' ∧ s'.Tells said t' ∧ p s' = q t')
    (hq : q.Candid whole t) : p.Candid whole s := by
  intro hs
  have hbefore := haccounts hs
  obtain ⟨said', hends, hmatch⟩ := hq (hbefore.among hs)
  refine ⟨said ++ said', ?_, fun s' h => ?_⟩
  · rw [hrun]
    rcases hqt : q t with ⟨x, u⟩ | ⟨⟨found, allowed⟩ | e, u⟩ <;> rw [hqt] at hends
    · exact hbefore.trans hends
    · exact hbefore.trans hends
    · trivial
  · obtain ⟨t', halike, htells, hrun'⟩ := hruns s' h
    have hqt := hmatch t' halike
    rw [hrun, hrun']
    generalize q t = r at hqt ⊢
    generalize q t' = r' at hqt ⊢
    cases hqt with
    | ok halike' htells' => exact .ok halike' (htells.trans htells')
    | unexpected hword halike' htells' => exact .unexpected hword halike' (htells.trans htells')
    | fault => exact .fault

/-- A rule that goes on as a candid rule without doing anything. -/
theorem congr {q : Parser α} (hq : q.Candid whole s) (h : ∀ s', s.Alike s' → p s' = q s') :
    p.Candid whole s :=
  hq.behind (fun _ => .refl s) (h s (.refl s)) fun s' hs => ⟨s', hs, .refl s', h s' hs⟩

/-- A rule that ends early because another one does. -/
theorem of_error {q : Parser β} {e : Halt} (hp : p.Candid whole s) (hps : p s = .error e t)
    (hq : ∀ s' e' t', p s' = .error e' t' → q s' = .error e' t') : q.Candid whole s := by
  intro hs
  obtain ⟨said, hends, hmatch⟩ := hp hs
  refine ⟨said, ?_, fun s' h => ?_⟩
  · rw [hps] at hends
    rw [hq s e t hps]
    cases e with
    | unexpected found allowed => exact hends
    | fault e => trivial
  · have hs' := hmatch s' h
    rw [hps] at hs'
    rw [hq s e t hps]
    rcases hps' : p s' with ⟨y, t'⟩ | ⟨e', t'⟩ <;> rw [hps'] at hs'
    · contradiction
    · rw [hq s' e' t' hps']
      cases hs' with
      | unexpected hword halike htells => exact .unexpected hword halike htells
      | fault => exact .fault

/-- Behind a result, what a rule says is accounted for. -/
theorem exists_of_ok (hp : p.Candid whole s) {x : α} (hps : p s = .ok x t) (hs : s.Among whole) :
    ∃ said, s.Accounts whole said t ∧
      ∀ s', s.Alike s' → ∃ t', t.Alike t' ∧ s'.Tells said t' ∧ p s' = .ok x t' := by
  obtain ⟨said, hends, hmatch⟩ := hp hs
  rw [hps] at hends
  refine ⟨said, hends, fun s' h => ?_⟩
  have hs' := hmatch s' h
  rw [hps] at hs'
  rcases hps' : p s' with ⟨y, t'⟩ | ⟨e, t'⟩ <;> rw [hps'] at hs'
  · cases hs' with
    | ok halike htells => exact ⟨t', halike, htells, rfl⟩
  · contradiction

/-- In front of a token that is not allowed, what a rule says is accounted for. -/
theorem exists_of_unexpected (hp : p.Candid whole s) {found : Token} {allowed : List TokenKind}
    (hps : p s = .error (.unexpected found allowed) t) (hs : s.Among whole) :
    ∃ said, s.Accounts whole said t ∧
      ∀ s', s.Alike s' → ∃ found' t', found.word = found'.word ∧ t.Alike t' ∧ s'.Tells said t' ∧
        p s' = .error (.unexpected found' allowed) t' := by
  obtain ⟨said, hends, hmatch⟩ := hp hs
  rw [hps] at hends
  refine ⟨said, hends, fun s' h => ?_⟩
  have hs' := hmatch s' h
  rw [hps] at hs'
  rcases hps' : p s' with ⟨y, t'⟩ | ⟨e, t'⟩ <;> rw [hps'] at hs'
  · contradiction
  · cases hs' with
    | unexpected hword halike htells => exact ⟨_, t', hword, halike, htells, rfl⟩

/-- Rules in a row; where tokens are looked at, none comes back. -/
theorem bind_left (hp : p.Candid whole s)
    (hf : ∀ x t, (∀ w ∈ whole, t.left ≤ s.left) → (f x).Candid whole t) :
    (p >>= f).Candid whole s := by
  intro hs
  rcases hps : p s with ⟨x, t⟩ | ⟨e, t⟩
  · obtain ⟨said, haccounts, hruns⟩ := hp.exists_of_ok hps hs
    have hnext := hf x t fun w hw => haccounts.left_le hw
    refine hnext.behind (fun _ => haccounts) ?_ (fun s' h => ?_) hs
    · rw [bind_apply, hps]
    · obtain ⟨t', halike, htells, hps'⟩ := hruns s' h
      exact ⟨t', halike, htells, by rw [bind_apply, hps']⟩
  · exact hp.of_error hps (fun s' e' t' h => by rw [bind_apply, h]) hs

/-- Rules in a row. -/
theorem bind (hp : p.Candid whole s) (hf : ∀ x t, (f x).Candid whole t) :
    (p >>= f).Candid whole s :=
  hp.bind_left fun x t _ => hf x t

end Candid

theorem candid_pure (x : α) : (pure x : Parser α).Candid whole s :=
  fun _ => ⟨[], .refl s, fun s' h => .ok h (.refl s')⟩

theorem Candid.map {g : α → β} (hp : p.Candid whole s) : (g <$> p).Candid whole s := by
  rw [map_eq_pure_bind]
  exact hp.bind fun x _ => candid_pure (g x)

theorem candid_unexpected (allowed : List TokenKind) :
    (unexpected allowed : Parser α).Candid whole s :=
  fun _ => ⟨[], .refl s, fun s' h => .unexpected h.word_current h (.refl s')⟩

theorem candid_fault (e : Fault) :
    Candid whole (fun s => .error (.fault e) s : Parser α) s :=
  fun _ => ⟨[], trivial, fun _ _ => .fault⟩

/-! ### Looking ahead and reading -/

/-- The next kind decides. -/
theorem candid_kind {f : TokenKind → Parser β} (h : (f s.cursor.current.kind).Candid whole s) :
    (currentKind >>= f).Candid whole s := by
  refine h.congr fun s' hs => ?_
  rw [bind_apply, currentKind_apply, ← hs.kind_current]

/-- A token is read, and what comes next depends on its word. -/
theorem candid_advance {f : Token → Parser β} (hf : ∀ t t', t.word = t'.word → f t = f t')
    (h : s.Among whole → (f s.cursor.current).Candid whole s.advanced) :
    (advance >>= f).Candid whole s := by
  intro hs
  refine (h hs).behind (fun _ => .read s) rfl (fun s' hs' => ?_) hs
  refine ⟨s'.advanced, hs'.advanced, .read s', ?_⟩
  show f s'.cursor.current s'.advanced = _
  rw [hf _ _ hs'.word_current]

/-- A token is passed over. -/
theorem candid_skip {q : Parser β} (h : ∀ t, q.Candid whole t) :
    (advance >>= fun _ => q).Candid whole s :=
  candid_advance (fun _ _ _ => rfl) fun _ => h s.advanced

theorem candid_expectMark (m : Mark) : (expectMark m).Candid whole s := by
  rw [expectMark, expect_bind_eq]
  refine candid_kind ?_
  split
  · exact candid_skip fun _ => candid_pure _
  · exact candid_unexpected _

/-! ### Building -/

/-- A step of building does and says the same in states that are alike. -/
theorem matches_build {step : Build α} (h : step.Blind said s.builder)
    (huncut : ∀ p ∈ said, p.Uncut) (s' : ParseState) (hs : s.Alike s') :
    Matches said s' (build step s) (build step s') := by
  have hsaid : said.map (Problem.cut s'.limit) = said :=
    (List.map_congr_left fun p hp => huncut p hp s'.limit).trans (List.map_id _)
  have hmatch := h s'.builder hs.builder
  rcases hb : step s.builder with ⟨x, b⟩ | ⟨e, b⟩ <;>
    rcases hb' : step s'.builder with ⟨x', b'⟩ | ⟨e', b'⟩ <;> rw [hb, hb'] at hmatch
  · cases hmatch with
    | ok halike hreports =>
        rw [build_ok hb, build_ok hb']
        exact .ok ⟨hs.words, halike⟩ ⟨rfl, by rw [hsaid]; exact hreports⟩
  · contradiction
  · contradiction
  · cases hmatch
    rw [build_error hb, build_error hb']
    exact .fault

/-- A step of building, if it opens no struct and whatever it says is about words that have been read. -/
theorem candid_build {step : Build α} (h : step.Blind said s.builder) (huncut : ∀ p ∈ said, p.Uncut)
    (hkeeps : ∀ w ∈ whole, ∀ x b, step s.builder = .ok x b →
      b.structs.lookup = s.builder.structs.lookup)
    (habout : ∀ w ∈ whole, ∀ p ∈ said, p.IsAbout (s.seen w) s.builder.structs) :
    (build step).Candid whole s := by
  intro _
  refine ⟨said, ?_, matches_build h huncut⟩
  rcases hb : step s.builder with ⟨x, b⟩ | ⟨e, b⟩
  · rw [build_ok hb]
    refine fun w hw => ⟨List.suffix_refl _, hkeeps w hw x b hb, fun p hp => ?_⟩
    exact (habout w hw p hp).mono (List.Subset.refl _) (hkeeps w hw x b hb)
  · rw [build_error hb]
    trivial

/-- A step that only says something about values and types of expressions. -/
theorem candid_static {step : Build α} (h : ∀ b, step.Tells Problem.IsStatic b) :
    (build step).Candid whole s := by
  obtain ⟨hkeeps, said, hsaid, hblind⟩ := h s.builder
  refine candid_build hblind (fun p hp => (hsaid p hp).2) (fun _ _ => hkeeps) fun _ _ p hp => ?_
  exact Problem.isAbout_of_isStatic (hsaid p hp).1

theorem candid_add (n : Node) : (build (Build.add n)).Candid whole s :=
  candid_static fun _ => Build.tells_add n

theorem candid_buildLink (kind : ListKind) (previous : Option NodeId) (item : NodeId) :
    (buildLink kind previous item).Candid whole s :=
  (candid_add _).bind fun _ _ => candid_pure _

/-! ### Repetition -/

/-- A rule that looks at how many tokens are left. -/
theorem candid_of_left (q : Nat → Parser α) (h : ∀ s, p s = q s.left s)
    (hq : (q s.left).Candid whole s) : p.Candid whole s := by
  refine hq.congr fun s' hs => ?_
  rw [h, hs.left_eq]

/-- A rule is candid as it is given to a rule that refers to itself. -/
theorem candid_below {rule : ι → Parser α} {n : Nat}
    (h : ∀ j t, t.left < n → (rule j).Candid whole t) (j : ι) (t : ParseState) :
    (below n rule j).Candid whole t := by
  by_cases hlt : t.left < n
  · refine (h j t hlt).congr fun s hs => below_apply ?_
    rwa [← hs.left_eq]
  · refine (candid_fault .endless).congr fun s hs => ?_
    rw [hs.left_eq] at hlt
    exact if_neg hlt

/-- **A repetition is candid if each turn is.** -/
theorem candid_repeated {turn : β → Parser (Turn β α)} (h : ∀ b t, (turn b).Candid whole t)
    (b : β) (s : ParseState) : (repeated turn b).Candid whole s := by
  induction hleft : s.left using Nat.strongRecOn generalizing b s with
  | ind l ih =>
      subst hleft
      refine candid_of_left (fun left => oneTurn turn left b) (repeated_eq_oneTurn turn b) ?_
      refine (h b s).bind fun outcome t => ?_
      cases outcome with
      | done x => exact candid_pure x
      | again b' => exact candid_below (fun b t ht => ih t.left ht b t rfl) b' t

/-! ### Going on behind a token that is not allowed -/

theorem report_eq (found : Token) (allowed : List TokenKind) (s : ParseState) :
    report found allowed s = .ok () (s.reported found allowed) := rfl

/-- **Going on behind a token that is not allowed**: it is reported, and reading goes on. -/
theorem Candid.attempt_bind {f : Except (Token × List TokenKind) α → Parser β} {next : Parser β}
    (hp : p.Candid whole s) (hok : ∀ x t, (f (.ok x)).Candid whole t)
    (hreport : ∀ found allowed, f (.error (found, allowed)) = report found allowed >>= fun _ => next)
    (hnext : ∀ t, next.Candid whole t) : (attempt p >>= f).Candid whole s := by
  intro hs
  rcases hps : p s with ⟨x, t⟩ | ⟨⟨found, allowed⟩ | e, t⟩
  · obtain ⟨said, haccounts, hruns⟩ := hp.exists_of_ok hps hs
    refine (hok x t).behind (fun _ => haccounts) ?_ (fun s' h => ?_) hs
    · simp only [bind_apply, attempt, hps]
    · obtain ⟨t', halike, htells, hps'⟩ := hruns s' h
      exact ⟨t', halike, htells, by simp only [bind_apply, attempt, hps']⟩
  · obtain ⟨said, haccounts, hruns⟩ := hp.exists_of_unexpected hps hs
    refine (hnext (t.reported found allowed)).behind
      (fun _ => haccounts.trans (.reported t found allowed)) ?_ (fun s' h => ?_) hs
    · simp only [bind_apply, attempt, hps, hreport, report_eq]
    · obtain ⟨found', t', hword, halike, htells, hps'⟩ := hruns s' h
      refine ⟨t'.reported found' allowed, halike.reported found found' allowed,
        htells.trans (.reported t' hword allowed), ?_⟩
      simp only [bind_apply, attempt, hps', hreport, report_eq]
  · have hfault : ∀ s', s.Alike s' → ∃ t', p s' = .error (.fault e) t' := by
      intro s' h
      obtain ⟨said, -, hmatch⟩ := hp hs
      have hs' := hmatch s' h
      rw [hps] at hs'
      rcases hps' : p s' with ⟨y, t'⟩ | ⟨e', t'⟩ <;> rw [hps'] at hs'
      · contradiction
      · cases hs'
        exact ⟨t', rfl⟩
    refine ⟨[], ?_, fun s' h => ?_⟩
    · simp only [bind_apply, attempt, hps]
      trivial
    · obtain ⟨t', hps'⟩ := hfault s' h
      simp only [bind_apply, attempt, hps, hps']
      exact .fault

end Parser

end ShaderLang
