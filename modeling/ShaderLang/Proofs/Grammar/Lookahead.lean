/-
**Looking ahead does not look past the end.**

Whether a type stands ahead is told by the tokens themselves: a generic type is passed over up to the
next `>`, however far that is, and the token behind the type decides.  More tokens behind the last one
could change the answer only if the type, by the look of it, went up to the last token or beyond it.
But a rule that begins there and has a result with a token left has read the `>` of the type and a
token behind it.

Main definitions:

* `ShaderLang.Cursor.Enclosed` — tokens that hold the type in front of them, and one more.
* `ShaderLang.Parser.Encloses` — a rule that has a result, with a token left, only there.

Main results:

* `ShaderLang.Cursor.typeLengthOf_append`, `ShaderLang.Cursor.typeLengthOf_lt` — the length of a type
  does not depend on what stands behind;
* `ShaderLang.Grammar.encloses_expression`, `ShaderLang.Grammar.encloses_typeSpecifier` — **types and
  expressions enclose the type that they begin with**;
* `ShaderLang.Grammar.castAhead_followed`, `ShaderLang.Grammar.declarationAhead_followed`,
  `ShaderLang.Grammar.voidAhead_followed` — the answers with more tokens behind.
-/

import ShaderLang.Proofs.Grammar.Orderly
import ShaderLang.Proofs.Grammar.Sequel

set_option relaxedAutoImplicit false
set_option autoImplicit false

namespace ShaderLang

/-! ### The length of a type -/

namespace Cursor

variable {ts us : List Token}

/-- Up to a `>` the tokens behind it do not matter. -/
theorem throughGreater_append (us : List Token) {i : Nat} {g : Token} (hget : ts[i]? = some g)
    (hg : g.kind = .mark .greater) :
    throughGreater (ts ++ us) = throughGreater ts ∧
      ∀ n, throughGreater ts = some n → n ≤ i + 1 := by
  induction ts generalizing i with
  | nil => contradiction
  | cons t ts ih =>
      rw [List.cons_append]
      unfold throughGreater
      split
      case h_1 =>
          refine ⟨rfl, fun n hn => ?_⟩
          obtain rfl := Option.some.inj hn
          exact Nat.le_add_left 1 i
      case h_2 => exact ⟨rfl, nofun⟩
      case h_3 => exact ⟨rfl, nofun⟩
      case h_4 hne _ _ =>
          cases i with
          | zero => exact absurd (Option.some.inj hget ▸ hg) hne
          | succ i =>
              obtain ⟨hsame, hle⟩ := ih hget
              refine ⟨by rw [hsame], fun n hn => ?_⟩
              obtain ⟨k, hk, rfl⟩ := Option.map_eq_some_iff.1 hn
              exact Nat.succ_le_succ (hle k hk)

/-- There is a token behind the first one; and if the tokens begin with a word for a generic type and
`<`, there is a `>` among them, and a token behind it. -/
def Enclosed (ts : List Token) : Prop :=
  2 ≤ ts.length ∧ ∀ word less rest, ts = word :: less :: rest → isGeneric word.kind = true →
    less.kind = .mark .less → ∃ i g, rest[i]? = some g ∧ g.kind = .mark .greater ∧
      i + 3 < ts.length

variable {isStruct : String → Bool}

/-- The length of a type that is enclosed does not depend on what stands behind. -/
theorem typeLengthOf_append (h : Enclosed ts) :
    typeLengthOf isStruct (ts ++ us) = typeLengthOf isStruct ts := by
  obtain ⟨hlength, hgreater⟩ := h
  match ts, hlength with
  | word :: less :: rest, _ =>
      simp only [List.cons_append, typeLengthOf]
      by_cases hgeneric : isGeneric word.kind && less.kind == .mark .less
      · obtain ⟨hword, hless⟩ := Bool.and_eq_true_iff.1 hgeneric
        obtain ⟨i, g, hget, hg, -⟩ := hgreater word less rest rfl hword (beq_iff_eq.1 hless)
        rw [(throughGreater_append us hget hg).1]
      · simp only [hgeneric, Bool.false_eq_true, if_false]

/-- Behind a type that is enclosed there is a token. -/
theorem typeLengthOf_lt (h : Enclosed ts) {n : Nat} (hn : typeLengthOf isStruct ts = some n) :
    n < ts.length := by
  obtain ⟨hlength, hgreater⟩ := h
  match ts, hlength with
  | word :: less :: rest, _ =>
      simp only [typeLengthOf] at hn
      split at hn
      · by_cases hgeneric : isGeneric word.kind && less.kind == .mark .less
        · rw [if_pos hgeneric] at hn
          obtain ⟨hword, hless⟩ := Bool.and_eq_true_iff.1 hgeneric
          obtain ⟨i, g, hget, hg, hi⟩ := hgreater word less rest rfl hword (beq_iff_eq.1 hless)
          obtain ⟨k, hk, rfl⟩ := Option.map_eq_some_iff.1 hn
          have hle := (throughGreater_append [] hget hg).2 k hk
          omega
        · rw [if_neg hgeneric] at hn
          obtain rfl := Option.some.inj hn
          simp
      · contradiction

theorem cons_current_next {c : Cursor} (h : 0 < c.left) : c.current :: c.next.rest = c.rest := by
  rw [c.left_eq] at h
  rw [rest_next, current]
  cases hc : c.rest with
  | nil =>
      rw [hc] at h
      contradiction
  | cons => rfl

/-- A `>` that is read encloses the type, if it is not the last token. -/
theorem enclosed_of_suffix {word less g : Token} {rest behind : List Token}
    (hts : ts = word :: less :: rest) (hsuffix : g :: behind <:+ rest)
    (hg : g.kind = .mark .greater) (hpos : 0 < behind.length) : Enclosed ts := by
  obtain ⟨front, rfl⟩ := hsuffix
  subst hts
  refine ⟨by simp, fun word' less' rest' heq _ _ => ?_⟩
  obtain ⟨-, heq⟩ := List.cons.inj heq
  obtain ⟨-, rfl⟩ := List.cons.inj heq
  refine ⟨front.length, g, by simp, hg, ?_⟩
  simp only [List.length_cons, List.length_append]
  omega

theorem eq_of_isGeneric {kind : TokenKind} (h : isGeneric kind = true) :
    kind = .keyword .vectorWord ∨ kind = .keyword .matrixWord := by
  unfold isGeneric at h
  split at h
  · exact .inl rfl
  · exact .inr rfl
  · contradiction

/-- Nothing has to be known of what begins in another way. -/
theorem enclosed_of_plain (hlength : 2 ≤ ts.length)
    (hplain : ∀ word rest, ts = word :: rest → isGeneric word.kind = false) : Enclosed ts := by
  refine ⟨hlength, fun word less rest heq hword _ => ?_⟩
  rw [hplain word _ heq] at hword
  contradiction

end Cursor

/-! ### Rules that begin with a type -/

namespace Parser

open Cursor

variable {ι α β : Type}

/-- The rule reads something; and if it ends with a token left, it has enclosed the type at its
beginning. -/
def Encloses (p : Parser α) (s : ParseState) : Prop :=
  ∀ x t, p s = .ok x t → t.left < s.left ∧ (0 < t.left → Enclosed s.cursor.rest)

variable {p : Parser α} {f : α → Parser β} {s : ParseState}

/-- What comes behind reads on. -/
theorem Encloses.bind (hp : p.Encloses s)
    (hf : ∀ x t y u, f x t = .ok y u → u.left ≤ t.left) : (p >>= f).Encloses s := by
  intro y u hy
  obtain ⟨x, t, hx, hy⟩ := bind_eq_ok hy
  obtain ⟨hlt, henclosed⟩ := hp x t hx
  have hle := hf x t y u hy
  exact ⟨by omega, fun hpos => henclosed (by omega)⟩

/-- A rule that depends on the kind of the next token. -/
theorem Encloses.on_kind {f : TokenKind → Parser β} (h : (f s.cursor.current.kind).Encloses s) :
    (currentKind >>= f).Encloses s := by
  intro y u hy
  rw [bind_apply, currentKind_apply] at hy
  exact h y u hy

/-- There is no generic type at the beginning. -/
theorem encloses_plain (hplain : isGeneric s.cursor.current.kind = false)
    (hlt : ∀ x t, p s = .ok x t → t.left < s.left) : p.Encloses s := by
  intro x t hx
  have hlt := hlt x t hx
  refine ⟨hlt, fun hpos => enclosed_of_plain ?_ fun word rest heq => ?_⟩
  · rw [← s.cursor.left_eq]
    show 2 ≤ s.left
    omega
  · rwa [Cursor.current, heq] at hplain

theorem encloses_below {rule : ι → Parser α} {n : Nat} {j : ι} (h : (rule j).Encloses s) :
    (below n rule j).Encloses s := by
  intro x t hx
  by_cases hlt : s.left < n
  · exact h x t ((below_apply hlt).symm.trans hx)
  · simp only [below, if_neg hlt] at hx
    contradiction

/-- The last token that the rule reads is of the kind. -/
def EndsBehind (kind : TokenKind) (p : Parser α) : Prop :=
  ∀ s x t, p s = .ok x t → ∃ last, last :: t.cursor.rest <:+ s.cursor.rest ∧ last.kind = kind

theorem Orderly.endsBehind {kind : TokenKind} {p : Parser α} {f : α → Parser β} (hp : p.Orderly)
    (hf : ∀ x, (f x).EndsBehind kind) : (p >>= f).EndsBehind kind := by
  intro s y u hy
  obtain ⟨x, t, hx, hy⟩ := bind_eq_ok hy
  obtain ⟨last, hlast, hkind⟩ := hf x t y u hy
  exact ⟨last, hlast.trans ((hp s).of_ok hx).1.suffix, hkind⟩

/-- A step of building reads nothing. -/
theorem cursor_of_build {step : Build α} {s t : ParseState} {x : α} (h : build step s = .ok x t) :
    t.cursor = s.cursor := by
  rcases hb : step s.builder with ⟨y, b⟩ | ⟨e, b⟩
  · rw [build_ok hb] at h
    obtain ⟨-, rfl⟩ := EStateM.Result.ok.inj h
    rfl
  · rw [build_error hb] at h
    contradiction

theorem endsBehind_mark (mark : Mark) (step : Build α) :
    (expectMark mark >>= fun _ => build step).EndsBehind (.mark mark) := by
  intro s x u hx
  obtain ⟨_, t, ht, hx⟩ := bind_eq_ok hx
  obtain ⟨hkind, rfl⟩ := expectMark_eq_ok ht
  have hcursor : u.cursor = s.cursor.next := cursor_of_build hx
  refine ⟨s.cursor.current, ?_, hkind⟩
  rw [hcursor, cons_current_next (left_pos_of_kind (hkind ▸ nofun))]

/-- A word for a generic type, and what it is made of between `<` and `>`. -/
theorem encloses_generic (w : Keyword) (step : Build α)
    (hp : p.EndsBehind (.mark .greater)) :
    (expectKeyword w >>= fun _ => accept (.mark .less) >>= fun more =>
      if more = true then p else build step).Encloses s := by
  intro x u hx
  obtain ⟨_, t, ht, hx⟩ := bind_eq_ok hx
  obtain ⟨_, t', ht', ht⟩ := bind_eq_ok ht
  obtain ⟨-, rfl⟩ := EStateM.Result.ok.inj ht
  obtain ⟨hkind, rfl⟩ := expect_eq_ok ht'
  have hpos : 0 < s.left := left_pos_of_kind (hkind ▸ nofun)
  have hrest := cons_current_next hpos
  obtain ⟨more, t, ht, hx⟩ := bind_eq_ok hx
  by_cases hless : s.advanced.cursor.current.kind = .mark .less
  · rw [accept_of_kind hless] at ht
    obtain ⟨rfl, rfl⟩ := EStateM.Result.ok.inj ht
    obtain ⟨last, hlast, hgreater⟩ := hp _ x u hx
    have hrest' := cons_current_next (c := s.advanced.cursor) (left_pos_of_kind (hless ▸ nofun))
    have hlt : u.cursor.rest.length < s.cursor.rest.length := by
      have hle := hlast.length_le
      rw [← hrest, show s.cursor.next.rest = _ from hrest'.symm]
      simp only [List.length_cons] at hle ⊢
      exact Nat.lt_succ_of_lt (Nat.lt_succ_of_lt hle)
    rw [← s.cursor.left_eq, ← u.cursor.left_eq] at hlt
    refine ⟨hlt, fun hu => ?_⟩
    refine enclosed_of_suffix (hrest.symm.trans (congrArg _ hrest'.symm)) hlast hgreater ?_
    rwa [← u.cursor.left_eq]
  · rw [accept_of_ne hless] at ht
    obtain ⟨rfl, rfl⟩ := EStateM.Result.ok.inj ht
    rw [if_neg Bool.false_ne_true] at hx
    have hcursor : u.cursor = s.cursor.next := cursor_of_build hx
    have hleft : u.left = s.left - 1 := congrArg Cursor.left hcursor
    refine ⟨by omega, fun hu => ⟨?_, fun word less rest heq _ hkind' => ?_⟩⟩
    · rw [← s.cursor.left_eq]
      show 2 ≤ s.left
      omega
    · -- the token behind the word is no `<`
      obtain ⟨-, htail⟩ := List.cons.inj (hrest.trans heq)
      refine absurd ?_ hless
      show s.cursor.next.current.kind = _
      rw [Cursor.current, htail]
      exact hkind'

end Parser

/-! ### Types and expressions -/

namespace Grammar

open ShaderLang.Parser

variable {expr : Power → Parser NodeId} {s t : ParseState}

theorem orderly_componentType : componentType.Orderly := by
  have hcomposed : Composed .inside [] [] anyToken 0 0 componentType _ :=
    composed_componentType admitted_subset
  exact fun s => (hcomposed.follows trivial nofun).mono fun _ _ _ => trivial

theorem encloses_vectorSpecifier (he : ∀ j, (expr j).Regular .inside) :
    (vectorSpecifier expr).Encloses s := by
  refine encloses_generic .vectorWord _ ?_
  refine orderly_componentType.endsBehind fun component => ?_
  refine (orderly_expectMark .comma).endsBehind fun _ => ?_
  refine (he .relational).orderly.endsBehind fun size => ?_
  exact endsBehind_mark .greater _

theorem encloses_matrixSpecifier (he : ∀ j, (expr j).Regular .inside) :
    (matrixSpecifier expr).Encloses s := by
  refine encloses_generic .matrixWord _ ?_
  refine orderly_componentType.endsBehind fun component => ?_
  refine (orderly_expectMark .comma).endsBehind fun _ => ?_
  refine (he .relational).orderly.endsBehind fun rows => ?_
  refine (orderly_expectMark .comma).endsBehind fun _ => ?_
  refine (he .relational).orderly.endsBehind fun columns => ?_
  exact endsBehind_mark .greater _

/-- A type encloses itself. -/
theorem encloses_typeSpecifier (he : ∀ j, (expr j).Regular .inside) (s : ParseState) :
    (typeSpecifier expr).Encloses s := by
  refine .on_kind ?_
  split
  case h_1 hkind =>
      refine encloses_plain (by rw [hkind]; rfl) fun x t hx => ?_
      have hobeys : componentType.Obeys .even [] (fun _ => True) (fun _ => []) s :=
        obeys_componentType
      exact (hobeys.of_ok hx).2.1 trivial
  case h_2 => exact encloses_vectorSpecifier he
  case h_3 => exact encloses_matrixSpecifier he
  case h_4 hkind =>
      refine encloses_plain (by rw [hkind]; rfl) fun x t hx => ?_
      obtain ⟨_, t', ht', hx⟩ := bind_eq_ok hx
      obtain ⟨-, rfl⟩ := EStateM.Result.ok.inj ht'
      have hpos : 0 < s.left := Cursor.left_pos_of_kind (hkind ▸ nofun)
      rw [ParseState.left, cursor_of_build hx]
      exact Nat.sub_lt hpos Nat.one_pos
  case h_5 =>
      intro x t hx
      contradiction

theorem encloses_construction (he : ∀ j, (expr j).Regular .inside) (s : ParseState) :
    (construction expr).Encloses s := by
  refine (encloses_typeSpecifier he s).bind fun type t y u hy => ?_
  obtain ⟨list, t', hlist, hy⟩ := bind_eq_ok hy
  rw [ParseState.left, cursor_of_build hy]
  exact (((regular_arguments he).orderly t).of_ok hlist).1.left_le

/-- An expression encloses the type that it begins with: its first operand is a construction then. -/
theorem encloses_expression (level : Power) (s : ParseState) : (expression level).Encloses s := by
  by_cases hplain : Cursor.isGeneric s.cursor.current.kind = false
  · exact encloses_plain hplain fun x t hx => ((yields_expression level s).of_ok hx).2.1 trivial
  · have he : ∀ j, (below s.left expression j).Regular .inside := regular_below regular_expression
    have hoperand : (operand (below s.left expression)).Encloses s := by
      refine .on_kind ?_
      rcases Cursor.eq_of_isGeneric (Bool.eq_true_of_not_eq_false hplain) with hkind | hkind <;>
        rw [hkind]
      · exact encloses_construction he s
      · exact encloses_construction he s
    have hrule := hoperand.bind (f := fun first => repeated (extension _ level) first)
      fun first t y u hy =>
        (((regular_repeated (regular_extension he level) first).orderly t).of_ok hy).1.left_le
    intro x t hx
    exact hrule x t ((fix_eq_below expressionRule level s).symm.trans hx)

theorem encloses_dataType (s : ParseState) : dataType.Encloses s :=
  encloses_typeSpecifier regular_expression s

/-! ### The answers -/

variable {m : TokenStream} {v : Bool}

/-- The length of a type that is enclosed is the same with more tokens behind; and behind the type
there is a token. -/
theorem typeLength_followed {ahead : Nat} {n : Option Nat} (hahead : ahead ≤ s.left)
    (h : Cursor.Enclosed (s.cursor.rest.drop ahead)) (hn : typeLength ahead s = .ok n t) :
    t = s ∧ typeLength ahead (s.followed m) = .ok n (s.followed m) ∧
      ∀ k, n = some k → ahead + k < s.left := by
  obtain ⟨rfl, rfl⟩ := EStateM.Result.ok.inj hn
  have hle : ahead ≤ s.cursor.rest.length := s.cursor.left_eq ▸ hahead
  refine ⟨rfl, ?_, fun k hk => ?_⟩
  · show EStateM.Result.ok (Cursor.typeLengthOf _ ((s.cursor.rest ++ m.tokens).drop ahead)) _ = _
    rw [List.drop_append_of_le_length hle]
    exact congrArg (EStateM.Result.ok · _) (Cursor.typeLengthOf_append h)
  · have hlt := Cursor.typeLengthOf_lt h hk
    rw [List.length_drop, ← s.cursor.left_eq] at hlt
    show ahead + k < s.cursor.left
    omega

/-- Whether a conversion stands ahead. -/
theorem castAhead_followed (hpos : 0 < s.left) (h : Cursor.Enclosed s.advanced.cursor.rest)
    (hv : castAhead s = .ok v s) : castAhead (s.followed m) = .ok v (s.followed m) := by
  obtain ⟨n, t, hn, hv⟩ := bind_eq_ok hv
  obtain ⟨rfl, hsame, hlt⟩ := typeLength_followed (m := m) hpos (by rwa [List.drop_one]) hn
  unfold castAhead
  rw [bind_apply, hsame]
  cases n with
  | none =>
      obtain ⟨rfl, -⟩ := EStateM.Result.ok.inj hv
      rfl
  | some k =>
      obtain ⟨rfl, -⟩ := EStateM.Result.ok.inj hv
      show EStateM.Result.ok (decide (((t.cursor.followed m).peek (1 + k)).kind = _)) _ = _
      rw [Cursor.peek_followed (hlt k rfl)]

/-- Whether a declaration stands ahead. -/
theorem declarationAhead_followed (h : Cursor.Enclosed s.cursor.rest)
    (hv : declarationAhead s = .ok v s) :
    declarationAhead (s.followed m) = .ok v (s.followed m) := by
  have htwo : 2 ≤ s.left := by
    show 2 ≤ s.cursor.left
    rw [s.cursor.left_eq]
    exact h.1
  have hcurrent : (s.followed m).cursor.current = s.cursor.current :=
    ParseState.current_followed (by omega)
  obtain ⟨kind, t, hkind, hv⟩ := bind_eq_ok hv
  obtain ⟨rfl, rfl⟩ := EStateM.Result.ok.inj hkind
  unfold declarationAhead
  rw [bind_apply, currentKind_apply, hcurrent]
  dsimp only
  split at hv
  · next hkind =>
      rw [if_pos hkind]
      obtain ⟨rfl, -⟩ := EStateM.Result.ok.inj hv
      rfl
  · next hkind =>
      rw [if_neg hkind]
      obtain ⟨n, t, hn, hv⟩ := bind_eq_ok hv
      obtain ⟨rfl, hsame, hlt⟩ := typeLength_followed (m := m) (Nat.zero_le _)
        (by rwa [List.drop_zero]) hn
      rw [bind_apply, hsame]
      cases n with
      | none =>
          obtain ⟨rfl, -⟩ := EStateM.Result.ok.inj hv
          show EStateM.Result.ok (decide ((t.followed m).cursor.current.kind = _) &&
            decide (((t.cursor.followed m).peek 1).kind = _)) _ = _
          rw [hcurrent, Cursor.peek_followed htwo]
      | some k =>
          obtain ⟨rfl, -⟩ := EStateM.Result.ok.inj hv
          show EStateM.Result.ok (((t.cursor.followed m).peek k).kind != _) _ = _
          rw [Cursor.peek_followed (Nat.zero_add k ▸ hlt k rfl)]

/-- Whether the word `void` stands alone ahead. -/
theorem voidAhead_followed (htwo : 2 ≤ s.left) (hv : voidAhead s = .ok v s) :
    voidAhead (s.followed m) = .ok v (s.followed m) := by
  have hcurrent : (s.followed m).cursor.current = s.cursor.current :=
    ParseState.current_followed (by omega)
  obtain ⟨next, t, hnext, hv⟩ := bind_eq_ok hv
  obtain ⟨rfl, rfl⟩ := EStateM.Result.ok.inj hnext
  unfold voidAhead
  rw [bind_apply, current_apply, hcurrent]
  dsimp only
  split at hv
  · next htext =>
      rw [if_pos htext]
      obtain ⟨rfl, -⟩ := EStateM.Result.ok.inj hv
      show EStateM.Result.ok (decide (((s.cursor.followed m).peek 1).kind = _)) _ = _
      rw [Cursor.peek_followed htwo]
  · next htext =>
      rw [if_neg htext]
      obtain ⟨rfl, -⟩ := EStateM.Result.ok.inj hv
      rfl

end Grammar

end ShaderLang
