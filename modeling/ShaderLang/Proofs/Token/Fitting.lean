/-
**Tokens are what their kinds say.**

Source text is cut into tokens by the catalogues of built-in types, intrinsic functions and qualifiers
and by the notation of numbers.  The same catalogues are consulted again when the tokens are read.  A
token fits if it is found there.  All tokens of a source text fit, except that an integer literal may be
too large or may hold digits that its base does not have, and a name need not be the name of anything.

Main definitions:

* `ShaderLang.Token.Fits` — the text of a token is what its kind says;
* `ShaderLang.Token.Proper` — the kind of a token is what its text says.

Main results:

* `ShaderLang.TokenStream.forall_of_scan` — what is true of every piece that is cut from a text;
* `ShaderLang.TokenStream.fits_of_ofSource` — **the tokens of a source text fit**;
* `ShaderLang.TokenStream.proper_of_ofSource` — the tokens of a source text have the kinds of their texts.
-/

import ShaderLang.Proofs.Token.Numbers
import ShaderLang.Token.Scan

set_option relaxedAutoImplicit false
set_option autoImplicit false

namespace ShaderLang

/-- The text of the token is what its kind says: a built-in type, an intrinsic function, a qualifier, a
floating-point number. -/
def Token.Fits (t : Token) : Prop :=
  match t.kind with
  | .typeName => (DataType.ofKeyword t.text).isSome
  | .intrinsic => (Intrinsic.ofName t.text).isSome
  | .qualifier => (Qualifiers.ofKeyword t.text).isSome
  | .float => (floatLiteral t.text).isSome
  | _ => True

/-- A word fits the kind that it is given. -/
theorem fits_ofWord (text : String) (position : Position) :
    Token.Fits ⟨.ofWord text, text, position⟩ := by
  unfold Token.Fits TokenKind.ofWord
  cases Keyword.ofSpelling text with
  | some k => trivial
  | none =>
      dsimp only
      by_cases hqualifier : (Qualifiers.ofKeyword text).isSome
      · simpa only [if_pos hqualifier] using hqualifier
      · by_cases htype : (DataType.ofKeyword text).isSome
        · simpa only [if_neg hqualifier, if_pos htype] using htype
        · by_cases hintrinsic : (Intrinsic.ofName text).isSome
          · simpa only [if_neg hqualifier, if_neg htype, if_pos hintrinsic] using hintrinsic
          · simp only [if_neg hqualifier, if_neg htype, if_neg hintrinsic]

/-- What is cut from the front of a text fits. -/
theorem Lexeme.fits_of_token {cs : List Char} {kind : TokenKind} {n : Nat}
    (h : Lexeme.token cs = some (kind, n)) (position : Position) :
    Token.Fits ⟨kind, String.ofList (cs.take n), position⟩ :=
  token_induction (P := fun kind n => Token.Fits ⟨kind, String.ofList (cs.take n), position⟩)
    (fun _ => fits_ofWord _ _) isSome_floatLiteral (fun _ => trivial) (fun _ => trivial)
    (fun _ _ => trivial) h

/-- A mark is written in its one way, and a name or the word for an intrinsic function has the kind
that its text is given. -/
structure Token.Proper (t : Token) : Prop where
  mark : ∀ m, t.kind = .mark m → t.text = m.spelling
  word : t.kind = .name ∨ t.kind = .intrinsic → t.kind = .ofWord t.text

/-- The kinds that a word may be given. -/
theorem ofWord_induction {P : TokenKind → Prop} (hkeyword : ∀ k, P (.keyword k))
    (hqualifier : P .qualifier) (htype : P .typeName) (hintrinsic : P .intrinsic) (hname : P .name)
    (text : String) : P (.ofWord text) := by
  unfold TokenKind.ofWord
  split
  · exact hkeyword _
  · repeat' split
    all_goals assumption

theorem ofWord_ne_mark (text : String) (m : Mark) : TokenKind.ofWord text ≠ .mark m :=
  ofWord_induction (P := (· ≠ .mark m)) nofun nofun nofun nofun nofun text

theorem proper_ofWord (text : String) (position : Position) :
    Token.Proper ⟨.ofWord text, text, position⟩ :=
  ⟨fun m h => absurd h (ofWord_ne_mark text m), fun _ => rfl⟩

/-- A piece that is neither a mark nor a word. -/
theorem proper_of_plain {t : Token} (hmark : ∀ m, t.kind ≠ .mark m)
    (hword : t.kind ≠ .name ∧ t.kind ≠ .intrinsic) : t.Proper :=
  ⟨fun m h => absurd h (hmark m), fun h => (h.elim hword.1 hword.2).elim⟩

/-- The mark in front is written there. -/
theorem Lexeme.take_of_mark {cs : List Char} {m : Mark} (h : Lexeme.mark cs = some m) :
    String.ofList (cs.take m.spelling.length) = m.spelling := by
  obtain ⟨rest, hrest⟩ := front_of_mark h
  rw [← hrest, ← String.length_toList, List.take_left, String.ofList_toList]

/-- What is cut from the front of a text has the kind of its text. -/
theorem Lexeme.proper_of_token {cs : List Char} {kind : TokenKind} {n : Nat}
    (h : Lexeme.token cs = some (kind, n)) (position : Position) :
    Token.Proper ⟨kind, String.ofList (cs.take n), position⟩ := by
  refine token_induction (P := fun kind n => Token.Proper ⟨kind, String.ofList (cs.take n), position⟩)
    (fun _ => proper_ofWord _ _) ?float ?int ?string (fun m hm => ⟨fun m' hm' => ?_, nofun⟩) h
  case float | int | string => exact fun _ => proper_of_plain nofun ⟨nofun, nofun⟩
  obtain rfl := TokenKind.mark.inj hm'
  exact take_of_mark hm

namespace TokenStream

/-- What is true of every piece that is cut from the front of a text is true of all tokens. -/
theorem forall_of_scan {P : Token → Prop}
    (hP : ∀ cs kind n position, Lexeme.token cs = some (kind, n) →
      P ⟨kind, String.ofList (cs.take n), position⟩)
    {file : UInt16} {line : Nat} {cs : List Char} {s : TokenStream}
    (h : scan file line cs = .ok s) : ∀ t ∈ s.tokens, P t := by
  fun_induction scan file line cs generalizing s with
  | case1 line =>
      obtain rfl := Except.ok.inj h
      exact nofun
  | case2 line c cs n _ ih => exact ih h
  | case3 line c cs _ kind n htoken rest hscan ih =>
      obtain rfl := Except.ok.inj h
      intro t ht
      rcases List.mem_cons.1 ht with rfl | ht
      · exact hP _ _ _ _ htoken
      · exact ih hscan t ht
  | case4 => contradiction
  | case5 => contradiction

/-- **The tokens of a source text fit.** -/
theorem fits_of_ofSource {source : String} {file : UInt16} {s : TokenStream}
    (h : ofSource source file = .ok s) : ∀ t ∈ s.tokens, t.Fits :=
  forall_of_scan (fun _ _ _ position htoken => Lexeme.fits_of_token htoken position) h

theorem proper_of_ofSource {source : String} {file : UInt16} {s : TokenStream}
    (h : ofSource source file = .ok s) : ∀ t ∈ s.tokens, t.Proper :=
  forall_of_scan (fun _ _ _ position htoken => Lexeme.proper_of_token htoken position) h

end TokenStream

end ShaderLang
