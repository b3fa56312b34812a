/-
**The tokens still to be read.**

Main definitions:

* `ShaderLang.Cursor` — the tokens still to be read and how many they are;
* `ShaderLang.Cursor.peek`, `ShaderLang.Cursor.current`, `ShaderLang.Cursor.next` — looking ahead and
  going on; behind the last token the end repeats for ever;
* `ShaderLang.Cursor.typeLength` — how many of the next tokens make up a type.

Main results:

* `ShaderLang.Cursor.left_next` — going on leaves one token fewer.
-/

import ShaderLang.Token

set_option relaxedAutoImplicit false
set_option autoImplicit false

namespace ShaderLang

/-- The tokens still to be read, how many they are, and the position of the end. -/
structure Cursor where
  rest : List Token
  stop : Position
  left : Nat
  left_eq : left = rest.length

namespace Cursor

/-- At the first token. -/
def ofStream (s : TokenStream) : Cursor := ⟨s.tokens, s.stop, s.tokens.length, rfl⟩

/-- The token some places ahead. -/
def peek (c : Cursor) (ahead : Nat) : Token := (c.rest[ahead]?).getD (.endOfFile c.stop)

/-- The next token. -/
def current (c : Cursor) : Token :=
  match c.rest with
  | t :: _ => t
  | [] => .endOfFile c.stop

/-- Behind the next token. -/
def next (c : Cursor) : Cursor :=
  ⟨c.rest.tail, c.stop, c.left - 1, by rw [c.left_eq, List.length_tail]⟩

@[simp] theorem rest_next (c : Cursor) : c.next.rest = c.rest.tail := rfl

@[simp] theorem stop_next (c : Cursor) : c.next.stop = c.stop := rfl

/-- Going on leaves one token fewer. -/
@[simp] theorem left_next (c : Cursor) : c.next.left = c.left - 1 := rfl

theorem current_eq_peek (c : Cursor) : c.current = c.peek 0 := by
  unfold current peek
  cases c.rest <;> rfl

/-- A next token of another kind than the end is one of the tokens still to be read. -/
theorem left_pos_of_kind {c : Cursor} (h : c.current.kind ≠ .endOfFile) : 0 < c.left := by
  rw [c.left_eq]
  unfold current at h
  cases hc : c.rest with
  | nil =>
      rw [hc] at h
      exact absurd rfl h
  | cons t ts => simp

/-! ### Looking ahead for a type -/

/-- How many tokens there are up to and with the next `>` in front of the next `;`. -/
def throughGreater : List Token → Option Nat
  | [] => none
  | t :: ts =>
      match t.kind with
      | .mark .greater => some 1
      | .mark .semicolon => none
      | .endOfFile => none
      | _ => (throughGreater ts).map (· + 1)

/-- A type can begin with the token; a name begins one if it is the name of a struct. -/
def startsType (isStruct : String → Bool) (t : Token) : Bool :=
  match t.kind with
  | .typeName => true
  | .keyword .vectorWord => true
  | .keyword .matrixWord => true
  | .name => isStruct t.text
  | _ => false

/-- The words that may be followed by a component type and extents. -/
def isGeneric : TokenKind → Bool
  | .keyword .vectorWord => true
  | .keyword .matrixWord => true
  | _ => false

/-- How many tokens in front make up a type, by the look of them. -/
def typeLengthOf (isStruct : String → Bool) : List Token → Option Nat
  | [] => none
  | t :: ts =>
      if startsType isStruct t then
        match ts with
        | u :: us =>
            if isGeneric t.kind && u.kind == .mark .less then (throughGreater us).map (· + 2)
            else some 1
        | [] => some 1
      else none

/-- How many tokens make up a type that begins some places ahead. -/
def typeLength (c : Cursor) (isStruct : String → Bool) (ahead : Nat) : Option Nat :=
  typeLengthOf isStruct (c.rest.drop ahead)

end Cursor

end ShaderLang
