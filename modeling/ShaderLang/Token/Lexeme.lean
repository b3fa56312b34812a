/-
**Lexemes.**

For each class of pieces of source text a function tells how many characters at the front of a text
belong to a piece of that class; zero means that none does.

Main definitions:

* `ShaderLang.Lexeme.gap` — what is skipped: blanks, comments up to the end of the line or between
  `/*` and `*/`, and lines that begin with a number sign;
* `ShaderLang.Lexeme.word`, `ShaderLang.Lexeme.float`, `ShaderLang.Lexeme.int`,
  `ShaderLang.Lexeme.string` — words, numbers and string literals;
* `ShaderLang.Lexeme.mark` — marks;
* `ShaderLang.Lexeme.token` — the kind and length of the token in front.

Main results:

* `ShaderLang.Lexeme.token_induction` — what is true of each of the pieces is true of the token in front.
-/

import ShaderLang.Text.Blank
import ShaderLang.Text.Digit
import ShaderLang.Token

set_option relaxedAutoImplicit false
set_option autoImplicit false

namespace ShaderLang.Lexeme

open Text

/-- How many characters in front have a property. -/
def run (p : Char → Bool) (cs : List Char) : Nat := (cs.takeWhile p).length

@[simp] theorem run_nil (p : Char → Bool) : run p [] = 0 := rfl

theorem run_cons (p : Char → Bool) (c : Char) (cs : List Char) :
    run p (c :: cs) = if p c then run p cs + 1 else 0 := by
  unfold run
  rw [List.takeWhile_cons]
  by_cases h : p c = true <;> simp [h]

theorem take_run (p : Char → Bool) (cs : List Char) : cs.take (run p cs) = cs.takeWhile p := by
  induction cs with
  | nil => rfl
  | cons c cs ih =>
      rw [run_cons]
      by_cases h : p c = true <;> simp [h, ih]

/-- The rest of a line. -/
def restOfLine (cs : List Char) : Nat := run (· != '\n') cs

/-! ### Skipped text -/

/-- Blanks. -/
def blanks (cs : List Char) : Nat := run isBlank cs

/-- A comment up to the end of the line. -/
def lineComment : List Char → Nat
  | '/' :: '/' :: cs => 2 + restOfLine cs
  | _ => 0

/-- The text up to and with the first `*/`. -/
def throughCommentEnd : List Char → Option Nat
  | [] => none
  | '*' :: '/' :: _ => some 2
  | _ :: cs => (throughCommentEnd cs).map (· + 1)

/-- A comment between `/*` and `*/`; without an end it is none. -/
def blockComment : List Char → Nat
  | '/' :: '*' :: cs =>
      match throughCommentEnd cs with
      | some n => 2 + n
      | none => 0
  | _ => 0

/-- A line for a preprocessor. -/
def directive : List Char → Nat
  | '#' :: cs => 1 + restOfLine cs
  | _ => 0

/-- The first of two lengths that is not zero. -/
def orElse (n m : Nat) : Nat := if n = 0 then m else n

/-- Text that is skipped. -/
def gap (cs : List Char) : Nat :=
  orElse (blanks cs) (orElse (lineComment cs) (orElse (blockComment cs) (directive cs)))

/-! ### Words, numbers, string literals -/

/-- A word. -/
def word : List Char → Nat
  | c :: cs => if startsName c then 1 + run continuesName cs else 0
  | [] => 0

/-- Decimal digits. -/
def decimals (cs : List Char) : Nat := run isDecimal cs

/-- A sign or nothing. -/
def sign : List Char → Nat
  | '+' :: _ => 1
  | '-' :: _ => 1
  | _ => 0

/-- An exponent: its letter, an optional sign and at least one digit. -/
def exponent : List Char → Nat
  | c :: cs =>
      if c = 'e' ∨ c = 'E' then
        let digits := decimals (cs.drop (sign cs))
        if digits = 0 then 0 else 1 + sign cs + digits
      else 0
  | [] => 0

/-- The letter that may end a floating-point literal. -/
def floatSuffix : List Char → Nat
  | c :: _ => if ['f', 'F', 'h', 'H'].contains c then 1 else 0
  | [] => 0

/-- What may follow the digits of a floating-point literal. -/
def floatTail (cs : List Char) : Nat := exponent cs + floatSuffix (cs.drop (exponent cs))

/-- A floating-point literal: digits with a point among or beside them, or digits with an
exponent. -/
def float (cs : List Char) : Nat :=
  let whole := decimals cs
  match cs.drop whole with
  | '.' :: rest =>
      let fraction := decimals rest
      if whole = 0 ∧ fraction = 0 then 0
      else whole + 1 + fraction + floatTail (rest.drop fraction)
  | rest => if whole = 0 ∨ exponent rest = 0 then 0 else whole + floatTail rest

/-- The letters that may end an integer literal. -/
def intSuffix (cs : List Char) : Nat := run (['u', 'U', 'l', 'L'].contains ·) cs

/-- The digits of a hexadecimal literal behind its zero and letter. -/
def hexDigits : List Char → Nat
  | '0' :: c :: cs => if c = 'x' ∨ c = 'X' then run isHexadecimal cs else 0
  | _ => 0

/-- The digits of an integer literal with what stands before them. -/
def intDigits (cs : List Char) : Nat :=
  if hexDigits cs = 0 then decimals cs else 2 + hexDigits cs

/-- An integer literal. -/
def int (cs : List Char) : Nat :=
  if intDigits cs = 0 then 0 else intDigits cs + intSuffix (cs.drop (intDigits cs))

/-- The rest of a string literal with its closing quote.  A line feed ends no literal, not even
behind a backslash. -/
def stringRest : List Char → Option Nat
  | [] => none
  | '"' :: _ => some 1
  | '\\' :: c :: cs => if c = '\n' then none else (stringRest cs).map (· + 2)
  | c :: cs => if c = '\n' ∨ c = '\\' then none else (stringRest cs).map (· + 1)

/-- A string literal with its quotes. -/
def string : List Char → Nat
  | '"' :: cs =>
      match stringRest cs with
      | some n => 1 + n
      | none => 0
  | _ => 0

/-! ### Marks and tokens -/

/-- The mark in front, the first of those that are written there. -/
def mark (cs : List Char) : Option Mark :=
  Mark.all.find? fun m => m.spelling.toList.isPrefixOf cs

theorem front_of_mark {cs : List Char} {m : Mark} (h : mark cs = some m) :
    m.spelling.toList <+: cs := by
  have hfront := List.find?_some (show Mark.all.find? (fun m => _) = some m from h)
  exact List.isPrefixOf_iff_prefix.1 hfront

/-- The kind and length of the token in front. -/
def token (cs : List Char) : Option (TokenKind × Nat) :=
  if word cs ≠ 0 then some (.ofWord (String.ofList (cs.take (word cs))), word cs)
  else if float cs ≠ 0 then some (.float, float cs)
  else if int cs ≠ 0 then some (.int, int cs)
  else if string cs ≠ 0 then some (.string, string cs)
  else (mark cs).map fun m => (.mark m, m.spelling.length)

/-- The token in front is one of the pieces that are there. -/
theorem token_induction {cs : List Char} {P : TokenKind → Nat → Prop}
    (hword : word cs ≠ 0 → P (.ofWord (String.ofList (cs.take (word cs)))) (word cs))
    (hfloat : float cs ≠ 0 → P .float (float cs)) (hint : int cs ≠ 0 → P .int (int cs))
    (hstring : string cs ≠ 0 → P .string (string cs))
    (hmark : ∀ m, mark cs = some m → P (.mark m) m.spelling.length)
    {kind : TokenKind} {n : Nat} (h : token cs = some (kind, n)) : P kind n := by
  unfold token at h
  split at h
  · next hne =>
      obtain ⟨rfl, rfl⟩ := Prod.mk.inj (Option.some.inj h)
      exact hword hne
  · split at h
    · next hne =>
        obtain ⟨rfl, rfl⟩ := Prod.mk.inj (Option.some.inj h)
        exact hfloat hne
    · split at h
      · next hne =>
          obtain ⟨rfl, rfl⟩ := Prod.mk.inj (Option.some.inj h)
          exact hint hne
      · split at h
        · next hne =>
            obtain ⟨rfl, rfl⟩ := Prod.mk.inj (Option.some.inj h)
            exact hstring hne
        · obtain ⟨m, hm, hpair⟩ := Option.map_eq_some_iff.1 h
          obtain ⟨rfl, rfl⟩ := Prod.mk.inj hpair
          exact hmark m hm

example : float ['1', '.', 'e', '5', 'f', 'x'] = 5 ∧ float ['1', 'e'] = 0 := by decide

example : int ['0', 'x', 'g'] = 1 ∧ int ['0', 'x', 'F', 'u'] = 4 := by decide

end ShaderLang.Lexeme
