/-
**Rules of the grammar as computations.**

A rule reads tokens and builds nodes.  It ends with a result, or at a token that it does not allow,
or with a fault.  What was built before a token that is not allowed stays built.

A rule that refers to itself is written with the reference as a parameter, and `fix` puts the rule
in for it.  `loop` repeats a computation.  Both insist that tokens were read in between, so both come
to an end; reading a program never lets them insist in vain.

Main definitions:

* `ShaderLang.ParseState`, `ShaderLang.Halt`, `ShaderLang.Parser` — rules;
* `ShaderLang.Parser.current`, `advance`, `accept`, `expect`, `unexpected` — reading tokens;
* `ShaderLang.Parser.build` — building nodes;
* `ShaderLang.Parser.fix`, `ShaderLang.Parser.loop` — recursion and repetition;
* `ShaderLang.Parser.attempt` — going on behind a token that is not allowed.
-/

import ShaderLang.Builder
import ShaderLang.Grammar.Cursor

set_option relaxedAutoImplicit false
set_option autoImplicit false

namespace ShaderLang

/-- The tokens still to be read, what is built so far, and how many alternatives a report lists. -/
structure ParseState where
  cursor : Cursor
  builder : Builder
  limit : Nat

/-- Why a rule ends without a result. -/
inductive Halt where
  /-- The token is not allowed here; tokens of the listed kinds would be. -/
  | unexpected (found : Token) (allowed : List TokenKind)
  | fault (fault : Fault)

/-- A rule of the grammar. -/
abbrev Parser (α : Type) : Type := EStateM Halt ParseState α

namespace Parser

variable {ι α β : Type}

/-! ### Reading tokens -/

/-- The token some places ahead. -/
def peek (ahead : Nat) : Parser Token := do
  return (← get).cursor.peek ahead

/-- The next token. -/
def current : Parser Token := do
  return (← get).cursor.current

/-- The kind of the next token. -/
def currentKind : Parser TokenKind := do
  return (← current).kind

/-- Reads a token.  What is built next gets its position. -/
def advance : Parser Token :=
  modifyGet fun s =>
    let t := s.cursor.current
    (t, { s with
      cursor := s.cursor.next
      builder := { s.builder with position := t.position } })

/-- The next token is not allowed. -/
def unexpected (allowed : List TokenKind) : Parser α := do
  throw (.unexpected (← current) allowed)

/-- Reads a token of the kind, if it is the next one. -/
def accept (kind : TokenKind) : Parser Bool := do
  if (← currentKind) = kind then
    let _ ← advance
    return true
  else return false

/-- Reads a token, which must be of the kind. -/
def expect (kind : TokenKind) : Parser Token := do
  if (← currentKind) = kind then advance else unexpected [kind]

/-- Reads a mark. -/
def expectMark (m : Mark) : Parser Unit := do
  let _ ← expect (.mark m)

/-- Reads a reserved word. -/
def expectKeyword (k : Keyword) : Parser Unit := do
  let _ ← expect (.keyword k)

/-- There is a token before the end. -/
def hasTokens : Parser Bool := do
  return (← currentKind) != .endOfFile

/-! ### Building -/

/-- A step of building. -/
def build (step : Build α) : Parser α := fun ⟨cursor, builder, limit⟩ =>
  match step builder with
  | .ok a b => .ok a ⟨cursor, b, limit⟩
  | .error f b => .error (.fault f) ⟨cursor, b, limit⟩

/-- One more item of a sequence, as the sequence so far. -/
def buildLink (kind : ListKind) (previous : Option NodeId) (item : NodeId) :
    Parser (Option NodeId) := do
  let id ← build (Build.link kind previous item)
  return some id

/-! ### Recursion and repetition -/

/-- A rule that refers to itself.  A reference must stand behind where the rule began. -/
def fix (rule : (ι → Parser α) → ι → Parser α) (i : ι) (s : ParseState) :
    EStateM.Result Halt ParseState α :=
  let left := s.cursor.left
  rule (fun j s' =>
    if s'.cursor.left < left then fix rule j s'
    else .error (.fault .endless) s') i s
termination_by s.cursor.left

/-- Whether a repetition goes on, and with what. -/
inductive Turn (β α : Type) where
  | again (next : β)
  | done (result : α)

/-- Repeats a computation until it is done.  Each turn but the last must read a token. -/
def loop (turn : β → Parser (Turn β α)) (b : β) (s : ParseState) :
    EStateM.Result Halt ParseState α :=
  let left := s.cursor.left
  match turn b s with
  | .ok (.done a) s' => .ok a s'
  | .ok (.again b') s' =>
      if s'.cursor.left < left then loop turn b' s'
      else .error (.fault .endless) s'
  | .error e s' => .error e s'
termination_by s.cursor.left

/-- The repetition as a rule. -/
def repeated (turn : β → Parser (Turn β α)) (b : β) : Parser α := fun s => loop turn b s

/-! ### Going on behind an error -/

/-- Makes a token that is not allowed a result of its own. -/
def attempt (p : Parser α) : Parser (Except (Token × List TokenKind) α) := fun s =>
  match p s with
  | .ok a s' => .ok (.ok a) s'
  | .error (.unexpected found allowed) s' => .ok (.error (found, allowed)) s'
  | .error (.fault f) s' => .error (.fault f) s'

/-- Reports a token that is not allowed, with the first alternatives. -/
def report (found : Token) (allowed : List TokenKind) : Parser Unit :=
  modify fun s =>
    let problem := .unexpectedToken found.text ((allowed.take s.limit).map TokenKind.describe)
    { s with builder :=
        { s.builder with
          diagnostics := s.builder.diagnostics.report problem found.position } }

/-! ### The steps, applied to a state -/

@[simp] theorem pure_apply (a : α) (s : ParseState) : (pure a : Parser α) s = .ok a s := rfl

@[simp] theorem bind_apply (p : Parser α) (f : α → Parser β) (s : ParseState) :
    (p >>= f) s =
      match p s with
      | .ok a s' => f a s'
      | .error e s' => .error e s' := by
  show EStateM.bind p f s = _
  unfold EStateM.bind
  cases p s <;> rfl

@[simp] theorem current_apply (s : ParseState) : current s = .ok s.cursor.current s := rfl

@[simp] theorem currentKind_apply (s : ParseState) :
    currentKind s = .ok s.cursor.current.kind s := rfl

@[simp] theorem peek_apply (ahead : Nat) (s : ParseState) :
    peek ahead s = .ok (s.cursor.peek ahead) s := rfl

@[simp] theorem advance_apply (s : ParseState) :
    advance s =
      .ok s.cursor.current
        { s with
          cursor := s.cursor.next
          builder := { s.builder with position := s.cursor.current.position } } := rfl

@[simp] theorem unexpected_apply (allowed : List TokenKind) (s : ParseState) :
    (unexpected allowed : Parser α) s = .error (.unexpected s.cursor.current allowed) s := rfl

/-- The one equation of a rule that refers to itself. -/
theorem fix_eq (rule : (ι → Parser α) → ι → Parser α) (i : ι) (s : ParseState) :
    fix rule i s =
      rule (fun j s' =>
        if s'.cursor.left < s.cursor.left then fix rule j s'
        else .error (.fault .endless) s') i s := by
  rw [fix]

/-- The one equation of a repetition. -/
theorem loop_eq (turn : β → Parser (Turn β α)) (b : β) (s : ParseState) :
    loop turn b s =
      match turn b s with
      | .ok (.done a) s' => .ok a s'
      | .ok (.again b') s' =>
          if s'.cursor.left < s.cursor.left then loop turn b' s'
          else .error (.fault .endless) s'
      | .error e s' => .error e s' := by
  rw [loop]

end Parser

end ShaderLang
