/-
**Statements.**

A statement that breaks a rule inside a block is reported and left out; reading goes on behind the
next semicolon or in front of the next closing brace.

Main definitions:

* `ShaderLang.Grammar.statementRule`, `ShaderLang.Grammar.statement` — statements;
* `ShaderLang.Grammar.blockRule`, `ShaderLang.Grammar.block` — statements between braces.
-/

import ShaderLang.Builder.Statement
import ShaderLang.Grammar.Declaration

set_option relaxedAutoImplicit false
set_option autoImplicit false

namespace ShaderLang.Grammar

open ShaderLang.Parser

/-! ### Simple statements -/

/-- A declaration stands ahead: a qualifier, a type that is not called, or two names in a row. -/
def declarationAhead : Parser Bool := do
  if (← currentKind) = .qualifier then return true
  else
    match ← typeLength 0 with
    | some length => return (← peek length).kind != .mark .openParen
    | none => return (← currentKind) = .name && (← peek 1).kind = .name

/-- An expression as a statement. -/
def expressionStatement : Parser NodeId := do
  let value ← expression .default
  expectMark .semicolon
  build (Build.expression (some value))

/-- The empty statement. -/
def emptyStatement : Parser NodeId := do
  expectMark .semicolon
  build (Build.expression none)

/-- A statement that leaves the order of execution. -/
def jumpStatement (jump : Jump) : Parser NodeId := do
  let _ ← advance
  expectMark .semicolon
  build (Build.jump jump)

/-- An expression, unless the token that would end it comes at once. -/
def optionalExpression (stop : Mark) : Parser (Option NodeId) := do
  if (← currentKind) = .mark stop then return none
  else
    let value ← expression .default
    return some value

/-- The end of a function, with or without a value. -/
def returnStatement : Parser NodeId := do
  expectKeyword .returnWord
  let value ← optionalExpression .semicolon
  expectMark .semicolon
  build (Build.result value)

/-- A condition between parentheses. -/
def condition : Parser NodeId := do
  expectMark .openParen
  let value ← expression .default
  expectMark .closeParen
  return value

/-! ### Going on behind an error -/

/-- One more token of a statement that broke a rule. -/
def recoverStatementTurn (_ : Unit) : Parser (Turn Unit Unit) := do
  match ← currentKind with
  | .endOfFile => return .done ()
  | .mark .closeCurly => return .done ()
  | .mark .semicolon => do
      let _ ← advance
      return .done ()
  | _ => do
      let _ ← advance
      return .again ()

/-- Goes on behind the next semicolon or in front of the next closing brace. -/
def recoverStatement : Parser Unit := repeated recoverStatementTurn ()

/-- One more statement of a block. -/
def blockTurn (inner : Unit → Parser NodeId) (list : Option NodeId) :
    Parser (Turn (Option NodeId) (Option NodeId)) := do
  match ← currentKind with
  | .endOfFile => return .done list
  | .mark .closeCurly => return .done list
  | _ =>
      match ← attempt (inner ()) with
      | .ok item => do
          let list ← buildLink .statements list item
          return .again list
      | .error (found, allowed) => do
          report found allowed
          recoverStatement
          return .again list

/-- Statements between braces; `inner` reads the statements. -/
def blockRule (inner : Unit → Parser NodeId) : Parser NodeId := do
  expectMark .openCurly
  let list ← repeated (blockTurn inner) none
  expectMark .closeCurly
  build (Build.compound list)

/-! ### Statements that hold statements -/

/-- A choice; the second branch belongs to the nearest choice without one. -/
def ifStatement (inner : Unit → Parser NodeId) : Parser NodeId := do
  expectKeyword .ifWord
  let test ← condition
  let yes ← inner ()
  let no ← if ← accept (.keyword .elseWord) then some <$> inner () else pure none
  build (Build.conditional test yes no)

/-- A loop that tests before its body. -/
def whileStatement (inner : Unit → Parser NodeId) : Parser NodeId := do
  expectKeyword .whileWord
  let test ← condition
  let body ← inner ()
  build (Build.whileLoop test body)

/-- A loop that tests after its body. -/
def doStatement (inner : Unit → Parser NodeId) : Parser NodeId := do
  expectKeyword .doWord
  let body ← inner ()
  expectKeyword .whileWord
  let test ← condition
  expectMark .semicolon
  build (Build.doLoop body test)

/-- What a counting loop begins with. -/
def forStart : Parser (Option NodeId) := do
  if ← accept (.mark .semicolon) then return none
  else if ← declarationAhead then some <$> declarationStatement
  else some <$> expressionStatement

/-- A counting loop. -/
def forStatement (inner : Unit → Parser NodeId) : Parser NodeId := do
  expectKeyword .forWord
  expectMark .openParen
  let first ← forStart
  let test ← optionalExpression .semicolon
  expectMark .semicolon
  let next ← optionalExpression .closeParen
  expectMark .closeParen
  let body ← inner ()
  build (Build.forLoop first test next body)

/-- A statement; `inner` reads the statements inside it. -/
def statementRule (inner : Unit → Parser NodeId) (_ : Unit) : Parser NodeId := do
  match ← currentKind with
  | .mark .openCurly => blockRule inner
  | .keyword .ifWord => ifStatement inner
  | .keyword .whileWord => whileStatement inner
  | .keyword .doWord => doStatement inner
  | .keyword .forWord => forStatement inner
  | .keyword .breakWord => jumpStatement .breakLoop
  | .keyword .continueWord => jumpStatement .continueLoop
  | .keyword .discardWord => jumpStatement .discardFragment
  | .keyword .returnWord => returnStatement
  | .mark .semicolon => emptyStatement
  | _ =>
      if ← declarationAhead then declarationStatement
      else expressionStatement

/-- A statement. -/
def statement : Parser NodeId := fix statementRule ()

/-- Statements between braces. -/
def block : Parser NodeId := blockRule fun _ => statement

end ShaderLang.Grammar
