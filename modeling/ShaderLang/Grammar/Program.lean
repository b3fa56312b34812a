/-
**Programs.**

A program is a sequence of structs, functions and declarations of variables; semicolons between them
are ignored.  One that breaks a rule is reported and left out; reading goes on behind the next
semicolon or closing brace.

Main definitions:

* `ShaderLang.Grammar.function`, `ShaderLang.Grammar.external` — what a program consists of;
* `ShaderLang.Grammar.program` — a program.
-/

import ShaderLang.Grammar.Statement

set_option relaxedAutoImplicit false
set_option autoImplicit false

namespace ShaderLang.Grammar

open ShaderLang.Parser

/-- The tokens that a declaration can begin with, as far as they are named in reports. -/
def declarationStart : List TokenKind :=
  [.keyword .structWord, .qualifier, .typeName, .keyword .vectorWord, .keyword .matrixWord]

/-- What follows the head of a function: its body, or a semicolon. -/
def functionEnd (head : NodeId) : Parser NodeId := do
  match ← currentKind with
  | .mark .semicolon => do
      let _ ← advance
      build Build.endFunction
      return head
  | .mark .openCurly => do
      let body ← block
      build (Build.definition head body)
  | _ => unexpected [.mark .semicolon, .mark .openCurly]

/-- What follows the name of a function. -/
def function (type : DataType) (name : Token) : Parser NodeId := do
  expectMark .openParen
  let list ← parameters
  let tie ← semantic
  let head ← build (Build.prototype type name.text list tie)
  functionEnd head

/-- A function or variables. -/
def functionOrVariables : Parser NodeId := do
  let q ← qualifiers
  let type ← dataType
  let name ← expect .name
  if (← currentKind) = .mark .openParen then function type name
  else declarators q type name

/-- A function or variables, if a type or two names in a row stand ahead. -/
def typedExternal : Parser NodeId := do
  match ← currentKind with
  | .qualifier => functionOrVariables
  | .typeName => functionOrVariables
  | .keyword .vectorWord => functionOrVariables
  | .keyword .matrixWord => functionOrVariables
  | .name =>
      if (← peek 1).kind = .name then functionOrVariables
      else unexpected declarationStart
  | _ => unexpected declarationStart

/-- A part of a program; nothing for a semicolon. -/
def external : Parser (Option NodeId) := do
  match ← currentKind with
  | .mark .semicolon => do
      let _ ← advance
      return none
  | .keyword .structWord => some <$> structDeclaration
  | _ => some <$> typedExternal

/-- One more token of a part that broke a rule. -/
def recoverTurn (_ : Unit) : Parser (Turn Unit Unit) := do
  match ← currentKind with
  | .endOfFile => return .done ()
  | .mark .closeCurly => do
      let _ ← advance
      return .done ()
  | .mark .semicolon => do
      let _ ← advance
      return .done ()
  | _ => do
      let _ ← advance
      return .again ()

/-- Goes on behind the next semicolon or closing brace. -/
def recover : Parser Unit := repeated recoverTurn ()

/-- One more part of a program. -/
def programTurn (list : Option NodeId) : Parser (Turn (Option NodeId) (Option NodeId)) := do
  if ← hasTokens then
    match ← attempt external with
    | .ok (some item) => do
        let list ← buildLink .externals list item
        return .again list
    | .ok none => return .again list
    | .error (found, allowed) => do
        report found allowed
        build Build.endFunction
        recover
        return .again list
  else return .done list

/-- A program. -/
def program : Parser (Option NodeId) := repeated programTurn none

end ShaderLang.Grammar
