/-
**Declarations.**

Main definitions:

* `ShaderLang.Grammar.qualifiers`, `ShaderLang.Grammar.arraySuffix`, `ShaderLang.Grammar.semantic`,
  `ShaderLang.Grammar.initializer` — the parts of declarations;
* `ShaderLang.Grammar.declarators`, `ShaderLang.Grammar.declarationStatement` — variables;
* `ShaderLang.Grammar.structDeclaration` — structs;
* `ShaderLang.Grammar.parameter`, `ShaderLang.Grammar.parameters` — parameters.
-/

import ShaderLang.Builder.Declaration
import ShaderLang.Grammar.Expression

set_option relaxedAutoImplicit false
set_option autoImplicit false

namespace ShaderLang.Grammar

open ShaderLang.Parser

/-- A complete type. -/
def dataType : Parser DataType := typeSpecifier expression

/-- One more qualifier. -/
def qualifierTurn (q : Qualifiers) : Parser (Turn Qualifiers Qualifiers) := do
  if (← currentKind) = .qualifier then
    let t ← advance
    return .again (q.union (Build.qualifier t.text))
  else return .done q

/-- Any number of qualifiers. -/
def qualifiers : Parser Qualifiers := repeated qualifierTurn .none

/-- The number of elements between brackets, if the name is that of an array. -/
def arraySuffix : Parser (Option NodeId) := do
  if ← accept (.mark .openBracket) then
    let size ← expression .default
    expectMark .closeBracket
    return some size
  else return none

/-- A semantic behind a colon. -/
def semantic : Parser (Option NodeId) := do
  if ← accept (.mark .colon) then
    let t ← expect .name
    build (Build.semantic t.text)
  else return none

/-! ### Initial values -/

/-- One more initial value between braces; a comma may stand behind the last one. -/
def initializerTurn (inner : Unit → Parser NodeId) (list : Option NodeId) :
    Parser (Turn (Option NodeId) (Option NodeId)) := do
  if (← currentKind) = .mark .closeCurly then return .done list
  else
    let value ← inner ()
    let list ← buildLink .initializers list value
    if ← accept (.mark .comma) then return .again list else return .done list

/-- An initial value; `inner` reads the initial values inside it. -/
def initializerRule (inner : Unit → Parser NodeId) (_ : Unit) : Parser NodeId := do
  if (← currentKind) = .mark .openCurly then
    let _ ← advance
    let list ← repeated (initializerTurn inner) none
    match list with
    | some list =>
        if (← currentKind) = .mark .closeCurly then
          let _ ← advance
          return list
        else unexpected [.mark .comma, .mark .closeCurly]
    | none => unexpected expressionStart
  else expression .comma

/-- An initial value: an expression, or initial values between braces. -/
def initializer : Parser NodeId := fix initializerRule ()

/-! ### Variables -/

/-- What follows the name of a variable. -/
def declarator (q : Qualifiers) (type : DataType) (name : Token) : Parser NodeId := do
  let size ← arraySuffix
  let tie ← semantic
  let value ← if ← accept (.mark .assignment) then some <$> initializer else pure none
  build (Build.declaration q type name.text size tie value)

/-- One more variable behind a comma. -/
def declaratorTurn (q : Qualifiers) (type : DataType) (list : NodeId) :
    Parser (Turn NodeId NodeId) := do
  if ← accept (.mark .comma) then
    let name ← expect .name
    let item ← declarator q type name
    let list ← build (Build.link .declarators (some list) item)
    return .again list
  else return .done list

/-- What follows the name of the first of several variables, through the semicolon. -/
def declarators (q : Qualifiers) (type : DataType) (first : Token) : Parser NodeId := do
  let item ← declarator q type first
  let list ← build (Build.link .declarators none item)
  let list ← repeated (declaratorTurn q type) list
  if (← currentKind) = .mark .semicolon then
    let _ ← advance
    build (Build.declarationStatement list)
  else
    unexpected
      [.mark .semicolon, .mark .comma, .mark .assignment, .mark .openBracket, .mark .colon]

/-- A declaration of variables. -/
def declarationStatement : Parser NodeId := do
  let q ← qualifiers
  let type ← dataType
  let name ← expect .name
  declarators q type name

/-! ### Structs -/

/-- One more name in a line of a struct. -/
def structDeclarator (list : Option NodeId) : Parser (Turn (Option NodeId) (Option NodeId)) := do
  let name ← expect .name
  let size ← arraySuffix
  let tie ← semantic
  let item ← build (Build.structDeclarator name.text size tie)
  let list ← buildLink .structDeclarators list item
  if ← accept (.mark .comma) then return .again list else return .done list

/-- A line of a struct: members of one type. -/
def structMember : Parser NodeId := do
  let type ← dataType
  let list ← repeated structDeclarator none
  if (← currentKind) = .mark .semicolon then
    let _ ← advance
    match list with
    | some list => build (Build.structMember type list)
    | none => unexpected [.name]
  else unexpected [.mark .semicolon, .mark .comma, .mark .openBracket, .mark .colon]

/-- One more line of a struct. -/
def structMemberTurn (list : Option NodeId) : Parser (Turn (Option NodeId) (Option NodeId)) := do
  if (← currentKind) = .mark .closeCurly then return .done list
  else
    let member ← structMember
    let list ← buildLink .structMembers list member
    return .again list

/-- A struct. -/
def structDeclaration : Parser NodeId := do
  expectKeyword .structWord
  let name ← expect .name
  let id ← build (Build.beginStruct name.text)
  expectMark .openCurly
  let members ← repeated structMemberTurn none
  expectMark .closeCurly
  expectMark .semicolon
  build (Build.structDeclaration id members)

/-! ### Parameters -/

/-- A parameter, with or without a name. -/
def parameter : Parser NodeId := do
  let q ← qualifiers
  let type ← dataType
  let name ←
    if (← currentKind) = .name then do
      let t ← advance
      pure (some t.text)
    else pure none
  let size ← arraySuffix
  let tie ← semantic
  build (Build.parameter q type name size tie)

/-- The word `void` alone between parentheses means that there are no parameters. -/
def voidAhead : Parser Bool := do
  if (← current).text = "void" then return (← peek 1).kind = .mark .closeParen
  else return false

/-- One more parameter. -/
def parameterTurn (list : Option NodeId) : Parser (Turn (Option NodeId) (Option NodeId)) := do
  let item ← parameter
  let list ← buildLink .parameters list item
  if ← accept (.mark .comma) then return .again list else return .done list

/-- Parameters, through the closing parenthesis. -/
def parameters : Parser (Option NodeId) := do
  let list ←
    if ← voidAhead then do
      let _ ← advance
      pure none
    else if (← currentKind) = .mark .closeParen then pure none
    else repeated parameterTurn none
  if (← currentKind) = .mark .closeParen then
    let _ ← advance
    return list
  else unexpected [.mark .comma, .mark .closeParen]

end ShaderLang.Grammar
