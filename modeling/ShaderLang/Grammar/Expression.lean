/-
**Types and expressions.**

An expression is an operand and any number of extensions, each of which binds tighter than the level
at which the expression was begun.

Main definitions:

* `ShaderLang.Grammar.typeSpecifier` — a type;
* `ShaderLang.Grammar.operand`, `ShaderLang.Grammar.extend` — operands and extensions;
* `ShaderLang.Grammar.expressionRule`, `ShaderLang.Grammar.expression` — expressions.
-/

import ShaderLang.Builder.Expression
import ShaderLang.Grammar.Parser
import ShaderLang.Grammar.Power

set_option relaxedAutoImplicit false
set_option autoImplicit false

namespace ShaderLang.Grammar

open ShaderLang.Parser

/-! ### Types -/

/-- The tokens that a type can begin with. -/
def typeStart : List TokenKind :=
  [.typeName, .keyword .vectorWord, .keyword .matrixWord, .name]

/-- The component type of a vector or matrix. -/
def componentType : Parser DataType := do
  let t ← expect .typeName
  build (Build.namedType t.text)

/-- The extents between `<` and `>`; the level keeps the `>` out of them. -/
def extentExpression (expr : Power → Parser NodeId) : Parser NodeId := expr .relational

/-- A vector type; alone its word stands for four floats. -/
def vectorSpecifier (expr : Power → Parser NodeId) : Parser DataType := do
  expectKeyword .vectorWord
  if ← accept (.mark .less) then
    let component ← componentType
    expectMark .comma
    let size ← extentExpression expr
    expectMark .greater
    build (Build.vectorType component size)
  else build (Build.namedType "float4")

/-- A matrix type; alone its word stands for four by four floats. -/
def matrixSpecifier (expr : Power → Parser NodeId) : Parser DataType := do
  expectKeyword .matrixWord
  if ← accept (.mark .less) then
    let component ← componentType
    expectMark .comma
    let rows ← extentExpression expr
    expectMark .comma
    let columns ← extentExpression expr
    expectMark .greater
    build (Build.matrixType component rows columns)
  else build (Build.namedType "float4x4")

/-- A type. -/
def typeSpecifier (expr : Power → Parser NodeId) : Parser DataType := do
  match ← currentKind with
  | .typeName => componentType
  | .keyword .vectorWord => vectorSpecifier expr
  | .keyword .matrixWord => matrixSpecifier expr
  | .name => do
      let t ← advance
      build (Build.structType t.text)
  | _ => unexpected typeStart

/-- How many tokens make up a type that begins some places ahead. -/
def typeLength (ahead : Nat) : Parser (Option Nat) := do
  let s ← get
  return s.cursor.typeLength (fun name => (s.builder.structs.lookup name).isSome) ahead

/-! ### Arguments -/

/-- One more argument. -/
def argumentTurn (expr : Power → Parser NodeId) (list : Option NodeId) :
    Parser (Turn (Option NodeId) (Option NodeId)) := do
  let item ← expr .comma
  let list ← buildLink .arguments list item
  if ← accept (.mark .comma) then return .again list else return .done list

/-- Arguments between parentheses. -/
def arguments (expr : Power → Parser NodeId) : Parser (Option NodeId) := do
  expectMark .openParen
  if ← accept (.mark .closeParen) then return none
  let list ← repeated (argumentTurn expr) none
  if (← currentKind) = .mark .closeParen then
    let _ ← advance
    return list
  else unexpected [.mark .comma, .mark .closeParen]

/-! ### Operands -/

/-- The tokens that an expression can begin with, as far as they are named in reports. -/
def expressionStart : List TokenKind :=
  [.name, .int, .float, .mark .openParen, .typeName, .intrinsic, .string, .keyword .trueWord,
    .keyword .falseWord, .mark .dash, .mark .plus, .mark .not, .mark .tilde, .mark .plusPlus,
    .mark .minusMinus]

/-- A token that is an expression by itself. -/
def literal (step : String → Build NodeId) : Parser NodeId := do
  let t ← advance
  build (step t.text)

/-- A type between parentheses stands ahead. -/
def castAhead : Parser Bool := do
  match ← typeLength 1 with
  | some length => return (← peek (1 + length)).kind = .mark .closeParen
  | none => return false

/-- A conversion, or an expression between parentheses. -/
def parenthesised (expr : Power → Parser NodeId) : Parser NodeId := do
  let isCast ← castAhead
  expectMark .openParen
  if isCast then
    let type ← typeSpecifier expr
    expectMark .closeParen
    let value ← expr .unary
    build (Build.cast type value)
  else
    let value ← expr .default
    expectMark .closeParen
    return value

/-- A value of a type, from arguments. -/
def construction (expr : Power → Parser NodeId) : Parser NodeId := do
  let type ← typeSpecifier expr
  let list ← arguments expr
  build (Build.construct type list)

/-- A call of an intrinsic function. -/
def intrinsicCall (expr : Power → Parser NodeId) : Parser NodeId := do
  let t ← advance
  let list ← arguments expr
  build (Build.intrinsicCall t.text list)

/-- An operator and its operand. -/
def leading (expr : Power → Parser NodeId) (op : Leading) : Parser NodeId := do
  let _ ← advance
  let value ← expr .unary
  match op with
  | .unary op => build (Build.unary op value)
  | .step direction => build (Build.step .before direction value)

/-- An operand. -/
def operand (expr : Power → Parser NodeId) : Parser NodeId := do
  match ← currentKind with
  | .int => literal Build.intLiteral
  | .float => literal Build.floatLiteral
  | .string => literal Build.stringLiteral
  | .keyword .trueWord => literal fun _ => Build.boolLiteral true
  | .keyword .falseWord => literal fun _ => Build.boolLiteral false
  | .name => literal Build.name
  | .intrinsic => intrinsicCall expr
  | .typeName => construction expr
  | .keyword .vectorWord => construction expr
  | .keyword .matrixWord => construction expr
  | .mark .openParen => parenthesised expr
  | .mark m =>
      match Leading.ofMark m with
      | some op => leading expr op
      | none => unexpected expressionStart
  | _ => unexpected expressionStart

/-! ### Extensions -/

/-- The name of a member; names of intrinsic functions are allowed too. -/
def fieldName : Parser Token := do
  match ← currentKind with
  | .name => advance
  | .intrinsic => advance
  | _ => unexpected [.name]

/-- An extension of the expression so far. -/
def extend (expr : Power → Parser NodeId) (left : NodeId) : Extension → Parser NodeId
  | .binary op => do
      let _ ← advance
      let right ← expr op.power
      build (Build.binary op left right)
  | .assign op => do
      let _ ← advance
      let value ← expr .comma
      build (Build.assign op left value)
  | .ternary => do
      let _ ← advance
      let yes ← expr .default
      expectMark .colon
      let no ← expr .assignment
      build (Build.ternary left yes no)
  | .comma => do
      let _ ← advance
      let right ← expr .comma
      build (Build.comma left right)
  | .step direction => do
      let _ ← advance
      build (Build.step .after direction left)
  | .element => do
      let _ ← advance
      let position ← expr .default
      expectMark .closeBracket
      build (Build.element left position)
  | .call => do
      let list ← arguments expr
      build (Build.call left list)
  | .field => do
      let _ ← advance
      let t ← fieldName
      build (Build.field left t.text)

/-- One more extension of the expression so far, if one that binds tighter than the level
follows. -/
def extension (expr : Power → Parser NodeId) (level : Power) (left : NodeId) :
    Parser (Turn NodeId NodeId) := do
  match Extension.above level (← currentKind) with
  | some e => do
      let longer ← extend expr left e
      return .again longer
  | none => return .done left

/-- An expression whose extensions bind tighter than a level; `expr` reads the expressions inside
it. -/
def expressionRule (expr : Power → Parser NodeId) (level : Power) : Parser NodeId := do
  let first ← operand expr
  repeated (extension expr level) first

/-- An expression whose extensions bind tighter than a level. -/
def expression (level : Power) : Parser NodeId := fix expressionRule level

end ShaderLang.Grammar
