/-
**Building expressions and types.**

Main definitions:

* `ShaderLang.Build.intLiteral`, … — one step for each kind of expression;
* `ShaderLang.Build.namedType`, `ShaderLang.Build.structType`, `ShaderLang.Build.vectorType`,
  `ShaderLang.Build.matrixType` — the steps that make out types.
-/

import ShaderLang.Builder
import ShaderLang.Types.Keyword

set_option relaxedAutoImplicit false
set_option autoImplicit false

namespace ShaderLang.Build

/-! ### Literals and names -/

/-- An integer literal; one that cannot be read is reported and counts as zero. -/
def intLiteral (text : String) : Build NodeId :=
  match IntegerLiteral.ofText text with
  | some l => add (.int l.value l.isUnsigned)
  | none => do
      report (.malformedNumber text)
      add (.int 0 false)

/-- A floating-point literal; one that cannot be read is reported and counts as zero. -/
def floatLiteral (text : String) : Build NodeId :=
  match ShaderLang.floatLiteral text with
  | some x => add (.float x)
  | none => do
      report (.malformedNumber text)
      add (.float 0.0)

/-- A truth value. -/
def boolLiteral (value : Bool) : Build NodeId := add (.bool value)

/-- A string literal, with its quotes. -/
def stringLiteral (text : String) : Build NodeId := do
  let id ← modifyGet fun b =>
    let (id, names) := b.names.addLiteral text true
    (id, { b with names })
  add (.string id)

/-- A name. -/
def name (text : String) : Build NodeId := do
  let id ← occur text
  add (.name id)

/-! ### Operators -/

/-- An element of an array; an index that is no integer is reported. -/
def element (array position : NodeId) : Build NodeId := do
  if !(← ask (·.isInteger position)) then report .nonIntegerIndex
  add (.index array position)

/-- The operators `++` and `--`. -/
def step (placement : Placement) (direction : Direction) (operand : NodeId) : Build NodeId :=
  add (.step placement direction operand)

/-- An operator in front of its operand. -/
def unary (op : UnaryOp) (operand : NodeId) : Build NodeId := add (.unary op operand)

/-- A conversion. -/
def cast (type : DataType) (operand : NodeId) : Build NodeId := add (.cast type operand)

/-- An operator between its operands. -/
def binary (op : BinaryOp) (left right : NodeId) : Build NodeId := add (.binary op left right)

/-- A choice between two values. -/
def ternary (condition yes no : NodeId) : Build NodeId := add (.ternary condition yes no)

/-- An assignment. -/
def assign (op : AssignOp) (target value : NodeId) : Build NodeId := add (.assign op target value)

/-- Two expressions of which the second gives the value. -/
def comma (left right : NodeId) : Build NodeId := add (.comma left right)

/-- A member of a struct or a selection of components. -/
def field (base : NodeId) (text : String) : Build NodeId := do
  let id ← occur text
  add (.field base id)

/-! ### Calls -/

/-- A value of a type, from arguments. -/
def construct (type : DataType) (arguments : Option NodeId) : Build NodeId :=
  add (.construct type arguments)

/-- Notes that the function being built calls the function that a node names, if it names one. -/
def noteCall (callee : NodeId) : Build Unit := do
  let node ← ask fun b => b.arena.get callee
  match node with
  | .name n =>
      modify fun b =>
        match b.current, b.names.text? n with
        | some caller, some text => { b with calls := b.calls.record caller text }
        | _, _ => b
  | _ => pure ()

/-- A call of a function. -/
def call (callee : NodeId) (arguments : Option NodeId) : Build NodeId := do
  noteCall callee
  add (.call callee arguments)

/-- A call of an intrinsic function; any other name is reported and called as it is. -/
def intrinsicCall (text : String) (arguments : Option NodeId) : Build NodeId :=
  match Intrinsic.ofName text with
  | some intrinsic => add (.intrinsicCall intrinsic arguments)
  | none => do
      report (.unknownIntrinsic text)
      let callee ← name text
      call callee arguments

/-! ### Types -/

/-- The type that a keyword names; any other text is reported and counts as `void`. -/
def namedType (text : String) : Build DataType :=
  match DataType.ofKeyword text with
  | some type => pure type
  | none => do
      report (.unknownType text)
      pure .void

/-- The struct that a name stands for; any other name is reported and counts as `void`. -/
def structType (text : String) : Build DataType := do
  match (← get).structs.lookup text with
  | some id => pure (.struct id)
  | none => do
      report (.unknownType text)
      pure .void

/-- The extents that a vector or matrix may have. -/
def extentOfInt (n : Int) : Extent :=
  if n = 2 then some 2 else if n = 3 then some 3 else if n = 4 then some 4 else none

/-- The extent that an expression gives; one that has no integer value or one out of range is
reported. -/
def dimension (id : NodeId) : Build Extent := do
  match ← ask (·.fold id) with
  | none => do
      report .nonConstantDimension
      pure none
  | some (.floating _) => do
      report .nonConstantDimension
      pure none
  | some value =>
      match extentOfInt value.toInt64.toInt with
      | some n => pure (some n)
      | none => do
          report (.dimensionOutOfRange value.toInt64.toInt)
          pure none

/-- A vector with components of a type; without a usable size it is one component. -/
def vectorType (component : DataType) (size : NodeId) : Build DataType := do
  match ← dimension size with
  | some n => pure ⟨component.base, some n, none⟩
  | none => pure component.element

/-- A matrix with components of a type; without usable extents it is one component. -/
def matrixType (component : DataType) (rows columns : NodeId) : Build DataType := do
  let r ← dimension rows
  let c ← dimension columns
  match r, c with
  | some r, some c => pure ⟨component.base, some r, some c⟩
  | _, _ => pure component.element

end ShaderLang.Build
