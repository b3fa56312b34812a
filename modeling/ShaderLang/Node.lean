/-
**Nodes.**

A node is one construct of the program: a literal, an operator with its operands, a declaration, a
statement.  It refers to other nodes and to names by their numbers.  Sequences of constructs are
chains of links: each link holds one item and refers to the link before it, the last link stands for
the whole sequence.

A number is the place of a node, a text or a name in its store, counted without a bound, and a store
always has room for one more.  Where numbers have thirty-two bits and the greatest of them stands for
no entry, they agree with these as long as every store has fewer than 2 ^ 32 entries: then no place has
that greatest number.  No number stands for a missing entry here; an entry that may be missing has an
optional number.

Main definitions:

* `ShaderLang.NodeId`, `ShaderLang.StringId`, `ShaderLang.NameId` — numbers of nodes, texts and
  names;
* `ShaderLang.Node` — the constructs;
* `ShaderLang.Node.children` — the nodes a node refers to, in the order of the source text;
* `ShaderLang.Node.asLink` — link and item of a chain.
-/

import ShaderLang.Intrinsic
import ShaderLang.Operator
import ShaderLang.Qualifiers
import ShaderLang.Semantic
import ShaderLang.Types.DataType

set_option relaxedAutoImplicit false
set_option autoImplicit false

namespace ShaderLang

/-- The number of a node: its place among all nodes. -/
structure NodeId where
  index : Nat
  deriving DecidableEq, Repr

/-- The number of a pooled text: its place in the pool. -/
structure StringId where
  index : Nat
  deriving DecidableEq, Repr

/-- The number of one occurrence of a name: its place in the table of names. -/
structure NameId where
  index : Nat
  deriving DecidableEq, Repr

/-- How a node's number is written. -/
def NodeId.text (id : NodeId) : String := "#" ++ toString id.index

/-- The kinds of sequences. -/
inductive ListKind where
  | arguments
  | initializers
  | declarators
  | structMembers
  | structDeclarators
  | parameters
  | statements
  | externals
  deriving DecidableEq, Repr

namespace ListKind

/-- The name of a link of the sequence. -/
def name : ListKind → String
  | arguments => "ArgumentList"
  | initializers => "InitializerList"
  | declarators => "DeclaratorList"
  | structMembers => "StructMemberList"
  | structDeclarators => "StructDeclaratorList"
  | parameters => "ParameterList"
  | statements => "StatementList"
  | externals => "ExternalDeclarationList"

end ListKind

/-- The constructs of the language. -/
inductive Node where
  | int (value : UInt64) (isUnsigned : Bool)
  | float (value : Float)
  | bool (value : Bool)
  | string (text : Option StringId)
  | name (name : NameId)
  | index (array position : NodeId)
  | step (placement : Placement) (direction : Direction) (operand : NodeId)
  | unary (op : UnaryOp) (operand : NodeId)
  | cast (type : DataType) (operand : NodeId)
  | binary (op : BinaryOp) (left right : NodeId)
  | ternary (condition yes no : NodeId)
  | assign (op : AssignOp) (target value : NodeId)
  | comma (left right : NodeId)
  | intrinsicCall (intrinsic : Intrinsic) (arguments : Option NodeId)
  | call (callee : NodeId) (arguments : Option NodeId)
  | field (base : NodeId) (field : NameId)
  | construct (type : DataType) (arguments : Option NodeId)
  | link (kind : ListKind) (previous : Option NodeId) (item : NodeId)
  | declaration (qualifiers : Qualifiers) (type : DataType) (name : NameId)
      (size semantic initializer : Option NodeId)
  | declarationStatement (declarators : NodeId)
  | structDeclaration (id : UInt32) (name : NameId) (members : Option NodeId)
  | structMember (type : DataType) (declarators : NodeId)
  | structDeclarator (name : NameId) (size semantic : Option NodeId)
  | parameter (qualifiers : Qualifiers) (type : DataType) (name : Option NameId)
      (size semantic : Option NodeId)
  | prototype (result : DataType) (name : NameId) (parameters semantic : Option NodeId)
  | definition (prototype body : NodeId)
  | compound (statements : Option NodeId)
  | expression (expression : Option NodeId)
  | conditional (condition yes : NodeId) (no : Option NodeId)
  | whileLoop (condition body : NodeId)
  | doLoop (body condition : NodeId)
  | forLoop (first condition next : Option NodeId) (body : NodeId)
  | jump (jump : Jump)
  | result (value : Option NodeId)
  | semantic (semantic : Semantic)

namespace Node

/-- The name of a construct. -/
def label : Node → String
  | int .. => "IntLiteral"
  | float .. => "FloatLiteral"
  | bool .. => "BoolLiteral"
  | string .. => "StringLiteral"
  | name .. => "Identifier"
  | index .. => "ArrayAccess"
  | step .after .up _ => "PostIncrement"
  | step .after .down _ => "PostDecrement"
  | step .before .up _ => "PreIncrement"
  | step .before .down _ => "PreDecrement"
  | unary .. => "Unary"
  | cast .. => "Cast"
  | binary .. => "Binary"
  | ternary .. => "Ternary"
  | assign .. => "Assignment"
  | comma .. => "Comma"
  | intrinsicCall .. => "IntrinsicCall"
  | call .. => "FunctionCall"
  | field .. => "FieldSelect"
  | construct .. => "Constructor"
  | link kind .. => kind.name
  | declaration .. => "SingleDeclaration"
  | declarationStatement .. => "DeclarationStatement"
  | structDeclaration .. => "StructDeclaration"
  | structMember .. => "StructMember"
  | structDeclarator .. => "StructDeclarator"
  | parameter .. => "Parameter"
  | prototype .. => "FunctionPrototype"
  | definition .. => "FunctionDefinition"
  | compound .. => "CompoundStatement"
  | expression .. => "ExpressionStatement"
  | conditional .. => "If"
  | whileLoop .. => "While"
  | doLoop .. => "DoWhile"
  | forLoop .. => "For"
  | jump .. => "Jump"
  | result .. => "Return"
  | semantic .. => "Semantic"

/-- The nodes that a node refers to, in the order of the source text. -/
def children : Node → List NodeId
  | int .. | float .. | bool .. | string .. | name .. | jump .. | semantic .. => []
  | index array position => [array, position]
  | step _ _ operand => [operand]
  | unary _ operand => [operand]
  | cast _ operand => [operand]
  | binary _ left right => [left, right]
  | ternary condition yes no => [condition, yes, no]
  | assign _ target value => [target, value]
  | comma left right => [left, right]
  | intrinsicCall _ arguments => arguments.toList
  | call callee arguments => callee :: arguments.toList
  | field base _ => [base]
  | construct _ arguments => arguments.toList
  | link _ previous item => previous.toList ++ [item]
  | declaration _ _ _ size tie initializer =>
      size.toList ++ tie.toList ++ initializer.toList
  | declarationStatement declarators => [declarators]
  | structDeclaration _ _ members => members.toList
  | structMember _ declarators => [declarators]
  | structDeclarator _ size tie => size.toList ++ tie.toList
  | parameter _ _ _ size tie => size.toList ++ tie.toList
  | prototype _ _ parameters tie => parameters.toList ++ tie.toList
  | definition head body => [head, body]
  | compound statements => statements.toList
  | expression value => value.toList
  | conditional condition yes no => condition :: yes :: no.toList
  | whileLoop condition body => [condition, body]
  | doLoop body condition => [body, condition]
  | forLoop first condition next body =>
      first.toList ++ condition.toList ++ next.toList ++ [body]
  | result value => value.toList

/-- The link before and the item of a link; `none` for every other node. -/
def asLink : Node → Option (Option NodeId × NodeId)
  | link _ previous item => some (previous, item)
  | _ => none

@[simp] theorem asLink_link (kind : ListKind) (previous : Option NodeId) (item : NodeId) :
    (link kind previous item).asLink = some (previous, item) := rfl

/-- Only links have a link before them. -/
theorem asLink_eq_some_iff {n : Node} {previous : Option NodeId} {item : NodeId} :
    n.asLink = some (previous, item) ↔ ∃ kind, n = link kind previous item := by
  cases n <;> simp [asLink]

theorem children_of_asLink {n : Node} {previous : Option NodeId} {item : NodeId}
    (h : n.asLink = some (previous, item)) : n.children = previous.toList ++ [item] := by
  obtain ⟨kind, rfl⟩ := asLink_eq_some_iff.1 h
  rfl

/-- The semantic attached to a declaration; the outer `none` for a node that can carry none. -/
def attached : Node → Option (Option NodeId)
  | declaration _ _ _ _ tie _ => some tie
  | structDeclarator _ _ tie => some tie
  | parameter _ _ _ _ tie => some tie
  | prototype _ _ _ tie => some tie
  | _ => none

end Node

end ShaderLang
