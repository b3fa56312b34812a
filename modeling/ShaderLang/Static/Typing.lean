/-
**Static types.**

The type of an expression follows from its operators, from the types of names and members as far as
those are known, and from nothing else.  What is known of names and members is a scope; without one
names have no type.

Whether an expression is an integer is a question of its own with its own rules: truth values count
as integers, calls do not.

Main definitions:

* `ShaderLang.Declared`, `ShaderLang.Scope` — what is known of names and members;
* `ShaderLang.Arena.typeNode`, `ShaderLang.Arena.typeOf` — the type of a node and of an expression;
* `ShaderLang.Arena.integerNode`, `ShaderLang.Arena.isInteger` — integer expressions.
-/

import ShaderLang.Static.Fold
import ShaderLang.Types.Pairing

set_option relaxedAutoImplicit false
set_option autoImplicit false

namespace ShaderLang

/-- A declared name or member: one value of a type, or an array of them. -/
structure Declared where
  type : DataType
  isArray : Bool
  deriving DecidableEq, Repr

/-- What is known of names and members. -/
structure Scope where
  name : NameId → Option Declared
  member : DataType → NameId → Option Declared
  text : NameId → Option String

namespace Scope

/-- Nothing is known. -/
def empty : Scope := ⟨fun _ => none, fun _ _ => none, fun _ => none⟩

end Scope

namespace Arena

/-! ### Types of expressions -/

/-- The declaration that a name or a selected member goes back to. -/
def declarationOf (a : Arena) (scope : Scope) (type : NodeId → Walk DataType) (id : NodeId) :
    Walk Declared := do
  match ← a.fetch id with
  | .name n => Walk.ofOption (scope.name n)
  | .field base field =>
      let t ← type base
      Walk.ofOption (scope.member t field)
  | _ => failure

/-- The type of a selected member or of selected components. -/
def typeField (scope : Scope) (base : DataType) (field : NameId) : Option DataType :=
  if base.isStruct then (scope.member base field).map Declared.type
  else (scope.text field).bind fun letters => base.swizzle letters.toList

/-- The type of an operator's result. -/
def typeBinary (op : BinaryOp) (left right : DataType) : Option DataType :=
  if op = .multiply then left.multiply right else left.componentwise right

/-- The type of a node, from the types of its operands. -/
def typeNode (a : Arena) (scope : Scope) (type : NodeId → Walk DataType) : Node → Walk DataType
  | .int _ isUnsigned => pure (.scalar (if isUnsigned then .uint else .int))
  | .float _ => pure (.scalar .float)
  | .bool _ => pure (.scalar .bool)
  | .string _ => pure (.scalar .string)
  | .name n => Walk.ofOption ((scope.name n).map Declared.type)
  | .index array _ => do
      match ← Walk.attempt (a.declarationOf scope type array) with
      | some ⟨elements, true⟩ => pure elements
      | _ =>
          let t ← type array
          pure t.indexed
  | .step _ _ operand => type operand
  | .unary .logicalNot operand => do
      let t ← Walk.attempt (type operand)
      pure ((t.getD (.scalar .bool)).withBase BaseType.bool.id)
  | .unary _ operand => type operand
  | .cast target _ => pure target
  | .construct target _ => pure target
  | .binary op left right => do
      if op.isBoolean then pure (.scalar .bool)
      else
        let l ← type left
        let r ← type right
        Walk.ofOption (typeBinary op l r)
  | .ternary _ yes no => do
      match ← Walk.attempt (type yes) with
      | some t => pure t
      | none => type no
  | .assign _ target _ => type target
  | .comma _ right => type right
  | .field base field => do
      let t ← type base
      Walk.ofOption (typeField scope t field)
  | _ => failure

/-- The type of an expression, looking at most `fuel` nodes deep. -/
def typeWithin (a : Arena) (scope : Scope) : Nat → NodeId → Walk DataType
  | 0, _ => Walk.fault .endless
  | fuel + 1, id => do
      let node ← a.fetch id
      a.typeNode scope (a.typeWithin scope fuel) node

/-- The type of an expression. -/
def typeOf (a : Arena) (scope : Scope) (id : NodeId) : Except Fault (Option DataType) :=
  (a.typeWithin scope a.walkLength id).run

/-! ### Integer expressions -/

/-- The second answer counts only when the first is yes, and is not asked for otherwise. -/
def bothHold (first : Except Fault Bool) (second : Unit → Except Fault Bool) :
    Except Fault Bool :=
  match first with
  | .ok true => second ()
  | .ok false => .ok false
  | .error f => .error f

/-- The node is an integer, from whether its operands are; `self` tells whether the node's own type
is an integer, and is asked only where that matters. -/
def integerNode (self : Unit → Except Fault Bool) (integer : NodeId → Except Fault Bool) :
    Node → Except Fault Bool
  | .int .. => .ok true
  | .bool _ => .ok true
  | .name _ => self ()
  | .index .. => self ()
  | .field .. => self ()
  | .step _ _ operand => integer operand
  | .unary .logicalNot _ => .ok true
  | .unary _ operand => integer operand
  | .cast type _ => .ok type.isInteger
  | .construct type _ => .ok type.isInteger
  | .binary op left right =>
      if op.isBoolean then .ok true
      else bothHold (integer left) fun _ => integer right
  | .ternary _ yes no => bothHold (integer yes) fun _ => integer no
  | .assign _ target _ => integer target
  | .comma _ right => integer right
  | _ => .ok false

/-- The expression is an integer, looking at most `fuel` nodes deep. -/
def integerWithin (a : Arena) (scope : Scope) : Nat → NodeId → Except Fault Bool
  | 0, _ => .error .endless
  | fuel + 1, id =>
      match a.get id with
      | .error f => .error f
      | .ok node =>
          integerNode (fun _ => (a.typeOf scope id).map fun t => t.any DataType.isInteger)
            (a.integerWithin scope fuel) node

/-- The expression is an integer. -/
def isInteger (a : Arena) (scope : Scope) (id : NodeId) : Except Fault Bool :=
  a.integerWithin scope a.walkLength id

end Arena

end ShaderLang
