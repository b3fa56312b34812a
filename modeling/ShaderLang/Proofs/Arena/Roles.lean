/-
**The part that a node plays in another.**

A node refers to other nodes by number only, and any number can stand anywhere.  What may stand
where is a matter of roles: a condition is an expression, the link before a link is a link of the
same kind, a function with a body refers to a head and to a block.

Main definitions:

* `ShaderLang.Role`, `ShaderLang.ListKind.itemRole` — the roles, and the role of the items of a
  sequence;
* `ShaderLang.Node.plays` — the roles that a node can play;
* `ShaderLang.Node.fields` — the nodes that a node refers to, each with the role it must play.

Main results:

* `ShaderLang.Node.children_eq_fields` — the fields are the children, in the same order.
-/

import ShaderLang.Node

set_option relaxedAutoImplicit false
set_option autoImplicit false

namespace ShaderLang

/-- The part that a node plays in the node that refers to it. -/
inductive Role where
  | expression
  | initializer
  | semantic
  | statement
  | compound
  | prototype
  | declaration
  | structMember
  | structDeclarator
  | parameter
  | external
  | list (kind : ListKind)
  deriving DecidableEq, Repr

/-- The role of the items of a sequence. -/
def ListKind.itemRole : ListKind → Role
  | arguments => .expression
  | initializers => .initializer
  | declarators => .declaration
  | structMembers => .structMember
  | structDeclarators => .structDeclarator
  | parameters => .parameter
  | statements => .statement
  | externals => .external

namespace Node

/-- The node is an expression. -/
def isExpression : Node → Bool
  | int .. | float .. | bool .. | string .. | name .. | index .. | step .. | unary .. | cast ..
  | binary .. | ternary .. | assign .. | comma .. | intrinsicCall .. | call .. | field ..
  | construct .. => true
  | _ => false

/-- The node is a statement. -/
def isStatement : Node → Bool
  | declarationStatement .. | compound .. | expression .. | conditional .. | whileLoop ..
  | doLoop .. | forLoop .. | jump .. | result .. => true
  | _ => false

/-- The node is a part of a program. -/
def isExternal : Node → Bool
  | structDeclaration .. | prototype .. | definition .. | declarationStatement .. => true
  | _ => false

/-- The node is a link of a sequence. -/
def isLinkOf (kind : ListKind) : Node → Bool
  | link k _ _ => k = kind
  | _ => false

/-- The node can play the role. -/
def plays : Role → Node → Bool
  | .expression, n => n.isExpression
  | .initializer, n => n.isExpression || n.isLinkOf .initializers
  | .semantic, semantic .. => true
  | .statement, n => n.isStatement
  | .compound, compound .. => true
  | .prototype, prototype .. => true
  | .declaration, declaration .. => true
  | .structMember, structMember .. => true
  | .structDeclarator, structDeclarator .. => true
  | .parameter, parameter .. => true
  | .external, n => n.isExternal
  | .list kind, n => n.isLinkOf kind
  | _, _ => false

end Node

/-- A node and the role that it plays. -/
abbrev Part : Type := NodeId × Role

/-- The part that a node plays, if there is a node. -/
def optional (id : Option NodeId) (r : Role) : List Part := (id.map fun i => (i, r)).toList

@[simp] theorem optional_none (r : Role) : optional none r = [] := rfl

@[simp] theorem optional_some (id : NodeId) (r : Role) : optional (some id) r = [(id, r)] := rfl

theorem mem_optional_iff {id : Option NodeId} {r r' : Role} {c : NodeId} :
    (c, r) ∈ optional id r' ↔ id = some c ∧ r = r' := by
  cases id <;> simp [eq_comm]

@[simp] theorem map_fst_optional (id : Option NodeId) (r : Role) :
    (optional id r).map Prod.fst = id.toList := by
  cases id <;> rfl

namespace Node

/-- The nodes that a node refers to, each with the role that it must play. -/
def fields : Node → List Part
  | int .. | float .. | bool .. | string .. | name .. | jump .. | semantic .. => []
  | index array position => [(array, .expression), (position, .expression)]
  | step _ _ operand => [(operand, .expression)]
  | unary _ operand => [(operand, .expression)]
  | cast _ operand => [(operand, .expression)]
  | binary _ left right => [(left, .expression), (right, .expression)]
  | ternary condition yes no =>
      [(condition, .expression), (yes, .expression), (no, .expression)]
  | assign _ target value => [(target, .expression), (value, .expression)]
  | comma left right => [(left, .expression), (right, .expression)]
  | intrinsicCall _ arguments => optional arguments (.list .arguments)
  | call callee arguments => (callee, .expression) :: optional arguments (.list .arguments)
  | field base _ => [(base, .expression)]
  | construct _ arguments => optional arguments (.list .arguments)
  | link kind previous item => optional previous (.list kind) ++ [(item, kind.itemRole)]
  | declaration _ _ _ size tie initializer =>
      optional size .expression ++ optional tie .semantic ++ optional initializer .initializer
  | declarationStatement declarators => [(declarators, .list .declarators)]
  | structDeclaration _ _ members => optional members (.list .structMembers)
  | structMember _ declarators => [(declarators, .list .structDeclarators)]
  | structDeclarator _ size tie => optional size .expression ++ optional tie .semantic
  | parameter _ _ _ size tie => optional size .expression ++ optional tie .semantic
  | prototype _ _ parameters tie =>
      optional parameters (.list .parameters) ++ optional tie .semantic
  | definition head body => [(head, .prototype), (body, .compound)]
  | compound statements => optional statements (.list .statements)
  | expression value => optional value .expression
  | conditional condition yes no =>
      (condition, .expression) :: (yes, .statement) :: optional no .statement
  | whileLoop condition body => [(condition, .expression), (body, .statement)]
  | doLoop body condition => [(body, .statement), (condition, .expression)]
  | forLoop first condition next body =>
      optional first .statement ++ optional condition .expression ++ optional next .expression
        ++ [(body, .statement)]
  | result value => optional value .expression

/-- The fields are the children, in the same order. -/
theorem children_eq_fields (n : Node) : n.children = n.fields.map Prod.fst := by
  cases n <;> simp [children, fields]

theorem mem_children_iff {n : Node} {c : NodeId} : c ∈ n.children ↔ ∃ r, (c, r) ∈ n.fields := by
  simp [children_eq_fields]

/-- An expression is an initial value. -/
theorem plays_initializer {n : Node} (h : n.plays .expression) : n.plays .initializer := by
  simp only [plays] at h ⊢
  rw [h, Bool.true_or]

end Node

end ShaderLang
