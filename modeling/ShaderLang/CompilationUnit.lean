/-
**Compilation units.**

A program that was read to its end: its nodes, names, structs and calls, what was reported, and the
chain of its declarations.

Main definitions:

* `ShaderLang.CompilationUnit` — what reading a program leaves;
* `ShaderLang.CompilationUnit.declarations` — the declarations of the program;
* `ShaderLang.CompilationUnit.describe`, `ShaderLang.CompilationUnit.outline` — the tree as indented
  lines, one for each node.
-/

import ShaderLang.Builder

set_option relaxedAutoImplicit false
set_option autoImplicit false

namespace ShaderLang

/-- What reading a program leaves. -/
structure CompilationUnit where
  arena : Arena
  names : Names
  structs : Structs
  calls : CallGraph
  diagnostics : Diagnostics
  /-- The last link of the chain of declarations; none for a program without any. -/
  root : Option NodeId

/-- Ends building; the node given is the chain of declarations. -/
def Builder.finish (b : Builder) (root : Option NodeId) : CompilationUnit :=
  { arena := b.arena
    names := b.names
    structs := b.structs
    calls := b.calls
    diagnostics := b.diagnostics
    root }

namespace CompilationUnit

/-- The declarations of the program in the order of the source text. -/
def declarations (u : CompilationUnit) : Except Fault (List NodeId) :=
  match u.root with
  | some root => u.arena.listItems root
  | none => .ok []

/-! ### The outline -/

/-- The text of a name. -/
def nameText (u : CompilationUnit) (id : NameId) : String := (u.names.text? id).getD "<invalid>"

/-- The text of a string literal. -/
def literalText (u : CompilationUnit) (id : Option StringId) : String :=
  (id.bind u.names.pool.get?).getD ""

/-- What is shown of a node behind its label, piece by piece. -/
def details (u : CompilationUnit) : Node → List String
  | .int value isUnsigned => [(IntegerLiteral.constant ⟨value, isUnsigned⟩).text]
  | .float value => [floatText value]
  | .bool value => [toString value]
  | .string id => [Text.quoted (u.literalText id)]
  | .name id => [u.nameText id]
  | .unary op _ => [op.symbol]
  | .binary op _ _ => [op.symbol]
  | .assign op _ _ => [op.symbol]
  | .cast type _ => [u.structs.typeText type]
  | .construct type _ => [u.structs.typeText type]
  | .intrinsicCall intrinsic _ => [intrinsic.name]
  | .field _ field => ["." ++ u.nameText field]
  | .declaration qualifiers type name _ _ _ =>
      (if qualifiers.isEmpty then [] else [qualifiers.text])
        ++ [u.structs.typeText type, u.nameText name]
  | .structDeclaration id name _ => [u.nameText name, "(" ++ toString id.toNat ++ ")"]
  | .structMember type _ => [u.structs.typeText type]
  | .structDeclarator name _ _ => [u.nameText name]
  | .parameter qualifiers type name _ _ =>
      (if qualifiers.isEmpty then [] else [qualifiers.text])
        ++ [u.structs.typeText type] ++ (name.map u.nameText).toList
  | .prototype result name _ _ => [u.structs.typeText result, u.nameText name]
  | .jump jump => [jump.keyword]
  | .semantic s => [s.text]
  | _ => []

/-- One line for a node. -/
def describe (u : CompilationUnit) (node : Node) : String :=
  " ".intercalate (node.label :: u.details node)

/-- Two spaces for each level. -/
def indentation (depth : Nat) : String := String.ofList (List.replicate (2 * depth) ' ')

/-- What stands below a node: the items of its sequence, or what it refers to. -/
def below (u : CompilationUnit) (id : NodeId) (node : Node) : Except Fault (List NodeId) :=
  match node.asLink with
  | some _ => u.arena.listItems id
  | none => .ok node.children

/-- The lines of a node and all below it, looking at most `fuel` nodes deep. -/
def outlineWithin (u : CompilationUnit) : Nat → Nat → NodeId → Except Fault (List String)
  | 0, _, _ => .error .endless
  | fuel + 1, depth, id => do
      let node ← u.arena.get id
      let inner ← u.below id node
      let lines ← inner.mapM (u.outlineWithin fuel (depth + 1))
      pure ((indentation depth ++ u.describe node) :: lines.flatten)

/-- The lines of the whole program. -/
def outlineLines (u : CompilationUnit) : Except Fault (List String) := do
  let roots ← u.declarations
  let lines ← roots.mapM (u.outlineWithin u.arena.walkLength 0)
  pure lines.flatten

/-- The whole program, each line with its end. -/
def outline (u : CompilationUnit) : Except Fault String := do
  let lines ← u.outlineLines
  pure (String.join (lines.map (· ++ "\n")))

end CompilationUnit

end ShaderLang
