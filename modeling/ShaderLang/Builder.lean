/-
**The builder.**

A program is built up node by node.  The builder holds the nodes, names, structs and calls built so
far, what was reported, the position that new nodes get, the function whose body is being built, and
the variables declared so far, in one scope for the whole program.

Main definitions:

* `ShaderLang.Builder` — everything built so far;
* `ShaderLang.Build` — one step of building: it changes the builder and gives a result, or meets a
  fault;
* `ShaderLang.Build.add`, `ShaderLang.Build.occur`, `ShaderLang.Build.report`, … — the steps that all
  others consist of;
* `ShaderLang.Builder.fold`, `ShaderLang.Builder.typeOf`, `ShaderLang.Builder.isInteger`, … —
  questions about expressions;
* `ShaderLang.Build.checkSize` — the check of an array's size.
-/

import ShaderLang.CallGraph
import ShaderLang.Diagnostic
import ShaderLang.Names
import ShaderLang.Static.Typing
import ShaderLang.Structs.Layout

set_option relaxedAutoImplicit false
set_option autoImplicit false

namespace ShaderLang

/-- Everything built so far. -/
structure Builder where
  arena : Arena
  names : Names
  structs : Structs
  calls : CallGraph
  diagnostics : Diagnostics
  /-- The position that new nodes and reports get. -/
  position : Position
  /-- The function whose body is being built. -/
  current : Option String
  /-- Variables and parameters, the newest first. -/
  declared : List (String × Declared)

namespace Builder

/-- Nothing is built yet. -/
def start (diagnostics : Diagnostics) : Builder :=
  { arena := .empty
    names := .empty
    structs := .empty
    calls := .empty
    diagnostics
    position := .start
    current := none
    declared := [] }

/-! ### Questions -/

/-- The declaration of a name. -/
def nameDeclared (b : Builder) (id : NameId) : Option Declared :=
  (b.names.text? id).bind fun name => b.declared.lookup name

/-- The declaration of a member of a struct. -/
def memberDeclared (b : Builder) (type : DataType) (field : NameId) : Option Declared :=
  (b.names.text? field).bind fun name =>
    (b.structs.member? type.base name).map fun m => ⟨m.type, m.count.isSome⟩

/-- What is known of names and members. -/
def scope (b : Builder) : Scope := ⟨b.nameDeclared, b.memberDeclared, b.names.text?⟩

/-- The value of an expression. -/
def fold (b : Builder) (id : NodeId) : Except Fault (Option Constant) := b.arena.fold id

/-- The type of an expression. -/
def typeOf (b : Builder) (id : NodeId) : Except Fault (Option DataType) :=
  b.arena.typeOf b.scope id

/-- The expression is an integer. -/
def isInteger (b : Builder) (id : NodeId) : Except Fault Bool := b.arena.isInteger b.scope id

end Builder

/-- One step of building. -/
abbrev Build (α : Type) : Type := EStateM Fault Builder α

namespace Build

/-- A question about what is built so far. -/
def ask {α : Type} (question : Builder → Except Fault α) : Build α := fun b =>
  match question b with
  | .ok a => .ok a b
  | .error f => .error f b

/-- Reports a problem at the present position. -/
def report (p : Problem) : Build Unit :=
  modify fun b => { b with diagnostics := b.diagnostics.report p b.position }

/-- A new node at the present position. -/
def add (node : Node) : Build NodeId :=
  modifyGet fun b => (b.arena.nextId, { b with arena := b.arena.add node b.position })

/-- A new occurrence of a name. -/
def occur (name : String) : Build NameId :=
  modifyGet fun b =>
    let (id, names) := b.names.occur name
    (id, { b with names })

/-- Sets the position of what is built next. -/
def setPosition (p : Position) : Build Unit := modify fun b => { b with position := p }

/-- Declares a variable; an older one of the same name is hidden. -/
def declare (name : String) (type : DataType) (isArray : Bool) : Build Unit :=
  modify fun b => { b with declared := (name, ⟨type, isArray⟩) :: b.declared }

/-- Sets the function whose body is being built. -/
def setCurrent (name : Option String) : Build Unit := modify fun b => { b with current := name }

/-! ### The steps, applied to a builder -/

@[simp] theorem pure_apply {α : Type} (a : α) (b : Builder) : (pure a : Build α) b = .ok a b := rfl

@[simp] theorem bind_apply {α β : Type} (m : Build α) (f : α → Build β) (b : Builder) :
    (m >>= f) b =
      match m b with
      | .ok a b' => f a b'
      | .error e b' => .error e b' := by
  show EStateM.bind m f b = _
  unfold EStateM.bind
  cases m b <;> rfl

@[simp] theorem add_apply (node : Node) (b : Builder) :
    add node b = .ok b.arena.nextId { b with arena := b.arena.add node b.position } := rfl

@[simp] theorem report_apply (p : Problem) (b : Builder) :
    report p b = .ok () { b with diagnostics := b.diagnostics.report p b.position } := rfl

@[simp] theorem occur_apply (name : String) (b : Builder) :
    occur name b = .ok (b.names.occur name).1 { b with names := (b.names.occur name).2 } := rfl

@[simp] theorem setPosition_apply (p : Position) (b : Builder) :
    setPosition p b = .ok () { b with position := p } := rfl

@[simp] theorem setCurrent_apply (name : Option String) (b : Builder) :
    setCurrent name b = .ok () { b with current := name } := rfl

/-! ### The size of an array -/

/-- The check of an array's size: it must be an integer, and if its value is known, one that can
count elements. -/
def checkSize (size : Option NodeId) : Build Unit :=
  match size with
  | none => pure ()
  | some id => do
      if ← ask (·.isInteger id) then
        match ← ask (·.fold id) with
        | some value =>
            if value.count.isNone then report (.sizeOutOfRange value.text)
        | none => pure ()
      else report .nonIntegerSize

/-- One more item of a sequence. -/
def link (kind : ListKind) (previous : Option NodeId) (item : NodeId) : Build NodeId :=
  add (.link kind previous item)

end Build

end ShaderLang
