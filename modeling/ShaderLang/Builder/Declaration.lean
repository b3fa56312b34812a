/-
**Building declarations.**

Main definitions:

* `ShaderLang.Build.semantic` — a semantic;
* `ShaderLang.Build.declaration`, `ShaderLang.Build.parameter`, `ShaderLang.Build.structDeclarator` —
  what declares one name;
* `ShaderLang.Build.beginStruct`, `ShaderLang.Build.structDeclaration` — a struct opens and closes;
* `ShaderLang.Build.prototype`, `ShaderLang.Build.definition` — functions.
-/

import ShaderLang.Builder

set_option relaxedAutoImplicit false
set_option autoImplicit false

namespace ShaderLang

namespace Builder

/-! ### The members of a struct -/

/-- The number of elements that a declarator's size gives. -/
def elementCount (b : Builder) (size : Option NodeId) : Except Fault (Option UInt32) :=
  match size with
  | none => .ok none
  | some id => (b.fold id).map fun value => value.bind Constant.count

/-- The member that a declarator declares; `none` for any other node. -/
def memberOf (b : Builder) (type : DataType) (id : NodeId) :
    Except Fault (Option StructMember) := do
  match ← b.arena.get id with
  | .structDeclarator name size _ =>
      let count ← b.elementCount size
      pure (some ⟨(b.names.text? name).getD "", type, count⟩)
  | _ => pure none

/-- The members that one line of a struct declares; none for any other node. -/
def membersOf (b : Builder) (id : NodeId) : Except Fault (List StructMember) := do
  match ← b.arena.get id with
  | .structMember type declarators =>
      let items ← b.arena.listItems declarators
      let members ← items.mapM (b.memberOf type)
      pure (members.filterMap fun m => m)
  | _ => pure []

/-- The members of a struct in the order of their declaration. -/
def collectMembers (b : Builder) (members : Option NodeId) : Except Fault (List StructMember) :=
  match members with
  | none => .ok []
  | some id => do
      let lines ← b.arena.listItems id
      let members ← lines.mapM b.membersOf
      pure members.flatten

end Builder

namespace Build

/-- The bits of a qualifier; any other word has none. -/
def qualifier (keyword : String) : Qualifiers := (Qualifiers.ofKeyword keyword).getD .none

/-- A semantic; a text that names none is reported and no node is built. -/
def semantic (text : String) : Build (Option NodeId) :=
  match Semantic.ofText text with
  | some s => do
      let id ← add (.semantic s)
      pure (some id)
  | none => do
      report (.unknownSemantic text)
      pure none

/-! ### Variables -/

/-- A variable. -/
def declaration (qualifiers : Qualifiers) (type : DataType) (text : String)
    (size tie initializer : Option NodeId) : Build NodeId := do
  checkSize size
  declare text type size.isSome
  let name ← occur text
  add (.declaration qualifiers type name size tie initializer)

/-- The variables of one declaration. -/
def declarationStatement (declarators : NodeId) : Build NodeId :=
  add (.declarationStatement declarators)

/-! ### Structs -/

/-- Opens a struct.  From here on its name stands for a type. -/
def beginStruct (name : String) : Build UInt32 :=
  modifyGet fun b =>
    let (id, structs) := b.structs.register name
    (id, { b with structs })

/-- The name of a member, with its size and semantic. -/
def structDeclarator (text : String) (size tie : Option NodeId) : Build NodeId := do
  checkSize size
  let name ← occur text
  add (.structDeclarator name size tie)

/-- The members of one type. -/
def structMember (type : DataType) (declarators : NodeId) : Build NodeId :=
  add (.structMember type declarators)

/-- Closes a struct: the newest struct of its name gets the members. -/
def structDeclaration (id : UInt32) (members : Option NodeId) : Build NodeId := do
  let text := ((← get).structs.nameOf id).getD ""
  let collected ← ask fun b => b.collectMembers members
  modify fun b => { b with structs := (b.structs.finalize text collected).2 }
  let name ← occur text
  add (.structDeclaration id name members)

/-! ### Functions -/

/-- A parameter, which may have no name. -/
def parameter (qualifiers : Qualifiers) (type : DataType) (text : Option String)
    (size tie : Option NodeId) : Build NodeId := do
  checkSize size
  match text with
  | none => add (.parameter qualifiers type none size tie)
  | some text => do
      declare text type size.isSome
      let name ← occur text
      add (.parameter qualifiers type (some name) size tie)

/-- The head of a function, whose body is built next. -/
def prototype (result : DataType) (text : String) (parameters tie : Option NodeId) :
    Build NodeId := do
  setCurrent (some text)
  let name ← occur text
  add (.prototype result name parameters tie)

/-- Leaves the function whose body was being built. -/
def endFunction : Build Unit := setCurrent none

/-- A function with its body. -/
def definition (head body : NodeId) : Build NodeId := do
  setCurrent none
  add (.definition head body)

end Build

end ShaderLang
