/-
**The operations of the builder.**

Whoever builds a program asks the builder for one operation after the other: for nodes, for types, for
a struct to be opened, for a report.  Operations refer to nodes by number, and what they refer to need
not fit together: one node may stand in several others, and any node may stand where a list, a size or
a semantic belongs.

An operation that refers to nodes that are there never meets a fault.  It leaves all nodes as they
are and adds nodes on top that refer to older ones only; most operations add one node, a call of an
unknown intrinsic function adds two.

Main definitions:

* `ShaderLang.Operation`, `ShaderLang.Operation.arguments`, `ShaderLang.Operation.perform` — the
  operations, the nodes that they refer to, and what they do;
* `ShaderLang.Arena.Ordered`, `ShaderLang.Arena.Grown` — nodes that are numbered by their places and
  refer to older ones only, and such nodes with more on top;
* `ShaderLang.Build.Appends` — a step of building that meets no fault and only adds nodes on top.

Main results:

* `ShaderLang.Operation.appends_perform` — **every operation only adds nodes on top**.
-/

import ShaderLang.Builder.Declaration
import ShaderLang.Builder.Expression
import ShaderLang.Builder.Statement
import ShaderLang.Proofs.Arena.Extension
import ShaderLang.Proofs.Builder.Grafts

set_option relaxedAutoImplicit false
set_option autoImplicit false

namespace ShaderLang

/-! ### Operations -/

/-- What the builder can be asked for. -/
inductive Operation where
  | position (p : Position)
  | report (p : Problem)
  | diagnostics (change : Diagnostics → Diagnostics)
  | int (text : String)
  | float (text : String)
  | bool (value : Bool)
  | string (text : String)
  | name (text : String)
  | element (array index : NodeId)
  | step (placement : Placement) (direction : Direction) (operand : NodeId)
  | unary (op : UnaryOp) (operand : NodeId)
  | cast (type : DataType) (operand : NodeId)
  | binary (op : BinaryOp) (left right : NodeId)
  | ternary (condition yes no : NodeId)
  | assign (op : AssignOp) (target value : NodeId)
  | comma (left right : NodeId)
  | intrinsicCall (text : String) (arguments : Option NodeId)
  | call (callee : NodeId) (arguments : Option NodeId)
  | field (base : NodeId) (text : String)
  | construct (type : DataType) (arguments : Option NodeId)
  | link (kind : ListKind) (previous : Option NodeId) (item : NodeId)
  | namedType (text : String)
  | structType (text : String)
  | vectorType (component : DataType) (size : NodeId)
  | matrixType (component : DataType) (rows columns : NodeId)
  | qualifier (keyword : String)
  | semantic (text : String)
  | declaration (qualifiers : Qualifiers) (type : DataType) (text : String)
      (size tie initializer : Option NodeId)
  | declarationStatement (declarators : NodeId)
  | beginStruct (text : String)
  | structDeclarator (text : String) (size tie : Option NodeId)
  | structMember (type : DataType) (declarators : NodeId)
  | structDeclaration (id : UInt32) (members : Option NodeId)
  | parameter (qualifiers : Qualifiers) (type : DataType) (text : Option String)
      (size tie : Option NodeId)
  | prototype (result : DataType) (text : String) (parameters tie : Option NodeId)
  | definition (head body : NodeId)
  | endFunction
  | compound (statements : Option NodeId)
  | expression (value : Option NodeId)
  | conditional (condition yes : NodeId) (no : Option NodeId)
  | whileLoop (condition body : NodeId)
  | doLoop (body condition : NodeId)
  | forLoop (first condition next : Option NodeId) (body : NodeId)
  | jump (target : Jump)
  | result (value : Option NodeId)

/-- What the builder answers. -/
inductive Answer where
  | done
  | node (id : NodeId)
  | type (type : DataType)
  | struct (id : UInt32)
  | qualifiers (bits : Qualifiers)

/-- The node that is the answer, if it is one. -/
def Answer.node? : Answer → Option NodeId
  | node id => some id
  | _ => none

namespace Operation

/-- The nodes that an operation refers to. -/
def arguments : Operation → List NodeId
  | element array index => [array, index]
  | step _ _ operand => [operand]
  | unary _ operand => [operand]
  | cast _ operand => [operand]
  | binary _ left right => [left, right]
  | ternary condition yes no => [condition, yes, no]
  | assign _ target value => [target, value]
  | comma left right => [left, right]
  | intrinsicCall _ list => list.toList
  | call callee list => callee :: list.toList
  | field base _ => [base]
  | construct _ list => list.toList
  | link _ previous item => previous.toList ++ [item]
  | vectorType _ size => [size]
  | matrixType _ rows columns => [rows, columns]
  | declaration _ _ _ size tie initializer => size.toList ++ tie.toList ++ initializer.toList
  | declarationStatement declarators => [declarators]
  | structDeclarator _ size tie => size.toList ++ tie.toList
  | structMember _ declarators => [declarators]
  | structDeclaration _ members => members.toList
  | parameter _ _ _ size tie => size.toList ++ tie.toList
  | prototype _ _ parameters tie => parameters.toList ++ tie.toList
  | definition head body => [head, body]
  | compound statements => statements.toList
  | expression value => value.toList
  | conditional condition yes no => condition :: yes :: no.toList
  | whileLoop condition body => [condition, body]
  | doLoop body condition => [body, condition]
  | forLoop first condition next body =>
      first.toList ++ condition.toList ++ next.toList ++ [body]
  | result value => value.toList
  | _ => []

/-- What an operation does. -/
def perform : Operation → Build Answer
  | position p => do
      Build.setPosition p
      return .done
  | report p => do
      Build.report p
      return .done
  | diagnostics change => do
      modify fun b => { b with diagnostics := change b.diagnostics }
      return .done
  | int text => .node <$> Build.intLiteral text
  | float text => .node <$> Build.floatLiteral text
  | bool value => .node <$> Build.boolLiteral value
  | string text => .node <$> Build.stringLiteral text
  | name text => .node <$> Build.name text
  | element array index => .node <$> Build.element array index
  | step placement direction operand => .node <$> Build.step placement direction operand
  | unary op operand => .node <$> Build.unary op operand
  | cast type operand => .node <$> Build.cast type operand
  | binary op left right => .node <$> Build.binary op left right
  | ternary condition yes no => .node <$> Build.ternary condition yes no
  | assign op target value => .node <$> Build.assign op target value
  | comma left right => .node <$> Build.comma left right
  | intrinsicCall text list => .node <$> Build.intrinsicCall text list
  | call callee list => .node <$> Build.call callee list
  | field base text => .node <$> Build.field base text
  | construct type list => .node <$> Build.construct type list
  | link kind previous item => .node <$> Build.link kind previous item
  | namedType text => .type <$> Build.namedType text
  | structType text => .type <$> Build.structType text
  | vectorType component size => .type <$> Build.vectorType component size
  | matrixType component rows columns => .type <$> Build.matrixType component rows columns
  | qualifier keyword => pure (.qualifiers (Build.qualifier keyword))
  | semantic text => do
      match ← Build.semantic text with
      | some id => return .node id
      | none => return .done
  | declaration q type text size tie initializer =>
      .node <$> Build.declaration q type text size tie initializer
  | declarationStatement declarators => .node <$> Build.declarationStatement declarators
  | beginStruct text => .struct <$> Build.beginStruct text
  | structDeclarator text size tie => .node <$> Build.structDeclarator text size tie
  | structMember type declarators => .node <$> Build.structMember type declarators
  | structDeclaration id members => .node <$> Build.structDeclaration id members
  | parameter q type text size tie => .node <$> Build.parameter q type text size tie
  | prototype type text parameters tie => .node <$> Build.prototype type text parameters tie
  | definition head body => .node <$> Build.definition head body
  | endFunction => do
      Build.endFunction
      return .done
  | compound statements => .node <$> Build.compound statements
  | expression value => .node <$> Build.expression value
  | conditional condition yes no => .node <$> Build.conditional condition yes no
  | whileLoop condition body => .node <$> Build.whileLoop condition body
  | doLoop body condition => .node <$> Build.doLoop body condition
  | forLoop first condition next body => .node <$> Build.forLoop first condition next body
  | jump target => .node <$> Build.jump target
  | result value => .node <$> Build.result value

end Operation

/-! ### Nodes on top of others -/

namespace Arena

/-- Nodes are numbered by their places and refer to older ones only. -/
structure Ordered (a : Arena) : Prop where
  numbered : ∀ (i : Nat) (c : Cell), a.cells[i]? = some c → c.id = ⟨i⟩
  descending : a.Descending

/-- The second arena consists of the first one, unchanged, and of further nodes on top. -/
structure Grown (a a' : Arena) : Prop where
  cells : a.cells.toList <+: a'.cells.toList
  ordered : a'.Ordered

variable {a a' a'' : Arena}

theorem ordered_empty : Ordered empty where
  numbered := fun i c hc => by simp [empty] at hc
  descending := fun id n hn => by
    rw [node?_empty] at hn
    contradiction

/-- A cell keeps its place when nodes are added on top. -/
theorem cell_of_prefix (h : a.cells.toList <+: a'.cells.toList) {i : Nat} {c : Cell}
    (hc : a.cells[i]? = some c) : a'.cells[i]? = some c := by
  rw [← Array.getElem?_toList] at hc ⊢
  obtain ⟨more, hmore⟩ := h
  rw [← hmore, List.getElem?_append_left (List.getElem?_eq_some_iff.1 hc).1]
  exact hc

theorem extends_of_initial (h : a.cells.toList <+: a'.cells.toList) : a.Extends a' := by
  intro id n hn
  obtain ⟨c, hc, rfl⟩ := Option.map_eq_some_iff.1 hn
  exact Option.map_eq_some_iff.2 ⟨c, cell_of_prefix h hc, rfl⟩

namespace Grown

theorem refl (h : a.Ordered) : a.Grown a := ⟨List.prefix_rfl, h⟩

theorem trans (h : a.Grown a') (h' : a'.Grown a'') : a.Grown a'' :=
  ⟨h.cells.trans h'.cells, h'.ordered⟩

theorem size_le (h : a.Grown a') : a.size ≤ a'.size := (extends_of_initial h.cells).size_le

/-- A node on top of the others. -/
theorem add (h : a.Ordered) {n : Node} (hn : ∀ c ∈ n.children, c.index < a.size) (p : Position) :
    a.Grown (a.add n p) where
  cells := by
    rw [Arena.add, Array.toList_push]
    exact List.prefix_append _ _
  ordered :=
    { numbered := by
        intro i c hc
        rw [Arena.add, Array.getElem?_push] at hc
        split at hc
        · next hi =>
            obtain rfl := Option.some.inj hc
            rw [hi]
            rfl
        · exact h.numbered i c hc
      descending := by
        intro id m hm c hc
        rcases node?_add_eq_some hm with ⟨rfl, rfl⟩ | hm
        · exact hn c hc
        · exact h.descending id m hm c hc }

end Grown

end Arena

/-! ### Steps of building that only add nodes -/

namespace Build

open Arena

variable {α β : Type}

/-- The step of building meets no fault and only adds nodes on top; of its result something is known
in the arena that it leaves. -/
def Appends (known : α → Arena → Prop) (m : Build α) (b : Builder) : Prop :=
  ∃ x b', m b = .ok x b' ∧ b.arena.Grown b'.arena ∧ known x b'.arena

/-- The node is there. -/
def Present (id : NodeId) (a : Arena) : Prop := id.index < a.size

/-- The node that is the answer is there. -/
def Answered (answer : Answer) (a : Arena) : Prop := ∀ id, answer.node? = some id → Present id a

variable {b : Builder} {m : Build α} {known : α → Arena → Prop} {known' : β → Arena → Prop}

namespace Appends

theorem bind {f : α → Build β} (hm : m.Appends known b)
    (hf : ∀ x b', b.arena.Grown b'.arena → known x b'.arena → (f x).Appends known' b') :
    (m >>= f).Appends known' b := by
  obtain ⟨x, b', hx, hgrown, hknown⟩ := hm
  obtain ⟨y, b'', hy, hgrown', hknown'⟩ := hf x b' hgrown hknown
  exact ⟨y, b'', by rw [bind_apply, hx]; exact hy, hgrown.trans hgrown', hknown'⟩

theorem map {g : α → β} (hm : m.Appends known b) (hg : ∀ x a, known x a → known' (g x) a) :
    (g <$> m).Appends known' b := by
  rw [map_eq_pure_bind]
  exact hm.bind fun x b' hgrown hknown => ⟨g x, b', rfl, .refl hgrown.ordered, hg x _ hknown⟩

/-- A step with a node as its result, as an operation. -/
theorem node {m : Build NodeId} (hm : m.Appends Present b) :
    (Answer.node <$> m).Appends Answered b :=
  hm.map fun _ _ hid _ he => Option.some.inj he ▸ hid

/-- A step with a type as its result, as an operation. -/
theorem type {m : Build DataType} (hm : m.Appends (fun _ _ => True) b) :
    (Answer.type <$> m).Appends Answered b :=
  hm.map fun _ _ _ _ he => nomatch he

end Appends

variable (hb : b.arena.Ordered)

section

include hb

theorem appends_pure {x : α} (hx : known x b.arena) : (pure x : Build α).Appends known b :=
  ⟨x, b, rfl, .refl hb, hx⟩

/-- An answer that is no node. -/
theorem appends_answer {answer : Answer} (h : answer.node? = none) :
    (pure answer : Build Answer).Appends Answered b :=
  appends_pure hb fun id hid => absurd (h.symm.trans hid) (Option.some_ne_none id).symm

/-- A question that has an answer. -/
theorem appends_ask {question : Builder → Except Fault α} (h : Ends (question b)) :
    (ask question).Appends (fun _ _ => True) b := by
  obtain ⟨x, hx⟩ := h
  exact ⟨x, b, by simp only [ask, hx], .refl hb, trivial⟩

/-- A step that does not concern nodes. -/
theorem appends_quiet (h : ∃ x b', m b = .ok x b' ∧ b'.arena = b.arena) :
    m.Appends (fun _ _ => True) b := by
  obtain ⟨x, b', hx, harena⟩ := h
  exact ⟨x, b', hx, by rw [harena]; exact .refl hb, trivial⟩

theorem appends_apart (h : m.Apart) : m.Appends (fun _ _ => True) b := by
  obtain ⟨x, b', hx, harena, -⟩ := h b
  exact appends_quiet hb ⟨x, b', hx, harena⟩

/-- A change that does not concern nodes. -/
theorem appends_modify {f : Builder → Builder} (h : (f b).arena = b.arena) :
    (modify f : Build Unit).Appends (fun _ _ => True) b :=
  appends_quiet hb ⟨(), f b, rfl, h⟩

theorem appends_report (p : Problem) : (report p).Appends (fun _ _ => True) b :=
  appends_modify hb rfl

/-- A node on top of what it refers to. -/
theorem appends_add {n : Node} (hn : ∀ c ∈ n.children, Present c b.arena) :
    (add n).Appends Present b :=
  ⟨_, _, rfl, .add hb hn b.position, by simp [Present, nextId]⟩

/-- A node that refers to no others. -/
theorem appends_leaf {n : Node} (hn : n.children = []) : (add n).Appends Present b :=
  appends_add hb fun _ hc => absurd (hn ▸ hc) List.not_mem_nil

/-- A step that does not concern nodes, and then a node. -/
theorem appends_apart_add (h : m.Apart) {n : α → Node}
    (hn : ∀ x, ∀ c ∈ (n x).children, Present c b.arena) :
    (m >>= fun x => add (n x)).Appends Present b :=
  (appends_apart hb h).bind fun x _ hgrown _ => appends_add hgrown.ordered fun c hc =>
    Nat.lt_of_lt_of_le (hn x c hc) hgrown.size_le

/-- A step that does not concern nodes, and then a node that refers to no others. -/
theorem appends_apart_leaf (h : m.Apart) {n : α → Node} (hn : ∀ x, (n x).children = []) :
    (m >>= fun x => add (n x)).Appends Present b :=
  appends_apart_add hb h fun x _ hc => absurd (hn x ▸ hc) List.not_mem_nil

end

/-- A step without a result, as an operation. -/
theorem appends_done {m : Build Unit} (h : m.Appends (fun _ _ => True) b) :
    (m >>= fun _ => pure Answer.done).Appends Answered b :=
  h.bind fun _ _ hgrown _ => appends_answer hgrown.ordered rfl

/-! ### Literals, names and operators -/

section

include hb

theorem appends_intLiteral (text : String) : (intLiteral text).Appends Present b := by
  unfold intLiteral
  split
  · exact appends_leaf hb rfl
  · exact appends_apart_leaf hb (apart_report rfl) fun _ => rfl

theorem appends_floatLiteral (text : String) : (floatLiteral text).Appends Present b := by
  unfold floatLiteral
  split
  · exact appends_leaf hb rfl
  · exact appends_apart_leaf hb (apart_report rfl) fun _ => rfl

theorem appends_stringLiteral (text : String) : (stringLiteral text).Appends Present b :=
  appends_apart_leaf hb (m := modifyGet _) (fun _ => ⟨_, _, rfl, rfl, rfl⟩) fun _ => rfl

theorem appends_name (text : String) : (name text).Appends Present b :=
  appends_apart_leaf hb (apart_occur text) fun _ => rfl

theorem appends_field {base : NodeId} (h : Present base b.arena) (text : String) :
    (field base text).Appends Present b :=
  appends_apart_add hb (apart_occur text) fun _ _ hc => List.mem_singleton.1 hc ▸ h

theorem appends_element {array position : NodeId} (harray : Present array b.arena)
    (hposition : Present position b.arena) : (element array position).Appends Present b := by
  refine (appends_ask hb (isInteger_ends (hb.descending.grounded hposition))).bind
    fun isInt b' hgrown _ => ?_
  have hchildren : ∀ c ∈ (Node.index array position).children, Present c b'.arena := by
    intro c hc
    refine Nat.lt_of_lt_of_le ?_ hgrown.size_le
    rcases List.mem_cons.1 hc with rfl | hc
    · exact harray
    · exact List.mem_singleton.1 hc ▸ hposition
  split
  · exact appends_apart_add hgrown.ordered (apart_report rfl) fun _ => hchildren
  · exact appends_add hgrown.ordered hchildren

/-! ### Calls -/

theorem appends_call {callee : NodeId} {list : Option NodeId}
    (h : ∀ c ∈ (Node.call callee list).children, Present c b.arena) :
    (call callee list).Appends Present b := by
  have hcallee : b.arena.Grounded callee :=
    hb.descending.grounded (h callee (List.mem_cons_self ..))
  have hnote : (noteCall callee).Appends (fun _ _ => True) b := by
    refine (appends_ask hb hcallee.get_ends).bind fun node b' hgrown _ => ?_
    split
    · refine appends_modify hgrown.ordered ?_
      split <;> rfl
    · exact appends_pure hgrown.ordered trivial
  exact hnote.bind fun _ b' hgrown _ => appends_add hgrown.ordered fun c hc =>
    Nat.lt_of_lt_of_le (h c hc) hgrown.size_le

/-- An unknown intrinsic function gives two nodes: its name and the call. -/
theorem appends_intrinsicCall (text : String) {list : Option NodeId}
    (h : ∀ c ∈ list.toList, Present c b.arena) : (intrinsicCall text list).Appends Present b := by
  unfold intrinsicCall
  split
  · exact appends_add hb h
  · refine (appends_report hb _).bind fun _ b₁ h₁ _ => ?_
    refine (appends_name h₁.ordered text).bind fun callee b₂ h₂ hcallee => ?_
    refine appends_call h₂.ordered fun c hc => ?_
    rcases List.mem_cons.1 hc with rfl | hc
    · exact hcallee
    · exact Nat.lt_of_lt_of_le (h c hc) (h₁.trans h₂).size_le

/-! ### Types -/

theorem appends_dimension {id : NodeId} (h : Present id b.arena) :
    (dimension id).Appends (fun _ _ => True) b := by
  refine (appends_ask hb (fold_ends (hb.descending.grounded h))).bind fun value b' hgrown _ => ?_
  have hreport : ∀ p, (report p >>= fun _ => pure none : Build Extent).Appends (fun _ _ => True) b' :=
    fun p => (appends_report hgrown.ordered p).bind fun _ _ h' _ => appends_pure h'.ordered trivial
  split
  · exact hreport _
  · exact hreport _
  · split
    · exact appends_pure hgrown.ordered trivial
    · exact hreport _

theorem appends_vectorType (component : DataType) {size : NodeId} (h : Present size b.arena) :
    (vectorType component size).Appends (fun _ _ => True) b := by
  refine (appends_dimension hb h).bind fun n b' hgrown _ => ?_
  split <;> exact appends_pure hgrown.ordered trivial

theorem appends_matrixType (component : DataType) {rows columns : NodeId}
    (hrows : Present rows b.arena) (hcolumns : Present columns b.arena) :
    (matrixType component rows columns).Appends (fun _ _ => True) b := by
  refine (appends_dimension hb hrows).bind fun r b₁ h₁ _ => ?_
  refine (appends_dimension h₁.ordered (Nat.lt_of_lt_of_le hcolumns h₁.size_le)).bind
    fun c b₂ h₂ _ => ?_
  split <;> exact appends_pure h₂.ordered trivial

/-! ### Declarations -/

theorem appends_semantic (text : String) :
    (semantic text).Appends (fun id a => ∀ i, id = some i → Present i a) b := by
  unfold semantic
  split
  · refine (appends_leaf hb rfl).bind fun id b' hgrown hid => ?_
    exact appends_pure hgrown.ordered fun i hi => Option.some.inj hi ▸ hid
  · exact (appends_report hb _).bind fun _ _ hgrown _ =>
      appends_pure hgrown.ordered fun _ hi => absurd hi.symm (Option.some_ne_none _)

theorem appends_checkSize {size : Option NodeId} (h : ∀ c ∈ size.toList, Present c b.arena) :
    (checkSize size).Appends (fun _ _ => True) b := by
  cases size with
  | none => exact appends_pure hb trivial
  | some id =>
      have hid : Present id b.arena := h id (List.mem_singleton.2 rfl)
      refine (appends_ask hb (isInteger_ends (hb.descending.grounded hid))).bind
        fun isInt b₁ h₁ _ => ?_
      split
      · have hid' := Nat.lt_of_lt_of_le hid h₁.size_le
        refine (appends_ask h₁.ordered (fold_ends (h₁.ordered.descending.grounded hid'))).bind
          fun value b₂ h₂ _ => ?_
        split
        · split
          · exact appends_report h₂.ordered _
          · exact appends_pure h₂.ordered trivial
        · exact appends_pure h₂.ordered trivial
      · exact appends_report h₁.ordered _

/-- The check of a size, steps that do not concern nodes, and then a node. -/
theorem appends_sized {size : Option NodeId} {n : α → Node} (hm : m.Apart)
    (hsize : ∀ c ∈ size.toList, Present c b.arena)
    (hn : ∀ x, ∀ c ∈ (n x).children, Present c b.arena) :
    (checkSize size >>= fun _ => m >>= fun x => add (n x)).Appends Present b :=
  (appends_checkSize hb hsize).bind fun _ _ hgrown _ =>
    appends_apart_add hgrown.ordered hm fun x c hc =>
      Nat.lt_of_lt_of_le (hn x c hc) hgrown.size_le

theorem appends_structDeclaration (id : UInt32) {members : Option NodeId}
    (h : ∀ c ∈ members.toList, Present c b.arena) :
    (structDeclaration id members).Appends Present b := by
  refine (appends_apart hb apart_get).bind fun before b₁ h₁ _ => ?_
  have hmembers : Ends (b₁.collectMembers members) := by
    refine collectMembers_ends fun c hc => h₁.ordered.descending.grounded ?_
    exact Nat.lt_of_lt_of_le (h c (Option.mem_toList.2 hc)) h₁.size_le
  refine (appends_ask h₁.ordered hmembers).bind fun collected b₂ h₂ _ => ?_
  refine (appends_modify h₂.ordered rfl).bind fun _ b₃ h₃ _ => ?_
  refine appends_apart_add h₃.ordered (apart_occur _) fun _ c hc => ?_
  exact Nat.lt_of_lt_of_le (h c hc) ((h₁.trans h₂).trans h₃).size_le

end

/-- Declaring a variable and noting its name. -/
theorem apart_declare_occur (text : String) (type : DataType) (isArray : Bool) :
    (declare text type isArray >>= fun _ => occur text).Apart :=
  (apart_declare text type isArray).bind fun _ => apart_occur text

end Build

/-! ### Every operation -/

namespace Operation

open Build

/-- **Every operation only adds nodes on top**, as long as the nodes that it refers to are there. -/
theorem appends_perform (o : Operation) {b : Builder} (hb : b.arena.Ordered)
    (h : ∀ c ∈ o.arguments, Present c b.arena) : o.perform.Appends Answered b := by
  cases o with
  | position p => exact appends_done (appends_modify hb rfl)
  | report p => exact appends_done (appends_report hb p)
  | diagnostics change => exact appends_done (appends_modify hb rfl)
  | endFunction => exact appends_done (appends_modify hb rfl)
  | qualifier keyword => exact appends_answer hb rfl
  | int text => exact (appends_intLiteral hb text).node
  | float text => exact (appends_floatLiteral hb text).node
  | string text => exact (appends_stringLiteral hb text).node
  | name text => exact (appends_name hb text).node
  | field base text => exact (appends_field hb (h base (List.mem_singleton.2 rfl)) text).node
  | element array position =>
      exact (appends_element hb (h array (List.mem_cons_self ..))
        (h position (List.mem_cons_of_mem _ (List.mem_singleton.2 rfl)))).node
  | call callee list => exact (appends_call hb h).node
  | intrinsicCall text list => exact (appends_intrinsicCall hb text h).node
  | namedType text => exact (appends_apart hb (apart_namedType text)).type
  | structType text => exact (appends_apart hb (apart_structType text)).type
  | vectorType component size =>
      exact (appends_vectorType hb component (h size (List.mem_singleton.2 rfl))).type
  | matrixType component rows columns =>
      exact (appends_matrixType hb component (h rows (List.mem_cons_self ..))
        (h columns (List.mem_cons_of_mem _ (List.mem_singleton.2 rfl)))).type
  | semantic text =>
      refine (appends_semantic hb text).bind fun id b' h' hid => ?_
      split
      · next i => exact appends_pure h'.ordered fun j hj => Option.some.inj hj ▸ hid i rfl
      · exact appends_answer h'.ordered rfl
  | declaration q type text size tie initializer =>
      refine (appends_sized (n := fun id => .declaration q type id size tie initializer) hb
        (apart_declare_occur text type size.isSome) (fun c hc => h c ?_) fun _ => h).node
      exact List.mem_append_left _ (List.mem_append_left _ hc)
  | beginStruct text =>
      exact (appends_apart hb (apart_beginStruct text)).map fun _ _ _ _ he => nomatch he
  | structDeclarator text size tie =>
      refine (appends_sized (n := fun id => .structDeclarator id size tie) hb (apart_occur text)
        (fun c hc => h c ?_) fun _ => h).node
      exact List.mem_append_left _ hc
  | structDeclaration id members => exact (appends_structDeclaration hb id h).node
  | parameter q type text size tie =>
      have hsize : ∀ c ∈ size.toList, Present c b.arena := fun c hc =>
        h c (List.mem_append_left _ hc)
      cases text with
      | none =>
          exact (appends_sized (n := fun _ => .parameter q type none size tie) hb
            (apart_pure ()) hsize fun _ => h).node
      | some text =>
          exact (appends_sized (n := fun id => .parameter q type (some id) size tie) hb
            (apart_declare_occur text type size.isSome) hsize fun _ => h).node
  | prototype type text parameters tie =>
      exact (appends_apart_add (n := fun id => .prototype type id parameters tie) hb
        ((apart_setCurrent (some text)).bind fun _ => apart_occur text) fun _ => h).node
  | definition head body =>
      exact (appends_apart_add (n := fun _ => .definition head body) hb (apart_setCurrent none)
        fun _ => h).node
  | _ =>
      refine Appends.node (appends_add hb ?_)
      exact h

end Operation

end ShaderLang
