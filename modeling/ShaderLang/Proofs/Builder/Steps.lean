/-
**Small steps of building.**

Inside a part of a program the builder goes on in small steps: the position moves, a report or a name
or a node is added.  None of them touches the structs or the function being built, and a call is the
only node that leaves a trace outside the arena.  What every small step keeps is kept by whatever
consists of such steps, at whatever token it ends.

Main definitions:

* `ShaderLang.Node.names`, `ShaderLang.Node.size?`, `ShaderLang.Node.isBoundary` — the names in a
  node, the size that it declares, and the nodes that bound the parts of a program;
* `ShaderLang.Builder.Checked` — a size can count elements, as far as its value is known, or something
  was reported;
* `ShaderLang.Builder.Step`, `ShaderLang.Builder.Steps` — the small steps;
* `ShaderLang.Build.Inner` — a step of building that consists of small steps.

Main results:

* `ShaderLang.Builder.Steps.extends`, `ShaderLang.Builder.Steps.current_eq`,
  `ShaderLang.Builder.Steps.node?_eq_some` — what small steps keep;
* `ShaderLang.Build.inner_call`, `ShaderLang.Build.inner_declaration`, … — **all that is built inside
  a part of a program is built in small steps**.
-/

import Mathlib.Logic.Relation
import ShaderLang.Proofs.Builder.Growth

set_option relaxedAutoImplicit false
set_option autoImplicit false

namespace ShaderLang

namespace Node

/-- The occurrences of names that a node refers to. -/
def names : Node → List NameId
  | name n => [n]
  | field _ n => [n]
  | declaration _ _ n _ _ _ => [n]
  | structDeclaration _ n _ => [n]
  | structDeclarator n _ _ => [n]
  | parameter _ _ n _ _ => n.toList
  | prototype _ n _ _ => [n]
  | _ => []

/-- The node begins or ends a function, or it ends a struct, or it links the parts of a program. -/
def isBoundary : Node → Bool
  | prototype .. | definition .. | structDeclaration .. | link .externals .. => true
  | _ => false

/-- The node is no call and no boundary. -/
def isPlain : Node → Bool
  | call .. => false
  | n => !n.isBoundary

theorem isBoundary_of_isPlain {n : Node} (h : n.isPlain = true) : n.isBoundary = false := by
  unfold isPlain at h
  split at h
  · contradiction
  · simpa using h

/-- The size of the array that a node declares, if it declares one. -/
def size? : Node → Option NodeId
  | declaration _ _ _ size _ _ => size
  | structDeclarator _ size _ => size
  | parameter _ _ _ size _ => size
  | _ => none

/-- The name that a node is, if it is one. -/
def spelled (names : Names) : Node → Option String
  | name n => names.text? n
  | _ => none

end Node

namespace Builder

/-! ### What is built -/

/-- The builder with one more node. -/
def push (b : Builder) (n : Node) : Builder := { b with arena := b.arena.add n b.position }

/-- The builder that has noted a call of what a node names. -/
def noted (b : Builder) (callee : Node) : Builder :=
  match b.current, callee.spelled b.names with
  | some caller, some text => { b with calls := b.calls.record caller text }
  | _, _ => b

/-- Every name in the node has a text. -/
def Knows (b : Builder) (n : Node) : Prop := ∀ x ∈ n.names, (b.names.text? x).isSome

/-- The expression has no value, or one that can count the elements of an array. -/
def Countable (b : Builder) (id : NodeId) : Prop :=
  ∃ value, b.fold id = .ok value ∧ ∀ c, value = some c → c.count.isSome

/-- The size, if there is one, is countable, or something was reported. -/
def Checked (b : Builder) (size : Option NodeId) : Prop :=
  b.diagnostics.hasReports = true ∨ ∀ id, size = some id → b.Countable id

variable {b b' b'' : Builder}

@[simp] theorem arena_noted (b : Builder) (callee : Node) : (b.noted callee).arena = b.arena := by
  unfold noted
  split <;> rfl

@[simp] theorem names_noted (b : Builder) (callee : Node) : (b.noted callee).names = b.names := by
  unfold noted
  split <;> rfl

@[simp] theorem structs_noted (b : Builder) (callee : Node) :
    (b.noted callee).structs = b.structs := by
  unfold noted
  split <;> rfl

@[simp] theorem current_noted (b : Builder) (callee : Node) :
    (b.noted callee).current = b.current := by
  unfold noted
  split <;> rfl

@[simp] theorem diagnostics_noted (b : Builder) (callee : Node) :
    (b.noted callee).diagnostics = b.diagnostics := by
  unfold noted
  split <;> rfl

/-! ### Small steps -/

/-- One small step inside a part of a program. -/
inductive Step (b : Builder) : Builder → Prop where
  | position (p : Position) : Step b { b with position := p }
  | report (p : Problem) (place : Position) :
      Step b { b with diagnostics := b.diagnostics.report p place }
  | occur (name : String) : Step b { b with names := (b.names.occur name).2 }
  | literal (text : String) : Step b { b with names := (b.names.addLiteral text true).2 }
  | declare (name : String) (type : DataType) (isArray : Bool) :
      Step b { b with declared := (name, ⟨type, isArray⟩) :: b.declared }
  | node {n : Node} (plain : n.isPlain = true) (known : b.Knows n) (checked : b.Checked n.size?) :
      Step b (b.push n)
  | call {callee : NodeId} {n : Node} (arguments : Option NodeId)
      (here : b.arena.node? callee = some n) : Step b ((b.noted n).push (.call callee arguments))

/-- Small steps in a row. -/
def Steps : Builder → Builder → Prop := Relation.ReflTransGen Step

namespace Steps

theorem refl (b : Builder) : Steps b b := Relation.ReflTransGen.refl

theorem trans (h : Steps b b') (h' : Steps b' b'') : Steps b b'' := Relation.ReflTransGen.trans h h'

end Steps

theorem Step.steps (h : Step b b') : Steps b b' := Relation.ReflTransGen.single h

theorem extends_push (b : Builder) (n : Node) {allowed : Problem → Prop} :
    b.Extends allowed (b.push n) :=
  Build.extends_add n

theorem extends_noted (b : Builder) (callee : Node) {allowed : Problem → Prop} :
    b.Extends allowed (b.noted callee) :=
  .of_quiet (fun _ _ h => by rwa [arena_noted]) (fun _ _ h => by rwa [names_noted])
    (fun _ _ h => by rwa [names_noted]) (structs_noted b callee) (diagnostics_noted b callee)

/-- Everything built before a small step is still there, and the structs are the same. -/
theorem Step.extends (h : Step b b') : b.Extends (fun _ => True) b' := by
  cases h with
  | position p => exact .position b p
  | report p place =>
      exact ⟨fun _ _ h => h, fun _ _ h => h, fun _ _ h => h, rfl, #[⟨p, place⟩],
        Array.push_eq_append, fun _ _ => trivial⟩
  | occur name => exact Build.extends_occur name
  | literal text => exact Build.extends_literal text
  | declare => exact .of_quiet (fun _ _ h => h) (fun _ _ h => h) (fun _ _ h => h) rfl rfl
  | node => exact extends_push b _
  | call => exact (extends_noted b _).trans (extends_push _ _)

theorem Steps.extends (h : Steps b b') : b.Extends (fun _ => True) b' := by
  induction h with
  | refl => exact .refl b
  | tail _ hstep ih => exact ih.trans hstep.extends

theorem Steps.structs_eq (h : Steps b b') : b'.structs = b.structs := h.extends.structs

/-- No small step enters or leaves a function. -/
theorem Step.current_eq (h : Step b b') : b'.current = b.current := by
  cases h with
  | call => exact current_noted b _
  | _ => rfl

theorem Steps.current_eq (h : Steps b b') : b'.current = b.current := by
  induction h with
  | refl => rfl
  | tail _ hstep ih => exact hstep.current_eq.trans ih

/-- A new node is the one that was added, or an old one. -/
theorem node?_push_eq_some {new n : Node} {id : NodeId}
    (h : (b.push new).arena.node? id = some n) :
    id = b.arena.nextId ∧ n = new ∨ b.arena.node? id = some n :=
  Arena.node?_add_eq_some h

/-- No small step adds a boundary. -/
theorem Step.node?_eq_some (h : Step b b') {id : NodeId} {n : Node}
    (hn : b'.arena.node? id = some n) : b.arena.node? id = some n ∨ n.isBoundary = false := by
  cases h with
  | node plain =>
      rcases node?_push_eq_some hn with ⟨-, rfl⟩ | hold
      · exact .inr (Node.isBoundary_of_isPlain plain)
      · exact .inl hold
  | call =>
      rcases node?_push_eq_some hn with ⟨-, rfl⟩ | hold
      · exact .inr rfl
      · exact .inl (by rwa [arena_noted] at hold)
  | _ => exact .inl hn

theorem Steps.node?_eq_some (h : Steps b b') {id : NodeId} {n : Node}
    (hn : b'.arena.node? id = some n) : b.arena.node? id = some n ∨ n.isBoundary = false := by
  induction h with
  | refl => exact .inl hn
  | tail _ hstep ih =>
      rcases hstep.node?_eq_some hn with hn | hn
      · exact ih hn
      · exact .inr hn

end Builder

/-! ### Steps of building that consist of small steps -/

namespace Build

open Builder

variable {α β : Type}

/-- The builder that a step of building leaves, also where it meets a fault. -/
def after (m : Build α) (b : Builder) : Builder :=
  match m b with
  | .ok _ b' => b'
  | .error _ b' => b'

/-- The step of building consists of small steps. -/
def Inner (m : Build α) : Prop := ∀ b, Steps b (m.after b)

theorem inner_pure (x : α) : (pure x : Build α).Inner := fun b => .refl b

theorem Inner.bind {m : Build α} {f : α → Build β} (hm : m.Inner) (hf : ∀ x, (f x).Inner) :
    (m >>= f).Inner := by
  intro b
  have hfirst := hm b
  unfold after at hfirst ⊢
  rw [bind_apply]
  rcases hmb : m b with ⟨x, b'⟩ | ⟨e, b'⟩
  · rw [hmb] at hfirst
    exact hfirst.trans (hf x b')
  · rw [hmb] at hfirst
    exact hfirst

theorem inner_get : (get : Build Builder).Inner := fun b => .refl b

theorem inner_ask (question : Builder → Except Fault α) : (ask question).Inner := by
  intro b
  unfold after ask
  rcases question b with e | x
  · exact .refl b
  · exact .refl b

theorem inner_report (p : Problem) : (report p).Inner := fun b => (Step.report p b.position).steps

theorem checked_none (b : Builder) : b.Checked none := .inr nofun

/-- A plain node without names or a size. -/
theorem inner_add {n : Node} (hplain : n.isPlain = true) (hnames : n.names = [])
    (hsize : n.size? = none) : (add n).Inner := by
  refine fun b => (Step.node hplain (fun x hx => ?_) (hsize ▸ checked_none b)).steps
  rw [hnames] at hx
  exact absurd hx List.not_mem_nil

/-- A plain node with a name that occurs for it, and a size that was checked. -/
theorem steps_occur_add {b : Builder} (text : String) {n : NameId → Node} {size : Option NodeId}
    (hplain : ∀ id, (n id).isPlain = true) (hnames : ∀ id, (n id).names = [id])
    (hsize : ∀ id, (n id).size? = size) (hchecked : b.Checked size) :
    Steps b ((occur text >>= fun id => add (n id)).after b) := by
  refine (Step.occur text).steps.trans
    (Step.node (hplain _) (fun x hx => ?_) (hsize _ ▸ hchecked)).steps
  rw [hnames] at hx
  obtain rfl := List.mem_singleton.1 hx
  show ((b.names.occur text).2.text? (b.names.occur text).1).isSome
  rw [b.names.text?_occur text]
  rfl

/-- A plain node with a name that occurs for it, and no size. -/
theorem inner_occur_add (text : String) {n : NameId → Node} (hplain : ∀ id, (n id).isPlain = true)
    (hnames : ∀ id, (n id).names = [id]) (hsize : ∀ id, (n id).size? = none) :
    (occur text >>= fun id => add (n id)).Inner :=
  fun b => steps_occur_add text hplain hnames hsize (checked_none b)

/-! ### Expressions -/

theorem inner_intLiteral (text : String) : (intLiteral text).Inner := by
  unfold intLiteral
  split
  · exact inner_add rfl rfl rfl
  · exact (inner_report _).bind fun _ => inner_add rfl rfl rfl

theorem inner_floatLiteral (text : String) : (floatLiteral text).Inner := by
  unfold floatLiteral
  split
  · exact inner_add rfl rfl rfl
  · exact (inner_report _).bind fun _ => inner_add rfl rfl rfl

theorem inner_stringLiteral (text : String) : (stringLiteral text).Inner :=
  Inner.bind (fun _ => (Step.literal text).steps) fun _ => inner_add rfl rfl rfl

theorem inner_name (text : String) : (name text).Inner :=
  inner_occur_add text (fun _ => rfl) (fun _ => rfl) fun _ => rfl

theorem inner_field (base : NodeId) (text : String) : (field base text).Inner :=
  inner_occur_add text (fun _ => rfl) (fun _ => rfl) fun _ => rfl

theorem inner_element (array position : NodeId) : (element array position).Inner := by
  refine (inner_ask _).bind fun isInt => ?_
  split
  · exact (inner_report _).bind fun _ => inner_add rfl rfl rfl
  · exact inner_add rfl rfl rfl

/-- A call is noted and then built. -/
theorem call_apply {b : Builder} {callee : NodeId} {n : Node} (arguments : Option NodeId)
    (hn : b.arena.node? callee = some n) :
    call callee arguments b
      = .ok b.arena.nextId ((b.noted n).push (.call callee arguments)) := by
  have hask : ask (fun b => b.arena.get callee) b = .ok n b := by
    simp only [ask, Arena.get_of_node? hn]
  have hnote : noteCall callee b = .ok () (b.noted n) := by
    unfold noteCall
    rw [bind_apply, hask]
    unfold noted Node.spelled
    cases n with
    | name x => rfl
    | _ => cases b.current <;> rfl
  rw [call, bind_apply, hnote]
  show EStateM.Result.ok (b.noted n).arena.nextId ((b.noted n).push _) = _
  rw [arena_noted]

theorem inner_call (callee : NodeId) (arguments : Option NodeId) :
    (call callee arguments).Inner := by
  intro b
  unfold after
  cases hn : b.arena.node? callee with
  | some n =>
      rw [call_apply arguments hn]
      exact (Step.call arguments hn).steps
  | none =>
      -- without the callee there is no call
      have hget : b.arena.get callee = .error (.outside callee b.arena.size) := by
        simp only [Arena.get, hn]
      have hnote : noteCall callee b = .error (.outside callee b.arena.size) b := by
        unfold noteCall
        rw [bind_apply]
        simp only [ask, hget]
      rw [call, bind_apply, hnote]
      exact .refl b

theorem inner_intrinsicCall (text : String) (arguments : Option NodeId) :
    (intrinsicCall text arguments).Inner := by
  unfold intrinsicCall
  split
  · exact inner_add rfl rfl rfl
  · refine (inner_report _).bind fun _ => ?_
    exact (inner_name text).bind fun callee => inner_call callee arguments

/-! ### Types -/

theorem inner_namedType (text : String) : (namedType text).Inner := by
  unfold namedType
  split
  · exact inner_pure _
  · exact (inner_report _).bind fun _ => inner_pure _

theorem inner_structType (text : String) : (structType text).Inner := by
  refine inner_get.bind fun b => ?_
  split
  · exact inner_pure _
  · exact (inner_report _).bind fun _ => inner_pure _

theorem inner_dimension (id : NodeId) : (dimension id).Inner := by
  refine (inner_ask _).bind fun value => ?_
  split
  · exact (inner_report _).bind fun _ => inner_pure _
  · exact (inner_report _).bind fun _ => inner_pure _
  · split
    · exact inner_pure _
    · exact (inner_report _).bind fun _ => inner_pure _

theorem inner_vectorType (component : DataType) (size : NodeId) :
    (vectorType component size).Inner := by
  refine (inner_dimension size).bind fun n => ?_
  split <;> exact inner_pure _

theorem inner_matrixType (component : DataType) (rows columns : NodeId) :
    (matrixType component rows columns).Inner := by
  refine (inner_dimension rows).bind fun r => (inner_dimension columns).bind fun c => ?_
  split <;> exact inner_pure _

/-! ### Declarations -/

theorem inner_semantic (text : String) : (semantic text).Inner := by
  unfold semantic
  split
  · exact (inner_add rfl rfl rfl).bind fun _ => inner_pure _
  · exact (inner_report _).bind fun _ => inner_pure _

theorem inner_checkSize (size : Option NodeId) : (checkSize size).Inner := by
  cases size with
  | none => exact inner_pure _
  | some id =>
      refine (inner_ask _).bind fun isInt => ?_
      split
      · refine (inner_ask _).bind fun value => ?_
        split
        · split
          · exact inner_report _
          · exact inner_pure _
        · exact inner_pure _
      · exact inner_report _

/-- A step of building behind a question goes on from the answer. -/
theorem exists_of_ask_bind {α β : Type} {question : Builder → Except Fault α} {f : α → Build β}
    {b b' : Builder} {y : β} (h : (ask question >>= f) b = .ok y b') :
    ∃ x, question b = .ok x ∧ f x b = .ok y b' := by
  rw [bind_apply, ask] at h
  cases hquestion : question b with
  | ok x =>
      rw [hquestion] at h
      exact ⟨x, rfl, h⟩
  | error e =>
      rw [hquestion] at h
      contradiction

/-- Behind a report every size counts as checked. -/
theorem checked_of_report {p : Problem} {size : Option NodeId} {b b' : Builder}
    (h : report p b = .ok () b') : b'.Checked size := by
  obtain ⟨-, rfl⟩ := EStateM.Result.ok.inj h
  exact .inl (by simp [Diagnostics.hasReports, Diagnostics.report])

/-- A size that passed the check is countable; one that did not was reported. -/
theorem checked_of_checkSize {size : Option NodeId} {b b' : Builder}
    (h : checkSize size b = .ok () b') : b'.Checked size := by
  cases size with
  | none => exact checked_none b'
  | some id =>
      obtain ⟨isInt, -, h⟩ := exists_of_ask_bind h
      cases isInt with
      | false => exact checked_of_report h
      | true =>
          obtain ⟨value, hvalue, h⟩ := exists_of_ask_bind h
          have hcountable (hcount : ∀ c, value = some c → c.count.isSome) : b.Checked (some id) :=
            .inr fun _ heq => Option.some.inj heq ▸ ⟨value, hvalue, hcount⟩
          cases value with
          | none =>
              obtain ⟨-, rfl⟩ := EStateM.Result.ok.inj h
              exact hcountable nofun
          | some c =>
              cases hcount : c.count with
              | none =>
                  simp only [hcount] at h
                  exact checked_of_report h
              | some n =>
                  simp only [hcount] at h
                  obtain ⟨-, rfl⟩ := EStateM.Result.ok.inj h
                  refine hcountable fun c' hc => ?_
                  rw [← Option.some.inj hc, hcount]
                  rfl

/-- What is built behind the check of a size may take the size as checked. -/
theorem inner_sized {α : Type} {size : Option NodeId} {m : Build α}
    (h : ∀ b, b.Checked size → Steps b (m.after b)) : (checkSize size >>= fun _ => m).Inner := by
  intro b
  have hfirst := inner_checkSize size b
  unfold after at hfirst ⊢
  rw [bind_apply]
  rcases hb : checkSize size b with ⟨x, b'⟩ | ⟨e, b'⟩
  · rw [hb] at hfirst
    exact hfirst.trans (h b' (checked_of_checkSize hb))
  · rw [hb] at hfirst
    exact hfirst

theorem inner_declaration (q : Qualifiers) (type : DataType) (text : String)
    (size tie initializer : Option NodeId) :
    (declaration q type text size tie initializer).Inner :=
  inner_sized fun _ hchecked => (Step.declare text type size.isSome).steps.trans
    (steps_occur_add (n := fun id => .declaration q type id size tie initializer) text
      (fun _ => rfl) (fun _ => rfl) (fun _ => rfl) hchecked)

theorem inner_structDeclarator (text : String) (size tie : Option NodeId) :
    (structDeclarator text size tie).Inner :=
  inner_sized fun _ hchecked =>
    steps_occur_add text (fun _ => rfl) (fun _ => rfl) (fun _ => rfl) hchecked

theorem inner_parameter (q : Qualifiers) (type : DataType) (text : Option String)
    (size tie : Option NodeId) : (parameter q type text size tie).Inner := by
  refine inner_sized fun b hchecked => ?_
  cases text with
  | none => exact (Step.node rfl (fun _ hx => absurd hx List.not_mem_nil) hchecked).steps
  | some text =>
      exact (Step.declare text type size.isSome).steps.trans
        (steps_occur_add (n := fun id => .parameter q type (some id) size tie) text
          (fun _ => rfl) (fun _ => rfl) (fun _ => rfl) hchecked)

end Build

end ShaderLang
