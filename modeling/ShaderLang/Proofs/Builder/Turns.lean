/-
**A program is built in turns.**

Between the parts of a program the builder is at rest: it is in no function, and every struct that is
open stays open for ever.  A turn takes it from rest to rest.  Most turns are small steps, or link a
part to those before; the others open a function or a struct, go on in small steps, and either close
what was opened or reject the part and report the token that broke the rule.

Main definitions:

* `ShaderLang.Builder.headed`, `ShaderLang.Builder.defined`, `ShaderLang.Builder.opened`,
  `ShaderLang.Builder.closed`, `ShaderLang.Builder.rejected` — what opens and closes a function or a
  struct;
* `ShaderLang.Builder.Turn`, `ShaderLang.Builder.Turns` — turns;
* `ShaderLang.Builder.OnePart` — what builds one part of a program;
* `ShaderLang.Builder.Grows`, `ShaderLang.Builder.AddsNo` — nothing that was built goes away, and
  nothing of a kind is added;
* `ShaderLang.Builder.Resolved` — what nodes refer to is there.

Main results:

* `ShaderLang.Builder.Turns.grows` — **what was built before a turn is still there behind it**;
* `ShaderLang.Builder.Resolved.turns` — **what nodes refer to is there behind every turn**.
-/

import ShaderLang.Proofs.Arena.Extension
import ShaderLang.Proofs.Builder.Steps

set_option relaxedAutoImplicit false
set_option autoImplicit false

namespace ShaderLang.Builder

/-! ### Functions and structs -/

/-- The builder behind the head of a function. -/
def headed (b : Builder) (result : DataType) (text : String) (parameters tie : Option NodeId) :
    Builder :=
  push { b with current := some text, names := (b.names.occur text).2 }
    (.prototype result (b.names.occur text).1 parameters tie)

/-- The builder behind a function. -/
def defined (b : Builder) (head body : NodeId) : Builder :=
  push { b with current := none } (.definition head body)

/-- The builder in which a struct is open. -/
def opened (b : Builder) (name : String) : Builder :=
  { b with structs := (b.structs.register name).2 }

/-- The builder behind a struct. -/
def closed (b : Builder) (id : UInt32) (members : Option NodeId) (collected : List StructMember) :
    Builder :=
  let text := (b.structs.nameOf id).getD ""
  push
    { b with
      structs := (b.structs.finalize text collected).2
      names := (b.names.occur text).2 }
    (.structDeclaration id (b.names.occur text).1 members)

/-- What closing a struct leaves. -/
theorem structDeclaration_apply (b : Builder) (id : UInt32) (members : Option NodeId) :
    Build.structDeclaration id members b =
      match b.collectMembers members with
      | .ok collected => .ok b.arena.nextId (b.closed id members collected)
      | .error e => .error e b := by
  unfold Build.structDeclaration
  rw [Build.bind_apply]
  show (Build.ask _ >>= _) b = _
  rw [Build.bind_apply, Build.ask]
  cases b.collectMembers members with
  | ok collected => rfl
  | error e => rfl

/-- The builder that has given up a part and reported why. -/
def rejected (b : Builder) (p : Problem) (place : Position) : Builder :=
  { b with diagnostics := b.diagnostics.report p place, current := none }

/-- What a part of a program may open. -/
inductive Opening (b : Builder) : Builder → Prop where
  | nothing : Opening b b
  | head (result : DataType) (text : String) (parameters tie : Option NodeId) :
      Opening b (b.headed result text parameters tie)
  | struct (name : String) : Opening b (b.opened name)

/-- A turn, from rest to rest. -/
inductive Turn (b : Builder) : Builder → Prop where
  | step {b' : Builder} (inner : Step b b') : Turn b b'
  | link (previous : Option NodeId) (item : NodeId) :
      Turn b (b.push (.link .externals previous item))
  | head (result : DataType) (text : String) (parameters tie : Option NodeId) (p : Position) :
      Turn b { b.headed result text parameters tie with position := p, current := none }
  | function {b' : Builder} {result : DataType} {text : String} {parameters tie : Option NodeId}
      (inner : Steps (b.headed result text parameters tie) b') (body : NodeId) :
      Turn b (b'.defined b.arena.nextId body)
  | struct {b' : Builder} {name : String} {members : Option NodeId} {collected : List StructMember}
      (inner : Steps (b.opened name) b') (collects : b'.collectMembers members = .ok collected) :
      Turn b (b'.closed (Structs.idOf b.structs.size) members collected)
  | rejected {b₁ b₂ : Builder} {p : Problem} (opening : Opening b b₁) (inner : Steps b₁ b₂)
      (unexpected : p.isUnexpected = true) (place : Position) : Turn b (b₂.rejected p place)

/-- Turns in a row. -/
def Turns : Builder → Builder → Prop := Relation.ReflTransGen Turn

variable {b b' b'' : Builder}

namespace Turns

theorem refl (b : Builder) : Turns b b := Relation.ReflTransGen.refl

theorem trans (h : Turns b b') (h' : Turns b' b'') : Turns b b'' := Relation.ReflTransGen.trans h h'

end Turns

theorem Turn.turns (h : Turn b b') : Turns b b' := Relation.ReflTransGen.single h

theorem Steps.turns (h : Steps b b') : Turns b b' := by
  induction h with
  | refl => exact .refl b
  | tail _ hstep ih => exact ih.trans (Turn.step hstep).turns

/-- A part is built in small steps and at most one turn behind them. -/
def OnePart (b b' : Builder) : Prop := ∃ b₁, Steps b b₁ ∧ Relation.ReflGen Turn b₁ b'

namespace OnePart

theorem of_steps (h : Steps b b') : OnePart b b' := ⟨b', h, .refl⟩

theorem of_turn (h : Turn b b') : OnePart b b' := ⟨b, .refl b, .single h⟩

theorem behind_steps (h : Steps b b') (h' : OnePart b' b'') : OnePart b b'' := by
  obtain ⟨b₁, hsteps, hturn⟩ := h'
  exact ⟨b₁, h.trans hsteps, hturn⟩

theorem turns (h : OnePart b b') : Turns b b' := by
  obtain ⟨b₁, hsteps, hturn⟩ := h
  exact hsteps.turns.trans hturn.to_reflTransGen

end OnePart

/-! ### Nothing goes away -/

/-- Nodes, names and reports of tokens that were there before are still there. -/
structure Grows (b b' : Builder) : Prop where
  nodes : b.arena.Extends b'.arena
  names : ∀ id text, b.names.text? id = some text → b'.names.text? id = some text
  errors : b.errors ≤ b'.errors

namespace Grows

theorem refl (b : Builder) : b.Grows b := ⟨fun _ _ h => h, fun _ _ h => h, Nat.le_refl _⟩

theorem trans (h : b.Grows b') (h' : b'.Grows b'') : b.Grows b'' where
  nodes := fun id n hn => h'.nodes id n (h.nodes id n hn)
  names := fun id t ht => h'.names id t (h.names id t ht)
  errors := Nat.le_trans h.errors h'.errors

end Grows

theorem Extends.grows {allowed : Problem → Prop} (h : b.Extends allowed b') : b.Grows b' where
  nodes := h.nodes
  names := h.names
  errors := by
    obtain ⟨new, hnew, -⟩ := h.reports
    rw [errors, errors, hnew, Array.countP_append]
    exact Nat.le_add_right _ _

theorem Steps.grows (h : Steps b b') : b.Grows b' := h.extends.grows

theorem grows_push (b : Builder) (n : Node) : b.Grows (b.push n) := by
  have h : b.Extends (fun _ => True) (b.push n) := extends_push b n
  exact h.grows

theorem grows_headed (b : Builder) (result : DataType) (text : String)
    (parameters tie : Option NodeId) : b.Grows (b.headed result text parameters tie) := by
  have hnamed : b.Grows { b with current := some text, names := (b.names.occur text).2 } :=
    ⟨fun _ _ h => h, fun _ _ h => b.names.text?_occur_of_some text h, Nat.le_refl _⟩
  exact hnamed.trans (grows_push _ _)

theorem grows_defined (b : Builder) (head body : NodeId) : b.Grows (b.defined head body) := by
  have hleft : b.Grows { b with current := none } :=
    ⟨fun _ _ h => h, fun _ _ h => h, Nat.le_refl _⟩
  exact hleft.trans (grows_push _ _)

theorem grows_opened (b : Builder) (name : String) : b.Grows (b.opened name) :=
  ⟨fun _ _ h => h, fun _ _ h => h, Nat.le_refl _⟩

theorem grows_closed (b : Builder) (id : UInt32) (members : Option NodeId)
    (collected : List StructMember) : b.Grows (b.closed id members collected) := by
  have hnamed : b.Grows { b with
      structs := (b.structs.finalize ((b.structs.nameOf id).getD "") collected).2
      names := (b.names.occur ((b.structs.nameOf id).getD "")).2 } :=
    ⟨fun _ _ h => h, fun _ _ h => b.names.text?_occur_of_some _ h, Nat.le_refl _⟩
  exact hnamed.trans (grows_push _ _)

theorem errors_rejected (b : Builder) {p : Problem} (hp : p.isUnexpected = true)
    (place : Position) : (b.rejected p place).errors = b.errors + 1 := by
  rw [errors, rejected, Diagnostics.countP_report, if_pos hp]
  rfl

theorem Opening.grows (h : Opening b b') : b.Grows b' := by
  cases h with
  | nothing => exact .refl b
  | head => exact grows_headed b ..
  | struct => exact grows_opened b _

/-- What was built before a turn is still there behind it. -/
theorem Turn.grows (h : Turn b b') : b.Grows b' := by
  cases h with
  | step inner => exact inner.steps.grows
  | link => exact grows_push b _
  | head result text parameters tie p =>
      have hhead := grows_headed b result text parameters tie
      exact ⟨hhead.nodes, hhead.names, hhead.errors⟩
  | function inner body =>
      exact ((grows_headed b ..).trans inner.grows).trans (grows_defined _ _ body)
  | struct inner =>
      exact ((grows_opened b _).trans inner.grows).trans (grows_closed _ ..)
  | @rejected _ b₂ p opening inner unexpected place =>
      have hinner := opening.grows.trans inner.grows
      refine ⟨hinner.nodes, hinner.names, ?_⟩
      rw [errors_rejected b₂ unexpected place]
      exact Nat.le_succ_of_le hinner.errors

/-- **What was built before turns is still there behind them.** -/
theorem Turns.grows (h : Turns b b') : b.Grows b' := by
  induction h with
  | refl => exact .refl b
  | tail _ hturn ih => exact ih.trans hturn.grows

/-! ### Nodes of a kind -/

/-- No node of the kind is new. -/
def AddsNo (kind : Node → Bool) (b b' : Builder) : Prop :=
  ∀ id n, kind n = true → b'.arena.node? id = some n → b.arena.node? id = some n

section

variable {kind : Node → Bool}

theorem AddsNo.refl (b : Builder) : AddsNo kind b b := fun _ _ _ h => h

theorem AddsNo.trans (h : AddsNo kind b b') (h' : AddsNo kind b' b'') : AddsNo kind b b'' :=
  fun id n hn hnode => h id n hn (h' id n hn hnode)

theorem addsNo_push (b : Builder) {n : Node} (hn : kind n = false) : AddsNo kind b (b.push n) := by
  intro id m hm hnode
  rcases node?_push_eq_some hnode with ⟨-, rfl⟩ | hold
  · rw [hn] at hm
    contradiction
  · exact hold

/-- Small steps add no boundary of any kind. -/
theorem Steps.addsNo (h : Steps b b') (hkind : ∀ n, kind n = true → n.isBoundary = true) :
    AddsNo kind b b' := by
  intro id n hn hnode
  rcases h.node?_eq_some hnode with hold | hplain
  · exact hold
  · rw [hkind n hn] at hplain
    contradiction

theorem addsNo_headed (b : Builder) {result : DataType} {text : String}
    {parameters tie : Option NodeId}
    (h : kind (.prototype result (b.names.occur text).1 parameters tie) = false) :
    AddsNo kind b (b.headed result text parameters tie) := by
  have hnamed : AddsNo kind b
      { b with current := some text, names := (b.names.occur text).2 } := .refl b
  exact hnamed.trans (addsNo_push _ h)

theorem addsNo_defined (b : Builder) {head body : NodeId}
    (h : kind (.definition head body) = false) : AddsNo kind b (b.defined head body) := by
  have hleft : AddsNo kind b { b with current := none } := .refl b
  exact hleft.trans (addsNo_push _ h)

theorem addsNo_closed (b : Builder) {id : UInt32} {members : Option NodeId}
    {collected : List StructMember} (h : ∀ name, kind (.structDeclaration id name members) = false) :
    AddsNo kind b (b.closed id members collected) := by
  have hnamed : AddsNo kind b { b with
      structs := (b.structs.finalize ((b.structs.nameOf id).getD "") collected).2
      names := (b.names.occur ((b.structs.nameOf id).getD "")).2 } := .refl b
  exact hnamed.trans (addsNo_push _ (h _))

theorem Opening.addsNo (h : Opening b b')
    (hkind : ∀ result name parameters tie, kind (.prototype result name parameters tie) = false) :
    AddsNo kind b b' := by
  cases h with
  | nothing => exact .refl b
  | head => exact addsNo_headed b (hkind ..)
  | struct => exact .refl b

end

/-! ### What nodes refer to is there -/

/-- Every name in a node has a text; the callee of every call and the head of every function are
there. -/
structure Resolved (b : Builder) : Prop where
  known : ∀ id n, b.arena.node? id = some n → b.Knows n
  callee : ∀ id callee arguments, b.arena.node? id = some (.call callee arguments) →
    ∃ n, b.arena.node? callee = some n
  head : ∀ id head body, b.arena.node? id = some (.definition head body) →
    ∃ n, b.arena.node? head = some n

theorem Knows.grows {n : Node} (h : b.Knows n) (hg : b.Grows b') : b'.Knows n := by
  intro x hx
  obtain ⟨text, htext⟩ := Option.isSome_iff_exists.1 (h x hx)
  rw [hg.names x text htext]
  rfl

namespace Resolved

/-- References stay where nodes are the same and names keep their texts. -/
theorem of_same (h : b.Resolved) (harena : b'.arena = b.arena)
    (hnames : ∀ id text, b.names.text? id = some text → b'.names.text? id = some text) :
    b'.Resolved where
  known := by
    intro id n hn x hx
    rw [harena] at hn
    obtain ⟨text, htext⟩ := Option.isSome_iff_exists.1 (h.known id n hn x hx)
    rw [hnames x text htext]
    rfl
  callee := by
    rw [harena]
    exact h.callee
  head := by
    rw [harena]
    exact h.head

theorem push (h : b.Resolved) {new : Node} (known : b.Knows new)
    (callee : ∀ callee arguments, new = .call callee arguments →
      ∃ n, b.arena.node? callee = some n)
    (head : ∀ head body, new = .definition head body → ∃ n, b.arena.node? head = some n) :
    (b.push new).Resolved where
  known := by
    intro id n hn
    rcases node?_push_eq_some hn with ⟨-, rfl⟩ | hold
    · exact known
    · exact h.known id n hold
  callee := by
    intro id c arguments hn
    obtain ⟨n, hc⟩ : ∃ n, b.arena.node? c = some n := by
      rcases node?_push_eq_some hn with ⟨-, hnew⟩ | hold
      · exact callee c arguments hnew.symm
      · exact h.callee id c arguments hold
    exact ⟨n, (grows_push b new).nodes c n hc⟩
  head := by
    intro id c body hn
    obtain ⟨n, hc⟩ : ∃ n, b.arena.node? c = some n := by
      rcases node?_push_eq_some hn with ⟨-, hnew⟩ | hold
      · exact head c body hnew.symm
      · exact h.head id c body hold
    exact ⟨n, (grows_push b new).nodes c n hc⟩

theorem step (h : b.Resolved) (hstep : Step b b') : b'.Resolved := by
  cases hstep with
  | position p => exact h.of_same rfl fun _ _ ht => ht
  | report p place => exact h.of_same rfl fun _ _ ht => ht
  | occur name => exact h.of_same rfl fun _ _ ht => b.names.text?_occur_of_some name ht
  | literal text => exact h.of_same rfl (Step.literal text).steps.grows.names
  | declare => exact h.of_same rfl fun _ _ ht => ht
  | node plain known =>
      refine h.push known ?_ ?_
      · rintro callee arguments rfl
        exact absurd plain Bool.false_ne_true
      · rintro head body rfl
        exact absurd plain Bool.false_ne_true
  | @call callee n arguments here =>
      have hnoted : (b.noted n).Resolved :=
        h.of_same (arena_noted b n) fun _ _ ht => by rwa [names_noted]
      refine hnoted.push (fun x hx => absurd hx List.not_mem_nil) ?_ nofun
      intro c as heq
      obtain ⟨rfl, -⟩ := Node.call.inj heq
      exact ⟨n, by rwa [arena_noted]⟩

theorem steps (h : b.Resolved) (hsteps : Steps b b') : b'.Resolved := by
  induction hsteps with
  | refl => exact h
  | tail _ hstep ih => exact ih.step hstep

/-- A node whose name occurs for it. -/
theorem push_occur (h : b.Resolved) (name : String) (new : NameId → Node)
    (hnames : ∀ id, (new id).names = [id])
    (hcallee : ∀ id callee arguments, new id ≠ .call callee arguments)
    (hhead : ∀ id head body, new id ≠ .definition head body) {c : Builder}
    (hc : c.arena = b.arena) (hcnames : c.names = (b.names.occur name).2) :
    (c.push (new (b.names.occur name).1)).Resolved := by
  have hold : c.Resolved := by
    refine h.of_same hc fun _ _ ht => ?_
    rw [hcnames]
    exact b.names.text?_occur_of_some name ht
  refine hold.push (fun x hx => ?_) (fun _ _ heq => (hcallee _ _ _ heq).elim)
    fun _ _ heq => (hhead _ _ _ heq).elim
  rw [hnames] at hx
  obtain rfl := List.mem_singleton.1 hx
  rw [hcnames, b.names.text?_occur name]
  rfl

theorem headed (h : b.Resolved) (result : DataType) (text : String)
    (parameters tie : Option NodeId) : (b.headed result text parameters tie).Resolved :=
  h.push_occur text (fun id => .prototype result id parameters tie) (fun _ => rfl)
    (fun _ _ _ => nofun) (fun _ _ _ => nofun) rfl rfl

theorem defined (h : b.Resolved) {head : NodeId} {n : Node} (hn : b.arena.node? head = some n)
    (body : NodeId) : (b.defined head body).Resolved := by
  have hleft : Resolved { b with current := none } := h.of_same rfl fun _ _ ht => ht
  refine hleft.push (fun x hx => absurd hx List.not_mem_nil) nofun ?_
  intro c d heq
  obtain ⟨rfl, -⟩ := Node.definition.inj heq
  exact ⟨n, hn⟩

theorem closed (h : b.Resolved) (id : UInt32) (members : Option NodeId)
    (collected : List StructMember) : (b.closed id members collected).Resolved :=
  h.push_occur _ (fun name => .structDeclaration id name members) (fun _ => rfl)
    (fun _ _ _ => nofun) (fun _ _ _ => nofun) rfl rfl

theorem opening (h : b.Resolved) (ho : Opening b b') : b'.Resolved := by
  cases ho with
  | nothing => exact h
  | head => exact h.headed ..
  | struct => exact h.of_same rfl fun _ _ ht => ht

/-- The head of a function is the node behind which it begins. -/
theorem node?_headed (b : Builder) (result : DataType) (text : String)
    (parameters tie : Option NodeId) :
    (b.headed result text parameters tie).arena.node? b.arena.nextId =
      some (.prototype result (b.names.occur text).1 parameters tie) :=
  Arena.node?_add_self ..

/-- Behind a turn what nodes refer to is there. -/
theorem turn (h : b.Resolved) (hturn : Turn b b') : b'.Resolved := by
  cases hturn with
  | step inner => exact h.step inner
  | link => exact h.push (fun x hx => absurd hx List.not_mem_nil) nofun nofun
  | head => exact (h.headed ..).of_same rfl fun _ _ ht => ht
  | function inner body =>
      exact ((h.headed ..).steps inner).defined (inner.grows.nodes _ _ (node?_headed ..)) body
  | @struct _ name _ _ inner => exact ((h.opening (.struct name)).steps inner).closed ..
  | rejected opening inner =>
      exact ((h.opening opening).steps inner).of_same rfl fun _ _ ht => ht

theorem turns (h : b.Resolved) (hturns : Turns b b') : b'.Resolved := by
  induction hturns with
  | refl => exact h
  | tail _ hturn ih => exact ih.turn hturn

/-- Nothing is referred to where nothing is built. -/
theorem of_empty (h : b.arena = .empty) : b.Resolved where
  known := fun id n hn => by
    rw [h, Arena.node?_empty] at hn
    contradiction
  callee := fun id c arguments hn => by
    rw [h, Arena.node?_empty] at hn
    contradiction
  head := fun id c body hn => by
    rw [h, Arena.node?_empty] at hn
    contradiction

end Resolved

end ShaderLang.Builder
