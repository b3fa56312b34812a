/-
**Building never disturbs what is built.**

In a session the builder is asked for one operation after the other, and an operation refers only to
nodes that the builder has answered with before.  The nodes need not make up a program: a node may be
shared, and a chain may be followed from any node.

No operation of a session meets a fault, and neither does any question about a node that the builder
has answered with.  Nodes stay as they are, so the value, the semantic and the items of a node are
the same after any number of further operations and in the unit that ends the session.  Whether a
node is an integer, and its type, may change: they depend on what is declared.

Main definitions:

* `ShaderLang.Session`, `ShaderLang.Session.Next`, `ShaderLang.Session.Reaches` — sessions, one
  operation, and any number of them;
* `ShaderLang.Arena.Undisturbed` — all nodes are as they were, and new ones refer to older ones only;
* `ShaderLang.Builder.Responds` — no question about a node meets a fault.

Main results:

* `ShaderLang.Session.Reaches.grown` — a session only adds nodes on top;
* `ShaderLang.Session.undisturbed` — **building never disturbs what is built**.
-/

import ShaderLang.CompilationUnit
import ShaderLang.Proofs.Builder.Operations

set_option relaxedAutoImplicit false
set_option autoImplicit false

namespace ShaderLang

/-- A builder and the nodes that it has answered with. -/
structure Session where
  builder : Builder
  returned : List NodeId

namespace Session

/-- Nothing is built yet. -/
def start (diagnostics : Diagnostics) : Session := ⟨.start diagnostics, []⟩

/-- The operation refers only to nodes that the builder has answered with. -/
def Allows (s : Session) (o : Operation) : Prop := ∀ id ∈ o.arguments, id ∈ s.returned

instance (s : Session) (o : Operation) : Decidable (s.Allows o) :=
  inferInstanceAs (Decidable (∀ id ∈ o.arguments, id ∈ s.returned))

/-- One operation of a session. -/
inductive Next (s : Session) : Session → Prop where
  | perform {o : Operation} (allowed : s.Allows o) {answer : Answer} {b : Builder}
      (run : o.perform s.builder = .ok answer b) : Next s ⟨b, s.returned ++ answer.node?.toList⟩

/-- Any number of operations of a session. -/
def Reaches : Session → Session → Prop := Relation.ReflTransGen Next

end Session

/-- All nodes of the first arena are in the second one, with their numbers and positions, and what
else is there is numbered by its place and refers to older nodes only. -/
structure Arena.Undisturbed (a a' : Arena) : Prop where
  same : ∀ (i : Nat) (c : Cell), a.cells[i]? = some c → a'.cells[i]? = some c
  older : ∀ (i : Nat) (c : Cell), a.size ≤ i → a'.cells[i]? = some c →
    c.id = ⟨i⟩ ∧ ∀ child ∈ c.node.children, child.index < i

/-- No question about the node meets a fault. -/
structure Builder.Responds (b : Builder) (id : NodeId) : Prop where
  node : Ends (b.arena.get id)
  value : Ends (b.fold id)
  type : Ends (b.typeOf id)
  integer : Ends (b.isInteger id)
  semantic : Ends (b.arena.semanticOf id)
  items : Ends (b.arena.listItems id)

theorem Arena.Grown.leaves_undisturbed {a a' : Arena} (h : a.Grown a') : a.Undisturbed a' where
  same := fun _ _ hc => cell_of_prefix h.cells hc
  older := by
    intro i c _ hc
    refine ⟨h.ordered.numbered i c hc, ?_⟩
    exact h.ordered.descending ⟨i⟩ c.node (Option.map_eq_some_iff.2 ⟨c, hc, rfl⟩)

/-- In an arena whose nodes refer to older ones every question about a node that is there has an
answer. -/
theorem Builder.responds {b : Builder} (h : b.arena.Ordered) {id : NodeId}
    (hid : id.index < b.arena.size) : b.Responds id := by
  have hground := h.descending.grounded hid
  obtain ⟨items, hitems, -⟩ := Arena.listItems_ends hground
  exact
    { node := hground.get_ends
      value := Arena.fold_ends hground
      type := Arena.typeOf_ends hground
      integer := Arena.isInteger_ends hground
      semantic := Arena.semanticOf_ends hground
      items := ⟨items, hitems⟩ }

namespace Session

open Build

/-! ### Sessions -/

/-- The nodes of a session refer to older ones, and those that were answered with are there. -/
structure Sound (s : Session) : Prop where
  ordered : s.builder.arena.Ordered
  present : ∀ id ∈ s.returned, Present id s.builder.arena

variable {s t : Session}

theorem sound_start (diagnostics : Diagnostics) : (start diagnostics).Sound :=
  ⟨Arena.ordered_empty, fun _ h => absurd h List.not_mem_nil⟩

/-- An operation meets no fault and only adds nodes on top. -/
theorem Sound.appends (h : s.Sound) {o : Operation} (ho : s.Allows o) :
    o.perform.Appends Answered s.builder :=
  o.appends_perform h.ordered fun c hc => h.present c (ho c hc)

theorem Next.grown (h : s.Sound) (hnext : s.Next t) :
    s.builder.arena.Grown t.builder.arena ∧ t.Sound := by
  cases hnext with
  | perform allowed run =>
      obtain ⟨x, b', hx, hgrown, hanswer⟩ := h.appends allowed
      obtain ⟨rfl, rfl⟩ := EStateM.Result.ok.inj (run.symm.trans hx)
      refine ⟨hgrown, hgrown.ordered, fun id hid => ?_⟩
      rcases List.mem_append.1 hid with hold | hnew
      · exact Nat.lt_of_lt_of_le (h.present id hold) hgrown.size_le
      · exact hanswer id (Option.mem_toList.1 hnew)

/-- **A session only adds nodes on top.** -/
theorem Reaches.grown (h : s.Sound) (hreach : s.Reaches t) :
    s.builder.arena.Grown t.builder.arena ∧ t.Sound := by
  induction hreach with
  | refl => exact ⟨.refl h.ordered, h⟩
  | tail _ hnext ih =>
      obtain ⟨hgrown, hsound⟩ := hnext.grown ih.2
      exact ⟨ih.1.trans hgrown, hsound⟩

/-- The value, the semantic and the items of a node are the same with more nodes on top. -/
theorem answers_eq {a a' : Arena} (h : a.Grown a') {id : NodeId} (hid : id.index < a.size) :
    a'.fold id = a.fold id ∧ a'.semanticOf id = a.semanticOf id ∧
      a'.listItems id = a.listItems id := by
  have hextends := Arena.extends_of_initial h.cells
  have hground := (hextends.descending h.ordered.descending).grounded hid
  obtain ⟨semantic, hsemantic⟩ := Arena.semanticOf_ends hground
  obtain ⟨items, hitems, -⟩ := Arena.listItems_ends hground
  refine ⟨hextends.fold_eq h.ordered.descending hid, ?_, ?_⟩
  · rw [hsemantic, hextends.semanticOf hsemantic]
  · rw [hitems, hextends.listItems hitems]

/-- **Building never disturbs what is built.**  Whenever a session has come to some point, every
operation that refers to nodes answered so far meets no fault, leaves all nodes as they are and adds
nodes that refer to older ones; every question about a node answered so far has an answer; and after
any number of further operations, and in the unit that then ends the session, the nodes are the same
and so are the value, the semantic and the items of each. -/
theorem undisturbed {diagnostics : Diagnostics} (h : (start diagnostics).Reaches s) :
    (∀ o, s.Allows o → ∃ answer b, o.perform s.builder = .ok answer b ∧
      s.builder.arena.Undisturbed b.arena ∧
      ∀ id, answer.node? = some id → id.index < b.arena.size) ∧
    (∀ id ∈ s.returned, s.builder.Responds id) ∧
    ∀ t, s.Reaches t →
      s.builder.arena.Undisturbed t.builder.arena ∧
      ∀ id ∈ s.returned,
        (t.builder.fold id = s.builder.fold id ∧
          t.builder.arena.semanticOf id = s.builder.arena.semanticOf id ∧
          t.builder.arena.listItems id = s.builder.arena.listItems id) ∧
        ∀ root,
          (t.builder.finish root).arena.fold id = s.builder.fold id ∧
          (t.builder.finish root).arena.semanticOf id = s.builder.arena.semanticOf id ∧
          (t.builder.finish root).arena.listItems id = s.builder.arena.listItems id := by
  obtain ⟨-, hsound⟩ := Reaches.grown (sound_start diagnostics) h
  refine ⟨fun o ho => ?_, fun id hid => ?_, fun t ht => ?_⟩
  · obtain ⟨answer, b, hrun, hgrown, hanswer⟩ := hsound.appends ho
    exact ⟨answer, b, hrun, hgrown.leaves_undisturbed, hanswer⟩
  · exact Builder.responds hsound.ordered (hsound.present id hid)
  · obtain ⟨hgrown, -⟩ := ht.grown hsound
    refine ⟨hgrown.leaves_undisturbed, fun id hid => ?_⟩
    -- the unit that ends a session has the builder's own arena
    have hsame := answers_eq hgrown (hsound.present id hid)
    exact ⟨hsame, fun _ => hsame⟩

/-- The session after one more operation. -/
def ask (s : Session) (o : Operation) : Session :=
  match o.perform s.builder with
  | .ok answer b => ⟨b, s.returned ++ answer.node?.toList⟩
  | .error _ b => ⟨b, s.returned⟩

/-- An operation that may be asked for takes a session on. -/
theorem Sound.reaches_ask (h : s.Sound) {o : Operation} (ho : s.Allows o) : s.Reaches (s.ask o) := by
  obtain ⟨answer, b, hrun, -⟩ := h.appends ho
  rw [ask, hrun]
  exact .single (.perform ho hrun)

/-- A truth value, added to itself. -/
def doubled : Session := ((start .empty).ask (.bool true)).ask (.binary .add ⟨0⟩ ⟨0⟩)

/-- A call of an unknown function with the sum. -/
def shaded : Session :=
  (doubled.ask (.link .arguments none ⟨1⟩)).ask (.intrinsicCall "shade" (some ⟨2⟩))

/-- A truth value is added to itself; then a function that is not known is called with the sum, which
takes a node for its name and one for the call.  The sum keeps its value two. -/
theorem undisturbed_shaded :
    doubled.returned = [⟨0⟩, ⟨1⟩] ∧ shaded.returned = [⟨0⟩, ⟨1⟩, ⟨2⟩, ⟨4⟩] ∧
      shaded.builder.fold ⟨1⟩ = .ok (some (.signed 2)) ∧ shaded.builder.Responds ⟨4⟩ := by
  have hsound := sound_start .empty
  have h₁ := hsound.reaches_ask (o := .bool true) (by decide)
  have h₂ := (h₁.grown hsound).2.reaches_ask (o := .binary .add ⟨0⟩ ⟨0⟩) (by decide)
  have hdoubled : (start .empty).Reaches doubled := h₁.trans h₂
  have hs := (hdoubled.grown hsound).2
  have h₃ := hs.reaches_ask (o := .link .arguments none ⟨1⟩) (by decide)
  have h₄ := (h₃.grown hs).2.reaches_ask (o := .intrinsicCall "shade" (some ⟨2⟩)) (by decide)
  have hshaded : doubled.Reaches shaded := h₃.trans h₄
  obtain ⟨-, -, hlater⟩ := undisturbed hdoubled
  obtain ⟨-, hsame⟩ := hlater shaded hshaded
  obtain ⟨-, hresponds, -⟩ := undisturbed (hdoubled.trans hshaded)
  exact ⟨rfl, rfl, (hsame ⟨1⟩ (by decide)).1.1.trans rfl, hresponds ⟨4⟩ (by decide)⟩

end Session

end ShaderLang
