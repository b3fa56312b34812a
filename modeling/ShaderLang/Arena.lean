/-
**The node arena.**

Nodes are kept in the order in which they were built and never change.  The number of a node is its
place.

Main definitions:

* `ShaderLang.Arena`, `ShaderLang.Arena.add` — the store;
* `ShaderLang.Arena.get` — a node by its number, a fault if it is not there;
* `ShaderLang.Arena.listItems` — the items of a chain of links, first item first;
* `ShaderLang.Arena.semanticOf` — the semantic of a declaration.

Main results:

* `ShaderLang.Arena.get_add_of_lt`, `ShaderLang.Arena.get_add_self` — adding a node leaves all others
  as they are.
-/

import ShaderLang.Fault
import ShaderLang.Position

set_option relaxedAutoImplicit false
set_option autoImplicit false

namespace ShaderLang

/-- A node with its number and the position at which it was built. -/
structure Cell where
  id : NodeId
  node : Node
  position : Position

/-- All nodes, in the order in which they were built. -/
structure Arena where
  cells : Array Cell

namespace Arena

/-- No nodes. -/
def empty : Arena := ⟨#[]⟩

/-- The number of nodes. -/
def size (a : Arena) : Nat := a.cells.size

/-- The cell with a number. -/
def cell? (a : Arena) (id : NodeId) : Option Cell := a.cells[id.index]?

/-- The node with a number. -/
def node? (a : Arena) (id : NodeId) : Option Node := (a.cell? id).map Cell.node

/-- The number that the next node gets. -/
def nextId (a : Arena) : NodeId := ⟨a.size⟩

/-- Adds a node behind all others. -/
def add (a : Arena) (node : Node) (position : Position) : Arena :=
  ⟨a.cells.push ⟨a.nextId, node, position⟩⟩

/-- The node with a number; a fault if there is none. -/
def get (a : Arena) (id : NodeId) : Except Fault Node :=
  match a.node? id with
  | some node => .ok node
  | none => .error (.outside id a.size)

@[simp] theorem size_empty : empty.size = 0 := rfl

@[simp] theorem size_add (a : Arena) (node : Node) (p : Position) :
    (a.add node p).size = a.size + 1 := by
  simp [add, size]

theorem node?_add (a : Arena) (node : Node) (p : Position) (id : NodeId) :
    (a.add node p).node? id = if id = a.nextId then some node else a.node? id := by
  obtain ⟨i⟩ := id
  simp only [node?, cell?, add, nextId, size, Array.getElem?_push, NodeId.mk.injEq]
  split <;> rfl

@[simp] theorem node?_add_self (a : Arena) (node : Node) (p : Position) :
    (a.add node p).node? a.nextId = some node := by
  simp [node?_add]

theorem node?_add_of_lt (a : Arena) (node : Node) (p : Position) {id : NodeId}
    (h : id.index < a.size) : (a.add node p).node? id = a.node? id := by
  rw [node?_add, if_neg]
  intro he
  subst he
  exact absurd h (Nat.lt_irrefl _)

@[simp] theorem get_add_self (a : Arena) (node : Node) (p : Position) :
    (a.add node p).get a.nextId = .ok node := by
  simp [get]

theorem isSome_node?_iff (a : Arena) (id : NodeId) : (a.node? id).isSome ↔ id.index < a.size := by
  simp [node?, cell?, size]

theorem get_add_of_lt (a : Arena) (node : Node) (p : Position) {id : NodeId}
    (h : id.index < a.size) : (a.add node p).get id = a.get id := by
  have hs : (a.node? id).isSome := (a.isSome_node?_iff id).2 h
  obtain ⟨n, hn⟩ := Option.isSome_iff_exists.1 hs
  simp [get, node?_add_of_lt a node p h, hn]

/-- Long enough for every walk that comes to an end: a step for each node, and one to find that a
node is not there. -/
def walkLength (a : Arena) : Nat := a.size + 1

/-! ### Chains of links -/

/-- The items of a chain, last item first.  A node that is not a link is an item itself. -/
def chainItems (a : Arena) : Nat → NodeId → Except Fault (List NodeId)
  | 0, _ => .error .endless
  | fuel + 1, id =>
      match a.get id with
      | .error f => .error f
      | .ok node =>
          match node.asLink with
          | none => .ok [id]
          | some (none, item) => .ok [item]
          | some (some previous, item) =>
              match chainItems a fuel previous with
              | .error f => .error f
              | .ok items => .ok (item :: items)

/-- The items of the sequence that a link stands for, in the order in which they were added. -/
def listItems (a : Arena) (id : NodeId) : Except Fault (List NodeId) :=
  (a.chainItems a.walkLength id).map List.reverse

/-! ### Semantics of declarations -/

/-- Follows attached semantics to a semantic node. -/
def findSemantic (a : Arena) : Nat → NodeId → Except Fault (Option Semantic)
  | 0, _ => .error .endless
  | fuel + 1, id =>
      match a.get id with
      | .error f => .error f
      | .ok (.semantic s) => .ok (some s)
      | .ok node =>
          match node.attached with
          | some (some attached) => findSemantic a fuel attached
          | _ => .ok none

/-- The semantic that a node is or that is attached to it. -/
def semanticOf (a : Arena) (id : NodeId) : Except Fault (Option Semantic) :=
  a.findSemantic a.walkLength id

end Arena

end ShaderLang
