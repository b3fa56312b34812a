/-
**Arenas that hold the same nodes.**

Every node carries the position at which it was built, and nothing asks for it.  Two arenas are alike
if they hold the same nodes under the same numbers in the same order, wherever those were built.  What
is found in an arena, the items of a sequence, the value and the type of an expression, is the same in
all arenas that are alike.

Main definitions:

* `ShaderLang.Arena.contents`, `ShaderLang.Arena.Alike` — the nodes without their positions, and
  arenas with the same ones.

Main results:

* `ShaderLang.Arena.Alike.add` — arenas that are alike stay so when the same node is added to both;
* `ShaderLang.Arena.Alike.listItems_eq`, `ShaderLang.Arena.Alike.fold_eq`,
  `ShaderLang.Arena.Alike.isInteger_eq` — **arenas that are alike give the same answers**.
-/

import ShaderLang.Static.Typing

set_option relaxedAutoImplicit false
set_option autoImplicit false

namespace ShaderLang.Arena

/-- The nodes with their numbers, without their positions. -/
def contents (a : Arena) : List (NodeId × Node) := a.cells.toList.map fun c => (c.id, c.node)

/-- The arenas hold the same nodes. -/
def Alike (a a' : Arena) : Prop := a.contents = a'.contents

namespace Alike

variable {a a' : Arena}

theorem refl (a : Arena) : a.Alike a := rfl

theorem size_eq (h : a.Alike a') : a.size = a'.size := by
  have hlength := congrArg List.length h
  simpa [contents, size] using hlength

theorem nextId_eq (h : a.Alike a') : a.nextId = a'.nextId := congrArg NodeId.mk h.size_eq

theorem walkLength_eq (h : a.Alike a') : a.walkLength = a'.walkLength :=
  congrArg (· + 1) h.size_eq

/-- The same node on top of both. -/
theorem add (h : a.Alike a') (n : Node) (p p' : Position) : (a.add n p).Alike (a'.add n p') := by
  have hid := h.nextId_eq
  unfold Alike contents at h ⊢
  simp only [Arena.add, Array.toList_push, List.map_append, List.map_cons, List.map_nil, h, hid]

/-- The same nodes are found. -/
theorem node?_eq (h : a.Alike a') : a.node? = a'.node? := by
  funext id
  have hcontents := congrArg (fun l => (l[id.index]?).map Prod.snd) h
  simpa [contents, node?, cell?, Function.comp_def] using hcontents

theorem get_eq (h : a.Alike a') : a.get = a'.get := by
  funext id
  unfold get
  rw [h.node?_eq, h.size_eq]

theorem fetch_eq (h : a.Alike a') : a.fetch = a'.fetch := by
  funext id
  unfold fetch
  rw [h.get_eq]

/-! ### Sequences -/

theorem chainItems_eq (h : a.Alike a') (fuel : Nat) (id : NodeId) :
    a.chainItems fuel id = a'.chainItems fuel id := by
  induction fuel generalizing id with
  | zero => rfl
  | succ fuel ih => simp only [chainItems, h.get_eq, ih]

/-- Sequences have the same items. -/
theorem listItems_eq (h : a.Alike a') : a.listItems = a'.listItems := by
  funext id
  unfold listItems
  rw [h.chainItems_eq, h.walkLength_eq]

/-! ### Expressions -/

theorem foldNode_eq (h : a.Alike a') (value : NodeId → Walk Constant) (n : Node) :
    a.foldNode value n = a'.foldNode value n := by
  cases n <;> simp only [foldNode, h.fetch_eq]

theorem foldWithin_eq (h : a.Alike a') (fuel : Nat) : a.foldWithin fuel = a'.foldWithin fuel := by
  induction fuel with
  | zero => rfl
  | succ fuel ih =>
      funext id
      simp only [foldWithin, h.fetch_eq, h.foldNode_eq, ih]

/-- Expressions have the same values. -/
theorem fold_eq (h : a.Alike a') : a.fold = a'.fold := by
  funext id
  unfold fold
  rw [h.foldWithin_eq, h.walkLength_eq]

variable {scope : Scope}

theorem declarationOf_eq (h : a.Alike a') (type : NodeId → Walk DataType) (id : NodeId) :
    a.declarationOf scope type id = a'.declarationOf scope type id := by
  unfold declarationOf
  rw [h.fetch_eq]

theorem typeNode_eq (h : a.Alike a') (type : NodeId → Walk DataType) (n : Node) :
    a.typeNode scope type n = a'.typeNode scope type n := by
  cases n <;> simp only [typeNode, h.declarationOf_eq]

theorem typeWithin_eq (h : a.Alike a') (fuel : Nat) :
    a.typeWithin scope fuel = a'.typeWithin scope fuel := by
  induction fuel with
  | zero => rfl
  | succ fuel ih =>
      funext id
      simp only [typeWithin, h.fetch_eq, h.typeNode_eq, ih]

/-- Expressions have the same types. -/
theorem typeOf_eq (h : a.Alike a') : a.typeOf scope = a'.typeOf scope := by
  funext id
  unfold typeOf
  rw [h.typeWithin_eq, h.walkLength_eq]

theorem integerWithin_eq (h : a.Alike a') (fuel : Nat) :
    a.integerWithin scope fuel = a'.integerWithin scope fuel := by
  induction fuel with
  | zero => rfl
  | succ fuel ih =>
      funext id
      simp only [integerWithin, h.get_eq, h.typeOf_eq, ih]

/-- The same expressions are integers. -/
theorem isInteger_eq (h : a.Alike a') : a.isInteger scope = a'.isInteger scope := by
  funext id
  unfold isInteger
  rw [h.integerWithin_eq, h.walkLength_eq]

end Alike

end ShaderLang.Arena
