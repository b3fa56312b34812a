/-
**What reading a program leaves is a forest.**

Whatever the tokens are, the nodes that are built form a forest, and the chain of the declarations
is one of its trees.  Nodes of declarations and statements that broke a rule stay in the arena
without a node that refers to them; they are trees as well.  So every walk over the nodes ends
without a fault, from the root and from every other node.

Main definitions:

* `ShaderLang.CompilationUnit.WellFormed` — a forest, and a root that is a chain of declarations;
* `ShaderLang.CompilationUnit.WalksEnd` — every walk from a node ends without a fault.

Main results:

* `ShaderLang.CompilationUnit.WellFormed.walksEnd`, `ShaderLang.CompilationUnit.WellFormed.outline_ends`
  — walks over a forest, and writing it out;
* `ShaderLang.CompilationUnit.ofTokens_wellFormed` — **reading any tokens leaves a well-formed
  compilation unit**.
-/

import ShaderLang.Compile
import ShaderLang.Proofs.Grammar.Programs

set_option relaxedAutoImplicit false
set_option autoImplicit false

namespace ShaderLang.CompilationUnit

open Arena

/-- The nodes form a forest, and the root is the chain of the declarations, to which no node
refers. -/
structure WellFormed (u : CompilationUnit) : Prop where
  forest : u.arena.Forest
  root_loose : ∀ id, u.root = some id → u.arena.Loose id
  root_chain : ∀ id, u.root = some id → u.arena.Plays id (.list .externals)

/-- Every walk from the node ends without a fault. -/
structure WalksEnd (a : Arena) (id : NodeId) : Prop where
  get : Ends (a.get id)
  fold : Ends (a.fold id)
  typeOf : ∀ scope, Ends (a.typeOf scope id)
  isInteger : ∀ scope, Ends (a.isInteger scope id)
  listItems : Ends (a.listItems id)
  semanticOf : Ends (a.semanticOf id)

theorem walksEnd_of_grounded {a : Arena} {id : NodeId} (h : a.Grounded id) : WalksEnd a id where
  get := h.get_ends
  fold := fold_ends h
  typeOf := fun _ => typeOf_ends h
  isInteger := fun _ => isInteger_ends h
  listItems := by
    obtain ⟨items, hitems, -⟩ := listItems_ends h
    exact ⟨items, hitems⟩
  semanticOf := semanticOf_ends h

variable {u : CompilationUnit}

/-! ### Writing out -/

/-- What is written below a node is numbered below it. -/
theorem below_ends {id : NodeId} {n : Node} (h : u.arena.Grounded id)
    (hn : u.arena.node? id = some n) (hbelow : u.arena.GroundedBelow id.index n) :
    ∃ inner, u.below id n = .ok inner ∧
      ∀ i ∈ inner, u.arena.Grounded i ∧ i.index < id.index := by
  unfold CompilationUnit.below
  split
  · next link hlink =>
      obtain ⟨items, hitems, hall⟩ := listItems_ends h
      refine ⟨items, hitems, ?_⟩
      intro i hi
      obtain ⟨hground, hlt | ⟨-, hnone⟩⟩ := hall i hi
      · exact ⟨hground, hlt⟩
      · -- a link is not an item of its own chain
        rw [hnone n hn] at hlink
        contradiction
  · exact ⟨n.children, rfl, hbelow⟩

theorem outlineWithin_ends (fuel : Nat) : ∀ (depth : Nat) (id : NodeId), u.arena.Grounded id →
    id.index < fuel → Ends (u.outlineWithin fuel depth id) := by
  induction fuel with
  | zero =>
      intro depth id _ hid
      exact absurd hid (Nat.not_lt_zero _)
  | succ fuel ih =>
      intro depth id h hid
      obtain ⟨n, hn, hbelow⟩ := h.exists_node
      obtain ⟨inner, hinner, hall⟩ := below_ends h hn hbelow
      have hlines : Ends (inner.mapM (u.outlineWithin fuel (depth + 1))) := by
        refine Ends.mapM fun i hi => ?_
        obtain ⟨hground, hlt⟩ := hall i hi
        exact ih (depth + 1) i hground (Nat.lt_of_lt_of_le hlt (Nat.le_of_lt_succ hid))
      rw [outlineWithin]
      refine Ends.bind ⟨n, get_of_node? hn⟩ fun m hm => ?_
      obtain rfl := Except.ok.inj ((get_of_node? hn).symm.trans hm)
      refine Ends.bind ⟨inner, hinner⟩ fun is his => ?_
      obtain rfl := Except.ok.inj (hinner.symm.trans his)
      exact hlines.bind fun _ _ => ⟨_, rfl⟩

namespace WellFormed

/-- Every node of a well-formed unit is grounded, so every walk from it ends. -/
theorem walksEnd (h : u.WellFormed) {id : NodeId} (hid : id.index < u.arena.size) :
    WalksEnd u.arena id :=
  walksEnd_of_grounded (h.forest.grounded hid)

theorem declarations_ends (h : u.WellFormed) :
    ∃ ids, u.declarations = .ok ids ∧ ∀ id ∈ ids, u.arena.Grounded id := by
  unfold declarations
  cases hroot : u.root with
  | none => exact ⟨[], rfl, by simp⟩
  | some root =>
      obtain ⟨items, hitems, hall⟩ :=
        listItems_ends (h.forest.grounded (h.root_chain root hroot).lt_size)
      exact ⟨items, hitems, fun i hi => (hall i hi).1⟩

/-- A well-formed unit can be written out. -/
theorem outline_ends (h : u.WellFormed) : Ends u.outline := by
  obtain ⟨ids, hids, hall⟩ := h.declarations_ends
  have hlines : Ends (ids.mapM (u.outlineWithin u.arena.walkLength 0)) := by
    refine Ends.mapM fun id hid => ?_
    exact outlineWithin_ends _ 0 id (hall id hid) (walkLength_gt (hall id hid))
  have houtline : Ends u.outlineLines := by
    refine Ends.bind ⟨ids, hids⟩ fun is his => ?_
    obtain rfl := Except.ok.inj (hids.symm.trans his)
    exact hlines.bind fun _ _ => ⟨_, rfl⟩
  exact houtline.bind fun _ _ => ⟨_, rfl⟩

end WellFormed

/-! ### Reading a program -/

theorem wellFormed_finish {b : Builder} {root : Option NodeId}
    (h : b.arena.Holds (Grammar.sequence .externals root)) : (b.finish root).WellFormed where
  forest := h.forest
  root_loose := by
    rintro id rfl
    exact h.loose _ (List.mem_singleton.2 rfl)
  root_chain := by
    rintro id rfl
    exact h.roles _ (List.mem_singleton.2 rfl)

/-- **Reading any tokens leaves a well-formed compilation unit**: every node has the number of its
place, refers only to older nodes, to none that another node refers to and to each in its role; the
root is the chain of the declarations and belongs to no other node; and every walk over the nodes
ends without a fault. -/
theorem ofTokens_wellFormed (tokens : TokenStream) (o : Options) :
    ∃ u, ofTokens tokens o = .ok u ∧ u.WellFormed ∧
      (∀ id : NodeId, id.index < u.arena.size → WalksEnd u.arena id) ∧
      Ends u.declarations ∧ Ends u.outline := by
  obtain ⟨root, t, hp, -, -, hholds⟩ := Grammar.program_ends (s := .start tokens o) rfl
  have hwf : (t.builder.finish root).WellFormed := wellFormed_finish hholds
  obtain ⟨ids, hids, -⟩ := hwf.declarations_ends
  refine ⟨t.builder.finish root, ?_, hwf, fun id hid => hwf.walksEnd hid, ⟨ids, hids⟩,
    hwf.outline_ends⟩
  unfold ofTokens
  rw [hp]

end ShaderLang.CompilationUnit
