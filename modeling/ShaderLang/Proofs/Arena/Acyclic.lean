/-
**Walks over nodes that do not refer to each other in a circle.**

Walks over an arena are counted: each looks only so many nodes deep, so that it ends on every arena,
also on one whose nodes refer to each other in a circle.  Where there is no circle the count never
matters.  The nodes that can be reached from a node are fewer than those that can be reached from
what refers to it, so a walk is done before the count is, and the answer at a node follows from the
answers at the nodes below it and from nothing else.

Main definitions:

* `ShaderLang.Arena.Refers`, `ShaderLang.Arena.Below` — one node refers to another, directly or
  through others;
* `ShaderLang.Arena.Acyclic`, `ShaderLang.Arena.isDescending` — no node is below itself, and a check
  that is enough for it;
* `ShaderLang.Arena.height` — how many nodes can be reached from a node;
* `ShaderLang.Arena.value`, `ShaderLang.Arena.typing` — folding and typing as walks.

Main results:

* `ShaderLang.Arena.Acyclic.height_lt` — what is below a node has a lesser height;
* `ShaderLang.Arena.Acyclic.value_eq`, `ShaderLang.Arena.Acyclic.typing_eq`,
  `ShaderLang.Arena.Acyclic.isInteger_eq` — **without circles the walks are recursions over the
  nodes below**.
-/

import Mathlib.Data.Finset.Card
import Mathlib.Data.Finset.Range
import Mathlib.Logic.Relation
import ShaderLang.Proofs.Arena.Walks

set_option relaxedAutoImplicit false
set_option autoImplicit false

namespace ShaderLang.Arena

variable {α : Type} {a : Arena}

/-! ### Nodes below a node -/

/-- The first node refers to the second one. -/
def Refers (a : Arena) (parent child : NodeId) : Prop :=
  ∃ n, a.node? parent = some n ∧ child ∈ n.children

/-- The first node refers to the second one, directly or through others. -/
def Below (a : Arena) : NodeId → NodeId → Prop := Relation.TransGen a.Refers

/-- No node refers to itself, directly or through others. -/
def Acyclic (a : Arena) : Prop := ∀ id, ¬ a.Below id id

theorem Refers.below {parent child : NodeId} (h : a.Refers parent child) : a.Below parent child :=
  .single h

/-- A node in the arena refers to its children. -/
theorem refers_of_node? {id c : NodeId} {n : Node} (h : a.node? id = some n)
    (hc : c ∈ n.children) : a.Refers id c :=
  ⟨n, h, hc⟩

/-- Where nodes refer to older ones only, what is below a node is older. -/
theorem index_lt_of_older (h : a.Descending) {id c : NodeId} (hc : a.Below id c) :
    c.index < id.index := by
  induction hc with
  | single hr =>
      obtain ⟨n, hn, hc⟩ := hr
      exact h _ n hn _ hc
  | tail _ hr ih =>
      obtain ⟨n, hn, hc⟩ := hr
      exact Nat.lt_trans (h _ n hn _ hc) ih

/-- Nodes that refer to older ones only do not refer to each other in a circle. -/
theorem acyclic_of_older (h : a.Descending) : a.Acyclic :=
  fun _ hid => absurd (index_lt_of_older h hid) (Nat.lt_irrefl _)

theorem Forest.index_lt (h : a.Forest) {id c : NodeId} (hc : a.Below id c) : c.index < id.index :=
  index_lt_of_older h.below hc

theorem Forest.acyclic (h : a.Forest) : a.Acyclic := acyclic_of_older h.below

/-- All nodes refer to older ones only. -/
def isDescending (a : Arena) : Bool :=
  (List.range a.size).all fun i =>
    match a.node? ⟨i⟩ with
    | some n => n.children.all fun c => c.index < i
    | none => true

theorem acyclic_of_isDescending (h : a.isDescending = true) : a.Acyclic := by
  refine acyclic_of_older fun id n hn c hc => ?_
  have hid := List.all_eq_true.1 h id.index (List.mem_range.2 (lt_size_of_node? hn))
  rw [show a.node? ⟨id.index⟩ = some n from hn] at hid
  exact of_decide_eq_true (List.all_eq_true.1 hid c hc)

/-! ### Heights -/

open Classical in
/-- The places of the nodes that can be reached from a node, the node itself among them. -/
noncomputable def reached (a : Arena) (id : NodeId) : Finset Nat :=
  (Finset.range a.size).filter fun i => Relation.ReflTransGen a.Refers id ⟨i⟩

/-- How many nodes can be reached from a node. -/
noncomputable def height (a : Arena) (id : NodeId) : Nat := (a.reached id).card

theorem mem_reached {id : NodeId} {i : Nat} :
    i ∈ a.reached id ↔ i < a.size ∧ Relation.ReflTransGen a.Refers id ⟨i⟩ := by
  simp [reached]

theorem height_lt_walkLength (a : Arena) (id : NodeId) : a.height id < a.walkLength := by
  have hsub : a.reached id ⊆ Finset.range a.size :=
    fun _ hi => Finset.mem_range.2 (mem_reached.1 hi).1
  have hle := Finset.card_le_card hsub
  rw [Finset.card_range] at hle
  exact Nat.lt_succ_of_le hle

namespace Acyclic

/-- What is below a node has a lesser height. -/
theorem height_lt (ha : a.Acyclic) {id c : NodeId} (h : a.Below id c) :
    a.height c < a.height id := by
  refine Finset.card_lt_card (Finset.ssubset_iff_of_subset ?_ |>.2 ⟨id.index, ?_, ?_⟩)
  · intro i hi
    obtain ⟨hlt, hreach⟩ := mem_reached.1 hi
    exact mem_reached.2 ⟨hlt, h.to_reflTransGen.trans hreach⟩
  · -- a node that refers to another one is there
    obtain ⟨child, ⟨n, hn, -⟩, -⟩ := Relation.TransGen.head'_iff.1 h
    exact mem_reached.2 ⟨lt_size_of_node? hn, .refl⟩
  · intro hid
    exact ha id (h.trans_left (mem_reached.1 hid).2)

/-- Induction on the nodes below a node. -/
theorem induction (ha : a.Acyclic) {P : NodeId → Prop}
    (step : ∀ id, (∀ c, a.Below id c → P c) → P id) (id : NodeId) : P id := by
  induction hheight : a.height id using Nat.strongRecOn generalizing id with
  | ind k ih =>
      subst hheight
      exact step id fun c hc => ih _ (ha.height_lt hc) c rfl

end Acyclic

/-! ### Walks look at nodes below only -/

theorem run_fetch_of_none {id : NodeId} (hn : a.node? id = none) :
    (a.fetch id).run = .error (.outside id a.size) := by
  show (a.get id).map some = _
  simp only [get, hn]
  rfl

/-- A walk goes on with the node that is there. -/
theorem run_fetch_bind {id : NodeId} {n : Node} (hn : a.node? id = some n) (f : Node → Walk α) :
    (a.fetch id >>= f).run = (f n).run := by
  have hfetch : (a.fetch id).run = .ok (some n) := by
    show (a.get id).map some = _
    rw [get_of_node? hn]
    rfl
  rw [Walk.run_bind, hfetch]

/-- What happens at a node that is fetched depends only on what the arena holds. -/
theorem fetch_bind_congr {id : NodeId} {f g : Node → Walk α}
    (h : ∀ n, a.node? id = some n → f n = g n) : (a.fetch id >>= f) = (a.fetch id >>= g) := by
  refine OptionT.ext ?_
  cases hn : a.node? id with
  | none => rw [Walk.run_bind, Walk.run_bind, run_fetch_of_none hn]
  | some n => rw [run_fetch_bind hn, run_fetch_bind hn, h n hn]

theorem foldConversion_congr {f g : NodeId → Walk Constant} {type : DataType} {operand : NodeId}
    (h : f operand = g operand) : foldConversion f type operand = foldConversion g type operand := by
  unfold foldConversion
  rw [h]

/-- The value of a node needs only the values of nodes below it. -/
theorem foldNode_congr {f g : NodeId → Walk Constant} {id : NodeId} {n : Node}
    (hn : a.node? id = some n) (h : ∀ c, a.Below id c → f c = g c) :
    a.foldNode f n = a.foldNode g n := by
  have hchild : ∀ c ∈ n.children, f c = g c := fun c hc => h c (refers_of_node? hn hc).below
  unfold foldNode
  split
  case h_4 => rw [hchild _ (by simp [Node.children])]
  case h_5 => exact hchild _ (by simp [Node.children])
  case h_6 => rw [hchild _ (by simp [Node.children])]
  case h_7 => exact foldConversion_congr (hchild _ (by simp [Node.children]))
  case h_8 type list =>
      split
      · refine fetch_bind_congr fun m hm => ?_
        -- the only argument is two steps below the node
        split
        · next argument harg =>
            have hlist : a.Refers id list := refers_of_node? hn (by simp [Node.children])
            have hargument : argument ∈ m.children := mem_children_of_soleArgument harg
            exact foldConversion_congr
              (h _ (hlist.below.tail (refers_of_node? hm hargument)))
        · rfl
      · rfl
  case h_9 =>
      rw [hchild _ (List.mem_cons_self ..), hchild _ (by simp [Node.children])]
  case h_10 condition yes no =>
      rw [hchild condition (by simp [Node.children]), hchild yes (by simp [Node.children]),
        hchild no (by simp [Node.children])]
  case h_11 op target right =>
      rw [hchild target (by simp [Node.children]), hchild right (by simp [Node.children])]
  case h_12 => exact hchild _ (by simp [Node.children])
  all_goals rfl

variable {scope : Scope}

theorem declarationOf_congr {f g : NodeId → Walk DataType} {id : NodeId}
    (h : ∀ c, a.Refers id c → f c = g c) :
    a.declarationOf scope f id = a.declarationOf scope g id := by
  refine fetch_bind_congr fun n hn => ?_
  split
  · rfl
  · rw [h _ (refers_of_node? hn (by simp [Node.children]))]
  · rfl

/-- The type of a node needs only the types of nodes below it. -/
theorem typeNode_congr {f g : NodeId → Walk DataType} {id : NodeId} {n : Node}
    (hn : a.node? id = some n) (h : ∀ c, a.Below id c → f c = g c) :
    a.typeNode scope f n = a.typeNode scope g n := by
  have hchild : ∀ c ∈ n.children, f c = g c := fun c hc => h c (refers_of_node? hn hc).below
  unfold typeNode
  split
  case h_6 array position =>
      have harray : a.Refers id array := refers_of_node? hn (by simp [Node.children])
      rw [hchild array (by simp [Node.children]),
        declarationOf_congr fun c hc => h c (harray.below.tail hc)]
  case h_7 => exact hchild _ (by simp [Node.children])
  case h_8 => rw [hchild _ (by simp [Node.children])]
  case h_9 => exact hchild _ (by simp [Node.children])
  case h_12 op left right =>
      rw [hchild left (by simp [Node.children]), hchild right (by simp [Node.children])]
  case h_13 condition yes no =>
      rw [hchild yes (by simp [Node.children]), hchild no (by simp [Node.children])]
  case h_14 op target value => exact hchild target (by simp [Node.children])
  case h_15 left right => exact hchild right (by simp [Node.children])
  case h_16 base field => rw [hchild base (by simp [Node.children])]
  all_goals rfl

/-- Whether a node is an integer needs only the answers at nodes below it. -/
theorem integerNode_congr {f g : NodeId → Except Fault Bool} {self : Unit → Except Fault Bool}
    {n : Node} (h : ∀ c ∈ n.children, f c = g c) : integerNode self f n = integerNode self g n := by
  unfold integerNode
  split
  case h_6 => exact h _ (by simp [Node.children])
  case h_8 => exact h _ (by simp [Node.children])
  case h_11 op left right =>
      rw [h left (by simp [Node.children]), h right (by simp [Node.children])]
  case h_12 condition yes no =>
      rw [h yes (by simp [Node.children]), h no (by simp [Node.children])]
  case h_13 op target value => exact h target (by simp [Node.children])
  case h_14 left right => exact h right (by simp [Node.children])
  all_goals rfl

/-! ### Walks without a count -/

/-- The value of an expression, as a walk. -/
def value (a : Arena) (id : NodeId) : Walk Constant := a.foldWithin a.walkLength id

/-- The type of an expression, as a walk. -/
def typing (a : Arena) (scope : Scope) (id : NodeId) : Walk DataType :=
  a.typeWithin scope a.walkLength id

@[simp] theorem run_value (a : Arena) (id : NodeId) : (a.value id).run = a.fold id := rfl

@[simp] theorem run_typing (a : Arena) (scope : Scope) (id : NodeId) :
    (a.typing scope id).run = a.typeOf scope id := rfl

namespace Acyclic

/-- Any count above the height of a node is as good as any other. -/
theorem foldWithin_eq (ha : a.Acyclic) {k m : Nat} {id : NodeId} (hk : a.height id < k)
    (hm : a.height id < m) : a.foldWithin k id = a.foldWithin m id := by
  induction k generalizing m id with
  | zero => exact absurd hk (Nat.not_lt_zero _)
  | succ k ih =>
      obtain ⟨m, rfl⟩ : ∃ j, m = j + 1 := ⟨m - 1, by omega⟩
      rw [foldWithin, foldWithin]
      refine fetch_bind_congr fun n hn => foldNode_congr hn fun c hc => ?_
      have hlt := ha.height_lt hc
      exact ih (by omega) (by omega)

theorem typeWithin_eq (ha : a.Acyclic) {k m : Nat} {id : NodeId} (hk : a.height id < k)
    (hm : a.height id < m) : a.typeWithin scope k id = a.typeWithin scope m id := by
  induction k generalizing m id with
  | zero => exact absurd hk (Nat.not_lt_zero _)
  | succ k ih =>
      obtain ⟨m, rfl⟩ : ∃ j, m = j + 1 := ⟨m - 1, by omega⟩
      rw [typeWithin, typeWithin]
      refine fetch_bind_congr fun n hn => typeNode_congr hn fun c hc => ?_
      have hlt := ha.height_lt hc
      exact ih (by omega) (by omega)

theorem integerWithin_eq (ha : a.Acyclic) {k m : Nat} {id : NodeId} (hk : a.height id < k)
    (hm : a.height id < m) : a.integerWithin scope k id = a.integerWithin scope m id := by
  induction k generalizing m id with
  | zero => exact absurd hk (Nat.not_lt_zero _)
  | succ k ih =>
      obtain ⟨m, rfl⟩ : ∃ j, m = j + 1 := ⟨m - 1, by omega⟩
      rw [integerWithin, integerWithin]
      cases hn : a.node? id with
      | none => simp only [get, hn]
      | some n =>
          rw [get_of_node? hn]
          refine integerNode_congr fun c hc => ?_
          have hlt := ha.height_lt (refers_of_node? hn hc).below
          exact ih (by omega) (by omega)

/-- **Without circles folding is a recursion over the nodes below.** -/
theorem value_eq (ha : a.Acyclic) (id : NodeId) :
    a.value id = a.fetch id >>= fun n => a.foldNode a.value n := by
  have hlt := height_lt_walkLength a id
  unfold value
  rw [ha.foldWithin_eq hlt (Nat.lt_succ_of_lt hlt)]
  rfl

/-- **Without circles typing is a recursion over the nodes below.** -/
theorem typing_eq (ha : a.Acyclic) (id : NodeId) :
    a.typing scope id = a.fetch id >>= fun n => a.typeNode scope (a.typing scope) n := by
  have hlt := height_lt_walkLength a id
  unfold typing
  rw [ha.typeWithin_eq hlt (Nat.lt_succ_of_lt hlt)]
  rfl

/-- **Without circles the question for integers is a recursion over the nodes below.** -/
theorem isInteger_eq (ha : a.Acyclic) {id : NodeId} {n : Node} (hn : a.node? id = some n) :
    a.isInteger scope id =
      integerNode (fun _ => (a.typeOf scope id).map fun t => t.any DataType.isInteger)
        (a.isInteger scope) n := by
  have hlt := height_lt_walkLength a id
  unfold isInteger
  rw [ha.integerWithin_eq hlt (Nat.lt_succ_of_lt hlt), integerWithin, get_of_node? hn]

/-- The value of a node that is there. -/
theorem fold_eq (ha : a.Acyclic) {id : NodeId} {n : Node} (hn : a.node? id = some n) :
    a.fold id = (a.foldNode a.value n).run := by
  rw [← run_value, ha.value_eq, run_fetch_bind hn]

/-- The type of a node that is there. -/
theorem typeOf_eq (ha : a.Acyclic) {id : NodeId} {n : Node} (hn : a.node? id = some n) :
    a.typeOf scope id = (a.typeNode scope (a.typing scope) n).run := by
  rw [← run_typing, ha.typing_eq, run_fetch_bind hn]

end Acyclic

/-- Only a node that is there folds. -/
theorem exists_node?_of_fold {id : NodeId} {o : Option Constant} (h : a.fold id = .ok o) :
    ∃ n, a.node? id = some n := by
  cases hn : a.node? id with
  | some n => exact ⟨n, rfl⟩
  | none =>
      rw [fold, walkLength, foldWithin, Walk.run_bind, run_fetch_of_none hn] at h
      contradiction

/-- Only of a node that is there the question for integers has an answer. -/
theorem exists_node?_of_isInteger {id : NodeId} {o : Bool} (h : a.isInteger scope id = .ok o) :
    ∃ n, a.node? id = some n := by
  cases hn : a.node? id with
  | some n => exact ⟨n, rfl⟩
  | none =>
      rw [isInteger, walkLength, integerWithin] at h
      simp only [get, hn] at h
      contradiction

end ShaderLang.Arena
