/-
**Walks come to an end.**

A walk may look at as many nodes as there are, one below the other.  Where every node refers only to
older ones that are there, a walk from a node with number `n` needs at most `n + 1` steps, so it
neither leaves the arena nor runs in a circle.

Main definitions:

* `ShaderLang.Arena.Grounded`, `ShaderLang.Arena.Descending` — all below a node is there and older
  than what refers to it, and this of all nodes;
* `ShaderLang.Ends` — a computation meets no fault.

Main results:

* `ShaderLang.Arena.Forest.grounded` — in a forest every node is grounded;
* `ShaderLang.Arena.fold_ends`, `ShaderLang.Arena.typeOf_ends`, `ShaderLang.Arena.isInteger_ends`,
  `ShaderLang.Arena.listItems_ends`, `ShaderLang.Arena.semanticOf_ends` — **every walk from a
  grounded node ends without a fault**.
-/

import ShaderLang.Proofs.Arena.Forest
import ShaderLang.Static.Typing

set_option relaxedAutoImplicit false
set_option autoImplicit false

namespace ShaderLang

variable {α β : Type}

/-! ### Computations without a fault -/

/-- The computation meets no fault. -/
def Ends (x : Except Fault α) : Prop := ∃ v, x = .ok v

theorem Ends.map {x : Except Fault α} (h : Ends x) (f : α → β) : Ends (x.map f) := by
  obtain ⟨v, rfl⟩ := h
  exact ⟨f v, rfl⟩

theorem Ends.bind {x : Except Fault α} {f : α → Except Fault β} (h : Ends x)
    (hf : ∀ v, x = .ok v → Ends (f v)) : Ends (x >>= f) := by
  obtain ⟨v, rfl⟩ := h
  exact hf v rfl

/-- A list of computations without a fault has none. -/
theorem Ends.mapM {f : α → Except Fault β} {l : List α} (h : ∀ x ∈ l, Ends (f x)) :
    Ends (l.mapM f) := by
  induction l with
  | nil => exact ⟨[], rfl⟩
  | cons x l ih =>
      rw [List.mapM_cons]
      refine (h x (List.mem_cons_self ..)).bind fun v _ => ?_
      refine (ih fun y hy => h y (List.mem_cons_of_mem _ hy)).bind fun vs _ => ?_
      exact ⟨v :: vs, rfl⟩

namespace Walk

/-- The walk meets no fault. -/
def Safe (w : Walk α) : Prop := Ends w.run

theorem safe_pure (a : α) : (pure a : Walk α).Safe := ⟨some a, rfl⟩

theorem safe_failure : (failure : Walk α).Safe := ⟨none, rfl⟩

theorem safe_ofOption (a : Option α) : (ofOption a).Safe := ⟨a, rfl⟩

theorem Safe.attempt {w : Walk α} (h : w.Safe) : w.attempt.Safe := Ends.map h some

theorem Safe.bind {w : Walk α} {f : α → Walk β} (h : w.Safe) (hf : ∀ v, (f v).Safe) :
    (w >>= f).Safe := by
  obtain ⟨o, ho⟩ := h
  unfold Safe
  rw [run_bind, ho]
  cases o with
  | none => exact ⟨none, rfl⟩
  | some v => exact hf v

theorem run_failure_ne {x : α} : (failure : Walk α).run ≠ .ok (some x) :=
  fun h => Option.some_ne_none x (Except.ok.inj h).symm

/-- Walks in a row have an answer if each has one. -/
theorem run_bind_eq_some {w : Walk α} {f : α → Walk β} {y : β} :
    (w >>= f).run = .ok (some y) ↔ ∃ x, w.run = .ok (some x) ∧ (f x).run = .ok (some y) := by
  rw [run_bind]
  rcases w.run with e | (_ | x) <;> simp

/-- An attempt answers with what the walk comes to. -/
theorem run_attempt_eq_some {w : Walk α} {o : Option α} :
    w.attempt.run = .ok (some o) ↔ w.run = .ok o := by
  rw [run_attempt]
  rcases w.run with e | o' <;> simp [Except.map]

end Walk

namespace Arena

/-! ### Grounded nodes -/

/-- All below the node is there and older than what refers to it. -/
inductive Grounded (a : Arena) : NodeId → Prop where
  | node {id : NodeId} {n : Node} (here : a.node? id = some n)
      (below : ∀ c ∈ n.children, c.index < id.index)
      (grounded : ∀ c ∈ n.children, Grounded a c) : Grounded a id

/-- Nodes refer to older ones only. -/
def Descending (a : Arena) : Prop :=
  ∀ id n, a.node? id = some n → ∀ c ∈ n.children, c.index < id.index

/-- Where nodes refer to older ones only, every node is grounded. -/
theorem Descending.grounded {a : Arena} (h : a.Descending) {id : NodeId} (hid : id.index < a.size) :
    a.Grounded id := by
  obtain ⟨i⟩ := id
  induction i using Nat.strongRecOn with
  | ind i ih =>
      obtain ⟨n, hn⟩ := exists_node?_of_lt hid
      refine .node hn (h _ n hn) ?_
      intro c hc
      have hlt := h _ n hn c hc
      exact ih c.index hlt (Nat.lt_trans hlt hid)

/-- In a forest every node is grounded. -/
theorem Forest.grounded {a : Arena} (h : a.Forest) {id : NodeId} (hid : id.index < a.size) :
    a.Grounded id :=
  Descending.grounded h.below hid

variable {a : Arena}

theorem Grounded.lt_size {id : NodeId} (h : a.Grounded id) : id.index < a.size := by
  cases h with
  | node here below grounded => exact lt_size_of_node? here

theorem Grounded.get_ends {id : NodeId} (h : a.Grounded id) : Ends (a.get id) := by
  cases h with
  | node here below grounded => exact ⟨_, get_of_node? here⟩

/-- The nodes below a grounded node are numbered below it and grounded themselves. -/
def GroundedBelow (a : Arena) (bound : Nat) (n : Node) : Prop :=
  ∀ c ∈ n.children, a.Grounded c ∧ c.index < bound

theorem Grounded.exists_node {id : NodeId} (h : a.Grounded id) :
    ∃ n, a.node? id = some n ∧ a.GroundedBelow id.index n := by
  cases h with
  | node here below grounded => exact ⟨_, here, fun c hc => ⟨grounded c hc, below c hc⟩⟩

theorem GroundedBelow.mono {m k : Nat} {n : Node} (h : a.GroundedBelow m n) (hmk : m ≤ k) :
    a.GroundedBelow k n :=
  fun c hc => ⟨(h c hc).1, Nat.lt_of_lt_of_le (h c hc).2 hmk⟩

/-- The nodes below a node that is fetched are below it. -/
theorem Grounded.fetch_bind {id : NodeId} (h : a.Grounded id) {f : Node → Walk α}
    (hf : ∀ n, a.GroundedBelow id.index n → (f n).Safe) : (a.fetch id >>= f).Safe := by
  obtain ⟨n, hn, hbelow⟩ := h.exists_node
  have hfetch : (a.fetch id).run = .ok (some n) := by
    show (a.get id).map some = _
    rw [get_of_node? hn]
    rfl
  unfold Walk.Safe
  rw [Walk.run_bind, hfetch]
  exact hf n hbelow

/-! ### The value of an expression -/

/-- A walk that is safe at the nodes below a bound. -/
def SafeBelow (a : Arena) (bound : Nat) (walk : NodeId → Walk α) : Prop :=
  ∀ c, a.Grounded c → c.index < bound → (walk c).Safe

theorem SafeBelow.child {bound : Nat} {walk : NodeId → Walk α} {n : Node}
    (hw : a.SafeBelow bound walk) (hn : a.GroundedBelow bound n) {c : NodeId}
    (hc : c ∈ n.children) : (walk c).Safe :=
  hw c (hn c hc).1 (hn c hc).2

theorem foldConversion_safe {value : NodeId → Walk Constant} {type : DataType} {operand : NodeId}
    (h : (value operand).Safe) : (foldConversion value type operand).Safe := by
  unfold foldConversion
  split
  · exact h.bind fun _ => Walk.safe_ofOption _
  · exact Walk.safe_failure

theorem mem_children_of_soleArgument {n : Node} {argument : NodeId}
    (h : soleArgument n = some argument) : argument ∈ n.children := by
  unfold soleArgument at h
  split at h
  · obtain rfl := Option.some.inj h
    simp [Node.children]
  · contradiction

/-- The value of a node needs only values of nodes below it. -/
theorem foldNode_safe {value : NodeId → Walk Constant} {bound : Nat} {n : Node}
    (hv : a.SafeBelow bound value) (hn : a.GroundedBelow bound n) : (a.foldNode value n).Safe := by
  unfold foldNode
  split
  case h_1 => exact Walk.safe_pure _
  case h_2 => exact Walk.safe_pure _
  case h_3 => exact Walk.safe_pure _
  case h_4 direction operand =>
      exact (hv.child hn (by simp [Node.children])).bind fun _ => Walk.safe_pure _
  case h_5 direction operand => exact hv.child hn (by simp [Node.children])
  case h_6 op operand =>
      exact (hv.child hn (by simp [Node.children])).bind fun _ => Walk.safe_ofOption _
  case h_7 type operand => exact foldConversion_safe (hv.child hn (by simp [Node.children]))
  case h_8 type list =>
      have hlist := hn list (by simp [Node.children])
      split
      · refine hlist.1.fetch_bind fun m hm => ?_
        -- the only argument is two steps below the node
        split
        · next argument harg =>
            exact foldConversion_safe
              (hv.child (hm.mono (Nat.le_of_lt hlist.2)) (mem_children_of_soleArgument harg))
        · exact Walk.safe_failure
      · exact Walk.safe_failure
  case h_9 op left right =>
      refine (hv.child hn (by simp [Node.children])).bind fun _ => ?_
      exact (hv.child hn (by simp [Node.children])).bind fun _ => Walk.safe_ofOption _
  case h_10 condition yes no =>
      refine (hv.child hn (by simp [Node.children])).bind fun c => ?_
      split
      · exact hv.child hn (by simp [Node.children])
      · exact hv.child hn (by simp [Node.children])
  case h_11 op target right =>
      refine (hv.child hn (by simp [Node.children])).bind fun _ => ?_
      exact (hv.child hn (by simp [Node.children])).bind fun _ => Walk.safe_ofOption _
  case h_12 left right => exact hv.child hn (by simp [Node.children])
  case h_13 => exact Walk.safe_failure

theorem foldWithin_safe (fuel : Nat) : a.SafeBelow fuel (a.foldWithin fuel) := by
  induction fuel with
  | zero =>
      intro id _ hid
      exact absurd hid (Nat.not_lt_zero _)
  | succ fuel ih =>
      intro id h hid
      rw [foldWithin]
      exact h.fetch_bind fun n hn => foldNode_safe ih (hn.mono (Nat.le_of_lt_succ hid))

theorem walkLength_gt {id : NodeId} (h : a.Grounded id) : id.index < a.walkLength :=
  Nat.lt_succ_of_lt h.lt_size

/-- **Folding a grounded node ends without a fault.** -/
theorem fold_ends {id : NodeId} (h : a.Grounded id) : Ends (a.fold id) :=
  foldWithin_safe a.walkLength id h (walkLength_gt h)

/-- Folding an integer literal gives its constant. -/
theorem fold_of_int {id : NodeId} {value : UInt64} {isUnsigned : Bool}
    (here : a.node? id = some (.int value isUnsigned)) :
    a.fold id = .ok (some (IntegerLiteral.constant ⟨value, isUnsigned⟩)) := by
  unfold fold walkLength
  rw [foldWithin, fetch, get_of_node? here]
  rfl

/-! ### The type of an expression -/

variable {scope : Scope}

theorem declarationOf_safe {type : NodeId → Walk DataType} {bound : Nat} {id : NodeId}
    (ht : a.SafeBelow bound type) (h : a.Grounded id) (hid : id.index < bound) :
    (a.declarationOf scope type id).Safe := by
  unfold declarationOf
  refine h.fetch_bind fun n hn => ?_
  split
  · exact Walk.safe_ofOption _
  · refine (ht.child (hn.mono (Nat.le_of_lt hid)) (by simp [Node.children])).bind fun _ => ?_
    exact Walk.safe_ofOption _
  · exact Walk.safe_failure

/-- The type of a node needs only types of nodes below it. -/
theorem typeNode_safe {type : NodeId → Walk DataType} {bound : Nat} {n : Node}
    (ht : a.SafeBelow bound type) (hn : a.GroundedBelow bound n) :
    (a.typeNode scope type n).Safe := by
  unfold typeNode
  split
  case h_1 => exact Walk.safe_pure _
  case h_2 => exact Walk.safe_pure _
  case h_3 => exact Walk.safe_pure _
  case h_4 => exact Walk.safe_pure _
  case h_5 => exact Walk.safe_ofOption _
  case h_6 array position =>
      have harray := hn array (by simp [Node.children])
      refine (declarationOf_safe ht harray.1 harray.2).attempt.bind fun d => ?_
      split
      · exact Walk.safe_pure _
      · exact (ht array harray.1 harray.2).bind fun _ => Walk.safe_pure _
  case h_7 placement direction operand => exact ht.child hn (by simp [Node.children])
  case h_8 operand =>
      exact (ht.child hn (by simp [Node.children])).attempt.bind fun _ => Walk.safe_pure _
  case h_9 op operand _ => exact ht.child hn (by simp [Node.children])
  case h_10 => exact Walk.safe_pure _
  case h_11 => exact Walk.safe_pure _
  case h_12 op left right =>
      split
      · exact Walk.safe_pure _
      · refine (ht.child hn (by simp [Node.children])).bind fun _ => ?_
        exact (ht.child hn (by simp [Node.children])).bind fun _ => Walk.safe_ofOption _
  case h_13 condition yes no =>
      refine (ht.child hn (by simp [Node.children])).attempt.bind fun t => ?_
      split
      · exact Walk.safe_pure _
      · exact ht.child hn (by simp [Node.children])
  case h_14 op target value => exact ht.child hn (by simp [Node.children])
  case h_15 left right => exact ht.child hn (by simp [Node.children])
  case h_16 base field =>
      exact (ht.child hn (by simp [Node.children])).bind fun _ => Walk.safe_ofOption _
  case h_17 => exact Walk.safe_failure

theorem typeWithin_safe (fuel : Nat) : a.SafeBelow fuel (a.typeWithin scope fuel) := by
  induction fuel with
  | zero =>
      intro id _ hid
      exact absurd hid (Nat.not_lt_zero _)
  | succ fuel ih =>
      intro id h hid
      rw [typeWithin]
      exact h.fetch_bind fun n hn => typeNode_safe ih (hn.mono (Nat.le_of_lt_succ hid))

/-- **Finding the type of a grounded node ends without a fault.** -/
theorem typeOf_ends {id : NodeId} (h : a.Grounded id) : Ends (a.typeOf scope id) :=
  typeWithin_safe a.walkLength id h (walkLength_gt h)

/-! ### Integer expressions -/

theorem bothHold_ends {first : Except Fault Bool} {second : Unit → Except Fault Bool}
    (h : Ends first) (h' : Ends (second ())) : Ends (bothHold first second) := by
  obtain ⟨answer, rfl⟩ := h
  cases answer with
  | true => exact h'
  | false => exact ⟨false, rfl⟩

/-- Whether a node is an integer depends on its type and on the nodes below it. -/
theorem integerNode_ends {self : Unit → Except Fault Bool} {integer : NodeId → Except Fault Bool}
    {n : Node} (hs : Ends (self ())) (hi : ∀ c ∈ n.children, Ends (integer c)) :
    Ends (integerNode self integer n) := by
  unfold integerNode
  split
  case h_4 => exact hs
  case h_3 => exact hs
  case h_5 => exact hs
  case h_6 placement direction operand => exact hi operand (by simp [Node.children])
  case h_8 op operand _ => exact hi operand (by simp [Node.children])
  case h_11 op left right =>
      split
      · exact ⟨true, rfl⟩
      · exact bothHold_ends (hi left (by simp [Node.children])) (hi right (by simp [Node.children]))
  case h_12 condition yes no =>
      exact bothHold_ends (hi yes (by simp [Node.children])) (hi no (by simp [Node.children]))
  case h_13 op target value => exact hi target (by simp [Node.children])
  case h_14 left right => exact hi right (by simp [Node.children])
  all_goals exact ⟨_, rfl⟩

theorem integerWithin_ends (fuel : Nat) : ∀ id, a.Grounded id → id.index < fuel →
    Ends (a.integerWithin scope fuel id) := by
  induction fuel with
  | zero =>
      intro id _ hid
      exact absurd hid (Nat.not_lt_zero _)
  | succ fuel ih =>
      intro id h hid
      obtain ⟨n, hn, hbelow⟩ := h.exists_node
      rw [integerWithin, get_of_node? hn]
      refine integerNode_ends ((typeOf_ends h).map _) fun c hc => ?_
      exact ih c (hbelow c hc).1 (Nat.lt_of_lt_of_le (hbelow c hc).2 (Nat.le_of_lt_succ hid))

/-- **Asking whether a grounded node is an integer ends without a fault.** -/
theorem isInteger_ends {id : NodeId} (h : a.Grounded id) : Ends (a.isInteger scope id) :=
  integerWithin_ends a.walkLength id h (walkLength_gt h)

/-! ### Chains of links -/

/-- The items of a chain are grounded; they are below the chain, unless it is an item itself. -/
theorem chainItems_ends (fuel : Nat) : ∀ id, a.Grounded id → id.index < fuel →
    ∃ items, a.chainItems fuel id = .ok items ∧ ∀ i ∈ items, a.Grounded i ∧
      (i.index < id.index ∨ i = id ∧ ∀ n, a.node? id = some n → n.asLink = none) := by
  induction fuel with
  | zero =>
      intro id _ hid
      exact absurd hid (Nat.not_lt_zero _)
  | succ fuel ih =>
      intro id h hid
      obtain ⟨n, hn, hbelow⟩ := h.exists_node
      rw [chainItems, get_of_node? hn]
      rcases hlink : n.asLink with _ | ⟨previous, item⟩
      · refine ⟨[id], by simp only [hlink], ?_⟩
        intro i hi
        obtain rfl := List.mem_singleton.1 hi
        refine ⟨h, .inr ⟨rfl, ?_⟩⟩
        intro m hm
        rwa [Option.some.inj (hn.symm.trans hm)] at hlink
      · have hchildren := Node.children_of_asLink hlink
        have hitem := hbelow item (by simp [hchildren])
        cases previous with
        | none =>
            refine ⟨[item], by simp only [hlink], ?_⟩
            intro i hi
            obtain rfl := List.mem_singleton.1 hi
            exact ⟨hitem.1, .inl hitem.2⟩
        | some previous =>
            have hprevious := hbelow previous (by simp [hchildren])
            obtain ⟨items, hitems, hall⟩ := ih previous hprevious.1
              (Nat.lt_of_lt_of_le hprevious.2 (Nat.le_of_lt_succ hid))
            refine ⟨item :: items, by simp only [hlink, hitems], ?_⟩
            intro i hi
            rcases List.mem_cons.1 hi with rfl | hi
            · exact ⟨hitem.1, .inl hitem.2⟩
            · obtain ⟨hground, hlt | ⟨rfl, -⟩⟩ := hall i hi
              · exact ⟨hground, .inl (Nat.lt_trans hlt hprevious.2)⟩
              · exact ⟨hground, .inl hprevious.2⟩

/-- **Flattening a grounded chain ends without a fault, and its items are grounded.** -/
theorem listItems_ends {id : NodeId} (h : a.Grounded id) :
    ∃ items, a.listItems id = .ok items ∧ ∀ i ∈ items, a.Grounded i ∧
      (i.index < id.index ∨ i = id ∧ ∀ n, a.node? id = some n → n.asLink = none) := by
  obtain ⟨items, hitems, hall⟩ := chainItems_ends a.walkLength id h (walkLength_gt h)
  refine ⟨items.reverse, by rw [listItems, hitems]; rfl, ?_⟩
  intro i hi
  exact hall i (List.mem_reverse.1 hi)

/-! ### Semantics -/

theorem mem_children_of_attached {n : Node} {id : NodeId} (h : n.attached = some (some id)) :
    id ∈ n.children := by
  cases n <;> simp_all [Node.attached, Node.children]

theorem findSemantic_ends (fuel : Nat) : ∀ id, a.Grounded id → id.index < fuel →
    Ends (a.findSemantic fuel id) := by
  induction fuel with
  | zero =>
      intro id _ hid
      exact absurd hid (Nat.not_lt_zero _)
  | succ fuel ih =>
      intro id h hid
      obtain ⟨n, hn, hbelow⟩ := h.exists_node
      rw [findSemantic, get_of_node? hn]
      split
      · contradiction
      · exact ⟨_, rfl⟩
      · next node _ heq =>
          obtain rfl := Except.ok.inj heq
          split
          · next attached hattached =>
              have hat := hbelow attached (mem_children_of_attached hattached)
              exact ih attached hat.1 (Nat.lt_of_lt_of_le hat.2 (Nat.le_of_lt_succ hid))
          · exact ⟨none, rfl⟩

/-- **Finding the semantic of a grounded node ends without a fault.** -/
theorem semanticOf_ends {id : NodeId} (h : a.Grounded id) : Ends (a.semanticOf id) :=
  findSemantic_ends a.walkLength id h (walkLength_gt h)

end Arena

end ShaderLang
