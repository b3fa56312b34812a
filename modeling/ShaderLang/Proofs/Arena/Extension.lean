/-
**Walks in a longer arena.**

An arena only ever grows, and a walk from a node looks at older nodes only.  So what a walk found once
it finds for ever, however many nodes are added, although it may then look deeper.

Main definitions:

* `ShaderLang.Arena.Extends` — all nodes of one arena are in another one.

Main results:

* `ShaderLang.Arena.Extends.fold_eq` — **the value of an expression stays the same**;
* `ShaderLang.Arena.Extends.listItems`, `ShaderLang.Arena.Extends.semanticOf` — the items of a chain
  and the semantic of a declaration stay the same;
* `ShaderLang.Arena.Forest.plays_listItems` — in a forest the items of a chain play its items' role;
* `ShaderLang.Arena.Trades.mem_of_refers` — **a new node refers to new nodes and to what was given for
  it**.
-/

import ShaderLang.Proofs.Arena.Acyclic

set_option relaxedAutoImplicit false
set_option autoImplicit false

namespace ShaderLang.Arena

/-- All nodes of the first arena are in the second one. -/
def Extends (a a' : Arena) : Prop := ∀ id n, a.node? id = some n → a'.node? id = some n

variable {a a' : Arena}

/-! ### Following a chain -/

/-- What following a chain for one more node gives. -/
theorem chainItems_eq_ok {k : Nat} {id : NodeId} {items : List NodeId} :
    a.chainItems (k + 1) id = .ok items ↔
      ∃ n, a.node? id = some n ∧
        match n.asLink with
        | none => items = [id]
        | some (none, item) => items = [item]
        | some (some previous, item) =>
            ∃ rest, a.chainItems k previous = .ok rest ∧ items = item :: rest := by
  rw [Arena.chainItems]
  cases hn : a.node? id with
  | none => simp [get, hn]
  | some n =>
      rw [get_of_node? hn]
      simp only [Option.some.injEq, exists_eq_left']
      rcases n.asLink with _ | ⟨_ | previous, item⟩
      · simp [eq_comm]
      · simp [eq_comm]
      · dsimp only
        cases a.chainItems k previous <;> simp [eq_comm]

theorem listItems_eq_ok {id : NodeId} {items : List NodeId} :
    a.listItems id = .ok items ↔
      ∃ chain, a.chainItems a.walkLength id = .ok chain ∧ chain.reverse = items := by
  unfold Arena.listItems
  cases a.chainItems a.walkLength id <;> simp [Except.map]

/-! ### Following attached semantics -/

/-- The semantic that a node is, if it is one. -/
def ownSemantic : Node → Option Semantic
  | .semantic s => some s
  | _ => none

theorem exists_node?_of_findSemantic {k : Nat} {id : NodeId} {answer : Option Semantic}
    (h : a.findSemantic (k + 1) id = .ok answer) : ∃ n, a.node? id = some n := by
  cases hn : a.node? id with
  | none =>
      rw [Arena.findSemantic, get, hn] at h
      contradiction
  | some n => exact ⟨n, rfl⟩

/-- A node with a semantic attached to it has that semantic. -/
theorem findSemantic_of_some {k : Nat} {id attached : NodeId} {n : Node}
    (hn : a.node? id = some n) (hattached : n.attached.join = some attached) :
    a.findSemantic (k + 1) id = a.findSemantic k attached := by
  rw [Arena.findSemantic, get_of_node? hn]
  cases n <;> simp_all [Node.attached]

/-- Any other node has the semantic that it is. -/
theorem findSemantic_of_none {k : Nat} {id : NodeId} {n : Node} (hn : a.node? id = some n)
    (hattached : n.attached.join = none) :
    a.findSemantic (k + 1) id = .ok (ownSemantic n) := by
  rw [Arena.findSemantic, get_of_node? hn]
  cases n <;> simp_all [Node.attached, ownSemantic]

/-! ### A longer arena -/

namespace Extends

/-- Nodes of the shorter arena are the same in the longer one. -/
theorem node?_eq (h : a.Extends a') {id : NodeId} (hid : id.index < a.size) :
    a'.node? id = a.node? id := by
  obtain ⟨n, hn⟩ := exists_node?_of_lt hid
  rw [hn, h id n hn]

theorem get_eq (h : a.Extends a') {id : NodeId} (hid : id.index < a.size) : a'.get id = a.get id := by
  obtain ⟨n, hn⟩ := exists_node?_of_lt hid
  rw [get_of_node? hn, get_of_node? (h id n hn)]

theorem fetch_eq (h : a.Extends a') {id : NodeId} (hid : id.index < a.size) :
    a'.fetch id = a.fetch id := by
  rw [fetch, fetch, h.get_eq hid]

theorem size_le (h : a.Extends a') : a.size ≤ a'.size := by
  cases hsize : a.size with
  | zero => exact Nat.zero_le _
  | succ k =>
      have hlast : (⟨k⟩ : NodeId).index < a.size := by
        rw [hsize]
        exact Nat.lt_succ_self k
      obtain ⟨n, hn⟩ := exists_node?_of_lt hlast
      exact lt_size_of_node? (h _ n hn)

/-- A node is folded in the same way where its children are there. -/
theorem foldNode_eq (h : a.Extends a') {n : Node} (hn : ∀ c ∈ n.children, c.index < a.size)
    (f : NodeId → Walk Constant) : a'.foldNode f n = a.foldNode f n := by
  cases n with
  | construct type arguments =>
      cases arguments with
      | none => rfl
      | some list =>
          have hlist : list.index < a.size := hn list (by simp [Node.children])
          rw [foldNode, foldNode, h.fetch_eq hlist]
  | step placement direction operand => cases placement <;> rfl
  | _ => rfl

/-- In the longer arena nodes refer to older ones only, so they do in the shorter one. -/
theorem descending (h : a.Extends a') (holder : a'.Descending) : a.Descending :=
  fun id n hn => holder id n (h id n hn)

/-- **The value of an expression stays the same** where nodes are added.  The induction is on the
number of the node. -/
theorem fold_eq (h : a.Extends a') (holder : a'.Descending) {id : NodeId}
    (hid : id.index < a.size) : a'.fold id = a.fold id := by
  have ha : a.Acyclic := acyclic_of_older (h.descending holder)
  have ha' : a'.Acyclic := acyclic_of_older holder
  obtain ⟨i⟩ := id
  induction i using Nat.strongRecOn with
  | ind i ih =>
      obtain ⟨n, hn⟩ := exists_node?_of_lt hid
      have hchildren : ∀ c ∈ n.children, c.index < a.size := fun c hc =>
        Nat.lt_trans (h.descending holder _ n hn c hc) hid
      have hbelow : ∀ c, a'.Below ⟨i⟩ c → a'.value c = a.value c := by
        intro c hc
        have hlt : c.index < i := index_lt_of_older holder hc
        exact OptionT.ext (ih c.index hlt (Nat.lt_trans hlt hid))
      rw [ha'.fold_eq (h _ n hn), ha.fold_eq hn, foldNode_congr (h _ n hn) hbelow,
        h.foldNode_eq hchildren]

/-- A chain that was followed to its end has the same items in a longer arena. -/
theorem chainItems (h : a.Extends a') {k m : Nat} (hkm : k ≤ m) {id : NodeId}
    {items : List NodeId} (hitems : a.chainItems k id = .ok items) :
    a'.chainItems m id = .ok items := by
  induction k generalizing m id items with
  | zero => contradiction
  | succ k ih =>
      obtain ⟨m, rfl⟩ : ∃ j, m = j + 1 := ⟨m - 1, by omega⟩
      obtain ⟨n, hn, hlinked⟩ := chainItems_eq_ok.1 hitems
      refine chainItems_eq_ok.2 ⟨n, h id n hn, ?_⟩
      rcases hlink : n.asLink with _ | ⟨_ | previous, item⟩
      · rwa [hlink] at hlinked
      · rwa [hlink] at hlinked
      · rw [hlink] at hlinked
        obtain ⟨rest, hrest, heq⟩ := hlinked
        exact ⟨rest, ih (by omega) hrest, heq⟩

/-- **The items of a chain stay the same** where nodes are added. -/
theorem listItems (h : a.Extends a') {id : NodeId} {items : List NodeId}
    (hitems : a.listItems id = .ok items) : a'.listItems id = .ok items := by
  obtain ⟨chain, hchain, heq⟩ := listItems_eq_ok.1 hitems
  have hle : a.walkLength ≤ a'.walkLength := Nat.succ_le_succ h.size_le
  exact listItems_eq_ok.2 ⟨chain, h.chainItems hle hchain, heq⟩

/-- A semantic that was found is found in a longer arena. -/
theorem findSemantic (h : a.Extends a') {k m : Nat} (hkm : k ≤ m) {id : NodeId}
    {answer : Option Semantic} (hanswer : a.findSemantic k id = .ok answer) :
    a'.findSemantic m id = .ok answer := by
  induction k generalizing m id with
  | zero => contradiction
  | succ k ih =>
      obtain ⟨m, rfl⟩ : ∃ j, m = j + 1 := ⟨m - 1, by omega⟩
      obtain ⟨n, hn⟩ := exists_node?_of_findSemantic hanswer
      rcases hattached : n.attached.join with _ | attached
      · rw [findSemantic_of_none hn hattached] at hanswer
        rwa [findSemantic_of_none (h id n hn) hattached]
      · rw [findSemantic_of_some hn hattached] at hanswer
        rw [findSemantic_of_some (h id n hn) hattached]
        exact ih (by omega) hanswer

/-- **The semantic of a declaration stays the same** where nodes are added. -/
theorem semanticOf (h : a.Extends a') {id : NodeId} {answer : Option Semantic}
    (hanswer : a.semanticOf id = .ok answer) : a'.semanticOf id = .ok answer :=
  h.findSemantic (Nat.succ_le_succ h.size_le) hanswer

end Extends

/-! ### The roles of items -/

namespace Forest

theorem plays_field (h : a.Forest) {id : NodeId} {n : Node} (hn : a.node? id = some n)
    {c : NodeId} {r : Role} (hc : (c, r) ∈ n.fields) : a.Plays c r :=
  h.roles id n hn (c, r) hc

/-- The items of a chain of one kind play the role of its items. -/
theorem plays_chainItems (h : a.Forest) {kind : ListKind} {k : Nat} {id : NodeId}
    {items : List NodeId} (hid : a.Plays id (.list kind)) (hitems : a.chainItems k id = .ok items) :
    ∀ i ∈ items, a.Plays i kind.itemRole := by
  induction k generalizing id items with
  | zero => contradiction
  | succ k ih =>
      obtain ⟨n, hn, hplays⟩ := hid
      -- only a link of the kind plays the role of its chain
      obtain ⟨previous, item, rfl⟩ : ∃ previous item, n = .link kind previous item := by
        cases n <;> simp_all [Node.plays, Node.isLinkOf]
      have hitem : a.Plays item kind.itemRole := h.plays_field hn (by simp [Node.fields])
      obtain ⟨m, hm, hlinked⟩ := chainItems_eq_ok.1 hitems
      obtain rfl := Option.some.inj (hn.symm.trans hm)
      cases previous with
      | none =>
          obtain rfl := hlinked
          intro i hi
          obtain rfl := List.mem_singleton.1 hi
          exact hitem
      | some previous =>
          have hprevious : a.Plays previous (.list kind) :=
            h.plays_field hn (by simp [Node.fields])
          obtain ⟨rest, hrest, rfl⟩ := hlinked
          intro i hi
          rcases List.mem_cons.1 hi with rfl | hi
          · exact hitem
          · exact ih hprevious hrest i hi

/-- **The items of a chain play the role of its items.** -/
theorem plays_listItems (h : a.Forest) {kind : ListKind} {id : NodeId} {items : List NodeId}
    (hid : a.Plays id (.list kind)) (hitems : a.listItems id = .ok items) :
    ∀ i ∈ items, a.Plays i kind.itemRole := by
  obtain ⟨chain, hchain, rfl⟩ := listItems_eq_ok.1 hitems
  intro i hi
  exact h.plays_chainItems hid hchain i (List.mem_reverse.1 hi)

end Forest

/-! ### New nodes -/

/-- **A new node refers to new nodes and to what was given for it.**  Anything else that is loose could
have been held beside, and would be loose still. -/
theorem Trades.mem_of_refers {pre post : List Part} (h : Trades a pre a' post) (ha : a.Holds pre)
    (he : a.Extends a') {parent c : NodeId} (hc : a'.Refers parent c)
    (hparent : a.size ≤ parent.index) (hold : c.index < a.size) : c ∈ pre.map Prod.fst := by
  by_contra hnot
  obtain ⟨n, hn, hc⟩ := hc
  have hforest : a'.Forest := (h [] ha).forest
  obtain ⟨r, hr⟩ := Node.mem_children_iff.1 hc
  have hloose : a.Loose c := by
    intro other m hm hcm
    have hsame : parent = other := hforest.oneParent parent other n m hn (he other m hm) c hc hcm
    rw [← hsame] at hm
    exact absurd (lt_size_of_node? hm) (Nat.not_lt.2 hparent)
  have hplays : a.Plays c r := by
    obtain ⟨m, hm, hmr⟩ := hforest.plays_field hn hr
    exact ⟨m, (he.node?_eq hold).symm.trans hm, hmr⟩
  have hheld : a.Holds ([(c, r)] ++ pre) :=
    { forest := ha.forest
      distinct := List.nodup_cons.2 ⟨hnot, ha.distinct⟩
      loose := List.forall_mem_cons.2 ⟨hloose, ha.loose⟩
      roles := List.forall_mem_cons.2 ⟨hplays, ha.roles⟩ }
  exact (h [(c, r)] hheld).loose (c, r) (List.mem_cons_self ..) parent n hn hc

end ShaderLang.Arena
