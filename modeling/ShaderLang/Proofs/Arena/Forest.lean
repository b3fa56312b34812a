/-
**Nodes form a forest.**

While a program is read, the nodes built so far are trees, and some of them are held: they are
results of rules that are still being read, and no node refers to them yet.  Building a node takes
what it refers to from the parts held and leaves the new node in their place.  What is held behaves
as the stack of a machine that shifts and reduces, except that only its contents matter.

Main definitions:

* `ShaderLang.Arena.Plays` — the node with a number can play a role;
* `ShaderLang.Arena.Forest` — nodes refer to older nodes only, each to its own, and each in its role;
* `ShaderLang.Arena.Holds` — a forest with parts that are held;
* `ShaderLang.Arena.Trades` — what was held before can be given for what is held after.

Main results:

* `ShaderLang.Arena.Holds.add` — **a new node takes the place of the parts that it refers to**.
-/

import Mathlib.Data.List.Nodup
import Mathlib.Data.List.Perm.Subperm
import ShaderLang.Arena
import ShaderLang.Proofs.Arena.Roles

set_option relaxedAutoImplicit false
set_option autoImplicit false

namespace ShaderLang.Arena

/-! ### Numbers of nodes -/

theorem lt_size_of_node? {a : Arena} {id : NodeId} {n : Node} (h : a.node? id = some n) :
    id.index < a.size :=
  (a.isSome_node?_iff id).1 (by rw [h]; rfl)

theorem exists_node?_of_lt {a : Arena} {id : NodeId} (h : id.index < a.size) :
    ∃ n, a.node? id = some n :=
  Option.isSome_iff_exists.1 ((a.isSome_node?_iff id).2 h)

theorem get_of_node? {a : Arena} {id : NodeId} {n : Node} (h : a.node? id = some n) :
    a.get id = .ok n := by
  simp [get, h]

theorem node?_of_get {a : Arena} {id : NodeId} {n : Node} (h : a.get id = .ok n) :
    a.node? id = some n := by
  unfold get at h
  split at h
  · next hn => rw [hn, Except.ok.inj h]
  · contradiction

theorem ne_nextId_of_lt {a : Arena} {id : NodeId} (h : id.index < a.size) : id ≠ a.nextId := by
  rintro rfl
  exact absurd h (Nat.lt_irrefl _)

/-- A node of the longer arena is the new one or was there before. -/
theorem node?_add_eq_some {a : Arena} {new n : Node} {p : Position} {id : NodeId}
    (h : (a.add new p).node? id = some n) :
    id = a.nextId ∧ n = new ∨ a.node? id = some n := by
  rw [node?_add] at h
  split at h
  · next hid => exact .inl ⟨hid, (Option.some.inj h).symm⟩
  · exact .inr h

/-! ### Roles -/

/-- The node with the number can play the role. -/
def Plays (a : Arena) (id : NodeId) (r : Role) : Prop := ∃ n, a.node? id = some n ∧ n.plays r

theorem Plays.lt_size {a : Arena} {id : NodeId} {r : Role} (h : a.Plays id r) :
    id.index < a.size := by
  obtain ⟨n, hn, -⟩ := h
  exact lt_size_of_node? hn

/-- Nodes keep their roles. -/
theorem Plays.add {a : Arena} {id : NodeId} {r : Role} (h : a.Plays id r) (new : Node)
    (p : Position) : (a.add new p).Plays id r := by
  obtain ⟨n, hn, hr⟩ := h
  exact ⟨n, by rw [node?_add_of_lt _ _ _ (lt_size_of_node? hn), hn], hr⟩

/-! ### Forests -/

/-- Nodes are numbered by their places; each refers to older nodes only, to none twice and to none
that another one refers to, and to each in a role that it can play. -/
structure Forest (a : Arena) : Prop where
  numbered : ∀ (i : Nat) (c : Cell), a.cells[i]? = some c → c.id = ⟨i⟩
  below : ∀ (id : NodeId) (n : Node), a.node? id = some n → ∀ c ∈ n.children, c.index < id.index
  distinct : ∀ (id : NodeId) (n : Node), a.node? id = some n → n.children.Nodup
  oneParent : ∀ (id id' : NodeId) (n n' : Node), a.node? id = some n → a.node? id' = some n' →
    ∀ c ∈ n.children, c ∈ n'.children → id = id'
  roles : ∀ (id : NodeId) (n : Node), a.node? id = some n → ∀ f ∈ n.fields, a.Plays f.1 f.2

/-- No node refers to the one with the number. -/
def Loose (a : Arena) (id : NodeId) : Prop :=
  ∀ (parent : NodeId) (n : Node), a.node? parent = some n → id ∉ n.children

/-- The parts are trees of their own in a forest. -/
structure Holds (a : Arena) (held : List Part) : Prop where
  forest : a.Forest
  distinct : (held.map Prod.fst).Nodup
  loose : ∀ h ∈ held, a.Loose h.1
  roles : ∀ h ∈ held, a.Plays h.1 h.2

theorem node?_empty (id : NodeId) : empty.node? id = none := rfl

/-- Without nodes there is a forest, and nothing is held. -/
theorem holds_empty : empty.Holds [] where
  forest :=
    { numbered := by
        intro i c hc
        exact absurd hc (by simp [empty])
      below := by
        intro id n hn
        rw [node?_empty] at hn
        contradiction
      distinct := by
        intro id n hn
        rw [node?_empty] at hn
        contradiction
      oneParent := by
        intro id id' n n' hn
        rw [node?_empty] at hn
        contradiction
      roles := by
        intro id n hn
        rw [node?_empty] at hn
        contradiction }
  distinct := List.nodup_nil
  loose := by simp
  roles := by simp

namespace Holds

variable {a : Arena} {held : List Part}

theorem lt_size (h : a.Holds held) {id : NodeId} {r : Role} (hm : (id, r) ∈ held) :
    id.index < a.size :=
  (h.roles _ hm).lt_size

/-- Only what is held matters, not its order; anything may be let go. -/
theorem of_subperm {less : List Part} (h : a.Holds held) (hs : less.Subperm held) :
    a.Holds less where
  forest := h.forest
  distinct := by
    obtain ⟨l, hperm, hsub⟩ := hs
    exact ((hperm.map Prod.fst).nodup_iff).1 (h.distinct.sublist (hsub.map Prod.fst))
  loose := fun x hx => h.loose x (hs.subset hx)
  roles := fun x hx => h.roles x (hs.subset hx)

/-- A part can be held in another role that it can play. -/
theorem cast {frame : List Part} {id : NodeId} {r r' : Role} (h : a.Holds (frame ++ [(id, r)]))
    (hr : ∀ n : Node, n.plays r → n.plays r') : a.Holds (frame ++ [(id, r')]) where
  forest := h.forest
  distinct := by simpa using h.distinct
  loose := by
    intro x hx
    rcases List.mem_append.1 hx with hx | hx
    · exact h.loose x (List.mem_append_left _ hx)
    · obtain rfl := List.mem_singleton.1 hx
      exact h.loose (id, r) (List.mem_append_right _ (List.mem_singleton.2 rfl))
  roles := by
    intro x hx
    rcases List.mem_append.1 hx with hx | hx
    · exact h.roles x (List.mem_append_left _ hx)
    · obtain rfl := List.mem_singleton.1 hx
      obtain ⟨n, hn, hp⟩ := h.roles (id, r) (List.mem_append_right _ (List.mem_singleton.2 rfl))
      exact ⟨n, hn, hr n hp⟩

end Holds

/-! ### Adding a node -/

variable {a : Arena} {frame : List Part} {new : Node}

/-- With what it refers to held before, a new node makes the forest one node larger. -/
theorem Forest.add (h : a.Holds (frame ++ new.fields)) (p : Position) : (a.add new p).Forest where
  numbered := by
    intro i c hc
    rw [Arena.add, Array.getElem?_push] at hc
    split at hc
    · next hi =>
        obtain rfl := Option.some.inj hc
        rw [hi]
        rfl
    · exact h.forest.numbered i c hc
  below := by
    intro id n hn c hc
    rcases node?_add_eq_some hn with ⟨rfl, rfl⟩ | hn
    · obtain ⟨r, hr⟩ := Node.mem_children_iff.1 hc
      exact h.lt_size (List.mem_append_right _ hr)
    · exact h.forest.below id n hn c hc
  distinct := by
    intro id n hn
    rcases node?_add_eq_some hn with ⟨-, rfl⟩ | hn
    · rw [Node.children_eq_fields]
      exact (List.nodup_append.1 (List.map_append ▸ h.distinct)).2.1
    · exact h.forest.distinct id n hn
  oneParent := by
    intro id id' n n' hn hn' c hc hc'
    -- what the new node refers to was held, so no older node refers to it
    have held : ∀ (parent : NodeId) (m : Node), a.node? parent = some m →
        c ∈ m.children → c ∉ new.children := by
      intro parent m hm hcm hcn
      obtain ⟨r, hr⟩ := Node.mem_children_iff.1 hcn
      exact h.loose _ (List.mem_append_right _ hr) parent m hm hcm
    rcases node?_add_eq_some hn with ⟨hid, hnew⟩ | hold <;>
      rcases node?_add_eq_some hn' with ⟨hid', hnew'⟩ | hold'
    · rw [hid, hid']
    · exact absurd (hnew ▸ hc) (held id' n' hold' hc')
    · exact absurd (hnew' ▸ hc') (held id n hold hc)
    · exact h.forest.oneParent id id' n n' hold hold' c hc hc'
  roles := by
    intro id n hn f hf
    rcases node?_add_eq_some hn with ⟨-, rfl⟩ | hn
    · exact (h.roles f (List.mem_append_right _ hf)).add _ p
    · exact (h.forest.roles id n hn f hf).add new p

/-- **A new node takes the place of the parts that it refers to.** -/
theorem Holds.add {r : Role} (h : a.Holds (frame ++ new.fields)) (hr : new.plays r) (p : Position) :
    (a.add new p).Holds (frame ++ [(a.nextId, r)]) where
  forest := Forest.add h p
  distinct := by
    have hframe := (List.nodup_append.1 (List.map_append ▸ h.distinct)).1
    rw [List.map_append, List.nodup_append]
    refine ⟨hframe, List.nodup_singleton _, ?_⟩
    intro id hid id' hid'
    obtain ⟨x, hx, rfl⟩ := List.mem_map.1 hid
    obtain rfl := List.mem_singleton.1 hid'
    exact ne_nextId_of_lt (h.lt_size (List.mem_append_left _ hx))
  loose := by
    intro x hx parent n hn hc
    rcases List.mem_append.1 hx with hx | hx
    · rcases node?_add_eq_some hn with ⟨rfl, rfl⟩ | hn
      · -- the new node refers to other parts than those that stay held
        obtain ⟨r', hr'⟩ := Node.mem_children_iff.1 hc
        have hd := (List.nodup_append.1 (List.map_append ▸ h.distinct)).2.2
        exact hd _ (List.mem_map_of_mem hx) _ (List.mem_map_of_mem hr') rfl
      · exact h.loose x (List.mem_append_left _ hx) parent n hn hc
    · obtain rfl := List.mem_singleton.1 hx
      have hlt := (Forest.add h p).below parent n hn _ hc
      have hparent := lt_size_of_node? hn
      rw [size_add] at hparent
      simp only [nextId] at hlt
      omega
  roles := by
    intro x hx
    rcases List.mem_append.1 hx with hx | hx
    · exact (h.roles x (List.mem_append_left _ hx)).add new p
    · obtain rfl := List.mem_singleton.1 hx
      exact ⟨new, node?_add_self a new p, hr⟩

/-! ### Trading parts -/

/-- What is held beside the parts before is held beside the parts after. -/
def Trades (a : Arena) (pre : List Part) (a' : Arena) (post : List Part) : Prop :=
  ∀ frame, a.Holds (frame ++ pre) → a'.Holds (frame ++ post)

namespace Trades

variable {a₁ a₂ a₃ : Arena} {p₁ p₂ p₃ : List Part}

theorem trans (h₁ : Trades a₁ p₁ a₂ p₂) (h₂ : Trades a₂ p₂ a₃ p₃) : Trades a₁ p₁ a₃ p₃ :=
  fun frame h => h₂ frame (h₁ frame h)

/-- Parts may be let go. -/
theorem drop (h : p₂.Subperm p₁) : Trades a p₁ a p₂ :=
  fun frame hh => hh.of_subperm ((List.subperm_append_left frame).2 h)

theorem refl : Trades a p₁ a p₁ := fun _ h => h

/-- A part can be held in another role that it can play. -/
theorem cast {id : NodeId} {r r' : Role} (hr : ∀ n : Node, n.plays r → n.plays r') :
    Trades a [(id, r)] a [(id, r')] :=
  fun _ h => h.cast hr

/-- Other parts do not stand in the way. -/
theorem framed (extra : List Part) (h : Trades a₁ p₁ a₂ p₂) :
    Trades a₁ (extra ++ p₁) a₂ (extra ++ p₂) := by
  intro frame hh
  rw [← List.append_assoc] at hh ⊢
  exact h _ hh

end Trades

end ShaderLang.Arena
