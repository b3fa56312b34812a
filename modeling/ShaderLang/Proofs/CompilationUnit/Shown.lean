/-
**What the outline shows.**

The outline has a line for a node and then the lines of what is shown below it: the items of its sequence,
or what it refers to.  So the links of a sequence are passed over except for the last one, and of the
sequence of declarations the last one too.  Every other node that can be reached from the root is shown,
as many levels deep as there are nodes above it that are shown.

Main definitions:

* `ShaderLang.Arena.Continues` — a link, and the link before it;
* `ShaderLang.CompilationUnit.Shows`, `ShaderLang.CompilationUnit.Under` — what is shown below a node, at
  once and some levels deeper;
* `ShaderLang.CompilationUnit.HasLine` — **the nodes that have a line**.

Main results:

* `ShaderLang.CompilationUnit.shows_iff` — what is shown below a node is held by the links before it;
* `ShaderLang.CompilationUnit.WellFormed.hasLine_iff` — the nodes that have lines are those that are shown
  below the root;
* `ShaderLang.CompilationUnit.WellFormed.encard_above` — **how deep a node is shown**.
-/

import Mathlib.Data.Set.Card
import ShaderLang.Proofs.CompilationUnit.WellFormed
import ShaderLang.Proofs.Grammar.Places

set_option relaxedAutoImplicit false
set_option autoImplicit false

namespace ShaderLang

/-! ### Links of one sequence -/

namespace Arena

variable {a : Arena} {p q c l : NodeId} {n : Node}

/-- The first node is a link, and the second one the link before it. -/
def Continues (a : Arena) (q p : NodeId) : Prop :=
  ∃ kind item, a.node? q = some (.link kind (some p) item)

theorem Continues.refers (h : a.Continues q p) : a.Refers q p := by
  obtain ⟨kind, item, hq⟩ := h
  exact ⟨_, hq, by simp [Node.children]⟩

theorem reaches_of_continues (h : Relation.ReflTransGen a.Continues p l) : a.Reaches p l :=
  Relation.ReflTransGen.mono (fun _ _ hlink => Continues.refers hlink) p l h

/-- Nothing comes before a node that is no link with a link before it. -/
theorem eq_of_continues (hp : ∀ q, ¬ a.Continues p q) (h : Relation.ReflTransGen a.Continues p l) :
    l = p := by
  rcases Relation.ReflTransGen.cases_head h with heq | ⟨q, hq, -⟩
  · exact heq.symm
  · exact absurd hq (hp q)

namespace Forest

/-- The link before a link is a link. -/
theorem asLink_of_continues (ha : a.Forest) (h : a.Continues q p) (hn : a.node? p = some n) :
    n.asLink ≠ none := by
  obtain ⟨kind, item, hq⟩ := h
  obtain ⟨m, hm, hplays⟩ := ha.roles q _ hq (p, .list kind) (by simp [Node.fields])
  obtain rfl := Option.some.inj (hn.symm.trans hm)
  cases n <;> simp_all [Node.plays, Node.isLinkOf]

/-- **The items of a chain are held by its links**: they are what the links refer to besides the links
before them. -/
theorem mem_chainItems (ha : a.Forest) {k : Nat} {items : List NodeId}
    (h : a.chainItems k p = .ok items) (hn : a.node? p = some n) (hlink : n.asLink ≠ none) :
    c ∈ items ↔ ∃ l, Relation.ReflTransGen a.Continues p l ∧ a.Refers l c ∧ ¬ a.Continues l c := by
  induction k generalizing p items n with
  | zero => contradiction
  | succ k ih =>
      obtain ⟨m, hm, hitems⟩ := chainItems_eq_ok.1 h
      obtain rfl := Option.some.inj (hn.symm.trans hm)
      obtain ⟨⟨previous, item⟩, hpair⟩ := Option.ne_none_iff_exists'.1 hlink
      obtain ⟨kind, rfl⟩ := Node.asLink_eq_some_iff.1 hpair
      have hcontinues : ∀ q, a.Continues p q ↔ previous = some q := by
        intro q
        constructor
        · rintro ⟨_, _, hq⟩
          exact (Node.link.inj (Option.some.inj (hn.symm.trans hq))).2.1
        · rintro rfl
          exact ⟨kind, item, hn⟩
      have hrefers : a.Refers p c ↔ previous = some c ∨ c = item := by
        constructor
        · rintro ⟨m, hm, hc⟩
          obtain rfl := Option.some.inj (hn.symm.trans hm)
          simpa [Node.children] using hc
        · intro hc
          exact ⟨_, hn, by simpa [Node.children] using hc⟩
      -- the item is not the link before as well
      have hitem : previous ≠ some item := by
        rintro rfl
        simpa [Node.children] using ha.distinct p _ hn
      have hown : a.Refers p c ∧ ¬ a.Continues p c ↔ c = item := by
        rw [hrefers, hcontinues]
        constructor
        · rintro ⟨hc | hc, hne⟩
          · exact absurd hc hne
          · exact hc
        · rintro rfl
          exact ⟨.inr rfl, hitem⟩
      cases previous with
      | none =>
          obtain rfl : items = [item] := hitems
          rw [List.mem_singleton, ← hown]
          constructor
          · exact fun hc => ⟨p, .refl, hc⟩
          · rintro ⟨l, hl, hc⟩
            obtain rfl := eq_of_continues (fun q hq => Option.some_ne_none q ((hcontinues q).1 hq).symm) hl
            exact hc
      | some q =>
          obtain ⟨rest, hrest, rfl⟩ : ∃ rest, a.chainItems k q = .ok rest ∧ items = item :: rest :=
            hitems
          have hq : a.Continues p q := (hcontinues q).2 rfl
          obtain ⟨m, hm, -⟩ := ha.roles p _ hn (q, .list kind) (by simp [Node.fields])
          rw [List.mem_cons, ← hown, ih hrest hm (ha.asLink_of_continues hq hm)]
          constructor
          · rintro (hc | ⟨l, hl, hc⟩)
            · exact ⟨p, .refl, hc⟩
            · exact ⟨l, .head hq hl, hc⟩
          · rintro ⟨l, hl, hc⟩
            rcases Relation.ReflTransGen.cases_head hl with rfl | ⟨q', hq', hl⟩
            · exact .inl hc
            · obtain rfl := Option.some.inj ((hcontinues q').1 hq')
              exact .inr ⟨l, hl, hc⟩

end Forest

end Arena

namespace CompilationUnit

open Arena

variable {u : CompilationUnit} {id p q c x : NodeId} {n : Node} {k : Nat}

/-! ### What is shown below a node -/

/-- The second node is shown below the first one. -/
def Shows (u : CompilationUnit) (p c : NodeId) : Prop :=
  ∃ n inner, u.arena.node? p = some n ∧ u.below p n = .ok inner ∧ c ∈ inner

/-- Something is shown below every node of a forest, if it is nothing. -/
theorem exists_below (ha : u.arena.Forest) (hn : u.arena.node? p = some n) :
    ∃ inner, u.below p n = .ok inner := by
  obtain ⟨m, hm, hbelow⟩ := (ha.grounded (lt_size_of_node? hn)).exists_node
  obtain rfl := Option.some.inj (hn.symm.trans hm)
  obtain ⟨inner, hinner, -⟩ := below_ends (ha.grounded (lt_size_of_node? hn)) hn hbelow
  exact ⟨inner, hinner⟩

/-- **What is shown below a node is held by the links before it**, of which a node that is no link is the
only one: it is what one of them refers to besides the link before it. -/
theorem shows_iff (ha : u.arena.Forest) : u.Shows p c ↔
    ∃ l, Relation.ReflTransGen u.arena.Continues p l ∧ u.arena.Refers l c ∧ ¬ u.arena.Continues l c := by
  have hinner : ∀ {n inner}, u.arena.node? p = some n → u.below p n = .ok inner → (c ∈ inner ↔
      ∃ l, Relation.ReflTransGen u.arena.Continues p l ∧ u.arena.Refers l c ∧
        ¬ u.arena.Continues l c) := by
    intro n inner hn hbelow
    unfold CompilationUnit.below at hbelow
    split at hbelow
    · next link hlink =>
        obtain ⟨chain, hchain, rfl⟩ := listItems_eq_ok.1 hbelow
        rw [List.mem_reverse]
        exact ha.mem_chainItems hchain hn (hlink ▸ Option.some_ne_none link)
    · next hlink =>
        obtain rfl := Except.ok.inj hbelow
        have hnot : ∀ q, ¬ u.arena.Continues p q := by
          rintro q ⟨kind, item, hq⟩
          obtain rfl := Option.some.inj (hn.symm.trans hq)
          contradiction
        constructor
        · exact fun hc => ⟨p, .refl, ⟨n, hn, hc⟩, hnot c⟩
        · rintro ⟨l, hl, ⟨m, hm, hc⟩, -⟩
          obtain rfl := eq_of_continues hnot hl
          obtain rfl := Option.some.inj (hn.symm.trans hm)
          exact hc
  constructor
  · rintro ⟨n, inner, hn, hbelow, hc⟩
    exact (hinner hn hbelow).1 hc
  · intro h
    obtain ⟨n, hn⟩ : ∃ n, u.arena.node? p = some n := by
      obtain ⟨l, hl, ⟨m, hm, -⟩, -⟩ := h
      rcases Relation.ReflTransGen.cases_head hl with rfl | ⟨q, ⟨kind, item, hp⟩, -⟩
      · exact ⟨m, hm⟩
      · exact ⟨_, hp⟩
    obtain ⟨inner, hbelow⟩ := exists_below ha hn
    exact ⟨n, inner, hn, hbelow, (hinner hn hbelow).2 h⟩

namespace Shows

/-- What is shown below a node can be reached from it. -/
theorem below (ha : u.arena.Forest) (h : u.Shows p c) : u.arena.Below p c := by
  obtain ⟨l, hl, hc, -⟩ := (shows_iff ha).1 h
  exact Relation.TransGen.tail' (reaches_of_continues hl) hc

/-- A link before another one is not shown. -/
theorem not_continues (ha : u.arena.Forest) (h : u.Shows p c) : ¬ u.arena.Continues q c := by
  obtain ⟨l, -, hc, hnot⟩ := (shows_iff ha).1 h
  intro hq
  obtain rfl := ha.parent_unique hc hq.refers
  exact hnot hq

/-- **Nothing lies between a node and what is shown below it but links before other ones.** -/
theorem reaches (ha : u.arena.Forest) (h : u.Shows p c) (hq : ∀ l, ¬ u.arena.Continues l q)
    (hbelow : u.arena.Below q c) : u.arena.Reaches q p := by
  obtain ⟨l, hl, hc, -⟩ := (shows_iff ha).1 h
  have hreach : u.arena.Reaches q l := by
    obtain ⟨l', hl', hc'⟩ := Relation.TransGen.tail'_iff.1 hbelow
    exact ha.parent_unique hc hc' ▸ hl'
  clear hc
  induction hl with
  | refl => exact hreach
  | @tail l l' _ hlink ih =>
      refine ih ?_
      rcases Relation.ReflTransGen.cases_tail hreach with rfl | ⟨l'', hl'', href⟩
      · exact absurd hlink (hq l)
      · exact ha.parent_unique hlink.refers href ▸ hl''

end Shows

/-- The second node is shown so many levels below the first one. -/
inductive Under (u : CompilationUnit) (id : NodeId) : Nat → NodeId → Prop where
  | refl : Under u id 0 id
  | tail {k : Nat} {p c : NodeId} (above : Under u id k p) (here : u.Shows p c) : Under u id (k + 1) c

namespace Under

theorem reaches (ha : u.arena.Forest) (h : u.Under id k x) : u.arena.Reaches id x := by
  induction h with
  | refl => exact .refl
  | tail _ here ih => exact ih.trans (here.below ha).to_reflTransGen

theorem head (h : u.Shows id c) (hx : u.Under c k x) : u.Under id (k + 1) x := by
  induction hx with
  | refl => exact .tail .refl h
  | tail _ here ih => exact .tail ih here

theorem eq_of_zero (h : u.Under id 0 x) : x = id := by
  cases h
  rfl

theorem exists_last (h : u.Under id (k + 1) x) : ∃ p, u.Under id k p ∧ u.Shows p x := by
  cases h with
  | tail above here => exact ⟨_, above, here⟩

/-- What is shown some levels deeper is shown below what is shown at once. -/
theorem exists_head (h : u.Under id (k + 1) x) : ∃ c, u.Shows id c ∧ u.Under c k x := by
  induction k generalizing x with
  | zero =>
      obtain ⟨p, above, here⟩ := h.exists_last
      obtain rfl := above.eq_of_zero
      exact ⟨x, here, .refl⟩
  | succ k ih =>
      obtain ⟨p, above, here⟩ := h.exists_last
      obtain ⟨c, hc, hp⟩ := ih above
      exact ⟨c, hc, .tail hp here⟩

end Under

/-- **The node has a line**: it can be reached from the root, and it is neither a link before another one
nor the root. -/
def HasLine (u : CompilationUnit) (x : NodeId) : Prop :=
  (∃ root, u.root = some root ∧ u.arena.Reaches root x) ∧ (∀ q, ¬ u.arena.Continues q x) ∧
    u.root ≠ some x

namespace WellFormed

/-- Nothing refers to the root. -/
theorem not_below_root (h : u.WellFormed) {root : NodeId} (hroot : u.root = some root) :
    ¬ u.arena.Below p root := by
  intro hbelow
  obtain ⟨q, -, n, hn, hc⟩ := Relation.TransGen.tail'_iff.1 hbelow
  exact h.root_loose root hroot q n hn hc

/-- Every node that can be reached is shown, or is a link before one that is. -/
theorem exists_under (h : u.WellFormed) {root : NodeId} (hx : u.arena.Reaches root x) :
    ∃ k p, u.Under root k p ∧ Relation.ReflTransGen u.arena.Continues p x := by
  induction hx with
  | refl => exact ⟨0, root, .refl, .refl⟩
  | @tail x y _ hy ih =>
      obtain ⟨k, p, hp, hx⟩ := ih
      by_cases hlink : u.arena.Continues x y
      · exact ⟨k, p, hp, hx.tail hlink⟩
      · exact ⟨k + 1, y, .tail hp ((shows_iff h.forest).2 ⟨x, hx, hy, hlink⟩), .refl⟩

/-- **The nodes that have lines are those that are shown below the root.** -/
theorem hasLine_iff (h : u.WellFormed) :
    u.HasLine x ↔ ∃ root k, u.root = some root ∧ u.Under root (k + 1) x := by
  constructor
  · rintro ⟨⟨root, hroot, hx⟩, hnot, hne⟩
    obtain ⟨k, p, hp, hlinks⟩ := h.exists_under hx
    obtain rfl : x = p := by
      rcases Relation.ReflTransGen.cases_tail hlinks with heq | ⟨q, -, hq⟩
      · exact heq
      · exact absurd hq (hnot q)
    cases hp with
    | refl => exact absurd hroot hne
    | tail above here => exact ⟨root, _, hroot, .tail above here⟩
  · rintro ⟨root, k, hroot, hx⟩
    obtain ⟨p, above, here⟩ := hx.exists_last
    have hbelow : u.arena.Below root x :=
      Relation.TransGen.trans_right (above.reaches h.forest) (here.below h.forest)
    refine ⟨⟨root, hroot, hbelow.to_reflTransGen⟩, fun q => here.not_continues h.forest, ?_⟩
    intro heq
    exact h.not_below_root heq hbelow

/-- **A node is shown as many levels deep as there are nodes above it that have lines.** -/
theorem encard_above (h : u.WellFormed) {root : NodeId} (hroot : u.root = some root)
    (hx : u.Under root (k + 1) x) : {p | u.HasLine p ∧ u.arena.Below p x}.encard = k := by
  induction k generalizing x with
  | zero =>
      obtain ⟨root, above, here⟩ := hx.exists_last
      obtain rfl := above.eq_of_zero
      -- what has a line and is above the node would be the root or above it
      have hempty : {p | u.HasLine p ∧ u.arena.Below p x} = ∅ := by
        refine Set.eq_empty_of_forall_notMem ?_
        rintro p ⟨⟨-, hnot, hne⟩, hp⟩
        rcases Relation.reflTransGen_iff_eq_or_transGen.1 (here.reaches h.forest hnot hp) with rfl | hp
        · exact hne hroot
        · exact h.not_below_root hroot hp
      rw [hempty, Set.encard_empty, Nat.cast_zero]
  | succ k ih =>
      obtain ⟨p, above, here⟩ := hx.exists_last
      have hline : u.HasLine p := h.hasLine_iff.2 ⟨root, k, hroot, above⟩
      have hinsert : {q | u.HasLine q ∧ u.arena.Below q x} =
          insert p {q | u.HasLine q ∧ u.arena.Below q p} := by
        ext q
        constructor
        · rintro ⟨hq, hbelow⟩
          have hreach := here.reaches h.forest hq.2.1 hbelow
          rcases Relation.reflTransGen_iff_eq_or_transGen.1 hreach with rfl | hp
          · exact .inl rfl
          · exact .inr ⟨hq, hp⟩
        · rintro (rfl | ⟨hq, hp⟩)
          · exact ⟨hline, here.below h.forest⟩
          · exact ⟨hq, hp.trans (here.below h.forest)⟩
      have hnot : p ∉ {q | u.HasLine q ∧ u.arena.Below q p} := fun hp => h.forest.acyclic p hp.2
      rw [hinsert, Set.encard_insert_of_notMem hnot, ih above, Nat.cast_succ]

end WellFormed

end CompilationUnit

end ShaderLang
