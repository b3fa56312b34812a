/-
**The statement that a node stands for.**

As a node can stand for an expression, it can stand for an initial value, a variable, a declaration or a
statement: it is the construct at the root of the tree, and the nodes that it refers to stand for the
trees below.  Where a tree has several parts of one kind, they hang on a chain of links of that kind.

All these relations last: what a node stands for does not change while more is built.

Main definitions:

* `ShaderLang.Arena.Links` — the items of a chain of a kind;
* `ShaderLang.Builder.StandsInitial`, `ShaderLang.Builder.StandsDeclaration`,
  `ShaderLang.Builder.StandsStmt` — the node stands for the tree;
* `ShaderLang.Builder.Settled`, `ShaderLang.Builder.SettledIf`, `ShaderLang.Builder.Itemized` — a node,
  a node that may be missing, or a chain stands for something, and nothing below is missing.

Main results:

* `ShaderLang.Builder.lasting_standsStmt` — **what a node stands for does not change while more is
  built**.
-/

import ShaderLang.Proofs.Grammar.Standing
import ShaderLang.Proofs.Grammar.Writing

set_option relaxedAutoImplicit false
set_option autoImplicit false

namespace ShaderLang

/-- The items of a chain of a kind, first item first. -/
inductive Arena.Links (a : Arena) (kind : ListKind) : Option NodeId → List NodeId → Prop where
  | none : Links a kind none []
  | link {previous : Option NodeId} {id item : NodeId} {items : List NodeId}
      (before : Links a kind previous items)
      (here : a.node? id = some (.link kind previous item)) :
      Links a kind (some id) (items ++ [item])

namespace Builder

/-! ### Trees -/

/-- The node stands for the semantic. -/
def StandsSemantic (b : Builder) (id : NodeId) (s : Semantic) : Prop :=
  b.arena.node? id = some (.semantic s)

/-- The node stands for the initial value; the last link of a list stands for the list. -/
inductive StandsInitial (b : Builder) : NodeId → Initial → Prop where
  | value {id : NodeId} {e : Expr} (h : b.Stands id e) : StandsInitial b id (.value e)
  | list {id : NodeId} {parts : List (NodeId × Initial)}
      (links : b.arena.Links .initializers (some id) (parts.map Prod.fst))
      (items : ∀ p ∈ parts, StandsInitial b p.1 p.2) :
      StandsInitial b id (.list (parts.map Prod.snd))

/-- The node stands for the variable, which has the qualifiers and the type. -/
inductive StandsDeclarator (q : Qualifiers) (type : DataType) (b : Builder) :
    NodeId → Declarator → Prop where
  | intro {id : NodeId} {d : Declarator} {name : NameId} {size tie value : Option NodeId}
      (here : b.arena.node? id = some (.declaration q type name size tie value))
      (known : b.names.text? name = some d.name) (hsize : Option.Rel b.Stands size d.size)
      (htie : Option.Rel b.StandsSemantic tie d.tie)
      (hvalue : Option.Rel b.StandsInitial value d.value) : StandsDeclarator q type b id d

/-- The node stands for the declaration. -/
inductive StandsDeclaration (b : Builder) : NodeId → Declaration → Prop where
  | intro {id list : NodeId} {q : Qualifiers} {type : DataType}
      {parts : List (NodeId × Declarator)}
      (here : b.arena.node? id = some (.declarationStatement list))
      (links : b.arena.Links .declarators (some list) (parts.map Prod.fst))
      (items : ∀ p ∈ parts, StandsDeclarator q type b p.1 p.2) :
      StandsDeclaration b id ⟨q, type, parts.map Prod.snd⟩

/-- The node, if there is one, stands for what a counting loop begins with. -/
inductive StandsStart (b : Builder) : Option NodeId → LoopStart → Prop where
  | none : StandsStart b none .none
  | declaration {id : NodeId} {d : Declaration} (h : b.StandsDeclaration id d) :
      StandsStart b (some id) (.declaration d)
  | value {id i : NodeId} {e : Expr} (here : b.arena.node? id = some (.expression (some i)))
      (h : b.Stands i e) : StandsStart b (some id) (.value e)

/-- The node stands for the statement. -/
inductive StandsStmt (b : Builder) : NodeId → Stmt → Prop where
  | block {id : NodeId} {list : Option NodeId} {parts : List (NodeId × Stmt)}
      (here : b.arena.node? id = some (.compound list))
      (links : b.arena.Links .statements list (parts.map Prod.fst))
      (body : ∀ p ∈ parts, StandsStmt b p.1 p.2) : StandsStmt b id (.block (parts.map Prod.snd))
  | declaration {id : NodeId} {d : Declaration} (h : b.StandsDeclaration id d) :
      StandsStmt b id (.declaration d)
  | value {id i : NodeId} {e : Expr} (here : b.arena.node? id = some (.expression (some i)))
      (h : b.Stands i e) : StandsStmt b id (.value e)
  | empty {id : NodeId} (here : b.arena.node? id = some (.expression none)) :
      StandsStmt b id .empty
  | choice {id i j : NodeId} {e : Expr} {yes : Stmt}
      (here : b.arena.node? id = some (.conditional i j none)) (condition : b.Stands i e)
      (branch : StandsStmt b j yes) : StandsStmt b id (.choice e yes)
  | choiceElse {id i j k : NodeId} {e : Expr} {yes no : Stmt}
      (here : b.arena.node? id = some (.conditional i j (some k))) (condition : b.Stands i e)
      (branch : StandsStmt b j yes) (other : StandsStmt b k no) :
      StandsStmt b id (.choiceElse e yes no)
  | whileLoop {id i j : NodeId} {e : Expr} {body : Stmt}
      (here : b.arena.node? id = some (.whileLoop i j)) (condition : b.Stands i e)
      (inner : StandsStmt b j body) : StandsStmt b id (.whileLoop e body)
  | doLoop {id i j : NodeId} {e : Expr} {body : Stmt}
      (here : b.arena.node? id = some (.doLoop i j)) (inner : StandsStmt b i body)
      (condition : b.Stands j e) : StandsStmt b id (.doLoop body e)
  | forLoop {id j : NodeId} {i k l : Option NodeId} {first : LoopStart} {test next : Option Expr}
      {body : Stmt} (here : b.arena.node? id = some (.forLoop i k l j))
      (hfirst : b.StandsStart i first) (htest : Option.Rel b.Stands k test)
      (hnext : Option.Rel b.Stands l next) (inner : StandsStmt b j body) :
      StandsStmt b id (.forLoop first test next body)
  | jump {id : NodeId} {j : Jump} (here : b.arena.node? id = some (.jump j)) :
      StandsStmt b id (.jump j)
  | result {id : NodeId} {i : Option NodeId} {value : Option Expr}
      (here : b.arena.node? id = some (.result i)) (h : Option.Rel b.Stands i value) :
      StandsStmt b id (.result value)

/-! ### What lasts -/

/-- What nodes stand for does not change while more is built. -/
def Lasting {α : Type} (stands : Builder → NodeId → α → Prop) : Prop :=
  ∀ ⦃allowed : Problem → Prop⦄ ⦃b b' : Builder⦄ ⦃id : NodeId⦄ ⦃x : α⦄, b.Extends allowed b' →
    stands b id x → stands b' id x

section Lasting

variable {allowed : Problem → Prop} {b b' : Builder}

theorem Extends.links (h : b.Extends allowed b') {kind : ListKind} {list : Option NodeId}
    {items : List NodeId} (hl : b.arena.Links kind list items) :
    b'.arena.Links kind list items := by
  induction hl with
  | none => exact .none
  | link _ here ih => exact .link ih (h.nodes _ _ here)

/-- What may be missing lasts as well. -/
theorem Lasting.rel {α : Type} {stands : Builder → NodeId → α → Prop} (h : Lasting stands)
    (hb : b.Extends allowed b') {id : Option NodeId} {x : Option α}
    (hx : Option.Rel (stands b) id x) : Option.Rel (stands b') id x := by
  cases hx with
  | none => exact .none
  | some hx => exact .some (h hb hx)

theorem lasting_stands : Lasting Stands := fun _ _ _ _ _ hb h => h.mono hb

theorem lasting_standsSemantic : Lasting StandsSemantic := fun _ _ _ _ _ hb h => hb.nodes _ _ h

theorem lasting_standsInitial : Lasting StandsInitial := by
  intro _ b b' id i hb h
  induction h with
  | value h => exact .value (h.mono hb)
  | list links _ ih => exact .list (hb.links links) ih

theorem lasting_standsDeclarator (q : Qualifiers) (type : DataType) :
    Lasting (StandsDeclarator q type) := by
  intro _ b b' id d hb h
  cases h with
  | intro here known hsize htie hvalue =>
      constructor
      · exact hb.nodes _ _ here
      · exact hb.names _ _ known
      · exact lasting_stands.rel hb hsize
      · exact lasting_standsSemantic.rel hb htie
      · exact lasting_standsInitial.rel hb hvalue

theorem lasting_standsDeclaration : Lasting StandsDeclaration := by
  intro _ b b' id d hb h
  cases h with
  | intro here links items =>
      constructor
      · exact hb.nodes _ _ here
      · exact hb.links links
      · exact fun p hp => lasting_standsDeclarator _ _ hb (items p hp)

theorem StandsStart.mono {first : LoopStart} {id : Option NodeId} (h : b.StandsStart id first)
    (hb : b.Extends allowed b') : b'.StandsStart id first := by
  cases h with
  | none => exact .none
  | declaration h => exact .declaration (lasting_standsDeclaration hb h)
  | value here h => exact .value (hb.nodes _ _ here) (h.mono hb)

/-- **What a node stands for does not change while more is built.** -/
theorem lasting_standsStmt : Lasting StandsStmt := by
  intro _ b b' id s hb h
  induction h with
  | block here links _ ih => exact .block (hb.nodes _ _ here) (hb.links links) ih
  | declaration h => exact .declaration (lasting_standsDeclaration hb h)
  | value here h => exact .value (hb.nodes _ _ here) (h.mono hb)
  | empty here => exact .empty (hb.nodes _ _ here)
  | choice here condition _ ih => exact .choice (hb.nodes _ _ here) (condition.mono hb) ih
  | choiceElse here condition _ _ ih ih' =>
      exact .choiceElse (hb.nodes _ _ here) (condition.mono hb) ih ih'
  | whileLoop here condition _ ih => exact .whileLoop (hb.nodes _ _ here) (condition.mono hb) ih
  | doLoop here _ condition ih => exact .doLoop (hb.nodes _ _ here) ih (condition.mono hb)
  | forLoop here hfirst htest hnext _ ih =>
      have htest := lasting_stands.rel hb htest
      have hnext := lasting_stands.rel hb hnext
      exact .forLoop (hb.nodes _ _ here) (hfirst.mono hb) htest hnext ih
  | jump here => exact .jump (hb.nodes _ _ here)
  | result here h => exact .result (hb.nodes _ _ here) (lasting_stands.rel hb h)

end Lasting

/-! ### Nothing below is missing -/

section Settled

variable {α : Type} {stands : Builder → NodeId → α → Prop} {allowed : Problem → Prop}
  {b b' : Builder}

/-- The node stands for the thing and does not depend on anything that is missing. -/
structure Settled (stands : Builder → NodeId → α → Prop) (x : α) (b : Builder) (id : NodeId) :
    Prop where
  stands : stands b id x
  grounded : b.arena.Grounded id

/-- A node that may be missing stands for a thing that may be. -/
def SettledIf (stands : Builder → NodeId → α → Prop) (x : Option α) (b : Builder)
    (id : Option NodeId) : Prop :=
  Option.Rel (fun i y => Settled stands y b i) id x

/-- A chain of links of a kind stands for a list of things, each item for its own. -/
structure Itemized (stands : Builder → NodeId → α → Prop) (kind : ListKind) (xs : List α)
    (b : Builder) (list : Option NodeId) : Prop where
  stands : ∃ parts : List (NodeId × α), parts.map Prod.snd = xs ∧
    b.arena.Links kind list (parts.map Prod.fst) ∧ ∀ p ∈ parts, stands b p.1 p.2
  grounded : ∀ id ∈ list.toList, b.arena.Grounded id

theorem Built.settled {e : Expr} {id : NodeId} (h : Built e b id) : Settled Stands e b id :=
  ⟨h.stands, h.grounded⟩

theorem Settled.mono {x : α} {id : NodeId} (h : Settled stands x b id) (hl : Lasting stands)
    (hb : b.Extends allowed b') : Settled stands x b' id :=
  ⟨hl hb h.stands, hb.grounded h.grounded⟩

namespace SettledIf

variable {x : Option α} {id : Option NodeId}

theorem rel (h : SettledIf stands x b id) : Option.Rel (stands b) id x := by
  cases h with
  | none => exact .none
  | some h => exact .some h.stands

theorem grounded (h : SettledIf stands x b id) : ∀ c ∈ id.toList, b.arena.Grounded c := by
  cases h with
  | none => simp
  | some h => simpa using h.grounded

theorem mono (h : SettledIf stands x b id) (hl : Lasting stands) (hb : b.Extends allowed b') :
    SettledIf stands x b' id := by
  cases h with
  | none => exact .none
  | some h => exact .some (h.mono hl hb)

end SettledIf

namespace Itemized

variable {kind : ListKind} {xs : List α} {list : Option NodeId}

theorem nil : Itemized stands kind [] b none where
  stands := ⟨[], rfl, .none, by simp⟩
  grounded := by simp

theorem mono (h : Itemized stands kind xs b list) (hl : Lasting stands)
    (hb : b.Extends allowed b') : Itemized stands kind xs b' list where
  stands := by
    obtain ⟨parts, hxs, hlinks, hparts⟩ := h.stands
    exact ⟨parts, hxs, hb.links hlinks, fun p hp => hl hb (hparts p hp)⟩
  grounded := fun id hid => hb.grounded (h.grounded id hid)

/-- A chain that has items has a last link. -/
theorem exists_id (h : Itemized stands kind xs b list) (hne : xs ≠ []) :
    ∃ id, list = some id := by
  obtain ⟨parts, hxs, hlinks, -⟩ := h.stands
  cases list with
  | some id => exact ⟨id, rfl⟩
  | none =>
      have hnone : ∀ items, b.arena.Links kind none items → items = [] := by
        intro items h
        cases h
        rfl
      have hparts : parts = [] := List.map_eq_nil_iff.1 (hnone _ hlinks)
      rw [hparts] at hxs
      exact absurd hxs.symm hne

/-- One more item behind the others. -/
theorem snoc {x : α} {id item : NodeId} (h : Itemized stands kind xs b list)
    (hitem : stands b item x) (here : b.arena.node? id = some (.link kind list item))
    (hground : b.arena.Grounded id) : Itemized stands kind (xs ++ [x]) b (some id) where
  stands := by
    obtain ⟨parts, rfl, hlinks, hparts⟩ := h.stands
    refine ⟨parts ++ [(item, x)], by simp, ?_, ?_⟩
    · rw [List.map_append]
      exact .link hlinks here
    · intro p hp
      rcases List.mem_append.1 hp with hp | hp
      · exact hparts p hp
      · obtain rfl := List.mem_singleton.1 hp
        exact hitem
  grounded := by simpa using hground

end Itemized

end Settled

end Builder

end ShaderLang
