/-
**The tree that a node stands for.**

A node stands for a tree if it is the construct at the root of the tree and the nodes that it refers
to stand for the trees below.  Numbers of nodes and positions do not matter.  Names are compared by
their texts, literals by the values of their texts.

Main definitions:

* `ShaderLang.Arena.Chain` — the items of a chain of arguments;
* `ShaderLang.Builder.Stands` — the node stands for the tree;
* `ShaderLang.Builder.Built`, `ShaderLang.Builder.Listed` — the node stands for the tree, the chain
  of arguments for the trees, and nothing below is missing.

Main results:

* `ShaderLang.Builder.Stands.mono` — **what a node stands for does not change while more is built**;
* `ShaderLang.Arena.Chain.listItems_eq` — the items of a chain are those that flattening it gives.
-/

import ShaderLang.Proofs.Builder.Growth
import ShaderLang.Proofs.Grammar.Printing

set_option relaxedAutoImplicit false
set_option autoImplicit false

namespace ShaderLang

/-! ### Chains of arguments -/

namespace Arena

/-- The items of a chain of arguments, first item first. -/
inductive Chain (a : Arena) : Option NodeId → List NodeId → Prop where
  | none : Chain a none []
  | link {previous : Option NodeId} {id item : NodeId} {items : List NodeId}
      (before : Chain a previous items)
      (here : a.node? id = some (.link .arguments previous item)) :
      Chain a (some id) (items ++ [item])

variable {a : Arena}

/-- A walk with fuel enough finds the items, last item first. -/
theorem Chain.chainItems_eq {list : Option NodeId} {items : List NodeId} (h : a.Chain list items)
    {id : NodeId} (hid : list = some id) (hground : a.Grounded id) {fuel : Nat}
    (hfuel : id.index < fuel) : a.chainItems fuel id = .ok items.reverse := by
  induction h generalizing id fuel with
  | none => contradiction
  | @link previous last item items before here ih =>
      obtain rfl := Option.some.inj hid
      obtain ⟨n, hn, hbelow⟩ := hground.exists_node
      obtain rfl := Option.some.inj (here.symm.trans hn)
      obtain ⟨fuel, rfl⟩ : ∃ k, fuel = k + 1 := ⟨fuel - 1, by omega⟩
      rw [chainItems, get_of_node? here]
      cases previous with
      | none =>
          cases before
          rfl
      | some previous =>
          have hprevious := hbelow previous (by simp [Node.children])
          have hrest : a.chainItems fuel previous = .ok items.reverse :=
            ih rfl hprevious.1 (by omega)
          simp only [Node.asLink_link, hrest, List.reverse_append, List.reverse_cons,
            List.reverse_nil, List.nil_append, List.singleton_append]

/-- The items of a chain are those that flattening it gives. -/
theorem Chain.listItems_eq {id : NodeId} {items : List NodeId} (h : a.Chain (some id) items)
    (hground : a.Grounded id) : a.listItems id = .ok items := by
  rw [listItems, h.chainItems_eq rfl hground (walkLength_gt hground)]
  show Except.ok items.reverse.reverse = _
  rw [List.reverse_reverse]

end Arena

namespace Builder

/-! ### Trees -/

/-- The node stands for the tree. -/
inductive Stands (b : Builder) : NodeId → Expr → Prop where
  | int {id : NodeId} {text : String} {l : IntegerLiteral}
      (here : b.arena.node? id = some (.int l.value l.isUnsigned))
      (value : l = (IntegerLiteral.ofText text).getD ⟨0, false⟩) : Stands b id (.int text)
  | float {id : NodeId} {text : String}
      (here : b.arena.node? id = some (.float ((floatLiteral text).getD 0.0))) :
      Stands b id (.float text)
  | string {id : NodeId} {text : String} {sid : Option StringId}
      (here : b.arena.node? id = some (.string sid))
      (value : (sid.bind b.names.pool.get?).getD "" = StringPool.literalText text)
      (known : ∀ i, sid = some i → (b.names.pool.get? i).isSome) : Stands b id (.string text)
  | bool {id : NodeId} {value : Bool} (here : b.arena.node? id = some (.bool value)) :
      Stands b id (.bool value)
  | name {id : NodeId} {nid : NameId} {text : String} (here : b.arena.node? id = some (.name nid))
      (known : b.names.text? nid = some text) : Stands b id (.name text)
  | unary {id i : NodeId} {op : UnaryOp} {e : Expr}
      (here : b.arena.node? id = some (.unary op i)) (operand : Stands b i e) :
      Stands b id (.unary op e)
  | step {id i : NodeId} {p : Placement} {d : Direction} {e : Expr}
      (here : b.arena.node? id = some (.step p d i)) (operand : Stands b i e) :
      Stands b id (.step p d e)
  | cast {id i : NodeId} {type : DataType} {e : Expr}
      (here : b.arena.node? id = some (.cast type i)) (operand : Stands b i e) :
      Stands b id (.cast type e)
  | construct {id : NodeId} {list : Option NodeId} {type : DataType}
      {parts : List (NodeId × Expr)} (here : b.arena.node? id = some (.construct type list))
      (chain : b.arena.Chain list (parts.map Prod.fst))
      (arguments : ∀ p ∈ parts, Stands b p.1 p.2) :
      Stands b id (.construct type (parts.map Prod.snd))
  | binary {id i j : NodeId} {op : BinaryOp} {e f : Expr}
      (here : b.arena.node? id = some (.binary op i j)) (left : Stands b i e)
      (right : Stands b j f) : Stands b id (.binary op e f)
  | ternary {id i j k : NodeId} {e f g : Expr}
      (here : b.arena.node? id = some (.ternary i j k)) (condition : Stands b i e)
      (yes : Stands b j f) (no : Stands b k g) : Stands b id (.ternary e f g)
  | assign {id i j : NodeId} {op : AssignOp} {e f : Expr}
      (here : b.arena.node? id = some (.assign op i j)) (target : Stands b i e)
      (value : Stands b j f) : Stands b id (.assign op e f)
  | comma {id i j : NodeId} {e f : Expr} (here : b.arena.node? id = some (.comma i j))
      (left : Stands b i e) (right : Stands b j f) : Stands b id (.comma e f)
  | intrinsic {id : NodeId} {list : Option NodeId} {intrinsic : Intrinsic}
      {parts : List (NodeId × Expr)}
      (here : b.arena.node? id = some (.intrinsicCall intrinsic list))
      (chain : b.arena.Chain list (parts.map Prod.fst))
      (arguments : ∀ p ∈ parts, Stands b p.1 p.2) :
      Stands b id (.intrinsic intrinsic (parts.map Prod.snd))
  | call {id i : NodeId} {list : Option NodeId} {f : Expr} {parts : List (NodeId × Expr)}
      (here : b.arena.node? id = some (.call i list)) (callee : Stands b i f)
      (chain : b.arena.Chain list (parts.map Prod.fst))
      (arguments : ∀ p ∈ parts, Stands b p.1 p.2) : Stands b id (.call f (parts.map Prod.snd))
  | index {id i j : NodeId} {e f : Expr} (here : b.arena.node? id = some (.index i j))
      (array : Stands b i e) (position : Stands b j f) : Stands b id (.index e f)
  | field {id i : NodeId} {nid : NameId} {e : Expr} {text : String}
      (here : b.arena.node? id = some (.field i nid)) (base : Stands b i e)
      (known : b.names.text? nid = some text) : Stands b id (.field e text)

variable {allowed : Problem → Prop} {b b' : Builder}

theorem Extends.chain (h : b.Extends allowed b') {list : Option NodeId} {items : List NodeId}
    (hc : b.arena.Chain list items) : b'.arena.Chain list items := by
  induction hc with
  | none => exact .none
  | link _ here ih => exact .link ih (h.nodes _ _ here)

/-- **What a node stands for does not change while more is built.** -/
theorem Stands.mono {id : NodeId} {e : Expr} (h : b.Stands id e) (hb : b.Extends allowed b') :
    b'.Stands id e := by
  induction h with
  | int here value => exact .int (hb.nodes _ _ here) value
  | float here => exact .float (hb.nodes _ _ here)
  | @string id text sid here value known =>
      -- a text that had a number keeps it, and the empty text has none
      have hknown : ∀ i, sid = some i → b'.names.pool.get? i = b.names.pool.get? i := by
        intro i hi
        obtain ⟨t, ht⟩ := Option.isSome_iff_exists.1 (known i hi)
        rw [ht]
        exact hb.texts i t ht
      refine .string (hb.nodes _ _ here) ?_ fun i hi => hknown i hi ▸ known i hi
      cases sid with
      | none => exact value
      | some i =>
          rw [← value]
          simp only [Option.bind_some, hknown i rfl]
  | bool here => exact .bool (hb.nodes _ _ here)
  | name here known => exact .name (hb.nodes _ _ here) (hb.names _ _ known)
  | unary here _ ih => exact .unary (hb.nodes _ _ here) ih
  | step here _ ih => exact .step (hb.nodes _ _ here) ih
  | cast here _ ih => exact .cast (hb.nodes _ _ here) ih
  | construct here chain _ ih => exact .construct (hb.nodes _ _ here) (hb.chain chain) ih
  | binary here _ _ ihl ihr => exact .binary (hb.nodes _ _ here) ihl ihr
  | ternary here _ _ _ ihc ihy ihn => exact .ternary (hb.nodes _ _ here) ihc ihy ihn
  | assign here _ _ iht ihv => exact .assign (hb.nodes _ _ here) iht ihv
  | comma here _ _ ihl ihr => exact .comma (hb.nodes _ _ here) ihl ihr
  | intrinsic here chain _ ih => exact .intrinsic (hb.nodes _ _ here) (hb.chain chain) ih
  | call here _ chain _ ihf ih => exact .call (hb.nodes _ _ here) ihf (hb.chain chain) ih
  | index here _ _ iha ihp => exact .index (hb.nodes _ _ here) iha ihp
  | field here _ known ih => exact .field (hb.nodes _ _ here) ih (hb.names _ _ known)

/-- The node stands for the tree and does not depend on anything that is missing. -/
structure Built (e : Expr) (b : Builder) (id : NodeId) : Prop where
  stands : b.Stands id e
  grounded : b.arena.Grounded id

theorem Built.mono {e : Expr} {id : NodeId} (h : Built e b id) (hb : b.Extends allowed b') :
    Built e b' id :=
  ⟨h.stands.mono hb, hb.grounded h.grounded⟩

/-- A chain of arguments stands for a list of trees, each item for its own. -/
structure Listed (es : List Expr) (b : Builder) (list : Option NodeId) : Prop where
  stands : ∃ parts : List (NodeId × Expr), parts.map Prod.snd = es ∧
    b.arena.Chain list (parts.map Prod.fst) ∧ ∀ p ∈ parts, b.Stands p.1 p.2
  grounded : ∀ id, list = some id → b.arena.Grounded id

theorem Listed.nil (b : Builder) : Listed [] b none where
  stands := ⟨[], rfl, .none, by simp⟩
  grounded := nofun

theorem Listed.mono {es : List Expr} {list : Option NodeId} (h : Listed es b list)
    (hb : b.Extends allowed b') : Listed es b' list where
  stands := by
    obtain ⟨parts, hes, hchain, hstands⟩ := h.stands
    exact ⟨parts, hes, hb.chain hchain, fun p hp => (hstands p hp).mono hb⟩
  grounded := fun id hid => hb.grounded (h.grounded id hid)

/-- One more argument behind the others. -/
theorem Listed.snoc {es : List Expr} {e : Expr} {list : Option NodeId} {id item : NodeId}
    (h : Listed es b list) (hitem : b.Stands item e)
    (here : b.arena.node? id = some (.link .arguments list item))
    (hground : b.arena.Grounded id) : Listed (es ++ [e]) b (some id) where
  stands := by
    obtain ⟨parts, rfl, hchain, hstands⟩ := h.stands
    refine ⟨parts ++ [(item, e)], by simp, ?_, ?_⟩
    · rw [List.map_append]
      exact .link hchain here
    · intro p hp
      rcases List.mem_append.1 hp with hp | hp
      · exact hstands p hp
      · obtain rfl := List.mem_singleton.1 hp
        exact hitem
  grounded := by
    rintro _ ⟨⟩
    exact hground

end Builder

end ShaderLang
