/-
**Sequences come out in the order in which they were built.**

A sequence is built item by item: the first link has no link before it, and each later one goes on from
the link that the builder answered with before.  Anything else may be built in between, links of other
sequences and further links of this one included, and an item may be anything, a link of the same kind
included: only the links *before* a link are followed, never its item.  So the items of the last link are
all items in the order in which they were put in, and each link before it keeps its own front of them.

Main definitions:

* `ShaderLang.Arena.sequenceItems` — the items of a sequence that may be empty;
* `ShaderLang.Build.Retains` — a step of building that leaves the nodes as they are;
* `ShaderLang.Builder.Runs` — any number of operations;
* `ShaderLang.Builder.Gathers` — items are put into one sequence.

Main results:

* `ShaderLang.Builder.sequenceItems_push` — one more link puts its item last;
* `ShaderLang.Operation.retains_perform` — no operation changes a node;
* `ShaderLang.Builder.Gathers.items_in_order` — **the items of a link are all that were put in up to it,
  in this order, for ever**.
-/

import ShaderLang.Proofs.Builder.Operations
import ShaderLang.Proofs.Builder.Turns

set_option relaxedAutoImplicit false
set_option autoImplicit false

namespace ShaderLang

/-! ### Sequences and their links -/

namespace Arena

/-- The items of the sequence so far. -/
def sequenceItems (a : Arena) : Option NodeId → Except Fault (List NodeId)
  | some list => a.listItems list
  | none => .ok []

theorem Extends.sequenceItems {a a' : Arena} (h : a.Extends a') {list : Option NodeId}
    {items : List NodeId} (hitems : a.sequenceItems list = .ok items) :
    a'.sequenceItems list = .ok items := by
  cases list with
  | none => exact hitems
  | some list => exact h.listItems hitems

end Arena

namespace Builder

/-- One more link puts its item behind those of the sequence so far. -/
theorem sequenceItems_push {b : Builder} {list : Option NodeId} (kind : ListKind) (item : NodeId)
    {items : List NodeId} (hitems : b.arena.sequenceItems list = .ok items) :
    (b.push (.link kind list item)).arena.sequenceItems (some b.arena.nextId) =
      .ok (items ++ [item]) := by
  have hnode : (b.push (.link kind list item)).arena.node? b.arena.nextId =
      some (.link kind list item) := Arena.node?_add_self ..
  have hsize : (b.push (.link kind list item)).arena.walkLength = b.arena.walkLength + 1 :=
    congrArg (· + 1) (Arena.size_add ..)
  refine Arena.listItems_eq_ok.2 ?_
  rw [hsize]
  cases list with
  | none =>
      obtain rfl := Except.ok.inj hitems
      exact ⟨[item], Arena.chainItems_eq_ok.2 ⟨_, hnode, rfl⟩, rfl⟩
  | some list =>
      obtain ⟨chain, hchain, rfl⟩ := Arena.listItems_eq_ok.1 hitems
      have hold := (grows_push b (.link kind (some list) item)).nodes.chainItems (Nat.le_refl _) hchain
      exact ⟨item :: chain, Arena.chainItems_eq_ok.2 ⟨_, hnode, chain, hold, rfl⟩, List.reverse_cons⟩

end Builder

/-! ### Steps that leave the nodes as they are -/

namespace Build

open Builder

variable {α β : Type} {m : Build α}

/-- The step leaves all nodes as they are; it may add others. -/
def Retains (m : Build α) : Prop := ∀ b x b', m b = .ok x b' → b.arena.Extends b'.arena

theorem retains_of_inner (h : m.Inner) : m.Retains := by
  intro b x b' hm
  have hsteps := (h b).extends.nodes
  unfold after at hsteps
  rwa [hm] at hsteps

theorem retains_modify {f : Builder → Builder} (h : ∀ b, (f b).arena = b.arena) :
    (modify f : Build Unit).Retains := by
  intro b x b' hm
  obtain ⟨-, rfl⟩ := EStateM.Result.ok.inj hm
  intro id n hn
  rwa [h b]

theorem retains_add (n : Node) : (add n).Retains := by
  intro b x b' hm
  obtain ⟨-, rfl⟩ := EStateM.Result.ok.inj hm
  exact (grows_push b n).nodes

theorem Retains.bind {f : α → Build β} (hm : m.Retains) (hf : ∀ x, (f x).Retains) :
    (m >>= f).Retains := by
  intro b y b'' h
  rw [bind_apply] at h
  cases hmb : m b with
  | ok x b' =>
      rw [hmb] at h
      exact fun id n hn => hf x b' y b'' h id n (hm b x b' hmb id n hn)
  | error e b' =>
      rw [hmb] at h
      contradiction

theorem Retains.map {f : α → β} (hm : m.Retains) : (f <$> m).Retains := by
  rw [map_eq_pure_bind]
  exact hm.bind fun x => retains_of_inner (inner_pure (f x))

theorem Inner.retains_map {f : α → β} (h : m.Inner) : (f <$> m).Retains := (retains_of_inner h).map

/-- A step that leaves the nodes as they are, as an operation without an answer. -/
theorem Retains.done (hm : m.Retains) : (m >>= fun _ => pure Answer.done : Build Answer).Retains :=
  hm.bind fun _ => retains_of_inner (inner_pure _)

theorem retains_occur (text : String) : (occur text).Retains :=
  retains_of_inner fun _ => (Step.occur text).steps

theorem retains_setCurrent (name : Option String) : (setCurrent name).Retains :=
  retains_modify fun _ => rfl

theorem retains_beginStruct (text : String) : (beginStruct text).Retains := by
  intro b x b' hm
  obtain ⟨-, rfl⟩ := EStateM.Result.ok.inj hm
  exact (grows_opened b text).nodes

theorem retains_structDeclaration (id : UInt32) (members : Option NodeId) :
    (structDeclaration id members).Retains := by
  intro b x b' hm
  rw [structDeclaration_apply] at hm
  cases hcollect : b.collectMembers members with
  | ok collected =>
      rw [hcollect] at hm
      obtain ⟨-, rfl⟩ := EStateM.Result.ok.inj hm
      exact (grows_closed b id members collected).nodes
  | error e =>
      rw [hcollect] at hm
      contradiction

end Build

namespace Operation

open Build

/-- **No operation changes a node**, whatever it refers to. -/
theorem retains_perform (o : Operation) : o.perform.Retains := by
  cases o with
  | position p => exact Retains.done (m := setPosition p) (retains_modify fun _ => rfl)
  | report p => exact (retains_of_inner (inner_report p)).done
  | diagnostics change =>
      exact (retains_modify (f := fun b => { b with diagnostics := change b.diagnostics })
        fun _ => rfl).done
  | endFunction => exact (retains_setCurrent none).done
  | qualifier keyword => exact retains_of_inner (inner_pure _)
  | int text => exact (inner_intLiteral text).retains_map
  | float text => exact (inner_floatLiteral text).retains_map
  | string text => exact (inner_stringLiteral text).retains_map
  | name text => exact (inner_name text).retains_map
  | field base text => exact (inner_field base text).retains_map
  | element array position => exact (inner_element array position).retains_map
  | call callee list => exact (inner_call callee list).retains_map
  | intrinsicCall text list => exact (inner_intrinsicCall text list).retains_map
  | namedType text => exact (inner_namedType text).retains_map
  | structType text => exact (inner_structType text).retains_map
  | vectorType component size => exact (inner_vectorType component size).retains_map
  | matrixType component rows columns => exact (inner_matrixType component rows columns).retains_map
  | semantic text =>
      refine (retains_of_inner (inner_semantic text)).bind fun id => ?_
      cases id <;> exact retains_of_inner (inner_pure _)
  | declaration q type text size tie initializer =>
      exact (inner_declaration q type text size tie initializer).retains_map
  | beginStruct text => exact (retains_beginStruct text).map
  | structDeclarator text size tie => exact (inner_structDeclarator text size tie).retains_map
  | structDeclaration id members => exact (retains_structDeclaration id members).map
  | parameter q type text size tie => exact (inner_parameter q type text size tie).retains_map
  | prototype type text parameters tie =>
      exact ((retains_setCurrent _).bind fun _ =>
        (retains_occur text).bind fun _ => retains_add _).map
  | definition head body => exact ((retains_setCurrent _).bind fun _ => retains_add _).map
  | _ => exact (retains_add _).map

end Operation

/-! ### Building a sequence -/

namespace Builder

/-- One operation, whatever it refers to. -/
def Performs (b b' : Builder) : Prop := ∃ (o : Operation) (answer : Answer), o.perform b = .ok answer b'

/-- Any number of operations. -/
def Runs : Builder → Builder → Prop := Relation.ReflTransGen Performs

/-- Items are put into a sequence of a kind one by one, with any operations before and in between.  Beside
the items stand the links that the builder answered with. -/
inductive Gathers (kind : ListKind) (b : Builder) : List NodeId → List NodeId → Builder → Prop where
  | first {item list : NodeId} {b₁ b₂ : Builder} (before : Runs b b₁)
      (linked : (Operation.link kind none item).perform b₁ = .ok (.node list) b₂) :
      Gathers kind b [item] [list] b₂
  | next {items lists : List NodeId} {previous item list : NodeId} {b₁ b₂ b₃ : Builder}
      (earlier : Gathers kind b items (lists ++ [previous]) b₁) (between : Runs b₁ b₂)
      (linked : (Operation.link kind (some previous) item).perform b₂ = .ok (.node list) b₃) :
      Gathers kind b (items ++ [item]) (lists ++ [previous] ++ [list]) b₃

variable {kind : ListKind} {b b' b'' : Builder} {items lists : List NodeId}

theorem Runs.extends (h : b.Runs b') : b.arena.Extends b'.arena := by
  induction h with
  | refl => exact fun _ _ hn => hn
  | tail _ hlast ih =>
      obtain ⟨o, answer, hrun⟩ := hlast
      exact fun id n hn => o.retains_perform _ _ _ hrun id n (ih id n hn)

/-- A link never meets a fault. -/
theorem perform_link (kind : ListKind) (previous : Option NodeId) (item : NodeId) (b : Builder) :
    (Operation.link kind previous item).perform b =
      .ok (.node b.arena.nextId) (b.push (.link kind previous item)) := rfl

namespace Gathers

/-- Every link has the front of the items that ends with its own one. -/
structure Fronts (items lists : List NodeId) (a : Arena) : Prop where
  length_eq : lists.length = items.length
  front : ∀ i list, lists[i]? = some list → a.listItems list = .ok (items.take (i + 1))

theorem Fronts.extends {a a' : Arena} (h : Fronts items lists a) (he : a.Extends a') :
    Fronts items lists a' :=
  ⟨h.length_eq, fun i list hi => he.listItems (h.front i list hi)⟩

/-- The last link has all items. -/
theorem Fronts.last {a : Arena} {previous : NodeId} (h : Fronts items (lists ++ [previous]) a) :
    a.listItems previous = .ok items := by
  have hlength : lists.length + 1 = items.length := by
    rw [← h.length_eq, List.length_append, List.length_singleton]
  have hfront := h.front lists.length previous List.getElem?_concat_length
  rwa [hlength, List.take_length] at hfront

/-- One more link leaves the fronts as they are and has all items. -/
theorem Fronts.append {a : Arena} {item list : NodeId} (h : Fronts items lists a)
    (hlist : a.listItems list = .ok (items ++ [item])) :
    Fronts (items ++ [item]) (lists ++ [list]) a where
  length_eq := by rw [List.length_append, List.length_append, h.length_eq]; rfl
  front := by
    intro i other hi
    by_cases hlt : i < lists.length
    · rw [List.getElem?_append_left hlt] at hi
      have hle : i + 1 ≤ items.length := h.length_eq ▸ hlt
      rw [h.front i other hi, List.take_append_of_le_length hle]
    · -- only the new link is left
      have hbound := (List.getElem?_eq_some_iff.1 hi).1
      rw [List.length_append, List.length_singleton] at hbound
      obtain rfl : i = lists.length := by omega
      obtain rfl : list = other := Option.some.inj (List.getElem?_concat_length.symm.trans hi)
      rw [hlist, List.take_of_length_le]
      rw [List.length_append, List.length_singleton, h.length_eq]

/-- The induction is on the number of links; what is built between two of them changes no chain. -/
theorem fronts (h : b.Gathers kind items lists b') : Fronts items lists b'.arena := by
  induction h with
  | @first item list b₁ b₂ before linked =>
      rw [perform_link] at linked
      obtain ⟨hlist, rfl⟩ := EStateM.Result.ok.inj linked
      obtain rfl := Answer.node.inj hlist
      have hnone : Fronts [] [] (b₁.push (.link kind none item)).arena := ⟨rfl, nofun⟩
      have hempty : b₁.arena.sequenceItems none = .ok [] := rfl
      exact hnone.append (sequenceItems_push kind item hempty)
  | @next items lists previous item list b₁ b₂ b₃ earlier between linked ih =>
      rw [perform_link] at linked
      obtain ⟨hlist, rfl⟩ := EStateM.Result.ok.inj linked
      obtain rfl := Answer.node.inj hlist
      have hbetween := ih.extends between.extends
      have hearlier : b₂.arena.sequenceItems (some previous) = .ok items := hbetween.last
      exact (hbetween.extends (grows_push b₂ _).nodes).append (sequenceItems_push kind item hearlier)

/-- **A sequence has its items in the order in which they were put in.**  Items of any kind are put in one
by one, with anything built in between and later.  Then there is a link for every item, the last link has
all items in this order, each link before it has the items up to its own one, and any further item can be
put in behind them. -/
theorem items_in_order (h : b.Gathers kind items lists b') (later : b'.Runs b'') :
    (∃ list, lists.getLast? = some list ∧ b''.arena.listItems list = .ok items) ∧
      lists.length = items.length ∧
      (∀ i list, lists[i]? = some list → b''.arena.listItems list = .ok (items.take (i + 1))) ∧
      ∀ item, ∃ list b₃, b.Gathers kind (items ++ [item]) (lists ++ [list]) b₃ := by
  have hfronts := h.fronts.extends later.extends
  obtain ⟨others, last, rfl⟩ : ∃ others last, lists = others ++ [last] := by
    cases h with
    | first => exact ⟨[], _, rfl⟩
    | next => exact ⟨_, _, rfl⟩
  exact ⟨⟨last, List.getLast?_concat, hfronts.last⟩, hfronts.length_eq, hfronts.front,
    fun item => ⟨_, _, h.next later (perform_link ..)⟩⟩

/-- Two truth values and a sequence with the first one. -/
def prepared : Builder :=
  (((start .empty).push (.bool true)).push (.link .initializers none ⟨0⟩)).push (.bool false)

/-- A sequence of the second truth value and of the first sequence, with another one in between. -/
def nested : Builder :=
  ((prepared.push (.link .initializers none ⟨2⟩)).push (.link .arguments none ⟨0⟩)).push
    (.link .initializers (some ⟨3⟩) ⟨1⟩)

/-- The inner sequence stays one item, also where the outer one goes on from its first link again. -/
theorem nested_in_order :
    (start .empty).Gathers .initializers [⟨2⟩, ⟨1⟩] [⟨3⟩, ⟨5⟩] nested ∧
      nested.Runs (nested.push (.link .initializers (some ⟨3⟩) ⟨0⟩)) ∧
      (nested.push (.link .initializers (some ⟨3⟩) ⟨0⟩)).arena.listItems ⟨5⟩ = .ok [⟨2⟩, ⟨1⟩] ∧
      (nested.push (.link .initializers (some ⟨3⟩) ⟨0⟩)).arena.listItems ⟨3⟩ = .ok [⟨2⟩] := by
  have hprepared : (start .empty).Runs prepared :=
    ((Relation.ReflTransGen.single ⟨.bool true, _, rfl⟩).tail
      ⟨.link .initializers none ⟨0⟩, _, rfl⟩).tail ⟨.bool false, _, rfl⟩
  have hfirst : (start .empty).Gathers .initializers [⟨2⟩] ([] ++ [⟨3⟩])
      (prepared.push (.link .initializers none ⟨2⟩)) := .first hprepared rfl
  have hgathers : (start .empty).Gathers .initializers [⟨2⟩, ⟨1⟩] [⟨3⟩, ⟨5⟩] nested :=
    .next hfirst (.single ⟨.link .arguments none ⟨0⟩, _, rfl⟩) rfl
  have hlater : nested.Runs (nested.push (.link .initializers (some ⟨3⟩) ⟨0⟩)) :=
    .single ⟨.link .initializers (some ⟨3⟩) ⟨0⟩, _, rfl⟩
  obtain ⟨-, -, hfronts, -⟩ := items_in_order hgathers hlater
  exact ⟨hgathers, hlater, hfronts 1 ⟨5⟩ rfl, hfronts 0 ⟨3⟩ rfl⟩

end Gathers

end Builder

end ShaderLang
