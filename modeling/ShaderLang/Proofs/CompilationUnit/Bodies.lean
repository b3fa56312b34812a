/-
**The nodes of a body.**

The nodes between the head of a function and the function itself are those of its body, and nothing
else.  None of them bounds a part of the program, and none of them is referred to from behind the
function: the nodes of a part refer to nodes of that part only, and the link that comes behind it
refers to the whole part and to the link before.  So no node below another part of the program, or
below a head, lies in a body.

Main definitions:

* `ShaderLang.Builder.Encloses`, `ShaderLang.Builder.Bodies` — every function has a body of its own;
* `ShaderLang.Arena.Sealed` — bodies are not referred to from behind their functions;
* `ShaderLang.Arena.InBody`, `ShaderLang.Arena.IsOutside` — nodes in the body of a function, and nodes
  below which there are none of a body.

Main results:

* `ShaderLang.Builder.Bodies.turns` — what is built in turns has bodies;
* `ShaderLang.Grammar.sealed_program` — **reading a program leaves its bodies sealed**;
* `ShaderLang.Builder.Bodies.not_inBody` — **what is below a head, or below a part that is no function,
  lies in no body**.
-/

import ShaderLang.Proofs.Grammar.Programs
import ShaderLang.Proofs.Grammar.Turns

set_option relaxedAutoImplicit false
set_option autoImplicit false

namespace ShaderLang

namespace Node

/-- The node is a function with its body. -/
def isFunction : Node → Bool
  | definition .. => true
  | _ => false

theorem isBoundary_of_isFunction {n : Node} (h : n.isFunction = true) : n.isBoundary = true := by
  cases n <;> first | rfl | exact (Bool.false_ne_true h).elim

end Node

namespace Builder

variable {b b' : Builder}

/-! ### New functions -/

theorem Steps.addsNo_function (h : Steps b b') : AddsNo Node.isFunction b b' :=
  h.addsNo fun _ => Node.isBoundary_of_isFunction

/-- Only a turn that builds a function adds one. -/
theorem Turn.addsNo_function (h : Turn b b') :
    AddsNo Node.isFunction b b' ∨ ∃ result text parameters tie b₁ body,
      Steps (b.headed result text parameters tie) b₁ ∧ b' = b₁.defined b.arena.nextId body := by
  cases h with
  | step inner => exact .inl inner.steps.addsNo_function
  | link => exact .inl (addsNo_push b rfl)
  | head => exact .inl (addsNo_headed b rfl)
  | function inner body => exact .inr ⟨_, _, _, _, _, body, inner, rfl⟩
  | @struct b₁ name members collected inner collects =>
      have hopened : AddsNo Node.isFunction b (b.opened name) := .refl b
      exact .inl ((hopened.trans inner.addsNo_function).trans (addsNo_closed b₁ fun _ => rfl))
  | rejected opening inner =>
      exact .inl ((opening.addsNo fun _ _ _ _ => rfl).trans inner.addsNo_function)

/-- A function that a part adds is its newest node. -/
theorem OnePart.definition (h : OnePart b b') {id head body : NodeId}
    (hdef : b'.arena.node? id = some (.definition head body)) :
    b.arena.node? id = some (.definition head body) ∨ id.index + 1 = b'.arena.size := by
  obtain ⟨b₁, hsteps, hturn⟩ := h
  cases hturn with
  | refl => exact .inl (hsteps.addsNo_function id _ rfl hdef)
  | single hturn =>
      rcases hturn.addsNo_function with hnew | ⟨result, text, parameters, tie, b₂, last, inner, rfl⟩
      · exact .inl (hsteps.addsNo_function id _ rfl (hnew id _ rfl hdef))
      · rcases node?_push_eq_some hdef with ⟨rfl, -⟩ | hold
        · exact .inr (Arena.size_add ..).symm
        · have hhead : AddsNo Node.isFunction b₁ (b₁.headed result text parameters tie) :=
            addsNo_headed b₁ rfl
          have hnew := (hsteps.addsNo_function.trans hhead).trans inner.addsNo_function
          exact .inl (hnew id _ rfl hold)

/-! ### Bodies -/

/-- The nodes from a head to a function: nothing in between bounds a part of the program. -/
structure Encloses (b : Builder) (head id : NodeId) : Prop where
  before : head.index < id.index
  isHead : ∃ result name parameters tie,
    b.arena.node? head = some (.prototype result name parameters tie)
  inner : ∀ i n, head.index < i → i < id.index → b.arena.node? ⟨i⟩ = some n →
    n.isBoundary = false

theorem size_headed (b : Builder) (result : DataType) (text : String)
    (parameters tie : Option NodeId) :
    (b.headed result text parameters tie).arena.size = b.arena.size + 1 :=
  Arena.size_add ..

theorem Encloses.grows {head id : NodeId} (h : b.Encloses head id) (hid : id.index < b.arena.size)
    (hg : b.Grows b') : b'.Encloses head id where
  before := h.before
  isHead := by
    obtain ⟨result, name, parameters, tie, hhead⟩ := h.isHead
    exact ⟨result, name, parameters, tie, hg.nodes _ _ hhead⟩
  inner := by
    intro i n hi hlt hn
    have hi' : (⟨i⟩ : NodeId).index < b.arena.size := Nat.lt_trans hlt hid
    rw [hg.nodes.node?_eq hi'] at hn
    exact h.inner i n hi hlt hn

/-- Every function has a head and a body of its own. -/
def Bodies (b : Builder) : Prop :=
  ∀ id head body, b.arena.node? id = some (.definition head body) → b.Encloses head id

namespace Bodies

theorem of_addsNo (h : b.Bodies) (hg : b.Grows b') (hnew : AddsNo Node.isFunction b b') :
    b'.Bodies := by
  intro id head body hdef
  have hold := hnew id _ rfl hdef
  exact (h id head body hold).grows (Arena.lt_size_of_node? hold) hg

/-- Between the head of a new function and the function there are only nodes of small steps. -/
theorem function (h : b.Bodies) {b₁ : Builder} {result : DataType} {text : String}
    {parameters tie : Option NodeId} (inner : Steps (b.headed result text parameters tie) b₁)
    (body : NodeId) : (b₁.defined b.arena.nextId body).Bodies := by
  have hgrows : b₁.Grows (b₁.defined b.arena.nextId body) := grows_defined ..
  have hb₁ : b₁.Bodies := h.of_addsNo ((grows_headed ..).trans inner.grows)
    ((addsNo_headed b rfl).trans inner.addsNo_function)
  intro id head last hdef
  rcases node?_push_eq_some hdef with ⟨rfl, heq⟩ | hold
  · obtain ⟨rfl, rfl⟩ := Node.definition.inj heq
    have hhead := inner.grows.nodes _ _ (Resolved.node?_headed b result text parameters tie)
    refine ⟨Arena.lt_size_of_node? hhead, ⟨_, _, _, _, hgrows.nodes _ _ hhead⟩, ?_⟩
    intro i n hi hlt hn
    have hi' : (⟨i⟩ : NodeId).index < b₁.arena.size := hlt
    rw [hgrows.nodes.node?_eq hi'] at hn
    rcases inner.node?_eq_some hn with hold | hplain
    · -- what was there before the body has no number behind the head
      have hsize := Arena.lt_size_of_node? hold
      rw [size_headed] at hsize
      exact absurd hi (Nat.not_lt.2 (Nat.le_of_lt_succ hsize))
    · exact hplain
  · exact (hb₁ id head last hold).grows (Arena.lt_size_of_node? hold) hgrows

theorem turn (h : b.Bodies) (hturn : Turn b b') : b'.Bodies := by
  rcases hturn.addsNo_function with hnew | ⟨result, text, parameters, tie, b₁, body, inner, rfl⟩
  · exact h.of_addsNo hturn.grows hnew
  · exact h.function inner body

theorem turns (h : b.Bodies) (hturns : Turns b b') : b'.Bodies := by
  induction hturns with
  | refl => exact h
  | tail _ hturn ih => exact ih.turn hturn

theorem of_empty (h : b.arena = .empty) : b.Bodies := by
  intro id head body hdef
  rw [h, Arena.node?_empty] at hdef
  contradiction

end Bodies

end Builder

/-! ### The node of a part -/

namespace Parser

variable {α : Type}

/-- The rule gives the newest node. -/
def GivesNewest (p : Parser NodeId) : Prop :=
  ∀ s id t, p s = .ok id t → id.index + 1 = t.builder.arena.size

theorem GivesNewest.behind {p : Parser α} {f : α → Parser NodeId} (h : ∀ x, (f x).GivesNewest) :
    (p >>= f).GivesNewest := by
  intro s id t hok
  obtain ⟨x, u, -, hf⟩ := bind_eq_ok hok
  exact h x u id t hf

theorem givesNewest_unexpected (allowed : List TokenKind) :
    (unexpected allowed : Parser NodeId).GivesNewest := by
  intro s id t hok
  contradiction

theorem givesNewest_build {step : Build NodeId}
    (h : ∀ b id b', step b = .ok id b' →
      ∃ (c : Builder) (n : Node), id = c.arena.nextId ∧ b' = c.push n) :
    (build step).GivesNewest := by
  intro s id t hok
  rcases hb : step s.builder with ⟨x, b⟩ | ⟨e, b⟩
  · rw [build_ok hb] at hok
    obtain ⟨rfl, rfl⟩ := EStateM.Result.ok.inj hok
    obtain ⟨c, n, rfl, rfl⟩ := h s.builder x b hb
    exact (Arena.size_add ..).symm
  · rw [build_error hb] at hok
    contradiction

end Parser

namespace Grammar

open ShaderLang.Parser ShaderLang.Builder

theorem givesNewest_prototype (result : DataType) (text : String) (parameters tie : Option NodeId) :
    (build (Build.prototype result text parameters tie)).GivesNewest := by
  refine givesNewest_build fun b id b' hok => ?_
  obtain ⟨rfl, rfl⟩ := EStateM.Result.ok.inj hok
  exact ⟨{ b with current := some text, names := (b.names.occur text).2 }, _, rfl, rfl⟩

theorem givesNewest_definition (head body : NodeId) :
    (build (Build.definition head body)).GivesNewest := by
  refine givesNewest_build fun b id b' hok => ?_
  obtain ⟨rfl, rfl⟩ := EStateM.Result.ok.inj hok
  exact ⟨{ b with current := none }, _, rfl, rfl⟩

/-- Behind a semicolon the head is still the newest node. -/
theorem newest_functionEnd {head id : NodeId} {s t : ParseState}
    (hhead : head.index + 1 = s.builder.arena.size) (h : functionEnd head s = .ok id t) :
    id.index + 1 = t.builder.arena.size := by
  obtain ⟨kind, s₁, hkind, h⟩ := bind_eq_ok h
  obtain ⟨-, rfl⟩ := EStateM.Result.ok.inj hkind
  split at h
  · obtain ⟨rfl, rfl⟩ := EStateM.Result.ok.inj h
    exact hhead
  · exact GivesNewest.behind (givesNewest_definition head) _ id t h
  · contradiction

theorem givesNewest_function (type : DataType) (name : Token) :
    (function type name).GivesNewest := by
  refine .behind fun _ => .behind fun list => .behind fun tie => ?_
  intro s id t h
  obtain ⟨head, s₁, hhead, h⟩ := bind_eq_ok h
  exact newest_functionEnd (givesNewest_prototype type name.text list tie s head s₁ hhead) h

theorem givesNewest_declarators (q : Qualifiers) (type : DataType) (first : Token) :
    (declarators q type first).GivesNewest := by
  refine .behind fun item => .behind fun link => .behind fun list => .behind fun kind => ?_
  split
  · refine .behind fun _ => givesNewest_build fun b id b' hok => ?_
    obtain ⟨rfl, rfl⟩ := EStateM.Result.ok.inj hok
    exact ⟨b, _, rfl, rfl⟩
  · exact givesNewest_unexpected _

theorem givesNewest_functionOrVariables : functionOrVariables.GivesNewest := by
  refine .behind fun q => .behind fun type => .behind fun name => .behind fun kind => ?_
  split
  · exact givesNewest_function type name
  · exact givesNewest_declarators q type name

theorem givesNewest_typedExternal : typedExternal.GivesNewest := by
  refine .behind fun kind => ?_
  split
  case h_5 =>
      refine .behind fun next => ?_
      split
      · exact givesNewest_functionOrVariables
      · exact givesNewest_unexpected _
  case h_6 => exact givesNewest_unexpected _
  all_goals exact givesNewest_functionOrVariables

theorem givesNewest_structDeclaration : structDeclaration.GivesNewest := by
  refine .behind fun _ => .behind fun name => .behind fun sid => .behind fun _ => ?_
  refine .behind fun members => .behind fun _ => .behind fun _ => ?_
  refine givesNewest_build fun b id b' hok => ?_
  rw [structDeclaration_apply] at hok
  split at hok
  · next collected _ =>
      obtain ⟨rfl, rfl⟩ := EStateM.Result.ok.inj hok
      exact ⟨{ b with
        structs := (b.structs.finalize ((b.structs.nameOf sid).getD "") collected).2
        names := (b.names.occur ((b.structs.nameOf sid).getD "")).2 }, _, rfl, rfl⟩
  · contradiction

/-- **A part of a program is the newest node when it has been read.** -/
theorem newest_external {s t : ParseState} {item : NodeId} (h : external s = .ok (some item) t) :
    item.index + 1 = t.builder.arena.size := by
  have of_map : ∀ {p : Parser NodeId}, p.GivesNewest → (some <$> p) s = .ok (some item) t →
      item.index + 1 = t.builder.arena.size := by
    intro p hp hmap
    rw [map_eq_pure_bind] at hmap
    obtain ⟨id, s₁, hid, hmap⟩ := bind_eq_ok hmap
    obtain ⟨hsome, rfl⟩ := EStateM.Result.ok.inj hmap
    obtain rfl := Option.some.inj hsome
    exact hp s id s₁ hid
  obtain ⟨kind, s₁, hkind, h⟩ := bind_eq_ok h
  obtain ⟨-, rfl⟩ := EStateM.Result.ok.inj hkind
  split at h
  · obtain ⟨hnone, -⟩ := EStateM.Result.ok.inj h
    contradiction
  · exact of_map givesNewest_structDeclaration h
  · exact of_map givesNewest_typedExternal h

end Grammar

/-! ### Bodies are sealed -/

/-- What refers to a node of a body does not come behind the function. -/
def Arena.Sealed (a : Arena) : Prop :=
  ∀ id head body, a.node? id = some (.definition head body) →
    ∀ parent c, a.Refers parent c → head.index < c.index → c.index < id.index →
      parent.index ≤ id.index

/-- No node of a body bounds a part. -/
theorem Builder.Bodies.not_boundary {b : Builder} (h : b.Bodies) {id head body c : NodeId} {n : Node}
    (hdef : b.arena.node? id = some (.definition head body)) (hn : b.arena.node? c = some n)
    (hbound : n.isBoundary = true) (hlo : head.index < c.index) : ¬ c.index < id.index := by
  intro hhi
  have hinner := (h id head body hdef).inner c.index n hlo hhi hn
  rw [hbound] at hinner
  contradiction

namespace Grammar

open ShaderLang.Parser ShaderLang.Builder ShaderLang.Arena

/-- The link to the parts before, if there is one. -/
theorem isBoundary_of_sequence {a : Arena} {list : Option NodeId}
    (h : a.Holds (sequence .externals list)) {c : NodeId}
    (hc : c ∈ (sequence .externals list).map Prod.fst) :
    ∃ n, a.node? c = some n ∧ n.isBoundary = true := by
  obtain ⟨part, hpart, rfl⟩ := List.mem_map.1 hc
  obtain ⟨n, hn, hplays⟩ := h.roles part hpart
  cases list with
  | none => contradiction
  | some link =>
      obtain rfl := List.mem_singleton.1 hpart
      refine ⟨n, hn, ?_⟩
      cases n <;> simp_all [Node.plays, Node.isLinkOf, Node.isBoundary]

/-- A function that a turn adds is sealed: behind it there is only the link to it. -/
theorem ProgramTurn.sealed_new {list : Option NodeId} {s t : ParseState}
    {x : Parser.Turn (Option NodeId) (Option NodeId)} (h : ProgramTurn list s x t)
    (hs : s.builder.arena.Holds (sequence .externals list)) (hbodies : t.builder.Bodies)
    {id head body : NodeId} (hdef : t.builder.arena.node? id = some (.definition head body)) :
    s.builder.arena.node? id = some (.definition head body) ∨
      ∀ parent c, t.builder.arena.Refers parent c → head.index < c.index → c.index < id.index →
        parent.index ≤ id.index := by
  have hgrows := h.turns.grows
  cases h with
  | last => exact .inl hdef
  | nothing part =>
      rcases (closes_external.of_ok (.refl _) part).definition hdef with hold | hnewest
      · exact .inl hold
      · refine .inr fun parent c hc _ _ => ?_
        obtain ⟨n, hn, -⟩ := hc
        have hlt := lt_size_of_node? hn
        omega
  | @linked t item part =>
      rcases node?_push_eq_some hdef with ⟨-, heq⟩ | hpart
      · contradiction
      · rcases (closes_external.of_ok (.refl _) part).definition hpart with hold | hnewest
        · exact .inl hold
        · refine .inr fun parent c hc hlo hhi => ?_
          obtain ⟨n, hn, hc⟩ := hc
          rcases node?_push_eq_some hn with ⟨-, rfl⟩ | hn
          · rcases List.mem_append.1 hc with hprevious | hitem
            · -- the link before is no node of the body
              have hmem : c ∈ (sequence .externals list).map Prod.fst := by
                rwa [map_fst_optional]
              obtain ⟨m, hm, hlink⟩ := isBoundary_of_sequence hs hmem
              exact (hbodies.not_boundary hdef (hgrows.nodes c m hm) hlink hlo hhi).elim
            · -- the part is the function itself
              obtain rfl := List.mem_singleton.1 hitem
              have hsame := newest_external part
              omega
          · have hlt := lt_size_of_node? hn
            omega
  | @rejected u t found allowed p part unexpected inner =>
      obtain ⟨b₁, b₂, hsteps, hopen, hpending⟩ := closes_external.of_unexpected (.refl _) part
      have hopened : AddsNo Node.isFunction b₁ b₂ := hopen.addsNo fun _ _ _ _ => rfl
      have hreported : AddsNo Node.isFunction u.builder (u.builder.rejected p found.position) :=
        .refl u.builder
      have hbefore := (hsteps.addsNo_function.trans hopened).trans hpending.addsNo_function
      exact .inl ((hbefore.trans hreported).trans inner.addsNo_function id _ rfl hdef)

/-- One more part keeps the bodies sealed: its nodes refer to none of an older body. -/
theorem ProgramTurn.sealed {list : Option NodeId} {s t : ParseState}
    {x : Parser.Turn (Option NodeId) (Option NodeId)} {post : List Part}
    (h : ProgramTurn list s x t) (hs : s.builder.arena.Holds (sequence .externals list))
    (htrade : Trades s.builder.arena (sequence .externals list) t.builder.arena post)
    (hbodies : t.builder.Bodies) (hsealed : s.builder.arena.Sealed) : t.builder.arena.Sealed := by
  have hgrows := h.turns.grows
  intro id head body hdef
  rcases h.sealed_new hs hbodies hdef with hold | hnew
  · intro parent c hc hlo hhi
    have hlt : c.index < s.builder.arena.size := Nat.lt_trans hhi (lt_size_of_node? hold)
    by_cases hparent : parent.index < s.builder.arena.size
    · obtain ⟨n, hn, hcn⟩ := hc
      rw [hgrows.nodes.node?_eq hparent] at hn
      exact hsealed id head body hold parent c ⟨n, hn, hcn⟩ hlo hhi
    · -- a new node, which refers to no older one but the link before
      have hmem := htrade.mem_of_refers hs hgrows.nodes hc (Nat.not_lt.1 hparent) hlt
      obtain ⟨m, hm, hlink⟩ := isBoundary_of_sequence hs hmem
      exact (hbodies.not_boundary hdef (hgrows.nodes c m hm) hlink hlo hhi).elim
  · exact hnew

/-- **Reading a program leaves its bodies sealed.** -/
theorem sealed_program {s t : ParseState} {root : Option NodeId} (hs : s.builder.arena = .empty)
    (h : program s = .ok root t) : t.builder.arena.Sealed := by
  refine repeated_induction
    (P := fun list u => u.builder.arena.Holds (sequence .externals list) ∧ u.builder.Bodies ∧
      u.builder.arena.Sealed)
    (Q := fun _ u => u.builder.arena.Sealed) ?_ ?_ ?_ h
  · rintro list u list' v ⟨hholds, hbodies, hsealed⟩ hok -
    have hturn := programTurn_of_ok hok
    obtain ⟨-, -, htrade⟩ := (obeys_programTurn list).of_ok hok
    have hbodies' := hbodies.turns hturn.turns
    exact ⟨htrade [] hholds, hbodies', hturn.sealed hholds htrade hbodies' hsealed⟩
  · rintro list u root v ⟨hholds, hbodies, hsealed⟩ hok
    have hturn := programTurn_of_ok hok
    obtain ⟨-, -, htrade⟩ := (obeys_programTurn list).of_ok hok
    exact hturn.sealed hholds htrade (hbodies.turns hturn.turns) hsealed
  · rw [hs]
    refine ⟨holds_empty, .of_empty hs, ?_⟩
    intro id head body hdef
    rw [node?_empty] at hdef
    contradiction

end Grammar

/-! ### What lies in no body -/

namespace Arena

/-- The node lies between the head of a function and the function. -/
def InBody (a : Arena) (i : NodeId) : Prop :=
  ∃ id head body, a.node? id = some (.definition head body) ∧ head.index < i.index ∧
    i.index < id.index

/-- The node is the head of a function, or a part of the program that is no function. -/
def IsOutside (a : Arena) (i : NodeId) : Prop :=
  (∃ result name parameters tie, a.node? i = some (.prototype result name parameters tie)) ∨
    ∃ link previous n, a.node? link = some (.link .externals previous i) ∧
      a.node? i = some n ∧ n.isFunction = false

/-- The node lies in a body, or is a function, or a link of the chain of parts. -/
inductive OnSpine (a : Arena) (i : NodeId) : Prop where
  | body (h : a.InBody i)
  | function {head body : NodeId} (h : a.node? i = some (.definition head body))
  | link {previous : Option NodeId} {item : NodeId}
      (h : a.node? i = some (.link .externals previous item))

/-- Only links of the chain of parts refer to parts and to such links. -/
theorem exists_link_of_field {n : Node} {c : NodeId} {r : Role} (h : (c, r) ∈ n.fields)
    (hr : r = .external ∨ r = .list .externals) :
    ∃ previous item, n = .link .externals previous item := by
  cases n with
  | link kind previous item =>
      cases kind <;> rcases hr with rfl | rfl <;>
        simp_all [Node.fields, ListKind.itemRole, mem_optional_iff]
  | _ => rcases hr with rfl | rfl <;> simp_all [Node.fields, mem_optional_iff]

variable {a : Arena}

/-- What refers to a node of a body lies in the body as well, or is the function. -/
theorem Sealed.parent (hsealed : a.Sealed) (hforest : a.Forest) {id head body parent c : NodeId}
    (hdef : a.node? id = some (.definition head body)) (hc : a.Refers parent c)
    (hlo : head.index < c.index) (hhi : c.index < id.index) :
    (head.index < parent.index ∧ parent.index < id.index) ∨ parent = id := by
  have hle := hsealed id head body hdef parent c hc hlo hhi
  have hlt := hforest.index_lt hc.below
  rcases Nat.lt_or_eq_of_le hle with hinside | hsame
  · exact .inl ⟨Nat.lt_trans hlo hlt, hinside⟩
  · exact .inr (congrArg NodeId.mk hsame)

/-- What refers to a node of the spine is on it as well. -/
theorem OnSpine.of_refers (hforest : a.Forest) (hsealed : a.Sealed) {parent c : NodeId}
    (hc : a.Refers parent c) (h : a.OnSpine c) : a.OnSpine parent := by
  have ⟨n, hn, hchild⟩ := hc
  obtain ⟨r, hr⟩ := Node.mem_children_iff.1 hchild
  obtain ⟨m, hm, hplays⟩ := hforest.plays_field hn hr
  have of_role : (r = .external ∨ r = .list .externals) → a.OnSpine parent := by
    intro hrole
    obtain ⟨previous, item, rfl⟩ := exists_link_of_field hr hrole
    exact .link hn
  cases h with
  | body h =>
      obtain ⟨id, head, body, hdef, hlo, hhi⟩ := h
      rcases hsealed.parent hforest hdef hc hlo hhi with ⟨hlo', hhi'⟩ | rfl
      · exact .body ⟨id, head, body, hdef, hlo', hhi'⟩
      · exact .function hdef
  | function h =>
      obtain rfl := Option.some.inj (h.symm.trans hm)
      refine of_role (.inl ?_)
      cases r <;> simp_all [Node.plays, Node.isExpression, Node.isStatement, Node.isLinkOf]
  | link h =>
      obtain rfl := Option.some.inj (h.symm.trans hm)
      refine of_role (.inr ?_)
      cases r <;> simp_all [Node.plays, Node.isExpression, Node.isStatement, Node.isLinkOf,
        Node.isExternal]

/-- What is above a node of the spine is on it as well.  The induction is on the way up. -/
theorem OnSpine.of_reflTransGen (hforest : a.Forest) (hsealed : a.Sealed) {i c : NodeId}
    (hc : Relation.ReflTransGen a.Refers i c) (h : a.OnSpine c) : a.OnSpine i := by
  induction hc using Relation.ReflTransGen.head_induction_on with
  | refl => exact h
  | head hstep _ ih => exact ih.of_refers hforest hsealed hstep

end Arena

/-- **What is below a head, or below a part that is no function, lies in no body.** -/
theorem Builder.Bodies.not_inBody {b : Builder} (h : b.Bodies) (hforest : b.arena.Forest)
    (hsealed : b.arena.Sealed) {i c : NodeId} (hi : b.arena.IsOutside i)
    (hc : Relation.ReflTransGen b.arena.Refers i c) : ¬ b.arena.InBody c := by
  intro hbody
  have hspine := Arena.OnSpine.of_reflTransGen hforest hsealed hc (.body hbody)
  rcases hi with ⟨result, name, parameters, tie, hhead⟩ | ⟨link, previous, n, hlink, hn, hfunction⟩
  · cases hspine with
    | body hin =>
        obtain ⟨id, head, body, hdef, hlo, hhi⟩ := hin
        exact h.not_boundary hdef hhead rfl hlo hhi
    | function hdef => cases hdef.symm.trans hhead
    | link hother => cases hother.symm.trans hhead
  · have hitem : (i, Role.external) ∈ (Node.link .externals previous i).fields := by
      simp [Node.fields, ListKind.itemRole]
    cases hspine with
    | body hin =>
        -- the link to the part would lie in the same body
        obtain ⟨id, head, body, hdef, hlo, hhi⟩ := hin
        have hrefers : b.arena.Refers link i := ⟨_, hlink, by simp [Node.children]⟩
        rcases hsealed.parent hforest hdef hrefers hlo hhi with ⟨hlo', hhi'⟩ | rfl
        · exact h.not_boundary hdef hlink rfl hlo' hhi'
        · cases hdef.symm.trans hlink
    | function hdef =>
        obtain rfl := Option.some.inj (hn.symm.trans hdef)
        contradiction
    | link hother =>
        obtain ⟨m, hm, hplays⟩ := hforest.plays_field hlink hitem
        obtain rfl := Option.some.inj (hother.symm.trans hm)
        contradiction

end ShaderLang
