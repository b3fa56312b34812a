/-
**The catalogue of structs mirrors the declarations.**

A struct gets its number when its declaration opens, and its members when the declaration closes; they
go to the newest struct of its name.  No other struct is opened in between, so the newest struct of the
name is the one that closes.  A declaration that broke a rule never closes, and its struct keeps no
members.

Members are collected from the nodes that are there when the declaration closes.  Nodes that are added
later change neither those nodes nor the values of their sizes, so the finished nodes tell the same.

Main definitions:

* `ShaderLang.Arena.DeclaresMember`, `ShaderLang.Arena.DeclaresLine`,
  `ShaderLang.Arena.DeclaresMembers` — the members that nodes declare;
* `ShaderLang.Builder.Mirrored` — the catalogue tells of every declaration what was collected for it;
* `ShaderLang.CompilationUnit.Catalogued` — the catalogue tells what the finished nodes tell.

Main results:

* `ShaderLang.Builder.Collected.declares` — what was collected is what the finished nodes declare;
* `ShaderLang.Builder.Mirrored.turn` — every turn keeps the catalogue;
* `ShaderLang.CompilationUnit.ofTokens_catalogued` — **the catalogue mirrors the declarations**.
-/

import ShaderLang.Proofs.CompilationUnit.WellFormed
import ShaderLang.Proofs.Grammar.Turns
import ShaderLang.Proofs.Results
import ShaderLang.Proofs.Structs.Registration

set_option relaxedAutoImplicit false
set_option autoImplicit false

namespace ShaderLang

/-! ### What nodes declare -/

namespace Node

/-- The node declares a struct. -/
def isStruct : Node → Bool
  | structDeclaration .. => true
  | _ => false

theorem isBoundary_of_isStruct {n : Node} (h : n.isStruct = true) : n.isBoundary = true := by
  cases n <;> first | rfl | exact (Bool.false_ne_true h).elim

end Node

namespace Arena

/-- The number of elements that a declarator's size stands for. -/
def Counts (a : Arena) (size : Option NodeId) (count : Option UInt32) : Prop :=
  match size with
  | none => count = none
  | some id => ∃ value, a.fold id = .ok value ∧ count = value.bind Constant.count

/-- The node is a declarator and declares the member, in a line of the type. -/
def DeclaresMember (a : Arena) (names : Names) (type : DataType) (id : NodeId)
    (m : StructMember) : Prop :=
  ∃ name size tie, a.node? id = some (.structDeclarator name size tie) ∧
    names.text? name = some m.name ∧ m.type = type ∧ a.Counts size m.count

/-- The node is a line of a struct and declares the members, one for each declarator. -/
def DeclaresLine (a : Arena) (names : Names) (id : NodeId) (members : List StructMember) : Prop :=
  ∃ type declarators ids, a.node? id = some (.structMember type declarators) ∧
    a.listItems declarators = .ok ids ∧ List.Forall₂ (a.DeclaresMember names type) ids members

/-- The lines of a struct declare the members, line by line. -/
def DeclaresMembers (a : Arena) (names : Names) (lines : Option NodeId)
    (members : List StructMember) : Prop :=
  match lines with
  | none => members = []
  | some id => ∃ ids groups, a.listItems id = .ok ids ∧
      List.Forall₂ (a.DeclaresLine names) ids groups ∧ members = groups.flatten

end Arena

namespace Builder

variable {b b' b₁ : Builder}

/-! ### What was collected -/

theorem counts_of_elementCount (hg : b₁.Grows b) (hforest : b.arena.Forest) {size : Option NodeId}
    {count : Option UInt32} (h : b₁.elementCount size = .ok count) : b.arena.Counts size count := by
  cases size with
  | none => exact (Except.ok.inj h).symm
  | some id =>
      obtain ⟨value, hvalue, hcount⟩ := exists_ok_of_map h
      obtain ⟨n, hn⟩ := Arena.exists_node?_of_fold hvalue
      have hsame := hg.nodes.fold_eq hforest.below (Arena.lt_size_of_node? hn)
      exact ⟨value, hsame.trans hvalue, hcount.symm⟩

/-- What was found in a declarator is what it declares in the end. -/
theorem declaresMember_of_memberOf (hb : b₁.Resolved) (hg : b₁.Grows b) (hforest : b.arena.Forest)
    {type : DataType} {id : NodeId} {o : Option StructMember}
    (hplays : b.arena.Plays id .structDeclarator) (h : b₁.memberOf type id = .ok o) :
    ∃ m, o = some m ∧ b.arena.DeclaresMember b.names type id m := by
  obtain ⟨n, hget, h⟩ := exists_ok_of_bind h
  have hn := Arena.node?_of_get hget
  have hfinal := hg.nodes id n hn
  obtain ⟨name, size, tie, rfl⟩ : ∃ name size tie, n = .structDeclarator name size tie := by
    obtain ⟨n', hn', hrole⟩ := hplays
    obtain rfl := Option.some.inj (hfinal.symm.trans hn')
    cases n <;> simp_all [Node.plays]
  obtain ⟨count, hcount, h⟩ := exists_ok_of_bind h
  obtain rfl := Except.ok.inj h
  obtain ⟨text, htext⟩ :=
    Option.isSome_iff_exists.1 (hb.known id _ hn name (List.mem_cons_self ..))
  -- a name that occurs has a text, so the text that was collected is not the stand-in
  refine ⟨_, rfl, name, size, tie, hfinal, ?_, rfl, counts_of_elementCount hg hforest hcount⟩
  rw [hg.names name text htext, htext]
  rfl

/-- What was found in a line of a struct is what it declares in the end. -/
theorem declaresLine_of_membersOf (hb : b₁.Resolved) (hg : b₁.Grows b) (hforest : b.arena.Forest)
    {id : NodeId} {members : List StructMember} (hplays : b.arena.Plays id .structMember)
    (h : b₁.membersOf id = .ok members) : b.arena.DeclaresLine b.names id members := by
  obtain ⟨n, hget, h⟩ := exists_ok_of_bind h
  have hfinal := hg.nodes id n (Arena.node?_of_get hget)
  obtain ⟨type, declarators, rfl⟩ : ∃ type declarators, n = .structMember type declarators := by
    obtain ⟨n', hn', hrole⟩ := hplays
    obtain rfl := Option.some.inj (hfinal.symm.trans hn')
    cases n <;> simp_all [Node.plays]
  obtain ⟨items, hitems, h⟩ := exists_ok_of_bind h
  obtain ⟨found, hfound, h⟩ := exists_ok_of_bind h
  obtain rfl := Except.ok.inj h
  have hlist := hg.nodes.listItems hitems
  have hdeclarators : b.arena.Plays declarators (.list .structDeclarators) :=
    hforest.plays_field hfinal (by simp [Node.fields])
  have hroles := hforest.plays_listItems hdeclarators hlist
  refine ⟨type, declarators, items, hfinal, hlist, forall₂_filterMap ?_⟩
  exact forall₂_imp_of_mem (forall₂_of_mapM hfound) fun i hi o ho =>
    declaresMember_of_memberOf hb hg hforest (hroles i hi) ho

/-- The members were collected from the lines at some time before. -/
def Collected (b : Builder) (lines : Option NodeId) (members : List StructMember) : Prop :=
  ∃ b₁ : Builder, b₁.Resolved ∧ b₁.Grows b ∧ b₁.collectMembers lines = .ok members

theorem Collected.grows {lines : Option NodeId} {members : List StructMember}
    (h : b.Collected lines members) (hg : b.Grows b') : b'.Collected lines members := by
  obtain ⟨b₁, hb₁, hgrows, hcollect⟩ := h
  exact ⟨b₁, hb₁, hgrows.trans hg, hcollect⟩

/-- **What was collected is what the finished nodes declare.** -/
theorem Collected.declares (hforest : b.arena.Forest) {lines : Option NodeId}
    {members : List StructMember}
    (hplays : ∀ id, lines = some id → b.arena.Plays id (.list .structMembers))
    (h : b.Collected lines members) : b.arena.DeclaresMembers b.names lines members := by
  obtain ⟨b₁, hb, hg, hcollect⟩ := h
  cases lines with
  | none => exact (Except.ok.inj hcollect).symm
  | some id =>
      obtain ⟨ids, hids, hcollect⟩ := exists_ok_of_bind hcollect
      obtain ⟨groups, hgroups, hcollect⟩ := exists_ok_of_bind hcollect
      obtain rfl := Except.ok.inj hcollect
      have hlist := hg.nodes.listItems hids
      have hroles := hforest.plays_listItems (hplays id rfl) hlist
      refine ⟨ids, groups, hlist, ?_, rfl⟩
      exact forall₂_imp_of_mem (forall₂_of_mapM hgroups) fun i hi ms hms =>
        declaresLine_of_membersOf hb hg hforest (hroles i hi) hms

/-! ### Structs over a program -/

theorem Opening.size_structs (h : Opening b b') : b.structs.size ≤ b'.structs.size := by
  cases h with
  | nothing => exact Nat.le_refl _
  | head => exact Nat.le_refl _
  | struct name =>
      rw [opened, Structs.size_register]
      exact Nat.le_succ _

/-- A closed struct is in the catalogue: it was opened there. -/
theorem size_structs_closed {name : String} {members : Option NodeId}
    {collected : List StructMember} (inner : Steps (b.opened name) b₁) :
    (b₁.closed (Structs.idOf b.structs.size) members collected).structs.size =
      b.structs.size + 1 := by
  show (b₁.structs.finalize _ collected).2.size = _
  rw [Structs.size_finalize, inner.structs_eq]
  exact Structs.size_register ..

/-- No struct leaves the catalogue. -/
theorem Turn.size_structs (h : Turn b b') : b.structs.size ≤ b'.structs.size := by
  cases h with
  | step inner => exact Nat.le_of_eq (congrArg Structs.size inner.steps.structs_eq.symm)
  | link => exact Nat.le_refl _
  | head => exact Nat.le_refl _
  | function inner =>
      exact Nat.le_of_eq (congrArg Structs.size inner.structs_eq.symm)
  | struct inner =>
      rw [size_structs_closed inner]
      exact Nat.le_succ _
  | rejected opening inner =>
      exact Nat.le_trans opening.size_structs
        (Nat.le_of_eq (congrArg Structs.size inner.structs_eq.symm))

/-! ### The catalogue and the declarations -/

theorem Steps.addsNo_struct (h : Steps b b') : AddsNo Node.isStruct b b' :=
  h.addsNo fun _ => Node.isBoundary_of_isStruct

/-- The catalogue tells of every declaration its name and what was collected for it; no two
declarations have one number, and a struct without a declaration has no members. -/
structure Mirrored (b : Builder) : Prop where
  declared : ∀ id sid name lines, b.arena.node? id = some (.structDeclaration sid name lines) →
    ∃ place e, sid = Structs.idOf place ∧ b.structs.entries[place]? = some e ∧
      b.names.text? name = some e.name ∧ b.Collected lines e.members
  distinct : ∀ i j sid name name' lines lines',
    b.arena.node? i = some (.structDeclaration sid name lines) →
    b.arena.node? j = some (.structDeclaration sid name' lines') → i = j
  unfinished : ∀ place e, b.structs.entries[place]? = some e →
    (∀ id name lines, b.arena.node? id ≠ some (.structDeclaration (Structs.idOf place) name lines)) →
    e.members = []

namespace Mirrored

/-- Where no struct is opened and no declaration is new, the catalogue tells the same. -/
theorem of_same (h : b.Mirrored) (hg : b.Grows b') (hnew : AddsNo Node.isStruct b b')
    (hstructs : b'.structs = b.structs) : b'.Mirrored where
  declared := by
    intro id sid name lines hn
    obtain ⟨place, e, hsid, he, hname, hcollected⟩ := h.declared id sid name lines (hnew id _ rfl hn)
    exact ⟨place, e, hsid, hstructs ▸ he, hg.names name _ hname, hcollected.grows hg⟩
  distinct := by
    intro i j sid name name' lines lines' hi hj
    exact h.distinct i j sid name name' lines lines' (hnew i _ rfl hi) (hnew j _ rfl hj)
  unfinished := by
    intro place e he hnone
    rw [hstructs] at he
    exact h.unfinished place e he fun id name lines hn => hnone id name lines (hg.nodes id _ hn)

theorem steps (h : b.Mirrored) (hsteps : Steps b b') : b'.Mirrored :=
  h.of_same hsteps.grows hsteps.addsNo_struct hsteps.structs_eq

/-- The struct that is opened has no declaration yet, and no members. -/
theorem opened (h : b.Mirrored) (name : String) : (b.opened name).Mirrored where
  declared := by
    intro id sid n lines hn
    obtain ⟨place, e, hsid, he, hname, hcollected⟩ := h.declared id sid n lines hn
    have hplace : place ≠ b.structs.size := Nat.ne_of_lt (Structs.lt_size he)
    refine ⟨place, e, hsid, ?_, hname, hcollected.grows (grows_opened b name)⟩
    rw [Builder.opened, Structs.entries_register, if_neg hplace, he]
  distinct := h.distinct
  unfinished := by
    intro place e he hnone
    rw [Builder.opened, Structs.entries_register] at he
    split at he
    · obtain rfl := Option.some.inj he
      rfl
    · exact h.unfinished place e he hnone

/-- No declaration has the number of the next struct. -/
theorem fresh (h : b.Mirrored) (hfits : b.structs.size < Structs.capacity) (id : NodeId)
    (name : NameId) (lines : Option NodeId) :
    b.arena.node? id ≠ some (.structDeclaration (Structs.idOf b.structs.size) name lines) := by
  intro hn
  obtain ⟨place, e, hsid, he, -⟩ := h.declared id _ name lines hn
  have hlt : place < b.structs.size := Structs.lt_size he
  exact Nat.ne_of_gt hlt (Structs.idOf_inj hfits (Nat.lt_trans hlt hfits) hsid)

section

variable {name : String} {members : Option NodeId} {collected : List StructMember}

/-- The name of the declaration is the one that the struct was opened with. -/
theorem nameOf_opened (inner : Steps (b.opened name) b₁)
    (hfits : b.structs.size < Structs.capacity) :
    (b₁.structs.nameOf (Structs.idOf b.structs.size)).getD "" = name := by
  rw [inner.structs_eq]
  show ((b.structs.register name).2.nameOf _).getD "" = name
  rw [Structs.nameOf_register _ _ hfits]
  rfl

/-- Closing a struct gives it its members and leaves all others alone. -/
theorem entries_closed (inner : Steps (b.opened name) b₁)
    (hfits : b.structs.size < Structs.capacity) (members : Option NodeId)
    (collected : List StructMember) (place : Nat) :
    (b₁.closed (Structs.idOf b.structs.size) members collected).structs.entries[place]? =
      if place = b.structs.size then some ⟨name, collected⟩ else b.structs.entries[place]? := by
  show (b₁.structs.finalize _ collected).2.entries[place]? = _
  rw [nameOf_opened inner hfits, inner.structs_eq]
  show ((b.structs.register name).2.finalize name collected).2.entries[place]? = _
  rw [Structs.entries_finalize _ _ (Structs.placeNamed_register ..), Structs.entries_register]
  split
  · rfl
  · rfl

/-- The declarations behind a struct are its own and those from before it was opened. -/
theorem declaration_closed (inner : Steps (b.opened name) b₁)
    (hfits : b.structs.size < Structs.capacity) {id : NodeId} {sid : UInt32} {n : NameId}
    {lines : Option NodeId}
    (hn : (b₁.closed (Structs.idOf b.structs.size) members collected).arena.node? id =
      some (.structDeclaration sid n lines)) :
    (id = ⟨b₁.arena.size⟩ ∧ sid = Structs.idOf b.structs.size ∧ n = (b₁.names.occur name).1 ∧
        lines = members) ∨
      b.arena.node? id = some (.structDeclaration sid n lines) := by
  rcases node?_push_eq_some hn with ⟨rfl, heq⟩ | hold
  · obtain ⟨rfl, rfl, rfl⟩ := Node.structDeclaration.inj heq
    rw [nameOf_opened inner hfits]
    exact .inl ⟨rfl, rfl, rfl, rfl⟩
  · exact .inr (inner.addsNo_struct id _ rfl hold)

/-- The struct that closes is the one that was opened: no other of its name is newer. -/
theorem closed (h : b.Mirrored) (hb : b.Resolved) (inner : Steps (b.opened name) b₁)
    (collects : b₁.collectMembers members = .ok collected)
    (hfits : b.structs.size < Structs.capacity) :
    (b₁.closed (Structs.idOf b.structs.size) members collected).Mirrored := by
  have hb₁ : b₁.Resolved := (hb.opening (.struct name)).steps inner
  have hgrows : b₁.Grows (b₁.closed (Structs.idOf b.structs.size) members collected) :=
    grows_closed ..
  have hall : b.Grows (b₁.closed (Structs.idOf b.structs.size) members collected) :=
    ((grows_opened b name).trans inner.grows).trans hgrows
  have hentries := entries_closed inner hfits members collected
  constructor
  case declared =>
    intro id sid n lines hn
    rcases declaration_closed inner hfits hn with ⟨-, rfl, rfl, rfl⟩ | hold
    · refine ⟨b.structs.size, ⟨name, collected⟩, rfl, ?_, ?_, b₁, hb₁, hgrows, collects⟩
      · rw [hentries, if_pos rfl]
      · show (b₁.names.occur _).2.text? _ = some name
        rw [nameOf_opened inner hfits, b₁.names.text?_occur name]
    · obtain ⟨place, e, hsid, he, hname, hcollected⟩ := h.declared id sid n lines hold
      have hplace : place ≠ b.structs.size := Nat.ne_of_lt (Structs.lt_size he)
      refine ⟨place, e, hsid, ?_, hall.names n _ hname, hcollected.grows hall⟩
      rw [hentries, if_neg hplace, he]
  case distinct =>
    -- a number of its own: no earlier declaration has that of the struct
    intro i j sid n n' lines lines' hi hj
    rcases declaration_closed inner hfits hi with ⟨rfl, rfl, -⟩ | hi
    · rcases declaration_closed inner hfits hj with ⟨rfl, -⟩ | hj
      · rfl
      · exact (h.fresh hfits j n' lines' hj).elim
    · rcases declaration_closed inner hfits hj with ⟨rfl, rfl, -⟩ | hj
      · exact (h.fresh hfits i n lines hi).elim
      · exact h.distinct i j sid n n' lines lines' hi hj
  case unfinished =>
    intro place e he hnone
    rw [hentries] at he
    split at he
    · next hplace =>
        rw [hplace] at hnone
        exact (hnone ⟨b₁.arena.size⟩ _ members (Arena.node?_add_self ..)).elim
    · exact h.unfinished place e he fun id n lines hn => hnone id n lines (hall.nodes id _ hn)

end

/-- **Every turn keeps the catalogue.** -/
theorem turn (h : b.Mirrored) (hb : b.Resolved) (hturn : Turn b b')
    (hfits : b'.structs.size ≤ Structs.capacity) : b'.Mirrored := by
  have hgrows := hturn.grows
  cases hturn with
  | step inner => exact h.steps inner.steps
  | link => exact h.of_same hgrows (addsNo_push b rfl) rfl
  | head => exact h.of_same hgrows (addsNo_headed b rfl) rfl
  | @function b₁ result text parameters tie inner body =>
      have hheaded : (b.headed result text parameters tie).Mirrored :=
        h.of_same (grows_headed b ..) (addsNo_headed b rfl) rfl
      exact (hheaded.steps inner).of_same (grows_defined b₁ ..) (addsNo_defined b₁ rfl) rfl
  | struct inner collects =>
      rw [size_structs_closed inner] at hfits
      exact h.closed hb inner collects hfits
  | @rejected b₁ b₂ p opening inner unexpected place =>
      -- a struct that was opened stays without members
      have hopening : b₁.Mirrored := by
        cases opening with
        | nothing => exact h
        | head => exact h.of_same (grows_headed b ..) (addsNo_headed b rfl) rfl
        | struct name => exact h.opened name
      exact (hopening.steps inner).of_same ⟨fun _ _ hn => hn, fun _ _ ht => ht, by
        rw [errors_rejected b₂ unexpected place]
        exact Nat.le_succ _⟩ (.refl b₂) rfl

/-- The induction is on the turns: behind none of them is there a struct less. -/
theorem turns (h : b.Mirrored) (hb : b.Resolved) (hturns : Turns b b')
    (hfits : b'.structs.size ≤ Structs.capacity) : b'.Mirrored := by
  induction hturns with
  | refl => exact h
  | @tail c c' hturns hturn ih =>
      have hc : c.Mirrored := ih (Nat.le_trans hturn.size_structs hfits)
      exact hc.turn (hb.turns hturns) hturn hfits

/-- Nothing is declared where nothing is built. -/
theorem of_empty (harena : b.arena = .empty) (hstructs : b.structs = .empty) : b.Mirrored where
  declared := by
    intro id sid name lines hn
    rw [harena, Arena.node?_empty] at hn
    contradiction
  distinct := by
    intro i j sid name name' lines lines' hi
    rw [harena, Arena.node?_empty] at hi
    contradiction
  unfinished := by
    intro place e he
    rw [hstructs] at he
    exact absurd he (by simp [Structs.empty])

/-- A declared struct has the name of its declaration and the members that the finished nodes declare. -/
theorem declares (h : b.Mirrored) (hforest : b.arena.Forest)
    (hfits : b.structs.size ≤ Structs.capacity) {id : NodeId} {sid : UInt32} {name : NameId}
    {lines : Option NodeId} (hn : b.arena.node? id = some (.structDeclaration sid name lines)) :
    ∃ e, b.structs.entry? sid = some e ∧ b.names.text? name = some e.name ∧
      b.arena.DeclaresMembers b.names lines e.members := by
  obtain ⟨place, e, rfl, he, hname, hcollected⟩ := h.declared id sid name lines hn
  have hplace : place < Structs.capacity := Nat.lt_of_lt_of_le (Structs.lt_size he) hfits
  refine ⟨e, (b.structs.entry?_idOf hplace).trans he, hname, ?_⟩
  refine hcollected.declares hforest fun link hlink => ?_
  exact hforest.plays_field hn (by simp [Node.fields, hlink])

end Mirrored

end Builder

namespace CompilationUnit

open Grammar

/-! ### Reading a program -/

/-- The catalogue tells what the finished nodes tell. -/
structure Catalogued (u : CompilationUnit) : Prop where
  /-- No two declarations have one number. -/
  distinct : ∀ i j sid name name' lines lines',
    u.arena.node? i = some (.structDeclaration sid name lines) →
    u.arena.node? j = some (.structDeclaration sid name' lines') → i = j
  /-- A declared struct has the name of its declaration and the members that its lines declare. -/
  mirrored : ∀ id sid name lines, u.arena.node? id = some (.structDeclaration sid name lines) →
    ∃ e, u.structs.entry? sid = some e ∧ u.names.text? name = some e.name ∧
      u.arena.DeclaresMembers u.names lines e.members
  /-- A struct whose declaration broke a rule has no members. -/
  unfinished : ∀ sid e, u.structs.entry? sid = some e →
    (∀ id name lines, u.arena.node? id ≠ some (.structDeclaration sid name lines)) →
    e.members = []

/-- **The catalogue mirrors the declarations**, whatever the tokens are and whatever was reported, as
long as there is a number of thirty-two bits for every struct; and there are no more structs than
tokens. -/
theorem ofTokens_catalogued (tokens : TokenStream) (o : Options) :
    ∃ u, ofTokens tokens o = .ok u ∧ u.structs.size ≤ tokens.tokens.length ∧
      (u.structs.size ≤ Structs.capacity → u.Catalogued) := by
  obtain ⟨root, t, hp, -, -, hholds⟩ := program_ends (s := .start tokens o) rfl
  have hturns := turns_program hp
  have hstart : (ParseState.start tokens o).builder.Resolved := .of_empty rfl
  have hforest : t.builder.arena.Forest := hholds.forest
  have hsize : t.builder.structs.size ≤ tokens.tokens.length := by
    have hle := size_structs_program hp
    rwa [show (ParseState.start tokens o).builder.structs.size = 0 from rfl, Nat.zero_add] at hle
  refine ⟨t.builder.finish root, by unfold ofTokens; rw [hp], hsize, ?_⟩
  intro hfits
  have hmirrored : t.builder.Mirrored :=
    (Builder.Mirrored.of_empty rfl rfl).turns hstart hturns hfits
  constructor
  case distinct => exact hmirrored.distinct
  case mirrored => exact fun _ _ _ _ hn => hmirrored.declares hforest hfits hn
  case unfinished =>
    intro sid e he hnone
    obtain ⟨place, rfl, hentry⟩ := Structs.exists_place_of_entry? he
    exact hmirrored.unfinished place e hentry hnone

/-- Two structs of one name.  The first declares an array and a member of its own; the second ends in
the middle of its declaration. -/
def namesakes : TokenStream where
  tokens :=
    [⟨.keyword .structWord, "struct", ⟨1, 0⟩⟩, ⟨.name, "A", ⟨1, 0⟩⟩,
      ⟨.mark .openCurly, "\x7b", ⟨1, 0⟩⟩, ⟨.typeName, "int", ⟨1, 0⟩⟩, ⟨.name, "x", ⟨1, 0⟩⟩,
      ⟨.mark .openBracket, "[", ⟨1, 0⟩⟩, ⟨.int, "2", ⟨1, 0⟩⟩, ⟨.mark .closeBracket, "]", ⟨1, 0⟩⟩,
      ⟨.mark .comma, ",", ⟨1, 0⟩⟩, ⟨.name, "y", ⟨1, 0⟩⟩, ⟨.mark .semicolon, ";", ⟨1, 0⟩⟩,
      ⟨.mark .closeCurly, "\x7d", ⟨1, 0⟩⟩, ⟨.mark .semicolon, ";", ⟨1, 0⟩⟩,
      ⟨.keyword .structWord, "struct", ⟨1, 0⟩⟩, ⟨.name, "A", ⟨1, 0⟩⟩,
      ⟨.mark .openCurly, "\x7b", ⟨1, 0⟩⟩, ⟨.typeName, "int", ⟨1, 0⟩⟩, ⟨.name, "z", ⟨1, 0⟩⟩,
      ⟨.mark .semicolon, ";", ⟨1, 0⟩⟩, ⟨.typeName, "int", ⟨1, 0⟩⟩]
  stop := ⟨1, 0⟩

/-- The broken declaration leaves the first struct its members and gives its own none. -/
theorem ofTokens_catalogued_namesakes :
    ∃ u, ofTokens namesakes .standard = .ok u ∧ u.structs.size ≤ Structs.capacity ∧ u.Catalogued ∧
      u.structs.entries =
        #[⟨"A", [⟨"x", .scalar .int, some 2⟩, ⟨"y", .scalar .int, none⟩]⟩, ⟨"A", []⟩] := by
  obtain ⟨u, hu, -, hcatalogued⟩ := ofTokens_catalogued namesakes .standard
  have hentries : (match ofTokens namesakes .standard with
      | .ok v => v.structs.entries
      | .error _ => #[]) =
        #[⟨"A", [⟨"x", .scalar .int, some 2⟩, ⟨"y", .scalar .int, none⟩]⟩, ⟨"A", []⟩] := by
    decide +kernel
  rw [hu] at hentries
  dsimp only at hentries
  have hfits : u.structs.size ≤ Structs.capacity := by
    rw [Structs.size, hentries]
    decide
  exact ⟨u, hu, hfits, hcatalogued hfits, hentries⟩

end CompilationUnit

end ShaderLang
