/-
**Arrays in structs.**

A member of a struct that is declared with a size is stored as an array only if the size has a value:
a size that names a variable passes for an integer, but names have no value yet, and the member is
stored as one value of its type without a report (`ShaderLang.CompilationUnit.not_stored_as_array`).
Where nothing was reported this is the only way to lose an array.  A size that has a value is one that
can count elements, the member is stored with exactly that number of them, and its bytes, the members
behind it and the type of what indexing selects go by that number.

The size is folded when the declaration closes, and the check before that asked for its value as well;
nodes stay as they are, so both saw the value that the finished nodes have.

Main definitions:

* `ShaderLang.Arena.declarators` — the declarators of a struct in the order of the source text;
* `ShaderLang.Arena.Stores`, `ShaderLang.Arena.StoresMember` — a declarator and the member that is
  stored for it;
* `ShaderLang.Structs.GoesByCount` — bytes, offsets and types that go by the count of a member.

Main results:

* `ShaderLang.Builder.typeOf_element` — the type of an element of a member;
* `ShaderLang.Structs.goesByCount` — every member in the catalogue is treated as its count says;
* `ShaderLang.CompilationUnit.ofTokens_arrays` — **without reports every member whose size has a value
  is stored as an array of exactly so many elements**.
-/

import ShaderLang.Proofs.Builder.Sizes
import ShaderLang.Proofs.Static.Integrality
import ShaderLang.Proofs.Structs.Selections

set_option relaxedAutoImplicit false
set_option autoImplicit false

namespace ShaderLang

/-- A count is the whole number that the constant is. -/
theorem Constant.whole_of_count {c : Constant} {n : UInt32} (h : c.count = some n) :
    c.whole = some (n.toNat : Int) := by
  obtain ⟨v, hv⟩ : ∃ v, c.whole = some v := by
    refine Constant.exists_whole fun hfloating => ?_
    cases c with
    | signed v => nomatch hfloating
    | unsigned v => nomatch hfloating
    | floating v => exact Option.some_ne_none n h.symm
  have hcount := Constant.count_of_whole hv
  split at hcount
  · obtain ⟨k, hk, rfl⟩ := hcount
    obtain rfl := Option.some.inj (hk.symm.trans h)
    exact hv
  · rw [hcount] at h
    contradiction

/-! ### Declarators -/

/-- The number and the lines of the struct that a node declares, if it declares one. -/
def Node.struct? : Node → Option (UInt32 × Option NodeId)
  | structDeclaration id _ lines => some (id, lines)
  | _ => none

theorem Node.exists_of_struct? {n : Node} {id : UInt32} {lines : Option NodeId}
    (h : n.struct? = some (id, lines)) : ∃ name, n = .structDeclaration id name lines := by
  cases n with
  | structDeclaration sid name ls =>
      obtain ⟨rfl, rfl⟩ := Prod.mk.inj (Option.some.inj h)
      exact ⟨name, rfl⟩
  | _ => contradiction

namespace Arena

/-- The declarators in a line of a struct, each with the type of the line; none in any other node. -/
def lineDeclarators (a : Arena) (line : NodeId) : Except Fault (List (DataType × NodeId)) := do
  match ← a.get line with
  | .structMember type declarators =>
      let ids ← a.listItems declarators
      pure (ids.map fun id => (type, id))
  | _ => pure []

/-- The declarators of a struct in the order of the source text, each with the type of its line. -/
def declarators (a : Arena) (lines : Option NodeId) : Except Fault (List (DataType × NodeId)) :=
  match lines with
  | none => .ok []
  | some id => do
      let items ← a.listItems id
      let groups ← items.mapM a.lineDeclarators
      pure groups.flatten

variable {a : Arena} {names : Names}

theorem exists_lineDeclarators {line : NodeId} {members : List StructMember}
    (h : a.DeclaresLine names line members) :
    ∃ ds, a.lineDeclarators line = .ok ds ∧
      List.Forall₂ (fun d m => a.DeclaresMember names d.1 d.2 m) ds members := by
  obtain ⟨type, declarators, ids, hnode, hids, hmembers⟩ := h
  refine ⟨ids.map fun id => (type, id), ?_, List.forall₂_map_left_iff.2 hmembers⟩
  rw [lineDeclarators, get_of_node? hnode]
  show (a.listItems declarators >>= _) = _
  rw [hids]
  rfl

/-- The declarators of a struct declare its members, one after the other. -/
theorem exists_declarators {lines : Option NodeId} {members : List StructMember}
    (h : a.DeclaresMembers names lines members) :
    ∃ ds, a.declarators lines = .ok ds ∧
      List.Forall₂ (fun d m => a.DeclaresMember names d.1 d.2 m) ds members := by
  cases lines with
  | none =>
      obtain rfl := h
      exact ⟨[], rfl, .nil⟩
  | some id =>
      obtain ⟨items, groups, hitems, hlines, rfl⟩ := h
      obtain ⟨gs, hgs, hall⟩ : ∃ gs, items.mapM a.lineDeclarators = .ok gs ∧
          List.Forall₂ (fun d m => a.DeclaresMember names d.1 d.2 m) gs.flatten groups.flatten := by
        clear hitems
        induction hlines with
        | nil => exact ⟨[], rfl, .nil⟩
        | cons hline _ ih =>
            obtain ⟨gs, hgs, hall⟩ := ih
            obtain ⟨ds, hds, hline⟩ := exists_lineDeclarators hline
            exact ⟨ds :: gs, by rw [List.mapM_cons, hds, hgs]; rfl, List.rel_append hline hall⟩
      refine ⟨gs.flatten, ?_, hall⟩
      rw [declarators, hitems]
      show (items.mapM a.lineDeclarators >>= _) = _
      rw [hgs]
      rfl

/-- What is stored for a size: without one, no count; with one that has a value, exactly that many; and
no count for a size without a value. -/
def Stores (a : Arena) (size : Option NodeId) (count : Option UInt32) : Prop :=
  match size with
  | none => count = none
  | some id =>
      (∃ c n, a.fold id = .ok (some c) ∧ c.whole = some (n.toNat : Int) ∧ count = some n) ∨
        a.fold id = .ok none ∧ count = none

/-- The declarator, in a line of the type, has the name of the member, and its size is stored. -/
def StoresMember (a : Arena) (names : Names) (declarator : DataType × NodeId) (m : StructMember) :
    Prop :=
  ∃ name size tie, a.node? declarator.2 = some (.structDeclarator name size tie) ∧
    names.text? name = some m.name ∧ m.type = declarator.1 ∧ a.Stores size m.count

/-- A countable size is stored. -/
theorem Counts.stores {size : Option NodeId} {count : Option UInt32} (h : a.Counts size count)
    (hcountable : ∀ id, size = some id → ∀ c, a.fold id = .ok (some c) → c.count.isSome) :
    a.Stores size count := by
  cases size with
  | none => exact h
  | some id =>
      obtain ⟨value, hvalue, rfl⟩ := h
      cases value with
      | none => exact .inr ⟨hvalue, rfl⟩
      | some c =>
          obtain ⟨n, hn⟩ := Option.isSome_iff_exists.1 (hcountable id rfl c hvalue)
          exact .inl ⟨c, n, hvalue, Constant.whole_of_count hn, hn⟩

end Arena

/-! ### Elements -/

namespace Builder

variable {b : Builder} {t : DataType} {m : StructMember}

/-- **Indexing a member selects an element if it is an array**, and a part of its one value if not. -/
theorem typeOf_element (hb : b.arena.Acyclic) {index array position base : NodeId} {field : NameId}
    {name : String} (hindex : b.arena.node? index = some (.index array position))
    (harray : b.arena.node? array = some (.field base field)) (hbase : b.typeOf base = .ok (some t))
    (hname : b.names.text? field = some name) (hm : b.structs.member? t.base name = some m) :
    b.typeOf index = .ok (some (if m.count.isSome then m.type else m.type.indexed)) := by
  have hmember : b.scope.member t field = some ⟨m.type, m.count.isSome⟩ := by
    show b.memberDeclared t field = _
    rw [memberDeclared, hname, Option.bind_some, hm]
    rfl
  have hstruct : t.isStruct = true := by
    obtain ⟨entry, hentry, -⟩ := Option.bind_eq_some_iff.1 hm
    exact Structs.isStruct_of_entry hentry
  have hdeclared : (b.arena.declarationOf b.scope (b.arena.typing b.scope) array).run =
      .ok (some ⟨m.type, m.count.isSome⟩) := by
    rw [Arena.declarationOf, Arena.run_fetch_bind harray]
    exact Walk.run_bind_eq_some.2 ⟨t, hbase, by rw [hmember]; rfl⟩
  have harrayType : (b.arena.typing b.scope array).run = .ok (some m.type) := by
    rw [hb.typing_eq, Arena.run_fetch_bind harray]
    refine Walk.run_bind_eq_some.2 ⟨t, hbase, ?_⟩
    rw [Arena.typeField, if_pos hstruct, hmember]
    rfl
  show (b.arena.typing b.scope index).run = _
  rw [hb.typing_eq, Arena.run_fetch_bind hindex]
  refine Walk.run_bind_eq_some.2 ⟨_, Walk.run_attempt_eq_some.2 hdeclared, ?_⟩
  cases m.count.isSome with
  | true => rfl
  | false => exact Walk.run_bind_eq_some.2 ⟨m.type, harrayType, rfl⟩

end Builder

namespace Structs

variable {s : Structs} {id : UInt32} {e : StructEntry} {m : StructMember} {place : Nat}

/-- Bytes, offsets and types go by the count of the member at a place of a struct. -/
structure GoesByCount (s : Structs) (id : UInt32) (place : Nat) (m : StructMember) : Prop where
  /-- The member takes the bytes of its elements, and the next one begins behind them. -/
  bytes : ∀ ps p, s.placements (.struct id) = some ps → ps[place]? = some p →
    ∃ size, s.sizeOf m.type = some size ∧ p.footprint = strideOf m size * m.elements ∧
      ∀ q, ps[place + 1]? = some q → p.offset + strideOf m size * m.elements ≤ q.offset
  /-- Indexing the member selects an element, or a part of its one value. -/
  element : ∀ b : Builder, b.structs = s → b.arena.Acyclic →
    ∀ index array position base field name,
      b.arena.node? index = some (.index array position) →
      b.arena.node? array = some (.field base field) →
      b.typeOf base = .ok (some (.struct id)) → b.names.text? field = some name →
      s.member? id name = some m →
        b.typeOf index = .ok (some (if m.count.isSome then m.type else m.type.indexed))

theorem spread_eq (m : StructMember) (size : Nat) : spread m size = strideOf m size * m.elements := by
  unfold spread strideOf StructMember.elements
  cases m.count with
  | none => simp
  | some count => simp

/-- **Every member in the catalogue is treated as its count says.** -/
theorem goesByCount (he : s.entry? id = some e) (hm : e.members[place]? = some m) :
    s.GoesByCount id place m where
  bytes := by
    intro ps p hps hp
    obtain ⟨entry, hentry, hps⟩ := Option.bind_eq_some_iff.1 hps
    obtain rfl := Option.some.inj (he.symm.trans hentry)
    obtain ⟨⟨qs, last⟩, hplaced, hqs⟩ := Option.bind_eq_some_iff.1 hps
    obtain rfl := Option.some.inj hqs
    have hpacked := packed_of_placeAll hplaced
    obtain ⟨p', size, hp', hsize, hspread⟩ := hpacked.exists_placement hm
    obtain rfl := Option.some.inj (hp.symm.trans hp')
    rw [spread_eq] at hspread
    refine ⟨size, hsize, hspread, fun q hq => ?_⟩
    rw [← hspread]
    exact hpacked.inOrder place p q hp hq
  element := by
    rintro b rfl hb index array position base field name hindex harray hbase hname hmember
    exact Builder.typeOf_element hb hindex harray hbase hname hmember

end Structs

/-! ### Reading a program -/

namespace CompilationUnit

open Grammar

/-- What is seen of the unit that tokens give. -/
theorem exists_ok_of_any (tokens : TokenStream) (o : Options) {P : CompilationUnit → Prop}
    [DecidablePred P] (h : (ofTokens tokens o).toOption.any (fun u => P u) = true) :
    ∃ u, ofTokens tokens o = .ok u ∧ P u := by
  cases hu : ofTokens tokens o with
  | ok u =>
      rw [hu] at h
      exact ⟨u, rfl, of_decide_eq_true h⟩
  | error e =>
      rw [hu] at h
      contradiction

/-- A constant, and a struct with an array of that size. -/
def dimensioned : TokenStream where
  tokens :=
    [⟨.qualifier, "const", ⟨1, 0⟩⟩, ⟨.typeName, "int", ⟨1, 0⟩⟩, ⟨.name, "N", ⟨1, 0⟩⟩,
      ⟨.mark .assignment, "=", ⟨1, 0⟩⟩, ⟨.int, "4", ⟨1, 0⟩⟩, ⟨.mark .semicolon, ";", ⟨1, 0⟩⟩,
      ⟨.keyword .structWord, "struct", ⟨1, 0⟩⟩, ⟨.name, "S", ⟨1, 0⟩⟩,
      ⟨.mark .openCurly, "\x7b", ⟨1, 0⟩⟩, ⟨.typeName, "float4", ⟨1, 0⟩⟩, ⟨.name, "a", ⟨1, 0⟩⟩,
      ⟨.mark .openBracket, "[", ⟨1, 0⟩⟩, ⟨.name, "N", ⟨1, 0⟩⟩, ⟨.mark .closeBracket, "]", ⟨1, 0⟩⟩,
      ⟨.mark .semicolon, ";", ⟨1, 0⟩⟩, ⟨.mark .closeCurly, "\x7d", ⟨1, 0⟩⟩,
      ⟨.mark .semicolon, ";", ⟨1, 0⟩⟩]
  stop := ⟨1, 0⟩

/-- Nothing is reported, the declarator has a size, and the member is stored without a count. -/
theorem not_stored_as_array :
    ∃ u id name lines declarator n size, ofTokens dimensioned .standard = .ok u ∧
      u.diagnostics.hasReports = false ∧
      u.arena.node? id = some (.structDeclaration 256 name lines) ∧
      u.arena.declarators lines = .ok [(⟨5, some 4, none⟩, declarator)] ∧
      u.arena.node? declarator = some n ∧ n.size? = some size ∧
      u.structs.entry? 256 = some ⟨"S", [⟨"a", ⟨5, some 4, none⟩, none⟩]⟩ := by
  obtain ⟨u, hu, hquiet, hstruct, hdeclarators, hsize, hentry⟩ :=
    exists_ok_of_any dimensioned .standard (P := fun u =>
      u.diagnostics.hasReports = false ∧
      (u.arena.node? ⟨10⟩).bind Node.struct? = some (256, some ⟨9⟩) ∧
      (u.arena.declarators (some ⟨9⟩)).toOption = some [(⟨5, some 4, none⟩, ⟨6⟩)] ∧
      (u.arena.node? ⟨6⟩).bind Node.size? = some ⟨5⟩ ∧
      u.structs.entry? 256 = some ⟨"S", [⟨"a", ⟨5, some 4, none⟩, none⟩]⟩) (by decide +kernel)
  obtain ⟨n, hn, hstruct⟩ := Option.bind_eq_some_iff.1 hstruct
  obtain ⟨name, rfl⟩ := Node.exists_of_struct? hstruct
  obtain ⟨declarator, hdeclarator, hsize⟩ := Option.bind_eq_some_iff.1 hsize
  exact ⟨u, _, name, _, _, declarator, _, hu, hquiet, hn, eq_ok_of_toOption hdeclarators,
    hdeclarator, hsize, hentry⟩

/-- **Without reports every member whose size has a value is stored as an array of exactly so many
elements**, and one whose size has no value as one value; bytes, offsets and the type of what indexing
selects go by what is stored.  The members of a struct are those of its declarators, one for each and in
their order. -/
theorem ofTokens_arrays (tokens : TokenStream) (o : Options) :
    ∃ u, ofTokens tokens o = .ok u ∧ u.structs.size ≤ tokens.tokens.length ∧
      (u.diagnostics.hasReports = false → u.structs.size ≤ Structs.capacity →
        ∀ id sid name lines, u.arena.node? id = some (.structDeclaration sid name lines) →
          ∃ e ds, u.structs.entry? sid = some e ∧ u.arena.declarators lines = .ok ds ∧
            List.Forall₂ (u.arena.StoresMember u.names) ds e.members ∧
            ∀ place m, e.members[place]? = some m → u.structs.GoesByCount sid place m) := by
  obtain ⟨root, t, hp, -, -, hholds⟩ := program_ends (s := .start tokens o) rfl
  have hturns := turns_program hp
  have hforest : t.builder.arena.Forest := hholds.forest
  have hsize : t.builder.structs.size ≤ tokens.tokens.length := by
    have hle := size_structs_program hp
    rwa [show (ParseState.start tokens o).builder.structs.size = 0 from rfl, Nat.zero_add] at hle
  have hsurveyed : t.builder.Surveyed := (Builder.Surveyed.of_empty rfl).turns hturns
  refine ⟨t.builder.finish root, by unfold ofTokens; rw [hp], hsize, ?_⟩
  intro hquiet hfits id sid name lines hn
  have hmirrored : t.builder.Mirrored :=
    (Builder.Mirrored.of_empty rfl rfl).turns (.of_empty rfl) hturns hfits
  obtain ⟨e, he, -, hmembers⟩ := hmirrored.declares hforest hfits hn
  obtain ⟨ds, hds, hall⟩ := Arena.exists_declarators hmembers
  refine ⟨e, ds, he, hds, hall.imp fun d m hm => ?_, fun place m hm => Structs.goesByCount he hm⟩
  obtain ⟨text, size, tie, hnode, htext, htype, hcounts⟩ := hm
  refine ⟨text, size, tie, hnode, htext, htype, hcounts.stores fun sizeId hsizeId c hc => ?_⟩
  -- the finished nodes give the size the value that it had when it was checked
  obtain ⟨value, hvalue, hcount⟩ := hsurveyed.countable hquiet hforest hnode hsizeId
  exact hcount c (Except.ok.inj (hvalue.symm.trans hc))

/-- A struct with an array whose size is a sum, and a number behind it. -/
def paletted : TokenStream where
  tokens :=
    [⟨.keyword .structWord, "struct", ⟨1, 0⟩⟩, ⟨.name, "S", ⟨1, 0⟩⟩,
      ⟨.mark .openCurly, "\x7b", ⟨1, 0⟩⟩, ⟨.typeName, "float3", ⟨1, 0⟩⟩,
      ⟨.name, "colors", ⟨1, 0⟩⟩, ⟨.mark .openBracket, "[", ⟨1, 0⟩⟩, ⟨.int, "1", ⟨1, 0⟩⟩,
      ⟨.mark .plus, "+", ⟨1, 0⟩⟩, ⟨.int, "2", ⟨1, 0⟩⟩, ⟨.mark .closeBracket, "]", ⟨1, 0⟩⟩,
      ⟨.mark .semicolon, ";", ⟨1, 0⟩⟩, ⟨.typeName, "int", ⟨1, 0⟩⟩, ⟨.name, "mode", ⟨1, 0⟩⟩,
      ⟨.mark .semicolon, ";", ⟨1, 0⟩⟩, ⟨.mark .closeCurly, "\x7d", ⟨1, 0⟩⟩,
      ⟨.mark .semicolon, ";", ⟨1, 0⟩⟩]
  stop := ⟨1, 0⟩

/-- The sum is three, so there are three colors; the number lies behind them. -/
theorem ofTokens_arrays_paletted :
    let colors : StructMember := ⟨"colors", ⟨5, some 3, none⟩, some 3⟩
    ∃ u ds, ofTokens paletted .standard = .ok u ∧ u.diagnostics.hasReports = false ∧
      u.structs.size ≤ Structs.capacity ∧ u.arena.declarators (some ⟨10⟩) = .ok ds ∧
      List.Forall₂ (u.arena.StoresMember u.names) ds [colors, ⟨"mode", .scalar .int, none⟩] ∧
      u.structs.GoesByCount 256 0 colors ∧
      u.structs.placements (.struct 256) = some [⟨0, 48⟩, ⟨48, 4⟩] := by
  intro colors
  obtain ⟨u, hu, -, harrays⟩ := ofTokens_arrays paletted .standard
  obtain ⟨v, hv, hquiet, hfits, hstruct, hentry, hplaces⟩ :=
    exists_ok_of_any paletted .standard (P := fun u =>
      u.diagnostics.hasReports = false ∧ u.structs.size ≤ Structs.capacity ∧
      (u.arena.node? ⟨11⟩).bind Node.struct? = some (256, some ⟨10⟩) ∧
      u.structs.entry? 256 = some ⟨"S", [colors, ⟨"mode", .scalar .int, none⟩]⟩ ∧
      u.structs.placements (.struct 256) = some [⟨0, 48⟩, ⟨48, 4⟩]) (by decide +kernel)
  obtain rfl := Except.ok.inj (hu.symm.trans hv)
  obtain ⟨n, hn, hstruct⟩ := Option.bind_eq_some_iff.1 hstruct
  obtain ⟨name, rfl⟩ := Node.exists_of_struct? hstruct
  obtain ⟨e, ds, he, hds, hstored, hcounts⟩ := harrays hquiet hfits _ _ _ _ hn
  obtain rfl := Option.some.inj (hentry.symm.trans he)
  exact ⟨u, ds, hu, hquiet, hfits, hds, hstored, hcounts 0 colors rfl, hplaces⟩

end CompilationUnit

end ShaderLang
