/-
**What steps of building do to types and positions.**

A step of building consists of moves.  A move reports something at the present position, builds a
node there, declares a variable, opens or closes a struct, or concerns names, calls or the function
being built.  Whatever types a move puts into a node or a declaration, the catalogue admits them; the
members of a struct are those found in nodes.  So nothing but admitted types is ever kept.

Main definitions:

* `ShaderLang.Builder.Move`, `ShaderLang.Builder.Moves` — moves;
* `ShaderLang.Build.MovesTo` — a step of building that consists of moves, with what is known of its
  result;
* `ShaderLang.Builder.Typed` — every type that is kept is admitted.

Main results:

* `ShaderLang.Build.movesTo_vectorType`, `ShaderLang.Build.movesTo_declaration`, … — **every step of
  building consists of moves**;
* `ShaderLang.Builder.Typed.move` — **moves keep types admitted**.
-/

import ShaderLang.Proofs.Builder.Turns
import ShaderLang.Proofs.Results
import ShaderLang.Proofs.Static.Admitted

set_option relaxedAutoImplicit false
set_option autoImplicit false

namespace ShaderLang

namespace Builder

open Structs

/-! ### Moves -/

/-- One move. -/
inductive Move (b : Builder) : Builder → Prop where
  | report (p : Problem) : Move b { b with diagnostics := b.diagnostics.report p b.position }
  | node {n : Node} (typed : ∀ t ∈ n.types, b.structs.Admits t) : Move b (b.push n)
  | declare (name : String) {type : DataType} (isArray : Bool) (typed : b.structs.Admits type) :
      Move b { b with declared := (name, ⟨type, isArray⟩) :: b.declared }
  | opened (name : String) : Move b (b.opened name)
  | closed (name : String) {lines : Option NodeId} {members : List StructMember}
      (collects : b.collectMembers lines = .ok members) :
      Move b { b with structs := (b.structs.finalize name members).2 }
  | names (names : Names) : Move b { b with names }
  | calls (calls : CallGraph) : Move b { b with calls }
  | function (name : Option String) : Move b { b with current := name }

/-- Moves in a row. -/
def Moves : Builder → Builder → Prop := Relation.ReflTransGen Move

variable {b b' b'' : Builder}

namespace Moves

theorem refl (b : Builder) : Moves b b := Relation.ReflTransGen.refl

theorem trans (h : Moves b b') (h' : Moves b' b'') : Moves b b'' := Relation.ReflTransGen.trans h h'

end Moves

theorem Move.moves (h : Move b b') : Moves b b' := Relation.ReflTransGen.single h

/-- No move takes a struct out of the catalogue. -/
theorem Move.size_le (h : Move b b') : b.structs.size ≤ b'.structs.size := by
  cases h with
  | opened name => exact (size_register b.structs name).symm ▸ Nat.le_succ _
  | closed name => exact Nat.le_of_eq (size_finalize ..).symm
  | _ => exact Nat.le_refl _

theorem Moves.size_le (h : Moves b b') : b.structs.size ≤ b'.structs.size := by
  induction h with
  | refl => exact Nat.le_refl _
  | tail _ hmove ih => exact Nat.le_trans ih hmove.size_le

/-- No report is taken back. -/
theorem Move.errors_le (h : Move b b') : b.errors ≤ b'.errors := by
  cases h with
  | report p =>
      rw [errors, errors, Diagnostics.countP_report]
      exact Nat.le_add_right _ _
  | _ => exact Nat.le_refl _

theorem Moves.errors_le (h : Moves b b') : b.errors ≤ b'.errors := by
  induction h with
  | refl => exact Nat.le_refl _
  | tail _ hmove ih => exact Nat.le_trans ih hmove.errors_le

/-! ### Types that are kept -/

/-- Every type in a node, of a variable or of a member is admitted. -/
structure Typed (b : Builder) : Prop where
  nodes : b.arena.Typed b.structs
  declared : ∀ d ∈ b.declared, b.structs.Admits d.2.type
  members : ∀ e ∈ b.structs.entries, ∀ m ∈ e.members, b.structs.Admits m.type

namespace Typed

/-- What is asked about expressions is asked in a scope of admitted types. -/
theorem scope (h : b.Typed) : b.scope.Typed b.structs where
  name := by
    intro n d hd
    obtain ⟨text, -, hlookup⟩ := Option.bind_eq_some_iff.1 hd
    obtain ⟨l, r, hl, -⟩ := List.lookup_eq_some_iff.1 hlookup
    exact h.declared (text, d) (by rw [hl]; simp)
  member := by
    intro t n d hd
    obtain ⟨text, -, hmember⟩ := Option.bind_eq_some_iff.1 hd
    obtain ⟨m, hm, rfl⟩ := Option.map_eq_some_iff.1 hmember
    obtain ⟨e, he, hfind⟩ := Option.bind_eq_some_iff.1 hm
    obtain ⟨place, -, hplace⟩ := exists_place_of_entry? he
    exact h.members e (Array.mem_of_getElem? hplace) m (List.mem_of_find?_eq_some hfind)

/-- Types stay admitted as long as the catalogue loses no struct. -/
theorem of_same (h : b.Typed) (hnodes : b'.arena = b.arena) (hstructs : b'.structs = b.structs)
    (hdeclared : b'.declared = b.declared) : b'.Typed where
  nodes := by
    rw [hnodes, hstructs]
    exact h.nodes
  declared := by
    rw [hdeclared, hstructs]
    exact h.declared
  members := by
    rw [hstructs]
    exact h.members

/-- One more node with admitted types. -/
theorem push (h : b.Typed) {n : Node} (hn : ∀ t ∈ n.types, b.structs.Admits t) :
    (b.push n).Typed where
  nodes := by
    intro id m hm
    rcases node?_push_eq_some hm with ⟨-, rfl⟩ | hold
    · exact hn
    · exact h.nodes id m hold
  declared := h.declared
  members := h.members

/-- The structs may change as long as they are as many and their members have admitted types. -/
theorem withStructs (h : b.Typed) {s : Structs} (hsize : b.structs.size ≤ s.size)
    (hmembers : ∀ e ∈ s.entries, ∀ m ∈ e.members, b.structs.Admits m.type) :
    Typed { b with structs := s } where
  nodes := fun id n hn t ht => (h.nodes id n hn t ht).mono hsize
  declared := fun d hd => (h.declared d hd).mono hsize
  members := fun e he m hm => (hmembers e he m hm).mono hsize

end Typed

/-! ### The members of structs -/

/-- A member that is found in a declarator has the type of its line. -/
theorem type_of_memberOf {type : DataType} {id : NodeId} {m : StructMember}
    (h : b.memberOf type id = .ok (some m)) : m.type = type := by
  obtain ⟨n, -, h⟩ := exists_ok_of_bind h
  split at h
  · obtain ⟨count, -, h⟩ := exists_ok_of_bind h
    obtain rfl := Option.some.inj (Except.ok.inj h)
    rfl
  · have hnone := Except.ok.inj h
    contradiction

namespace Typed

theorem membersOf (h : b.Typed) {id : NodeId} {members : List StructMember}
    (hmembers : b.membersOf id = .ok members) : ∀ m ∈ members, b.structs.Admits m.type := by
  intro m hm
  obtain ⟨n, hget, hmembers⟩ := exists_ok_of_bind hmembers
  split at hmembers
  · next type declarators =>
      obtain ⟨items, -, hmembers⟩ := exists_ok_of_bind hmembers
      obtain ⟨found, hfound, hmembers⟩ := exists_ok_of_bind hmembers
      obtain rfl := Except.ok.inj hmembers
      obtain ⟨o, ho, rfl⟩ := List.mem_filterMap.1 hm
      obtain ⟨i, -, hi⟩ := exists_mem_of_mapM hfound ho
      rw [type_of_memberOf hi]
      exact h.nodes id _ (Arena.node?_of_get hget) type (List.mem_singleton.2 rfl)
  · obtain rfl := Except.ok.inj hmembers
    contradiction

/-- The members that are collected for a struct have admitted types. -/
theorem collectMembers (h : b.Typed) {lines : Option NodeId} {members : List StructMember}
    (hmembers : b.collectMembers lines = .ok members) :
    ∀ m ∈ members, b.structs.Admits m.type := by
  intro m hm
  cases lines with
  | none =>
      obtain rfl := Except.ok.inj hmembers
      contradiction
  | some id =>
      obtain ⟨items, -, hmembers⟩ := exists_ok_of_bind hmembers
      obtain ⟨found, hfound, hmembers⟩ := exists_ok_of_bind hmembers
      obtain rfl := Except.ok.inj hmembers
      obtain ⟨line, hline, hm⟩ := List.mem_flatten.1 hm
      obtain ⟨i, -, hi⟩ := exists_mem_of_mapM hfound hline
      exact h.membersOf hi m hm

theorem opened (h : b.Typed) (name : String) : (b.opened name).Typed := by
  refine h.withStructs (Move.opened name).size_le fun e he m hm => ?_
  rcases Array.mem_push.1 he with he | rfl
  · exact h.members e he m hm
  · contradiction

theorem closed (h : b.Typed) (name : String) {members : List StructMember}
    (hmembers : ∀ m ∈ members, b.structs.Admits m.type) :
    Typed { b with structs := (b.structs.finalize name members).2 } := by
  refine h.withStructs (Nat.le_of_eq (size_finalize ..).symm) fun e he m hm => ?_
  obtain ⟨place, hplace⟩ := Array.mem_iff_getElem?.1 he
  cases hnamed : b.structs.placeNamed name with
  | none =>
      rw [finalize, hnamed] at hplace
      exact h.members e (Array.mem_of_getElem? hplace) m hm
  | some target =>
      rw [entries_finalize _ _ hnamed] at hplace
      split at hplace
      · obtain ⟨old, -, rfl⟩ := Option.map_eq_some_iff.1 hplace
        exact hmembers m hm
      · exact h.members e (Array.mem_of_getElem? hplace) m hm

/-- **Moves keep types admitted.** -/
theorem move (h : b.Typed) (hmove : Move b b') : b'.Typed := by
  cases hmove with
  | node typed => exact h.push typed
  | declare name isArray typed =>
      refine ⟨h.nodes, fun d hd => ?_, h.members⟩
      rcases List.mem_cons.1 hd with rfl | hd
      · exact typed
      · exact h.declared d hd
  | opened name => exact h.opened name
  | closed name collects => exact h.closed name (h.collectMembers collects)
  | _ => exact h.of_same rfl rfl rfl

theorem moves (h : b.Typed) (hmoves : Moves b b') : b'.Typed := by
  induction hmoves with
  | refl => exact h
  | tail _ hmove ih => exact ih.move hmove

/-- Nothing is kept where nothing is built. -/
theorem start (diagnostics : Diagnostics) : (Builder.start diagnostics).Typed where
  nodes := by
    intro id n hn
    have hnone : (Arena.empty).node? id = none := Arena.node?_empty id
    rw [Builder.start] at hn
    rw [hnone] at hn
    contradiction
  declared := nofun
  members := fun e he => absurd he (Array.not_mem_empty e)

end Typed

end Builder

/-! ### Steps of building that consist of moves -/

namespace Build

open Builder Structs

variable {α β : Type}

/-- Nothing is known of a result. -/
def Unknown : α → Structs → Prop := fun _ _ => True

/-- With a result, the step of building made moves, and something is known of the result. -/
def MovesTo (known : α → Structs → Prop) (m : Build α) (b : Builder) : Prop :=
  ∀ x b', m b = .ok x b' → Moves b b' ∧ known x b'.structs

variable {b : Builder} {known : α → Structs → Prop} {known' : β → Structs → Prop} {m : Build α}
  {f : α → Build β} {type : DataType}

theorem bind_eq_ok {y : β} {b'' : Builder} (h : (m >>= f) b = .ok y b'') :
    ∃ x b', m b = .ok x b' ∧ f x b' = .ok y b'' := by
  rw [bind_apply] at h
  split at h
  · next x b' hm => exact ⟨x, b', hm, h⟩
  · contradiction

namespace MovesTo

theorem bind (hm : m.MovesTo known b)
    (hf : ∀ x b', b.structs.size ≤ b'.structs.size → known x b'.structs → (f x).MovesTo known' b') :
    (m >>= f).MovesTo known' b := by
  intro y b'' h
  obtain ⟨x, b', hx, hy⟩ := bind_eq_ok h
  obtain ⟨hmoves, hknown⟩ := hm x b' hx
  obtain ⟨hmoves', hknown'⟩ := hf x b' hmoves.size_le hknown y b'' hy
  exact ⟨hmoves.trans hmoves', hknown'⟩

/-- A step in front of one for which it only makes room. -/
theorem andThen (hm : m.MovesTo Unknown b)
    (hf : ∀ x b', b.structs.size ≤ b'.structs.size → (f x).MovesTo known' b') :
    (m >>= f).MovesTo known' b :=
  hm.bind fun x b' hsize _ => hf x b' hsize

end MovesTo

theorem movesTo_pure {x : α} (h : known x b.structs) : (pure x : Build α).MovesTo known b := by
  intro y b' hy
  obtain ⟨rfl, rfl⟩ := EStateM.Result.ok.inj hy
  exact ⟨.refl b, h⟩

theorem movesTo_ask (question : Builder → Except Fault α) : (ask question).MovesTo Unknown b := by
  intro x b' hx
  unfold ask at hx
  split at hx
  · obtain ⟨-, rfl⟩ := EStateM.Result.ok.inj hx
    exact ⟨.refl b, trivial⟩
  · contradiction

/-- A step that is one move. -/
theorem movesTo_move {x : α} {b' : Builder} (hm : m b = .ok x b') (hmove : Move b b') :
    m.MovesTo Unknown b := by
  intro y b'' hy
  obtain ⟨-, rfl⟩ := EStateM.Result.ok.inj (hm.symm.trans hy)
  exact ⟨hmove.moves, trivial⟩

theorem movesTo_report (p : Problem) : (report p).MovesTo Unknown b := movesTo_move rfl (.report p)

/-- A node with types that are admitted. -/
theorem movesTo_add {n : Node} (h : ∀ t ∈ n.types, b.structs.Admits t) :
    (add n).MovesTo Unknown b :=
  movesTo_move rfl (.node h)

/-- A node without types. -/
theorem movesTo_add_plain {n : Node} (h : n.types = []) : (add n).MovesTo Unknown b :=
  movesTo_add fun _ ht => absurd (h ▸ ht) List.not_mem_nil

/-- A node with one type. -/
theorem movesTo_add_typed {n : Node} (h : n.types = [type]) (htype : b.structs.Admits type) :
    (add n).MovesTo Unknown b := by
  refine movesTo_add fun t ht => ?_
  rw [h] at ht
  obtain rfl := List.mem_singleton.1 ht
  exact htype

theorem movesTo_occur (text : String) : (occur text).MovesTo Unknown b :=
  movesTo_move rfl (.names _)

theorem movesTo_declare (text : String) (htype : b.structs.Admits type) (isArray : Bool) :
    (declare text type isArray).MovesTo Unknown b :=
  movesTo_move rfl (.declare text isArray htype)

/-! ### Expressions -/

theorem movesTo_intLiteral (text : String) : (intLiteral text).MovesTo Unknown b := by
  unfold intLiteral
  split
  · exact movesTo_add_plain rfl
  · exact (movesTo_report _).andThen fun _ _ _ => movesTo_add_plain rfl

theorem movesTo_floatLiteral (text : String) : (floatLiteral text).MovesTo Unknown b := by
  unfold floatLiteral
  split
  · exact movesTo_add_plain rfl
  · exact (movesTo_report _).andThen fun _ _ _ => movesTo_add_plain rfl

theorem movesTo_stringLiteral (text : String) : (stringLiteral text).MovesTo Unknown b := by
  have hliteral : MovesTo Unknown (modifyGet fun b : Builder =>
      ((b.names.addLiteral text true).1, { b with names := (b.names.addLiteral text true).2 })) b :=
    movesTo_move rfl (.names _)
  exact hliteral.andThen fun _ _ _ => movesTo_add_plain rfl

theorem movesTo_name (text : String) : (name text).MovesTo Unknown b :=
  (movesTo_occur text).andThen fun _ _ _ => movesTo_add_plain rfl

theorem movesTo_field (base : NodeId) (text : String) : (field base text).MovesTo Unknown b :=
  (movesTo_occur text).andThen fun _ _ _ => movesTo_add_plain rfl

theorem movesTo_element (array position : NodeId) : (element array position).MovesTo Unknown b := by
  refine (movesTo_ask _).andThen fun isInt _ _ => ?_
  split
  · exact (movesTo_report _).andThen fun _ _ _ => movesTo_add_plain rfl
  · exact movesTo_add_plain rfl

theorem movesTo_noteCall (callee : NodeId) : (noteCall callee).MovesTo Unknown b := by
  refine (movesTo_ask _).andThen fun node b₁ _ => ?_
  split
  · intro x b₂ h
    obtain ⟨-, rfl⟩ := EStateM.Result.ok.inj h
    refine ⟨?_, trivial⟩
    dsimp only
    split
    · exact (Move.calls _).moves
    · exact .refl b₁
  · exact movesTo_pure trivial

theorem movesTo_call (callee : NodeId) (arguments : Option NodeId) :
    (call callee arguments).MovesTo Unknown b :=
  (movesTo_noteCall callee).andThen fun _ _ _ => movesTo_add_plain rfl

theorem movesTo_intrinsicCall (text : String) (arguments : Option NodeId) :
    (intrinsicCall text arguments).MovesTo Unknown b := by
  unfold intrinsicCall
  split
  · exact movesTo_add_plain rfl
  · refine (movesTo_report _).andThen fun _ _ _ => ?_
    exact (movesTo_name text).andThen fun callee _ _ => movesTo_call callee arguments

/-! ### Types -/

/-- A built-in type. -/
def Plain (type : DataType) (_ : Structs) : Prop := type.IsBuiltIn ∧ type.Shaped

/-- A type that is admitted. -/
def Admitted (type : DataType) (s : Structs) : Prop := s.Admits type

/-- An extent that is small. -/
def Small (e : Extent) (_ : Structs) : Prop := e.IsSmall

theorem plain_void (s : Structs) : Plain .void s := ⟨⟨.void, rfl⟩, DataType.shaped_bare _⟩

theorem movesTo_namedType (text : String) : (namedType text).MovesTo Plain b := by
  unfold namedType
  split
  · next type htype => exact movesTo_pure (DataType.plain_of_ofKeyword htype)
  · exact (movesTo_report _).andThen fun _ _ _ => movesTo_pure (plain_void _)

theorem movesTo_structType (text : String) : (structType text).MovesTo Admitted b := by
  have hget : MovesTo (fun c s => s = c.structs) (get : Build Builder) b := by
    intro c b' h
    obtain ⟨rfl, rfl⟩ := EStateM.Result.ok.inj h
    exact ⟨.refl b, rfl⟩
  refine hget.bind fun c b' _ hc => ?_
  split
  · next id hid =>
      refine movesTo_pure ?_
      obtain ⟨place, hplace, rfl⟩ := Option.map_eq_some_iff.1 hid
      rw [hc]
      exact .inr ⟨place, lt_size_of_placeNamed hplace, rfl⟩
  · exact (movesTo_report _).andThen fun _ _ _ => movesTo_pure (.inl (plain_void b.structs))

theorem isSmall_extentOfInt (n : Int) : (extentOfInt n).IsSmall := by
  unfold extentOfInt
  split
  · exact Extent.isSmall_some (by decide)
  · split
    · exact Extent.isSmall_some (by decide)
    · split
      · exact Extent.isSmall_some (by decide)
      · exact Extent.isSmall_none

theorem movesTo_dimension (id : NodeId) : (dimension id).MovesTo Small b := by
  refine (movesTo_ask _).andThen fun value b' _ => ?_
  split
  · exact (movesTo_report _).andThen fun _ _ _ => movesTo_pure Extent.isSmall_none
  · exact (movesTo_report _).andThen fun _ _ _ => movesTo_pure Extent.isSmall_none
  · next value _ =>
      have hsmall := isSmall_extentOfInt value.toInt64.toInt
      split
      · next n hn => exact movesTo_pure (hn ▸ hsmall)
      · exact (movesTo_report _).andThen fun _ _ _ => movesTo_pure Extent.isSmall_none

theorem movesTo_vectorType {component : DataType} (h : component.IsBuiltIn) (size : NodeId) :
    (vectorType component size).MovesTo Plain b := by
  refine (movesTo_dimension size).bind fun e b' _ he => ?_
  split
  · exact movesTo_pure ⟨h, DataType.shaped_vector _ he⟩
  · exact movesTo_pure ⟨h, DataType.shaped_bare _⟩

theorem movesTo_matrixType {component : DataType} (h : component.IsBuiltIn)
    (rows columns : NodeId) : (matrixType component rows columns).MovesTo Plain b := by
  refine (movesTo_dimension rows).bind fun r b₁ _ hr => ?_
  refine (movesTo_dimension columns).bind fun c b₂ _ hc => ?_
  split
  · exact movesTo_pure ⟨h, hr, hc, fun _ => rfl⟩
  · exact movesTo_pure ⟨h, DataType.shaped_bare _⟩

/-! ### Declarations -/

theorem movesTo_semantic (text : String) : (semantic text).MovesTo Unknown b := by
  unfold semantic
  split
  · exact (movesTo_add_plain rfl).andThen fun _ _ _ => movesTo_pure trivial
  · exact (movesTo_report _).andThen fun _ _ _ => movesTo_pure trivial

theorem movesTo_checkSize (size : Option NodeId) : (checkSize size).MovesTo Unknown b := by
  cases size with
  | none => exact movesTo_pure trivial
  | some id =>
      refine (movesTo_ask _).andThen fun isInt b₁ _ => ?_
      split
      · refine (movesTo_ask _).andThen fun value b₂ _ => ?_
        split
        · split
          · exact movesTo_report _
          · exact movesTo_pure trivial
        · exact movesTo_pure trivial
      · exact movesTo_report _

theorem movesTo_declaration (q : Qualifiers) (h : b.structs.Admits type) (text : String)
    (size tie initializer : Option NodeId) :
    (declaration q type text size tie initializer).MovesTo Unknown b := by
  refine (movesTo_checkSize size).andThen fun _ b₁ h₁ => ?_
  refine (movesTo_declare text (h.mono h₁) size.isSome).andThen fun _ b₂ h₂ => ?_
  refine (movesTo_occur text).andThen fun name b₃ h₃ => ?_
  exact movesTo_add_typed rfl (h.mono (h₁.trans (h₂.trans h₃)))

theorem movesTo_structDeclarator (text : String) (size tie : Option NodeId) :
    (structDeclarator text size tie).MovesTo Unknown b := by
  refine (movesTo_checkSize size).andThen fun _ b₁ _ => ?_
  exact (movesTo_occur text).andThen fun _ _ _ => movesTo_add_plain rfl

theorem movesTo_parameter (q : Qualifiers) (h : b.structs.Admits type) (text : Option String)
    (size tie : Option NodeId) : (parameter q type text size tie).MovesTo Unknown b := by
  refine (movesTo_checkSize size).andThen fun _ b₁ h₁ => ?_
  split
  · exact movesTo_add_typed rfl (h.mono h₁)
  · next text =>
      refine (movesTo_declare text (h.mono h₁) size.isSome).andThen fun _ b₂ h₂ => ?_
      refine (movesTo_occur text).andThen fun name b₃ h₃ => ?_
      exact movesTo_add_typed rfl (h.mono (h₁.trans (h₂.trans h₃)))

/-! ### Structs and functions -/

theorem movesTo_beginStruct (name : String) : (beginStruct name).MovesTo Unknown b :=
  movesTo_move rfl (.opened name)

theorem movesTo_structDeclaration (id : UInt32) (members : Option NodeId) :
    (structDeclaration id members).MovesTo Unknown b := by
  intro x b' h
  rw [structDeclaration_apply] at h
  split at h
  · next collected hcollect =>
      obtain ⟨-, rfl⟩ := EStateM.Result.ok.inj h
      refine ⟨?_, trivial⟩
      have hclose := (Move.closed (b := b) ((b.structs.nameOf id).getD "") hcollect).moves
      refine (hclose.trans (Move.names _).moves).trans (Move.node ?_).moves
      exact fun t ht => absurd ht List.not_mem_nil
  · contradiction

theorem movesTo_setCurrent (name : Option String) : (setCurrent name).MovesTo Unknown b :=
  movesTo_move rfl (.function name)

theorem movesTo_prototype (h : b.structs.Admits type) (text : String)
    (parameters tie : Option NodeId) :
    (prototype type text parameters tie).MovesTo Unknown b := by
  refine (movesTo_setCurrent (some text)).andThen fun _ b₁ h₁ => ?_
  refine (movesTo_occur text).andThen fun name b₂ h₂ => ?_
  exact movesTo_add_typed rfl (h.mono (h₁.trans h₂))

theorem movesTo_definition (head body : NodeId) : (definition head body).MovesTo Unknown b :=
  (movesTo_setCurrent none).andThen fun _ _ _ => movesTo_add_plain rfl

end Build

end ShaderLang
