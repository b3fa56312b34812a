/-
**Types that a catalogue of structs admits.**

A type word has room for many types that nothing builds: bases that belong to no type, extents of any
size, a second extent without a first, structs with extents.  The types that are built are of two
sorts: a built-in base with extents from two to four, or a struct of the catalogue without extents.
Every operation on types stays among these, so whatever the types of names, members and conversions
are made of, the types of expressions are made of the same.

Main definitions:

* `ShaderLang.DataType.WellFormed` — what is said of a type in terms of its word;
* `ShaderLang.Structs.Admits` — the two sorts of types;
* `ShaderLang.Node.types`, `ShaderLang.Arena.Typed`, `ShaderLang.Scope.Typed` — where types are kept.

Main results:

* `ShaderLang.Structs.Admits.wellFormed` — types that are admitted are well-formed;
* `ShaderLang.Structs.admits_typeBinary`, `ShaderLang.Structs.Admits.swizzle`, … — the operations;
* `ShaderLang.Arena.admits_typeOf` — **the type of an expression is admitted**.
-/

import ShaderLang.Proofs.Arena.Walks
import ShaderLang.Proofs.Static.Kinds
import ShaderLang.Proofs.Structs.Registration
import ShaderLang.Proofs.Types.Keywords

set_option relaxedAutoImplicit false
set_option autoImplicit false

namespace ShaderLang

/-! ### Extents -/

namespace Extent

/-- The extent is absent or lies between two and four. -/
def IsSmall (e : Extent) : Prop := ∀ n, e = some n → 2 ≤ n.val ∧ n.val ≤ 4

theorem isSmall_none : IsSmall none := nofun

theorem isSmall_some {n : Fin absentExtent} (h : 2 ≤ n.val ∧ n.val ≤ 4) : IsSmall (some n) := by
  rintro m hm
  obtain rfl := Option.some.inj hm
  exact h

end Extent

namespace DataType

/-- The extents are small, and there is no second one without a first. -/
structure Shaped (t : DataType) : Prop where
  dim0 : t.dim0.IsSmall
  dim1 : t.dim1.IsSmall
  nested : t.dim1.isSome → t.dim0.isSome

/-- The base is one of the built-in base types. -/
def IsBuiltIn (t : DataType) : Prop := ∃ b : BaseType, b.id = t.base

/-- The base is built in or belongs to a struct of the catalogue; the extents are small, and a struct
has none. -/
structure WellFormed (s : Structs) (t : DataType) : Prop where
  base : t.IsBuiltIn ∨ (s.entry? t.base).isSome
  shaped : t.Shaped
  bare : (s.entry? t.base).isSome → t.dim0 = none ∧ t.dim1 = none

theorem shaped_bare (base : UInt32) : Shaped ⟨base, none, none⟩ :=
  ⟨Extent.isSmall_none, Extent.isSmall_none, fun h => h⟩

theorem shaped_vector (base : UInt32) {size : Fin absentExtent} (h : Extent.IsSmall (some size)) :
    Shaped ⟨base, some size, none⟩ :=
  ⟨h, Extent.isSmall_none, fun _ => rfl⟩

theorem Shaped.withBase {t : DataType} (h : t.Shaped) (base : UInt32) : (t.withBase base).Shaped :=
  ⟨h.dim0, h.dim1, h.nested⟩

/-- Built-in base types have numbers below those of structs. -/
theorem IsBuiltIn.isStruct {t : DataType} (h : t.IsBuiltIn) : t.isStruct = false := by
  obtain ⟨b, hb⟩ := h
  show decide (firstStructId ≤ t.base) = false
  rw [← hb]
  cases b <;> rfl

/-- The wider base type of two is built in. -/
theorem isBuiltIn_of_promote {a b t : DataType} (h : promote a b = some t.base) : t.IsBuiltIn := by
  unfold promote at h
  split at h
  · next m n ha hb =>
      obtain ⟨c, hc, -⟩ := Option.bind_eq_some_iff.1 ha
      obtain ⟨d, hd, -⟩ := Option.bind_eq_some_iff.1 hb
      have hbase := Option.some.inj h
      split at hbase
      · exact ⟨c, (BaseType.id_of_ofId hc).trans hbase⟩
      · exact ⟨d, (BaseType.id_of_ofId hd).trans hbase⟩
  · contradiction

/-! ### Keywords -/

/-- The type that a keyword names is built in. -/
theorem plain_of_ofKeyword {name : String} {t : DataType} (h : ofKeyword name = some t) :
    t.IsBuiltIn ∧ t.Shaped := by
  cases (ofKeyword_eq_some_iff.1 h).1 with
  | bare b => exact ⟨⟨b, rfl⟩, shaped_bare _⟩
  | @vector b size _ hsize => exact ⟨⟨b, rfl⟩, shaped_vector _ (Extent.isSmall_some hsize)⟩
  | @matrix b rows columns _ hrows hcolumns =>
      exact ⟨⟨b, rfl⟩, Extent.isSmall_some hrows, Extent.isSmall_some hcolumns, fun _ => rfl⟩

/-! ### The shapes of results -/

variable {a b t : DataType}

theorem shaped_of_componentwise (ha : a.Shaped) (hb : b.Shaped) (h : componentwise a b = some t) :
    t.Shaped := by
  obtain ⟨base, -, h⟩ := Option.bind_eq_some_iff.1 h
  split at h
  · obtain rfl := Option.some.inj h
    exact hb.withBase base
  · split at h
    · obtain rfl := Option.some.inj h
      exact ha.withBase base
    · contradiction

/-- The one operand with a property is one of the two. -/
theorem theOne_eq_some {p : DataType → Bool} (h : theOne p a b = some t) : t = a ∨ t = b := by
  unfold theOne at h
  split at h
  · exact .inl (Option.some.inj h).symm
  · exact .inr (Option.some.inj h).symm
  · contradiction

theorem isSmall_of_matrixDims (ha : a.Shaped) (hb : b.Shaped) {rows columns : Fin absentExtent}
    (h : matrixDims a b = some (rows, columns)) :
    Extent.IsSmall (some rows) ∧ Extent.IsSmall (some columns) := by
  obtain ⟨m, hm, h⟩ := Option.bind_eq_some_iff.1 h
  have hshaped : m.Shaped := by
    rcases theOne_eq_some hm with rfl | rfl
    · exact ha
    · exact hb
  split at h
  · next hrows hcolumns =>
      obtain ⟨rfl, rfl⟩ := Prod.mk.inj (Option.some.inj h)
      exact ⟨hrows ▸ hshaped.dim0, hcolumns ▸ hshaped.dim1⟩
  · contradiction

theorem shaped_of_linearMap (ha : a.Shaped) (hb : b.Shaped) {base : UInt32}
    (h : linearMap base a b = some t) : t.Shaped := by
  unfold linearMap at h
  split at h
  · next rows columns size hdims _ =>
      obtain ⟨hrows, hcolumns⟩ := isSmall_of_matrixDims ha hb hdims
      split at h
      · obtain rfl := Option.some.inj h
        exact shaped_vector base hrows
      · split at h
        · obtain rfl := Option.some.inj h
          exact shaped_vector base hcolumns
        · contradiction
  · contradiction

theorem shaped_of_multiply (ha : a.Shaped) (hb : b.Shaped) (h : multiply a b = some t) :
    t.Shaped := by
  obtain ⟨base, -, h⟩ := Option.bind_eq_some_iff.1 h
  split at h
  · obtain rfl := Option.some.inj h
    split
    · exact hb.withBase base
    · exact ha.withBase base
  · split at h
    · exact shaped_of_linearMap ha hb h
    · split at h
      · obtain rfl := Option.some.inj h
        exact ha.withBase base
      · contradiction

end DataType

/-! ### Types that are admitted -/

namespace Structs

open DataType

/-- The type is a built-in one, or a struct of the catalogue. -/
def Admits (s : Structs) (t : DataType) : Prop :=
  t.IsBuiltIn ∧ t.Shaped ∨ ∃ place < s.size, t = .struct (idOf place)

variable {s s' : Structs} {t u : DataType}

theorem admits_scalar (b : BaseType) : s.Admits (.scalar b) := .inl ⟨⟨b, rfl⟩, shaped_bare _⟩

theorem Admits.mono (h : s.Admits t) (hsize : s.size ≤ s'.size) : s'.Admits t := by
  rcases h with h | ⟨place, hplace, rfl⟩
  · exact .inl h
  · exact .inr ⟨place, Nat.lt_of_lt_of_le hplace hsize, rfl⟩

theorem Admits.shaped (h : s.Admits t) : t.Shaped := by
  rcases h with ⟨-, h⟩ | ⟨place, -, rfl⟩
  · exact h
  · exact shaped_bare _

/-- The components of a type that is admitted have a type that is. -/
theorem Admits.element (h : s.Admits t) : s.Admits t.element := by
  rcases h with ⟨hbase, -⟩ | ⟨place, hplace, rfl⟩
  · exact .inl ⟨hbase, shaped_bare _⟩
  · exact .inr ⟨place, hplace, rfl⟩

theorem Admits.indexed (h : s.Admits t) : s.Admits t.indexed := by
  unfold DataType.indexed
  split
  · rcases h with ⟨hbase, hshaped⟩ | ⟨place, -, rfl⟩
    · exact .inl ⟨hbase, ⟨hshaped.dim1, Extent.isSmall_none, fun h => (Bool.false_ne_true h).elim⟩⟩
    · contradiction
  · exact h.element

/-- Truth values in the shape of a type that is admitted. -/
theorem Admits.withBase (h : s.Admits t) (b : BaseType) : s.Admits (t.withBase b.id) :=
  .inl ⟨⟨b, rfl⟩, h.shaped.withBase b.id⟩

theorem admits_typeBinary {op : BinaryOp} {a b : DataType} (ha : s.Admits a) (hb : s.Admits b)
    (h : Arena.typeBinary op a b = some t) : s.Admits t := by
  unfold Arena.typeBinary at h
  split at h
  · exact .inl ⟨isBuiltIn_of_promote (promote_of_multiply h),
      shaped_of_multiply ha.shaped hb.shaped h⟩
  · exact .inl ⟨isBuiltIn_of_promote (promote_of_componentwise h),
      shaped_of_componentwise ha.shaped hb.shaped h⟩

/-! ### Structs are told by their numbers -/

/-- As long as numbers tell structs apart, the number of a struct is none of a built-in type. -/
theorem isStruct_idOf {place : Nat} (h : place < capacity) :
    (DataType.struct (idOf place)).isStruct = true := by
  have hle : firstStructId ≤ idOf place := by
    rw [UInt32.le_iff_toNat_le, toNat_idOf h]
    exact Nat.le_add_right _ _
  exact decide_eq_true hle

/-- A type that is admitted and is no struct is built in. -/
theorem Admits.isBuiltIn (h : s.Admits t) (hfits : s.size ≤ capacity) (hstruct : t.isStruct = false) :
    t.IsBuiltIn := by
  rcases h with ⟨hbase, -⟩ | ⟨place, hplace, rfl⟩
  · exact hbase
  · rw [isStruct_idOf (Nat.lt_of_lt_of_le hplace hfits)] at hstruct
    contradiction

/-- A selection of components. -/
theorem Admits.swizzle (h : s.Admits t) (hfits : s.size ≤ capacity) {letters : List Char}
    (hu : t.swizzle letters = some u) : s.Admits u := by
  unfold DataType.swizzle at hu
  split at hu
  · contradiction
  · next hkind =>
      simp only [Bool.or_eq_true, not_or, Bool.not_eq_true] at hkind
      have hbase := h.isBuiltIn hfits hkind.1.2
      split at hu
      case h_1 => contradiction
      case h_2 =>
          obtain rfl := Option.some.inj hu
          exact h.element
      case h_6 => contradiction
      all_goals
        obtain rfl := Option.some.inj hu
        exact .inl ⟨hbase, shaped_vector _ (Extent.isSmall_some (by decide))⟩

/-- The catalogue has a struct for a number only among the numbers of structs. -/
theorem firstStructId_le_of_isSome {id : UInt32} (h : (s.entry? id).isSome) : firstStructId ≤ id := by
  obtain ⟨e, he⟩ := Option.isSome_iff_exists.1 h
  obtain ⟨place, hplace, -⟩ := Option.bind_eq_some_iff.1 he
  unfold placeOf at hplace
  split at hplace
  · next hle => exact hle
  · contradiction

/-- **Types that are admitted are well-formed**, as long as numbers tell structs apart. -/
theorem Admits.wellFormed (h : s.Admits t) (hfits : s.size ≤ capacity) : t.WellFormed s where
  base := by
    rcases h with ⟨hbase, -⟩ | ⟨place, hplace, rfl⟩
    · exact .inl hbase
    · refine .inr ?_
      show (s.entry? (idOf place)).isSome
      rw [s.entry?_idOf (Nat.lt_of_lt_of_le hplace hfits), Array.getElem?_eq_getElem hplace]
      rfl
  shaped := h.shaped
  bare := by
    intro hentry
    rcases h with ⟨hbase, -⟩ | ⟨place, -, rfl⟩
    · have hstruct := hbase.isStruct
      rw [DataType.isStruct, decide_eq_true (firstStructId_le_of_isSome hentry)] at hstruct
      contradiction
    · exact ⟨rfl, rfl⟩

end Structs

/-! ### Types of expressions -/

namespace Node

/-- The types in a node. -/
def types : Node → List DataType
  | cast type _ => [type]
  | construct type _ => [type]
  | declaration _ type _ _ _ _ => [type]
  | structMember type _ => [type]
  | parameter _ type _ _ _ => [type]
  | prototype type _ _ _ => [type]
  | _ => []

end Node

/-- The types of names and members are admitted. -/
structure Scope.Typed (scope : Scope) (s : Structs) : Prop where
  name : ∀ n d, scope.name n = some d → s.Admits d.type
  member : ∀ t n d, scope.member t n = some d → s.Admits d.type

theorem Scope.typed_empty (s : Structs) : Scope.empty.Typed s := ⟨nofun, nofun⟩

namespace Arena

/-- The types in all nodes are admitted. -/
def Typed (a : Arena) (s : Structs) : Prop :=
  ∀ id n, a.node? id = some n → ∀ t ∈ n.types, s.Admits t

variable {a : Arena} {scope : Scope} {s : Structs} {type : NodeId → Walk DataType} {t : DataType}

/-- A node that is fetched is there. -/
theorem node?_of_fetch {id : NodeId} {n : Node} (h : (a.fetch id).run = .ok (some n)) :
    a.node? id = some n := by
  have hmap : (a.get id).map some = .ok (some n) := h
  cases hget : a.get id with
  | error e =>
      rw [hget] at hmap
      contradiction
  | ok m =>
      rw [hget] at hmap
      obtain rfl := Option.some.inj (Except.ok.inj hmap)
      exact node?_of_get hget

theorem admits_of_declarationOf (hscope : scope.Typed s) {id : NodeId} {d : Declared}
    (h : (a.declarationOf scope type id).run = .ok (some d)) : s.Admits d.type := by
  obtain ⟨n, -, h⟩ := Walk.run_bind_eq_some.1 h
  split at h
  · exact hscope.name _ d (Except.ok.inj h)
  · obtain ⟨base, -, h⟩ := Walk.run_bind_eq_some.1 h
    exact hscope.member base _ d (Except.ok.inj h)
  · exact absurd h Walk.run_failure_ne

theorem admits_typeField (hscope : scope.Typed s) (hfits : s.size ≤ Structs.capacity)
    {base : DataType} (hbase : s.Admits base) {field : NameId}
    (h : typeField scope base field = some t) : s.Admits t := by
  unfold typeField at h
  split at h
  · obtain ⟨d, hd, rfl⟩ := Option.map_eq_some_iff.1 h
    exact hscope.member base field d hd
  · obtain ⟨letters, -, h⟩ := Option.bind_eq_some_iff.1 h
    exact hbase.swizzle hfits h

/-- The type of a node is admitted where the types in it and those of its operands are. -/
theorem admits_typeNode (hscope : scope.Typed s) (hfits : s.size ≤ Structs.capacity) {n : Node}
    (hnode : ∀ t ∈ n.types, s.Admits t)
    (operands : ∀ i t, (type i).run = .ok (some t) → s.Admits t)
    (h : (a.typeNode scope type n).run = .ok (some t)) : s.Admits t := by
  unfold typeNode at h
  split at h
  case h_1 | h_2 | h_3 | h_4 =>
      obtain rfl := Option.some.inj (Except.ok.inj h)
      exact Structs.admits_scalar _
  case h_5 n =>
      obtain ⟨d, hd, rfl⟩ := Option.map_eq_some_iff.1 (Except.ok.inj h)
      exact hscope.name n d hd
  case h_6 array position =>
      obtain ⟨declared, hdeclared, h⟩ := Walk.run_bind_eq_some.1 h
      split at h
      · obtain rfl := Option.some.inj (Except.ok.inj h)
        exact admits_of_declarationOf hscope (Walk.run_attempt_eq_some.1 hdeclared)
      · obtain ⟨u, hu, h⟩ := Walk.run_bind_eq_some.1 h
        obtain rfl := Option.some.inj (Except.ok.inj h)
        exact (operands array u hu).indexed
  case h_7 operand => exact operands operand t h
  case h_8 operand =>
      obtain ⟨u, hu, h⟩ := Walk.run_bind_eq_some.1 h
      obtain rfl := Option.some.inj (Except.ok.inj h)
      cases u with
      | none => exact (Structs.admits_scalar .bool).withBase .bool
      | some u => exact (operands operand u (Walk.run_attempt_eq_some.1 hu)).withBase .bool
  case h_9 operand _ => exact operands operand t h
  case h_10 | h_11 =>
      obtain rfl := Option.some.inj (Except.ok.inj h)
      exact hnode _ (List.mem_singleton.2 rfl)
  case h_12 op left right =>
      split at h
      · obtain rfl := Option.some.inj (Except.ok.inj h)
        exact Structs.admits_scalar .bool
      · obtain ⟨l, hl, h⟩ := Walk.run_bind_eq_some.1 h
        obtain ⟨r, hr, h⟩ := Walk.run_bind_eq_some.1 h
        exact Structs.admits_typeBinary (operands left l hl) (operands right r hr) (Except.ok.inj h)
  case h_13 condition yes no =>
      obtain ⟨u, hu, h⟩ := Walk.run_bind_eq_some.1 h
      split at h
      · obtain rfl := Option.some.inj (Except.ok.inj h)
        exact operands yes _ (Walk.run_attempt_eq_some.1 hu)
      · exact operands no t h
  case h_14 target value => exact operands target t h
  case h_15 left right => exact operands right t h
  case h_16 base field =>
      obtain ⟨u, hu, h⟩ := Walk.run_bind_eq_some.1 h
      exact admits_typeField hscope hfits (operands base u hu) (Except.ok.inj h)
  case h_17 => exact absurd h Walk.run_failure_ne

/-- **The type of an expression is admitted**, whatever the nodes refer to.  The induction is on how
deep the walk may look. -/
theorem admits_typeOf (ha : a.Typed s) (hscope : scope.Typed s) (hfits : s.size ≤ Structs.capacity)
    {id : NodeId} (h : a.typeOf scope id = .ok (some t)) : s.Admits t := by
  have within : ∀ fuel id t, (a.typeWithin scope fuel id).run = .ok (some t) → s.Admits t := by
    intro fuel
    induction fuel with
    | zero =>
        intro id t h
        contradiction
    | succ fuel ih =>
        intro id t h
        obtain ⟨n, hn, h⟩ := Walk.run_bind_eq_some.1 h
        exact admits_typeNode hscope hfits (ha id n (node?_of_fetch hn)) ih h
  exact within _ id t h

end Arena

end ShaderLang
