/-
**What is built goes behind what was built before.**

Nodes, texts, occurrences of names and reports are only ever added at the end, and so are the calls of
each function.  A struct that was in the catalogue before keeps its name and members: only the struct
that was opened last in a turn is closed in it, as long as there is a number for every struct.

Main definitions:

* `ShaderLang.Builder.Continues` — what the first builder holds comes first in the second one.

Main results:

* `ShaderLang.Builder.Turns.continues` — **turns only add at the end**;
* `ShaderLang.Builder.Turns.entries_prefix` — **turns leave the structs from before as they are**.
-/

import ShaderLang.Proofs.CompilationUnit.Catalogue

set_option relaxedAutoImplicit false
set_option autoImplicit false

namespace ShaderLang.Builder

/-- What the first builder holds comes first in the second one. -/
structure Continues (b b' : Builder) : Prop where
  cells : b.arena.cells.toList <+: b'.arena.cells.toList
  texts : b.names.pool.texts.toList <+: b'.names.pool.texts.toList
  occurrences : b.names.table.occurrences.toList <+: b'.names.table.occurrences.toList
  reports : b.diagnostics.reports.toList <+: b'.diagnostics.reports.toList
  files : b'.diagnostics.files = b.diagnostics.files
  callees : ∀ f, b.calls.callees f <+: b'.calls.callees f

variable {b b' b'' : Builder}

namespace Continues

theorem of_same (harena : b'.arena = b.arena) (hnames : b'.names = b.names)
    (hdiagnostics : b'.diagnostics = b.diagnostics) (hcalls : b'.calls = b.calls) :
    b.Continues b' where
  cells := by rw [harena]
  texts := by rw [hnames]
  occurrences := by rw [hnames]
  reports := by rw [hdiagnostics]
  files := by rw [hdiagnostics]
  callees := fun f => by rw [hcalls]

theorem refl (b : Builder) : b.Continues b := .of_same rfl rfl rfl rfl

theorem trans (h : b.Continues b') (h' : b'.Continues b'') : b.Continues b'' where
  cells := h.cells.trans h'.cells
  texts := h.texts.trans h'.texts
  occurrences := h.occurrences.trans h'.occurrences
  reports := h.reports.trans h'.reports
  files := h'.files.trans h.files
  callees := fun f => (h.callees f).trans (h'.callees f)

end Continues

/-! ### Small steps -/

theorem continues_push (b : Builder) (n : Node) : b.Continues (b.push n) :=
  { Continues.refl b with cells := prefix_push _ _ }

theorem continues_report (b : Builder) (p : Problem) (place : Position) :
    b.Continues { b with diagnostics := b.diagnostics.report p place } :=
  { Continues.refl b with reports := prefix_push _ _ }

theorem continues_occur (b : Builder) (name : String) :
    b.Continues { b with names := (b.names.occur name).2 } :=
  { Continues.refl b with
    texts := b.names.texts_occur name
    occurrences := b.names.occurrences_occur name }

theorem continues_literal (b : Builder) (text : String) :
    b.Continues { b with names := (b.names.addLiteral text true).2 } :=
  { Continues.refl b with texts := b.names.pool.texts_addLiteral text true }

theorem continues_noted (b : Builder) (callee : Node) : b.Continues (b.noted callee) := by
  unfold noted
  split
  · refine { Continues.refl b with callees := fun f => ?_ }
    rw [CallGraph.callees_record]
    exact List.prefix_append _ _
  · exact .refl b

theorem Step.continues (h : Step b b') : b.Continues b' := by
  cases h with
  | position | declare => exact .of_same rfl rfl rfl rfl
  | report p place => exact continues_report b p place
  | occur name => exact continues_occur b name
  | literal text => exact continues_literal b text
  | node => exact continues_push b _
  | call => exact (continues_noted b _).trans (continues_push _ _)

theorem Steps.continues (h : Steps b b') : b.Continues b' := by
  induction h with
  | refl => exact .refl b
  | tail _ hstep ih => exact ih.trans hstep.continues

/-! ### Turns -/

theorem continues_headed (b : Builder) (result : DataType) (text : String)
    (parameters tie : Option NodeId) : b.Continues (b.headed result text parameters tie) := by
  have hnamed : b.Continues { b with current := some text, names := (b.names.occur text).2 } :=
    (continues_occur b text).trans (.of_same rfl rfl rfl rfl)
  exact hnamed.trans (continues_push _ _)

theorem continues_defined (b : Builder) (head body : NodeId) :
    b.Continues (b.defined head body) := by
  have hleft : b.Continues { b with current := none } := .of_same rfl rfl rfl rfl
  exact hleft.trans (continues_push _ _)

theorem continues_closed (b : Builder) (id : UInt32) (members : Option NodeId)
    (collected : List StructMember) : b.Continues (b.closed id members collected) := by
  have hnamed : b.Continues { b with
      structs := (b.structs.finalize ((b.structs.nameOf id).getD "") collected).2
      names := (b.names.occur ((b.structs.nameOf id).getD "")).2 } :=
    (continues_occur b _).trans (.of_same rfl rfl rfl rfl)
  exact hnamed.trans (continues_push _ _)

theorem Opening.continues (h : Opening b b') : b.Continues b' := by
  cases h with
  | nothing => exact .refl b
  | head => exact continues_headed b ..
  | struct => exact .of_same rfl rfl rfl rfl

theorem Turn.continues (h : Turn b b') : b.Continues b' := by
  cases h with
  | step inner => exact inner.continues
  | link => exact continues_push b _
  | head result text parameters tie p =>
      exact (continues_headed b result text parameters tie).trans (.of_same rfl rfl rfl rfl)
  | @function b₁ result text parameters tie inner body =>
      exact ((continues_headed b ..).trans inner.continues).trans (continues_defined b₁ ..)
  | @struct b₁ name members collected inner =>
      have hopened : b.Continues (b.opened name) := .of_same rfl rfl rfl rfl
      exact (hopened.trans inner.continues).trans (continues_closed b₁ ..)
  | @rejected b₁ b₂ p opening inner unexpected place =>
      exact ((opening.continues.trans inner.continues).trans (continues_report b₂ p place)).trans
        (.of_same rfl rfl rfl rfl)

/-- **Turns only add at the end.** -/
theorem Turns.continues (h : Turns b b') : b.Continues b' := by
  induction h with
  | refl => exact .refl b
  | tail _ hturn ih => exact ih.trans hturn.continues

/-! ### Structs -/

theorem Opening.entries_prefix (h : Opening b b') :
    b.structs.entries.toList <+: b'.structs.entries.toList := by
  cases h with
  | nothing | head => exact List.prefix_rfl
  | struct => exact prefix_push _ _

/-- A turn closes no struct from before it. -/
theorem Turn.entries_prefix (h : Turn b b') (hfits : b'.structs.size ≤ Structs.capacity) :
    b.structs.entries.toList <+: b'.structs.entries.toList := by
  cases h with
  | step inner => rw [inner.steps.structs_eq]
  | link | head => exact List.prefix_rfl
  | @function b₁ result text parameters tie inner body =>
      have hsame : b₁.structs = b.structs := inner.structs_eq
      show _ <+: b₁.structs.entries.toList
      rw [hsame]
  | struct inner =>
      rw [size_structs_closed inner] at hfits
      refine List.prefix_iff_getElem?.2 fun place hplace => ?_
      have hlt : place < b.structs.size := hplace
      rw [Array.getElem?_toList, Mirrored.entries_closed inner hfits, if_neg (Nat.ne_of_lt hlt)]
      exact Array.getElem?_eq_getElem hlt
  | @rejected b₁ b₂ p opening inner unexpected place =>
      show _ <+: b₂.structs.entries.toList
      rw [inner.structs_eq]
      exact opening.entries_prefix

/-- **Turns leave the structs from before as they are.** -/
theorem Turns.entries_prefix (h : Turns b b') (hfits : b'.structs.size ≤ Structs.capacity) :
    b.structs.entries.toList <+: b'.structs.entries.toList := by
  induction h with
  | refl => exact List.prefix_rfl
  | tail _ hturn ih =>
      exact (ih (Nat.le_trans hturn.size_structs hfits)).trans (hturn.entries_prefix hfits)

end ShaderLang.Builder
