/-
**Sizes of arrays are checked.**

The size of an array is checked once, just before the variable, member or parameter that has it is
built.  Whether it is an integer depends on what is declared at that time; its value does not, and
neither does it change when more is built.  So at the end of a program for which nothing was reported
every size that has a value can count elements.  A size without a value passes the check as well.

Main definitions:

* `ShaderLang.Builder.Surveyed` — all sizes were countable when they were checked, or something was
  reported.

Main results:

* `ShaderLang.Builder.Surveyed.step`, `ShaderLang.Builder.Surveyed.turn` — every small step and every
  turn keeps to it;
* `ShaderLang.Builder.Surveyed.countable` — **where nothing was reported, all sizes are countable**.
-/

import ShaderLang.Proofs.Builder.Continuation

set_option relaxedAutoImplicit false
set_option autoImplicit false

namespace ShaderLang

/-- The node declares an array. -/
def Node.isSized (n : Node) : Bool := n.size?.isSome

namespace Builder

/-- All sizes of arrays were countable when they were checked, or something was reported. -/
def Surveyed (b : Builder) : Prop :=
  b.diagnostics.hasReports = true ∨ ∀ id n size, b.arena.node? id = some n → n.size? = some size →
    ∃ b₁ : Builder, b₁.Grows b ∧ b₁.Countable size

variable {b b' : Builder}

theorem hasReports_iff {d : Diagnostics} : d.hasReports = true ↔ d.reports.toList ≠ [] := by
  simp [Diagnostics.hasReports]

/-- No report is taken back. -/
theorem Continues.hasReports (h : b.Continues b') (hb : b.diagnostics.hasReports = true) :
    b'.diagnostics.hasReports = true := by
  rw [hasReports_iff] at hb ⊢
  exact fun hnil => hb (List.prefix_nil.1 (hnil ▸ h.reports))

namespace Surveyed

/-- Nothing is declared where nothing is built. -/
theorem of_empty (h : b.arena = .empty) : b.Surveyed := by
  refine .inr fun id n size hn => ?_
  rw [h, Arena.node?_empty] at hn
  contradiction

/-- Where no array is declared, no size is new. -/
theorem grows (h : b.Surveyed) (hc : b.Continues b') (hg : b.Grows b')
    (hnew : AddsNo Node.isSized b b') : b'.Surveyed := by
  rcases h with hreported | hsizes
  · exact .inl (hc.hasReports hreported)
  · refine .inr fun id n size hn hsize => ?_
    have hold := hnew id n (by rw [Node.isSized, hsize]; rfl) hn
    obtain ⟨b₁, hgrows, hcountable⟩ := hsizes id n size hold hsize
    exact ⟨b₁, hgrows.trans hg, hcountable⟩

/-- A node whose size was checked. -/
theorem push (h : b.Surveyed) {n : Node} (hchecked : b.Checked n.size?) : (b.push n).Surveyed := by
  rcases h with hreported | hsizes
  · exact .inl hreported
  rcases hchecked with hreported | hcountable
  · exact .inl hreported
  refine .inr fun id m size hm hsize => ?_
  rcases node?_push_eq_some hm with ⟨-, rfl⟩ | hold
  · exact ⟨b, grows_push b m, hcountable size hsize⟩
  · obtain ⟨b₁, hgrows, hold⟩ := hsizes id m size hold hsize
    exact ⟨b₁, hgrows.trans (grows_push b n), hold⟩

theorem step (h : b.Surveyed) (hstep : Step b b') : b'.Surveyed := by
  have hc := hstep.continues
  have hg := hstep.steps.grows
  cases hstep with
  | node plain known checked => exact h.push checked
  | @call callee n arguments here =>
      have hnoted : AddsNo Node.isSized b (b.noted n) := fun _ _ _ hn => by rwa [arena_noted] at hn
      exact h.grows hc hg (hnoted.trans (addsNo_push _ rfl))
  | _ => exact h.grows hc hg (.refl b)

theorem steps (h : b.Surveyed) (hsteps : Steps b b') : b'.Surveyed := by
  induction hsteps with
  | refl => exact h
  | tail _ hstep ih => exact ih.step hstep

theorem opening (h : b.Surveyed) (ho : Opening b b') : b'.Surveyed :=
  h.grows ho.continues ho.grows (ho.addsNo fun _ _ _ _ => rfl)

/-- A turn declares arrays in its small steps only. -/
theorem turn (h : b.Surveyed) (hturn : Turn b b') : b'.Surveyed := by
  have hc := hturn.continues
  have hg := hturn.grows
  cases hturn with
  | step inner => exact h.step inner
  | link => exact h.grows hc hg (addsNo_push b rfl)
  | head => exact h.grows hc hg (addsNo_headed b rfl)
  | @function b₁ result text parameters tie inner body =>
      have hinner := (h.opening (.head result text parameters tie)).steps inner
      exact hinner.grows (continues_defined b₁ ..) (grows_defined b₁ ..) (addsNo_defined b₁ rfl)
  | @struct b₁ name members collected inner collects =>
      have hinner := (h.opening (.struct name)).steps inner
      exact hinner.grows (continues_closed b₁ ..) (grows_closed b₁ ..)
        (addsNo_closed b₁ fun _ => rfl)
  | rejected opening inner unexpected place =>
      exact .inl (by simp [rejected, Diagnostics.hasReports, Diagnostics.report])

theorem turns (h : b.Surveyed) (hturns : Turns b b') : b'.Surveyed := by
  induction hturns with
  | refl => exact h
  | tail _ hturn ih => exact ih.turn hturn

/-- **Where nothing was reported, all sizes are countable.** -/
theorem countable (h : b.Surveyed) (hquiet : b.diagnostics.hasReports = false)
    (hforest : b.arena.Forest) {id : NodeId} {n : Node} {size : NodeId}
    (hn : b.arena.node? id = some n) (hsize : n.size? = some size) : b.Countable size := by
  rcases h with hreported | hsizes
  · rw [hquiet] at hreported
    contradiction
  · obtain ⟨b₁, hgrows, value, hvalue, hcount⟩ := hsizes id n size hn hsize
    -- the nodes that give the value were all there when it was checked
    obtain ⟨m, hm⟩ := Arena.exists_node?_of_fold hvalue
    have hsame := hgrows.nodes.fold_eq hforest.below (Arena.lt_size_of_node? hm)
    exact ⟨value, hsame.trans hvalue, hcount⟩

end Surveyed

end Builder

end ShaderLang
