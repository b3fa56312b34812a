/-
**Computations with a result.**

Main results:

* `ShaderLang.exists_ok_of_bind`, `ShaderLang.exists_ok_of_map` — what happened before a result;
* `ShaderLang.forall₂_of_mapM`, `ShaderLang.exists_mem_of_mapM` — a list of computations, item by
  item;
* `ShaderLang.exists_of_forall₂_right` — what an item of the second of two lists belongs to.
-/

import Mathlib.Data.List.Forall2
import ShaderLang.Fault

set_option relaxedAutoImplicit false
set_option autoImplicit false

namespace ShaderLang

variable {α β : Type}

/-- What happened before a result. -/
theorem exists_ok_of_bind {x : Except Fault α} {f : α → Except Fault β} {y : β}
    (h : (x >>= f) = .ok y) : ∃ v, x = .ok v ∧ f v = .ok y := by
  cases x with
  | error e => contradiction
  | ok v => exact ⟨v, rfl, h⟩

theorem exists_ok_of_map {x : Except Fault α} {f : α → β} {y : β} (h : x.map f = .ok y) :
    ∃ v, x = .ok v ∧ f v = y := by
  cases x with
  | error e => contradiction
  | ok v => exact ⟨v, rfl, Except.ok.inj h⟩

theorem eq_ok_of_toOption {x : Except Fault α} {v : α} (h : x.toOption = some v) : x = .ok v := by
  cases x with
  | error e => contradiction
  | ok w => exact congrArg Except.ok (Option.some.inj h)

/-- What is seen of a result is seen of it when there is one. -/
theorem exists_ok_of_toOption_map {ε : Type} {x : Except ε α} {f : α → β} {y : β}
    (h : x.toOption.map f = some y) : ∃ v, x = .ok v ∧ f v = y := by
  cases x with
  | error e => contradiction
  | ok v => exact ⟨v, rfl, Option.some.inj h⟩

/-- Item by item, what a list of computations gives. -/
theorem forall₂_of_mapM {f : α → Except Fault β} {l : List α} {r : List β}
    (h : l.mapM f = .ok r) : List.Forall₂ (fun x y => f x = .ok y) l r := by
  induction l generalizing r with
  | nil =>
      obtain rfl := Except.ok.inj h
      exact .nil
  | cons x l ih =>
      rw [List.mapM_cons] at h
      obtain ⟨y, hy, h⟩ := exists_ok_of_bind h
      obtain ⟨ys, hys, h⟩ := exists_ok_of_bind h
      obtain rfl := Except.ok.inj h
      exact .cons hy (ih hys)

/-- Every item of the second list belongs to one of the first. -/
theorem exists_of_forall₂_right {R : α → β → Prop} {l : List α} {r : List β}
    (h : List.Forall₂ R l r) {y : β} (hy : y ∈ r) : ∃ x ∈ l, R x y := by
  induction h with
  | nil => contradiction
  | @cons x z l r hxz _ ih =>
      rcases List.mem_cons.1 hy with rfl | hy
      · exact ⟨x, List.mem_cons_self .., hxz⟩
      · obtain ⟨x', hx', hok⟩ := ih hy
        exact ⟨x', List.mem_cons_of_mem _ hx', hok⟩

/-- Every answer of a list of computations is the answer of one of them. -/
theorem exists_mem_of_mapM {f : α → Except Fault β} {l : List α} {r : List β}
    (h : l.mapM f = .ok r) {y : β} (hy : y ∈ r) : ∃ x ∈ l, f x = .ok y :=
  exists_of_forall₂_right (forall₂_of_mapM h) hy

/-- Where every item has an answer, none is left out. -/
theorem forall₂_filterMap {R : α → β → Prop} {l : List α} {r : List (Option β)}
    (h : List.Forall₂ (fun x o => ∃ y, o = some y ∧ R x y) l r) :
    List.Forall₂ R l (r.filterMap fun o => o) := by
  induction h with
  | nil => exact .nil
  | cons hxy _ ih =>
      obtain ⟨y, rfl, hy⟩ := hxy
      exact .cons hy ih

/-- What holds of every item of the first list may be used for each pair. -/
theorem forall₂_imp_of_mem {R S : α → β → Prop} {l : List α} {r : List β}
    (h : List.Forall₂ R l r) (hS : ∀ x ∈ l, ∀ y, R x y → S x y) : List.Forall₂ S l r := by
  induction h with
  | nil => exact .nil
  | @cons x y l r hxy _ ih =>
      refine .cons (hS x (List.mem_cons_self ..) y hxy) (ih fun z hz => ?_)
      exact hS z (List.mem_cons_of_mem _ hz)

end ShaderLang
