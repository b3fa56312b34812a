/-
**The last place of a list.**

Tables grow at the end, and where several entries share a name the newest one counts.

Main definitions:

* `ShaderLang.lastIndex` — the last place at which a property holds.

Main results:

* `ShaderLang.lastIndex_append_singleton` — a new entry hides the older ones with the property;
* `ShaderLang.lastIndex_eq_none_iff`, `ShaderLang.lastIndex_eq_some_iff` — what the last place is.
-/

set_option relaxedAutoImplicit false
set_option autoImplicit false

namespace ShaderLang

variable {α : Type}

/-- The last place at which the property holds. -/
def lastIndex (p : α → Bool) : List α → Option Nat
  | [] => none
  | x :: xs =>
      match lastIndex p xs with
      | some i => some (i + 1)
      | none => if p x then some 0 else none

@[simp] theorem lastIndex_nil (p : α → Bool) : lastIndex p [] = none := rfl

theorem lastIndex_cons (p : α → Bool) (x : α) (xs : List α) :
    lastIndex p (x :: xs) =
      match lastIndex p xs with
      | some i => some (i + 1)
      | none => if p x then some 0 else none := rfl

/-- A new entry hides the older ones with the property. -/
theorem lastIndex_append_singleton (p : α → Bool) (xs : List α) (x : α) :
    lastIndex p (xs ++ [x]) = if p x then some xs.length else lastIndex p xs := by
  induction xs with
  | nil => simp [lastIndex_cons]
  | cons y ys ih =>
      rw [List.cons_append, lastIndex_cons, ih, lastIndex_cons]
      by_cases h : p x = true <;> simp [h]

/-- A property of images is looked for among the images. -/
theorem lastIndex_map {β : Type} (f : α → β) (p : β → Bool) (xs : List α) :
    lastIndex p (xs.map f) = lastIndex (fun x => p (f x)) xs := by
  induction xs with
  | nil => rfl
  | cons x xs ih => rw [List.map_cons, lastIndex_cons, lastIndex_cons, ih]

theorem lastIndex_eq_none_iff {p : α → Bool} {xs : List α} :
    lastIndex p xs = none ↔ ∀ x ∈ xs, p x = false := by
  induction xs with
  | nil => simp
  | cons x xs ih =>
      rw [lastIndex_cons]
      cases h : lastIndex p xs with
      | none => simpa using fun _ => ih.1 h
      | some i =>
          simp only [reduceCtorEq, List.mem_cons, forall_eq_or_imp, false_iff, not_and]
          intro _ hall
          rw [ih.2 hall] at h
          exact absurd h (by simp)

/-- The last place holds an entry with the property, and no place behind it does. -/
theorem lastIndex_eq_some_iff {p : α → Bool} {xs : List α} {i : Nat} :
    lastIndex p xs = some i ↔
      ∃ x, xs[i]? = some x ∧ p x = true ∧ ∀ y ∈ xs.drop (i + 1), p y = false := by
  induction xs generalizing i with
  | nil => simp
  | cons x xs ih =>
      rw [lastIndex_cons]
      cases h : lastIndex p xs with
      | none =>
          have hall := lastIndex_eq_none_iff.1 h
          cases i with
          | zero =>
              by_cases hx : p x = true
              · simpa [hx] using hall
              · simp [hx]
          | succ i =>
              have hne : ¬ ∃ y, xs[i]? = some y ∧ p y = true ∧ ∀ z ∈ xs.drop (i + 1), p z = false := by
                rintro ⟨y, hy, hpy, _⟩
                rw [hall y (List.mem_of_getElem? hy)] at hpy
                exact absurd hpy (by simp)
              constructor
              · intro he
                by_cases hx : p x = true <;> simp [hx] at he
              · intro he
                exact absurd (by simpa using he) hne
      | some k =>
          have hk := ih.1 h
          cases i with
          | zero =>
              constructor
              · intro he
                simp at he
              · rintro ⟨_, _, _, hall⟩
                have hz := lastIndex_eq_none_iff.2 (by simpa using hall)
                rw [hz] at h
                exact absurd h (by simp)
          | succ i =>
              simp only [Option.some.injEq, Nat.add_right_cancel_iff]
              constructor
              · rintro rfl
                simpa using hk
              · intro he
                have := (ih (i := i)).2 (by simpa using he)
                rw [h] at this
                exact Option.some.inj this

end ShaderLang
