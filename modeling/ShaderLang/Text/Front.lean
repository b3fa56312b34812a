/-
**The front of a text.**

Main definitions:

* `ShaderLang.Text.stripFront` — what follows a given text at the front of another.

Main results:

* `ShaderLang.Text.stripFront_eq_some_iff` — it is found exactly when the text is there.
-/

set_option relaxedAutoImplicit false
set_option autoImplicit false

namespace ShaderLang.Text

/-- What follows `front` at the front of the text; `none` when it is not there. -/
def stripFront : List Char → List Char → Option (List Char)
  | [], cs => some cs
  | _ :: _, [] => none
  | f :: front, c :: cs => if f = c then stripFront front cs else none

@[simp] theorem stripFront_nil (cs : List Char) : stripFront [] cs = some cs := by
  cases cs <;> rfl

@[simp] theorem stripFront_cons_nil (f : Char) (front : List Char) :
    stripFront (f :: front) [] = none := rfl

@[simp] theorem stripFront_cons_cons (f c : Char) (front cs : List Char) :
    stripFront (f :: front) (c :: cs) = if f = c then stripFront front cs else none := rfl

/-- The front is found exactly when it is there. -/
theorem stripFront_eq_some_iff {front cs rest : List Char} :
    stripFront front cs = some rest ↔ cs = front ++ rest := by
  induction front generalizing cs with
  | nil => simp
  | cons f front ih =>
      cases cs with
      | nil => simp
      | cons c cs =>
          by_cases h : f = c
          · simp [h, ih]
          · simp [h, Ne.symm h]

end ShaderLang.Text
