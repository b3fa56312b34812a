/-
**How far a cursor may go.**

Rules read tokens by their kind, and no rule reads the end.  There is one exception: the word `void`
alone between parentheses is told by its text, so a token of the end's kind that is spelled `void`
is read if a closing parenthesis follows it.

Main definitions:

* `ShaderLang.Cursor.Readable` — the next token may be read;
* `ShaderLang.Cursor.Reads` — from one cursor to another, reading only tokens that may be read;
* `ShaderLang.NoVoidEnd` — no token of the end's kind is taken for the word `void`.

Main results:

* `ShaderLang.Cursor.Reads.rest_eq` — **without such tokens, a cursor that comes to an end has come to
  the first one**.
-/

import ShaderLang.Grammar.Cursor

set_option relaxedAutoImplicit false
set_option autoImplicit false

namespace ShaderLang

namespace Cursor

/-- The next token may be read: it is not the end, or looks like the word `void` alone between
parentheses. -/
def Readable (c : Cursor) : Prop :=
  c.current.kind ≠ .endOfFile ∨ c.current.text = "void" ∧ (c.peek 1).kind = .mark .closeParen

/-- Behind the last token nothing may be read. -/
theorem Readable.left_pos {c : Cursor} (h : c.Readable) : 0 < c.left := by
  rcases h with h | ⟨-, h⟩
  · exact left_pos_of_kind h
  · rw [c.left_eq]
    cases hc : c.rest with
    | nil =>
        rw [peek, hc] at h
        contradiction
    | cons t ts => simp

/-- The second cursor is reached from the first by reading tokens that may be read. -/
inductive Reads : Cursor → Cursor → Prop where
  | refl (c : Cursor) : Reads c c
  | step {c d : Cursor} (h : c.Readable) (more : Reads c.next d) : Reads c d

namespace Reads

variable {c d e : Cursor}

theorem trans (h : Reads c d) (h' : Reads d e) : Reads c e := by
  induction h with
  | refl => exact h'
  | step h _ ih => exact .step h (ih h')

theorem single (h : c.Readable) : Reads c c.next := .step h (.refl _)

theorem left_le (h : Reads c d) : d.left ≤ c.left := by
  induction h with
  | refl => exact Nat.le_refl _
  | step h _ ih =>
      rw [left_next] at ih
      exact Nat.le_trans ih (Nat.sub_le _ _)

/-- Where as many tokens are left, nothing was read. -/
theorem eq_of_left_eq (h : Reads c d) (hleft : d.left = c.left) : d = c := by
  cases h with
  | refl => rfl
  | step h more =>
      have hpos := h.left_pos
      have hle := more.left_le
      rw [left_next] at hle
      omega

end Reads

end Cursor

/-! ### Where the first end is -/

/-- The token is not of the end's kind. -/
def Token.isInside (t : Token) : Bool := t.kind != .endOfFile

/-- No token of the end's kind spelled `void` has a closing parenthesis behind it. -/
def NoVoidEnd (ts : List Token) : Prop :=
  ∀ t u, [t, u] <:+: ts → t.kind = .endOfFile → t.text = "void" → u.kind ≠ .mark .closeParen

theorem NoVoidEnd.tail {t : Token} {ts : List Token} (h : NoVoidEnd (t :: ts)) : NoVoidEnd ts :=
  fun u v huv => h u v (huv.trans (List.suffix_cons t ts).isInfix)

namespace Cursor

/-- Without such tokens only tokens in front of the end may be read. -/
theorem Readable.exists_cons {c : Cursor} (h : c.Readable) (hc : NoVoidEnd c.rest) :
    ∃ t ts, c.rest = t :: ts ∧ t.isInside := by
  obtain ⟨t, ts, hrest⟩ : ∃ t ts, c.rest = t :: ts := by
    have hpos := h.left_pos
    rw [c.left_eq] at hpos
    exact List.exists_cons_of_length_pos hpos
  have hcurrent : c.current = t := by rw [current, hrest]
  refine ⟨t, ts, hrest, bne_iff_ne.2 ?_⟩
  intro hkind
  rcases h with h | ⟨htext, hnext⟩
  · exact h (by rw [hcurrent, hkind])
  · cases ts with
    | nil =>
        rw [peek, hrest] at hnext
        contradiction
    | cons u us =>
        rw [peek, hrest] at hnext
        rw [hcurrent] at htext
        exact hc t u (hrest ▸ (List.prefix_append [t, u] us).isInfix) hkind htext hnext

/-- **A cursor that comes to an end has come to the first one**, if no end is taken for a word. -/
theorem Reads.rest_eq {c d : Cursor} (h : Reads c d) (hc : NoVoidEnd c.rest)
    (hd : d.current.kind = .endOfFile) : d.rest = c.rest.dropWhile Token.isInside := by
  induction h with
  | refl c =>
      cases hrest : c.rest with
      | nil => rfl
      | cons t ts =>
          rw [current, hrest] at hd
          rw [List.dropWhile_cons_of_neg]
          simp [Token.isInside, hd]
  | @step c d h _ ih =>
      obtain ⟨t, ts, hrest, ht⟩ := h.exists_cons hc
      have hnext : c.next.rest = ts := by rw [rest_next, hrest, List.tail_cons]
      rw [hrest] at hc
      rw [hrest, List.dropWhile_cons_of_pos ht, ih (hnext ▸ hc.tail) hd, hnext]

end Cursor

end ShaderLang
