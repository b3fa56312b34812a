/-
**Lines never go back.**

Nodes get the position of the token read last, and so do reports about what is built.  A token that is
not allowed is reported where it stands, which may be lines ahead of what was read last.  The next
thing that is built or reported comes behind it all the same: before that a token is read, or nothing
is read at all and the report that follows is again about a token ahead.

So along the course of reading a program the lines of the nodes never go back, nor do those of the
reports, and all lie between the first line and that of the end.

Main definitions:

* `ShaderLang.Rising` — numbers that do not go back, between two bounds;
* `ShaderLang.Builder.InOrder`, `ShaderLang.ParseState.InOrder` — what is built, and what is still to
  be read, is in the order of its lines.

Main results:

* `ShaderLang.Builder.InOrder.move` — moves keep to the order;
* `ShaderLang.ParseState.Course.inOrder` — **so does the course of reading**;
* `ShaderLang.compile_rising` — **the lines of nodes and of reports never go back**.
-/

import ShaderLang.Proofs.CompilationUnit.WellFormed
import ShaderLang.Proofs.Grammar.Orderly
import ShaderLang.Proofs.Token.Lines

set_option relaxedAutoImplicit false
set_option autoImplicit false

namespace ShaderLang

/-! ### Lines -/

/-- The numbers do not go back, and they lie between two bounds. -/
structure Rising (first last : Nat) (l : List Nat) : Prop where
  pairwise : l.Pairwise (· ≤ ·)
  bounds : ∀ n ∈ l, first ≤ n ∧ n ≤ last

namespace Rising

variable {first last last' : Nat} {l : List Nat}

theorem nil (first last : Nat) : Rising first last [] := ⟨.nil, nofun⟩

theorem mono (h : Rising first last l) (hlast : last ≤ last') : Rising first last' l :=
  ⟨h.pairwise, fun n hn => ⟨(h.bounds n hn).1, (h.bounds n hn).2.trans hlast⟩⟩

/-- The upper bound itself may come next. -/
theorem snoc (h : Rising first last l) (hfirst : first ≤ last) : Rising first last (l ++ [last]) where
  pairwise := by
    refine List.pairwise_append.2 ⟨h.pairwise, List.pairwise_singleton .., fun n hn m hm => ?_⟩
    obtain rfl := List.mem_singleton.1 hm
    exact (h.bounds n hn).2
  bounds := by
    intro n hn
    rcases List.mem_append.1 hn with hn | hn
    · exact h.bounds n hn
    · obtain rfl := List.mem_singleton.1 hn
      exact ⟨hfirst, Nat.le_refl _⟩

end Rising

namespace Arena

/-- The lines of all nodes, in the order of their numbers. -/
def lines (a : Arena) : List Nat := a.cells.toList.map (·.position.line)

@[simp] theorem lines_add (a : Arena) (n : Node) (p : Position) :
    (a.add n p).lines = a.lines ++ [p.line] := by
  simp [lines, add]

end Arena

namespace Diagnostics

/-- The lines of all reports, in the order in which they were made. -/
def lines (d : Diagnostics) : List Nat := d.reports.toList.map (·.position.line)

@[simp] theorem lines_report (d : Diagnostics) (p : Problem) (place : Position) :
    (d.report p place).lines = d.lines ++ [place.line] := by
  simp [lines, report]

end Diagnostics

namespace Cursor

variable {c : Cursor}

/-- The lines of all tokens ahead and of the end. -/
def lines (c : Cursor) : List Nat := c.rest.map (·.position.line) ++ [c.stop.line]

theorem line_mem_lines (c : Cursor) : c.current.position.line ∈ c.lines := by
  unfold lines current
  cases c.rest with
  | nil => exact List.mem_singleton.2 rfl
  | cons t ts => exact List.mem_cons_self ..

/-- Behind the next token the lines are fewer. -/
theorem lines_next_sublist (c : Cursor) : List.Sublist c.next.lines c.lines :=
  List.Sublist.append_right ((List.tail_sublist c.rest).map _) _

/-- The next token stands in front of all others. -/
theorem line_le (h : c.lines.Pairwise (· ≤ ·)) : ∀ l ∈ c.lines, c.current.position.line ≤ l := by
  intro l hl
  unfold lines at h hl
  unfold current
  cases hrest : c.rest with
  | nil =>
      rw [hrest] at hl
      exact Nat.le_of_eq (List.mem_singleton.1 hl).symm
  | cons t ts =>
      rw [hrest] at h hl
      rcases List.mem_cons.1 hl with rfl | hl
      · exact Nat.le_refl _
      · exact (List.pairwise_cons.1 h).1 l hl

theorem line_le_stop (h : c.lines.Pairwise (· ≤ ·)) : c.current.position.line ≤ c.stop.line :=
  line_le h _ (List.mem_append_right _ (List.mem_singleton.2 rfl))

/-- The token behind the next one stands behind it or beside it. -/
theorem line_le_next (h : c.lines.Pairwise (· ≤ ·)) :
    c.current.position.line ≤ c.next.current.position.line :=
  line_le h _ (c.lines_next_sublist.subset c.next.line_mem_lines)

end Cursor

/-! ### Moves -/

namespace Builder

/-- What is built and reported is in the order of its lines, and none lies behind the token read
last. -/
structure InOrder (b : Builder) : Prop where
  first : 1 ≤ b.position.line
  nodes : Rising 1 b.position.line b.arena.lines
  reports : Rising 1 b.position.line b.diagnostics.lines

variable {b b' : Builder}

/-- No move changes the position. -/
theorem Move.position_eq (h : Move b b') : b'.position = b.position := by
  cases h <;> rfl

theorem Moves.position_eq (h : Moves b b') : b'.position = b.position := by
  induction h with
  | refl => rfl
  | tail _ hmove ih => exact hmove.position_eq.trans ih

/-- **Moves keep to the order.** -/
theorem InOrder.move (h : b.InOrder) (hmove : Move b b') : b'.InOrder := by
  cases hmove with
  | report p =>
      refine ⟨h.first, h.nodes, ?_⟩
      rw [Diagnostics.lines_report]
      exact h.reports.snoc h.first
  | @node n _ =>
      refine ⟨h.first, ?_, h.reports⟩
      rw [push, Arena.lines_add]
      exact h.nodes.snoc h.first
  | _ => exact ⟨h.first, h.nodes, h.reports⟩

theorem InOrder.moves (h : b.InOrder) (hmoves : Moves b b') : b'.InOrder := by
  induction hmoves with
  | refl => exact h
  | tail _ hmove ih => exact ih.move hmove

end Builder

/-! ### Courses -/

namespace ParseState

/-- What is built, what is reported and what is still to be read is in the order of its lines.  A
course that has not settled has reported a token ahead. -/
structure InOrder (settled : Bool) (s : ParseState) : Prop where
  ahead : s.cursor.lines.Pairwise (· ≤ ·)
  first : 1 ≤ s.builder.position.line
  next : s.builder.position.line ≤ s.cursor.current.position.line
  nodes : Rising 1 s.builder.position.line s.builder.arena.lines
  reports : Rising 1 (if settled then s.builder.position.line else s.cursor.current.position.line)
    s.builder.diagnostics.lines

namespace InOrder

variable {s : ParseState} {settled : Bool}

/-- All that is reported lies in front of the next token. -/
theorem reports_ahead (h : s.InOrder settled) :
    Rising 1 s.cursor.current.position.line s.builder.diagnostics.lines := by
  cases settled with
  | false => exact h.reports
  | true => exact h.reports.mono h.next

theorem builder (h : s.InOrder true) : s.builder.InOrder := ⟨h.first, h.nodes, h.reports⟩

theorem advanced (h : s.InOrder settled) : s.advanced.InOrder true where
  ahead := h.ahead.sublist s.cursor.lines_next_sublist
  first := h.first.trans h.next
  next := Cursor.line_le_next h.ahead
  nodes := h.nodes.mono h.next
  reports := h.reports_ahead

theorem moves (h : s.InOrder true) {b : Builder} (hmoves : Builder.Moves s.builder b) :
    InOrder true { s with builder := b } := by
  have hb := h.builder.moves hmoves
  refine ⟨h.ahead, hb.first, ?_, hb.nodes, hb.reports⟩
  rw [hmoves.position_eq]
  exact h.next

theorem rejecting (h : s.InOrder settled) (p : Problem) : (s.rejecting p).InOrder false where
  ahead := h.ahead
  first := h.first
  next := h.next
  nodes := h.nodes
  reports := by
    have hsnoc := h.reports_ahead.snoc (h.first.trans h.next)
    rwa [← Diagnostics.lines_report _ p] at hsnoc

end InOrder

variable {s t : ParseState} {settled : Bool}

/-- **The course of reading keeps to the order.** -/
theorem Course.inOrder (h : s.Course settled t) (hs : s.InOrder true) : t.InOrder settled := by
  induction h with
  | start => exact hs
  | read _ ih => exact ih.advanced
  | moves _ hmoves ih => exact ih.moves hmoves
  | reject _ p ih => exact ih.rejecting p
  | leave _ ih => exact ⟨ih.ahead, ih.first, ih.next, ih.nodes, ih.reports⟩

/-- The end stays where it is. -/
theorem Course.stop_eq (h : s.Course settled t) : t.cursor.stop = s.cursor.stop := by
  induction h with
  | start => rfl
  | read _ ih | moves _ _ ih | reject _ _ ih | leave _ ih => exact ih

theorem inOrder_start {tokens : TokenStream} (h : (1 :: tokens.lines).Pairwise (· ≤ ·))
    (o : Options) : (start tokens o).InOrder true where
  ahead := (List.pairwise_cons.1 h).2
  first := Nat.le_refl 1
  next := (List.pairwise_cons.1 h).1 _ (Cursor.ofStream tokens).line_mem_lines
  nodes := .nil 1 1
  reports := .nil 1 1

end ParseState

/-! ### Compilation units -/

open Grammar

/-- Reading tokens that stand in the order of their lines keeps to the order. -/
theorem CompilationUnit.ofTokens_rising {tokens : TokenStream} (o : Options)
    (h : (1 :: tokens.lines).Pairwise (· ≤ ·)) :
    ∃ u, ofTokens tokens o = .ok u ∧ Rising 1 tokens.stop.line u.arena.lines ∧
      Rising 1 tokens.stop.line u.diagnostics.lines := by
  obtain ⟨root, t, hp, -⟩ := program_ends (s := .start tokens o) rfl
  obtain ⟨settled, hcourse⟩ := course_program hp
  have ht := hcourse.inOrder (ParseState.inOrder_start h o)
  have hstop : t.cursor.current.position.line ≤ tokens.stop.line := by
    have hle := Cursor.line_le_stop ht.ahead
    rwa [hcourse.stop_eq] at hle
  refine ⟨t.builder.finish root, ?_, ht.nodes.mono (ht.next.trans hstop), ht.reports_ahead.mono hstop⟩
  unfold ofTokens
  rw [hp]

/-- **The lines of nodes and of reports never go back**, and they lie between the first line and that
of the end. -/
theorem compile_rising {source : String} {o : Options} {u : CompilationUnit}
    (h : compile source o = .ok u) :
    ∃ tokens, TokenStream.ofSource source 0 = .ok tokens ∧
      Rising 1 tokens.stop.line u.arena.lines ∧ Rising 1 tokens.stop.line u.diagnostics.lines := by
  unfold compile at h
  split at h
  · contradiction
  · next tokens htokens =>
      obtain ⟨v, hv, hnodes, hreports⟩ :=
        CompilationUnit.ofTokens_rising o (TokenStream.pairwise_lines htokens)
      rw [hv] at h
      obtain rfl := Except.ok.inj h
      exact ⟨tokens, htokens, hnodes, hreports⟩

/-- A statement that ends with its block, where nothing is passed over behind the report, and an array
whose size is checked a line further on. -/
def unfinished : String := "void f()\n\x7b 1\n\x7d\nint a[1.5\n];"

/-- The brace is reported ahead of the number read last, the size behind what was read since. -/
theorem compile_rising_unfinished :
    ∃ u tokens, compile unfinished .standard = .ok u ∧
      TokenStream.ofSource unfinished 0 = .ok tokens ∧
      Rising 1 tokens.stop.line u.arena.lines ∧ Rising 1 tokens.stop.line u.diagnostics.lines ∧
      u.diagnostics.lines = [3, 5] := by
  have hlines : (match compile unfinished .standard with
      | .ok u => u.diagnostics.lines
      | .error _ => []) = [3, 5] := by
    decide +kernel
  split at hlines
  · next u hu =>
      obtain ⟨tokens, htokens, hnodes, hreports⟩ := compile_rising hu
      exact ⟨u, tokens, hu, htokens, hnodes, hreports, hlines⟩
  · contradiction

end ShaderLang
