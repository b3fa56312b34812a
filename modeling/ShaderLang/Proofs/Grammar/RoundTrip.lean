/-
**Writing and reading back.**

Reading the tokens that an expression is written as gives the expression back, however it is written:
with the parentheses that it needs, and with any others.  Reading stops right behind the expression,
and nothing is reported but numbers that cannot be read and indexes that are no integers.

Behind an operand come extensions, and a loop reads those that bind tighter than the level at which
the expression was begun.  So the statement that goes through by induction is not about an expression
alone.  It says that reading a longer expression that begins with this one comes to the loop with this
one as the expression so far (`ShaderLang.Grammar.Parsed`).

Main definitions:

* `ShaderLang.Token.Doubts`, `ShaderLang.Doubts` — the problems that there can be with values;
* `ShaderLang.reach` — how tightly what comes behind an expression may bind;
* `ShaderLang.Grammar.Parsed` — the tokens are read as the tree.

Main results:

* `ShaderLang.Grammar.Parsed.extended` — one more extension;
* `ShaderLang.Printed.parsed` — what an expression is written as is read as the expression;
* `ShaderLang.Grammar.expression_printed` — **reading what an expression is written as gives the
  expression back**.
-/

import ShaderLang.Proofs.Grammar.Operands

set_option relaxedAutoImplicit false
set_option autoImplicit false

namespace ShaderLang

/-! ### Problems with values -/

/-- The problem is one with the value of the token, or with that of the index behind it. -/
inductive Token.Doubts (t : Token) : Problem → Prop where
  | int (ht : t.kind = .int) (h : IntegerLiteral.ofText t.text = none) :
      t.Doubts (.malformedNumber t.text)
  | float (ht : t.kind = .float) (h : floatLiteral t.text = none) :
      t.Doubts (.malformedNumber t.text)
  | index (ht : t.kind = .mark .openBracket) : t.Doubts .nonIntegerIndex

/-- The problem is one with the value of one of the tokens. -/
def Doubts (ts : List Token) (p : Problem) : Prop := ∃ t ∈ ts, t.Doubts p

theorem Doubts.not_unexpected {ts : List Token} {p : Problem} (h : Doubts ts p) :
    p.isUnexpected = false := by
  obtain ⟨t, -, hp⟩ := h
  cases hp <;> rfl

/-! ### Levels -/

/-- How tightly what comes next may bind, behind an expression where a level is asked for.  Behind
assignments and choices it must be looser, as they are read from the right. -/
def reach (n : Nat) : Nat :=
  if n ≤ Power.assignment.level then Power.comma.level
  else if n = Power.ternary.level then Power.assignment.level
  else n

theorem reach_mono {m n : Nat} (h : m ≤ n) : reach m ≤ reach n := by
  have ha : Power.assignment.level = 2 := rfl
  have ht : Power.ternary.level = 3 := rfl
  have hc : Power.comma.level = 1 := rfl
  unfold reach
  repeat' split
  all_goals omega

/-- Levels that are read from the left may come next. -/
theorem reach_of_lt {n : Nat} (h : Power.ternary.level < n) : reach n = n := by
  have ha : Power.assignment.level = 2 := rfl
  have ht : Power.ternary.level = 3 := rfl
  rw [reach, if_neg (by omega), if_neg (by omega)]

theorem BinaryOp.ternary_lt_power (op : BinaryOp) : Power.ternary.level < op.power.level := by
  cases op <;> decide

/-- An expression begun at the power takes in all that binds at the level. -/
def Admits (j : Power) (n : Nat) : Prop :=
  ∀ x : Extension, n ≤ x.power.level → j.level < x.power.level

namespace Admits

variable {j : Power} {m n : Nat}

theorem mono (h : Admits j m) (hmn : m ≤ n) : Admits j n :=
  fun x hx => h x (Nat.le_trans hmn hx)

theorem of_lt (h : j.level < n) : Admits j n := fun _ hx => Nat.lt_of_lt_of_le h hx

/-- Every extension binds tighter than the loosest level. -/
theorem default : Admits .default Power.default.level := by
  intro x _
  cases x with
  | binary op => cases op <;> decide
  | assign op => exact (by decide : Power.default.level < Power.assignment.level)
  | step d => exact (by decide : Power.default.level < Power.postfixed.level)
  | ternary => decide
  | comma => decide
  | element => decide
  | call => decide
  | field => decide

/-- No extension binds exactly as tightly as an operator in front of its operand. -/
theorem unary : Admits .unary Power.unary.level := by
  intro x hx
  cases x with
  | binary op => cases op <;> exact absurd hx (by decide)
  | step d => exact (by decide : Power.unary.level < Power.postfixed.level)
  | assign op => exact absurd hx (by decide : ¬ Power.unary.level ≤ Power.assignment.level)
  | ternary => exact absurd hx (by decide)
  | comma => exact absurd hx (by decide)
  | element => decide
  | call => decide
  | field => decide

end Admits

namespace Grammar

open ShaderLang.Parser ShaderLang.Builder

variable {allowed : Problem → Prop} {structs : Structs}

/-! ### One extension after another -/

section Turns

variable {expr : Power → Parser NodeId} {j : Power} {left : NodeId} {s : ParseState}
  {rest : List Token} {known : Builder → NodeId → Prop}

/-- A turn where an extension that binds tighter comes next. -/
theorem lands_extension {x : Extension} {o : Token} {ts : List Token}
    (hs : s.cursor.rest = o :: ts) (hx : Extension.ofKind o.kind = some x)
    (hlt : j.level < x.power.level) (h : (extend expr left x).Lands allowed s rest known) :
    (extension expr j left).Lands allowed s rest fun b r => ∃ id, r = .again id ∧ known b id := by
  refine .on_kind hs rfl ?_
  rw [Extension.above_of_lt hx hlt]
  exact h.bind fun id t ht _ hid => ht ▸ lands_pure ⟨id, rfl, hid⟩

/-- A turn where none comes next. -/
theorem lands_extension_done (hstop : StopsAt j.level s.cursor.rest) (h : known s.builder left) :
    (extension expr j left).Lands allowed s s.cursor.rest fun b r =>
      ∃ id, r = .done id ∧ known b id := by
  refine .look (currentKind_apply s) ?_
  rw [hstop.above_eq_none]
  exact lands_pure ⟨left, rfl, h⟩

end Turns

/-- Where the level is asked for, the tokens are read as the tree: an expression that begins with
them comes to the loop with the tree as the expression so far. -/
def Parsed (allowed : Problem → Prop) (structs : Structs) (m : Nat) (e : Expr)
    (ts : List Token) : Prop :=
  ∀ (n : Nat) (j : Power) (s : ParseState) (rest last : List Token)
    (known : Builder → NodeId → Prop),
    s.builder.structs = structs → Admits j m → (ts ++ rest).length ≤ n →
    s.cursor.rest = ts ++ rest → StopsAt (reach m) rest →
    (∀ id t, t.cursor.rest = rest → s.builder.Extends allowed t.builder → Built e t.builder id →
      (repeated (extension (below n expression) j) id).Lands allowed t last known) →
    (expressionRule (below n expression) j).Lands allowed s last known

namespace Parsed

variable {k m : Nat} {e f : Expr} {ts : List Token}

/-- Where nothing comes behind the tokens that binds tighter than the power, the loop ends with the
tree. -/
theorem gives (h : Parsed allowed structs m e ts) {j : Power} {n : Nat} (hj : Admits j m)
    (hle : j.level ≤ reach m) : Gives allowed structs (below n expression) n j e ts := by
  intro s rest hstructs hlen hs hstop
  -- the rule refers to itself from where it begins, so the bound is now what is left there
  have hleft : s.left = (ts ++ rest).length := Cursor.left_eq_length hs
  have hrule : (expressionRule (below s.left expression) j).Lands allowed s rest (Built e) := by
    refine h _ _ _ _ _ _ hstructs hj (Nat.le_of_eq hleft.symm) hs (hstop.mono hle) ?_
    intro id t ht _ hid
    subst ht
    exact .done (lands_extension_done hstop hid)
  obtain ⟨id, t, hrun, hland⟩ := hrule
  refine ⟨id, t, ?_, hland⟩
  rw [below_apply (hleft ▸ hlen), expression, fix_eq_below]
  exact hrun

/-- An operand is an expression. -/
theorem of_operand
    (h : ∀ (n : Nat) (s : ParseState) (rest : List Token), s.builder.structs = structs →
      (ts ++ rest).length ≤ n → s.cursor.rest = ts ++ rest → StopsAt (reach m) rest →
      (operand (below n expression)).Lands allowed s rest (Built e)) :
    Parsed allowed structs m e ts :=
  fun n _ s rest _ _ hstructs _ hlen hs hstop hgo =>
    (h n s rest hstructs hlen hs hstop).bind hgo

/-- One more extension behind an expression.  The loop reads it as it binds tighter than the level at
which the expression was begun. -/
theorem extended (hleft : Parsed allowed structs k e ts) {x : Extension} {o : Token}
    {us : List Token} (hx : Extension.ofKind o.kind = some x) (hm : m ≤ x.power.level)
    (hmk : m ≤ k) (hreach : x.power.level ≤ reach k)
    (h : ∀ (n : Nat) (s : ParseState) (rest : List Token) (left : NodeId),
      Built e s.builder left → s.builder.structs = structs → (o :: (us ++ rest)).length ≤ n →
      s.cursor.rest = o :: (us ++ rest) → StopsAt (reach m) rest →
      (extend (below n expression) left x).Lands allowed s rest (Built f)) :
    Parsed allowed structs m f (ts ++ o :: us) := by
  intro n j s rest last known hstructs hj hlen hs hstop hgo
  rw [List.append_assoc, List.cons_append] at hlen hs
  -- what is on the left ends at the operator, as that binds no tighter than its place allows
  refine hleft n j s _ _ _ hstructs (hj.mono hmk) hlen hs (.of_some rfl hx hreach) ?_
  intro id t ht hb hid
  have hshort : (o :: (us ++ rest)).length ≤ n := by
    rw [List.length_append] at hlen
    omega
  -- the loop goes on with the operator, as that binds tighter than the power
  have hextend := h n t rest id hid (hb.structs.trans hstructs) hshort ht hstop
  refine (lands_extension ht hx (hj x hm) hextend).again ?_ fun id u hu hb' hid => ?_
  · rw [ht, List.length_cons, List.length_append]
    omega
  · exact hgo id u hu (hb.trans hb') hid

/-! ### One construct after another -/

variable {g : Expr} {us vs : List Token} {o c k : Token} {parts : List (Expr × List Token)}

theorem parens (ho : o.kind = .mark .openParen) (hc : c.kind = .mark .closeParen)
    (hts : Begins structs ts) (h : Parsed allowed structs Power.default.level e ts) :
    Parsed allowed structs m e (o :: (ts ++ [c])) := by
  refine of_operand fun n s rest hstructs hlen hs _ => ?_
  simp only [List.cons_append, List.append_assoc, List.nil_append] at hlen hs
  exact lands_parens ho hc hts (h.gives .default (Nat.zero_le _)) hstructs hlen hs

theorem leading {mark : Mark} {op : Leading} (hm : m ≤ Power.unary.level)
    (hop : Leading.ofMark mark = some op) (ho : o.kind = .mark mark)
    (h : Parsed allowed structs Power.unary.level e ts) :
    Parsed allowed structs m (op.apply e) (o :: ts) := by
  refine of_operand fun n s rest hstructs hlen hs hstop => ?_
  have hgives := h.gives (n := n) .unary (Nat.le_refl _)
  exact lands_leading hop ho hgives (hstop.mono (reach_mono hm)) hstructs hlen hs

theorem cast {type : DataType} (hm : m ≤ Power.unary.level) (ho : o.kind = .mark .openParen)
    (hk : k.kind = .typeName) (htype : DataType.ofKeyword k.text = some type)
    (hc : c.kind = .mark .closeParen) (h : Parsed allowed structs Power.unary.level e ts) :
    Parsed allowed structs m (.cast type e) (o :: k :: c :: ts) := by
  refine of_operand fun n s rest hstructs hlen hs hstop => ?_
  have hgives := h.gives (n := n) .unary (Nat.le_refl _)
  exact lands_cast ho hk htype hc hgives (hstop.mono (reach_mono hm)) hstructs hlen hs

/-- Arguments end at a comma. -/
theorem give_arguments {n : Nat}
    (h : ∀ q ∈ parts, Begins structs q.2 ∧
      Parsed allowed structs (Power.comma.level + 1) q.1 q.2) :
    ∀ q ∈ parts, Begins structs q.2 ∧
      Gives allowed structs (below n expression) n .comma q.1 q.2 :=
  fun q hq => ⟨(h q hq).1, (h q hq).2.gives (.of_lt (Nat.lt_succ_self _)) (Nat.le_refl _)⟩

theorem construct {type : DataType} (hk : k.kind = .typeName)
    (htype : DataType.ofKeyword k.text = some type) (ho : o.kind = .mark .openParen)
    (hc : c.kind = .mark .closeParen)
    (h : ∀ q ∈ parts, Begins structs q.2 ∧
      Parsed allowed structs (Power.comma.level + 1) q.1 q.2)
    (hts : Separated (parts.map Prod.snd) ts) :
    Parsed allowed structs m (.construct type (parts.map Prod.fst)) (k :: o :: (ts ++ [c])) := by
  refine of_operand fun n s rest hstructs hlen hs _ => ?_
  simp only [List.cons_append, List.append_assoc, List.nil_append] at hlen hs
  exact lands_construction hk htype ho hc (give_arguments h) hts hstructs hlen hs

theorem intrinsic {i : Intrinsic} (hk : k.kind = .intrinsic) (hi : k.text = i.name)
    (ho : o.kind = .mark .openParen) (hc : c.kind = .mark .closeParen)
    (h : ∀ q ∈ parts, Begins structs q.2 ∧
      Parsed allowed structs (Power.comma.level + 1) q.1 q.2)
    (hts : Separated (parts.map Prod.snd) ts) :
    Parsed allowed structs m (.intrinsic i (parts.map Prod.fst)) (k :: o :: (ts ++ [c])) := by
  refine of_operand fun n s rest hstructs hlen hs _ => ?_
  simp only [List.cons_append, List.append_assoc, List.nil_append] at hlen hs
  exact lands_intrinsic hk hi ho hc (give_arguments h) hts hstructs hlen hs

/-- An operator between its operands; what is on its right binds tighter. -/
theorem binary {op : BinaryOp} (hm : m ≤ op.power.level) (ho : o.kind = .mark op.mark)
    (hleft : Parsed allowed structs op.power.level e ts)
    (hright : Parsed allowed structs (op.power.level + 1) f us) :
    Parsed allowed structs m (.binary op e f) (ts ++ o :: us) := by
  have hlt := op.ternary_lt_power
  have hx : Extension.ofKind o.kind = some (.binary op) := by rw [ho]; exact op.ofMark_mark
  -- these levels are read from the left: the same level may come next
  have hself := reach_of_lt hlt
  have hnext := reach_of_lt (Nat.lt_succ_of_lt hlt)
  refine hleft.extended hx hm hm (Nat.le_of_eq hself.symm)
    fun n s rest left hl hstructs hlen hs hstop => ?_
  have hgives := hright.gives (n := n) (.of_lt (Nat.lt_succ_self _)) (hnext ▸ Nat.le_succ _)
  exact lands_binary hl hgives (hstop.mono (hself ▸ reach_mono hm)) hstructs hlen hs

/-- An assignment; what is assigned may be an assignment. -/
theorem assign {op : AssignOp} {mark : Mark} (hm : m ≤ Power.assignment.level)
    (hop : op.mark = some mark) (ho : o.kind = .mark mark)
    (hleft : Parsed allowed structs (Power.assignment.level + 1) e ts)
    (hright : Parsed allowed structs Power.assignment.level f us) :
    Parsed allowed structs m (.assign op e f) (ts ++ o :: us) := by
  have hx : Extension.ofKind o.kind = some (.assign op) := by
    rw [ho]
    exact AssignOp.ofMark_mark hop
  refine hleft.extended hx hm (Nat.le_succ_of_le hm) (Nat.le_refl _)
    fun n s rest left hl hstructs hlen hs hstop => ?_
  have hgives := hright.gives (j := .comma) (n := n) (.of_lt (by decide)) (Nat.le_refl _)
  exact lands_assign hl hgives (hstop.mono (reach_mono hm)) hstructs hlen hs

theorem comma (hm : m ≤ Power.comma.level) (ho : o.kind = .mark .comma)
    (hleft : Parsed allowed structs Power.comma.level e ts)
    (hright : Parsed allowed structs (Power.comma.level + 1) f us) :
    Parsed allowed structs m (.comma e f) (ts ++ o :: us) := by
  have hx : Extension.ofKind o.kind = some .comma := by rw [ho]; rfl
  refine hleft.extended hx hm hm (Nat.le_refl _) fun n s rest left hl hstructs hlen hs hstop => ?_
  have hgives := hright.gives (n := n) (.of_lt (Nat.lt_succ_self _)) (Nat.le_refl _)
  exact lands_comma hl hgives (hstop.mono (reach_mono hm)) hstructs hlen hs

/-- A choice; behind the colon there may be another one. -/
theorem ternary (hm : m ≤ Power.ternary.level) (ho : o.kind = .mark .question)
    (hc : c.kind = .mark .colon)
    (hcondition : Parsed allowed structs (Power.ternary.level + 1) e ts)
    (hyes : Parsed allowed structs Power.default.level f us)
    (hno : Parsed allowed structs Power.ternary.level g vs) :
    Parsed allowed structs m (.ternary e f g) (ts ++ o :: (us ++ c :: vs)) := by
  have hx : Extension.ofKind o.kind = some .ternary := by rw [ho]; rfl
  refine hcondition.extended hx hm (Nat.le_succ_of_le hm) (by decide)
    fun n s rest left hl hstructs hlen hs hstop => ?_
  simp only [List.append_assoc, List.cons_append] at hlen hs
  have hgives := hyes.gives (n := n) .default (Nat.zero_le _)
  have hgives' := hno.gives (j := .assignment) (n := n) (.of_lt (by decide)) (Nat.le_refl _)
  exact lands_ternary hc hl hgives hgives' (hstop.mono (reach_mono hm)) hstructs hlen hs

theorem after {d : Direction} (hm : m ≤ Power.postfixed.level) (ho : o.kind = .mark d.mark)
    (hleft : Parsed allowed structs Power.postfixed.level e ts) :
    Parsed allowed structs m (.step .after d e) (ts ++ [o]) := by
  have hx : Extension.ofKind o.kind = some (.step d) := by rw [ho]; exact d.ofMark_mark
  exact hleft.extended hx hm hm (Nat.le_refl _) fun _ _ _ _ hl _ _ hs _ => lands_after hl hs

theorem index (hindex : allowed .nonIntegerIndex) (hm : m ≤ Power.postfixed.level)
    (ho : o.kind = .mark .openBracket) (hc : c.kind = .mark .closeBracket)
    (harray : Parsed allowed structs Power.postfixed.level e ts)
    (hposition : Parsed allowed structs Power.default.level f us) :
    Parsed allowed structs m (.index e f) (ts ++ o :: (us ++ [c])) := by
  have hx : Extension.ofKind o.kind = some .element := by rw [ho]; rfl
  refine harray.extended hx hm hm (Nat.le_refl _) fun n s rest left hl hstructs hlen hs _ => ?_
  simp only [List.append_assoc, List.cons_append, List.nil_append] at hlen hs
  have hgives := hposition.gives (n := n) .default (Nat.zero_le _)
  exact lands_element hindex hc hl hgives hstructs hlen hs

theorem field (hm : m ≤ Power.postfixed.level) (ho : o.kind = .mark .dot)
    (hk : k.kind = .name ∨ k.kind = .intrinsic)
    (hbase : Parsed allowed structs Power.postfixed.level e ts) :
    Parsed allowed structs m (.field e k.text) (ts ++ [o, k]) := by
  have hx : Extension.ofKind o.kind = some .field := by rw [ho]; rfl
  exact hbase.extended hx hm hm (Nat.le_refl _) fun _ _ _ _ hl _ _ hs _ =>
    lands_field hk hl hs

theorem call (hm : m ≤ Power.postfixed.level) (ho : o.kind = .mark .openParen)
    (hc : c.kind = .mark .closeParen)
    (hcallee : Parsed allowed structs Power.postfixed.level e ts)
    (h : ∀ q ∈ parts, Begins structs q.2 ∧
      Parsed allowed structs (Power.comma.level + 1) q.1 q.2)
    (hus : Separated (parts.map Prod.snd) us) :
    Parsed allowed structs m (.call e (parts.map Prod.fst)) (ts ++ o :: (us ++ [c])) := by
  have hx : Extension.ofKind o.kind = some .call := by rw [ho]; rfl
  refine hcallee.extended hx hm hm (Nat.le_refl _) fun n s rest left hl hstructs hlen hs _ => ?_
  simp only [List.append_assoc, List.cons_append, List.nil_append] at hlen hs
  exact lands_call ho hc hl (give_arguments h) hus hstructs hlen hs

end Parsed

end Grammar

open Grammar Builder

/-- **What an expression is written as is read as the expression.**  The induction is on how it is
written. -/
theorem Printed.parsed {all : List Token} {structs : Structs} {m : Nat} {e : Expr} {ts : List Token}
    (h : Printed structs m e ts) (hall : ts ⊆ all) : Parsed (Doubts all) structs m e ts := by
  induction h with
  | @int n t ht =>
      have hp := fun hp => (⟨t, hall List.mem_cons_self, .int ht hp⟩ : Doubts all _)
      exact .of_operand fun n s rest _ _ hs _ => lands_int ht hp hs
  | @float n t ht =>
      have hp := fun hp => (⟨t, hall List.mem_cons_self, .float ht hp⟩ : Doubts all _)
      exact .of_operand fun n s rest _ _ hs _ => lands_float ht hp hs
  | string ht => exact .of_operand fun n s rest _ _ hs _ => lands_string ht hs
  | true ht => exact .of_operand fun n s rest _ _ hs _ => lands_true ht hs
  | false ht => exact .of_operand fun n s rest _ _ hs _ => lands_false ht hs
  | name ht _ => exact .of_operand fun n s rest _ _ hs _ => lands_name ht hs
  | parens ho hc inner ih =>
      obtain ⟨-, hts, -⟩ := by simpa using hall
      exact .parens ho hc inner.begins (ih hts)
  | unary hn ho _ ih =>
      exact .leading hn (UnaryOp.ofMark_mark _) ho (ih (List.cons_subset.1 hall).2)
  | before hn ho _ ih =>
      exact .leading hn (Direction.leading_mark _) ho (ih (List.cons_subset.1 hall).2)
  | cast hn ho hk htype hc _ ih =>
      obtain ⟨-, -, -, hts⟩ := by simpa using hall
      exact .cast hn ho hk htype hc (ih hts)
  | construct hk htype ho hc arguments hts ih =>
      obtain ⟨-, -, hsub, -⟩ := by simpa using hall
      refine .construct hk htype ho hc (fun q hq => ⟨(arguments q hq).begins, ih q hq ?_⟩) hts
      exact List.Subset.trans (hts.subset (List.mem_map_of_mem hq)) hsub
  | intrinsic hk hi ho hc arguments hts ih =>
      obtain ⟨-, -, hsub, -⟩ := by simpa using hall
      refine .intrinsic hk hi ho hc (fun q hq => ⟨(arguments q hq).begins, ih q hq ?_⟩) hts
      exact List.Subset.trans (hts.subset (List.mem_map_of_mem hq)) hsub
  | binary hn ho _ _ ihl ihr =>
      obtain ⟨hts, -, hus⟩ := by simpa using hall
      exact .binary hn ho (ihl hts) (ihr hus)
  | ternary hn hq hc _ _ _ ihc ihy ihn =>
      obtain ⟨hts, -, hus, -, hvs⟩ := by simpa using hall
      exact .ternary hn hq hc (ihc hts) (ihy hus) (ihn hvs)
  | assign hn hm ho _ _ iht ihv =>
      obtain ⟨hts, -, hus⟩ := by simpa using hall
      exact .assign hn hm ho (iht hts) (ihv hus)
  | comma hn ho _ _ ihl ihr =>
      obtain ⟨hts, -, hus⟩ := by simpa using hall
      exact .comma hn ho (ihl hts) (ihr hus)
  | after hn ho _ ih =>
      exact .after hn ho (ih (List.append_subset.1 hall).1)
  | @index n e f o c ts us hn ho hc _ _ iha ihp =>
      obtain ⟨hts, hmem, hus, -⟩ := by simpa using hall
      exact .index ⟨o, hmem, .index ho⟩ hn ho hc (iha hts) (ihp hus)
  | field hn hd hk _ ih =>
      exact .field hn hd hk (ih (List.append_subset.1 hall).1)
  | call hn ho hc _ arguments hus ihf ih =>
      obtain ⟨hts, -, hsub, -⟩ := by simpa using hall
      refine .call hn ho hc (ihf hts) (fun q hq => ⟨(arguments q hq).begins, ih q hq ?_⟩) hus
      exact List.Subset.trans (hus.subset (List.mem_map_of_mem hq)) hsub

namespace Grammar

/-- **Reading what an expression is written as gives the expression back.**  It ends right in front
of the semicolon, and only numbers that cannot be read and indexes are reported. -/
theorem expression_printed {s : ParseState} {e : Expr} {ts rest : List Token} {semicolon : Token}
    (h : Printed s.builder.structs Power.default.level e ts)
    (hsemicolon : semicolon.kind = .mark .semicolon)
    (hs : s.cursor.rest = ts ++ semicolon :: rest) :
    ∃ id t, expression .default s = .ok id t ∧ t.cursor.rest = semicolon :: rest ∧
      t.builder.Stands id e ∧ t.errors = s.errors ∧
      ∃ new : Array Diagnostic,
        t.builder.diagnostics.reports = s.builder.diagnostics.reports ++ new ∧
          ∀ d ∈ new, Doubts ts d.problem := by
  have hgives := (h.parsed (List.Subset.refl ts)).gives (n := s.left + 1) .default (Nat.zero_le _)
  have hlen : (ts ++ semicolon :: rest).length < s.left + 1 :=
    Nat.lt_succ_of_le (Nat.le_of_eq (Cursor.left_eq_length hs).symm)
  obtain ⟨id, t, hrun, hrest, hgrows, hid⟩ :=
    hgives s _ rfl hlen hs (.of_none hsemicolon rfl)
  -- with one token to spare the bound does not matter
  rw [Parser.below_apply (Nat.lt_succ_self s.left)] at hrun
  refine ⟨id, t, hrun, hrest, hid.stands, ?_, hgrows.reports⟩
  exact hgrows.errors_eq fun _ => Doubts.not_unexpected

/-- Reading `a = (b + 1) * -c.x;`. -/
theorem expression_printed_product :
    let word (text : String) : Token := .written .name text
    let inner := [word "b"] ++ Mark.plus.written :: [.written .int "1"]
    let factor := Mark.dash.written :: ([word "c"] ++ [Mark.dot.written, word "x"])
    let product :=
      (Mark.openParen.written :: (inner ++ [Mark.closeParen.written])) ++ Mark.star.written :: factor
    let ts := [word "a"] ++ Mark.assignment.written :: product
    let e : Expr :=
      .assign .assign (.name "a")
        (.binary .multiply (.binary .add (.name "b") (.int "1"))
          (.unary .negate (.field (.name "c") "x")))
    let s : ParseState :=
      ⟨.ofStream ⟨ts ++ [Mark.semicolon.written], .start⟩, .start .empty, 0⟩
    Printed s.builder.structs Power.default.level e ts ∧
      ∃ id t, expression .default s = .ok id t ∧ t.cursor.rest = [Mark.semicolon.written] ∧
        t.builder.Stands id e ∧ t.errors = s.errors ∧
        ∃ new : Array Diagnostic,
          t.builder.diagnostics.reports = s.builder.diagnostics.reports ++ new ∧
            ∀ d ∈ new, Doubts ts d.problem := by
  intro word inner factor product ts e s
  have hword (n : Nat) (text : String) :
      Printed s.builder.structs n (.name text) [word text] :=
    .name (t := word text) rfl rfl
  have hone (n : Nat) : Printed s.builder.structs n (.int "1") [.written .int "1"] :=
    .int (t := .written .int "1") rfl
  have hinner : Printed s.builder.structs 0 (.binary .add (.name "b") (.int "1")) inner :=
    .binary (Nat.zero_le _) rfl (hword _ "b") (hone _)
  have hfactor : Printed s.builder.structs 14 (.unary .negate (.field (.name "c") "x")) factor :=
    .unary (Nat.le_refl _) rfl
      (.field (k := word "x") (by decide) rfl (.inl rfl) (hword _ "c"))
  have hproduct : Printed s.builder.structs 2
      (.binary .multiply (.binary .add (.name "b") (.int "1"))
        (.unary .negate (.field (.name "c") "x"))) product :=
    .binary (by decide) rfl (.parens rfl rfl hinner) hfactor
  have h : Printed s.builder.structs Power.default.level e ts :=
    .assign (Nat.zero_le _) rfl rfl (hword _ "a") hproduct
  exact ⟨h, expression_printed h rfl rfl⟩

end Grammar

end ShaderLang
