/-
**Writing expressions as tokens.**

An expression is a tree; its tokens leave out the tree and keep it by the binding of the operators.
Each place in a tree asks for a level: the right side of an operator must bind tighter than the
operator, the left side at least as tightly, and so on.  An expression that is too loose for its
place must stand between parentheses; any other one may.

Trees are written as a relation and not by a function: the parentheses that are not needed are free,
and so are the positions of the tokens.

Main definitions:

* `ShaderLang.Expr` — expressions as trees;
* `ShaderLang.BinaryOp.mark`, `ShaderLang.AssignOp.mark`, … — the marks that operators are written as;
* `ShaderLang.Printed` — the tokens that an expression can be written as where a level is asked for;
* `ShaderLang.Expr.Writable` — the trees whose names, types and operators can be written.

Main results:

* `ShaderLang.Printed.mono` — what is tight enough for a place is tight enough for a looser one;
* `ShaderLang.Printed.begins` — **what an expression begins with is never taken for a conversion**;
* `ShaderLang.Expr.Writable.exists_printed` — every tree can be written.
-/

import ShaderLang.Grammar.Cursor
import ShaderLang.Grammar.Power
import ShaderLang.Structs

set_option relaxedAutoImplicit false
set_option autoImplicit false

namespace ShaderLang

/-- Expressions as trees.  Literals and names are kept as they are written. -/
inductive Expr where
  | int (text : String)
  | float (text : String)
  | string (text : String)
  | bool (value : Bool)
  | name (text : String)
  | unary (op : UnaryOp) (operand : Expr)
  | step (placement : Placement) (direction : Direction) (operand : Expr)
  | cast (type : DataType) (operand : Expr)
  | construct (type : DataType) (arguments : List Expr)
  | binary (op : BinaryOp) (left right : Expr)
  | ternary (condition yes no : Expr)
  | assign (op : AssignOp) (target value : Expr)
  | comma (left right : Expr)
  | intrinsic (intrinsic : Intrinsic) (arguments : List Expr)
  | call (callee : Expr) (arguments : List Expr)
  | index (array position : Expr)
  | field (base : Expr) (field : String)

/-- An operator in front of an operand, as a tree. -/
def Leading.apply : Leading → Expr → Expr
  | unary op, e => .unary op e
  | step direction, e => .step .before direction e

/-! ### The marks of operators -/

/-- The mark that an operator is written as. -/
def UnaryOp.mark : UnaryOp → Mark
  | plus => .plus
  | negate => .dash
  | logicalNot => .not
  | bitNot => .tilde

/-- The mark that an operator is written as. -/
def Direction.mark : Direction → Mark
  | up => .plusPlus
  | down => .minusMinus

/-- The mark that an operator is written as. -/
def BinaryOp.mark : BinaryOp → Mark
  | add => .plus
  | subtract => .dash
  | multiply => .star
  | divide => .slash
  | modulo => .percent
  | shiftLeft => .shiftLeft
  | shiftRight => .shiftRight
  | bitAnd => .ampersand
  | bitOr => .pipe
  | bitXor => .caret
  | less => .less
  | greater => .greater
  | lessEqual => .lessEquals
  | greaterEqual => .greaterEquals
  | equal => .equals
  | notEqual => .notEquals
  | logicalAnd => .and
  | logicalOr => .or

/-- The mark that an assignment is written as; operators with truth values have none. -/
def AssignOp.mark : AssignOp → Option Mark
  | assign => some .assignment
  | compound .add => some .plusEquals
  | compound .subtract => some .minusEquals
  | compound .multiply => some .starEquals
  | compound .divide => some .slashEquals
  | compound .modulo => some .percentEquals
  | compound .shiftLeft => some .shiftLeftEquals
  | compound .shiftRight => some .shiftRightEquals
  | compound .bitAnd => some .ampersandEquals
  | compound .bitOr => some .pipeEquals
  | compound .bitXor => some .caretEquals
  | compound _ => none

theorem UnaryOp.ofMark_mark (op : UnaryOp) : Leading.ofMark op.mark = some (.unary op) := by
  cases op <;> rfl

theorem Direction.leading_mark (d : Direction) : Leading.ofMark d.mark = some (.step d) := by
  cases d <;> rfl

theorem Direction.ofMark_mark (d : Direction) : Extension.ofMark d.mark = some (.step d) := by
  cases d <;> rfl

theorem BinaryOp.ofMark_mark (op : BinaryOp) : Extension.ofMark op.mark = some (.binary op) := by
  cases op <;> rfl

theorem AssignOp.ofMark_mark {op : AssignOp} {m : Mark} (h : op.mark = some m) :
    Extension.ofMark m = some (.assign op) := by
  cases op with
  | assign => cases h; rfl
  | compound op => cases op <;> cases h <;> rfl

/-! ### Writing -/

/-- Lists of tokens with a comma between each two. -/
inductive Separated : List (List Token) → List Token → Prop where
  | none : Separated [] []
  | one (ts : List Token) : Separated [ts] ts
  | more {ts us rest : List Token} {tss : List (List Token)} {c : Token}
      (hc : c.kind = .mark .comma) (h : Separated (us :: tss) rest) :
      Separated (ts :: us :: tss) (ts ++ c :: rest)

/-- The tokens of an item are among those of the list. -/
theorem Separated.subset {ts us : List Token} {tss : List (List Token)} (h : Separated tss us)
    (hts : ts ∈ tss) : ts ⊆ us := by
  induction h with
  | none => contradiction
  | one =>
      rw [List.mem_singleton.1 hts]
      exact List.Subset.refl _
  | more _ _ ih =>
      rcases List.mem_cons.1 hts with rfl | hts
      · exact List.subset_append_left _ _
      · exact fun _ ht => List.mem_append_right _ (List.mem_cons_of_mem _ (ih hts ht))

/-- The tokens that an expression can be written as, where one is asked for that binds at a level at
least.  Names of structs are not expressions. -/
inductive Printed (structs : Structs) : Nat → Expr → List Token → Prop where
  | int {n : Nat} {t : Token} (ht : t.kind = .int) : Printed structs n (.int t.text) [t]
  | float {n : Nat} {t : Token} (ht : t.kind = .float) : Printed structs n (.float t.text) [t]
  | string {n : Nat} {t : Token} (ht : t.kind = .string) : Printed structs n (.string t.text) [t]
  | true {n : Nat} {t : Token} (ht : t.kind = .keyword .trueWord) :
      Printed structs n (.bool true) [t]
  | false {n : Nat} {t : Token} (ht : t.kind = .keyword .falseWord) :
      Printed structs n (.bool false) [t]
  | name {n : Nat} {t : Token} (ht : t.kind = .name) (hname : structs.lookup t.text = none) :
      Printed structs n (.name t.text) [t]
  | parens {n : Nat} {e : Expr} {o c : Token} {ts : List Token} (ho : o.kind = .mark .openParen)
      (hc : c.kind = .mark .closeParen) (inner : Printed structs Power.default.level e ts) :
      Printed structs n e (o :: (ts ++ [c]))
  | unary {n : Nat} {op : UnaryOp} {e : Expr} {o : Token} {ts : List Token}
      (hn : n ≤ Power.unary.level) (ho : o.kind = .mark op.mark)
      (operand : Printed structs Power.unary.level e ts) :
      Printed structs n (.unary op e) (o :: ts)
  | before {n : Nat} {d : Direction} {e : Expr} {o : Token} {ts : List Token}
      (hn : n ≤ Power.unary.level) (ho : o.kind = .mark d.mark)
      (operand : Printed structs Power.unary.level e ts) :
      Printed structs n (.step .before d e) (o :: ts)
  | cast {n : Nat} {type : DataType} {e : Expr} {o k c : Token} {ts : List Token}
      (hn : n ≤ Power.unary.level) (ho : o.kind = .mark .openParen) (hk : k.kind = .typeName)
      (htype : DataType.ofKeyword k.text = some type) (hc : c.kind = .mark .closeParen)
      (operand : Printed structs Power.unary.level e ts) :
      Printed structs n (.cast type e) (o :: k :: c :: ts)
  | construct {n : Nat} {type : DataType} {parts : List (Expr × List Token)} {k o c : Token}
      {ts : List Token} (hk : k.kind = .typeName) (htype : DataType.ofKeyword k.text = some type)
      (ho : o.kind = .mark .openParen) (hc : c.kind = .mark .closeParen)
      (arguments : ∀ p ∈ parts, Printed structs (Power.comma.level + 1) p.1 p.2)
      (hts : Separated (parts.map Prod.snd) ts) :
      Printed structs n (.construct type (parts.map Prod.fst)) (k :: o :: (ts ++ [c]))
  | intrinsic {n : Nat} {i : Intrinsic} {parts : List (Expr × List Token)} {k o c : Token}
      {ts : List Token} (hk : k.kind = .intrinsic) (hi : k.text = i.name)
      (ho : o.kind = .mark .openParen) (hc : c.kind = .mark .closeParen)
      (arguments : ∀ p ∈ parts, Printed structs (Power.comma.level + 1) p.1 p.2)
      (hts : Separated (parts.map Prod.snd) ts) :
      Printed structs n (.intrinsic i (parts.map Prod.fst)) (k :: o :: (ts ++ [c]))
  | binary {n : Nat} {op : BinaryOp} {e f : Expr} {o : Token} {ts us : List Token}
      (hn : n ≤ op.power.level) (ho : o.kind = .mark op.mark)
      (left : Printed structs op.power.level e ts)
      (right : Printed structs (op.power.level + 1) f us) :
      Printed structs n (.binary op e f) (ts ++ o :: us)
  | ternary {n : Nat} {e f g : Expr} {q c : Token} {ts us vs : List Token}
      (hn : n ≤ Power.ternary.level) (hq : q.kind = .mark .question) (hc : c.kind = .mark .colon)
      (condition : Printed structs (Power.ternary.level + 1) e ts)
      (yes : Printed structs Power.default.level f us)
      (no : Printed structs Power.ternary.level g vs) :
      Printed structs n (.ternary e f g) (ts ++ q :: (us ++ c :: vs))
  | assign {n : Nat} {op : AssignOp} {m : Mark} {e f : Expr} {o : Token} {ts us : List Token}
      (hn : n ≤ Power.assignment.level) (hm : op.mark = some m) (ho : o.kind = .mark m)
      (target : Printed structs (Power.assignment.level + 1) e ts)
      (value : Printed structs Power.assignment.level f us) :
      Printed structs n (.assign op e f) (ts ++ o :: us)
  | comma {n : Nat} {e f : Expr} {o : Token} {ts us : List Token} (hn : n ≤ Power.comma.level)
      (ho : o.kind = .mark .comma) (left : Printed structs Power.comma.level e ts)
      (right : Printed structs (Power.comma.level + 1) f us) :
      Printed structs n (.comma e f) (ts ++ o :: us)
  | after {n : Nat} {d : Direction} {e : Expr} {o : Token} {ts : List Token}
      (hn : n ≤ Power.postfixed.level) (ho : o.kind = .mark d.mark)
      (operand : Printed structs Power.postfixed.level e ts) :
      Printed structs n (.step .after d e) (ts ++ [o])
  | index {n : Nat} {e f : Expr} {o c : Token} {ts us : List Token}
      (hn : n ≤ Power.postfixed.level) (ho : o.kind = .mark .openBracket)
      (hc : c.kind = .mark .closeBracket) (array : Printed structs Power.postfixed.level e ts)
      (position : Printed structs Power.default.level f us) :
      Printed structs n (.index e f) (ts ++ o :: (us ++ [c]))
  | field {n : Nat} {e : Expr} {d k : Token} {ts : List Token} (hn : n ≤ Power.postfixed.level)
      (hd : d.kind = .mark .dot) (hk : k.kind = .name ∨ k.kind = .intrinsic)
      (base : Printed structs Power.postfixed.level e ts) :
      Printed structs n (.field e k.text) (ts ++ [d, k])
  | call {n : Nat} {f : Expr} {parts : List (Expr × List Token)} {o c : Token}
      {ts us : List Token} (hn : n ≤ Power.postfixed.level) (ho : o.kind = .mark .openParen)
      (hc : c.kind = .mark .closeParen) (callee : Printed structs Power.postfixed.level f ts)
      (arguments : ∀ p ∈ parts, Printed structs (Power.comma.level + 1) p.1 p.2)
      (hus : Separated (parts.map Prod.snd) us) :
      Printed structs n (.call f (parts.map Prod.fst)) (ts ++ o :: (us ++ [c]))

namespace Printed

variable {structs : Structs} {n m : Nat} {e : Expr} {ts : List Token}

/-- What is tight enough for a place is tight enough for a looser one. -/
theorem mono (h : Printed structs n e ts) (hmn : m ≤ n) : Printed structs m e ts := by
  cases h with
  | int ht => exact .int ht
  | float ht => exact .float ht
  | string ht => exact .string ht
  | true ht => exact .true ht
  | false ht => exact .false ht
  | name ht hname => exact .name ht hname
  | parens ho hc inner => exact .parens ho hc inner
  | unary hn ho operand => exact .unary (Nat.le_trans hmn hn) ho operand
  | before hn ho operand => exact .before (Nat.le_trans hmn hn) ho operand
  | cast hn ho hk htype hc operand => exact .cast (Nat.le_trans hmn hn) ho hk htype hc operand
  | construct hk htype ho hc arguments hts => exact .construct hk htype ho hc arguments hts
  | intrinsic hk hi ho hc arguments hts => exact .intrinsic hk hi ho hc arguments hts
  | binary hn ho left right => exact .binary (Nat.le_trans hmn hn) ho left right
  | ternary hn hq hc condition yes no =>
      exact .ternary (Nat.le_trans hmn hn) hq hc condition yes no
  | assign hn hm ho target value => exact .assign (Nat.le_trans hmn hn) hm ho target value
  | comma hn ho left right => exact .comma (Nat.le_trans hmn hn) ho left right
  | after hn ho operand => exact .after (Nat.le_trans hmn hn) ho operand
  | index hn ho hc array position => exact .index (Nat.le_trans hmn hn) ho hc array position
  | field hn hd hk base => exact .field (Nat.le_trans hmn hn) hd hk base
  | call hn ho hc callee arguments hus =>
      exact .call (Nat.le_trans hmn hn) ho hc callee arguments hus

end Printed

/-! ### What an expression begins with -/

/-- The tokens begin with one that closes nothing and that no type begins with, or with the name of a
type and its arguments. -/
def Begins (structs : Structs) (ts : List Token) : Prop :=
  ∃ t us, ts = t :: us ∧ t.kind ≠ .mark .closeParen ∧
    (Cursor.startsType (fun name => (structs.lookup name).isSome) t = false ∨
      t.kind = .typeName ∧ ∃ o vs, us = o :: vs ∧ o.kind = .mark .openParen)

theorem Begins.append {structs : Structs} {ts : List Token} (h : Begins structs ts)
    (us : List Token) : Begins structs (ts ++ us) := by
  obtain ⟨t, vs, rfl, hkind, hstart | ⟨htype, o, ws, rfl, ho⟩⟩ := h
  · exact ⟨t, vs ++ us, rfl, hkind, .inl hstart⟩
  · exact ⟨t, o :: ws ++ us, rfl, hkind, .inr ⟨htype, o, ws ++ us, rfl, ho⟩⟩

theorem begins_of_kind {structs : Structs} {t : Token} {us : List Token} {kind : TokenKind}
    (ht : t.kind = kind) (hkind : kind ≠ .mark .closeParen)
    (h : Cursor.startsType (fun name => (structs.lookup name).isSome) t = false) :
    Begins structs (t :: us) :=
  ⟨t, us, rfl, ht ▸ hkind, .inl h⟩

/-- No operator in front of an operand closes anything. -/
theorem Leading.ne_closeParen {op : Leading} {m : Mark} (h : Leading.ofMark m = some op) :
    TokenKind.mark m ≠ .mark .closeParen := by
  rintro ⟨⟩
  contradiction

/-- **What an expression begins with is never taken for a conversion.** -/
theorem Printed.begins {structs : Structs} {n : Nat} {e : Expr} {ts : List Token}
    (h : Printed structs n e ts) : Begins structs ts := by
  induction h with
  | int ht => exact begins_of_kind ht (by simp) (by simp [Cursor.startsType, ht])
  | float ht => exact begins_of_kind ht (by simp) (by simp [Cursor.startsType, ht])
  | string ht => exact begins_of_kind ht (by simp) (by simp [Cursor.startsType, ht])
  | true ht => exact begins_of_kind ht (by simp) (by simp [Cursor.startsType, ht])
  | false ht => exact begins_of_kind ht (by simp) (by simp [Cursor.startsType, ht])
  | name ht hname => exact begins_of_kind ht (by simp) (by simp [Cursor.startsType, ht, hname])
  | parens ho _ _ _ => exact begins_of_kind ho (by simp) (by simp [Cursor.startsType, ho])
  | @unary _ op _ _ _ _ ho _ _ =>
      exact begins_of_kind ho (Leading.ne_closeParen op.ofMark_mark) (by simp [Cursor.startsType, ho])
  | @before _ d _ _ _ _ ho _ _ =>
      exact begins_of_kind ho (Leading.ne_closeParen d.leading_mark) (by simp [Cursor.startsType, ho])
  | cast _ ho _ _ _ _ _ => exact begins_of_kind ho (by simp) (by simp [Cursor.startsType, ho])
  | construct hk _ ho _ _ _ _ => exact ⟨_, _, rfl, by simp [hk], .inr ⟨hk, _, _, rfl, ho⟩⟩
  | intrinsic hk _ _ _ _ _ _ => exact begins_of_kind hk (by simp) (by simp [Cursor.startsType, hk])
  | binary _ _ _ _ ih _ => exact ih.append _
  | ternary _ _ _ _ _ _ ih _ _ => exact ih.append _
  | assign _ _ _ _ _ ih _ => exact ih.append _
  | comma _ _ _ _ ih _ => exact ih.append _
  | after _ _ _ ih => exact ih.append _
  | index _ _ _ _ _ ih _ => exact ih.append _
  | field _ _ _ _ ih => exact ih.append _
  | call _ _ _ _ _ _ ih _ => exact ih.append _

/-- A list begins with what its first item begins with. -/
theorem Separated.begins {structs : Structs} {ts us : List Token} {tss : List (List Token)}
    (h : Separated (ts :: tss) us) (hts : Begins structs ts) : Begins structs us := by
  cases h with
  | one => exact hts
  | more _ _ => exact hts.append _

/-! ### Every tree can be written -/

/-- The tree can be written: its names are not names of structs, its types are named by a word, and
its assignments have a mark. -/
inductive Expr.Writable (structs : Structs) : Expr → Prop where
  | int (text : String) : Writable structs (.int text)
  | float (text : String) : Writable structs (.float text)
  | string (text : String) : Writable structs (.string text)
  | bool (value : Bool) : Writable structs (.bool value)
  | name {text : String} (hname : structs.lookup text = none) : Writable structs (.name text)
  | unary (op : UnaryOp) {e : Expr} (operand : Writable structs e) : Writable structs (.unary op e)
  | step (p : Placement) (d : Direction) {e : Expr} (operand : Writable structs e) :
      Writable structs (.step p d e)
  | cast {type : DataType} {e : Expr} {word : String} (hword : DataType.ofKeyword word = some type)
      (operand : Writable structs e) : Writable structs (.cast type e)
  | construct {type : DataType} {es : List Expr} {word : String}
      (hword : DataType.ofKeyword word = some type) (arguments : ∀ e ∈ es, Writable structs e) :
      Writable structs (.construct type es)
  | binary (op : BinaryOp) {e f : Expr} (left : Writable structs e) (right : Writable structs f) :
      Writable structs (.binary op e f)
  | ternary {e f g : Expr} (condition : Writable structs e) (yes : Writable structs f)
      (no : Writable structs g) : Writable structs (.ternary e f g)
  | assign {op : AssignOp} {m : Mark} {e f : Expr} (hm : op.mark = some m)
      (target : Writable structs e) (value : Writable structs f) : Writable structs (.assign op e f)
  | comma {e f : Expr} (left : Writable structs e) (right : Writable structs f) :
      Writable structs (.comma e f)
  | intrinsic (i : Intrinsic) {es : List Expr} (arguments : ∀ e ∈ es, Writable structs e) :
      Writable structs (.intrinsic i es)
  | call {f : Expr} {es : List Expr} (callee : Writable structs f)
      (arguments : ∀ e ∈ es, Writable structs e) : Writable structs (.call f es)
  | index {e f : Expr} (array : Writable structs e) (position : Writable structs f) :
      Writable structs (.index e f)
  | field {e : Expr} (base : Writable structs e) (text : String) : Writable structs (.field e text)

/-- A token that is written somewhere. -/
def Token.written (kind : TokenKind) (text : String) : Token := ⟨kind, text, .start⟩

/-- A mark that is written somewhere. -/
def Mark.written (m : Mark) : Token := .written (.mark m) m.spelling

theorem Mark.kind_written (m : Mark) : m.written.kind = .mark m := rfl

/-- Where each thing can be written, they can be written one by one. -/
theorem exists_parts {α : Type} {written : α → List Token → Prop} {xs : List α}
    (h : ∀ x ∈ xs, ∃ ts, written x ts) :
    ∃ parts : List (α × List Token), parts.map Prod.fst = xs ∧ ∀ p ∈ parts, written p.1 p.2 := by
  induction xs with
  | nil => exact ⟨[], rfl, by simp⟩
  | cons x xs ih =>
      obtain ⟨ts, hts⟩ := h x List.mem_cons_self
      obtain ⟨parts, rfl, hparts⟩ := ih fun y hy => h y (List.mem_cons_of_mem x hy)
      exact ⟨(x, ts) :: parts, rfl, List.forall_mem_cons.2 ⟨hts, hparts⟩⟩

theorem exists_separated (tss : List (List Token)) : ∃ us, Separated tss us := by
  induction tss with
  | nil => exact ⟨[], .none⟩
  | cons ts tss ih =>
      obtain ⟨us, hus⟩ := ih
      cases tss with
      | nil => exact ⟨ts, .one ts⟩
      | cons ts' tss => exact ⟨ts ++ Mark.comma.written :: us, .more rfl hus⟩

namespace Printed

variable {structs : Structs} {n l : Nat} {e : Expr} {ts : List Token}

/-- What can be written in one place can be written in every place, with parentheses if they are
needed. -/
theorem anywhere (h : Printed structs l e ts) (n : Nat) : ∃ us, Printed structs n e us := by
  rcases Nat.le_total n l with hnl | _
  · exact ⟨ts, h.mono hnl⟩
  · have hinner : Printed structs Power.default.level e ts := h.mono (Nat.zero_le l)
    exact ⟨Mark.openParen.written :: (ts ++ [Mark.closeParen.written]), .parens rfl rfl hinner⟩

end Printed

/-- **Every tree that can be written is written somehow**, wherever it stands. -/
theorem Expr.Writable.exists_printed {structs : Structs} {e : Expr} (h : e.Writable structs)
    (n : Nat) : ∃ ts, Printed structs n e ts := by
  have ho := Mark.openParen.kind_written
  have hc := Mark.closeParen.kind_written
  -- a tree is written for its own level first, then put where it stands
  induction h generalizing n with
  | int text => exact ⟨_, .int (t := .written .int text) rfl⟩
  | float text => exact ⟨_, .float (t := .written .float text) rfl⟩
  | string text => exact ⟨_, .string (t := .written .string text) rfl⟩
  | bool value =>
      cases value with
      | true => exact ⟨[.written (.keyword .trueWord) "true"], .true rfl⟩
      | false => exact ⟨[.written (.keyword .falseWord) "false"], .false rfl⟩
  | @name text hname => exact ⟨_, .name (t := .written .name text) rfl hname⟩
  | unary op _ ih =>
      obtain ⟨ts, hts⟩ := ih Power.unary.level
      exact (Printed.unary (Nat.le_refl _) op.mark.kind_written hts).anywhere n
  | step p d _ ih =>
      cases p with
      | before =>
          obtain ⟨ts, hts⟩ := ih Power.unary.level
          exact (Printed.before (Nat.le_refl _) d.mark.kind_written hts).anywhere n
      | after =>
          obtain ⟨ts, hts⟩ := ih Power.postfixed.level
          exact (Printed.after (Nat.le_refl _) d.mark.kind_written hts).anywhere n
  | @cast type e word hword _ ih =>
      obtain ⟨ts, hts⟩ := ih Power.unary.level
      have hk : (Token.written .typeName word).kind = .typeName := rfl
      exact (Printed.cast (Nat.le_refl _) ho hk hword hc hts).anywhere n
  | @construct type es word hword _ ih =>
      obtain ⟨parts, rfl, hparts⟩ := exists_parts fun e he => ih e he _
      obtain ⟨us, hus⟩ := exists_separated (parts.map Prod.snd)
      have hk : (Token.written .typeName word).kind = .typeName := rfl
      exact ⟨_, .construct hk hword ho hc hparts hus⟩
  | binary op _ _ ihl ihr =>
      obtain ⟨ts, hts⟩ := ihl op.power.level
      obtain ⟨us, hus⟩ := ihr (op.power.level + 1)
      exact (Printed.binary (Nat.le_refl _) op.mark.kind_written hts hus).anywhere n
  | ternary _ _ _ ihc ihy ihn =>
      obtain ⟨ts, hts⟩ := ihc (Power.ternary.level + 1)
      obtain ⟨us, hus⟩ := ihy Power.default.level
      obtain ⟨vs, hvs⟩ := ihn Power.ternary.level
      have hq := Mark.question.kind_written
      exact (Printed.ternary (Nat.le_refl _) hq Mark.colon.kind_written hts hus hvs).anywhere n
  | @assign op m e f hm _ _ iht ihv =>
      obtain ⟨ts, hts⟩ := iht (Power.assignment.level + 1)
      obtain ⟨us, hus⟩ := ihv Power.assignment.level
      exact (Printed.assign (Nat.le_refl _) hm m.kind_written hts hus).anywhere n
  | comma _ _ ihl ihr =>
      obtain ⟨ts, hts⟩ := ihl Power.comma.level
      obtain ⟨us, hus⟩ := ihr (Power.comma.level + 1)
      exact (Printed.comma (Nat.le_refl _) Mark.comma.kind_written hts hus).anywhere n
  | intrinsic i _ ih =>
      obtain ⟨parts, rfl, hparts⟩ := exists_parts fun e he => ih e he _
      obtain ⟨us, hus⟩ := exists_separated (parts.map Prod.snd)
      have hk : (Token.written .intrinsic i.name).kind = .intrinsic := rfl
      exact ⟨_, .intrinsic hk rfl ho hc hparts hus⟩
  | call _ _ ihf ih =>
      obtain ⟨ts, hts⟩ := ihf Power.postfixed.level
      obtain ⟨parts, rfl, hparts⟩ := exists_parts fun e he => ih e he _
      obtain ⟨us, hus⟩ := exists_separated (parts.map Prod.snd)
      exact (Printed.call (Nat.le_refl _) ho hc hts hparts hus).anywhere n
  | index _ _ iha ihp =>
      obtain ⟨ts, hts⟩ := iha Power.postfixed.level
      obtain ⟨us, hus⟩ := ihp Power.default.level
      have ho := Mark.openBracket.kind_written
      have hc := Mark.closeBracket.kind_written
      exact (Printed.index (Nat.le_refl _) ho hc hts hus).anywhere n
  | field _ text ih =>
      obtain ⟨ts, hts⟩ := ih Power.postfixed.level
      have hk : (Token.written .name text).kind = .name := rfl
      exact (Printed.field (Nat.le_refl _) Mark.dot.kind_written (.inl hk) hts).anywhere n

end ShaderLang
