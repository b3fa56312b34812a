/-
**Writing statements as tokens.**

A statement is a tree.  Most of its shape is kept by words, marks and braces.  An `else` carries no mark
of the `if` it belongs to: it is read as part of the nearest `if` that has none yet.  So the branch in
front of an `else` must not end in an `if` without one.  If it does, the tokens are those of another
tree, in which the `else` stands further inside (`ShaderLang.Stmt.attach`).

As with expressions, trees are written as a relation: parentheses that are not needed are free, and so
are the positions of the tokens and the words of a type.

Main definitions:

* `ShaderLang.Initial`, `ShaderLang.Declarator`, `ShaderLang.Declaration`, `ShaderLang.Stmt` —
  statements as trees;
* `ShaderLang.Stmt.endsOpen` — a statement ends in an `if` without an `else`;
* `ShaderLang.Stmt.attach` — an `else` put behind such a statement;
* `ShaderLang.Stmt.Written` — the tokens that a statement can be written as.

Main results:

* `ShaderLang.Printed.starts` — **what an expression begins with is never taken for a declaration**;
* `ShaderLang.Stmt.Written.attach` — **an `else` behind a statement that ends open belongs to the
  nearest `if`**.
-/

import ShaderLang.Grammar.Expression
import ShaderLang.Proofs.Grammar.Printing

set_option relaxedAutoImplicit false
set_option autoImplicit false

namespace ShaderLang

/-! ### Trees -/

/-- Initial values as trees. -/
inductive Initial where
  | value (e : Expr)
  | list (items : List Initial)

/-- A variable with what is said of it behind its name. -/
structure Declarator where
  name : String
  size : Option Expr
  tie : Option Semantic
  value : Option Initial

/-- Variables of one type. -/
structure Declaration where
  qualifiers : Qualifiers
  type : DataType
  items : List Declarator

/-- What a counting loop begins with. -/
inductive LoopStart where
  | none
  | declaration (d : Declaration)
  | value (e : Expr)

/-- Statements as trees. -/
inductive Stmt where
  | block (body : List Stmt)
  | declaration (d : Declaration)
  | value (e : Expr)
  | empty
  | choice (condition : Expr) (yes : Stmt)
  | choiceElse (condition : Expr) (yes no : Stmt)
  | whileLoop (condition : Expr) (body : Stmt)
  | doLoop (body : Stmt) (condition : Expr)
  | forLoop (first : LoopStart) (test next : Option Expr) (body : Stmt)
  | jump (jump : Jump)
  | result (value : Option Expr)

namespace Stmt

/-- The statement ends in an `if` without an `else`. -/
def endsOpen : Stmt → Bool
  | choice _ _ => true
  | choiceElse _ _ no => no.endsOpen
  | whileLoop _ body => body.endsOpen
  | forLoop _ _ _ body => body.endsOpen
  | _ => false

/-- The `if` at the end that is nearest to what follows gets an `else`. -/
def attach : Stmt → Stmt → Stmt
  | choice condition yes, no =>
      if yes.endsOpen then choice condition (yes.attach no) else choiceElse condition yes no
  | choiceElse condition yes other, no => choiceElse condition yes (other.attach no)
  | whileLoop condition body, no => whileLoop condition (body.attach no)
  | forLoop first test next body, no => forLoop first test next (body.attach no)
  | s, _ => s

end Stmt

/-! ### Writing the parts of declarations -/

/-- A part that may be missing is written as nothing then. -/
inductive Optionally {α : Type} (written : α → List Token → Prop) : Option α → List Token → Prop where
  | absent : Optionally written none []
  | present {x : α} {ts : List Token} (h : written x ts) : Optionally written (some x) ts

/-- A set of qualifiers is written as words, which may be any that make it up. -/
inductive Qualifiers.Written : Qualifiers → List Token → Prop where
  | none : Written .none []
  | more {p q : Qualifiers} {t : Token} {ts : List Token} (ht : t.kind = .qualifier)
      (hp : Qualifiers.ofKeyword t.text = some p) (rest : Written q ts) :
      Written (p.union q) (t :: ts)

/-- The extent of a vector or matrix is written as the digit that stands in the keywords of types. -/
def Extent.Written (n : Fin absentExtent) (t : Token) : Prop :=
  t.kind = .int ∧ ∃ d, t.text = String.singleton d ∧ DataType.keywordExtent d = some n

/-- A built-in type is written as its keyword, or as `vector` or `matrix`.  Behind these two words the
type of a component and the extents may follow. -/
inductive DataType.Written : DataType → List Token → Prop where
  | keyword {type : DataType} {k : Token} (hk : k.kind = .typeName)
      (htype : DataType.ofKeyword k.text = some type) : Written type [k]
  | vector {type : DataType} {k : Token} (hk : k.kind = .keyword .vectorWord)
      (htype : DataType.ofKeyword "float4" = some type) : Written type [k]
  | matrix {type : DataType} {k : Token} (hk : k.kind = .keyword .matrixWord)
      (htype : DataType.ofKeyword "float4x4" = some type) : Written type [k]
  | vectorOf {component : DataType} {n : Fin absentExtent} {k o t c size g : Token}
      (hk : k.kind = .keyword .vectorWord) (ho : o.kind = .mark .less) (ht : t.kind = .typeName)
      (hcomponent : DataType.ofKeyword t.text = some component) (hc : c.kind = .mark .comma)
      (hsize : Extent.Written n size) (hg : g.kind = .mark .greater) :
      Written ⟨component.base, some n, none⟩ [k, o, t, c, size, g]
  | matrixOf {component : DataType} {m n : Fin absentExtent} {k o t c rows d columns g : Token}
      (hk : k.kind = .keyword .matrixWord) (ho : o.kind = .mark .less) (ht : t.kind = .typeName)
      (hcomponent : DataType.ofKeyword t.text = some component) (hc : c.kind = .mark .comma)
      (hrows : Extent.Written m rows) (hd : d.kind = .mark .comma)
      (hcolumns : Extent.Written n columns) (hg : g.kind = .mark .greater) :
      Written ⟨component.base, some m, some n⟩ [k, o, t, c, rows, d, columns, g]

section Parts

variable (structs : Structs)

/-- The size of an array between brackets. -/
inductive Sized : Expr → List Token → Prop where
  | intro {e : Expr} {o c : Token} {ts : List Token} (ho : o.kind = .mark .openBracket)
      (hc : c.kind = .mark .closeBracket) (size : Printed structs Power.default.level e ts) :
      Sized e (o :: (ts ++ [c]))

/-- A semantic behind a colon. -/
inductive Semantic.Written : Semantic → List Token → Prop where
  | intro {s : Semantic} {c k : Token} (hc : c.kind = .mark .colon) (hk : k.kind = .name)
      (hs : Semantic.ofText k.text = some s) : Written s [c, k]

/-- Initial values are expressions or lists between braces, which are not empty. -/
inductive Initial.Written : Initial → List Token → Prop where
  | value {e : Expr} {ts : List Token} (h : Printed structs (Power.comma.level + 1) e ts) :
      Written (.value e) ts
  | list {p : Initial × List Token} {parts : List (Initial × List Token)} {o c : Token}
      {ts : List Token} (ho : o.kind = .mark .openCurly) (hc : c.kind = .mark .closeCurly)
      (items : ∀ q ∈ p :: parts, Written q.1 q.2)
      (hts : Separated ((p :: parts).map Prod.snd) ts) :
      Written (.list ((p :: parts).map Prod.fst)) (o :: (ts ++ [c]))

/-- An initial value behind its mark. -/
inductive Assigned : Initial → List Token → Prop where
  | intro {i : Initial} {o : Token} {ts : List Token} (ho : o.kind = .mark .assignment)
      (value : i.Written structs ts) : Assigned i (o :: ts)

/-- The name of a variable and what is said of it. -/
inductive Declarator.Written : Declarator → List Token → Prop where
  | intro {size : Option Expr} {tie : Option Semantic} {value : Option Initial} {k : Token}
      {us vs ws : List Token} (hk : k.kind = .name) (hsize : Optionally (Sized structs) size us)
      (htie : Optionally Semantic.Written tie vs)
      (hvalue : Optionally (Assigned structs) value ws) :
      Written ⟨k.text, size, tie, value⟩ (k :: (us ++ (vs ++ ws)))

/-- Qualifiers, a type, and at least one variable, through the semicolon. -/
inductive Declaration.Written : Declaration → List Token → Prop where
  | intro {q : Qualifiers} {type : DataType} {p : Declarator × List Token}
      {parts : List (Declarator × List Token)} {qs ks us : List Token} {m : Token}
      (hq : q.Written qs) (htype : type.Written ks)
      (items : ∀ r ∈ p :: parts, r.1.Written structs r.2)
      (hus : Separated ((p :: parts).map Prod.snd) us) (hm : m.kind = .mark .semicolon) :
      Written ⟨q, type, (p :: parts).map Prod.fst⟩ (qs ++ (ks ++ (us ++ [m])))

end Parts

/-! ### Writing statements -/

/-- The keyword that a statement is written as which leaves the order of execution. -/
def Jump.word : Jump → Keyword
  | breakLoop => .breakWord
  | continueLoop => .continueWord
  | discardFragment => .discardWord

/-- What a counting loop begins with, through the semicolon. -/
inductive LoopStart.Written (structs : Structs) : LoopStart → List Token → Prop where
  | none {m : Token} (hm : m.kind = .mark .semicolon) : Written structs .none [m]
  | declaration {d : Declaration} {ts : List Token} (h : d.Written structs ts) :
      Written structs (.declaration d) ts
  | value {e : Expr} {ts : List Token} {m : Token} (h : Printed structs Power.default.level e ts)
      (hm : m.kind = .mark .semicolon) : Written structs (.value e) (ts ++ [m])

/-- The tokens that a statement can be written as.  What stands in front of an `else` does not end in an
`if` without one. -/
inductive Stmt.Written (structs : Structs) : Stmt → List Token → Prop where
  | block {parts : List (Stmt × List Token)} {o c : Token} (ho : o.kind = .mark .openCurly)
      (hc : c.kind = .mark .closeCurly) (body : ∀ p ∈ parts, Written structs p.1 p.2) :
      Written structs (.block (parts.map Prod.fst)) (o :: ((parts.map Prod.snd).flatten ++ [c]))
  | declaration {d : Declaration} {ts : List Token} (h : d.Written structs ts) :
      Written structs (.declaration d) ts
  | value {e : Expr} {ts : List Token} {m : Token} (h : Printed structs Power.default.level e ts)
      (hm : m.kind = .mark .semicolon) : Written structs (.value e) (ts ++ [m])
  | empty {m : Token} (hm : m.kind = .mark .semicolon) : Written structs .empty [m]
  | choice {e : Expr} {yes : Stmt} {i o c : Token} {us ts : List Token}
      (hi : i.kind = .keyword .ifWord) (ho : o.kind = .mark .openParen)
      (condition : Printed structs Power.default.level e us) (hc : c.kind = .mark .closeParen)
      (branch : Written structs yes ts) :
      Written structs (.choice e yes) (i :: o :: (us ++ c :: ts))
  | choiceElse {e : Expr} {yes no : Stmt} {i o c l : Token} {us ts vs : List Token}
      (hi : i.kind = .keyword .ifWord) (ho : o.kind = .mark .openParen)
      (condition : Printed structs Power.default.level e us) (hc : c.kind = .mark .closeParen)
      (branch : Written structs yes ts) (closed : yes.endsOpen = false)
      (hl : l.kind = .keyword .elseWord) (other : Written structs no vs) :
      Written structs (.choiceElse e yes no) (i :: o :: (us ++ c :: (ts ++ l :: vs)))
  | whileLoop {e : Expr} {body : Stmt} {w o c : Token} {us ts : List Token}
      (hw : w.kind = .keyword .whileWord) (ho : o.kind = .mark .openParen)
      (condition : Printed structs Power.default.level e us) (hc : c.kind = .mark .closeParen)
      (inner : Written structs body ts) :
      Written structs (.whileLoop e body) (w :: o :: (us ++ c :: ts))
  | doLoop {e : Expr} {body : Stmt} {d w o c m : Token} {us ts : List Token}
      (hd : d.kind = .keyword .doWord) (inner : Written structs body ts)
      (hw : w.kind = .keyword .whileWord) (ho : o.kind = .mark .openParen)
      (condition : Printed structs Power.default.level e us) (hc : c.kind = .mark .closeParen)
      (hm : m.kind = .mark .semicolon) :
      Written structs (.doLoop body e) (d :: (ts ++ w :: o :: (us ++ [c, m])))
  | forLoop {first : LoopStart} {test next : Option Expr} {body : Stmt} {f o m c : Token}
      {us vs ws ts : List Token} (hf : f.kind = .keyword .forWord) (ho : o.kind = .mark .openParen)
      (hfirst : first.Written structs us)
      (htest : Optionally (Printed structs Power.default.level) test vs)
      (hm : m.kind = .mark .semicolon)
      (hnext : Optionally (Printed structs Power.default.level) next ws)
      (hc : c.kind = .mark .closeParen) (inner : Written structs body ts) :
      Written structs (.forLoop first test next body)
        (f :: o :: (us ++ (vs ++ m :: (ws ++ c :: ts))))
  | jump {j : Jump} {k m : Token} (hk : k.kind = .keyword j.word) (hm : m.kind = .mark .semicolon) :
      Written structs (.jump j) [k, m]
  | result {value : Option Expr} {r m : Token} {ts : List Token}
      (hr : r.kind = .keyword .returnWord)
      (hvalue : Optionally (Printed structs Power.default.level) value ts)
      (hm : m.kind = .mark .semicolon) : Written structs (.result value) (r :: (ts ++ [m]))

/-- **An `else` behind a statement that ends open belongs to the nearest `if`.**  The tokens are those of
the tree in which this `if` has it. -/
theorem Stmt.Written.attach {structs : Structs} {s no : Stmt} {ts vs : List Token} {l : Token}
    (h : s.Written structs ts) (hopen : s.endsOpen = true) (hl : l.kind = .keyword .elseWord)
    (other : no.Written structs vs) : (s.attach no).Written structs (ts ++ l :: vs) := by
  induction h with
  | block _ _ _ _ => contradiction
  | declaration _ => contradiction
  | value _ _ => contradiction
  | empty _ => contradiction
  | @choice e yes i o c us ts hi ho condition hc branch ih =>
      simp only [List.cons_append, List.append_assoc]
      rw [Stmt.attach]
      split
      · next hyes => exact .choice hi ho condition hc (ih hyes)
      · next hyes =>
          have hclosed : yes.endsOpen = false := Bool.eq_false_iff.2 hyes
          exact .choiceElse hi ho condition hc branch hclosed hl other
  | choiceElse hi ho condition hc branch closed hl' _ _ ih =>
      simp only [List.cons_append, List.append_assoc]
      exact .choiceElse hi ho condition hc branch closed hl' (ih hopen)
  | whileLoop hw ho condition hc _ ih =>
      simp only [List.cons_append, List.append_assoc]
      exact .whileLoop hw ho condition hc (ih hopen)
  | doLoop _ _ _ _ _ _ _ _ => contradiction
  | forLoop hf ho hfirst htest hm hnext hc _ ih =>
      simp only [List.cons_append, List.append_assoc]
      exact .forLoop hf ho hfirst htest hm hnext hc (ih hopen)
  | jump _ _ => contradiction
  | result _ _ _ => contradiction

/-! ### What statements begin with -/

/-- The tokens begin as an expression does.  A type is called, and behind a name no other name comes, so
that neither is taken for a declaration. -/
def Starts (structs : Structs) (ts : List Token) : Prop :=
  ∃ t us, ts = t :: us ∧ t.kind ∈ Grammar.expressionStart ∧
    (t.kind = .typeName → ∃ o vs, us = o :: vs ∧ o.kind = .mark .openParen) ∧
    (t.kind = .name → structs.lookup t.text = none ∧ ∀ u ∈ us.head?, u.kind ≠ .name)

/-- What follows is no name, so a name in front of it is not taken for a type. -/
theorem Starts.append {structs : Structs} {ts us : List Token} {o : Token}
    (h : Starts structs ts) (ho : o.kind ≠ .name) : Starts structs (ts ++ o :: us) := by
  obtain ⟨t, vs, rfl, hkind, htype, hname⟩ := h
  refine ⟨t, vs ++ o :: us, rfl, hkind, ?_, ?_⟩
  · intro ht
    obtain ⟨p, ws, rfl, hp⟩ := htype ht
    exact ⟨p, ws ++ o :: us, rfl, hp⟩
  · intro ht
    obtain ⟨hnone, hnext⟩ := hname ht
    constructor
    · exact hnone
    · cases vs with
      | nil => simpa using ho
      | cons v vs => simpa using hnext

theorem starts_of_kind {structs : Structs} {t : Token} {us : List Token} {kind : TokenKind}
    (ht : t.kind = kind) (hkind : kind ∈ Grammar.expressionStart) (htype : kind ≠ .typeName)
    (hname : kind ≠ .name) : Starts structs (t :: us) := by
  subst ht
  exact ⟨t, us, rfl, hkind, fun h => absurd h htype, fun h => absurd h hname⟩

/-- **What an expression begins with is never taken for a declaration.** -/
theorem Printed.starts {structs : Structs} {n : Nat} {e : Expr} {ts : List Token}
    (h : Printed structs n e ts) : Starts structs ts := by
  induction h with
  | int ht => exact starts_of_kind ht (by decide) nofun nofun
  | float ht => exact starts_of_kind ht (by decide) nofun nofun
  | string ht => exact starts_of_kind ht (by decide) nofun nofun
  | true ht => exact starts_of_kind ht (by decide) nofun nofun
  | false ht => exact starts_of_kind ht (by decide) nofun nofun
  | @name n t ht hname =>
      refine ⟨t, [], rfl, ?_, ?_, ?_⟩
      · rw [ht]
        decide
      · intro htype
        rw [ht] at htype
        contradiction
      · intro _
        exact ⟨hname, by simp⟩
  | parens ho _ _ _ => exact starts_of_kind ho (by decide) nofun nofun
  | @unary n op e o ts hn ho operand ih =>
      exact starts_of_kind ho (by cases op <;> decide) nofun nofun
  | @before n d e o ts hn ho operand ih =>
      exact starts_of_kind ho (by cases d <;> decide) nofun nofun
  | cast _ ho _ _ _ _ _ => exact starts_of_kind ho (by decide) nofun nofun
  | @construct n type parts k o c ts hk htype ho hc arguments hts ih =>
      refine ⟨k, _, rfl, ?_, fun _ => ⟨o, _, rfl, ho⟩, ?_⟩
      · rw [hk]
        decide
      · intro hname
        rw [hk] at hname
        contradiction
  | intrinsic hk _ _ _ _ _ _ => exact starts_of_kind hk (by decide) nofun nofun
  | binary _ ho _ _ ih _ => exact ih.append (by simp [ho])
  | ternary _ hq _ _ _ _ ih _ _ => exact ih.append (by simp [hq])
  | assign _ _ ho _ _ ih _ => exact ih.append (by simp [ho])
  | comma _ ho _ _ ih _ => exact ih.append (by simp [ho])
  | after _ ho _ ih => exact ih.append (by simp [ho])
  | index _ ho _ _ _ ih _ => exact ih.append (by simp [ho])
  | field _ hd _ _ ih => exact ih.append (by simp [hd])
  | call _ ho _ _ _ _ ih _ => exact ih.append (by simp [ho])

/-- A type begins with its word. -/
theorem DataType.Written.begins {type : DataType} {ts : List Token} (h : type.Written ts) :
    ∃ t us, ts = t :: us ∧
      (t.kind = .typeName ∨ t.kind = .keyword .vectorWord ∨ t.kind = .keyword .matrixWord) := by
  cases h with
  | keyword hk _ => exact ⟨_, _, rfl, .inl hk⟩
  | vector hk _ => exact ⟨_, _, rfl, .inr (.inl hk)⟩
  | matrix hk _ => exact ⟨_, _, rfl, .inr (.inr hk)⟩
  | vectorOf hk _ _ _ _ _ _ => exact ⟨_, _, rfl, .inr (.inl hk)⟩
  | matrixOf hk _ _ _ _ _ _ _ _ => exact ⟨_, _, rfl, .inr (.inr hk)⟩

/-- A variable begins with its name. -/
theorem Declarator.Written.begins {structs : Structs} {d : Declarator} {ts : List Token}
    (h : d.Written structs ts) : ∃ k us, ts = k :: us ∧ k.kind = .name := by
  obtain ⟨hk, -, -, -⟩ := h
  exact ⟨_, _, rfl, hk⟩

/-- The tokens begin a statement: they do not end a block, and no `else` is in front. -/
def Proceeds (ts : List Token) : Prop :=
  ∃ t us, ts = t :: us ∧
    t.kind ∉ [TokenKind.mark .closeCurly, TokenKind.endOfFile, TokenKind.keyword .elseWord]

theorem Proceeds.append {ts : List Token} (h : Proceeds ts) (us : List Token) :
    Proceeds (ts ++ us) := by
  obtain ⟨t, vs, rfl, hkind⟩ := h
  exact ⟨t, vs ++ us, rfl, hkind⟩

theorem proceeds_of_kind {t : Token} {us : List Token} {kind : TokenKind} (ht : t.kind = kind)
    (hkind : kind ∉ [TokenKind.mark .closeCurly, .endOfFile, .keyword .elseWord]) :
    Proceeds (t :: us) := by
  subst ht
  exact ⟨t, us, rfl, hkind⟩

theorem Starts.proceeds {structs : Structs} {ts : List Token} (h : Starts structs ts) :
    Proceeds ts := by
  have hnone : ∀ kind ∈ Grammar.expressionStart,
      kind ∉ [TokenKind.mark .closeCurly, .endOfFile, .keyword .elseWord] := by
    decide
  obtain ⟨t, us, rfl, hkind, -⟩ := h
  exact ⟨t, us, rfl, hnone t.kind hkind⟩

/-- A declaration begins with a qualifier or with the word of a type. -/
theorem Declaration.Written.begins {structs : Structs} {d : Declaration} {ts : List Token}
    (h : d.Written structs ts) : ∃ t us, ts = t :: us ∧
      t.kind ∈ [TokenKind.qualifier, .typeName, .keyword .vectorWord, .keyword .matrixWord] := by
  obtain ⟨hq, htype, -, -, -⟩ := h
  cases hq with
  | none =>
      obtain ⟨t, us, rfl, hkind⟩ := htype.begins
      exact ⟨t, _, rfl, by simp [hkind]⟩
  | @more p q t ts ht _ _ => exact ⟨t, _, rfl, by simp [ht]⟩

theorem Declaration.Written.proceeds {structs : Structs} {d : Declaration} {ts : List Token}
    (h : d.Written structs ts) : Proceeds ts := by
  have hnone : ∀ kind ∈ [TokenKind.qualifier, .typeName, .keyword .vectorWord,
      .keyword .matrixWord], kind ∉ [TokenKind.mark .closeCurly, .endOfFile, .keyword .elseWord] := by
    decide
  obtain ⟨t, us, rfl, hkind⟩ := h.begins
  exact ⟨t, us, rfl, hnone t.kind hkind⟩

/-- What a statement begins with. -/
theorem Stmt.Written.proceeds {structs : Structs} {s : Stmt} {ts : List Token}
    (h : s.Written structs ts) : Proceeds ts := by
  cases h with
  | block ho _ _ => exact proceeds_of_kind ho (by decide)
  | declaration h => exact h.proceeds
  | value h _ => exact h.starts.proceeds.append _
  | empty hm => exact proceeds_of_kind hm (by decide)
  | choice hi _ _ _ _ => exact proceeds_of_kind hi (by decide)
  | choiceElse hi _ _ _ _ _ _ _ => exact proceeds_of_kind hi (by decide)
  | whileLoop hw _ _ _ _ => exact proceeds_of_kind hw (by decide)
  | doLoop hd _ _ _ _ _ _ => exact proceeds_of_kind hd (by decide)
  | forLoop hf _ _ _ _ _ _ _ => exact proceeds_of_kind hf (by decide)
  | @jump j k m hk hm => exact proceeds_of_kind hk (by cases j <;> decide)
  | result hr _ _ => exact proceeds_of_kind hr (by decide)

/-! ### Every tree can be written -/

/-- The expressions of the initial values can be written, and no list is empty. -/
inductive Initial.Writable (structs : Structs) : Initial → Prop where
  | value {e : Expr} (h : e.Writable structs) : Writable structs (.value e)
  | list {items : List Initial} (hne : items ≠ []) (h : ∀ i ∈ items, Writable structs i) :
      Writable structs (.list items)

/-- What is said of the variable can be written; its semantic is one that a word names. -/
structure Declarator.Writable (structs : Structs) (d : Declarator) : Prop where
  size : ∀ e, d.size = some e → e.Writable structs
  tie : ∀ s, d.tie = some s → ∃ word, Semantic.ofText word = some s
  value : ∀ i, d.value = some i → i.Writable structs

/-- There are variables, their type is one that a word names, and the qualifiers have words. -/
structure Declaration.Writable (structs : Structs) (d : Declaration) : Prop where
  qualifiers : d.qualifiers.bits < 32
  type : ∃ word, DataType.ofKeyword word = some d.type
  nonempty : d.items ≠ []
  items : ∀ i ∈ d.items, i.Writable structs

/-- What a counting loop begins with can be written. -/
inductive LoopStart.Writable (structs : Structs) : LoopStart → Prop where
  | none : Writable structs .none
  | declaration {d : Declaration} (h : d.Writable structs) : Writable structs (.declaration d)
  | value {e : Expr} (h : e.Writable structs) : Writable structs (.value e)

/-- The parts of the statement can be written, and no branch in front of an `else` ends in an `if`
without one. -/
inductive Stmt.Writable (structs : Structs) : Stmt → Prop where
  | block {body : List Stmt} (h : ∀ s ∈ body, Writable structs s) : Writable structs (.block body)
  | declaration {d : Declaration} (h : d.Writable structs) : Writable structs (.declaration d)
  | value {e : Expr} (h : e.Writable structs) : Writable structs (.value e)
  | empty : Writable structs .empty
  | choice {e : Expr} {yes : Stmt} (condition : e.Writable structs)
      (branch : Writable structs yes) : Writable structs (.choice e yes)
  | choiceElse {e : Expr} {yes no : Stmt} (condition : e.Writable structs)
      (branch : Writable structs yes) (closed : yes.endsOpen = false)
      (other : Writable structs no) : Writable structs (.choiceElse e yes no)
  | whileLoop {e : Expr} {body : Stmt} (condition : e.Writable structs)
      (inner : Writable structs body) : Writable structs (.whileLoop e body)
  | doLoop {e : Expr} {body : Stmt} (inner : Writable structs body)
      (condition : e.Writable structs) : Writable structs (.doLoop body e)
  | forLoop {first : LoopStart} {test next : Option Expr} {body : Stmt}
      (hfirst : first.Writable structs) (htest : ∀ e, test = some e → e.Writable structs)
      (hnext : ∀ e, next = some e → e.Writable structs) (inner : Writable structs body) :
      Writable structs (.forLoop first test next body)
  | jump (j : Jump) : Writable structs (.jump j)
  | result {value : Option Expr} (h : ∀ e, value = some e → e.Writable structs) :
      Writable structs (.result value)

section Existence

variable {α : Type} {written : α → List Token → Prop}

theorem exists_optionally {x : Option α} (h : ∀ y, x = some y → ∃ ts, written y ts) :
    ∃ ts, Optionally written x ts := by
  cases x with
  | none => exact ⟨[], .absent⟩
  | some y =>
      obtain ⟨ts, hts⟩ := h y rfl
      exact ⟨ts, .present hts⟩

/-- Of things that there are, the first one is named. -/
theorem exists_parts_cons {xs : List α} (hne : xs ≠ []) (h : ∀ x ∈ xs, ∃ ts, written x ts) :
    ∃ (p : α × List Token) (parts : List (α × List Token)),
      (p :: parts).map Prod.fst = xs ∧ ∀ q ∈ p :: parts, written q.1 q.2 := by
  obtain ⟨parts, rfl, hparts⟩ := exists_parts h
  cases parts with
  | nil => contradiction
  | cons p parts => exact ⟨p, parts, rfl, hparts⟩

end Existence

/-- Every set of qualifiers is written as the keywords that it holds. -/
theorem Qualifiers.exists_written {q : Qualifiers} (h : q.bits < 32) : ∃ ts, q.Written ts := by
  have hwords : ∀ words : List String, ∀ q : Qualifiers,
      words.foldr (fun word rest => ((Qualifiers.ofKeyword word).getD .none).union rest) .none = q →
      (∀ word ∈ words, (Qualifiers.ofKeyword word).isSome) → ∃ ts, q.Written ts := by
    intro words
    induction words with
    | nil =>
        rintro _ rfl -
        exact ⟨[], .none⟩
    | cons word words ih =>
        rintro _ rfl hknown
        obtain ⟨p, hp⟩ := Option.isSome_iff_exists.1 (hknown word List.mem_cons_self)
        obtain ⟨ts, hts⟩ := ih _ rfl fun w hw => hknown w (List.mem_cons_of_mem word hw)
        rw [List.foldr_cons, hp]
        exact ⟨_, .more (t := .written .qualifier word) rfl hp hts⟩
  have hall : ∀ n : Fin 32,
      let q : Qualifiers := ⟨UInt8.ofNat n⟩
      (q.keywords Qualifiers.table).foldr
          (fun word rest => ((Qualifiers.ofKeyword word).getD .none).union rest) .none = q ∧
        ∀ word ∈ q.keywords Qualifiers.table, (Qualifiers.ofKeyword word).isSome := by
    decide +kernel
  obtain ⟨hq, hknown⟩ := hall ⟨q.bits.toNat, h⟩
  have hbits : (⟨UInt8.ofNat q.bits.toNat⟩ : Qualifiers) = q := by simp
  exact hwords _ q (hq.trans hbits) hknown

theorem Initial.Writable.exists_written {structs : Structs} {i : Initial}
    (h : i.Writable structs) : ∃ ts, i.Written structs ts := by
  induction h with
  | value h =>
      obtain ⟨ts, hts⟩ := h.exists_printed (Power.comma.level + 1)
      exact ⟨ts, .value hts⟩
  | list hne _ ih =>
      obtain ⟨p, parts, rfl, hparts⟩ := exists_parts_cons hne ih
      obtain ⟨us, hus⟩ := exists_separated ((p :: parts).map Prod.snd)
      have ho := Mark.openCurly.kind_written
      exact ⟨_, .list ho Mark.closeCurly.kind_written hparts hus⟩

theorem Declarator.Writable.exists_written {structs : Structs} {d : Declarator}
    (h : d.Writable structs) : ∃ ts, d.Written structs ts := by
  have hsize : ∀ e, d.size = some e → ∃ ts, Sized structs e ts := by
    intro e he
    obtain ⟨ts, hts⟩ := (h.size e he).exists_printed Power.default.level
    exact ⟨_, .intro Mark.openBracket.kind_written Mark.closeBracket.kind_written hts⟩
  have htie : ∀ s, d.tie = some s → ∃ ts, Semantic.Written s ts := by
    intro s hs
    obtain ⟨word, hword⟩ := h.tie s hs
    exact ⟨_, .intro (k := .written .name word) Mark.colon.kind_written rfl hword⟩
  have hvalue : ∀ i, d.value = some i → ∃ ts, Assigned structs i ts := by
    intro i hi
    obtain ⟨ts, hts⟩ := (h.value i hi).exists_written
    exact ⟨_, .intro Mark.assignment.kind_written hts⟩
  obtain ⟨us, hus⟩ := exists_optionally hsize
  obtain ⟨vs, hvs⟩ := exists_optionally htie
  obtain ⟨ws, hws⟩ := exists_optionally hvalue
  exact ⟨_, .intro (k := .written .name d.name) rfl hus hvs hws⟩

theorem Declaration.Writable.exists_written {structs : Structs} {d : Declaration}
    (h : d.Writable structs) : ∃ ts, d.Written structs ts := by
  obtain ⟨qs, hqs⟩ := Qualifiers.exists_written h.qualifiers
  obtain ⟨word, hword⟩ := h.type
  have htype : d.type.Written [.written .typeName word] := .keyword rfl hword
  obtain ⟨p, parts, hitems, hparts⟩ :=
    exists_parts_cons h.nonempty fun i hi => (h.items i hi).exists_written
  obtain ⟨us, hus⟩ := exists_separated ((p :: parts).map Prod.snd)
  have hwritten := Declaration.Written.intro hqs htype hparts hus Mark.semicolon.kind_written
  rw [hitems] at hwritten
  exact ⟨_, hwritten⟩

theorem LoopStart.Writable.exists_written {structs : Structs} {first : LoopStart}
    (h : first.Writable structs) : ∃ ts, first.Written structs ts := by
  cases h with
  | none => exact ⟨_, .none Mark.semicolon.kind_written⟩
  | declaration h =>
      obtain ⟨ts, hts⟩ := h.exists_written
      exact ⟨ts, .declaration hts⟩
  | value h =>
      obtain ⟨ts, hts⟩ := h.exists_printed Power.default.level
      exact ⟨_, .value hts Mark.semicolon.kind_written⟩

/-- **Every statement that can be written is written somehow.** -/
theorem Stmt.Writable.exists_written {structs : Structs} {s : Stmt} (h : s.Writable structs) :
    ∃ ts, s.Written structs ts := by
  have ho := Mark.openParen.kind_written
  have hc := Mark.closeParen.kind_written
  have hm := Mark.semicolon.kind_written
  have hword (k : Keyword) : (Token.written (.keyword k) k.spelling).kind = .keyword k := rfl
  induction h with
  | block _ ih =>
      obtain ⟨parts, rfl, hparts⟩ := exists_parts ih
      exact ⟨_, .block Mark.openCurly.kind_written Mark.closeCurly.kind_written hparts⟩
  | declaration h =>
      obtain ⟨ts, hts⟩ := h.exists_written
      exact ⟨ts, .declaration hts⟩
  | value h =>
      obtain ⟨ts, hts⟩ := h.exists_printed Power.default.level
      exact ⟨_, .value hts hm⟩
  | empty => exact ⟨_, .empty hm⟩
  | choice condition _ ih =>
      obtain ⟨us, hus⟩ := condition.exists_printed Power.default.level
      obtain ⟨ts, hts⟩ := ih
      exact ⟨_, .choice (hword _) ho hus hc hts⟩
  | choiceElse condition _ closed _ ih ih' =>
      obtain ⟨us, hus⟩ := condition.exists_printed Power.default.level
      obtain ⟨ts, hts⟩ := ih
      obtain ⟨vs, hvs⟩ := ih'
      exact ⟨_, .choiceElse (hword _) ho hus hc hts closed (hword _) hvs⟩
  | whileLoop condition _ ih =>
      obtain ⟨us, hus⟩ := condition.exists_printed Power.default.level
      obtain ⟨ts, hts⟩ := ih
      exact ⟨_, .whileLoop (hword _) ho hus hc hts⟩
  | doLoop _ condition ih =>
      obtain ⟨us, hus⟩ := condition.exists_printed Power.default.level
      obtain ⟨ts, hts⟩ := ih
      exact ⟨_, .doLoop (hword _) hts (hword _) ho hus hc hm⟩
  | forLoop hfirst htest hnext _ ih =>
      have hexpr (e : Expr) (he : e.Writable structs) := he.exists_printed Power.default.level
      obtain ⟨us, hus⟩ := hfirst.exists_written
      obtain ⟨vs, hvs⟩ := exists_optionally fun e he => hexpr e (htest e he)
      obtain ⟨ws, hws⟩ := exists_optionally fun e he => hexpr e (hnext e he)
      obtain ⟨ts, hts⟩ := ih
      exact ⟨_, .forLoop (hword _) ho hus hvs hm hws hc hts⟩
  | jump j => exact ⟨_, .jump (hword j.word) hm⟩
  | result h =>
      obtain ⟨ts, hts⟩ := exists_optionally fun e he => (h e he).exists_printed Power.default.level
      exact ⟨_, .result (hword _) hts hm⟩

end ShaderLang
