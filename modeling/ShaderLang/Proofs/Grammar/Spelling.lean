/-
**The tokens that spell an expression.**

What an expression was read from is more than what it would be written as: there may be parentheses that
nobody would write, types that are not named by a word, names that are names of structs as well, and
words for intrinsic functions that there are not.  Where an operator stands needs no level here, since
the tokens have been read already and it is known which tree they were taken for.

A generic type takes over the values of its extents and not the expressions, so the tokens between `<`
and `>` spell expressions that are not part of the tree.

Main definitions:

* `ShaderLang.Leading.mark`, `ShaderLang.Extension.mark` — the mark that an operator is written as;
* `ShaderLang.Followed`, `ShaderLang.Enlisted` — items with commas, and arguments between parentheses;
* `ShaderLang.TypeSpelled` — the tokens that spell a type;
* `ShaderLang.Spelled` — **the tokens that spell an expression**;
* `ShaderLang.Unstopped` — tokens without a semicolon and without the end.

Main results:

* `ShaderLang.Followed.separated` — items that have a comma behind them, and one more;
* `ShaderLang.Spelled.unstopped` — no expression goes beyond a semicolon or the end.
-/

import ShaderLang.Proofs.Grammar.Printing

set_option relaxedAutoImplicit false
set_option autoImplicit false

namespace ShaderLang

/-! ### The marks of operators -/

/-- The mark that an operator is written as. -/
def Leading.mark : Leading → Mark
  | unary op => op.mark
  | step direction => direction.mark

theorem Leading.ofMark_mark (op : Leading) : ofMark op.mark = some op := by
  cases op with
  | unary op => exact op.ofMark_mark
  | step d => exact d.leading_mark

/-- No other mark is taken for the operator. -/
theorem Leading.mark_of_ofMark {op : Leading} {m : Mark} (h : ofMark m = some op) : op.mark = m := by
  cases m <;> cases h <;> rfl

/-- The mark that an extension begins with. -/
def Extension.mark : Extension → Option Mark
  | binary op => some op.mark
  | assign op => op.mark
  | ternary => some .question
  | comma => some .comma
  | step direction => some direction.mark
  | element => some .openBracket
  | call => some .openParen
  | field => some .dot

theorem Extension.ofMark_of_mark {x : Extension} {m : Mark} (h : x.mark = some m) :
    ofMark m = some x := by
  cases x with
  | binary op => cases h; exact op.ofMark_mark
  | assign op => exact AssignOp.ofMark_mark h
  | step d => cases h; exact d.ofMark_mark
  | _ => cases h; rfl

/-- No other mark is taken for the extension. -/
theorem Extension.mark_of_ofMark {x : Extension} {m : Mark} (h : ofMark m = some x) :
    x.mark = some m := by
  cases m <;> cases h <;> rfl

/-! ### Lists of tokens -/

/-- Lists of tokens with a comma behind each. -/
inductive Followed : List (List Token) → List Token → Prop where
  | nil : Followed [] []
  | snoc {tss : List (List Token)} {us ts : List Token} {c : Token} (h : Followed tss us)
      (hc : c.kind = .mark .comma) : Followed (tss ++ [ts]) (us ++ (ts ++ [c]))

/-- Behind lists with a comma each there may stand more of them. -/
theorem Followed.append {tss vss : List (List Token)} {us vs ws : List Token} (h : Followed tss us)
    (hv : Separated (vs :: vss) ws) : Separated (tss ++ vs :: vss) (us ++ ws) := by
  induction h generalizing vs vss ws with
  | nil => exact hv
  | snoc _ hc ih => simpa using ih (.more hc hv)

/-- One more list behind them ends the lists. -/
theorem Followed.separated {tss : List (List Token)} {us : List Token} (h : Followed tss us)
    (ts : List Token) : Separated (tss ++ [ts]) (us ++ ts) :=
  h.append (.one ts)

/-- The tokens of a list are those of its items, and commas. -/
theorem Separated.mem {tss : List (List Token)} {us : List Token} (h : Separated tss us) {x : Token}
    (hx : x ∈ us) : (∃ ts ∈ tss, x ∈ ts) ∨ x.kind = .mark .comma := by
  induction h with
  | none => contradiction
  | one ts => exact .inl ⟨ts, List.mem_singleton_self ts, hx⟩
  | @more ts _ _ _ c hc _ ih =>
      rcases List.mem_append.1 hx with hx | hx
      · exact .inl ⟨ts, List.mem_cons_self, hx⟩
      · rcases List.mem_cons.1 hx with rfl | hx
        · exact .inr hc
        · exact (ih hx).imp_left fun ⟨us, hus, hx⟩ => ⟨us, List.mem_cons_of_mem ts hus, hx⟩

/-- Lists of tokens between parentheses, with a comma between each two. -/
inductive Enlisted : List (List Token) → List Token → Prop where
  | intro {tss : List (List Token)} {us : List Token} {o c : Token} (ho : o.kind = .mark .openParen)
      (hc : c.kind = .mark .closeParen) (hus : Separated tss us) : Enlisted tss (o :: (us ++ [c]))

/-! ### Types -/

/-- The tokens that spell a type: a word that names one, the name of a struct, or a word for a generic
type, alone or with a component type and extents. -/
inductive TypeSpelled (structs : Structs) : DataType → List (List Token) → List Token → Prop where
  | word {k : Token} (hk : k.kind = .typeName) :
      TypeSpelled structs ((DataType.ofKeyword k.text).getD .void) [] [k]
  | struct {k : Token} {id : UInt32} (hk : k.kind = .name) (hid : structs.lookup k.text = some id) :
      TypeSpelled structs (.struct id) [] [k]
  | bare {type : DataType} {w : Token} (hw : Cursor.isGeneric w.kind = true) :
      TypeSpelled structs type [] [w]
  | generic {type : DataType} {extents : List (List Token)} {w l k c g : Token} {ts : List Token}
      (hw : Cursor.isGeneric w.kind = true) (hl : l.kind = .mark .less) (hk : k.kind = .typeName)
      (hc : c.kind = .mark .comma) (hts : Separated extents ts) (hg : g.kind = .mark .greater) :
      TypeSpelled structs type extents (w :: l :: k :: c :: (ts ++ [g]))

/-! ### Expressions -/

/-- The tokens that spell an expression. -/
inductive Spelled (structs : Structs) : Expr → List Token → Prop where
  | int {t : Token} (ht : t.kind = .int) : Spelled structs (.int t.text) [t]
  | float {t : Token} (ht : t.kind = .float) : Spelled structs (.float t.text) [t]
  | string {t : Token} (ht : t.kind = .string) : Spelled structs (.string t.text) [t]
  | true {t : Token} (ht : t.kind = .keyword .trueWord) : Spelled structs (.bool true) [t]
  | false {t : Token} (ht : t.kind = .keyword .falseWord) : Spelled structs (.bool false) [t]
  | name {t : Token} (ht : t.kind = .name) : Spelled structs (.name t.text) [t]
  | parens {e : Expr} {o c : Token} {ts : List Token} (ho : o.kind = .mark .openParen)
      (hc : c.kind = .mark .closeParen) (inner : Spelled structs e ts) :
      Spelled structs e (o :: (ts ++ [c]))
  | leading {op : Leading} {e : Expr} {o : Token} {ts : List Token} (ho : o.kind = .mark op.mark)
      (operand : Spelled structs e ts) : Spelled structs (op.apply e) (o :: ts)
  | cast {type : DataType} {extents : List (Expr × List Token)} {e : Expr} {o c : Token}
      {ks ts : List Token} (ho : o.kind = .mark .openParen)
      (htype : TypeSpelled structs type (extents.map Prod.snd) ks)
      (hextents : ∀ p ∈ extents, Spelled structs p.1 p.2) (hc : c.kind = .mark .closeParen)
      (operand : Spelled structs e ts) : Spelled structs (.cast type e) (o :: (ks ++ c :: ts))
  | construct {type : DataType} {extents parts : List (Expr × List Token)} {ks ts : List Token}
      (htype : TypeSpelled structs type (extents.map Prod.snd) ks)
      (hextents : ∀ p ∈ extents, Spelled structs p.1 p.2)
      (arguments : ∀ p ∈ parts, Spelled structs p.1 p.2) (hts : Enlisted (parts.map Prod.snd) ts) :
      Spelled structs (.construct type (parts.map Prod.fst)) (ks ++ ts)
  | intrinsic {i : Intrinsic} {parts : List (Expr × List Token)} {k : Token} {ts : List Token}
      (hk : k.kind = .intrinsic) (hi : Intrinsic.ofName k.text = some i)
      (arguments : ∀ p ∈ parts, Spelled structs p.1 p.2) (hts : Enlisted (parts.map Prod.snd) ts) :
      Spelled structs (.intrinsic i (parts.map Prod.fst)) (k :: ts)
  | stranger {parts : List (Expr × List Token)} {k : Token} {ts : List Token}
      (hk : k.kind = .intrinsic) (hi : Intrinsic.ofName k.text = none)
      (arguments : ∀ p ∈ parts, Spelled structs p.1 p.2) (hts : Enlisted (parts.map Prod.snd) ts) :
      Spelled structs (.call (.name k.text) (parts.map Prod.fst)) (k :: ts)
  | binary {op : BinaryOp} {e f : Expr} {o : Token} {ts us : List Token}
      (ho : o.kind = .mark op.mark) (left : Spelled structs e ts) (right : Spelled structs f us) :
      Spelled structs (.binary op e f) (ts ++ o :: us)
  | ternary {e f g : Expr} {q c : Token} {ts us vs : List Token} (hq : q.kind = .mark .question)
      (hc : c.kind = .mark .colon) (condition : Spelled structs e ts) (yes : Spelled structs f us)
      (no : Spelled structs g vs) : Spelled structs (.ternary e f g) (ts ++ q :: (us ++ c :: vs))
  | assign {op : AssignOp} {m : Mark} {e f : Expr} {o : Token} {ts us : List Token}
      (hm : op.mark = some m) (ho : o.kind = .mark m) (target : Spelled structs e ts)
      (value : Spelled structs f us) :
      Spelled structs (.assign op e f) (ts ++ o :: us)
  | comma {e f : Expr} {o : Token} {ts us : List Token} (ho : o.kind = .mark .comma)
      (left : Spelled structs e ts) (right : Spelled structs f us) :
      Spelled structs (.comma e f) (ts ++ o :: us)
  | after {d : Direction} {e : Expr} {o : Token} {ts : List Token} (ho : o.kind = .mark d.mark)
      (operand : Spelled structs e ts) : Spelled structs (.step .after d e) (ts ++ [o])
  | index {e f : Expr} {o c : Token} {ts us : List Token} (ho : o.kind = .mark .openBracket)
      (hc : c.kind = .mark .closeBracket) (array : Spelled structs e ts)
      (position : Spelled structs f us) : Spelled structs (.index e f) (ts ++ o :: (us ++ [c]))
  | field {e : Expr} {d k : Token} {ts : List Token} (hd : d.kind = .mark .dot)
      (hk : k.kind = .name ∨ k.kind = .intrinsic) (base : Spelled structs e ts) :
      Spelled structs (.field e k.text) (ts ++ [d, k])
  | call {f : Expr} {parts : List (Expr × List Token)} {ts us : List Token}
      (callee : Spelled structs f ts) (arguments : ∀ p ∈ parts, Spelled structs p.1 p.2)
      (hus : Enlisted (parts.map Prod.snd) us) :
      Spelled structs (.call f (parts.map Prod.fst)) (ts ++ us)

/-! ### Where expressions end -/

/-- A semicolon or the end. -/
def TokenKind.isStop : TokenKind → Bool
  | .mark .semicolon => true
  | .endOfFile => true
  | _ => false

theorem Leading.isStop_eq_false (op : Leading) : (TokenKind.mark op.mark).isStop = false := by
  have h := op.ofMark_mark
  generalize op.mark = m at h
  cases m <;> first | rfl | contradiction

theorem Extension.isStop_eq_false {x : Extension} {m : Mark} (h : x.mark = some m) :
    (TokenKind.mark m).isStop = false := by
  have h := ofMark_of_mark h
  cases m <;> first | rfl | contradiction

/-- The tokens hold neither a semicolon nor the end. -/
def Unstopped (ts : List Token) : Prop := ∀ x ∈ ts, x.kind.isStop = false

namespace Unstopped

variable {t : Token} {ts us : List Token} {tss : List (List Token)}

@[simp] theorem nil : Unstopped [] := nofun

@[simp] theorem cons_iff : Unstopped (t :: ts) ↔ t.kind.isStop = false ∧ Unstopped ts :=
  List.forall_mem_cons

@[simp] theorem append_iff : Unstopped (ts ++ us) ↔ Unstopped ts ∧ Unstopped us :=
  List.forall_mem_append

theorem separated (h : Separated tss us) (htss : ∀ ts ∈ tss, Unstopped ts) : Unstopped us := by
  intro x hx
  rcases h.mem hx with ⟨ts, hts, hx⟩ | hx
  · exact htss ts hts x hx
  · rw [hx]
    rfl

theorem enlisted (h : Enlisted tss us) (htss : ∀ ts ∈ tss, Unstopped ts) : Unstopped us := by
  cases h with
  | intro ho hc hus => simp [ho, hc, TokenKind.isStop, separated hus htss]

theorem generic {kind : TokenKind} (h : Cursor.isGeneric kind = true) : kind.isStop = false := by
  unfold Cursor.isGeneric at h
  split at h
  · rfl
  · rfl
  · contradiction

theorem typeSpelled {structs : Structs} {type : DataType} (h : TypeSpelled structs type tss us)
    (htss : ∀ ts ∈ tss, Unstopped ts) : Unstopped us := by
  cases h with
  | word hk => simp [hk, TokenKind.isStop]
  | struct hk _ => simp [hk, TokenKind.isStop]
  | bare hw => simp [generic hw]
  | generic hw hl hk hc hts hg =>
      exact cons_iff.2 ⟨generic hw, by simp [hl, hk, hc, hg, TokenKind.isStop, separated hts htss]⟩

/-- What is known of the parts of a list, one by one. -/
theorem parts {parts : List (Expr × List Token)} (h : ∀ p ∈ parts, Unstopped p.2) :
    ∀ ts ∈ parts.map Prod.snd, Unstopped ts := by
  intro ts hts
  obtain ⟨p, hp, rfl⟩ := List.mem_map.1 hts
  exact h p hp

end Unstopped

/-- **No expression goes beyond a semicolon or the end.** -/
theorem Spelled.unstopped {structs : Structs} {e : Expr} {ts : List Token}
    (h : Spelled structs e ts) : Unstopped ts := by
  induction h with
  | int ht | float ht | string ht | true ht | false ht | name ht => simp [ht, TokenKind.isStop]
  | parens ho hc _ ih => simp [ho, hc, ih, TokenKind.isStop]
  | leading ho _ ih => simp [ho, Leading.isStop_eq_false, ih]
  | cast ho htype _ hc _ ihe ih =>
      simp [ho, hc, ih, TokenKind.isStop, Unstopped.typeSpelled htype (.parts ihe)]
  | construct htype _ _ hts ihe ih =>
      simp [Unstopped.typeSpelled htype (.parts ihe), Unstopped.enlisted hts (.parts ih)]
  | intrinsic hk _ _ hts ih | stranger hk _ _ hts ih =>
      simp [hk, TokenKind.isStop, Unstopped.enlisted hts (.parts ih)]
  | @binary op _ _ _ _ _ ho _ _ ihl ihr =>
      simp [ho, Extension.isStop_eq_false (x := .binary op) rfl, ihl, ihr]
  | @assign op _ _ _ _ _ _ hm ho _ _ ihl ihr =>
      simp [ho, Extension.isStop_eq_false (x := .assign op) hm, ihl, ihr]
  | ternary hq hc _ _ _ ihc ihy ihn => simp [hq, hc, ihc, ihy, ihn, TokenKind.isStop]
  | comma ho _ _ ihl ihr => simp [ho, ihl, ihr, TokenKind.isStop]
  | @after d _ _ _ ho _ ih => simp [ho, Extension.isStop_eq_false (x := .step d) rfl, ih]
  | index ho hc _ _ iha ihp => simp [ho, hc, iha, ihp, TokenKind.isStop]
  | field hd hk _ ih => rcases hk with hk | hk <;> simp [hd, hk, ih, TokenKind.isStop]
  | call _ _ hus ihf ih => simp [ihf, Unstopped.enlisted hus (.parts ih)]

end ShaderLang
