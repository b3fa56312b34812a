/-
**No token is lost.**

A tree keeps of the tokens that it was read from their order and what they say, except for parentheses.
Read from left to right it gives them back: an operator before, between or behind its operands, a type
before what is made of it, and commas between arguments.  Of a literal only the kind is kept as it was
written, and of a built-in type only that there was one; names, the names of members and marks are kept
with their texts.

The extents of a generic type are not kept, so this is shown of tokens without the words for such types.

Main definitions:

* `ShaderLang.Token.shown`, `ShaderLang.shownTokens` — what is kept of tokens;
* `ShaderLang.Expr.yield` — **the tokens of a tree from left to right**;
* `ShaderLang.Token.Kept` — a token from which all that is kept can be told;
* `ShaderLang.Builder.Rooted` — what a tree looks like at the root.

Main results:

* `ShaderLang.Spelled.shown_eq` — tokens that spell a tree are the tokens of the tree;
* `ShaderLang.Builder.Stands.yield_eq` — a node stands for trees with the same tokens only;
* `ShaderLang.Grammar.expression_yield` — **the tokens that an expression was read from are those of the
  tree that its node stands for, up to parentheses**.
-/

import ShaderLang.Proofs.Grammar.Retracing
import ShaderLang.Proofs.Static.Admitted
import ShaderLang.Proofs.Structs.Registration
import ShaderLang.Proofs.Token.Fitting

set_option relaxedAutoImplicit false
set_option autoImplicit false

namespace ShaderLang

/-! ### What is kept of tokens -/

/-- What is kept of a token: its kind, and the text if it matters. -/
abbrev Shown : Type := TokenKind × Option String

/-- The text matters for names, for words for intrinsic functions and for marks. -/
def Token.shown (t : Token) : Shown :=
  match t.kind with
  | .name => (.name, some t.text)
  | .intrinsic => (.intrinsic, some t.text)
  | .mark m => (.mark m, some t.text)
  | kind => (kind, none)

/-- A parenthesis, opening or closing. -/
def TokenKind.isParen : TokenKind → Bool
  | .mark .openParen => true
  | .mark .closeParen => true
  | _ => false

/-- What is kept of tokens without the parentheses. -/
def shownTokens (ts : List Token) : List Shown :=
  (ts.filter fun t => !t.kind.isParen).map Token.shown

section

variable {t : Token} {ts us : List Token}

@[simp] theorem shownTokens_nil : shownTokens [] = [] := rfl

@[simp] theorem shownTokens_append : shownTokens (ts ++ us) = shownTokens ts ++ shownTokens us := by
  simp [shownTokens]

theorem shownTokens_cons :
    shownTokens (t :: ts) =
      if t.kind.isParen then shownTokens ts else t.shown :: shownTokens ts := by
  unfold shownTokens
  cases h : t.kind.isParen <;> simp [h]

end

/-! ### The tokens of a tree -/

/-- How a mark is kept. -/
def Mark.shown (m : Mark) : Shown := (.mark m, some m.spelling)

/-- How a type is kept: a struct with its name. -/
def DataType.shown (structs : Structs) (t : DataType) : Shown :=
  if t.isStruct then (.name, structs.nameOf t.base) else (.typeName, none)

mutual

/-- The tokens of a tree from left to right. -/
def Expr.yield (structs : Structs) : Expr → List Shown
  | .int _ => [(.int, none)]
  | .float _ => [(.float, none)]
  | .string _ => [(.string, none)]
  | .bool value => [(.keyword (if value then .trueWord else .falseWord), none)]
  | .name text => [(.name, some text)]
  | .unary op e => op.mark.shown :: e.yield structs
  | .step .before d e => d.mark.shown :: e.yield structs
  | .step .after d e => e.yield structs ++ [d.mark.shown]
  | .cast type e => type.shown structs :: e.yield structs
  | .construct type es =>
      type.shown structs :: List.intercalate [Mark.comma.shown] (Expr.yields structs es)
  | .binary op e f => e.yield structs ++ op.mark.shown :: f.yield structs
  | .ternary e f g =>
      e.yield structs ++ Mark.question.shown :: (f.yield structs ++ Mark.colon.shown :: g.yield structs)
  | .assign op e f => e.yield structs ++ (op.mark.map Mark.shown).toList ++ f.yield structs
  | .comma e f => e.yield structs ++ Mark.comma.shown :: f.yield structs
  | .intrinsic i es =>
      (.intrinsic, some i.name) :: List.intercalate [Mark.comma.shown] (Expr.yields structs es)
  | .call f es => f.yield structs ++ List.intercalate [Mark.comma.shown] (Expr.yields structs es)
  | .index e f =>
      e.yield structs ++ Mark.openBracket.shown :: (f.yield structs ++ [Mark.closeBracket.shown])
  | .field e text => e.yield structs ++ [Mark.dot.shown, (.ofWord text, some text)]

/-- The tokens of each of some trees. -/
def Expr.yields (structs : Structs) : List Expr → List (List Shown)
  | [] => []
  | e :: es => e.yield structs :: Expr.yields structs es

end

theorem Expr.yields_eq_map (structs : Structs) (es : List Expr) :
    Expr.yields structs es = es.map (Expr.yield structs) := by
  induction es with
  | nil => rw [yields, List.map_nil]
  | cons e es ih => rw [yields, List.map_cons, ih]

/-! ### Tokens that spell a tree -/

/-- The token is what its kind says and is not the word for a generic type. -/
structure Token.Kept (t : Token) : Prop where
  fits : t.Fits
  proper : t.Proper
  plain : Cursor.isGeneric t.kind = false

section

variable {structs : Structs} {t : Token} {ts : List Token}

/-- Only calls begin with a parenthesis. -/
theorem Extension.isParen_eq_false {x : Extension} {m : Mark} (h : x.mark = some m) (hx : x ≠ .call) :
    (TokenKind.mark m).isParen = false := by
  have h := ofMark_of_mark h
  cases m <;> first | rfl | contradiction | exact absurd (Option.some.inj h).symm hx

theorem Leading.isParen_eq_false (op : Leading) : (TokenKind.mark op.mark).isParen = false := by
  have h := op.ofMark_mark
  generalize op.mark = m at h
  cases m <;> first | rfl | contradiction

theorem shown_mark {m : Mark} (h : t.kind = .mark m) (ht : t.Proper) : t.shown = m.shown := by
  rw [Token.shown, h, Mark.shown, ht.mark m h]

/-- An operator is kept. -/
theorem shownTokens_mark {m : Mark} (h : t.kind = .mark m) (hparen : (TokenKind.mark m).isParen = false)
    (ht : t.Proper) : shownTokens (t :: ts) = m.shown :: shownTokens ts := by
  rw [shownTokens_cons, h, hparen, shown_mark h ht]
  rfl

/-- Lists with a comma between each two keep a comma between each two. -/
theorem Separated.shown_eq {tss : List (List Token)} (h : Separated tss ts)
    (hts : ∀ t ∈ ts, t.Proper) :
    shownTokens ts = List.intercalate [Mark.comma.shown] (tss.map shownTokens) := by
  induction h with
  | none => rfl
  | one ts => simp [List.intercalate]
  | @more ts us rest tss c hc _ ih =>
      obtain ⟨-, hcomma, hrest⟩ := by simpa [or_imp, forall_and] using hts
      simp [shownTokens_cons, hc, TokenKind.isParen, shown_mark hc hcomma, ih hrest, List.intercalate]

theorem Enlisted.shown_eq {tss : List (List Token)} (h : Enlisted tss ts) (hts : ∀ t ∈ ts, t.Proper) :
    shownTokens ts = List.intercalate [Mark.comma.shown] (tss.map shownTokens) := by
  cases h with
  | @intro us o c ho hc hus =>
      have hus' : ∀ t ∈ us, t.Proper := fun t ht => hts t (by simp [ht])
      simp [shownTokens_cons, ho, hc, TokenKind.isParen, hus.shown_eq hus']

/-- The arguments of a call keep what their trees say. -/
theorem Enlisted.shown_eq_yields {parts : List (Expr × List Token)}
    (h : Enlisted (parts.map Prod.snd) ts) (hts : ∀ t ∈ ts, t.Kept)
    (hparts : ∀ p ∈ parts, (∀ t ∈ p.2, t.Kept) → shownTokens p.2 = p.1.yield structs) :
    shownTokens ts =
      List.intercalate [Mark.comma.shown] (Expr.yields structs (parts.map Prod.fst)) := by
  have hsub : ∀ p ∈ parts, p.2 ⊆ ts := by
    cases h with
    | intro ho hc hus =>
        intro p hp t ht
        have := hus.subset (List.mem_map_of_mem hp) ht
        simp [this]
  rw [h.shown_eq fun t ht => (hts t ht).proper, Expr.yields_eq_map, List.map_map, List.map_map]
  refine congrArg _ (List.map_congr_left fun p hp => ?_)
  exact hparts p hp fun t ht => hts t (hsub p hp ht)

/-- A type without extents keeps its word. -/
theorem TypeSpelled.shown_eq {type : DataType} {tss : List (List Token)}
    (h : TypeSpelled structs type tss ts) (hfits : structs.size ≤ Structs.capacity)
    (hts : ∀ t ∈ ts, t.Kept) : shownTokens ts = [type.shown structs] := by
  cases h with
  | @word k hk =>
      have hbuiltIn : ((DataType.ofKeyword k.text).getD .void).isStruct = false := by
        cases hkeyword : DataType.ofKeyword k.text with
        | none => rfl
        | some type => exact (DataType.plain_of_ofKeyword hkeyword).1.isStruct
      simp [shownTokens_cons, hk, TokenKind.isParen, Token.shown, DataType.shown, hbuiltIn]
  | @struct k id hk hid =>
      obtain ⟨place, hplace, rfl⟩ := Option.map_eq_some_iff.1 hid
      have hlt : place < Structs.capacity :=
        Nat.lt_of_lt_of_le (Structs.lt_size_of_placeNamed hplace) hfits
      have hname : structs.nameOf (Structs.idOf place) = some k.text := Structs.nameOf_idOf hplace hlt
      simp [shownTokens_cons, hk, TokenKind.isParen, Token.shown, DataType.shown,
        Structs.isStruct_idOf hlt]
      exact hname.symm
  -- words for generic types are not kept
  | bare hw | generic hw =>
      rw [(hts _ List.mem_cons_self).plain] at hw
      contradiction

/-- **Tokens that spell a tree are the tokens of the tree.** -/
theorem Spelled.shown_eq {e : Expr} (h : Spelled structs e ts) (hfits : structs.size ≤ Structs.capacity)
    (hts : ∀ t ∈ ts, t.Kept) : shownTokens ts = e.yield structs := by
  induction h with
  | int ht | float ht | string ht | true ht | false ht | name ht =>
      simp [shownTokens_cons, ht, TokenKind.isParen, Token.shown, Expr.yield]
  | parens ho hc _ ih =>
      obtain ⟨-, hts, -⟩ := by simpa [or_imp, forall_and] using hts
      simp [shownTokens_cons, ho, hc, TokenKind.isParen, ih hts]
  | @leading op _ _ _ ho _ ih =>
      obtain ⟨hmark, hts⟩ := List.forall_mem_cons.1 hts
      rw [shownTokens_mark ho op.isParen_eq_false hmark.proper, ih hts]
      cases op with
      | unary op => rw [Leading.apply, Expr.yield, Leading.mark]
      | step d => rw [Leading.apply, Expr.yield, Leading.mark]
  | cast ho htype _ hc _ _ ih =>
      obtain ⟨-, hks, -, hts⟩ := by simpa [or_imp, forall_and] using hts
      simp [shownTokens_cons, ho, hc, TokenKind.isParen, htype.shown_eq hfits hks, ih hts, Expr.yield]
  | construct htype _ _ harguments _ ih =>
      obtain ⟨hks, hts⟩ := List.forall_mem_append.1 hts
      simp [htype.shown_eq hfits hks, harguments.shown_eq_yields hts ih, Expr.yield]
  | intrinsic hk hi _ harguments ih =>
      obtain ⟨-, hts⟩ := List.forall_mem_cons.1 hts
      simp [shownTokens_cons, hk, TokenKind.isParen, Token.shown, Intrinsic.name_of_ofName hi,
        harguments.shown_eq_yields hts ih, Expr.yield]
  | stranger hk hi =>
      -- a text gives no such word, since it was found in the catalogue
      have hfit := (hts _ List.mem_cons_self).fits
      simp [Token.Fits, hk, hi] at hfit
  | @binary op _ _ _ _ _ ho _ _ ihl ihr =>
      obtain ⟨hts, hmark, hus⟩ := by simpa [or_imp, forall_and] using hts
      have hparen := Extension.isParen_eq_false (x := .binary op) rfl nofun
      simp [shownTokens_mark ho hparen hmark.proper, ihl hts, ihr hus, Expr.yield]
  | ternary hq hc _ _ _ ihc ihy ihn =>
      obtain ⟨hts, hquestion, hus, hcolon, hvs⟩ := by simpa [or_imp, forall_and] using hts
      simp [shownTokens_mark hq rfl hquestion.proper, shownTokens_mark hc rfl hcolon.proper, ihc hts,
        ihy hus, ihn hvs, Expr.yield]
  | @assign op _ _ _ _ _ _ hm ho _ _ iht ihv =>
      obtain ⟨hts, hmark, hus⟩ := by simpa [or_imp, forall_and] using hts
      have hparen := Extension.isParen_eq_false (x := .assign op) hm nofun
      simp [shownTokens_mark ho hparen hmark.proper, iht hts, ihv hus, hm, Expr.yield]
  | comma ho _ _ ihl ihr =>
      obtain ⟨hts, hmark, hus⟩ := by simpa [or_imp, forall_and] using hts
      simp [shownTokens_mark ho rfl hmark.proper, ihl hts, ihr hus, Expr.yield]
  | @after d _ _ _ ho _ ih =>
      obtain ⟨hts, hmark⟩ := by simpa [or_imp, forall_and] using hts
      have hparen := Extension.isParen_eq_false (x := .step d) rfl nofun
      simp [shownTokens_mark ho hparen hmark.proper, ih hts, Expr.yield]
  | index ho hc _ _ iha ihp =>
      obtain ⟨hts, hopen, hus, hclose⟩ := by simpa [or_imp, forall_and] using hts
      simp [shownTokens_mark ho rfl hopen.proper, shownTokens_mark hc rfl hclose.proper, iha hts,
        ihp hus, Expr.yield]
  | @field _ d k _ hd hk _ ih =>
      obtain ⟨hts, hdot, hname⟩ := by simpa [or_imp, forall_and] using hts
      have hword := hname.proper.word hk
      have hshown : k.shown = (.ofWord k.text, some k.text) := by
        rw [← hword]
        rcases hk with hk | hk <;> rw [Token.shown, hk]
      have hparen : k.kind.isParen = Bool.false := by
        rcases hk with hk | hk <;> rw [hk] <;> rfl
      simp [shownTokens_mark hd rfl hdot.proper, shownTokens_cons, hparen, hshown, ih hts, Expr.yield]
  | call _ _ harguments ihf ih =>
      obtain ⟨hts, hus⟩ := List.forall_mem_append.1 hts
      simp [ihf hts, harguments.shown_eq_yields hus ih, Expr.yield]

end

/-! ### The trees of one node -/

/-- A chain has the items that it has. -/
theorem Arena.Chain.unique {a : Arena} {list : Option NodeId} {items items' : List NodeId}
    (h : a.Chain list items) (h' : a.Chain list items') : items = items' := by
  induction h generalizing items' with
  | none => cases h'; rfl
  | link _ here ih =>
      cases h' with
      | link before' here' =>
          cases here.symm.trans here'
          rw [ih before']

namespace Builder

variable {b : Builder}

/-- What a tree looks like at the root if a node with these contents stands for it. -/
def Rooted (b : Builder) : Node → Expr → Prop
  | .int .., e => ∃ text, e = .int text
  | .float _, e => ∃ text, e = .float text
  | .string _, e => ∃ text, e = .string text
  | .bool value, e => e = .bool value
  | .name n, e => ∃ text, e = .name text ∧ b.names.text? n = some text
  | .unary op i, e => ∃ f, e = .unary op f ∧ b.Stands i f
  | .step p d i, e => ∃ f, e = .step p d f ∧ b.Stands i f
  | .cast type i, e => ∃ f, e = .cast type f ∧ b.Stands i f
  | .binary op i j, e => ∃ f g, e = .binary op f g ∧ b.Stands i f ∧ b.Stands j g
  | .ternary i j k, e => ∃ f g h, e = .ternary f g h ∧ b.Stands i f ∧ b.Stands j g ∧ b.Stands k h
  | .assign op i j, e => ∃ f g, e = .assign op f g ∧ b.Stands i f ∧ b.Stands j g
  | .comma i j, e => ∃ f g, e = .comma f g ∧ b.Stands i f ∧ b.Stands j g
  | .index i j, e => ∃ f g, e = .index f g ∧ b.Stands i f ∧ b.Stands j g
  | .field i n, e => ∃ f text, e = .field f text ∧ b.Stands i f ∧ b.names.text? n = some text
  | .construct type list, e => ∃ parts : List (NodeId × Expr), e = .construct type (parts.map Prod.snd) ∧
      b.arena.Chain list (parts.map Prod.fst) ∧ ∀ p ∈ parts, b.Stands p.1 p.2
  | .intrinsicCall i list, e => ∃ parts : List (NodeId × Expr), e = .intrinsic i (parts.map Prod.snd) ∧
      b.arena.Chain list (parts.map Prod.fst) ∧ ∀ p ∈ parts, b.Stands p.1 p.2
  | .call i list, e => ∃ f, ∃ parts : List (NodeId × Expr), e = .call f (parts.map Prod.snd) ∧
      b.Stands i f ∧ b.arena.Chain list (parts.map Prod.fst) ∧ ∀ p ∈ parts, b.Stands p.1 p.2
  | _, _ => False

/-- What a node stands for is told by its contents. -/
theorem Stands.rooted {id : NodeId} {e : Expr} {n : Node} (h : b.Stands id e)
    (hn : b.arena.node? id = some n) : b.Rooted n e := by
  cases h with
  | int here | float here | string here | bool here =>
      cases here.symm.trans hn
      simp [Rooted]
  | name here known =>
      cases here.symm.trans hn
      exact ⟨_, rfl, known⟩
  | unary here operand | step here operand | cast here operand =>
      cases here.symm.trans hn
      exact ⟨_, rfl, operand⟩
  | binary here left right | assign here left right | comma here left right | index here left right =>
      cases here.symm.trans hn
      exact ⟨_, _, rfl, left, right⟩
  | ternary here condition yes no =>
      cases here.symm.trans hn
      exact ⟨_, _, _, rfl, condition, yes, no⟩
  | field here base known =>
      cases here.symm.trans hn
      exact ⟨_, _, rfl, base, known⟩
  | construct here chain arguments | intrinsic here chain arguments =>
      cases here.symm.trans hn
      exact ⟨_, rfl, chain, arguments⟩
  | call here callee chain arguments =>
      cases here.symm.trans hn
      exact ⟨_, _, rfl, callee, chain, arguments⟩

/-- Items that are the same one by one. -/
theorem map_yield_eq (structs : Structs) {parts parts' : List (NodeId × Expr)}
    (hfst : parts.map Prod.fst = parts'.map Prod.fst)
    (h : ∀ p ∈ parts, ∀ f, b.Stands p.1 f → p.2.yield structs = f.yield structs)
    (h' : ∀ p ∈ parts', b.Stands p.1 p.2) :
    Expr.yields structs (parts.map Prod.snd) = Expr.yields structs (parts'.map Prod.snd) := by
  induction parts generalizing parts' with
  | nil =>
      cases parts' with
      | nil => rfl
      | cons => contradiction
  | cons p parts ih =>
      cases parts' with
      | nil => contradiction
      | cons q parts' =>
          obtain ⟨hpq, hfst⟩ := List.cons.inj hfst
          have hp := h p List.mem_cons_self q.2 (hpq ▸ h' q List.mem_cons_self)
          have hparts := ih hfst (fun r hr => h r (List.mem_cons_of_mem p hr))
            fun r hr => h' r (List.mem_cons_of_mem q hr)
          rw [List.map_cons, List.map_cons, Expr.yields, Expr.yields, hp, hparts]

/-- **A node stands for trees with the same tokens only**; they differ in the texts of literals at
most. -/
theorem Stands.yield_eq {id : NodeId} {e f : Expr} (structs : Structs) (h : b.Stands id e)
    (h' : b.Stands id f) : e.yield structs = f.yield structs := by
  induction h generalizing f with
  | int here | float here | string here =>
      obtain ⟨text, rfl⟩ := h'.rooted here
      rw [Expr.yield, Expr.yield]
  | bool here =>
      obtain rfl := h'.rooted here
      rfl
  | name here known =>
      obtain ⟨text, rfl, known'⟩ := h'.rooted here
      rw [Option.some.inj (known.symm.trans known')]
  | unary here _ ih =>
      obtain ⟨f, rfl, operand⟩ := h'.rooted here
      rw [Expr.yield, Expr.yield, ih operand]
  | @step _ _ p _ _ here _ ih =>
      obtain ⟨f, rfl, operand⟩ := h'.rooted here
      cases p <;> rw [Expr.yield, Expr.yield, ih operand]
  | cast here _ ih =>
      obtain ⟨f, rfl, operand⟩ := h'.rooted here
      rw [Expr.yield, Expr.yield, ih operand]
  | binary here _ _ ihl ihr | assign here _ _ ihl ihr | comma here _ _ ihl ihr
  | index here _ _ ihl ihr =>
      obtain ⟨f, g, rfl, left, right⟩ := h'.rooted here
      rw [Expr.yield, Expr.yield, ihl left, ihr right]
  | ternary here _ _ _ ihc ihy ihn =>
      obtain ⟨f, g, h, rfl, condition, yes, no⟩ := h'.rooted here
      rw [Expr.yield, Expr.yield, ihc condition, ihy yes, ihn no]
  | construct here chain _ ih | intrinsic here chain _ ih =>
      obtain ⟨parts, rfl, chain', arguments⟩ := h'.rooted here
      have hparts := map_yield_eq structs (chain.unique chain') (fun p hp f => ih p hp) arguments
      rw [Expr.yield, Expr.yield, hparts]
  | call here _ chain _ ihf ih =>
      obtain ⟨f, parts, rfl, callee, chain', arguments⟩ := h'.rooted here
      have hparts := map_yield_eq structs (chain.unique chain') (fun p hp f => ih p hp) arguments
      rw [Expr.yield, Expr.yield, ihf callee, hparts]
  | field here _ known ih =>
      obtain ⟨f, text, rfl, base, known'⟩ := h'.rooted here
      rw [Expr.yield, Expr.yield, ih base, Option.some.inj (known.symm.trans known')]

end Builder

namespace Grammar

open ShaderLang.Parser

/-- **The tokens that an expression was read from are those of the tree that its node stands for**, up
to parentheses: none is lost, none is added and none changes its place.  The tokens are those of a
source text without generic types, read from any of them on and at any level, and there is a number for
every struct. -/
theorem expression_yield {source : String} {file : UInt16} {tokens : TokenStream}
    (hsource : TokenStream.ofSource source file = .ok tokens)
    (hplain : ∀ x ∈ tokens.tokens, Cursor.isGeneric x.kind = false) {s t : ParseState}
    (hs : s.cursor.rest <:+ tokens.tokens) (hfits : s.builder.structs.size ≤ Structs.capacity)
    {level : Power} {id : NodeId} (h : expression level s = .ok id t) :
    ∃ read, s.cursor.rest = read ++ t.cursor.rest ∧ (∃ e, t.builder.Stands id e) ∧
      ∀ e, t.builder.Stands id e → shownTokens read = e.yield t.builder.structs := by
  obtain ⟨read, hread, hgrows, e, hbuilt, hspelled⟩ := consumes_expression level s id t h
  have hkept : ∀ x ∈ read, x.Kept := by
    intro x hx
    have hmem : x ∈ tokens.tokens := hs.subset (hread ▸ List.mem_append_left _ hx)
    exact ⟨TokenStream.fits_of_ofSource hsource x hmem, TokenStream.proper_of_ofSource hsource x hmem,
      hplain x hmem⟩
  refine ⟨read, hread, ⟨e, hbuilt.stands⟩, fun f hf => ?_⟩
  -- the texts of literals may be others in `f`, but the tokens kept are the same
  rw [hgrows.structs, hspelled.shown_eq hfits hkept]
  exact hbuilt.stands.yield_eq _ hf

/-- A conversion to a struct, arguments, a choice and parentheses that are not needed. -/
def convoluted : String := "(S) a[i + 1].xyz = f(b, ((c) ? -d : e++) * 2);"

/-- In front of the tokens, with one struct. -/
def besideStruct (tokens : TokenStream) : ParseState :=
  ⟨.ofStream tokens, { Builder.start .empty with structs := (Structs.empty.register "S").2 }, 0⟩

/-- Reading `(S) a[i + 1].xyz = f(b, ((c) ? -d : e++) * 2)`, up to the semicolon. -/
theorem expression_yield_convoluted :
    ∃ tokens id t, TokenStream.ofSource convoluted 0 = .ok tokens ∧
      expression .default (besideStruct tokens) = .ok id t ∧
      t.cursor.rest.map Token.kind = [.mark .semicolon] ∧
      ∃ read, tokens.tokens = read ++ t.cursor.rest ∧ (∃ e, t.builder.Stands id e) ∧
        ∀ e, t.builder.Stands id e → shownTokens read = e.yield t.builder.structs := by
  have hrun : ((TokenStream.ofSource convoluted 0).toOption.any fun tokens =>
      tokens.tokens.all (fun x => !Cursor.isGeneric x.kind) &&
        match expression .default (besideStruct tokens) with
        | .ok _ t => t.cursor.rest.map Token.kind == [.mark .semicolon]
        | .error .. => false) = true := by
    decide +kernel
  cases hsource : TokenStream.ofSource convoluted 0 with
  | error =>
      rw [hsource] at hrun
      contradiction
  | ok tokens =>
      rw [hsource] at hrun
      obtain ⟨hplain, hread⟩ := Bool.and_eq_true_iff.1 hrun
      split at hread
      · next id t ht =>
          have hplain : ∀ x ∈ tokens.tokens, Cursor.isGeneric x.kind = false := by simpa using hplain
          have hfits : (Structs.empty.register "S").2.size ≤ Structs.capacity := by decide
          have hyield := expression_yield (s := besideStruct tokens) hsource hplain
            (List.suffix_refl _) hfits ht
          exact ⟨tokens, id, t, rfl, ht, beq_iff_eq.1 hread, hyield⟩
      · contradiction

end Grammar

end ShaderLang
