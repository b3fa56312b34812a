/-
**How constructs are written.**

A construct is written as tokens of its own, names, and the constructs inside it, in a fixed order: its
production.  Other tokens may stand in between: parentheses that leave no trace, qualifiers, what the
extents of a type are computed from, and statements that broke a rule.

A node is laid out over some tokens if the pieces of its production are found in them one behind the
other and the nodes among them are laid out over their own parts of the tokens.  What a rule has read so
far is covered in the same way by pieces that are not a production yet.

Main definitions:

* `ShaderLang.Piece`, `ShaderLang.Node.production` — **what a construct is written as**;
* `ShaderLang.Spread` — pieces one behind the other;
* `ShaderLang.Arena.Laid`, `ShaderLang.Arena.Covers` — a node laid out over tokens, and pieces whose
  nodes are;
* `ShaderLang.Arena.Loosens` — pieces that cover whatever others do.

Main results:

* `ShaderLang.Node.inside_production` — the nodes of a production are the children, in the same order;
* `ShaderLang.Arena.covers_append_iff` — pieces behind pieces;
* `ShaderLang.Arena.covers_node_iff`, `ShaderLang.Arena.laid_iff_covers` — a node stands for its
  production;
* `ShaderLang.Arena.Covers.mono` — **a layout does not change while more is built**.
-/

import ShaderLang.Grammar.Expression
import ShaderLang.Proofs.Arena.Extension
import ShaderLang.Proofs.Grammar.Writing

set_option relaxedAutoImplicit false
set_option autoImplicit false

namespace ShaderLang

/-! ### Productions -/

/-- A piece of a production: a token of one of some kinds, the token of a name, or a construct inside.
A token with its text is a name as long as it has no number. -/
inductive Piece where
  | token (kinds : List TokenKind)
  | text (kinds : List TokenKind) (text : String)
  | name (name : NameId)
  | node (id : NodeId)

namespace Piece

/-- A mark. -/
def mark (m : Mark) : Piece := token [.mark m]

/-- A reserved word. -/
def word (k : Keyword) : Piece := token [.keyword k]

/-- A type, of which only the beginning matters. -/
def type : Piece := token Grammar.typeStart

/-- A construct, if there is one. -/
def nodes (id : Option NodeId) : List Piece := id.toList.map node

/-- Arguments between parentheses. -/
def enlisted (list : Option NodeId) : List Piece :=
  mark .openParen :: (nodes list ++ [mark .closeParen])

/-- What stands behind a mark, or the mark is missing as well. -/
def behind (m : Mark) : Option NodeId → List Piece
  | some id => [mark m, node id]
  | none => []

/-- What stands behind a word, or the word is missing as well. -/
def following (k : Keyword) : Option NodeId → List Piece
  | some id => [word k, node id]
  | none => []

/-- What a counting loop begins with; a statement has its semicolon itself. -/
def opening : Option NodeId → List Piece
  | some id => [node id]
  | none => [mark .semicolon]

/-- The size of an array. -/
def sized : Option NodeId → List Piece
  | some size => [mark .openBracket, node size, mark .closeBracket]
  | none => []

/-- The construct that the piece is, if it is one. -/
def node? : Piece → Option NodeId
  | node id => some id
  | _ => none

/-- The token is the piece. -/
def Fits (names : Names) : Piece → Token → Prop
  | token kinds, t => t.kind ∈ kinds
  | text kinds word, t => t.kind ∈ kinds ∧ t.text = word
  | name n, t => t.kind ∈ [.name, .intrinsic] ∧ names.text? n = some t.text
  | node _, _ => False

/-- The constructs among pieces. -/
def inside (pieces : List Piece) : List NodeId := pieces.filterMap node?

@[simp] theorem inside_nil : inside [] = [] := rfl

@[simp] theorem inside_node (id : NodeId) (pieces : List Piece) :
    inside (node id :: pieces) = id :: inside pieces := rfl

/-- No token is a construct. -/
theorem inside_of_fits {names : Names} {piece : Piece} {t : Token} (h : piece.Fits names t)
    (pieces : List Piece) : inside (piece :: pieces) = inside pieces := by
  cases piece with
  | node id => exact h.elim
  | _ => rfl

end Piece

namespace ListKind

open Piece

/-- What separates the items of a sequence. -/
def separator : ListKind → List Piece
  | arguments | initializers | declarators | structDeclarators | parameters => [mark .comma]
  | structMembers | statements | externals => []

/-- What stands in front of one more item. -/
def front (kind : ListKind) : Option NodeId → List Piece
  | some previous => node previous :: kind.separator
  | none => []

/-- In front of the first item no separator stands. -/
theorem front_sublist (kind : ListKind) (list : Option NodeId) :
    (kind.front list).Sublist (nodes list ++ kind.separator) := by
  cases list with
  | none => exact List.nil_sublist _
  | some _ => exact List.Sublist.refl _

/-- Without a separator the sequence stands in front of one more item. -/
theorem front_eq {kind : ListKind} (h : kind.separator = []) (list : Option NodeId) :
    kind.front list = nodes list := by
  cases list with
  | none => rfl
  | some previous => rw [front, h]; rfl

end ListKind

namespace Node

open Piece in
/-- **What a construct is written as.**  A declaration of several variables has its type in front of the
first one, so the type belongs to the statement. -/
def production : Node → List Piece
  | int .. => [token [.int]]
  | float _ => [token [.float]]
  | bool value => [Piece.word (if value then .trueWord else .falseWord)]
  | string _ => [token [.string]]
  | name n => [Piece.name n]
  | index array position => [node array, mark .openBracket, node position, mark .closeBracket]
  | step .before direction operand => [mark direction.mark, node operand]
  | step .after direction operand => [node operand, mark direction.mark]
  | unary op operand => [mark op.mark, node operand]
  | cast _ operand => [mark .openParen, Piece.type, mark .closeParen, node operand]
  | binary op left right => [node left, mark op.mark, node right]
  | ternary condition yes no =>
      [node condition, mark .question, node yes, mark .colon, node no]
  | assign op target value => node target :: (op.mark.toList.map mark ++ [node value])
  | comma left right => [node left, mark .comma, node right]
  | intrinsicCall _ arguments => token [.intrinsic] :: enlisted arguments
  | call callee arguments => node callee :: enlisted arguments
  | field base n => [node base, mark .dot, Piece.name n]
  | construct _ arguments => Piece.type :: enlisted arguments
  | link kind previous item => kind.front previous ++ [node item]
  | declaration _ _ n size tie initializer =>
      Piece.name n :: (sized size ++ behind .colon tie ++ behind .assignment initializer)
  | declarationStatement declarators => [Piece.type, node declarators, mark .semicolon]
  | structDeclaration _ _ members =>
      [Piece.word .structWord, token [.name], mark .openCurly] ++ nodes members ++
        [mark .closeCurly, mark .semicolon]
  | structMember _ declarators => [Piece.type, node declarators, mark .semicolon]
  | structDeclarator n size tie => Piece.name n :: (sized size ++ behind .colon tie)
  | parameter _ _ n size tie =>
      Piece.type :: (n.toList.map Piece.name ++ sized size ++ behind .colon tie)
  | prototype _ n parameters tie =>
      [Piece.type, Piece.name n] ++ enlisted parameters ++ behind .colon tie
  | definition head body => [node head, node body]
  | compound statements => mark .openCurly :: (nodes statements ++ [mark .closeCurly])
  | expression value => nodes value ++ [mark .semicolon]
  | conditional condition yes no =>
      [Piece.word .ifWord, mark .openParen, node condition, mark .closeParen, node yes] ++
        following .elseWord no
  | whileLoop condition body =>
      [Piece.word .whileWord, mark .openParen, node condition, mark .closeParen, node body]
  | doLoop body condition =>
      [Piece.word .doWord, node body, Piece.word .whileWord, mark .openParen, node condition,
        mark .closeParen, mark .semicolon]
  | forLoop first condition next body =>
      [Piece.word .forWord, mark .openParen] ++ opening first ++ nodes condition ++
        [mark .semicolon] ++ nodes next ++ [mark .closeParen, node body]
  | jump j => [Piece.word j.word, mark .semicolon]
  | result value => Piece.word .returnWord :: (nodes value ++ [mark .semicolon])
  | semantic _ => [token [.name]]

/-- **The nodes of a production are the children, in the same order.** -/
theorem inside_production (n : Node) : Piece.inside n.production = n.children := by
  cases n with
  | step placement => cases placement <;> rfl
  | assign op =>
      cases h : op.mark <;> simp only [production, h] <;> rfl
  | link kind previous => cases previous <;> cases kind <;> rfl
  | intrinsicCall _ list | call _ list | construct _ list => cases list <;> rfl
  | declaration _ _ _ size tie value => cases size <;> cases tie <;> cases value <;> rfl
  | structDeclaration _ _ list | compound list | expression list | result list => cases list <;> rfl
  | structDeclarator _ size tie => cases size <;> cases tie <;> rfl
  | parameter _ _ name size tie => cases name <;> cases size <;> cases tie <;> rfl
  | prototype _ _ list tie => cases list <;> cases tie <;> rfl
  | conditional _ _ no => cases no <;> rfl
  | forLoop first condition next => cases first <;> cases condition <;> cases next <;> rfl
  | _ => rfl

/-- No construct is written as nothing. -/
theorem production_ne_nil (n : Node) : n.production ≠ [] := by
  cases n with
  | step placement => cases placement <;> exact List.cons_ne_nil _ _
  | link | forLoop => simp [production]
  | expression => simp [production]
  | _ => exact List.cons_ne_nil _ _

end Node

/-! ### Pieces one behind the other -/

/-- The pieces are found in the tokens one behind the other, the nodes among them in the parts given with
them. -/
inductive Spread (names : Names) : List Piece → List (NodeId × List Token) → List Token → Prop where
  | nil : Spread names [] [] []
  | skip {pieces : List Piece} {parts : List (NodeId × List Token)} {t : Token} {ts : List Token}
      (rest : Spread names pieces parts ts) : Spread names pieces parts (t :: ts)
  | here {piece : Piece} {pieces : List Piece} {parts : List (NodeId × List Token)} {t : Token}
      {ts : List Token} (fits : piece.Fits names t) (rest : Spread names pieces parts ts) :
      Spread names (piece :: pieces) parts (t :: ts)
  | node {id : NodeId} {pieces : List Piece} {parts : List (NodeId × List Token)} {part ts : List Token}
      (rest : Spread names pieces parts ts) :
      Spread names (.node id :: pieces) ((id, part) :: parts) (part ++ ts)

namespace Spread

variable {names : Names} {pieces pieces' : List Piece} {parts parts' : List (NodeId × List Token)}
  {ts us : List Token}

/-- Any tokens may stand in front. -/
theorem behind (h : Spread names pieces parts ts) (us : List Token) :
    Spread names pieces parts (us ++ ts) := by
  induction us with
  | nil => exact h
  | cons u us ih => exact .skip ih

theorem append (h : Spread names pieces parts ts) (h' : Spread names pieces' parts' us) :
    Spread names (pieces ++ pieces') (parts ++ parts') (ts ++ us) := by
  induction h with
  | nil => exact h'
  | skip _ ih => exact .skip ih
  | here fits _ ih => exact .here fits ih
  | node _ ih =>
      rw [List.append_assoc]
      exact .node ih

/-- No pieces are found in any tokens. -/
theorem none (ts : List Token) : Spread names [] [] ts := by
  simpa using Spread.nil.behind ts

/-- Pieces behind pieces are found in two parts of the tokens. -/
theorem split (h : Spread names (pieces ++ pieces') parts ts) : ∃ parts₁ parts₂ ts₁ ts₂,
    parts = parts₁ ++ parts₂ ∧ ts = ts₁ ++ ts₂ ∧ Spread names pieces parts₁ ts₁ ∧
      Spread names pieces' parts₂ ts₂ := by
  generalize hps : pieces ++ pieces' = ps at h
  induction h generalizing pieces with
  | nil =>
      obtain ⟨rfl, rfl⟩ := List.append_eq_nil_iff.1 hps
      exact ⟨[], [], [], [], rfl, rfl, .nil, .nil⟩
  | @skip _ _ t _ _ ih =>
      obtain ⟨parts₁, parts₂, ts₁, ts₂, rfl, rfl, h₁, h₂⟩ := ih hps
      exact ⟨parts₁, parts₂, t :: ts₁, ts₂, rfl, rfl, .skip h₁, h₂⟩
  | @here piece rest parts t ts fits hrest ih =>
      cases pieces with
      | nil =>
          obtain rfl : pieces' = piece :: rest := hps
          exact ⟨[], parts, [], t :: ts, rfl, rfl, .nil, .here fits hrest⟩
      | cons p pieces =>
          obtain ⟨rfl, htail⟩ := List.cons.inj hps
          obtain ⟨parts₁, parts₂, ts₁, ts₂, rfl, rfl, h₁, h₂⟩ := ih htail
          exact ⟨parts₁, parts₂, t :: ts₁, ts₂, rfl, rfl, .here fits h₁, h₂⟩
  | @node id rest parts part ts hrest ih =>
      cases pieces with
      | nil =>
          obtain rfl : pieces' = .node id :: rest := hps
          exact ⟨[], (id, part) :: parts, [], part ++ ts, rfl, rfl, .nil, .node hrest⟩
      | cons p pieces =>
          obtain ⟨rfl, htail⟩ := List.cons.inj hps
          obtain ⟨parts₁, parts₂, ts₁, ts₂, rfl, rfl, h₁, h₂⟩ := ih htail
          exact ⟨(id, part) :: parts₁, parts₂, part ++ ts₁, ts₂, rfl, by rw [List.append_assoc],
            .node h₁, h₂⟩

/-- Pieces may be left out. -/
theorem sublist (h : Spread names pieces parts ts) (hsub : pieces'.Sublist pieces) :
    ∃ parts', parts'.Sublist parts ∧ Spread names pieces' parts' ts := by
  induction h generalizing pieces' with
  | nil =>
      obtain rfl := List.sublist_nil.1 hsub
      exact ⟨[], List.Sublist.refl _, .nil⟩
  | skip _ ih =>
      obtain ⟨parts', hparts, hspread⟩ := ih hsub
      exact ⟨parts', hparts, .skip hspread⟩
  | here fits _ ih =>
      cases hsub with
      | cons _ hsub =>
          obtain ⟨parts', hparts, hspread⟩ := ih hsub
          exact ⟨parts', hparts, .skip hspread⟩
      | cons_cons _ hsub =>
          obtain ⟨parts', hparts, hspread⟩ := ih hsub
          exact ⟨parts', hparts, .here fits hspread⟩
  | @node id _ _ part _ _ ih =>
      cases hsub with
      | cons _ hsub =>
          obtain ⟨parts', hparts, hspread⟩ := ih hsub
          exact ⟨parts', hparts.cons _, hspread.behind part⟩
      | cons_cons _ hsub =>
          obtain ⟨parts', hparts, hspread⟩ := ih hsub
          exact ⟨(id, part) :: parts', hparts.cons_cons _, .node hspread⟩

/-- The parts are those of the nodes among the pieces. -/
theorem map_fst (h : Spread names pieces parts ts) : parts.map Prod.fst = Piece.inside pieces := by
  induction h with
  | nil => rfl
  | skip _ ih => exact ih
  | here fits _ ih => rw [Piece.inside_of_fits fits, ih]
  | node _ ih => rw [List.map_cons, ih, Piece.inside_node]

/-- Pieces are found in some tokens. -/
theorem ne_nil (h : Spread names pieces parts ts) (hpieces : pieces ≠ [])
    (hparts : ∀ p ∈ parts, p.2 ≠ []) : ts ≠ [] := by
  cases h with
  | nil => exact absurd rfl hpieces
  | skip | here => exact List.cons_ne_nil _ _
  | node => exact fun hnil => hparts _ List.mem_cons_self (List.append_eq_nil_iff.1 hnil).1

/-- Names keep their texts. -/
theorem mono {names' : Names} (h : Spread names pieces parts ts)
    (hnames : ∀ n text, names.text? n = some text → names'.text? n = some text) :
    Spread names' pieces parts ts := by
  induction h with
  | nil => exact .nil
  | skip _ ih => exact .skip ih
  | @here piece _ _ _ _ fits _ ih =>
      refine .here ?_ ih
      cases piece with
      | name n => exact ⟨fits.1, hnames n _ fits.2⟩
      | _ => exact fits
  | node _ ih => exact .node ih

end Spread

/-! ### Layouts -/

namespace Arena

/-- **The node is laid out over the tokens**: the pieces of its production are found in them, and the
nodes among the pieces are laid out over their own parts. -/
inductive Laid (a : Arena) (names : Names) : NodeId → List Token → Prop where
  | node {id : NodeId} {n : Node} {parts : List (NodeId × List Token)} {ts : List Token}
      (here : a.node? id = some n) (spread : Spread names n.production parts ts)
      (inside : ∀ p ∈ parts, Laid a names p.1 p.2) : Laid a names id ts

/-- The pieces are found in the tokens, and the nodes among them are laid out over their own parts. -/
def Covers (a : Arena) (names : Names) (pieces : List Piece) (ts : List Token) : Prop :=
  ∃ parts, Spread names pieces parts ts ∧ ∀ p ∈ parts, a.Laid names p.1 p.2

variable {a : Arena} {names : Names} {id : NodeId} {pieces pieces' : List Piece} {ts us : List Token}

/-- A node is laid out where its production covers. -/
theorem laid_iff_covers {n : Node} (hn : a.node? id = some n) :
    a.Laid names id ts ↔ a.Covers names n.production ts := by
  constructor
  · intro h
    obtain ⟨here, spread, inside⟩ := h
    obtain rfl := Option.some.inj (here.symm.trans hn)
    exact ⟨_, spread, inside⟩
  · rintro ⟨parts, spread, inside⟩
    exact .node hn spread inside

/-- No node is laid out over no tokens. -/
theorem Laid.ne_nil (h : a.Laid names id ts) : ts ≠ [] := by
  induction h with
  | @node _ n _ _ _ spread _ ih => exact spread.ne_nil n.production_ne_nil ih

theorem covers_nil : a.Covers names [] ts := ⟨[], .none ts, nofun⟩

/-- Pieces behind pieces cover tokens behind tokens. -/
theorem covers_append_iff : a.Covers names (pieces ++ pieces') ts ↔
    ∃ ts₁ ts₂, ts = ts₁ ++ ts₂ ∧ a.Covers names pieces ts₁ ∧ a.Covers names pieces' ts₂ := by
  constructor
  · rintro ⟨parts, spread, inside⟩
    obtain ⟨parts₁, parts₂, ts₁, ts₂, rfl, rfl, h₁, h₂⟩ := spread.split
    obtain ⟨inside₁, inside₂⟩ := List.forall_mem_append.1 inside
    exact ⟨ts₁, ts₂, rfl, ⟨parts₁, h₁, inside₁⟩, ⟨parts₂, h₂, inside₂⟩⟩
  · rintro ⟨ts₁, ts₂, rfl, ⟨parts₁, h₁, inside₁⟩, ⟨parts₂, h₂, inside₂⟩⟩
    exact ⟨parts₁ ++ parts₂, h₁.append h₂, List.forall_mem_append.2 ⟨inside₁, inside₂⟩⟩

namespace Covers

theorem append (h : a.Covers names pieces ts) (h' : a.Covers names pieces' us) :
    a.Covers names (pieces ++ pieces') (ts ++ us) :=
  covers_append_iff.2 ⟨ts, us, rfl, h, h'⟩

/-- Any tokens may stand in front. -/
theorem behind (h : a.Covers names pieces ts) (us : List Token) : a.Covers names pieces (us ++ ts) :=
  covers_nil.append h

/-- Any tokens may stand behind. -/
theorem widen (h : a.Covers names pieces ts) (us : List Token) : a.Covers names pieces (ts ++ us) := by
  have hnil : a.Covers names [] us := covers_nil
  simpa using h.append hnil

/-- Pieces may be left out. -/
theorem sublist (h : a.Covers names pieces ts) (hsub : pieces'.Sublist pieces) :
    a.Covers names pieces' ts := by
  obtain ⟨parts, spread, inside⟩ := h
  obtain ⟨parts', hparts, spread'⟩ := spread.sublist hsub
  exact ⟨parts', spread', fun p hp => inside p (hparts.subset hp)⟩

end Covers

/-- A piece that a token fits. -/
theorem covers_of_fits {piece : Piece} {t : Token} (h : piece.Fits names t) :
    a.Covers names [piece] [t] :=
  ⟨[], .here h .nil, nofun⟩

/-- A piece that is not a node covers tokens of which one fits. -/
theorem exists_fits_of_covers {piece : Piece} (h : a.Covers names [piece] ts)
    (hpiece : piece.node? = none) : ∃ t ∈ ts, piece.Fits names t := by
  obtain ⟨parts, spread, -⟩ := h
  generalize hps : [piece] = ps at spread
  induction spread with
  | nil => contradiction
  | skip _ ih =>
      obtain ⟨t, ht, hfits⟩ := ih hps
      exact ⟨t, List.mem_cons_of_mem _ ht, hfits⟩
  | here fits =>
      obtain ⟨rfl, -⟩ := List.cons.inj hps
      exact ⟨_, List.mem_cons_self, fits⟩
  | node =>
      obtain ⟨rfl, -⟩ := List.cons.inj hps
      contradiction

/-- **A node covers what it is laid out over.**  Tokens in front of it and behind it belong to its
layout, since any tokens may stand between the pieces of its production. -/
theorem covers_node_iff : a.Covers names [.node id] ts ↔ a.Laid names id ts := by
  constructor
  · rintro ⟨parts, spread, inside⟩
    generalize hps : [Piece.node id] = ps at spread
    induction spread with
    | nil => contradiction
    | @skip _ _ t _ _ ih =>
        obtain ⟨here, spread, inside⟩ := ih inside hps
        exact .node here (.skip spread) inside
    | here fits =>
        obtain ⟨rfl, -⟩ := List.cons.inj hps
        exact fits.elim
    | @node _ _ parts part ts rest =>
        obtain ⟨hid, rfl⟩ := List.cons.inj hps
        obtain rfl := Piece.node.inj hid
        obtain ⟨here, spread, inside⟩ := inside _ List.mem_cons_self
        have hrest : Spread names [] [] ts := .none ts
        exact .node here (by simpa using spread.append hrest) inside
  · intro h
    have spread : Spread names [.node id] [(id, ts)] (ts ++ []) := .node .nil
    exact ⟨[(id, ts)], by simpa using spread, by simpa using h⟩

/-! ### Fewer and looser pieces -/

/-- Tokens that the first pieces cover are covered by the second ones. -/
def Loosens (pieces pieces' : List Piece) : Prop :=
  ∀ (a : Arena) (names : Names) (ts : List Token), a.Covers names pieces ts → a.Covers names pieces' ts

/-- Pieces may be left out. -/
theorem loosens_of_sublist (h : pieces'.Sublist pieces) : Loosens pieces pieces' :=
  fun _ _ _ hcovers => hcovers.sublist h

/-- A piece that fewer tokens fit may be put for one that more do. -/
theorem loosens_of_fits {piece piece' : Piece} (hpiece : piece.node? = none)
    (h : ∀ names t, piece.Fits names t → piece'.Fits names t) : Loosens [piece] [piece'] := by
  intro a names ts hcovers
  obtain ⟨t, ht, hfits⟩ := exists_fits_of_covers hcovers hpiece
  obtain ⟨us, vs, rfl⟩ := List.append_of_mem ht
  exact ((covers_of_fits (h names t hfits)).widen vs).behind us

/-- A token of more kinds. -/
theorem loosens_token {kinds kinds' : List TokenKind} (h : kinds ⊆ kinds') :
    Loosens [.token kinds] [.token kinds'] :=
  loosens_of_fits rfl fun _ _ hfits => h hfits

/-- A token without its text. -/
theorem loosens_text {kinds kinds' : List TokenKind} (h : kinds ⊆ kinds') (text : String) :
    Loosens [.text kinds text] [.token kinds'] :=
  loosens_of_fits rfl fun _ _ hfits => h hfits.1

/-- Looser pieces among others. -/
theorem Loosens.among (h : Loosens pieces pieces') (front behind : List Piece) :
    Loosens (front ++ (pieces ++ behind)) (front ++ (pieces' ++ behind)) := by
  intro a names ts hcovers
  obtain ⟨ts₁, rest, rfl, h₁, hrest⟩ := covers_append_iff.1 hcovers
  obtain ⟨ts₂, ts₃, rfl, h₂, h₃⟩ := covers_append_iff.1 hrest
  exact h₁.append ((h a names ts₂ h₂).append h₃)

/-! ### While more is built -/

variable {a' : Arena} {names' : Names}

/-- A node stays laid out while more is built. -/
theorem Laid.mono (h : a.Laid names id ts) (ha : a.Extends a')
    (hnames : ∀ n text, names.text? n = some text → names'.text? n = some text) :
    a'.Laid names' id ts := by
  induction h with
  | node here spread _ ih => exact .node (ha _ _ here) (spread.mono hnames) ih

/-- **What covers tokens covers them while more is built.** -/
theorem Covers.mono (h : a.Covers names pieces ts) (ha : a.Extends a')
    (hnames : ∀ n text, names.text? n = some text → names'.text? n = some text) :
    a'.Covers names' pieces ts := by
  obtain ⟨parts, spread, inside⟩ := h
  exact ⟨parts, spread.mono hnames, fun p hp => (inside p hp).mono ha hnames⟩

end Arena

end ShaderLang
