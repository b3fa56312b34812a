/-
**Reading declarations that are written there.**

Each part of a declaration is read as a whole: its rule comes to its end right behind the last token, and
what it makes stands for the part.  A part that may be missing is told by its first token, so what comes
behind must not begin with that token.

Nothing is reported but problems with values and with the sizes of arrays.

Main definitions:

* `ShaderLang.Token.Objections`, `ShaderLang.Allows` — the problems that there can be with the values of
  tokens and with sizes, and that they are allowed;
* `ShaderLang.Lacks` — the next token is not of a kind.

Main results:

* `ShaderLang.Grammar.lands_expression` — expressions, as far as the token that ends them;
* `ShaderLang.Grammar.lands_dataType` — **a built-in type in every way to write it**;
* `ShaderLang.Grammar.lands_initializer` — initial values;
* `ShaderLang.Grammar.lands_declarationStatement` — **declarations**.
-/

import ShaderLang.Grammar.Statement
import ShaderLang.Proofs.Grammar.Meaning
import ShaderLang.Proofs.Grammar.RoundTrip

set_option relaxedAutoImplicit false
set_option autoImplicit false

namespace ShaderLang

/-! ### Problems with values and sizes -/

/-- The problem is one with the value of the token, or with the index or the size behind it. -/
inductive Token.Objections (t : Token) : Problem → Prop where
  | doubt {p : Problem} (h : t.Doubts p) : t.Objections p
  | noSize (ht : t.kind = .mark .openBracket) : t.Objections .nonIntegerSize
  | badSize (ht : t.kind = .mark .openBracket) (value : String) :
      t.Objections (.sizeOutOfRange value)

theorem Token.Objections.not_unexpected {t : Token} {p : Problem} (h : t.Objections p) :
    p.isUnexpected = false := by
  cases h with
  | doubt h => cases h <;> rfl
  | noSize _ => rfl
  | badSize _ _ => rfl

/-- The problems that there can be with the tokens are allowed. -/
def Allows (allowed : Problem → Prop) (ts : List Token) : Prop :=
  ∀ t ∈ ts, ∀ p, t.Objections p → allowed p

section Allows

variable {allowed : Problem → Prop} {t : Token} {ts us : List Token}

@[simp] theorem allows_nil : Allows allowed [] := by simp [Allows]

@[simp] theorem allows_cons :
    Allows allowed (t :: ts) ↔ (∀ p, t.Objections p → allowed p) ∧ Allows allowed ts :=
  List.forall_mem_cons

@[simp] theorem allows_append :
    Allows allowed (ts ++ us) ↔ Allows allowed ts ∧ Allows allowed us :=
  List.forall_mem_append

theorem Allows.doubts (h : Allows allowed ts) : ∀ p, Doubts ts p → allowed p := by
  rintro p ⟨t, ht, hp⟩
  exact h t ht p (.doubt hp)

theorem Allows.subset (h : Allows allowed us) (hts : ts ⊆ us) : Allows allowed ts :=
  fun t ht => h t (hts ht)

/-- Where items with commas between them are allowed, each of them is. -/
theorem Allows.of_separated {α : Type} {parts : List (α × List Token)}
    (h : Allows allowed us) (hus : Separated (parts.map Prod.snd) us) :
    ∀ p ∈ parts, Allows allowed p.2 :=
  fun _ hp => h.subset (hus.subset (List.mem_map_of_mem hp))

end Allows

/-! ### What comes next -/

/-- The next token, if there is one, is not of the kind. -/
def Lacks (kind : TokenKind) (ts : List Token) : Prop := ∀ t ∈ ts.head?, t.kind ≠ kind

section Lacks

variable {kind : TokenKind} {t : Token} {ts us : List Token}

theorem lacks_cons {found : TokenKind} (ht : t.kind = found) (h : found ≠ kind) :
    Lacks kind (t :: ts) := by
  intro u hu
  obtain rfl := Option.some.inj hu
  rwa [ht]

theorem Lacks.current_ne {c : Cursor} (h : Lacks kind c.rest) (hkind : kind ≠ .endOfFile) :
    c.current.kind ≠ kind := by
  unfold Cursor.current
  cases hrest : c.rest with
  | nil => exact hkind.symm
  | cons t ts => exact h t (by rw [hrest]; rfl)

/-- An expression begins with no other token than those that it can begin with. -/
theorem Starts.lacks {structs : Structs} (h : Starts structs ts)
    (hkind : kind ∉ Grammar.expressionStart) (us : List Token) : Lacks kind (ts ++ us) := by
  obtain ⟨t, vs, rfl, ht, -⟩ := h
  refine lacks_cons rfl ?_
  rintro rfl
  exact hkind ht

/-- A part that may be missing is skipped in the search for the next token. -/
theorem Optionally.lacks {α : Type} {written : α → List Token → Prop} {x : Option α}
    (h : Optionally written x ts) (hfront : ∀ x ts, written x ts → Lacks kind (ts ++ us))
    (hus : Lacks kind us) : Lacks kind (ts ++ us) := by
  cases h with
  | absent => exact hus
  | present h => exact hfront _ _ h

end Lacks

namespace Grammar

open ShaderLang.Parser ShaderLang.Builder

variable {allowed : Problem → Prop} {structs : Structs} {s : ParseState} {rest : List Token}
  {e : Expr} {ts : List Token} {t : Token}

/-! ### Expressions -/

/-- An expression that is begun at a level and ends at what comes next. -/
theorem lands_printed {j : Power} {m : Nat} (h : Printed structs m e ts) (hj : Admits j m)
    (hle : j.level ≤ reach m) (hallows : Allows allowed ts) (hstructs : s.builder.structs = structs)
    (hs : s.cursor.rest = ts ++ rest) (hstop : StopsAt j.level rest) :
    (expression j).Lands allowed s rest (Settled Stands e) := by
  have hgives := (h.parsed (List.Subset.refl ts)).gives (n := s.left + 1) hj hle
  have hlen : (ts ++ rest).length < s.left + 1 :=
    Nat.lt_succ_of_le (Nat.le_of_eq (Cursor.left_eq_length hs).symm)
  obtain ⟨id, t, hrun, hland⟩ := hgives s rest hstructs hlen hs hstop
  -- with one token to spare the bound does not matter
  rw [below_apply (Nat.lt_succ_self s.left)] at hrun
  have hlands : (expression j).Lands (Doubts ts) s rest (Built e) := ⟨id, t, hrun, hland⟩
  exact (hlands.weaken hallows.doubts).mono fun _ _ _ hid => hid.settled

/-- An expression in front of a token that extends no expression. -/
theorem lands_expression {kind : TokenKind} (h : Printed structs Power.default.level e ts)
    (hallows : Allows allowed ts) (hstructs : s.builder.structs = structs)
    (hs : s.cursor.rest = ts ++ t :: rest) (ht : t.kind = kind)
    (hkind : Extension.ofKind kind = none) :
    (expression .default).Lands allowed s (t :: rest) (Settled Stands e) :=
  lands_printed h .default (Nat.zero_le _) hallows hstructs hs (.of_none ht hkind)

/-! ### Items in a row -/

/-- One more item is built behind the others. -/
theorem lands_buildItem {α : Type} {stands : Builder → NodeId → α → Prop} {kind : ListKind}
    {xs : List α} {x : α} {list : Option NodeId} {item : NodeId} (hl : Lasting stands)
    (hlist : Itemized stands kind xs s.builder list) (hitem : Settled stands x s.builder item) :
    (build (Build.link kind list item)).Lands allowed s s.cursor.rest fun b id =>
      Itemized stands kind (xs ++ [x]) b (some id) := by
  refine (lands_add ?_).mono ?_
  · intro c hc
    rcases List.mem_append.1 hc with hc | hc
    · exact hlist.grounded c hc
    · obtain rfl := List.mem_singleton.1 hc
      exact hitem.grounded
  · rintro b id hb ⟨hground, hnode⟩
    exact (hlist.mono hl hb).snoc (hitem.mono hl hb).stands hnode hground

theorem lands_itemLink {α : Type} {stands : Builder → NodeId → α → Prop} {kind : ListKind}
    {xs : List α} {x : α} {list : Option NodeId} {item : NodeId} (hl : Lasting stands)
    (hlist : Itemized stands kind xs s.builder list) (hitem : Settled stands x s.builder item) :
    (buildLink kind list item).Lands allowed s s.cursor.rest
      (Itemized stands kind (xs ++ [x])) := by
  refine (lands_buildItem hl hlist hitem).bind fun id t ht _ hid => ?_
  exact (lands_pure hid).upTo ht

/-! ### Qualifiers and types -/

/-- Qualifiers one after another, behind those that are read already. -/
theorem lands_qualifierTurns {q : Qualifiers} (h : q.Written ts) (before : Qualifiers)
    (hs : s.cursor.rest = ts ++ rest) (hnext : Lacks .qualifier rest) :
    (repeated qualifierTurn before).Lands allowed s rest fun _ all => all = before.union q := by
  induction h generalizing s before with
  | none =>
      have hne : s.cursor.current.kind ≠ .qualifier := by
        refine Lacks.current_ne ?_ nofun
        rwa [hs]
      refine .done (.look (currentKind_apply s) ?_)
      rw [if_neg hne]
      refine (lands_pure ⟨before, rfl, ?_⟩).upTo hs
      simp [Qualifiers.union, Qualifiers.none]
  | @more p q t ts ht hp _ ih =>
      have hturn : (qualifierTurn before).Lands allowed s (ts ++ rest) fun _ r =>
          ∃ all, r = .again all ∧ all = before.union p := by
        refine .on_kind hs ht ?_
        rw [if_pos rfl]
        refine (lands_advance hs).bind fun u v hv _ hu => ?_
        have hword : Build.qualifier u.text = p := by rw [hu, Build.qualifier, hp]; rfl
        rw [hword]
        exact (lands_pure ⟨_, rfl, rfl⟩).upTo hv
      refine hturn.again (by simp [hs]) fun all u hu _ hall => ?_
      refine (ih all hu).mono fun _ r _ hr => ?_
      rw [hr, hall]
      simp [Qualifiers.union, UInt8.or_assoc]

theorem lands_qualifiers {q : Qualifiers} (h : q.Written ts) (hs : s.cursor.rest = ts ++ rest)
    (hnext : Lacks .qualifier rest) :
    qualifiers.Lands allowed s rest fun _ all => all = q := by
  refine (lands_qualifierTurns h .none hs hnext).mono fun _ all _ hall => ?_
  rw [hall]
  simp [Qualifiers.union, Qualifiers.none]

theorem lands_componentType {component : DataType} (ht : t.kind = .typeName)
    (htype : DataType.ofKeyword t.text = some component) (hs : s.cursor.rest = t :: rest) :
    componentType.Lands allowed s rest fun _ found => found = component := by
  refine (lands_expect hs ht).bind fun u v hv _ hu => ?_
  have hnamed : Build.namedType u.text v.builder = .ok component v.builder := by
    rw [hu, Build.namedType, htype]
    rfl
  exact ⟨component, _, build_ok hnamed, hv, .refl _, rfl⟩

/-- The digit of an extent is a number, and the number is an extent. -/
theorem exists_literal_of_extent {n : Fin absentExtent} (h : Extent.Written n t) :
    ∃ l, IntegerLiteral.ofText t.text = some l ∧
      Build.extentOfInt l.constant.toInt64.toInt = some n := by
  obtain ⟨-, d, htext, hd⟩ := h
  unfold DataType.keywordExtent at hd
  rw [htext]
  split at hd
  · cases hd
    exact ⟨⟨2, false⟩, by decide +kernel, by decide +kernel⟩
  · cases hd
    exact ⟨⟨3, false⟩, by decide +kernel, by decide +kernel⟩
  · cases hd
    exact ⟨⟨4, false⟩, by decide +kernel, by decide +kernel⟩
  · contradiction

/-- The node of an integer literal gives the extent that it stands for. -/
theorem dimension_of_int {b : Builder} {id : NodeId} {l : IntegerLiteral} {n : Fin absentExtent}
    (here : b.arena.node? id = some (.int l.value l.isUnsigned))
    (hn : Build.extentOfInt l.constant.toInt64.toInt = some n) :
    Build.dimension id b = .ok (some n) b := by
  have hfold : b.fold id = .ok (some l.constant) := Arena.fold_of_int here
  have hask : Build.ask (·.fold id) b = .ok (some l.constant) b := by simp only [Build.ask, hfold]
  rw [Build.dimension, Build.bind_apply, hask]
  unfold IntegerLiteral.constant at hn ⊢
  by_cases hsign : l.isUnsigned
  · rw [if_pos hsign] at hn ⊢
    dsimp only
    rw [hn]
    rfl
  · rw [if_neg hsign] at hn ⊢
    dsimp only
    rw [hn]
    rfl

/-- An extent is read as a number, whose node is there. -/
theorem lands_extent {n : Fin absentExtent} (h : Extent.Written n t)
    (hallows : Allows allowed [t]) (hs : s.cursor.rest = t :: rest)
    (hstop : StopsAt Power.relational.level rest) :
    (extentExpression expression).Lands allowed s rest fun b id =>
      ∃ l : IntegerLiteral, b.arena.node? id = some (.int l.value l.isUnsigned) ∧
        Build.extentOfInt l.constant.toInt64.toInt = some n := by
  have hprinted : Printed s.builder.structs (Power.relational.level + 1) (.int t.text) [t] :=
    .int h.1
  have hreach := reach_of_lt (n := Power.relational.level + 1) (by decide)
  obtain ⟨l, hl, hextent⟩ := exists_literal_of_extent h
  refine (lands_printed hprinted (.of_lt (Nat.lt_succ_self _)) (hreach ▸ Nat.le_succ _) hallows rfl
    hs hstop).mono ?_
  rintro b id - ⟨hstands, -⟩
  cases hstands with
  | @int _ _ l' here value =>
      rw [hl] at value
      obtain rfl : l' = l := value
      exact ⟨l', here, hextent⟩

/-- **A built-in type in every way to write it**, in front of a name. -/
theorem lands_dataType {type : DataType} (h : type.Written ts) (hallows : Allows allowed ts)
    (hs : s.cursor.rest = ts ++ t :: rest) (ht : t.kind = .name) :
    dataType.Lands allowed s (t :: rest) fun _ found => found = type := by
  cases h with
  | keyword hk htype => exact .on_kind hs hk (lands_componentType hk htype hs)
  | vector hk htype =>
      refine .on_kind hs hk ((lands_expectKeyword hs hk).bind fun _ u hu _ _ => ?_)
      have hless : Lacks (.mark .less) u.cursor.rest := by
        rw [hu]
        exact lacks_cons ht nofun
      refine (lands_accept_not (hless.current_ne nofun)).bind fun _ v hv _ hread => ?_
      have hnamed : Build.namedType "float4" v.builder = .ok type v.builder := by
        rw [Build.namedType, htype]
        rfl
      rw [hread]
      exact ⟨type, _, build_ok hnamed, hv.trans hu, .refl _, rfl⟩
  | matrix hk htype =>
      refine .on_kind hs hk ((lands_expectKeyword hs hk).bind fun _ u hu _ _ => ?_)
      have hless : Lacks (.mark .less) u.cursor.rest := by
        rw [hu]
        exact lacks_cons ht nofun
      refine (lands_accept_not (hless.current_ne nofun)).bind fun _ v hv _ hread => ?_
      have hnamed : Build.namedType "float4x4" v.builder = .ok type v.builder := by
        rw [Build.namedType, htype]
        rfl
      rw [hread]
      exact ⟨type, _, build_ok hnamed, hv.trans hu, .refl _, rfl⟩
  | @vectorOf component n k o w c size g hk ho hw hcomponent hc hsize hg =>
      have hstop : StopsAt Power.relational.level (g :: t :: rest) := .of_some hg rfl (Nat.le_refl _)
      simp only [allows_cons, allows_nil, and_true] at hallows
      refine .on_kind hs hk ((lands_expectKeyword hs hk).bind fun _ s₁ h₁ _ _ => ?_)
      refine (lands_accept h₁ ho).bind fun _ s₂ h₂ _ hread => ?_
      rw [hread]
      refine (lands_componentType hw hcomponent h₂).bind fun found s₃ h₃ _ hfound => ?_
      refine (lands_expectMark h₃ hc).bind fun _ s₄ h₄ _ _ => ?_
      have hallow : Allows allowed [size] := by simpa using hallows.2.2.2.2.1
      refine (lands_extent hsize hallow h₄ hstop).bind fun id s₅ h₅ _ hid => ?_
      refine (lands_expectMark h₅ hg).bind fun _ s₆ h₆ hb _ => ?_
      obtain ⟨l, here, hextent⟩ := hid
      have hbuild : Build.vectorType found id s₆.builder
          = .ok ⟨component.base, some n, none⟩ s₆.builder := by
        rw [Build.vectorType, Build.bind_apply, dimension_of_int (hb.nodes _ _ here) hextent, hfound]
        rfl
      exact ⟨_, _, build_ok hbuild, h₆, .refl _, rfl⟩
  | @matrixOf component m n k o w c rows d columns g hk ho hw hcomponent hc hrows hd hcolumns hg =>
      have hstop : StopsAt Power.relational.level (g :: t :: rest) := .of_some hg rfl (Nat.le_refl _)
      have hstop' : StopsAt Power.relational.level (d :: columns :: g :: t :: rest) :=
        .of_some hd rfl (by decide)
      simp only [allows_cons, allows_nil, and_true] at hallows
      refine .on_kind hs hk ((lands_expectKeyword hs hk).bind fun _ s₁ h₁ _ _ => ?_)
      refine (lands_accept h₁ ho).bind fun _ s₂ h₂ _ hread => ?_
      rw [hread]
      refine (lands_componentType hw hcomponent h₂).bind fun found s₃ h₃ _ hfound => ?_
      refine (lands_expectMark h₃ hc).bind fun _ s₄ h₄ _ _ => ?_
      have hallow : Allows allowed [rows] := by simpa using hallows.2.2.2.2.1
      refine (lands_extent hrows hallow h₄ hstop').bind fun id s₅ h₅ _ hid => ?_
      refine (lands_expectMark h₅ hd).bind fun _ s₆ h₆ hb₆ _ => ?_
      have hallow : Allows allowed [columns] := by simpa using hallows.2.2.2.2.2.2.1
      refine (lands_extent hcolumns hallow h₆ hstop).bind fun id' s₇ h₇ hb₇ hid' => ?_
      refine (lands_expectMark h₇ hg).bind fun _ s₈ h₈ hb₈ _ => ?_
      obtain ⟨l, here, hextent⟩ := hid
      obtain ⟨l', here', hextent'⟩ := hid'
      have here := hb₈.nodes _ _ (hb₇.nodes _ _ (hb₆.nodes _ _ here))
      have hbuild : Build.matrixType found id id' s₈.builder
          = .ok ⟨component.base, some m, some n⟩ s₈.builder := by
        rw [Build.matrixType, Build.bind_apply, dimension_of_int here hextent]
        dsimp only
        rw [Build.bind_apply, dimension_of_int (hb₈.nodes _ _ here') hextent', hfound]
        rfl
      exact ⟨_, _, build_ok hbuild, h₈, .refl _, rfl⟩

/-! ### Sizes and semantics -/

/-- If there is a size, its problems are allowed. -/
theorem allows_size {size : Option Expr} {id : Option NodeId} {b : Builder}
    (h : Optionally (Sized structs) size ts) (hallows : Allows allowed ts)
    (hid : SettledIf Stands size b id) :
    id.isSome → allowed .nonIntegerSize ∧ ∀ value, allowed (.sizeOutOfRange value) := by
  intro hsome
  cases h with
  | absent =>
      cases hid
      contradiction
  | present h =>
      obtain ⟨ho, -, -⟩ := h
      obtain ⟨hbracket, -⟩ := allows_cons.1 hallows
      exact ⟨hbracket _ (.noSize ho), fun value => hbracket _ (.badSize ho value)⟩

theorem lands_arraySuffix {size : Option Expr} (h : Optionally (Sized structs) size ts)
    (hallows : Allows allowed ts) (hstructs : s.builder.structs = structs)
    (hs : s.cursor.rest = ts ++ rest) (hnext : Lacks (.mark .openBracket) rest) :
    arraySuffix.Lands allowed s rest (SettledIf Stands size) := by
  cases h with
  | absent =>
      have hlacks : Lacks (.mark .openBracket) s.cursor.rest := by rwa [hs]
      refine (lands_accept_not (hlacks.current_ne nofun)).bind fun _ u hu _ hread => ?_
      rw [hread]
      exact (lands_pure .none).upTo (hu.trans hs)
  | present h =>
      obtain ⟨ho, hc, hsize⟩ := h
      simp only [List.cons_append, List.append_assoc, List.nil_append] at hs
      simp only [allows_cons, allows_append] at hallows
      refine (lands_accept hs ho).bind fun _ u hu hb hread => ?_
      rw [hread]
      refine (lands_expression hsize hallows.2.1 (hb.structs.trans hstructs) hu hc rfl).bind
        fun id v hv _ hid => ?_
      refine (lands_expectMark hv hc).bind fun _ w hw hb' _ => ?_
      exact (lands_pure (.some (hid.mono lasting_stands hb'))).upTo hw

theorem lands_semantic {tie : Option Semantic} (h : Optionally Semantic.Written tie ts)
    (hs : s.cursor.rest = ts ++ rest) (hnext : Lacks (.mark .colon) rest) :
    semantic.Lands allowed s rest (SettledIf StandsSemantic tie) := by
  cases h with
  | absent =>
      have hlacks : Lacks (.mark .colon) s.cursor.rest := by rwa [hs]
      refine (lands_accept_not (hlacks.current_ne nofun)).bind fun _ u hu _ hread => ?_
      rw [hread]
      exact (lands_pure .none).upTo (hu.trans hs)
  | @present value _ h =>
      obtain ⟨hc, hk, hvalue⟩ := h
      simp only [List.cons_append, List.nil_append] at hs
      refine (lands_accept hs hc).bind fun _ u hu _ hread => ?_
      rw [hread]
      refine (lands_expect hu hk).bind fun found v hv _ hfound => ?_
      have hmakes : Build.Makes allowed v.builder (Build.add (.semantic value)) fun _ n =>
          n = .semantic value :=
        Build.makes_add (by simp [Node.children]) rfl
      obtain ⟨id, b, _, hadd, hgrows, hground, hnode, rfl⟩ := hmakes
      have hrun : Build.semantic found.text v.builder = .ok (some id) b := by
        rw [hfound, Build.semantic, hvalue]
        dsimp only
        rw [Build.bind_apply, hadd]
        rfl
      exact ⟨some id, _, build_ok hrun, hv, hgrows, .some ⟨hnode, hground⟩⟩

/-! ### Initial values -/

/-- What an initial value begins with does not end a list of them. -/
theorem proceeds_initial {i : Initial} (h : i.Written structs ts) : Proceeds ts := by
  cases h with
  | value h => exact h.starts.proceeds
  | list ho _ _ _ => exact proceeds_of_kind ho (by decide)

/-- The tokens are read as the initial value, wherever it ends. -/
def GivesInitial (allowed : Problem → Prop) (structs : Structs) (i : Initial) (ts : List Token) :
    Prop :=
  ∀ s rest, s.builder.structs = structs → s.cursor.rest = ts ++ rest →
    StopsAt Power.comma.level rest → initializer.Lands allowed s rest (Settled StandsInitial i)

section Initializer

variable {inner : Unit → Parser NodeId} {i : Initial} {before : List Initial}
  {list : Option NodeId} {c : Token}

/-- An initial value in front of a comma. -/
theorem lands_initializerTurn_again (hmore : s.cursor.current.kind ≠ .mark .closeCurly)
    (hi : (inner ()).Lands allowed s (c :: rest) (Settled StandsInitial i))
    (hc : c.kind = .mark .comma)
    (hlist : Itemized StandsInitial .initializers before s.builder list) :
    (initializerTurn inner list).Lands allowed s rest fun b r => ∃ longer, r = .again longer ∧
      Itemized StandsInitial .initializers (before ++ [i]) b longer := by
  refine .look (currentKind_apply s) ?_
  rw [if_neg hmore]
  refine hi.bind fun item t ht hb hitem => ?_
  have hlist := hlist.mono lasting_standsInitial hb
  refine (lands_itemLink lasting_standsInitial hlist hitem).bind fun longer u hu _ hlonger => ?_
  refine (lands_accept (hu.trans ht) hc).bind fun more v hv hb hread => ?_
  rw [hread]
  exact (lands_pure ⟨longer, rfl, hlonger.mono lasting_standsInitial hb⟩).upTo hv

/-- An initial value in front of the brace that ends the list. -/
theorem lands_initializerTurn_done (hmore : s.cursor.current.kind ≠ .mark .closeCurly)
    (hi : (inner ()).Lands allowed s (c :: rest) (Settled StandsInitial i))
    (hc : c.kind = .mark .closeCurly)
    (hlist : Itemized StandsInitial .initializers before s.builder list) :
    (initializerTurn inner list).Lands allowed s (c :: rest) fun b r => ∃ longer,
      r = .done longer ∧ Itemized StandsInitial .initializers (before ++ [i]) b longer := by
  refine .look (currentKind_apply s) ?_
  rw [if_neg hmore]
  refine hi.bind fun item t ht hb hitem => ?_
  have hlist := hlist.mono lasting_standsInitial hb
  refine (lands_itemLink lasting_standsInitial hlist hitem).bind fun longer u hu _ hlonger => ?_
  have hne : u.cursor.current.kind ≠ .mark .comma := by
    rw [Cursor.current_of_rest (hu.trans ht), hc]
    simp
  refine (lands_accept_not hne).bind fun more v hv hb hread => ?_
  rw [hread]
  refine (lands_pure ⟨longer, rfl, ?_⟩).upTo (hv.trans (hu.trans ht))
  exact hlonger.mono lasting_standsInitial hb

/-- Where an initial value comes next, the list does not end, and the value is read. -/
theorem lands_initialItem {n : Nat} {vs : List Token} (hproceeds : Proceeds ts)
    (h : GivesInitial allowed structs i ts) (hstructs : s.builder.structs = structs)
    (hn : (ts ++ vs).length < n) (hs : s.cursor.rest = ts ++ vs)
    (hstop : StopsAt Power.comma.level vs) :
    s.cursor.current.kind ≠ .mark .closeCurly ∧
      (below n (fix initializerRule) ()).Lands allowed s vs (Settled StandsInitial i) := by
  have hleft : s.left < n := by rwa [show s.left = _ from Cursor.left_eq_length hs]
  refine ⟨?_, (h s vs hstructs hs hstop).below hleft⟩
  obtain ⟨t, us, rfl, hkind⟩ := hproceeds
  intro hclose
  rw [Cursor.current_of_rest hs] at hclose
  simp [hclose] at hkind

/-- The initial values of a list one after another.  The induction is on those still to come; those in
`before` are built already. -/
theorem lands_initializerTurns {n : Nat} {p : Initial × List Token}
    {parts : List (Initial × List Token)} {us : List Token}
    (hparts : ∀ q ∈ p :: parts, Proceeds q.2 ∧ GivesInitial allowed structs q.1 q.2)
    (hus : Separated ((p :: parts).map Prod.snd) us) (hc : c.kind = .mark .closeCurly)
    (hlist : Itemized StandsInitial .initializers before s.builder list)
    (hstructs : s.builder.structs = structs) (hn : (us ++ c :: rest).length < n)
    (hs : s.cursor.rest = us ++ c :: rest) :
    (repeated (initializerTurn (below n (fix initializerRule))) list).Lands allowed s (c :: rest)
      (Itemized StandsInitial .initializers (before ++ (p :: parts).map Prod.fst)) := by
  obtain ⟨hproceeds, hp⟩ := hparts p List.mem_cons_self
  induction parts generalizing p us s before list with
  | nil =>
      cases hus
      have hstop : StopsAt Power.comma.level (c :: rest) := .of_none hc rfl
      obtain ⟨hmore, hinner⟩ := lands_initialItem hproceeds hp hstructs hn hs hstop
      exact .done (lands_initializerTurn_done hmore hinner hc hlist)
  | cons q parts ih =>
      cases hus with
      | @more _ _ us _ d hd hus =>
          rw [List.append_assoc, List.cons_append] at hn hs
          have hstop : StopsAt Power.comma.level (d :: (us ++ c :: rest)) :=
            .of_some hd rfl (Nat.le_refl _)
          obtain ⟨hmore, hinner⟩ := lands_initialItem hproceeds hp hstructs hn hs hstop
          have hturn := lands_initializerTurn_again hmore hinner hd hlist
          rw [List.length_append, List.length_cons] at hn
          refine hturn.again ?_ fun longer t ht hb hlonger => ?_
          · simp only [hs, List.length_append, List.length_cons]
            omega
          · have hrest := fun r hr => hparts r (List.mem_cons_of_mem p hr)
            obtain ⟨hproceeds, hq⟩ := hrest q List.mem_cons_self
            have hgo := ih hrest hus hlonger (hb.structs.trans hstructs) (by omega) ht hproceeds hq
            rwa [List.append_assoc] at hgo

/-- Initial values between braces.  The last link stands for the list. -/
theorem gives_list {p : Initial × List Token} {parts : List (Initial × List Token)} {o : Token}
    {us : List Token} (ho : o.kind = .mark .openCurly) (hc : c.kind = .mark .closeCurly)
    (hparts : ∀ q ∈ p :: parts, Proceeds q.2 ∧ GivesInitial allowed structs q.1 q.2)
    (hus : Separated ((p :: parts).map Prod.snd) us) :
    GivesInitial allowed structs (.list ((p :: parts).map Prod.fst)) (o :: (us ++ [c])) := by
  intro s rest hstructs hs _
  simp only [List.cons_append, List.append_assoc, List.nil_append] at hs
  refine .of_fix (.on_kind hs ho ?_)
  rw [if_pos rfl]
  refine (lands_advance hs).bind fun _ t ht hb _ => ?_
  have hn : (us ++ c :: rest).length < s.left := by
    rw [show s.left = _ from Cursor.left_eq_length hs]
    simp
  refine (lands_initializerTurns hparts hus hc .nil (hb.structs.trans hstructs) hn ht).bind
    fun list u hu _ hlist => ?_
  obtain ⟨id, rfl⟩ := hlist.exists_id (List.cons_ne_nil _ _)
  refine .on_kind hu hc ?_
  rw [if_pos rfl]
  refine (lands_advance hu).bind fun _ v hv hb _ => ?_
  have hlist := hlist.mono lasting_standsInitial hb
  rw [List.nil_append] at hlist
  obtain ⟨built, hbuilt, hlinks, hstands⟩ := hlist.stands
  refine (lands_pure ⟨?_, hlist.grounded id (by simp)⟩).upTo hv
  rw [← hbuilt]
  exact .list hlinks hstands

/-- **What an initial value is written as is read as the initial value.**  The induction is on how it is
written. -/
theorem lands_initializer {i : Initial} (h : i.Written structs ts) (hallows : Allows allowed ts) :
    GivesInitial allowed structs i ts := by
  induction h with
  | @value e ts h =>
      intro s rest hstructs hs hstop
      have hcurly : Lacks (.mark .openCurly) s.cursor.rest :=
        hs ▸ h.starts.lacks (by decide) rest
      refine .of_fix (.look (currentKind_apply s) ?_)
      rw [if_neg (hcurly.current_ne nofun)]
      have hcomma : Admits .comma (Power.comma.level + 1) := .of_lt (Nat.lt_succ_self _)
      refine (lands_printed h hcomma (Nat.le_refl _) hallows hstructs hs hstop).mono ?_
      rintro b id - ⟨hstands, hground⟩
      exact ⟨.value hstands, hground⟩
  | @list p parts o c us ho hc items hus ih =>
      have hinner : Allows allowed us := hallows.subset (by simp)
      refine gives_list ho hc (fun q hq => ⟨proceeds_initial (items q hq), ih q hq ?_⟩) hus
      exact hinner.of_separated hus q hq

end Initializer

/-! ### Variables -/

/-- What comes behind a variable: a comma and another one, or the end of the declaration. -/
def EndsDeclarator (ts : List Token) : Prop :=
  ∃ t us, ts = t :: us ∧ (t.kind = .mark .comma ∨ t.kind = .mark .semicolon)

/-- Variables with a comma in front of each. -/
inductive Trailing : List (List Token) → List Token → Prop where
  | nil : Trailing [] []
  | cons {ts us : List Token} {tss : List (List Token)} {c : Token} (hc : c.kind = .mark .comma)
      (h : Trailing tss us) : Trailing (ts :: tss) (c :: (ts ++ us))

theorem trailing_of_separated {tss : List (List Token)} {us : List Token}
    (h : Separated (ts :: tss) us) : ∃ vs, us = ts ++ vs ∧ Trailing tss vs := by
  induction tss generalizing ts us with
  | nil =>
      cases h
      exact ⟨[], (List.append_nil _).symm, .nil⟩
  | cons ts' tss ih =>
      cases h with
      | more hc h =>
          obtain ⟨vs, rfl, hvs⟩ := ih h
          exact ⟨_, rfl, .cons hc hvs⟩

theorem Trailing.ends {tss : List (List Token)} {us : List Token} {m : Token}
    (h : Trailing tss us) (hm : m.kind = .mark .semicolon) : EndsDeclarator (us ++ m :: rest) := by
  cases h with
  | nil => exact ⟨m, rest, rfl, .inr hm⟩
  | cons hc _ => exact ⟨_, _, rfl, .inl hc⟩

theorem EndsDeclarator.lacks {kind : TokenKind} (h : EndsDeclarator ts)
    (hcomma : kind ≠ .mark .comma) (hsemicolon : kind ≠ .mark .semicolon) : Lacks kind ts := by
  obtain ⟨t, us, rfl, ht | ht⟩ := h
  · exact lacks_cons ht hcomma.symm
  · exact lacks_cons ht hsemicolon.symm

theorem EndsDeclarator.stopsAt (h : EndsDeclarator ts) : StopsAt Power.comma.level ts := by
  obtain ⟨t, us, rfl, ht | ht⟩ := h
  · exact .of_some ht rfl (Nat.le_refl _)
  · exact .of_none ht rfl

/-- An initial value behind its mark, if there is one, and what is done with it. -/
theorem lands_assigned {β : Type} {value : Option Initial} {f : Option NodeId → Parser β}
    {last : List Token} {known : Builder → β → Prop}
    (h : Optionally (Assigned structs) value ts) (hallows : Allows allowed ts)
    (hstructs : s.builder.structs = structs) (hs : s.cursor.rest = ts ++ rest)
    (hends : EndsDeclarator rest)
    (hf : ∀ id t, t.cursor.rest = rest → s.builder.Extends allowed t.builder →
      SettledIf StandsInitial value t.builder id → (f id).Lands allowed t last known) :
    (accept (.mark .assignment) >>= fun read =>
      if read = true then some <$> initializer >>= f else pure none >>= f).Lands allowed s last
        known := by
  cases h with
  | absent =>
      have hlacks : Lacks (.mark .assignment) s.cursor.rest := by
        rw [hs]
        exact hends.lacks nofun nofun
      refine (lands_accept_not (hlacks.current_ne nofun)).bind fun _ u hu hb hread => ?_
      rw [hread]
      exact hf none u (hu.trans hs) hb .none
  | present h =>
      obtain ⟨ho, hvalue⟩ := h
      refine (lands_accept hs ho).bind fun _ u hu hb hread => ?_
      rw [hread]
      have hgives := lands_initializer hvalue (allows_cons.1 hallows).2
      have hread := (hgives u rest (hb.structs.trans hstructs) hu hends.stopsAt).map (g := some)
      refine hread.bind ?_
      rintro _ v hv hb' ⟨id, rfl, hid⟩
      exact hf (some id) v hv (hb.trans hb') (.some hid)

/-- What is said of a variable behind its name. -/
theorem lands_declarator (q : Qualifiers) (type : DataType) {size : Option Expr}
    {tie : Option Semantic} {value : Option Initial} (name : Token) {us vs ws : List Token}
    (hsize : Optionally (Sized structs) size us) (htie : Optionally Semantic.Written tie vs)
    (hvalue : Optionally (Assigned structs) value ws)
    (hallows : Allows allowed (us ++ (vs ++ ws))) (hstructs : s.builder.structs = structs)
    (hs : s.cursor.rest = us ++ (vs ++ (ws ++ rest))) (hends : EndsDeclarator rest) :
    (declarator q type name).Lands allowed s rest
      (Settled (StandsDeclarator q type) ⟨name.text, size, tie, value⟩) := by
  simp only [allows_append] at hallows
  -- the parts are told by their first tokens, whichever of them are there
  have hassign : ∀ kind, kind ≠ .mark .assignment → kind ≠ .mark .comma →
      kind ≠ .mark .semicolon → Lacks kind (ws ++ rest) := by
    intro kind hkind hcomma hsemicolon
    refine hvalue.lacks ?_ (hends.lacks hcomma hsemicolon)
    rintro _ _ ⟨ho, -⟩
    exact lacks_cons ho hkind.symm
  have hcolon : Lacks (.mark .openBracket) (vs ++ (ws ++ rest)) := by
    refine htie.lacks ?_ (hassign _ nofun nofun nofun)
    rintro _ _ ⟨hc, -, -⟩
    exact lacks_cons hc nofun
  refine (lands_arraySuffix hsize hallows.1 hstructs hs hcolon).bind fun i t ht hbt hi => ?_
  refine (lands_semantic htie ht (hassign _ nofun nofun nofun)).bind fun j u hu hbu hj => ?_
  have hstructs := hbu.structs.trans (hbt.structs.trans hstructs)
  refine lands_assigned hvalue hallows.2.2 hstructs hu hends fun k v hv hbv hk => ?_
  have hi := (hi.mono lasting_stands hbu).mono lasting_stands hbv
  have hj := hj.mono lasting_standsSemantic hbv
  have hmakes : Build.Makes allowed v.builder _ _ :=
    Build.makes_declaration q type name.text hi.grounded hj.grounded hk.grounded
      (allows_size hsize hallows.1 hi)
  refine ((lands_build hmakes).mono ?_).upTo hv
  rintro b id hb ⟨hground, _, hnode, nameId, rfl, hknown⟩
  constructor
  · constructor
    · exact hnode
    · exact hknown
    · exact (hi.mono lasting_stands hb).rel
    · exact (hj.mono lasting_standsSemantic hb).rel
    · exact (hk.mono lasting_standsInitial hb).rel
  · exact hground

/-! ### Declarations -/

section Declarations

variable {q : Qualifiers} {type : DataType} {d : Declarator} {before : List Declarator}
  {list : NodeId} {us : List Token} {m : Token}

/-- A variable and its name, as one more item behind the others. -/
theorem lands_named {β : Type} {previous : Option NodeId} {f : NodeId → Parser β}
    {last : List Token} {known : Builder → β → Prop} (h : d.Written structs ts)
    (hallows : Allows allowed ts) (hstructs : s.builder.structs = structs)
    (hs : s.cursor.rest = ts ++ rest) (hends : EndsDeclarator rest)
    (hlist : Itemized (StandsDeclarator q type) .declarators before s.builder previous)
    (hf : ∀ id t, t.cursor.rest = rest → s.builder.Extends allowed t.builder →
      Itemized (StandsDeclarator q type) .declarators (before ++ [d]) t.builder (some id) →
      (f id).Lands allowed t last known) :
    (expect .name >>= fun name => declarator q type name >>= fun item =>
      build (Build.link .declarators previous item) >>= f).Lands allowed s last known := by
  obtain ⟨hk, hsize, htie, hvalue⟩ := h
  simp only [List.cons_append, List.append_assoc] at hs
  have hl := lasting_standsDeclarator q type
  refine (lands_expect hs hk).bind fun name t ht hbt hname => ?_
  have hstructs := hbt.structs.trans hstructs
  have hitem := lands_declarator q type name hsize htie hvalue
    (allows_cons.1 hallows).2 hstructs ht hends
  rw [hname] at hitem ⊢
  refine hitem.bind fun item u hu hbu hitem => ?_
  have hlist := (hlist.mono hl hbt).mono hl hbu
  refine (lands_buildItem hl hlist hitem).bind fun id v hv hbv hid => ?_
  exact hf id v (hv.trans hu) (hbt.trans (hbu.trans hbv)) hid

/-- The variables behind the first one.  The induction is on how they are written. -/
theorem lands_declaratorTurns {parts : List (Declarator × List Token)}
    (hparts : ∀ p ∈ parts, p.1.Written structs p.2) (hus : Trailing (parts.map Prod.snd) us)
    (hallows : Allows allowed us) (hm : m.kind = .mark .semicolon)
    (hstructs : s.builder.structs = structs) (hs : s.cursor.rest = us ++ m :: rest)
    (hlist : Itemized (StandsDeclarator q type) .declarators before s.builder (some list)) :
    (repeated (declaratorTurn q type) list).Lands allowed s (m :: rest) fun b last =>
      Itemized (StandsDeclarator q type) .declarators (before ++ parts.map Prod.fst) b
        (some last) := by
  induction parts generalizing us s before list with
  | nil =>
      cases hus
      have hne : s.cursor.current.kind ≠ .mark .comma := by
        rw [Cursor.current_of_rest hs, hm]
        simp
      refine .done ((lands_accept_not hne).bind fun _ t ht hb hread => ?_)
      rw [hread]
      refine (lands_pure ⟨list, rfl, ?_⟩).upTo (ht.trans hs)
      simpa using hlist.mono (lasting_standsDeclarator q type) hb
  | cons p parts ih =>
      cases hus with
      | @cons _ us _ c hc hus =>
          simp only [allows_cons, allows_append] at hallows
          rw [List.cons_append, List.append_assoc] at hs
          have hturn : (declaratorTurn q type list).Lands allowed s (us ++ m :: rest) fun b r =>
              ∃ longer, r = .again longer ∧ Itemized (StandsDeclarator q type) .declarators
                (before ++ [p.1]) b (some longer) := by
            refine (lands_accept hs hc).bind fun _ t ht hb hread => ?_
            rw [hread]
            have hlist := hlist.mono (lasting_standsDeclarator q type) hb
            refine lands_named (hparts p List.mem_cons_self) hallows.2.1 (hb.structs.trans hstructs)
              ht (hus.ends hm) hlist fun id u hu _ hid => ?_
            exact (lands_pure ⟨id, rfl, hid⟩).upTo hu
          refine hturn.again ?_ fun longer t ht hb hlonger => ?_
          · simp only [hs, List.length_append, List.length_cons]
            omega
          · have hrest := fun r hr => hparts r (List.mem_cons_of_mem p hr)
            have hgo := ih hrest hus hallows.2.2 (hb.structs.trans hstructs) ht hlonger
            simpa using hgo

/-- **What a declaration is written as is read as the declaration.** -/
theorem lands_declarationStatement {d : Declaration} (h : d.Written structs ts)
    (hallows : Allows allowed ts) (hstructs : s.builder.structs = structs)
    (hs : s.cursor.rest = ts ++ rest) :
    declarationStatement.Lands allowed s rest (Settled StandsDeclaration d) := by
  cases h with
  | @intro q type p parts qs ks us m hq htype items hus hm =>
      obtain ⟨vs, rfl, hvs⟩ := trailing_of_separated hus
      simp only [allows_append] at hallows
      simp only [List.append_assoc, List.cons_append, List.nil_append] at hs
      have hp := items p List.mem_cons_self
      obtain ⟨k, body, hname, hk⟩ := hp.begins
      have hnext : Lacks .qualifier (ks ++ (p.2 ++ (vs ++ m :: rest))) := by
        obtain ⟨w, ws, rfl, hw | hw | hw⟩ := htype.begins
        · exact lacks_cons hw nofun
        · exact lacks_cons hw nofun
        · exact lacks_cons hw nofun
      refine (lands_qualifiers hq hs hnext).bind fun _ t ht hbt hfound => ?_
      subst hfound
      have htokens : t.cursor.rest = ks ++ k :: (body ++ (vs ++ m :: rest)) := by
        rw [ht, hname, List.cons_append]
      refine (lands_dataType htype hallows.2.1 htokens hk).bind fun _ u hu hbu hfound => ?_
      subst hfound
      have hstructs := hbu.structs.trans (hbt.structs.trans hstructs)
      have htokens : u.cursor.rest = p.2 ++ (vs ++ m :: rest) := by
        rw [hu, hname, List.cons_append]
      refine lands_named hp hallows.2.2.1.1 hstructs htokens (hvs.ends hm) .nil
        fun id v hv hbv hid => ?_
      have hrest := fun r hr => items r (List.mem_cons_of_mem p hr)
      refine (lands_declaratorTurns hrest hvs hallows.2.2.1.2 hm (hbv.structs.trans hstructs) hv
        hid).bind fun list w hw _ hlist => ?_
      refine .on_kind hw hm ?_
      rw [if_pos rfl]
      refine (lands_advance hw).bind fun _ x hx hb _ => ?_
      have hlist := hlist.mono (lasting_standsDeclarator _ _) hb
      refine ((lands_add ?_).mono ?_).upTo hx
      · simpa [Node.children] using hlist.grounded
      · rintro b id hb ⟨hground, hnode⟩
        obtain ⟨built, hbuilt, hlinks, hstands⟩ :=
          (hlist.mono (lasting_standsDeclarator _ _) hb).stands
        refine ⟨?_, hground⟩
        simp only [List.nil_append, List.singleton_append] at hbuilt
        rw [List.map_cons, ← hbuilt]
        exact .intro hnode hlinks hstands

end Declarations

/-! ### What is ahead -/

/-- In front of a name the look ahead finds exactly the tokens of the type. -/
theorem typeLengthOf_written {type : DataType} (h : type.Written ts) (ht : t.kind = .name)
    (isStruct : String → Bool) :
    Cursor.typeLengthOf isStruct (ts ++ t :: rest) = some ts.length := by
  cases h with
  | keyword hk _ => simp [Cursor.typeLengthOf, Cursor.startsType, Cursor.isGeneric, hk]
  | vector hk _ => simp [Cursor.typeLengthOf, Cursor.startsType, Cursor.isGeneric, hk, ht]
  | matrix hk _ => simp [Cursor.typeLengthOf, Cursor.startsType, Cursor.isGeneric, hk, ht]
  | vectorOf hk ho hw _ hc hsize hg =>
      simp [Cursor.typeLengthOf, Cursor.startsType, Cursor.isGeneric, Cursor.throughGreater, hk, ho,
        hw, hc, hsize.1, hg]
  | matrixOf hk ho hw _ hc hrows hd hcolumns hg =>
      simp [Cursor.typeLengthOf, Cursor.startsType, Cursor.isGeneric, Cursor.throughGreater, hk, ho,
        hw, hc, hrows.1, hd, hcolumns.1, hg]

/-- A type stands ahead that is not called. -/
theorem declarationAhead_of_type {type : DataType} (h : type.Written ts)
    (hs : s.cursor.rest = ts ++ t :: rest) (ht : t.kind = .name) :
    declarationAhead s = .ok true s := by
  have hqualifier : s.cursor.current.kind ≠ .qualifier := by
    obtain ⟨w, ws, rfl, hw | hw | hw⟩ := h.begins <;>
      · rw [Cursor.current_of_rest hs, hw]
        simp
  have hlength : s.cursor.typeLength (fun name => (s.builder.structs.lookup name).isSome) 0 =
      some ts.length := by
    rw [Cursor.typeLength, List.drop_zero, hs]
    exact typeLengthOf_written h ht _
  have hpeek : s.cursor.peek ts.length = t := by simp [Cursor.peek, hs]
  have hname : (t.kind != .mark .openParen) = true := by simp [ht]
  unfold declarationAhead
  rw [bind_apply, currentKind_apply]
  dsimp only
  rw [if_neg hqualifier, bind_apply, typeLength_apply, hlength]
  dsimp only
  rw [bind_apply, peek_apply, hpeek]
  exact congrArg (EStateM.Result.ok · s) hname

/-- **A declaration is seen for what it is.** -/
theorem declarationAhead_of_declaration {d : Declaration} (h : d.Written structs ts)
    (hs : s.cursor.rest = ts ++ rest) : declarationAhead s = .ok true s := by
  cases h with
  | @intro q type p parts qs ks us m hq htype items hus hm =>
      obtain ⟨vs, rfl, -⟩ := trailing_of_separated hus
      obtain ⟨k, body, hname, hk⟩ := (items p List.mem_cons_self).begins
      simp only [hname, List.append_assoc, List.cons_append] at hs
      cases hq with
      | none => exact declarationAhead_of_type htype hs hk
      | more ht _ _ =>
          unfold declarationAhead
          rw [bind_apply, currentKind_apply, Cursor.current_of_rest hs, ht]
          rfl

/-- **An expression is not taken for a declaration.** -/
theorem declarationAhead_of_starts (h : Starts s.builder.structs s.cursor.rest) :
    declarationAhead s = .ok false s := by
  obtain ⟨t, us, hs, hkind, htype, hname⟩ := h
  have hcurrent := Cursor.current_of_rest hs
  have hqualifier : s.cursor.current.kind ≠ .qualifier := by
    rw [hcurrent]
    intro h
    rw [h] at hkind
    exact absurd hkind (by decide)
  unfold declarationAhead
  rw [bind_apply, currentKind_apply]
  dsimp only
  rw [if_neg hqualifier, bind_apply, typeLength_apply]
  by_cases hk : t.kind = .typeName
  · -- the type is called
    obtain ⟨o, vs, rfl, ho⟩ := htype hk
    have hlength : s.cursor.typeLength (fun name => (s.builder.structs.lookup name).isSome) 0 =
        some 1 := by
      simp [Cursor.typeLength, hs, Cursor.typeLengthOf, Cursor.startsType, Cursor.isGeneric, hk]
    have hpeek : s.cursor.peek 1 = o := by simp [Cursor.peek, hs]
    have hcalled : (o.kind != .mark .openParen) = false := by simp [ho]
    rw [hlength]
    dsimp only
    rw [bind_apply, peek_apply, hpeek]
    exact congrArg (EStateM.Result.ok · s) hcalled
  · -- no type begins here, and two names in a row are not there
    have hstart :
        Cursor.startsType (fun name => (s.builder.structs.lookup name).isSome) t = false := by
      unfold Cursor.startsType
      split
      · next heq => exact absurd heq hk
      · next heq => simp [heq, expressionStart] at hkind
      · next heq => simp [heq, expressionStart] at hkind
      · next heq => simp [(hname heq).1]
      · rfl
    have hlength : s.cursor.typeLength (fun name => (s.builder.structs.lookup name).isSome) 0 =
        none := by
      simp [Cursor.typeLength, hs, Cursor.typeLengthOf, hstart]
    rw [hlength]
    dsimp only
    rw [bind_apply, currentKind_apply, hcurrent]
    dsimp only
    rw [bind_apply, peek_apply]
    have hnames : (t.kind = .name && (s.cursor.peek 1).kind = .name) = false := by
      by_cases ht : t.kind = .name
      · obtain ⟨-, hnext⟩ := hname ht
        cases us with
        | nil => simp [Cursor.peek, hs, Token.endOfFile]
        | cons u us => simpa [Cursor.peek, hs, ht] using hnext
      · simp [ht]
    exact congrArg (EStateM.Result.ok · s) hnames

end Grammar

end ShaderLang
