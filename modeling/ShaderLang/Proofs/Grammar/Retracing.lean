/-
**What was read spells the tree.**

Reading what an expression is written as gives the expression back.  Here the other direction is shown,
for whatever was read: if a rule has a result, the tokens between its two states spell a tree that the
new node stands for.  No token is read without being part of the tree, or of the parentheses and types
in it.

The rules are looked at under the assumption that `expr` retraces what it reads.

Main definitions:

* `ShaderLang.Grammar.StartsType` — a type can begin here;
* `ShaderLang.Grammar.Retraced`, `ShaderLang.Grammar.RetracedType`, `ShaderLang.Grammar.RetracedList` — the
  tokens that were read spell what was made of them.

Main results:

* `ShaderLang.Build.makes_stranger` — a word for an intrinsic function that there is not;
* `ShaderLang.Grammar.consumes_generic`, `ShaderLang.Grammar.consumes_typeSpecifier`,
  `ShaderLang.Grammar.consumes_arguments`, `ShaderLang.Grammar.consumes_operand`,
  `ShaderLang.Grammar.consumes_extend` — the parts;
* `ShaderLang.Grammar.consumes_expression` — **the tokens of an expression spell its tree**.
-/

import ShaderLang.Proofs.Builder.Alike
import ShaderLang.Proofs.Grammar.Consuming
import ShaderLang.Proofs.Grammar.Operands
import ShaderLang.Proofs.Grammar.Spelling

set_option relaxedAutoImplicit false
set_option autoImplicit false

namespace ShaderLang

/-! ### Steps of building -/

namespace Build

variable {b b' : Builder} {type : DataType} {text : String}

theorem eq_of_namedType (h : namedType text b = .ok type b') :
    type = (DataType.ofKeyword text).getD .void := by
  unfold namedType at h
  cases hkeyword : DataType.ofKeyword text with
  | none | some =>
      rw [hkeyword] at h
      exact (EStateM.Result.ok.inj h).1.symm

theorem eq_of_structType {id : UInt32} (hid : b.structs.lookup text = some id)
    (h : structType text b = .ok type b') : type = .struct id := by
  rw [structType_apply, hid] at h
  exact (EStateM.Result.ok.inj h).1.symm

/-- A word for an intrinsic function that there is not is reported and called like any name. -/
theorem makes_stranger {arguments : Option NodeId} {allowed : Problem → Prop}
    (htext : Intrinsic.ofName text = none) (hp : allowed (.unknownIntrinsic text))
    (harguments : ∀ id, arguments = some id → b.arena.Grounded id) :
    Makes allowed b (intrinsicCall text arguments) fun b' n =>
      ∃ callee nid, n = .call callee arguments ∧ b'.arena.node? callee = some (.name nid) ∧
        b'.names.text? nid = some text := by
  unfold intrinsicCall
  rw [htext]
  refine .after rfl (extends_report hp) ?_
  obtain ⟨callee, b₁, n, hname, hgrows, hground, hnode, nid, rfl, hnid⟩ :
      Makes allowed { b with diagnostics := b.diagnostics.report (.unknownIntrinsic text) b.position }
        (name text) _ := makes_name text
  refine .after hname hgrows ?_
  obtain ⟨id, b₂, n, hcall, hgrows', hrest, hn, rfl⟩ : Makes allowed b₁ (call callee arguments) _ :=
    makes_call hground fun i hi => hgrows.grounded (harguments i hi)
  exact ⟨id, b₂, _, hcall, hgrows', hrest, hn, callee, nid, rfl, hgrows'.nodes _ _ hnode,
    hgrows'.names _ _ hnid⟩

end Build

/-! ### Looking ahead for a type -/

namespace Cursor

/-- The next token is told by the tokens that are left. -/
theorem kind_current_next {c d : Cursor} {x : Token} (h : c.rest = x :: d.rest) :
    c.next.current.kind = d.current.kind := by
  unfold current
  rw [rest_next, h, List.tail_cons]
  cases d.rest <;> rfl

/-- Where a type has a length, it begins with a token that a type can begin with. -/
theorem startsType_of_typeLengthOf {isStruct : String → Bool} {ts : List Token} {n : Nat}
    (h : typeLengthOf isStruct ts = some n) : ∃ t us, ts = t :: us ∧ startsType isStruct t = true := by
  cases ts with
  | nil => contradiction
  | cons t us =>
      refine ⟨t, us, rfl, ?_⟩
      by_cases hstart : startsType isStruct t = true
      · exact hstart
      · simp only [typeLengthOf, if_neg hstart] at h
        contradiction

end Cursor

namespace Grammar

open ShaderLang.Parser ShaderLang.Builder

variable {structs : Structs} {expr : Power → Parser NodeId} {s t : ParseState}

/-- A type can begin at the next token. -/
def StartsType (structs : Structs) (c : Cursor) : Prop :=
  Cursor.startsType (fun name => (structs.lookup name).isSome) c.current = true

instance (structs : Structs) (c : Cursor) : Decidable (StartsType structs c) :=
  inferInstanceAs (Decidable (_ = true))

/-- Behind the parenthesis of a conversion a type can begin. -/
theorem startsType_of_castAhead {o : Token} (h : castAhead s = .ok true s)
    (hs : s.cursor.rest = o :: t.cursor.rest) : StartsType s.builder.structs t.cursor := by
  unfold castAhead at h
  rw [bind_apply, typeLength_apply] at h
  dsimp only at h
  cases hn : s.cursor.typeLength (fun name => (s.builder.structs.lookup name).isSome) 1 with
  | none =>
      rw [hn] at h
      cases h
  | some n =>
      rw [Cursor.typeLength, hs, List.drop_one, List.tail_cons] at hn
      obtain ⟨k, us, hk, hstart⟩ := Cursor.startsType_of_typeLengthOf hn
      rwa [StartsType, Cursor.current_of_rest hk]

/-! ### What is known of the tokens read -/

/-- The tokens spell a tree that the node stands for. -/
def Retraced (structs : Structs) (read : List Token) (b : Builder) (id : NodeId) : Prop :=
  ∃ e, Built e b id ∧ Spelled structs e read

/-- The tokens spell the type, and what stands in it for extents are expressions.  A word for a generic
type does not stand alone if the second token is a `<`. -/
def RetracedType (structs : Structs) (second : TokenKind) (read : List Token) (_ : Builder)
    (type : DataType) : Prop :=
  ∃ extents : List (Expr × List Token), TypeSpelled structs type (extents.map Prod.snd) read ∧
    (∀ p ∈ extents, Spelled structs p.1 p.2) ∧
    ∀ w, read = [w] → Cursor.isGeneric w.kind = true → second ≠ .mark .less

/-- The tokens are made up of items, each of which spells the tree that its item of the chain stands
for. -/
def RetracedList (structs : Structs) (shape : List (List Token) → List Token → Prop)
    (read : List Token) (b : Builder) (list : Option NodeId) : Prop :=
  ∃ parts : List (Expr × List Token), Listed (parts.map Prod.fst) b list ∧
    (∀ p ∈ parts, Spelled structs p.1 p.2) ∧ shape (parts.map Prod.snd) read

/-- The rule for expressions retraces what it reads. -/
def Retraces (structs : Structs) (expr : Power → Parser NodeId) : Prop :=
  ∀ j t, t.builder.structs = structs → (expr j).Consumes t (Retraced structs)

/-! ### Types -/

theorem consumes_componentType :
    componentType.Consumes s fun read _ type =>
      ∃ k, read = [k] ∧ k.kind = .typeName ∧ type = (DataType.ofKeyword k.text).getD .void := by
  refine (consumes_expect .typeName nofun).bind fun k t read _ _ hk => ?_
  obtain ⟨rfl, hk⟩ := hk
  refine (consumes_build (Build.inner_namedType k.text)).mono ?_
  rintro more b type - ⟨rfl, b', htype⟩
  exact ⟨k, rfl, hk, Build.eq_of_namedType htype⟩

/-- The tokens spell extents that are expressions, with the `>` behind them. -/
def RetracedExtents (structs : Structs) (read : List Token) (_ : Builder) (_ : DataType) : Prop :=
  ∃ (extents : List (Expr × List Token)) (us : List Token) (g : Token), read = us ++ [g] ∧
    Separated (extents.map Prod.snd) us ∧ g.kind = .mark .greater ∧
    ∀ p ∈ extents, Spelled structs p.1 p.2

/-- A word for a generic type, alone or with a component type and extents. -/
theorem consumes_generic {word : Keyword} {alone : Build DataType} {extents : DataType → Parser DataType}
    (hword : Cursor.isGeneric (.keyword word) = true) (halone : alone.Inner)
    (hextents : ∀ component t, t.builder.structs = structs →
      (extents component).Consumes t (RetracedExtents structs))
    (hstructs : s.builder.structs = structs) :
    (expectKeyword word >>= fun _ => accept (.mark .less) >>= fun more =>
      if more = true then
        componentType >>= fun component => expectMark .comma >>= fun _ => extents component
      else build alone).Consumes s (RetracedType structs s.cursor.next.current.kind) := by
  refine (consumes_expectKeyword word).bind ?_
  rintro _ t₁ _ hread h₁ ⟨w, hw, hkind⟩
  have hgeneric : Cursor.isGeneric w.kind = true := hkind ▸ hword
  refine (consumes_accept (.mark .less) nofun).bind fun more t₂ _ _ h₂ hless => ?_
  subst hw
  cases more with
  | false =>
      obtain ⟨rfl, hnext⟩ := hless
      rw [if_neg Bool.false_ne_true]
      refine (consumes_build halone).mono ?_
      rintro more b type - ⟨rfl, -⟩
      exact ⟨[], .bare hgeneric, nofun, fun _ _ _ => Cursor.kind_current_next hread ▸ hnext⟩
  | true =>
      obtain ⟨l, rfl, hl⟩ := hless
      refine consumes_componentType.bind ?_
      rintro component t₃ _ _ h₃ ⟨k, hk, hkind, _⟩
      refine (consumes_expectMark .comma).bind ?_
      rintro _ t₄ _ _ h₄ ⟨c, hc, hcomma⟩
      have h := ((h₁.trans h₂).trans h₃).trans h₄
      refine (hextents component t₄ (h.structs.trans hstructs)).mono ?_
      rintro read b type - ⟨parts, us, g, rfl, hus, hg, hparts⟩
      subst hk hc
      exact ⟨parts, .generic hgeneric hl hkind hcomma hus hg, hparts, nofun⟩

theorem consumes_vectorSpecifier (he : Retraces structs expr)
    (hstructs : s.builder.structs = structs) :
    (vectorSpecifier expr).Consumes s (RetracedType structs s.cursor.next.current.kind) := by
  refine consumes_generic rfl (Build.inner_namedType _) (fun component t₁ hst => ?_) hstructs
  refine (he .relational t₁ hst).bind ?_
  rintro size t₂ ts _ _ ⟨e, _, hts⟩
  refine (consumes_expectMark .greater).bind ?_
  rintro _ t₃ _ _ _ ⟨g, hg, hgreater⟩
  refine (consumes_build (Build.inner_vectorType component size)).mono ?_
  rintro more b type - ⟨rfl, -⟩
  subst hg
  exact ⟨[(e, ts)], ts, g, rfl, .one ts, hgreater, by simpa⟩

theorem consumes_matrixSpecifier (he : Retraces structs expr)
    (hstructs : s.builder.structs = structs) :
    (matrixSpecifier expr).Consumes s (RetracedType structs s.cursor.next.current.kind) := by
  refine consumes_generic rfl (Build.inner_namedType _) (fun component t₁ hst => ?_) hstructs
  refine (he .relational t₁ hst).bind ?_
  rintro rows t₂ ts _ h₂ ⟨e, _, hts⟩
  refine (consumes_expectMark .comma).bind ?_
  rintro _ t₃ _ _ h₃ ⟨c, hc, hcomma⟩
  have hst₃ := h₃.structs.trans (h₂.structs.trans hst)
  refine (he .relational t₃ hst₃).bind ?_
  rintro columns t₄ us _ _ ⟨f, _, hus⟩
  refine (consumes_expectMark .greater).bind ?_
  rintro _ t₅ _ _ _ ⟨g, hg, hgreater⟩
  refine (consumes_build (Build.inner_matrixType component rows columns)).mono ?_
  rintro more b type - ⟨rfl, -⟩
  subst hc hg
  refine ⟨[(e, ts), (f, us)], ts ++ c :: us, g, ?_, .more hcomma (.one us), hgreater, ?_⟩
  · simp
  · simp [hts, hus]

/-- A type, where one can begin. -/
theorem consumes_typeSpecifier (he : Retraces structs expr) (hstructs : s.builder.structs = structs)
    (hstart : StartsType structs s.cursor) :
    (typeSpecifier expr).Consumes s (RetracedType structs s.cursor.next.current.kind) := by
  refine .on_kind ?_
  split
  case h_1 =>
      refine consumes_componentType.mono ?_
      rintro read b type - ⟨k, rfl, hk, rfl⟩
      refine ⟨[], .word hk, nofun, fun w hw hgeneric => ?_⟩
      rw [← (List.cons.inj hw).1, hk] at hgeneric
      contradiction
  case h_2 => exact consumes_vectorSpecifier he hstructs
  case h_3 => exact consumes_matrixSpecifier he hstructs
  case h_4 hkind =>
      refine (consumes_advance (hkind ▸ nofun)).bind ?_
      rintro k t read _ h ⟨hread, hk⟩
      refine (consumes_build (Build.inner_structType k.text)).mono ?_
      rintro more b type - ⟨rfl, b', htype⟩
      -- a name that stands for no struct would be reported, and no type begins with it
      have hname : (structs.lookup k.text).isSome = true := by
        rwa [StartsType, Cursor.startsType, hkind, ← hk] at hstart
      obtain ⟨id, hid⟩ := Option.isSome_iff_exists.1 hname
      have hid' : t.builder.structs.lookup k.text = some id := by rwa [h.structs.trans hstructs]
      rw [hread, Build.eq_of_structType hid' htype]
      refine ⟨[], .struct (hk ▸ hkind) hid, nofun, fun w hw hgeneric => ?_⟩
      rw [← (List.cons.inj hw).1, hk, hkind] at hgeneric
      contradiction
  case h_5 => exact consumes_unexpected _

/-! ### Arguments -/

/-- Arguments with a comma each, behind which there is one more. -/
def PendingArguments (structs : Structs) (read : List Token) (b : Builder) (list : Option NodeId) :
    Prop :=
  b.structs = structs ∧ RetracedList structs Followed read b list

theorem consumes_argumentTurn (he : Retraces structs expr) {read : List Token}
    {list : Option NodeId} (h : PendingArguments structs read s.builder list) :
    (argumentTurn expr list).Consumes s fun more b =>
      Turn.Known (PendingArguments structs (read ++ more) b)
        (RetracedList structs Separated (read ++ more) b) := by
  obtain ⟨hstructs, parts, hlist, hparts, hread⟩ := h
  refine (he .comma s hstructs).bind ?_
  rintro item t ts _ h₁ ⟨e, hitem, hts⟩
  refine (consumes_of_lands_here (lands_buildLink (hlist.mono h₁) hitem)).bind ?_
  rintro longer u _ _ h₂ ⟨hnil, hlonger⟩
  refine (consumes_accept (.mark .comma) nofun).bind fun more v _ _ h₃ hmore => ?_
  have hlonger : Listed ((parts ++ [(e, ts)]).map Prod.fst) v.builder longer := by
    rw [List.map_append]
    exact hlonger.mono h₃
  have hparts : ∀ p ∈ parts ++ [(e, ts)], Spelled structs p.1 p.2 :=
    List.forall_mem_append.2 ⟨hparts, by simpa⟩
  subst hnil
  cases more with
  | true =>
      obtain ⟨c, rfl, hc⟩ := hmore
      have hst := h₃.structs.trans (h₂.structs.trans (h₁.structs.trans hstructs))
      have hread : Followed (parts.map Prod.snd ++ [ts]) (read ++ (ts ++ [c])) := hread.snoc hc
      refine consumes_pure ⟨hst, _, hlonger, hparts, ?_⟩
      simpa using hread
  | false =>
      obtain ⟨rfl, -⟩ := hmore
      refine consumes_pure ⟨_, hlonger, hparts, ?_⟩
      simpa using hread.separated ts

/-- Arguments between parentheses. -/
theorem consumes_arguments (he : Retraces structs expr) (hstructs : s.builder.structs = structs) :
    (arguments expr).Consumes s (RetracedList structs Enlisted) := by
  refine (consumes_expectMark .openParen).bind ?_
  rintro _ t₁ _ _ h₁ ⟨o, ho, hopen⟩
  refine (consumes_accept (.mark .closeParen) nofun).bind fun read t₂ _ _ h₂ hclose => ?_
  subst ho
  cases read with
  | true =>
      obtain ⟨c, rfl, hc⟩ := hclose
      exact consumes_pure ⟨[], .nil _, nofun, .intro hopen hc .none⟩
  | false =>
      obtain ⟨rfl, -⟩ := hclose
      have hnone : PendingArguments structs [] t₂.builder none :=
        ⟨h₂.structs.trans (h₁.structs.trans hstructs), [], .nil _, nofun, .nil⟩
      refine (consumes_repeated (fun _ _ _ => consumes_argumentTurn he) [] none t₂ hnone).bind ?_
      rintro list t₃ us _ h₃ ⟨parts, hlist, hparts, hus⟩
      refine .on_kind ?_
      split
      · next hkind =>
          refine (consumes_advance (hkind ▸ nofun)).bind ?_
          rintro c t₄ _ _ h₄ ⟨hc, hcurrent⟩
          subst hc
          exact consumes_pure ⟨parts, hlist.mono h₄, hparts, .intro hopen (hcurrent ▸ hkind) hus⟩
      · exact consumes_unexpected _

/-! ### Operands -/

/-- A literal or a name is spelled by its token. -/
theorem consumes_leaf {e : Expr} {p : Parser NodeId}
    (hkind : s.cursor.current.kind ≠ .endOfFile)
    (h : s.cursor.rest = s.cursor.current :: s.cursor.next.rest →
      p.Lands (fun _ => True) s s.cursor.next.rest (Built e))
    (hspelled : Spelled structs e [s.cursor.current]) : p.Consumes s (Retraced structs) := by
  have hrest : s.cursor.rest = [s.cursor.current] ++ s.cursor.next.rest :=
    (Cursor.cons_current_next (Cursor.left_pos_of_kind hkind)).symm
  refine (consumes_of_lands (h hrest) hrest).mono ?_
  rintro _ b id - ⟨rfl, hid⟩
  exact ⟨e, hid, hspelled⟩

theorem consumes_parenthesised (he : Retraces structs expr) (hstructs : s.builder.structs = structs) :
    (parenthesised expr).Consumes s (Retraced structs) := by
  obtain ⟨isCast, hcast⟩ := castAhead_apply s
  refine .look hcast ?_
  refine (consumes_expectMark .openParen).bind ?_
  rintro _ t₁ _ hread h₁ ⟨o, ho, hopen⟩
  have hst₁ := h₁.structs.trans hstructs
  subst ho
  cases isCast with
  | true =>
      -- what is read behind the parenthesis is the type that was seen there
      have hstart : StartsType structs t₁.cursor := hstructs ▸ startsType_of_castAhead hcast hread
      refine (consumes_typeSpecifier he hst₁ hstart).bind ?_
      rintro type t₂ ks _ h₂ ⟨extents, htype, hextents, _⟩
      refine (consumes_expectMark .closeParen).bind ?_
      rintro _ t₃ _ _ h₃ ⟨c, hc, hclose⟩
      have hst₃ := h₃.structs.trans (h₂.structs.trans hst₁)
      refine (he .unary t₃ hst₃).bind ?_
      rintro value t₄ ts _ h₄ ⟨e, hvalue, hts⟩
      refine (consumes_add (by simp [Node.children, hvalue.grounded])).mono ?_
      rintro more b id hb ⟨rfl, hground, hnode⟩
      subst hc
      refine ⟨.cast type e, ⟨.cast hnode (hvalue.mono hb).stands, hground⟩, ?_⟩
      simpa using Spelled.cast hopen htype hextents hclose hts
  | false =>
      refine (he .default t₁ hst₁).bind ?_
      rintro value t₂ ts _ h₂ ⟨e, hvalue, hts⟩
      refine (consumes_expectMark .closeParen).bind ?_
      rintro _ t₃ _ _ h₃ ⟨c, hc, hclose⟩
      subst hc
      exact consumes_pure ⟨e, hvalue.mono h₃, .parens hopen hclose hts⟩

theorem consumes_construction (he : Retraces structs expr) (hstructs : s.builder.structs = structs)
    (hstart : StartsType structs s.cursor) :
    (construction expr).Consumes s (Retraced structs) := by
  refine (consumes_typeSpecifier he hstructs hstart).bind ?_
  rintro type t₁ ks _ h₁ ⟨extents, htype, hextents, _⟩
  refine (consumes_arguments he (h₁.structs.trans hstructs)).bind ?_
  rintro list t₂ ts _ h₂ ⟨parts, hlist, hparts, hts⟩
  refine (consumes_add (n := .construct type list) fun i hi =>
    hlist.grounded i (Option.mem_toList.1 hi)).mono ?_
  rintro more b id hb ⟨rfl, hground, hnode⟩
  obtain ⟨built, hbuilt, hchain, hstands⟩ := (hlist.mono hb).stands
  refine ⟨.construct type (parts.map Prod.fst),
    ⟨hbuilt ▸ .construct hnode hchain hstands, hground⟩, ?_⟩
  simpa using Spelled.construct htype hextents hparts hts

theorem consumes_intrinsicCall (he : Retraces structs expr) (hstructs : s.builder.structs = structs)
    (hkind : s.cursor.current.kind = .intrinsic) :
    (intrinsicCall expr).Consumes s (Retraced structs) := by
  refine (consumes_advance (hkind ▸ nofun)).bind ?_
  rintro k t₁ _ _ h₁ ⟨hread, hk⟩
  refine (consumes_arguments he (h₁.structs.trans hstructs)).bind ?_
  rintro list t₂ ts _ h₂ ⟨parts, hlist, hparts, hts⟩
  subst hread
  rw [← hk] at hkind
  cases hi : Intrinsic.ofName k.text with
  | some i =>
      rw [← Intrinsic.name_of_ofName hi]
      refine (consumes_of_lands_here (lands_build
        (Build.makes_intrinsicCall i hlist.grounded))).mono ?_
      rintro more b id hb ⟨rfl, hground, _, hnode, rfl⟩
      obtain ⟨built, hbuilt, hchain, hstands⟩ := (hlist.mono hb).stands
      refine ⟨.intrinsic i (parts.map Prod.fst),
        ⟨hbuilt ▸ .intrinsic hnode hchain hstands, hground⟩, ?_⟩
      simpa using Spelled.intrinsic hkind hi hparts hts
  | none =>
      refine (consumes_of_lands_here (lands_build
        (Build.makes_stranger hi trivial hlist.grounded))).mono ?_
      rintro more b id hb ⟨rfl, hground, _, hnode, callee, nid, rfl, hcallee, hname⟩
      obtain ⟨built, hbuilt, hchain, hstands⟩ := (hlist.mono hb).stands
      refine ⟨.call (.name k.text) (parts.map Prod.fst),
        ⟨hbuilt ▸ .call hnode (.name hcallee hname) hchain hstands, hground⟩, ?_⟩
      simpa using Spelled.stranger hkind hi hparts hts

theorem consumes_leading (he : Retraces structs expr) (hstructs : s.builder.structs = structs)
    {op : Leading} {m : Mark} (hm : Leading.ofMark m = some op)
    (hkind : s.cursor.current.kind = .mark m) :
    (leading expr op).Consumes s (Retraced structs) := by
  refine (consumes_advance (hkind ▸ nofun)).bind ?_
  rintro o t₁ _ _ h₁ ⟨hread, ho⟩
  refine (he .unary t₁ (h₁.structs.trans hstructs)).bind ?_
  rintro value t₂ ts _ h₂ ⟨e, hvalue, hts⟩
  subst hread
  have hspelled : Spelled structs (op.apply e) (o :: ts) :=
    .leading (by rw [ho, hkind, Leading.mark_of_ofMark hm]) hts
  cases op with
  | unary op =>
      refine (consumes_add (by simp [Node.children, hvalue.grounded])).mono ?_
      rintro more b id hb ⟨rfl, hground, hnode⟩
      rw [List.append_nil]
      exact ⟨_, ⟨.unary hnode (hvalue.mono hb).stands, hground⟩, hspelled⟩
  | step d =>
      refine (consumes_add (by simp [Node.children, hvalue.grounded])).mono ?_
      rintro more b id hb ⟨rfl, hground, hnode⟩
      rw [List.append_nil]
      exact ⟨_, ⟨.step hnode (hvalue.mono hb).stands, hground⟩, hspelled⟩

/-- What an operand reads. -/
theorem consumes_operand (he : Retraces structs expr) (hstructs : s.builder.structs = structs) :
    (operand expr).Consumes s (Retraced structs) := by
  cases hkind : s.cursor.current.kind with
  | int => exact consumes_leaf (by simp [hkind]) (lands_int hkind fun _ => trivial) (.int hkind)
  | float => exact consumes_leaf (by simp [hkind]) (lands_float hkind fun _ => trivial) (.float hkind)
  | string => exact consumes_leaf (by simp [hkind]) (lands_string hkind) (.string hkind)
  | name => exact consumes_leaf (by simp [hkind]) (lands_name hkind) (.name hkind)
  | intrinsic =>
      refine .on_kind ?_
      rw [hkind]
      exact consumes_intrinsicCall he hstructs hkind
  | typeName =>
      refine .on_kind ?_
      rw [hkind]
      exact consumes_construction he hstructs (by rw [StartsType, Cursor.startsType, hkind])
  | keyword k =>
      cases k with
      | trueWord => exact consumes_leaf (by simp [hkind]) (lands_true hkind) (.true hkind)
      | falseWord => exact consumes_leaf (by simp [hkind]) (lands_false hkind) (.false hkind)
      | vectorWord | matrixWord =>
          refine .on_kind ?_
          rw [hkind]
          exact consumes_construction he hstructs (by rw [StartsType, Cursor.startsType, hkind])
      | _ =>
          refine .on_kind ?_
          rw [hkind]
          exact consumes_unexpected _
  | mark m =>
      refine .on_kind ?_
      rw [hkind]
      split
      case h_11 => exact consumes_parenthesised he hstructs
      -- the marks without a case of their own
      case h_12 heq =>
          cases heq
          split
          · next op hm => exact consumes_leading he hstructs hm hkind
          · exact consumes_unexpected _
      case h_13 hmark => exact absurd rfl (hmark m)
      all_goals contradiction
  | _ =>
      refine .on_kind ?_
      rw [hkind]
      exact consumes_unexpected _

/-- The name of a member. -/
theorem consumes_fieldName :
    fieldName.Consumes s fun read _ k => read = [k] ∧ (k.kind = .name ∨ k.kind = .intrinsic) := by
  refine .on_kind ?_
  split
  case h_1 hkind =>
      refine (consumes_advance (hkind ▸ nofun)).mono fun read _ k _ hk => ?_
      exact ⟨hk.1, .inl (hk.2 ▸ hkind)⟩
  case h_2 hkind =>
      refine (consumes_advance (hkind ▸ nofun)).mono fun read _ k _ hk => ?_
      exact ⟨hk.1, .inr (hk.2 ▸ hkind)⟩
  case h_3 => exact consumes_unexpected _

/-! ### Extensions -/

/-- The next token begins the extension. -/
theorem kind_of_above {level : Power} {x : Extension}
    (h : Extension.above level s.cursor.current.kind = some x) :
    ∃ m, s.cursor.current.kind = .mark m ∧ x.mark = some m := by
  have hx := (Option.filter_eq_some_iff.1 h).1
  cases hkind : s.cursor.current.kind with
  | mark m =>
      rw [hkind] at hx
      exact ⟨m, rfl, Extension.mark_of_ofMark hx⟩
  | _ =>
      rw [hkind] at hx
      contradiction

/-- An operator between two operands. -/
theorem consumes_infix {level : Power} {m : Mark} {left : NodeId} {e : Expr} {ts : List Token}
    {node : NodeId → Node} {join : Expr → Expr} (he : Retraces structs expr)
    (hstructs : s.builder.structs = structs) (hkind : s.cursor.current.kind = .mark m)
    (hleft : Built e s.builder left) (hchildren : ∀ right, (node right).children = [left, right])
    (hstands : ∀ (b : Builder) id right f, b.arena.node? id = some (node right) →
      b.Stands left e → b.Stands right f → b.Stands id (join f))
    (hspelled : ∀ o f us, o.kind = .mark m → Spelled structs f us →
      Spelled structs (join f) (ts ++ o :: us)) :
    (advance >>= fun _ => expr level >>= fun right => build (Build.add (node right))).Consumes s
      fun read => Retraced structs (ts ++ read) := by
  refine (consumes_advance (hkind ▸ nofun)).bind ?_
  rintro o t₁ _ _ h₁ ⟨hread, ho⟩
  refine (he level t₁ (h₁.structs.trans hstructs)).bind ?_
  rintro right t₂ us _ h₂ ⟨f, hright, hus⟩
  have hleft := (hleft.mono h₁).mono h₂
  refine (consumes_add (by simp [hchildren, hleft.grounded, hright.grounded])).mono ?_
  rintro more b id hb ⟨rfl, hground, hnode⟩
  subst hread
  rw [List.append_nil]
  have hlong := hstands b id right f hnode (hleft.mono hb).stands (hright.mono hb).stands
  exact ⟨join f, ⟨hlong, hground⟩, hspelled o f us (ho ▸ hkind) hus⟩

/-- What an extension reads spells the longer expression, behind the tokens of the expression so
far. -/
theorem consumes_extend (he : Retraces structs expr) (hstructs : s.builder.structs = structs)
    {left : NodeId} {e : Expr} {ts : List Token} (hleft : Built e s.builder left)
    (hts : Spelled structs e ts) {x : Extension} {m : Mark} (hm : x.mark = some m)
    (hkind : s.cursor.current.kind = .mark m) :
    (extend expr left x).Consumes s fun read => Retraced structs (ts ++ read) := by
  have hread := consumes_advance (s := s) (hkind ▸ nofun)
  cases x with
  | binary op =>
      cases hm
      exact consumes_infix he hstructs hkind hleft (fun _ => rfl) (fun _ _ _ _ => .binary)
        fun _ _ _ ho hus => .binary ho hts hus
  | assign op =>
      exact consumes_infix he hstructs hkind hleft (fun _ => rfl) (fun _ _ _ _ => .assign)
        fun _ _ _ ho hus => .assign hm ho hts hus
  | comma =>
      cases hm
      exact consumes_infix he hstructs hkind hleft (fun _ => rfl) (fun _ _ _ _ => .comma)
        fun _ _ _ ho hus => .comma ho hts hus
  | ternary =>
      cases hm
      refine hread.bind ?_
      rintro q t₁ _ _ h₁ ⟨hq, hquestion⟩
      have hst₁ := h₁.structs.trans hstructs
      refine (he .default t₁ hst₁).bind ?_
      rintro yes t₂ us _ h₂ ⟨f, hyes, hus⟩
      refine (consumes_expectMark .colon).bind ?_
      rintro _ t₃ _ _ h₃ ⟨c, hc, hcolon⟩
      have hst₃ := h₃.structs.trans (h₂.structs.trans hst₁)
      refine (he .assignment t₃ hst₃).bind ?_
      rintro no t₄ vs _ h₄ ⟨g, hno, hvs⟩
      have hleft := (((hleft.mono h₁).mono h₂).mono h₃).mono h₄
      have hyes := (hyes.mono h₃).mono h₄
      refine (consumes_add
        (by simp [Node.children, hleft.grounded, hyes.grounded, hno.grounded])).mono ?_
      rintro more b id hb ⟨rfl, hground, hnode⟩
      subst hq hc
      rw [List.append_nil]
      have hlong : b.Stands id (.ternary e f g) :=
        .ternary hnode (hleft.mono hb).stands (hyes.mono hb).stands (hno.mono hb).stands
      exact ⟨_, ⟨hlong, hground⟩, .ternary (hquestion ▸ hkind) hcolon hts hus hvs⟩
  | step d =>
      cases hm
      refine hread.bind ?_
      rintro o t₁ _ _ h₁ ⟨ho, hmark⟩
      have hleft := hleft.mono h₁
      refine (consumes_add (by simp [Node.children, hleft.grounded])).mono ?_
      rintro more b id hb ⟨rfl, hground, hnode⟩
      subst ho
      exact ⟨_, ⟨.step hnode (hleft.mono hb).stands, hground⟩, .after (hmark ▸ hkind) hts⟩
  | element =>
      cases hm
      refine hread.bind ?_
      rintro o t₁ _ _ h₁ ⟨ho, hopen⟩
      refine (he .default t₁ (h₁.structs.trans hstructs)).bind ?_
      rintro position t₂ us _ h₂ ⟨f, hposition, hus⟩
      refine (consumes_expectMark .closeBracket).bind ?_
      rintro _ t₃ _ _ h₃ ⟨c, hc, hclose⟩
      have hleft := ((hleft.mono h₁).mono h₂).mono h₃
      have hposition := hposition.mono h₃
      refine (consumes_of_lands_here (lands_build
        (Build.makes_element hleft.grounded hposition.grounded trivial))).mono ?_
      rintro more b id hb ⟨rfl, hground, _, hnode, rfl⟩
      subst ho hc
      have hlong : b.Stands id (.index e f) :=
        .index hnode (hleft.mono hb).stands (hposition.mono hb).stands
      exact ⟨_, ⟨hlong, hground⟩, .index (hopen ▸ hkind) hclose hts hus⟩
  | call =>
      refine (consumes_arguments he hstructs).bind ?_
      rintro list t₁ us _ h₁ ⟨parts, hlist, hparts, hus⟩
      have hleft := hleft.mono h₁
      refine (consumes_of_lands_here (lands_build
        (Build.makes_call hleft.grounded hlist.grounded))).mono ?_
      rintro more b id hb ⟨rfl, hground, _, hnode, rfl⟩
      rw [List.append_nil]
      obtain ⟨built, hbuilt, hchain, hstands⟩ := (hlist.mono hb).stands
      have hlong : b.Stands id (.call e (parts.map Prod.fst)) :=
        hbuilt ▸ .call hnode (hleft.mono hb).stands hchain hstands
      exact ⟨_, ⟨hlong, hground⟩, .call hts hparts hus⟩
  | field =>
      cases hm
      refine hread.bind ?_
      rintro d t₁ _ _ h₁ ⟨hd, hdot⟩
      refine consumes_fieldName.bind ?_
      rintro k t₂ _ _ h₂ ⟨hk, hname⟩
      have hleft := (hleft.mono h₁).mono h₂
      refine (consumes_of_lands_here (lands_build (Build.makes_field hleft.grounded k.text))).mono ?_
      rintro more b id hb ⟨rfl, hground, _, hnode, nid, rfl, hknown⟩
      subst hd hk
      refine ⟨.field e k.text, ⟨.field hnode (hleft.mono hb).stands hknown, hground⟩, ?_⟩
      exact .field (hdot ▸ hkind) hname hts

/-! ### Expressions -/

/-- The expression so far. -/
def PendingExpression (structs : Structs) (read : List Token) (b : Builder) (id : NodeId) : Prop :=
  b.structs = structs ∧ Retraced structs read b id

theorem consumes_extension (he : Retraces structs expr) (level : Power) {read : List Token}
    {left : NodeId} (h : PendingExpression structs read s.builder left) :
    (extension expr level left).Consumes s fun more b =>
      Turn.Known (PendingExpression structs (read ++ more) b) (Retraced structs (read ++ more) b) := by
  obtain ⟨hstructs, e, hleft, hts⟩ := h
  refine .on_kind ?_
  split
  · next x hx =>
      obtain ⟨m, hkind, hm⟩ := kind_of_above hx
      refine (consumes_extend he hstructs hleft hts hm hkind).bind fun longer t more _ h₁ hlonger => ?_
      refine consumes_pure ⟨h₁.structs.trans hstructs, ?_⟩
      rwa [List.append_nil]
  · refine consumes_pure ⟨e, hleft, ?_⟩
    rwa [List.append_nil]

theorem consumes_expressionRule (he : Retraces structs expr) (hstructs : s.builder.structs = structs)
    (level : Power) : (expressionRule expr level).Consumes s (Retraced structs) := by
  refine (consumes_operand he hstructs).bind fun first t read _ h₁ hfirst => ?_
  have hbefore : PendingExpression structs read t.builder first := ⟨h₁.structs.trans hstructs, hfirst⟩
  exact consumes_repeated (fun _ _ _ => consumes_extension he level) read first t hbefore

/-- **The tokens of an expression spell its tree.** -/
theorem consumes_expression (level : Power) (s : ParseState) :
    (expression level).Consumes s (Retraced s.builder.structs) :=
  consumes_fix (fun _ he _ _ => consumes_expressionRule (fun j t ht => ht ▸ he j t) rfl _) level s

theorem retraces_expression (structs : Structs) : Retraces structs expression :=
  fun j t ht => ht ▸ consumes_expression j t

end Grammar

end ShaderLang
