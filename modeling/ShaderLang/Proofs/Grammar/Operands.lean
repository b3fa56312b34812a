/-
**Reading operands and extensions that are written there.**

The rules are looked at under the assumption that `expr` gives the trees of the expressions inside,
where fewer than `n` tokens are left.  Each construct is then read as a whole: its rule comes to its
end right behind its last token, and the node it makes stands for the tree.

Main definitions:

* `ShaderLang.StopsAt` — an expression begun at a level ends here;
* `ShaderLang.Grammar.Gives` — `expr` makes a tree of the tokens.

Main results:

* `ShaderLang.Grammar.lands_arguments` — arguments;
* `ShaderLang.Grammar.lands_parens`, `ShaderLang.Grammar.lands_cast` — **a type between parentheses is
  told from an expression**;
* `ShaderLang.Grammar.lands_infix`, `ShaderLang.Grammar.lands_ternary`,
  `ShaderLang.Grammar.lands_element`, … — extensions.
-/

import ShaderLang.Proofs.Grammar.Expressions
import ShaderLang.Proofs.Grammar.Landing
import ShaderLang.Proofs.Grammar.Standing

set_option relaxedAutoImplicit false
set_option autoImplicit false

namespace ShaderLang

/-! ### Where expressions end -/

/-- The extension that the next token begins. -/
def extensionAt (ts : List Token) : Option Extension :=
  ts.head?.bind fun t => Extension.ofKind t.kind

theorem Cursor.ofKind_current (c : Cursor) :
    Extension.ofKind c.current.kind = extensionAt c.rest := by
  unfold current extensionAt
  cases c.rest <;> rfl

/-- What comes next does not bind tighter than the level. -/
def StopsAt (level : Nat) (ts : List Token) : Prop :=
  ∀ x, extensionAt ts = some x → x.power.level ≤ level

namespace StopsAt

variable {k l : Nat} {t : Token} {ts : List Token}

theorem mono (h : StopsAt k ts) (hkl : k ≤ l) : StopsAt l ts :=
  fun x hx => Nat.le_trans (h x hx) hkl

/-- Every expression ends at a token that begins no extension. -/
theorem of_none {kind : TokenKind} (ht : t.kind = kind) (h : Extension.ofKind kind = none) :
    StopsAt l (t :: ts) := by
  intro x hx
  rw [← ht] at h
  exact absurd (hx.symm.trans h) (Option.some_ne_none x)

theorem of_some {kind : TokenKind} {x : Extension} (ht : t.kind = kind)
    (h : Extension.ofKind kind = some x) (hle : x.power.level ≤ l) : StopsAt l (t :: ts) := by
  intro y hy
  rw [← ht] at h
  obtain rfl := Option.some.inj (hy.symm.trans h)
  exact hle

/-- At the level an expression is not extended. -/
theorem above_eq_none {level : Power} {c : Cursor} (h : StopsAt level.level c.rest) :
    Extension.above level c.current.kind = none := by
  rw [Extension.above, c.ofKind_current, Option.filter_eq_none_iff]
  intro x hx hlt
  exact absurd (of_decide_eq_true hlt) (Nat.not_lt.2 (h x hx))

end StopsAt

theorem Extension.above_of_lt {level : Power} {kind : TokenKind} {x : Extension}
    (h : Extension.ofKind kind = some x) (hlt : level.level < x.power.level) :
    Extension.above level kind = some x := by
  rw [above, h]
  exact Option.filter_some_pos (decide_eq_true hlt)

namespace Grammar

open ShaderLang.Parser ShaderLang.Builder

variable {allowed : Problem → Prop} {structs : Structs} {expr : Power → Parser NodeId} {n : Nat}
  {s : ParseState} {rest : List Token}

/-- Where the tokens come next and end there, `expr` makes the tree of them. -/
def Gives (allowed : Problem → Prop) (structs : Structs) (expr : Power → Parser NodeId) (n : Nat)
    (j : Power) (e : Expr) (ts : List Token) : Prop :=
  ∀ s rest, s.builder.structs = structs → (ts ++ rest).length < n → s.cursor.rest = ts ++ rest →
    StopsAt j.level rest → (expr j).Lands allowed s rest (Built e)

/-! ### Arguments -/

/-- One more argument is built behind the others. -/
theorem lands_buildLink {es : List Expr} {e : Expr} {list : Option NodeId} {item : NodeId}
    (hlist : Listed es s.builder list) (hitem : Built e s.builder item) :
    (buildLink .arguments list item).Lands allowed s s.cursor.rest (Listed (es ++ [e])) := by
  refine (lands_add ?_).bind fun id t ht hb hid => ?_
  · intro c hc
    rcases List.mem_append.1 hc with hc | hc
    · exact hlist.grounded c (Option.mem_toList.1 hc)
    · obtain rfl := List.mem_singleton.1 hc
      exact hitem.grounded
  · exact ht ▸ lands_pure ((hlist.mono hb).snoc (hitem.mono hb).stands hid.2 hid.1)

/-- An argument in front of a comma. -/
theorem lands_argumentTurn_again {es : List Expr} {e : Expr} {ts : List Token} {c : Token}
    {list : Option NodeId} (he : Gives allowed structs expr n .comma e ts)
    (hc : c.kind = .mark .comma) (hlist : Listed es s.builder list)
    (hstructs : s.builder.structs = structs) (hlen : (ts ++ c :: rest).length < n)
    (hs : s.cursor.rest = ts ++ c :: rest) :
    (argumentTurn expr list).Lands allowed s rest fun b r =>
      ∃ longer, r = .again longer ∧ Listed (es ++ [e]) b longer := by
  have hstop : StopsAt Power.comma.level (c :: rest) := .of_some hc rfl (Nat.le_refl _)
  refine (he s _ hstructs hlen hs hstop).bind fun item t ht hb hitem => ?_
  refine (lands_buildLink (hlist.mono hb) hitem).bind fun longer u hu hb' hlonger => ?_
  refine (lands_accept (hu.trans ht) hc).bind fun more v hv hb'' hmore => ?_
  rw [hmore]
  exact hv ▸ lands_pure ⟨longer, rfl, hlonger.mono hb''⟩

/-- An argument in front of the end of the arguments. -/
theorem lands_argumentTurn_done {es : List Expr} {e : Expr} {ts : List Token} {c : Token}
    {list : Option NodeId} (he : Gives allowed structs expr n .comma e ts)
    (hc : c.kind = .mark .closeParen) (hlist : Listed es s.builder list)
    (hstructs : s.builder.structs = structs) (hlen : (ts ++ c :: rest).length < n)
    (hs : s.cursor.rest = ts ++ c :: rest) :
    (argumentTurn expr list).Lands allowed s (c :: rest) fun b r =>
      ∃ longer, r = .done longer ∧ Listed (es ++ [e]) b longer := by
  have hstop : StopsAt Power.comma.level (c :: rest) := .of_none hc rfl
  refine (he s _ hstructs hlen hs hstop).bind fun item t ht hb hitem => ?_
  refine (lands_buildLink (hlist.mono hb) hitem).bind fun longer u hu hb' hlonger => ?_
  have hrest : u.cursor.rest = c :: rest := hu.trans ht
  have hne : u.cursor.current.kind ≠ .mark .comma := by
    rw [Cursor.current_of_rest hrest, hc]
    simp
  refine (lands_accept_not hne).bind fun more v hv hb'' hmore => ?_
  rw [hmore]
  exact hrest ▸ hv ▸ lands_pure ⟨longer, rfl, hlonger.mono hb''⟩

/-- The arguments one after another.  The induction is on those still to come; `es` are those that
are built already. -/
theorem lands_argumentTurns {p : Expr × List Token} {parts : List (Expr × List Token)}
    {us : List Token} {c : Token}
    (hparts : ∀ q ∈ p :: parts, Gives allowed structs expr n .comma q.1 q.2)
    (hus : Separated ((p :: parts).map Prod.snd) us) (hc : c.kind = .mark .closeParen)
    {es : List Expr} {list : Option NodeId} (hlist : Listed es s.builder list)
    (hstructs : s.builder.structs = structs) (hlen : (us ++ c :: rest).length < n)
    (hs : s.cursor.rest = us ++ c :: rest) :
    (repeated (argumentTurn expr) list).Lands allowed s (c :: rest)
      (Listed (es ++ (p :: parts).map Prod.fst)) := by
  have hp := hparts p List.mem_cons_self
  induction parts generalizing p us s es list with
  | nil =>
      cases hus
      exact .done (lands_argumentTurn_done hp hc hlist hstructs hlen hs)
  | cons q parts ih =>
      cases hus with
      | @more _ _ us _ d hd hus =>
          rw [List.append_assoc, List.cons_append] at hlen hs
          have hturn := lands_argumentTurn_again hp hd hlist hstructs hlen hs
          rw [List.length_append, List.length_cons] at hlen
          refine hturn.again ?_ fun longer t ht hb hlonger => ?_
          · simp only [hs, List.length_append, List.length_cons]
            omega
          · have hmore := fun r hr => hparts r (List.mem_cons_of_mem p hr)
            have hgo := ih hmore hus hlonger (hb.structs.trans hstructs) (by omega) ht
              (hmore q List.mem_cons_self)
            rwa [List.append_assoc] at hgo

/-- What arguments end with. -/
theorem lands_closeParen {c : Token} {es : List Expr} {list : Option NodeId}
    (hc : c.kind = .mark .closeParen) (hlist : Listed es s.builder list)
    (hs : s.cursor.rest = c :: rest) :
    (currentKind >>= fun next =>
      if next = .mark .closeParen then advance >>= fun _ => pure list
      else unexpected [.mark .comma, .mark .closeParen] : Parser (Option NodeId)).Lands allowed s
        rest (Listed es) := by
  refine .on_kind hs hc ?_
  rw [if_pos rfl]
  refine (lands_advance hs).bind fun _ t ht hb _ => ?_
  exact ht ▸ lands_pure (hlist.mono hb)

/-- Arguments between parentheses. -/
theorem lands_arguments {parts : List (Expr × List Token)} {us : List Token} {o c : Token}
    (ho : o.kind = .mark .openParen) (hc : c.kind = .mark .closeParen)
    (hparts : ∀ q ∈ parts, Begins structs q.2 ∧ Gives allowed structs expr n .comma q.1 q.2)
    (hus : Separated (parts.map Prod.snd) us) (hstructs : s.builder.structs = structs)
    (hlen : (o :: (us ++ c :: rest)).length ≤ n) (hs : s.cursor.rest = o :: (us ++ c :: rest)) :
    (arguments expr).Lands allowed s rest (Listed (parts.map Prod.fst)) := by
  refine (lands_expectMark hs ho).bind fun _ t ht hb _ => ?_
  cases parts with
  | nil =>
      cases hus
      refine (lands_accept ht hc).bind fun read u hu _ hread => ?_
      rw [hread]
      exact hu ▸ lands_pure (.nil _)
  | cons p parts =>
      obtain ⟨f, us', rfl, hf, -⟩ := Separated.begins hus (hparts p List.mem_cons_self).1
      -- what the first argument begins with does not end the arguments
      have hne : t.cursor.current.kind ≠ .mark .closeParen := by
        rw [Cursor.current_of_rest ht]
        exact hf
      refine (lands_accept_not hne).bind fun read u hu hb' hread => ?_
      rw [hread]
      have hgives := fun q hq => (hparts q hq).2
      have hstructs' := hb'.structs.trans (hb.structs.trans hstructs)
      refine (lands_argumentTurns hgives hus hc (.nil _) hstructs' hlen (hu.trans ht)).bind
        fun list v hv _ hlist => ?_
      exact lands_closeParen hc hlist hv

/-! ### Operands -/

/-- A rule for operands that is told by the kind of the next token. -/
theorem lands_literal {step : String → Build NodeId} {contents : Builder → Node → Prop} {t : Token}
    (hs : s.cursor.rest = t :: rest)
    (hstep : ∀ b, Build.Makes allowed b (step t.text) contents) :
    (literal step).Lands allowed s rest fun b id =>
      b.arena.Grounded id ∧ ∃ n, b.arena.node? id = some n ∧ contents b n := by
  refine (lands_advance hs).bind ?_
  rintro _ u hu - rfl
  exact hu ▸ lands_build (hstep _)

/-- A literal or a name whose node stands for a tree, whatever else is known of it. -/
theorem lands_leaf {step : String → Build NodeId} {contents : Builder → Node → Prop} {t : Token}
    {e : Expr} (hs : s.cursor.rest = t :: rest)
    (hstep : ∀ b, Build.Makes allowed b (step t.text) contents)
    (hstands : ∀ b id n, b.arena.node? id = some n → contents b n → b.Stands id e) :
    (literal step).Lands allowed s rest (Built e) := by
  refine (lands_literal hs hstep).mono ?_
  rintro b id - ⟨hground, n, hnode, hcontents⟩
  exact ⟨hstands b id n hnode hcontents, hground⟩

theorem lands_int {t : Token} (ht : t.kind = .int)
    (hp : IntegerLiteral.ofText t.text = none → allowed (.malformedNumber t.text))
    (hs : s.cursor.rest = t :: rest) :
    (operand expr).Lands allowed s rest (Built (.int t.text)) := by
  refine .on_kind hs ht (lands_leaf hs (fun _ => Build.makes_intLiteral t.text hp) ?_)
  rintro b id _ hnode ⟨l, rfl, hl⟩
  exact .int hnode hl

theorem lands_float {t : Token} (ht : t.kind = .float)
    (hp : floatLiteral t.text = none → allowed (.malformedNumber t.text))
    (hs : s.cursor.rest = t :: rest) :
    (operand expr).Lands allowed s rest (Built (.float t.text)) := by
  refine .on_kind hs ht (lands_leaf hs (fun _ => Build.makes_floatLiteral t.text hp) ?_)
  rintro b id _ hnode rfl
  exact .float hnode

theorem lands_string {t : Token} (ht : t.kind = .string) (hs : s.cursor.rest = t :: rest) :
    (operand expr).Lands allowed s rest (Built (.string t.text)) := by
  refine .on_kind hs ht (lands_leaf hs (fun _ => Build.makes_stringLiteral t.text) ?_)
  rintro b id _ hnode ⟨sid, rfl, hvalue, hknown⟩
  exact .string hnode hvalue hknown

theorem lands_true {t : Token} (ht : t.kind = .keyword .trueWord)
    (hs : s.cursor.rest = t :: rest) :
    (operand expr).Lands allowed s rest (Built (.bool true)) := by
  refine .on_kind hs ht (lands_leaf hs (fun _ => Build.makes_boolLiteral true) ?_)
  rintro b id _ hnode rfl
  exact .bool hnode

theorem lands_false {t : Token} (ht : t.kind = .keyword .falseWord)
    (hs : s.cursor.rest = t :: rest) :
    (operand expr).Lands allowed s rest (Built (.bool false)) := by
  refine .on_kind hs ht (lands_leaf hs (fun _ => Build.makes_boolLiteral false) ?_)
  rintro b id _ hnode rfl
  exact .bool hnode

theorem lands_name {t : Token} (ht : t.kind = .name) (hs : s.cursor.rest = t :: rest) :
    (operand expr).Lands allowed s rest (Built (.name t.text)) := by
  refine .on_kind hs ht (lands_leaf hs (fun _ => Build.makes_name t.text) ?_)
  rintro b id _ hnode ⟨nid, rfl, hknown⟩
  exact .name hnode hknown

/-- A type that is named by a token. -/
theorem lands_typeSpecifier {k : Token} {type : DataType} (hk : k.kind = .typeName)
    (htype : DataType.ofKeyword k.text = some type) (hs : s.cursor.rest = k :: rest) :
    (typeSpecifier expr).Lands allowed s rest fun _ found => found = type := by
  refine .on_kind hs hk ?_
  refine (lands_expect hs hk).bind ?_
  intro x t ht _ hx
  have hnamed : Build.namedType x.text t.builder = .ok type t.builder := by
    rw [hx, Build.namedType, htype]
    rfl
  exact ⟨type, _, build_ok hnamed, ht, .refl _, rfl⟩

/-- Where an expression begins behind a parenthesis, no type between parentheses is seen. -/
theorem castAhead_of_begins {o : Token} {ts : List Token} (hts : Begins s.builder.structs ts)
    (hs : s.cursor.rest = o :: ts) : castAhead s = .ok false s := by
  obtain ⟨t, us, rfl, -, hstart⟩ := hts
  unfold castAhead
  rw [bind_apply, typeLength_apply]
  simp only [Cursor.typeLength, hs, List.drop_succ_cons, List.drop_zero, Cursor.typeLengthOf]
  rcases hstart with hstart | ⟨htype, p, vs, rfl, hp⟩
  · rw [hstart]
    rfl
  · -- a type begins here, but its arguments follow and not the closing parenthesis
    have hstart : Cursor.startsType (fun name => (s.builder.structs.lookup name).isSome) t := by
      rw [Cursor.startsType, htype]
    simp [hstart, htype, Cursor.isGeneric, Cursor.peek, hs, hp]

/-- A type between parentheses is seen. -/
theorem castAhead_of_type {o k c : Token} {ts : List Token} (hk : k.kind = .typeName)
    (hc : c.kind = .mark .closeParen) (hs : s.cursor.rest = o :: k :: c :: ts) :
    castAhead s = .ok true s := by
  have hstart : Cursor.startsType (fun name => (s.builder.structs.lookup name).isSome) k := by
    rw [Cursor.startsType, hk]
  unfold castAhead
  rw [bind_apply, typeLength_apply]
  simp only [Cursor.typeLength, hs, List.drop_succ_cons, List.drop_zero, Cursor.typeLengthOf]
  simp [hstart, hk, Cursor.isGeneric, Cursor.peek, hs, hc]

section Operands

variable {e : Expr} {ts : List Token} {o k c : Token}

/-- An expression between parentheses. -/
theorem lands_parens (ho : o.kind = .mark .openParen) (hc : c.kind = .mark .closeParen)
    (hts : Begins structs ts) (he : Gives allowed structs expr n .default e ts)
    (hstructs : s.builder.structs = structs) (hlen : (o :: (ts ++ c :: rest)).length ≤ n)
    (hs : s.cursor.rest = o :: (ts ++ c :: rest)) :
    (operand expr).Lands allowed s rest (Built e) := by
  have hbegins : Begins s.builder.structs (ts ++ c :: rest) := hstructs ▸ hts.append _
  refine .on_kind hs ho (.look (castAhead_of_begins hbegins hs) ?_)
  refine (lands_expectMark hs ho).bind fun _ t ht hb _ => ?_
  have hstop : StopsAt Power.default.level (c :: rest) := .of_none hc rfl
  refine (he t _ (hb.structs.trans hstructs) hlen ht hstop).bind fun value u hu _ hvalue => ?_
  refine (lands_expectMark hu hc).bind fun _ v hv hb' _ => ?_
  exact hv ▸ lands_pure (hvalue.mono hb')

/-- A conversion. -/
theorem lands_cast {type : DataType} (ho : o.kind = .mark .openParen) (hk : k.kind = .typeName)
    (htype : DataType.ofKeyword k.text = some type) (hc : c.kind = .mark .closeParen)
    (he : Gives allowed structs expr n .unary e ts) (hstop : StopsAt Power.unary.level rest)
    (hstructs : s.builder.structs = structs) (hlen : (o :: k :: c :: (ts ++ rest)).length ≤ n)
    (hs : s.cursor.rest = o :: k :: c :: (ts ++ rest)) :
    (operand expr).Lands allowed s rest (Built (.cast type e)) := by
  refine .on_kind hs ho (.look (castAhead_of_type hk hc hs) ?_)
  refine (lands_expectMark hs ho).bind fun _ t ht hb _ => ?_
  refine (lands_typeSpecifier hk htype ht).bind fun found u hu hb' hfound => ?_
  refine (lands_expectMark hu hc).bind fun _ v hv hb'' _ => ?_
  have hstructs' := hb''.structs.trans (hb'.structs.trans (hb.structs.trans hstructs))
  have hshort : (ts ++ rest).length < n := by
    simp only [List.length_cons] at hlen
    omega
  refine (he v _ hstructs' hshort hv hstop).bind fun value w hw _ hvalue => ?_
  rw [hfound]
  refine hw ▸ (lands_add ?_).mono fun b id hb h => ?_
  · simp [Node.children, hvalue.grounded]
  · exact ⟨.cast h.2 (hvalue.mono hb).stands, h.1⟩

/-- A mark that is an operator begins the operator and its operand. -/
theorem lands_of_leading {m : Mark} {op : Leading} (hm : Leading.ofMark m = some op)
    (ho : o.kind = .mark m) (hs : s.cursor.rest = o :: ts)
    (h : (leading expr op).Lands allowed s rest (Built e)) :
    (operand expr).Lands allowed s rest (Built e) := by
  refine .on_kind hs ho ?_
  split
  case h_11 heq =>
      cases heq
      contradiction
  case h_12 heq =>
      cases heq
      rw [hm]
      exact h
  case h_13 hmark => exact absurd rfl (hmark m)
  all_goals contradiction

/-- An operator in front of its operand. -/
theorem lands_leading {m : Mark} {op : Leading} (hm : Leading.ofMark m = some op)
    (ho : o.kind = .mark m) (he : Gives allowed structs expr n .unary e ts)
    (hstop : StopsAt Power.unary.level rest) (hstructs : s.builder.structs = structs)
    (hlen : (o :: (ts ++ rest)).length ≤ n) (hs : s.cursor.rest = o :: (ts ++ rest)) :
    (operand expr).Lands allowed s rest (Built (op.apply e)) := by
  refine lands_of_leading hm ho hs ?_
  refine (lands_advance hs).bind fun _ t ht hb _ => ?_
  refine (he t _ (hb.structs.trans hstructs) hlen ht hstop).bind fun value u hu _ hvalue => ?_
  cases op with
  | unary op =>
      refine hu ▸ (lands_add ?_).mono fun b id hb h => ?_
      · simp [Node.children, hvalue.grounded]
      · exact ⟨.unary h.2 (hvalue.mono hb).stands, h.1⟩
  | step d =>
      refine hu ▸ (lands_add ?_).mono fun b id hb h => ?_
      · simp [Node.children, hvalue.grounded]
      · exact ⟨.step h.2 (hvalue.mono hb).stands, h.1⟩

variable {parts : List (Expr × List Token)}

/-- A value of a type, from arguments. -/
theorem lands_construction {type : DataType} (hk : k.kind = .typeName)
    (htype : DataType.ofKeyword k.text = some type) (ho : o.kind = .mark .openParen)
    (hc : c.kind = .mark .closeParen)
    (hparts : ∀ q ∈ parts, Begins structs q.2 ∧ Gives allowed structs expr n .comma q.1 q.2)
    (hts : Separated (parts.map Prod.snd) ts) (hstructs : s.builder.structs = structs)
    (hlen : (k :: o :: (ts ++ c :: rest)).length ≤ n)
    (hs : s.cursor.rest = k :: o :: (ts ++ c :: rest)) :
    (operand expr).Lands allowed s rest (Built (.construct type (parts.map Prod.fst))) := by
  refine .on_kind hs hk ?_
  refine (lands_typeSpecifier hk htype hs).bind fun found t ht hb hfound => ?_
  refine (lands_arguments ho hc hparts hts (hb.structs.trans hstructs) (Nat.le_of_lt hlen) ht).bind
    fun list u hu _ hlist => ?_
  rw [hfound]
  refine hu ▸ (lands_add ?_).mono fun b id hb h => ?_
  · exact fun i hi => hlist.grounded i (Option.mem_toList.1 hi)
  · obtain ⟨built, hbuilt, hchain, hstands⟩ := (hlist.mono hb).stands
    exact ⟨hbuilt ▸ .construct h.2 hchain hstands, h.1⟩

/-- A call of an intrinsic function. -/
theorem lands_intrinsic {i : Intrinsic} (hk : k.kind = .intrinsic) (hi : k.text = i.name)
    (ho : o.kind = .mark .openParen) (hc : c.kind = .mark .closeParen)
    (hparts : ∀ q ∈ parts, Begins structs q.2 ∧ Gives allowed structs expr n .comma q.1 q.2)
    (hts : Separated (parts.map Prod.snd) ts) (hstructs : s.builder.structs = structs)
    (hlen : (k :: o :: (ts ++ c :: rest)).length ≤ n)
    (hs : s.cursor.rest = k :: o :: (ts ++ c :: rest)) :
    (operand expr).Lands allowed s rest (Built (.intrinsic i (parts.map Prod.fst))) := by
  refine .on_kind hs hk ?_
  refine (lands_advance hs).bind fun found t ht hb hfound => ?_
  refine (lands_arguments ho hc hparts hts (hb.structs.trans hstructs) (Nat.le_of_lt hlen) ht).bind
    fun list u hu _ hlist => ?_
  rw [hfound, hi]
  refine hu ▸ (lands_build (Build.makes_intrinsicCall i hlist.grounded)).mono ?_
  rintro b id hb ⟨hground, _, hnode, rfl⟩
  obtain ⟨built, hbuilt, hchain, hstands⟩ := (hlist.mono hb).stands
  exact ⟨hbuilt ▸ .intrinsic hnode hchain hstands, hground⟩

end Operands

/-! ### Extensions -/

section Extensions

variable {e f g : Expr} {us vs : List Token} {o c k : Token} {left : NodeId}

/-- An operator between two operands. -/
theorem lands_infix {j : Power} {node : NodeId → Node} {result : Expr}
    (hleft : Built e s.builder left) (hright : Gives allowed structs expr n j f us)
    (hchildren : ∀ right, (node right).children = [left, right])
    (hstands : ∀ (b : Builder) id right, b.arena.node? id = some (node right) → b.Stands left e →
      b.Stands right f → b.Stands id result)
    (hstop : StopsAt j.level rest) (hstructs : s.builder.structs = structs)
    (hlen : (o :: (us ++ rest)).length ≤ n) (hs : s.cursor.rest = o :: (us ++ rest)) :
    (advance >>= fun _ => expr j >>= fun right => build (Build.add (node right))).Lands allowed s
      rest (Built result) := by
  refine (lands_advance hs).bind fun _ t ht hb _ => ?_
  refine (hright t _ (hb.structs.trans hstructs) hlen ht hstop).bind fun right u hu hb' hr => ?_
  have hl := (hleft.mono hb).mono hb'
  refine hu ▸ (lands_add ?_).mono fun b id hb h => ?_
  · simp [hchildren, hl.grounded, hr.grounded]
  · exact ⟨hstands b id right h.2 (hl.mono hb).stands (hr.mono hb).stands, h.1⟩

theorem lands_binary {op : BinaryOp} (hleft : Built e s.builder left)
    (hright : Gives allowed structs expr n op.power f us) (hstop : StopsAt op.power.level rest)
    (hstructs : s.builder.structs = structs) (hlen : (o :: (us ++ rest)).length ≤ n)
    (hs : s.cursor.rest = o :: (us ++ rest)) :
    (extend expr left (.binary op)).Lands allowed s rest (Built (.binary op e f)) :=
  lands_infix hleft hright (fun _ => rfl) (fun _ _ _ => .binary) hstop hstructs hlen hs

theorem lands_assign {op : AssignOp} (hleft : Built e s.builder left)
    (hright : Gives allowed structs expr n .comma f us) (hstop : StopsAt Power.comma.level rest)
    (hstructs : s.builder.structs = structs) (hlen : (o :: (us ++ rest)).length ≤ n)
    (hs : s.cursor.rest = o :: (us ++ rest)) :
    (extend expr left (.assign op)).Lands allowed s rest (Built (.assign op e f)) :=
  lands_infix hleft hright (fun _ => rfl) (fun _ _ _ => .assign) hstop hstructs hlen hs

theorem lands_comma (hleft : Built e s.builder left)
    (hright : Gives allowed structs expr n .comma f us) (hstop : StopsAt Power.comma.level rest)
    (hstructs : s.builder.structs = structs) (hlen : (o :: (us ++ rest)).length ≤ n)
    (hs : s.cursor.rest = o :: (us ++ rest)) :
    (extend expr left .comma).Lands allowed s rest (Built (.comma e f)) :=
  lands_infix hleft hright (fun _ => rfl) (fun _ _ _ => .comma) hstop hstructs hlen hs

/-- A choice; what stands before the colon may be any expression. -/
theorem lands_ternary (hc : c.kind = .mark .colon) (hleft : Built e s.builder left)
    (hyes : Gives allowed structs expr n .default f us)
    (hno : Gives allowed structs expr n .assignment g vs)
    (hstop : StopsAt Power.assignment.level rest) (hstructs : s.builder.structs = structs)
    (hlen : (o :: (us ++ c :: (vs ++ rest))).length ≤ n)
    (hs : s.cursor.rest = o :: (us ++ c :: (vs ++ rest))) :
    (extend expr left .ternary).Lands allowed s rest (Built (.ternary e f g)) := by
  refine (lands_advance hs).bind fun _ t ht hbt _ => ?_
  have hcolon : StopsAt Power.default.level (c :: (vs ++ rest)) := .of_none hc rfl
  have hst := hbt.structs.trans hstructs
  refine (hyes t _ hst hlen ht hcolon).bind fun yes u hu hbu hyes => ?_
  refine (lands_expectMark hu hc).bind fun _ v hv hbv _ => ?_
  have hsv := hbv.structs.trans (hbu.structs.trans hst)
  have hshort : (vs ++ rest).length < n := by
    simp only [List.length_append, List.length_cons] at hlen ⊢
    omega
  refine (hno v _ hsv hshort hv hstop).bind fun no w hw hbw hno => ?_
  have hleft := (((hleft.mono hbt).mono hbu).mono hbv).mono hbw
  have hyes := (hyes.mono hbv).mono hbw
  refine hw ▸ (lands_add ?_).mono fun b id hb h => ?_
  · simp [Node.children, hleft.grounded, hyes.grounded, hno.grounded]
  · exact ⟨.ternary h.2 (hleft.mono hb).stands (hyes.mono hb).stands (hno.mono hb).stands, h.1⟩

/-- The operators `++` and `--` behind their operand. -/
theorem lands_after {d : Direction} (hleft : Built e s.builder left)
    (hs : s.cursor.rest = o :: rest) :
    (extend expr left (.step d)).Lands allowed s rest (Built (.step .after d e)) := by
  refine (lands_advance hs).bind fun _ t ht hb _ => ?_
  have hleft := hleft.mono hb
  refine ht ▸ (lands_add ?_).mono fun b id hb h => ?_
  · simp [Node.children, hleft.grounded]
  · exact ⟨.step h.2 (hleft.mono hb).stands, h.1⟩

/-- An element of an array. -/
theorem lands_element (hindex : allowed .nonIntegerIndex) (hc : c.kind = .mark .closeBracket)
    (hleft : Built e s.builder left) (hposition : Gives allowed structs expr n .default f us)
    (hstructs : s.builder.structs = structs) (hlen : (o :: (us ++ c :: rest)).length ≤ n)
    (hs : s.cursor.rest = o :: (us ++ c :: rest)) :
    (extend expr left .element).Lands allowed s rest (Built (.index e f)) := by
  refine (lands_advance hs).bind fun _ t ht hbt _ => ?_
  have hstop : StopsAt Power.default.level (c :: rest) := .of_none hc rfl
  have hst := hbt.structs.trans hstructs
  refine (hposition t _ hst hlen ht hstop).bind fun position u hu hbu hposition => ?_
  refine (lands_expectMark hu hc).bind fun _ v hv hbv _ => ?_
  have hleft := ((hleft.mono hbt).mono hbu).mono hbv
  have hposition := hposition.mono hbv
  refine hv ▸ (lands_build (Build.makes_element hleft.grounded hposition.grounded hindex)).mono ?_
  rintro b id hb ⟨hground, _, hnode, rfl⟩
  exact ⟨.index hnode (hleft.mono hb).stands (hposition.mono hb).stands, hground⟩

/-- A call. -/
theorem lands_call {parts : List (Expr × List Token)} (ho : o.kind = .mark .openParen)
    (hc : c.kind = .mark .closeParen) (hleft : Built e s.builder left)
    (hparts : ∀ q ∈ parts, Begins structs q.2 ∧ Gives allowed structs expr n .comma q.1 q.2)
    (hus : Separated (parts.map Prod.snd) us) (hstructs : s.builder.structs = structs)
    (hlen : (o :: (us ++ c :: rest)).length ≤ n) (hs : s.cursor.rest = o :: (us ++ c :: rest)) :
    (extend expr left .call).Lands allowed s rest (Built (.call e (parts.map Prod.fst))) := by
  refine (lands_arguments ho hc hparts hus hstructs hlen hs).bind fun list t ht hb hlist => ?_
  have hleft := hleft.mono hb
  refine ht ▸ (lands_build (Build.makes_call hleft.grounded hlist.grounded)).mono ?_
  rintro b id hb ⟨hground, _, hnode, rfl⟩
  obtain ⟨built, hbuilt, hchain, hstands⟩ := (hlist.mono hb).stands
  exact ⟨hbuilt ▸ .call hnode (hleft.mono hb).stands hchain hstands, hground⟩

/-- A member; its name may be the name of an intrinsic function. -/
theorem lands_field (hk : k.kind = .name ∨ k.kind = .intrinsic) (hleft : Built e s.builder left)
    (hs : s.cursor.rest = o :: k :: rest) :
    (extend expr left .field).Lands allowed s rest (Built (.field e k.text)) := by
  refine (lands_advance hs).bind fun _ t ht hb _ => ?_
  have hname : fieldName.Lands allowed t rest fun _ x => x = k := by
    rcases hk with hk | hk
    · exact .on_kind ht hk (lands_advance ht)
    · exact .on_kind ht hk (lands_advance ht)
  refine hname.bind fun x u hu hb' hx => ?_
  have hleft := (hleft.mono hb).mono hb'
  rw [hx]
  refine hu ▸ (lands_build (Build.makes_field hleft.grounded k.text)).mono ?_
  rintro b id hb ⟨hground, _, hnode, nid, rfl, hknown⟩
  exact ⟨.field hnode (hleft.mono hb).stands hknown, hground⟩

end Extensions

end Grammar

end ShaderLang
