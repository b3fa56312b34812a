/-
**Writing statements and reading them back.**

Reading the tokens that a statement is written as gives the statement back.  Reading stops right behind
the statement, and nothing is reported but problems with values and with the sizes of arrays.

The statement that goes through by induction says more: a statement may be followed by anything, unless
it ends in an `if` without an `else`; then no `else` may follow.  The branch in front of an `else` does not
end open, and whatever else a statement stands in front of inside another one begins with another token.

Of the tokens of a statement that ends open and an `else` behind it, the `else` is taken into the
statement, where it belongs to the nearest `if`.

Main definitions:

* `ShaderLang.Grammar.GivesStmt` — the tokens are read as the statement;
* `ShaderLang.Grammar.ReadsBack` — reading a statement gives a tree and stops in front of a token, and
  what was built and reported before is still there.

Main results:

* `ShaderLang.Stmt.Written.gives` — what a statement is written as is read as the statement;
* `ShaderLang.Grammar.statement_written` — **reading what a statement is written as gives the statement
  back, and an `else` belongs to the nearest `if` that is open**.
-/

import ShaderLang.Proofs.Grammar.Variables

set_option relaxedAutoImplicit false
set_option autoImplicit false

namespace ShaderLang

namespace Grammar

open ShaderLang.Parser ShaderLang.Builder

variable {allowed : Problem → Prop} {structs : Structs} {s : ParseState} {rest : List Token}
  {e : Expr} {ts us vs : List Token} {stmt : Stmt}

/-! ### Expressions inside statements -/

/-- An expression that stands as a statement. -/
theorem lands_expressionStatement {m : Token} (h : Printed structs Power.default.level e ts)
    (hm : m.kind = .mark .semicolon) (hallows : Allows allowed ts)
    (hstructs : s.builder.structs = structs) (hs : s.cursor.rest = ts ++ m :: rest) :
    expressionStatement.Lands allowed s rest fun b id =>
      b.arena.Grounded id ∧ ∃ i, b.arena.node? id = some (.expression (some i)) ∧ b.Stands i e := by
  refine (lands_expression h hallows hstructs hs hm rfl).bind fun i t ht _ hi => ?_
  refine (lands_expectMark ht hm).bind fun _ u hu hb _ => ?_
  have hi := hi.mono lasting_stands hb
  refine ((lands_add ?_).mono ?_).upTo hu
  · simpa [Node.children] using hi.grounded
  · rintro b id hb ⟨hground, hnode⟩
    exact ⟨hground, i, hnode, hi.stands.mono hb⟩

/-- An expression that may be missing, in front of the mark that tells so. -/
theorem lands_optionalExpression {value : Option Expr} {m : Token} {stop : Mark}
    (h : Optionally (Printed structs Power.default.level) value ts) (hm : m.kind = .mark stop)
    (hends : Extension.ofKind (.mark stop) = none) (hstop : TokenKind.mark stop ∉ expressionStart)
    (hallows : Allows allowed ts) (hstructs : s.builder.structs = structs)
    (hs : s.cursor.rest = ts ++ m :: rest) :
    (optionalExpression stop).Lands allowed s (m :: rest) (SettledIf Stands value) := by
  cases h with
  | absent =>
      refine .on_kind hs hm ?_
      rw [if_pos rfl]
      exact (lands_pure .none).upTo hs
  | present h =>
      have hlacks : Lacks (.mark stop) s.cursor.rest := hs ▸ h.starts.lacks hstop _
      refine .look (currentKind_apply s) ?_
      rw [if_neg (hlacks.current_ne nofun)]
      refine (lands_expression h hallows hstructs hs hm hends).bind fun i t ht _ hi => ?_
      exact (lands_pure (.some hi)).upTo ht

/-- A condition between parentheses. -/
theorem lands_condition {o c : Token} (ho : o.kind = .mark .openParen)
    (h : Printed structs Power.default.level e ts) (hc : c.kind = .mark .closeParen)
    (hallows : Allows allowed ts) (hstructs : s.builder.structs = structs)
    (hs : s.cursor.rest = o :: (ts ++ c :: rest)) :
    condition.Lands allowed s rest (Settled Stands e) := by
  refine (lands_expectMark hs ho).bind fun _ t ht hb _ => ?_
  refine (lands_expression h hallows (hb.structs.trans hstructs) ht hc rfl).bind
    fun i u hu _ hi => ?_
  refine (lands_expectMark hu hc).bind fun _ v hv hb _ => ?_
  exact (lands_pure (hi.mono lasting_stands hb)).upTo hv

/-- What a counting loop begins with. -/
theorem lands_forStart {first : LoopStart} (h : first.Written structs ts)
    (hallows : Allows allowed ts) (hstructs : s.builder.structs = structs)
    (hs : s.cursor.rest = ts ++ rest) :
    forStart.Lands allowed s rest fun b id =>
      b.StandsStart id first ∧ ∀ c ∈ id.toList, b.arena.Grounded c := by
  cases h with
  | none hm =>
      refine (lands_accept hs hm).bind fun _ t ht _ hread => ?_
      rw [hread]
      exact (lands_pure ⟨.none, by simp⟩).upTo ht
  | declaration h =>
      have hlacks : Lacks (.mark .semicolon) s.cursor.rest := by
        obtain ⟨t, us, rfl, hkind⟩ := h.begins
        rw [hs]
        refine lacks_cons rfl ?_
        intro ht
        simp [ht] at hkind
      refine (lands_accept_not (hlacks.current_ne nofun)).bind fun _ t ht hb hread => ?_
      rw [hread]
      have htokens := ht.trans hs
      refine .look (declarationAhead_of_declaration h htokens) ?_
      refine (lands_declarationStatement h hallows (hb.structs.trans hstructs) htokens).map.mono ?_
      rintro b _ - ⟨id, rfl, hid⟩
      exact ⟨.declaration hid.stands, by simpa using hid.grounded⟩
  | @value e ts m h hm =>
      rw [List.append_assoc, List.singleton_append] at hs
      have hlacks : Lacks (.mark .semicolon) s.cursor.rest := hs ▸ h.starts.lacks (by decide) _
      refine (lands_accept_not (hlacks.current_ne nofun)).bind fun _ t ht hb hread => ?_
      rw [hread]
      have htokens := ht.trans hs
      have hstructs := hb.structs.trans hstructs
      have hstarts : Starts t.builder.structs t.cursor.rest := by
        rw [htokens, hstructs]
        exact h.starts.append (by simp [hm])
      refine .look (declarationAhead_of_starts hstarts) ?_
      have hallows := (allows_append.1 hallows).1
      refine (lands_expressionStatement h hm hallows hstructs htokens).map.mono ?_
      rintro b _ - ⟨id, rfl, hground, i, hnode, hi⟩
      exact ⟨.value hnode hi, by simpa using hground⟩

/-! ### One statement after another -/

/-- The tokens are read as the statement, if no `else` follows that the statement could take. -/
def GivesStmt (allowed : Problem → Prop) (structs : Structs) (stmt : Stmt) (ts : List Token) :
    Prop :=
  ∀ s rest, s.builder.structs = structs → s.cursor.rest = ts ++ rest →
    (stmt.endsOpen = true → Lacks (.keyword .elseWord) rest) →
    statement.Lands allowed s rest (Settled StandsStmt stmt)

/-- A statement inside another one. -/
theorem GivesStmt.inner {n : Nat} (h : GivesStmt allowed structs stmt ts)
    (hstructs : s.builder.structs = structs) (hn : (ts ++ rest).length < n)
    (hs : s.cursor.rest = ts ++ rest)
    (helse : stmt.endsOpen = true → Lacks (.keyword .elseWord) rest) :
    (below n (fix statementRule) ()).Lands allowed s rest (Settled StandsStmt stmt) := by
  have hleft : s.left < n := by rwa [show s.left = _ from Cursor.left_eq_length hs]
  exact Lands.below (h s rest hstructs hs helse) hleft

/-- A statement that is told by no keyword and no mark of its own is a declaration or an expression. -/
theorem lands_simple {inner : Unit → Parser NodeId} {known : Builder → NodeId → Prop}
    {kinds : List TokenKind} (hkind : s.cursor.current.kind ∈ kinds)
    (hkinds : ∀ kind ∈ kinds, kind ∈ expressionStart ∨
      kind ∈ [TokenKind.qualifier, .typeName, .keyword .vectorWord, .keyword .matrixWord])
    (h : (declarationAhead >>= fun ahead =>
      if ahead = true then declarationStatement else expressionStatement).Lands allowed s rest
        known) :
    (statementRule inner ()).Lands allowed s rest known := by
  have hkind := hkinds _ hkind
  refine .look (currentKind_apply s) ?_
  split
  case h_11 => exact h
  all_goals
    next heq =>
      rw [heq] at hkind
      simp [expressionStart] at hkind

/-! ### Simple statements -/

theorem gives_declaration {d : Declaration} (h : d.Written structs ts)
    (hallows : Allows allowed ts) : GivesStmt allowed structs (.declaration d) ts := by
  intro s rest hstructs hs _
  obtain ⟨t, us, hts, hkind⟩ := h.begins
  have hcurrent : s.cursor.current = t := Cursor.current_of_rest (hs.trans (by rw [hts]; rfl))
  refine .of_fix (lands_simple (hcurrent ▸ hkind) (fun _ => .inr) ?_)
  refine .look (declarationAhead_of_declaration h hs) ?_
  refine (lands_declarationStatement h hallows hstructs hs).mono ?_
  rintro b id - ⟨hstands, hground⟩
  exact ⟨.declaration hstands, hground⟩

theorem gives_value {m : Token} (h : Printed structs Power.default.level e ts)
    (hm : m.kind = .mark .semicolon) (hallows : Allows allowed ts) :
    GivesStmt allowed structs (.value e) (ts ++ [m]) := by
  intro s rest hstructs hs _
  rw [List.append_assoc, List.singleton_append] at hs
  have hstarts : Starts s.builder.structs s.cursor.rest := by
    rw [hs, hstructs]
    exact h.starts.append (by simp [hm])
  obtain ⟨t, us, hts, hkind, -⟩ := id hstarts
  have hcurrent : s.cursor.current = t := Cursor.current_of_rest hts
  refine .of_fix (lands_simple (hcurrent ▸ hkind) (fun _ => .inl) ?_)
  refine .look (declarationAhead_of_starts hstarts) ?_
  refine (lands_expressionStatement h hm hallows hstructs hs).mono ?_
  rintro b id - ⟨hground, i, hnode, hi⟩
  exact ⟨.value hnode hi, hground⟩

theorem gives_empty {m : Token} (hm : m.kind = .mark .semicolon) :
    GivesStmt allowed structs .empty [m] := by
  intro s rest _ hs _
  refine .of_fix (.on_kind hs hm ?_)
  refine (lands_expectMark hs hm).bind fun _ t ht _ _ => ?_
  refine ((lands_add ?_).mono ?_).upTo ht
  · simp [Node.children]
  · rintro b id - ⟨hground, hnode⟩
    exact ⟨.empty hnode, hground⟩

theorem gives_jump {j : Jump} {k m : Token} (hk : k.kind = .keyword j.word)
    (hm : m.kind = .mark .semicolon) : GivesStmt allowed structs (.jump j) [k, m] := by
  intro s rest _ hs _
  have hjump : (jumpStatement j).Lands allowed s rest (Settled StandsStmt (.jump j)) := by
    refine (lands_advance hs).bind fun _ t ht _ _ => ?_
    refine (lands_expectMark ht hm).bind fun _ u hu _ _ => ?_
    refine ((lands_add ?_).mono ?_).upTo hu
    · simp [Node.children]
    · rintro b id - ⟨hground, hnode⟩
      exact ⟨.jump hnode, hground⟩
  cases j with
  | breakLoop => exact .of_fix (.on_kind hs hk hjump)
  | continueLoop => exact .of_fix (.on_kind hs hk hjump)
  | discardFragment => exact .of_fix (.on_kind hs hk hjump)

theorem gives_result {value : Option Expr} {r m : Token} (hr : r.kind = .keyword .returnWord)
    (hvalue : Optionally (Printed structs Power.default.level) value ts)
    (hm : m.kind = .mark .semicolon) (hallows : Allows allowed ts) :
    GivesStmt allowed structs (.result value) (r :: (ts ++ [m])) := by
  intro s rest hstructs hs _
  simp only [List.cons_append, List.append_assoc, List.nil_append] at hs
  refine .of_fix (.on_kind hs hr ?_)
  refine (lands_expectKeyword hs hr).bind fun _ t ht hb _ => ?_
  refine (lands_optionalExpression hvalue hm rfl (by decide) hallows (hb.structs.trans hstructs)
    ht).bind fun i u hu _ hi => ?_
  refine (lands_expectMark hu hm).bind fun _ v hv hb _ => ?_
  have hi := hi.mono lasting_stands hb
  refine ((lands_add ?_).mono ?_).upTo hv
  · exact hi.grounded
  · rintro b id hb ⟨hground, hnode⟩
    exact ⟨.result hnode (hi.mono lasting_stands hb).rel, hground⟩

/-! ### Choices -/

section Nested

variable {yes no body : Stmt} {i o c l w d m f : Token}

/-- A choice without a second branch.  No `else` follows. -/
theorem gives_choice (hi : i.kind = .keyword .ifWord) (ho : o.kind = .mark .openParen)
    (he : Printed structs Power.default.level e us) (hc : c.kind = .mark .closeParen)
    (hyes : GivesStmt allowed structs yes ts) (hallows : Allows allowed us) :
    GivesStmt allowed structs (.choice e yes) (i :: o :: (us ++ c :: ts)) := by
  intro s rest hstructs hs helse
  simp only [List.cons_append, List.append_assoc] at hs
  have helse := helse rfl
  have hn : (ts ++ rest).length < s.left := by
    rw [show s.left = _ from Cursor.left_eq_length hs]
    simp only [List.length_cons, List.length_append]
    omega
  refine .of_fix (.on_kind hs hi ?_)
  refine (lands_expectKeyword hs hi).bind fun _ s₁ h₁ hb₁ _ => ?_
  have hstructs₁ := hb₁.structs.trans hstructs
  refine (lands_condition ho he hc hallows hstructs₁ h₁).bind fun test s₂ h₂ hb₂ htest => ?_
  have hstructs₂ := hb₂.structs.trans hstructs₁
  refine (hyes.inner hstructs₂ hn h₂ fun _ => helse).bind fun j s₃ h₃ hb₃ hj => ?_
  have hlacks : Lacks (.keyword .elseWord) s₃.cursor.rest := h₃ ▸ helse
  refine (lands_accept_not (hlacks.current_ne nofun)).bind fun _ s₄ h₄ hb₄ hread => ?_
  rw [hread]
  have htest := (htest.mono lasting_stands hb₃).mono lasting_stands hb₄
  have hj := hj.mono lasting_standsStmt hb₄
  refine .look (pure_apply none s₄) (((lands_add ?_).mono ?_).upTo (h₄.trans h₃))
  · simp [Node.children, htest.grounded, hj.grounded]
  · rintro b id hb ⟨hground, hnode⟩
    exact ⟨.choice hnode (htest.stands.mono hb) (hj.mono lasting_standsStmt hb).stands, hground⟩

/-- A choice with both branches.  The first one does not end open, so the `else` is left to the choice. -/
theorem gives_choiceElse (hi : i.kind = .keyword .ifWord) (ho : o.kind = .mark .openParen)
    (he : Printed structs Power.default.level e us) (hc : c.kind = .mark .closeParen)
    (hyes : GivesStmt allowed structs yes ts) (hclosed : yes.endsOpen = false)
    (hl : l.kind = .keyword .elseWord) (hno : GivesStmt allowed structs no vs)
    (hallows : Allows allowed us) :
    GivesStmt allowed structs (.choiceElse e yes no) (i :: o :: (us ++ c :: (ts ++ l :: vs))) := by
  intro s rest hstructs hs helse
  simp only [List.cons_append, List.append_assoc] at hs
  have hn : (ts ++ l :: (vs ++ rest)).length < s.left ∧ (vs ++ rest).length < s.left := by
    rw [show s.left = _ from Cursor.left_eq_length hs]
    simp only [List.length_cons, List.length_append]
    omega
  have hvacuous : yes.endsOpen = true → Lacks (.keyword .elseWord) (l :: (vs ++ rest)) := by
    intro hopen
    rw [hclosed] at hopen
    contradiction
  refine .of_fix (.on_kind hs hi ?_)
  refine (lands_expectKeyword hs hi).bind fun _ s₁ h₁ hb₁ _ => ?_
  have hstructs₁ := hb₁.structs.trans hstructs
  refine (lands_condition ho he hc hallows hstructs₁ h₁).bind fun test s₂ h₂ hb₂ htest => ?_
  have hstructs₂ := hb₂.structs.trans hstructs₁
  refine (hyes.inner hstructs₂ hn.1 h₂ hvacuous).bind fun j s₃ h₃ hb₃ hj => ?_
  refine (lands_accept h₃ hl).bind fun _ s₄ h₄ hb₄ hread => ?_
  rw [hread]
  have hstructs₄ := hb₄.structs.trans (hb₃.structs.trans hstructs₂)
  refine (hno.inner hstructs₄ hn.2 h₄ helse).map.bind ?_
  rintro _ s₅ h₅ hb₅ ⟨k, rfl, hk⟩
  have htest := ((htest.mono lasting_stands hb₃).mono lasting_stands hb₄).mono lasting_stands hb₅
  have hj := (hj.mono lasting_standsStmt hb₄).mono lasting_standsStmt hb₅
  refine ((lands_add ?_).mono ?_).upTo h₅
  · simp [Node.children, htest.grounded, hj.grounded, hk.grounded]
  · rintro b id hb ⟨hground, hnode⟩
    have hj := (hj.mono lasting_standsStmt hb).stands
    have hk := (hk.mono lasting_standsStmt hb).stands
    exact ⟨.choiceElse hnode (htest.stands.mono hb) hj hk, hground⟩

/-! ### Loops -/

theorem gives_whileLoop (hw : w.kind = .keyword .whileWord) (ho : o.kind = .mark .openParen)
    (he : Printed structs Power.default.level e us) (hc : c.kind = .mark .closeParen)
    (hbody : GivesStmt allowed structs body ts) (hallows : Allows allowed us) :
    GivesStmt allowed structs (.whileLoop e body) (w :: o :: (us ++ c :: ts)) := by
  intro s rest hstructs hs helse
  simp only [List.cons_append, List.append_assoc] at hs
  have hn : (ts ++ rest).length < s.left := by
    rw [show s.left = _ from Cursor.left_eq_length hs]
    simp only [List.length_cons, List.length_append]
    omega
  refine .of_fix (.on_kind hs hw ?_)
  refine (lands_expectKeyword hs hw).bind fun _ s₁ h₁ hb₁ _ => ?_
  have hstructs₁ := hb₁.structs.trans hstructs
  refine (lands_condition ho he hc hallows hstructs₁ h₁).bind fun test s₂ h₂ hb₂ htest => ?_
  refine (hbody.inner (hb₂.structs.trans hstructs₁) hn h₂ helse).bind fun j s₃ h₃ hb₃ hj => ?_
  have htest := htest.mono lasting_stands hb₃
  refine ((lands_add ?_).mono ?_).upTo h₃
  · simp [Node.children, htest.grounded, hj.grounded]
  · rintro b id hb ⟨hground, hnode⟩
    exact ⟨.whileLoop hnode (htest.stands.mono hb) (hj.mono lasting_standsStmt hb).stands, hground⟩

/-- A loop that tests behind its body.  The word behind the body is no `else`. -/
theorem gives_doLoop (hd : d.kind = .keyword .doWord) (hbody : GivesStmt allowed structs body ts)
    (hw : w.kind = .keyword .whileWord) (ho : o.kind = .mark .openParen)
    (he : Printed structs Power.default.level e us) (hc : c.kind = .mark .closeParen)
    (hm : m.kind = .mark .semicolon) (hallows : Allows allowed us) :
    GivesStmt allowed structs (.doLoop body e) (d :: (ts ++ w :: o :: (us ++ [c, m]))) := by
  intro s rest hstructs hs _
  simp only [List.cons_append, List.append_assoc, List.nil_append] at hs
  have hn : (ts ++ w :: o :: (us ++ c :: m :: rest)).length < s.left := by
    rw [show s.left = _ from Cursor.left_eq_length hs]
    simp
  refine .of_fix (.on_kind hs hd ?_)
  refine (lands_expectKeyword hs hd).bind fun _ s₁ h₁ hb₁ _ => ?_
  have hstructs₁ := hb₁.structs.trans hstructs
  refine (hbody.inner hstructs₁ hn h₁ fun _ => lacks_cons hw nofun).bind fun j s₂ h₂ hb₂ hj => ?_
  refine (lands_expectKeyword h₂ hw).bind fun _ s₃ h₃ hb₃ _ => ?_
  have hstructs₃ := hb₃.structs.trans (hb₂.structs.trans hstructs₁)
  refine (lands_condition ho he hc hallows hstructs₃ h₃).bind fun test s₄ h₄ hb₄ htest => ?_
  refine (lands_expectMark h₄ hm).bind fun _ s₅ h₅ hb₅ _ => ?_
  have hj := ((hj.mono lasting_standsStmt hb₃).mono lasting_standsStmt hb₄).mono
    lasting_standsStmt hb₅
  have htest := htest.mono lasting_stands hb₅
  refine ((lands_add ?_).mono ?_).upTo h₅
  · simp [Node.children, htest.grounded, hj.grounded]
  · rintro b id hb ⟨hground, hnode⟩
    exact ⟨.doLoop hnode (hj.mono lasting_standsStmt hb).stands (htest.stands.mono hb), hground⟩

theorem gives_forLoop {first : LoopStart} {test next : Option Expr} {ws : List Token}
    (hf : f.kind = .keyword .forWord) (ho : o.kind = .mark .openParen)
    (hfirst : first.Written structs us)
    (htest : Optionally (Printed structs Power.default.level) test vs)
    (hm : m.kind = .mark .semicolon)
    (hnext : Optionally (Printed structs Power.default.level) next ws)
    (hc : c.kind = .mark .closeParen) (hbody : GivesStmt allowed structs body ts)
    (hallows : Allows allowed us ∧ Allows allowed vs ∧ Allows allowed ws) :
    GivesStmt allowed structs (.forLoop first test next body)
      (f :: o :: (us ++ (vs ++ m :: (ws ++ c :: ts)))) := by
  intro s rest hstructs hs helse
  simp only [List.cons_append, List.append_assoc] at hs
  have hn : (ts ++ rest).length < s.left := by
    rw [show s.left = _ from Cursor.left_eq_length hs]
    simp only [List.length_cons, List.length_append]
    omega
  refine .of_fix (.on_kind hs hf ?_)
  refine (lands_expectKeyword hs hf).bind fun _ s₁ h₁ hb₁ _ => ?_
  refine (lands_expectMark h₁ ho).bind fun _ s₂ h₂ hb₂ _ => ?_
  have hstructs₂ := hb₂.structs.trans (hb₁.structs.trans hstructs)
  refine (lands_forStart hfirst hallows.1 hstructs₂ h₂).bind fun i s₃ h₃ hb₃ hi => ?_
  have hstructs₃ := hb₃.structs.trans hstructs₂
  refine (lands_optionalExpression htest hm rfl (by decide) hallows.2.1 hstructs₃ h₃).bind
    fun j s₄ h₄ hb₄ hj => ?_
  refine (lands_expectMark h₄ hm).bind fun _ s₅ h₅ hb₅ _ => ?_
  have hstructs₅ := hb₅.structs.trans (hb₄.structs.trans hstructs₃)
  refine (lands_optionalExpression hnext hc rfl (by decide) hallows.2.2 hstructs₅ h₅).bind
    fun k s₆ h₆ hb₆ hk => ?_
  refine (lands_expectMark h₆ hc).bind fun _ s₇ h₇ hb₇ _ => ?_
  have hstructs₇ := hb₇.structs.trans (hb₆.structs.trans hstructs₅)
  refine (hbody.inner hstructs₇ hn h₇ helse).bind fun x s₈ h₈ hb₈ hx => ?_
  -- what the parts stand for lasts until the loop is built
  have hk := (hk.mono lasting_stands hb₇).mono lasting_stands hb₈
  have hb := hb₅.trans (hb₆.trans (hb₇.trans hb₈))
  have hj := hj.mono lasting_stands hb
  have hb := hb₄.trans hb
  have hstart := hi.1.mono hb
  have hgrounded : ∀ c ∈ i.toList, s₈.builder.arena.Grounded c :=
    fun c hc => hb.grounded (hi.2 c hc)
  refine ((lands_add ?_).mono ?_).upTo h₈
  · intro c hc
    simp only [Node.children, List.mem_append, List.mem_singleton] at hc
    rcases hc with ((hc | hc) | hc) | rfl
    · exact hgrounded c hc
    · exact hj.grounded c hc
    · exact hk.grounded c hc
    · exact hx.grounded
  · rintro b id hb ⟨hground, hnode⟩
    have hj := (hj.mono lasting_stands hb).rel
    have hk := (hk.mono lasting_stands hb).rel
    have hx := (hx.mono lasting_standsStmt hb).stands
    exact ⟨.forLoop hnode (hstart.mono hb) hj hk hx, hground⟩

end Nested

/-! ### Blocks -/

section Blocks

variable {n : Nat} {parts : List (Stmt × List Token)} {before : List Stmt} {list : Option NodeId}
  {c : Token}

/-- Behind a statement of a block there is another one or the end of the block, but no `else`. -/
theorem lacks_else_flatten (h : ∀ p ∈ parts, Proceeds p.2) (hc : c.kind = .mark .closeCurly) :
    Lacks (.keyword .elseWord) ((parts.map Prod.snd).flatten ++ c :: rest) := by
  cases parts with
  | nil => exact lacks_cons hc nofun
  | cons p parts =>
      obtain ⟨t, us, ht, hkind⟩ := h p List.mem_cons_self
      rw [List.map_cons, List.flatten_cons, ht]
      refine lacks_cons rfl ?_
      intro helse
      simp [helse] at hkind

/-- The statements of a block one after another.  The induction is on those still to come; those in
`before` are built already. -/
theorem lands_blockTurns (hparts : ∀ p ∈ parts, Proceeds p.2 ∧ GivesStmt allowed structs p.1 p.2)
    (hc : c.kind = .mark .closeCurly)
    (hlist : Itemized StandsStmt .statements before s.builder list)
    (hstructs : s.builder.structs = structs)
    (hn : ((parts.map Prod.snd).flatten ++ c :: rest).length < n)
    (hs : s.cursor.rest = (parts.map Prod.snd).flatten ++ c :: rest) :
    (repeated (blockTurn (below n (fix statementRule))) list).Lands allowed s (c :: rest)
      (Itemized StandsStmt .statements (before ++ parts.map Prod.fst)) := by
  induction parts generalizing s before list with
  | nil =>
      refine .done (.on_kind hs hc ((lands_pure ⟨list, rfl, ?_⟩).upTo hs))
      simpa using hlist
  | cons p parts ih =>
      obtain ⟨hproceeds, hp⟩ := hparts p List.mem_cons_self
      have hrest := fun q hq => hparts q (List.mem_cons_of_mem p hq)
      rw [List.map_cons, List.flatten_cons, List.append_assoc] at hs hn
      have hturn : (blockTurn (below n (fix statementRule)) list).Lands allowed s
          ((parts.map Prod.snd).flatten ++ c :: rest) fun b r =>
            ∃ longer, r = .again longer ∧
              Itemized StandsStmt .statements (before ++ [p.1]) b longer := by
        have hinner := hp.inner hstructs hn hs fun _ =>
          lacks_else_flatten (fun q hq => (hrest q hq).1) hc
        obtain ⟨t, us, ht, hkind⟩ := hproceeds
        have hcurrent : s.cursor.current = t :=
          Cursor.current_of_rest (hs.trans (by rw [ht, List.cons_append]))
        refine .look (currentKind_apply s) ?_
        rw [hcurrent]
        split
        · next heq => simp [heq] at hkind
        · next heq => simp [heq] at hkind
        · refine hinner.attempt.bind ?_
          rintro _ u hu hb ⟨item, rfl, hitem⟩
          have hlist := hlist.mono lasting_standsStmt hb
          refine (lands_itemLink lasting_standsStmt hlist hitem).bind fun longer v hv _ hlonger => ?_
          exact (lands_pure ⟨longer, rfl, hlonger⟩).upTo (hv.trans hu)
      obtain ⟨t, us, ht, -⟩ := hproceeds
      refine hturn.again ?_ fun longer u hu hb hlonger => ?_
      · simp only [hs, ht, List.length_append, List.length_cons]
        omega
      · have hlen : ((parts.map Prod.snd).flatten ++ c :: rest).length < n := by
          simp only [List.length_append] at hn ⊢
          omega
        have hgo := ih hrest hlonger (hb.structs.trans hstructs) hlen hu
        simpa using hgo

theorem gives_block {o : Token} (ho : o.kind = .mark .openCurly) (hc : c.kind = .mark .closeCurly)
    (hparts : ∀ p ∈ parts, Proceeds p.2 ∧ GivesStmt allowed structs p.1 p.2) :
    GivesStmt allowed structs (.block (parts.map Prod.fst))
      (o :: ((parts.map Prod.snd).flatten ++ [c])) := by
  intro s rest hstructs hs _
  simp only [List.cons_append, List.append_assoc, List.nil_append] at hs
  have hn : ((parts.map Prod.snd).flatten ++ c :: rest).length < s.left := by
    rw [show s.left = _ from Cursor.left_eq_length hs]
    simp
  refine .of_fix (.on_kind hs ho ?_)
  refine (lands_expectMark hs ho).bind fun _ t ht hb _ => ?_
  refine (lands_blockTurns hparts hc .nil (hb.structs.trans hstructs) hn ht).bind
    fun list u hu _ hlist => ?_
  refine (lands_expectMark hu hc).bind fun _ v hv hb _ => ?_
  have hlist := hlist.mono lasting_standsStmt hb
  refine ((lands_add ?_).mono ?_).upTo hv
  · exact hlist.grounded
  · rintro b id hb ⟨hground, hnode⟩
    obtain ⟨built, hbuilt, hlinks, hstands⟩ := (hlist.mono lasting_standsStmt hb).stands
    rw [List.nil_append] at hbuilt
    refine ⟨?_, hground⟩
    rw [← hbuilt]
    exact .block hnode hlinks hstands

end Blocks

end Grammar

open Grammar

/-- **What a statement is written as is read as the statement.**  The induction is on how it is
written. -/
theorem Stmt.Written.gives {allowed : Problem → Prop} {structs : Structs} {s : Stmt}
    {ts : List Token} (h : s.Written structs ts) (hallows : Allows allowed ts) :
    GivesStmt allowed structs s ts := by
  induction h with
  | @block parts o c ho hc body ih =>
      refine gives_block ho hc fun p hp => ⟨(body p hp).proceeds, ih p hp (hallows.subset ?_)⟩
      intro t ht
      have hmem : t ∈ (parts.map Prod.snd).flatten :=
        List.mem_flatten_of_mem (List.mem_map_of_mem hp) ht
      simp [hmem]
  | declaration h => exact gives_declaration h hallows
  | value h hm => exact gives_value h hm (allows_append.1 hallows).1
  | empty hm => exact gives_empty hm
  | choice hi ho condition hc _ ih =>
      simp only [allows_cons, allows_append] at hallows
      obtain ⟨-, -, hus, -, hts⟩ := hallows
      exact gives_choice hi ho condition hc (ih hts) hus
  | choiceElse hi ho condition hc _ closed hl _ ih ih' =>
      simp only [allows_cons, allows_append] at hallows
      obtain ⟨-, -, hus, -, hts, -, hvs⟩ := hallows
      exact gives_choiceElse hi ho condition hc (ih hts) closed hl (ih' hvs) hus
  | whileLoop hw ho condition hc _ ih =>
      simp only [allows_cons, allows_append] at hallows
      obtain ⟨-, -, hus, -, hts⟩ := hallows
      exact gives_whileLoop hw ho condition hc (ih hts) hus
  | doLoop hd _ hw ho condition hc hm ih =>
      simp only [allows_cons, allows_append] at hallows
      obtain ⟨-, hts, -, -, hus, -⟩ := hallows
      exact gives_doLoop hd (ih hts) hw ho condition hc hm hus
  | forLoop hf ho hfirst htest hm hnext hc _ ih =>
      simp only [allows_cons, allows_append] at hallows
      obtain ⟨-, -, hus, hvs, -, hws, -, hts⟩ := hallows
      exact gives_forLoop hf ho hfirst htest hm hnext hc (ih hts) ⟨hus, hvs, hws⟩
  | jump hk hm => exact gives_jump hk hm
  | result hr hvalue hm =>
      simp only [allows_cons, allows_append] at hallows
      exact gives_result hr hvalue hm hallows.2.1

namespace Grammar

/-- Reading a statement from the state gives the tree and stops in front of the tokens `rest`.  No token
is reported, and nothing else but values of the tokens `ts` and sizes among them. -/
def ReadsBack (s : ParseState) (stmt : Stmt) (ts rest : List Token) : Prop :=
  ∃ id t, statement s = .ok id t ∧ t.cursor.rest = rest ∧ t.builder.StandsStmt id stmt ∧
    t.errors = s.errors ∧
    ∃ new : Array Diagnostic,
      t.builder.diagnostics.reports = s.builder.diagnostics.reports ++ new ∧
        ∀ d ∈ new, ∃ token ∈ ts, token.Objections d.problem

theorem readsBack_of_written {s : ParseState} {stmt : Stmt} {ts rest : List Token} {close : Token}
    (h : stmt.Written s.builder.structs ts) (hclose : close.kind = .mark .closeCurly)
    (hs : s.cursor.rest = ts ++ close :: rest) : ReadsBack s stmt ts (close :: rest) := by
  have hgives : GivesStmt (fun p => ∃ token ∈ ts, token.Objections p) _ stmt ts :=
    h.gives fun token htoken p hp => ⟨token, htoken, hp⟩
  obtain ⟨id, t, hrun, hrest, hgrows, hid⟩ := hgives s _ rfl hs fun _ => lacks_cons hclose nofun
  refine ⟨id, t, hrun, hrest, hid.stands, ?_, hgrows.reports⟩
  refine hgrows.errors_eq ?_
  rintro p ⟨token, -, hp⟩
  exact hp.not_unexpected

/-- **Reading what a statement is written as gives the statement back.**  Every statement that can be
written is written somehow.  However it is written, in front of a closing brace it is read as the
statement, and reading stops in front of that brace.  If it ends in an `if` without an `else`, then an
`else` and a statement behind it are read into it, where they belong to the nearest such `if`. -/
theorem statement_written {structs : Structs} {stmt : Stmt} (h : stmt.Writable structs) :
    (∃ ts, stmt.Written structs ts) ∧
      ∀ (ts rest : List Token) (close : Token), stmt.Written structs ts →
        close.kind = .mark .closeCurly → ∀ s : ParseState, s.builder.structs = structs →
          (s.cursor.rest = ts ++ close :: rest → ReadsBack s stmt ts (close :: rest)) ∧
          ∀ (no : Stmt) (vs : List Token) (l : Token), stmt.endsOpen = true →
            l.kind = .keyword .elseWord → no.Written structs vs →
            s.cursor.rest = (ts ++ l :: vs) ++ close :: rest →
              ReadsBack s (stmt.attach no) (ts ++ l :: vs) (close :: rest) := by
  refine ⟨h.exists_written, fun ts rest close hts hclose s hstructs => ?_⟩
  subst hstructs
  constructor
  · intro hs
    exact readsBack_of_written hts hclose hs
  · intro no vs l hopen hl hvs hs
    exact readsBack_of_written (hts.attach hopen hl hvs) hclose hs

/-- Reading `if (a) if (b) x; else y;`. -/
theorem statement_written_dangling :
    let word (text : String) : Token := .written .name text
    let keyword (k : Keyword) : Token := .written (.keyword k) k.spelling
    let value (text : String) := [word text] ++ [Mark.semicolon.written]
    let choice (text : String) (branch : List Token) :=
      keyword .ifWord :: Mark.openParen.written ::
        ([word text] ++ Mark.closeParen.written :: branch)
    let ts := choice "a" (choice "b" (value "x")) ++ keyword .elseWord :: value "y"
    let s : ParseState :=
      ⟨.ofStream ⟨ts ++ [Mark.closeCurly.written], .start⟩, .start .empty, 0⟩
    let inner : Stmt := .choice (.name "b") (.value (.name "x"))
    (Stmt.choice (.name "a") inner).Writable s.builder.structs ∧
      ReadsBack s
        (.choice (.name "a") (.choiceElse (.name "b") (.value (.name "x")) (.value (.name "y"))))
        ts [Mark.closeCurly.written] := by
  intro word keyword value choice ts s inner
  have hname (text : String) : (Expr.name text).Writable s.builder.structs := .name rfl
  have hwritable : (Stmt.choice (.name "a") inner).Writable s.builder.structs :=
    .choice (hname "a") (.choice (hname "b") (.value (hname "x")))
  have hword (text : String) :
      Printed s.builder.structs Power.default.level (.name text) [word text] :=
    .name (t := word text) rfl rfl
  have hvalue (text : String) : (Stmt.value (.name text)).Written s.builder.structs (value text) :=
    .value (hword text) rfl
  have hchoice (text : String) {yes : Stmt} {branch : List Token}
      (h : yes.Written s.builder.structs branch) :
      (Stmt.choice (.name text) yes).Written s.builder.structs (choice text branch) :=
    .choice rfl rfl (hword text) rfl h
  refine ⟨hwritable, ?_⟩
  exact ((statement_written hwritable).2 _ [] Mark.closeCurly.written
    (hchoice "a" (hchoice "b" (hvalue "x"))) rfl s rfl).2 (.value (.name "y")) (value "y")
    (keyword .elseWord) rfl rfl (hvalue "y") rfl

end Grammar

end ShaderLang
