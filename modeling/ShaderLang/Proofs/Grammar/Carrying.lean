/-
**What a rule makes of the pieces before it.**

While a program is read, what was read so far is covered by pieces: some are tokens, some are nodes that
were built of pieces read before.  A rule puts more pieces behind them, and a step of building puts one
node for the pieces of its production.  So each rule is told by the pieces that it finds and the pieces
that it leaves, and rules in a row are put together.  These pieces are those of the production that the
rule reads, another one for each rule.

Besides that every name and the name of every struct was read as a name.

Main definitions:

* `ShaderLang.Builder.Sourced`, `ShaderLang.Builder.Written` — names come from the tokens read, and pieces
  cover them;
* `ShaderLang.Build.Carries`, `ShaderLang.Parser.Carries` — **the pieces that a step of building or a rule
  finds, and those that it leaves**;
* `ShaderLang.Parser.Writes` — a rule that leaves one node.

Main results:

* `ShaderLang.Build.carries_add` — a node for its production;
* `ShaderLang.Parser.Carries.bind` — rules in a row;
* `ShaderLang.Parser.Carries.behind` — a rule leaves the pieces in front as they are;
* `ShaderLang.Parser.carries_repeated`, `ShaderLang.Parser.writes_fix` — rules repeated and referring to
  themselves;
* `ShaderLang.Parser.carries_attempt` — **a token that is not allowed leaves no piece behind**.
-/

import ShaderLang.Proofs.Builder.Turns
import ShaderLang.Proofs.Grammar.Conduct
import ShaderLang.Proofs.Grammar.Lookahead
import ShaderLang.Proofs.Grammar.Productions
import ShaderLang.Proofs.Names.Texts
import ShaderLang.Proofs.Structs.Registration

set_option relaxedAutoImplicit false
set_option autoImplicit false

namespace ShaderLang

/-! ### Where names come from -/

/-- The text was read as a name; the empty text counts as read. -/
def Given (ts : List Token) (text : String) : Prop :=
  text = "" ∨ ∃ t ∈ ts, t.kind ∈ [TokenKind.name, .intrinsic] ∧ t.text = text

theorem Given.mono {ts us : List Token} {text : String} (h : Given ts text) (hsub : ts ⊆ us) :
    Given us text := by
  rcases h with h | ⟨t, ht, hkind⟩
  · exact .inl h
  · exact .inr ⟨t, hsub ht, hkind⟩

namespace Builder

/-- Every occurrence of a name and every struct has a name that was read. -/
structure Sourced (b : Builder) (ts : List Token) : Prop where
  names : ∀ o ∈ b.names.table.occurrences, ∃ text, b.names.pool.get? o.text = some text ∧ Given ts text
  structs : ∀ name ∈ b.structs.names, Given ts name

variable {b b' b'' : Builder} {ts us front : List Token} {pieces pieces' before between after : List Piece}

theorem Sourced.mono (h : b.Sourced ts) (hsub : ts ⊆ us) : b.Sourced us where
  names := fun o ho => by
    obtain ⟨text, htext, hgiven⟩ := h.names o ho
    exact ⟨text, htext, hgiven.mono hsub⟩
  structs := fun name hname => (h.structs name hname).mono hsub

/-- Occurrences keep their texts while texts are added to the pool. -/
theorem Sourced.of_pool (h : b.Sourced ts) (htable : b'.names.table = b.names.table)
    (hpool : b.names.pool.texts.toList <+: b'.names.pool.texts.toList)
    (hstructs : b'.structs = b.structs) : b'.Sourced ts where
  names := fun o ho => by
    obtain ⟨text, htext, hgiven⟩ := h.names o (htable ▸ ho)
    exact ⟨text, StringPool.get?_of_prefix hpool htext, hgiven⟩
  structs := fun name hname => h.structs name (hstructs ▸ hname)

theorem Sourced.of_same (h : b.Sourced ts) (hnames : b'.names = b.names)
    (hstructs : b'.structs = b.structs) : b'.Sourced ts :=
  h.of_pool (by rw [hnames]) (by rw [hnames]) hstructs

/-- A name that was read occurs. -/
theorem Sourced.occur (h : b.Sourced ts) {text : String} (htext : Given ts text) :
    Sourced { b with names := (b.names.occur text).2 } ts where
  names := by
    intro o ho
    have hnew := b.names.text?_occur text
    unfold Names.occur at ho hnew ⊢
    cases hfind : b.names.pool.find? text with
    | some id =>
        rw [hfind] at ho hnew
        rcases Array.mem_push.1 ho with ho | rfl
        · exact h.names o ho
        · exact ⟨text, StringPool.get?_of_find? hfind, htext⟩
    | none =>
        rw [hfind] at ho hnew
        rcases Array.mem_push.1 ho with ho | rfl
        · obtain ⟨old, hold, hgiven⟩ := h.names o ho
          exact ⟨old, StringPool.get?_add_of_some text hold, hgiven⟩
        · exact ⟨text, b.names.pool.get?_add_nextId text, htext⟩
  structs := h.structs

/-- The texts of names were read. -/
theorem Sourced.given (h : b.Sourced ts) {n : NameId} {text : String} (hn : b.names.text? n = some text) :
    Given ts text := by
  obtain ⟨o, ho, htext⟩ := Option.bind_eq_some_iff.1 hn
  obtain ⟨text', htext', hgiven⟩ := h.names o (Array.mem_of_getElem? ho)
  obtain rfl := Option.some.inj (htext.symm.trans htext')
  exact hgiven

/-- The names of structs were read. -/
theorem Sourced.given_nameOf (h : b.Sourced ts) (id : UInt32) :
    Given ts ((b.structs.nameOf id).getD "") := by
  cases hname : b.structs.nameOf id with
  | none => exact .inl rfl
  | some name =>
      obtain ⟨e, he, rfl⟩ := Option.map_eq_some_iff.1 hname
      obtain ⟨place, -, hplace⟩ := Structs.exists_place_of_entry? he
      exact h.structs _ (List.mem_map_of_mem (Array.mem_toList_iff.2 (Array.mem_of_getElem? hplace)))

/-- The pieces cover the tokens, and every name was read in them or in the tokens in front of them. -/
structure Written (b : Builder) (front : List Token) (pieces : List Piece) (ts : List Token) : Prop where
  sourced : b.Sourced (front ++ ts)
  covers : b.arena.Covers b.names pieces ts

theorem Written.loosen (h : b.Written front pieces ts) (hloose : Arena.Loosens pieces pieces') :
    b.Written front pieces' ts :=
  ⟨h.sourced, hloose _ _ _ h.covers⟩

/-- A text that covers was read. -/
theorem Written.given {kinds : List TokenKind} {text : String} (h : b.Written front [.text kinds text] ts)
    (hkinds : kinds ⊆ [TokenKind.name, .intrinsic]) : Given (front ++ ts) text := by
  obtain ⟨t, ht, hkind, rfl⟩ := Arena.exists_fits_of_covers h.covers rfl
  exact .inr ⟨t, List.mem_append_right _ ht, hkinds hkind, rfl⟩

/-- What covers tokens covers them in a builder that has grown. -/
theorem Grows.covers (h : b.Grows b') (hc : b.arena.Covers b.names pieces ts) :
    b'.arena.Covers b'.names pieces ts :=
  hc.mono h.nodes h.names

end Builder

/-! ### Steps of building -/

namespace Build

variable {α β : Type} {m : Build α} {f : α → Build β} {before between pieces : List Piece}
  {mid after after' : α → List Piece} {last : β → List Piece}

/-- If the step has a result, what was built is still there, and where some pieces covered what was read,
others do. -/
def Carries (m : Build α) (before : List Piece) (after : α → List Piece) : Prop :=
  ∀ b x b', m b = .ok x b' → b.Grows b' ∧
    ∀ front ts, b.Written front before ts → b'.Written front (after x) ts

theorem carries_pure {x : α} (h : after x = before) : (pure x : Build α).Carries before after := by
  intro b y b' hx
  obtain ⟨rfl, rfl⟩ := EStateM.Result.ok.inj hx
  exact ⟨.refl _, fun _ _ hw => h ▸ hw⟩

theorem Carries.bind (hm : m.Carries before mid) (hf : ∀ x, (f x).Carries (mid x) last) :
    (m >>= f).Carries before last := by
  intro b y b'' h
  rw [bind_apply] at h
  split at h
  · next x b' hx =>
      obtain ⟨hgrows, hwritten⟩ := hm b x b' hx
      obtain ⟨hgrows', hwritten'⟩ := hf x b' y b'' h
      exact ⟨hgrows.trans hgrows', fun front ts hw => hwritten' front ts (hwritten front ts hw)⟩
  · contradiction

/-- A step that leaves the nodes, the names and the structs as they are. -/
theorem carries_of_same (h : ∀ b x b', m b = .ok x b' →
    b.Grows b' ∧ b'.names = b.names ∧ b'.structs = b.structs) (pieces : List Piece) :
    m.Carries pieces fun _ => pieces := by
  intro b x b' hx
  obtain ⟨hgrows, hnames, hstructs⟩ := h b x b' hx
  exact ⟨hgrows, fun front ts hw => ⟨hw.sourced.of_same hnames hstructs, hgrows.covers hw.covers⟩⟩

theorem carries_ask (question : Builder → Except Fault α) (pieces : List Piece) :
    (ask question).Carries pieces fun _ => pieces := by
  refine carries_of_same (fun b x b' hx => ?_) pieces
  unfold ask at hx
  split at hx
  · obtain ⟨-, rfl⟩ := EStateM.Result.ok.inj hx
    exact ⟨.refl _, rfl, rfl⟩
  · contradiction

theorem carries_report (p : Problem) (pieces : List Piece) : (report p).Carries pieces fun _ => pieces := by
  refine carries_of_same (fun b x b' hx => ?_) pieces
  obtain ⟨-, rfl⟩ := EStateM.Result.ok.inj hx
  exact ⟨(Builder.Step.report p b.position).steps.grows, rfl, rfl⟩

theorem carries_declare (name : String) (type : DataType) (isArray : Bool) (pieces : List Piece) :
    (declare name type isArray).Carries pieces fun _ => pieces := by
  refine carries_of_same (fun b x b' hx => ?_) pieces
  obtain ⟨-, rfl⟩ := EStateM.Result.ok.inj hx
  exact ⟨(Builder.Step.declare name type isArray).steps.grows, rfl, rfl⟩

theorem carries_setCurrent (name : Option String) (pieces : List Piece) :
    (setCurrent name).Carries pieces fun _ => pieces := by
  refine carries_of_same (fun b x b' hx => ?_) pieces
  obtain ⟨-, rfl⟩ := EStateM.Result.ok.inj hx
  exact ⟨⟨fun _ _ h => h, fun _ _ h => h, Nat.le_refl _⟩, rfl, rfl⟩

/-- **A new node stands for the pieces of its production.** -/
theorem carries_add (n : Node) : (add n).Carries n.production fun id => [.node id] := by
  intro b id b' h
  obtain ⟨rfl, rfl⟩ := EStateM.Result.ok.inj h
  have hgrows : b.Grows (b.push n) := Builder.grows_push b n
  refine ⟨hgrows, fun front ts hw => ⟨hw.sourced.of_same rfl rfl, ?_⟩⟩
  have hnode : (b.push n).arena.node? b.arena.nextId = some n := Arena.node?_add_self ..
  exact Arena.covers_node_iff.2 ((Arena.laid_iff_covers hnode).2 (hgrows.covers hw.covers))

/-- A text that was read gets a number. -/
theorem carries_occur (text : String) {kinds : List TokenKind} (hkinds : kinds ⊆ [.name, .intrinsic]) :
    (occur text).Carries [.text kinds text] fun n => [.name n] := by
  intro b n b' h
  obtain ⟨rfl, rfl⟩ := EStateM.Result.ok.inj h
  have hgrows : b.Grows { b with names := (b.names.occur text).2 } :=
    (Builder.Step.occur text).steps.grows
  refine ⟨hgrows, fun front ts hw => ⟨hw.sourced.occur (hw.given hkinds), ?_⟩⟩
  obtain ⟨t, ht, hkind, rfl⟩ := Arena.exists_fits_of_covers hw.covers rfl
  obtain ⟨us, vs, rfl⟩ := List.append_of_mem ht
  have hfits : (Piece.name (b.names.occur t.text).1).Fits (b.names.occur t.text).2 t :=
    ⟨hkinds hkind, b.names.text?_occur t.text⟩
  exact ((Arena.covers_of_fits hfits).widen vs).behind us

/-- **The pieces on both sides stay as they are.** -/
theorem Carries.among (h : m.Carries before after) (left right : List Piece) :
    m.Carries (left ++ (before ++ right)) fun x => left ++ (after x ++ right) := by
  intro b x b' hx
  obtain ⟨hgrows, hwritten⟩ := h b x b' hx
  refine ⟨hgrows, fun front ts hw => ?_⟩
  obtain ⟨ts₁, rest, rfl, h₁, hrest⟩ := Arena.covers_append_iff.1 hw.covers
  obtain ⟨ts₂, ts₃, rfl, h₂, h₃⟩ := Arena.covers_append_iff.1 hrest
  -- names may have been read on either side
  have hmiddle : b.Written (front ++ (ts₁ ++ (ts₂ ++ ts₃))) before ts₂ :=
    ⟨hw.sourced.mono (List.subset_append_left ..), h₂⟩
  obtain ⟨hsourced, hcovers⟩ := hwritten _ _ hmiddle
  refine ⟨hsourced.mono ?_, (hgrows.covers h₁).append (hcovers.append (hgrows.covers h₃))⟩
  exact List.append_subset.2 ⟨List.Subset.refl _, fun t ht => by simp [ht]⟩

/-- Looser pieces may be found. -/
theorem Carries.of_looser {before' : List Piece} (h : m.Carries before' after)
    (hloose : Arena.Loosens before before') : m.Carries before after := by
  intro b x b' hx
  obtain ⟨hgrows, hwritten⟩ := h b x b' hx
  exact ⟨hgrows, fun front ts hw => hwritten front ts (hw.loosen hloose)⟩

/-- A text that was read gets a number for a new node. -/
theorem carries_occur_add (text : String) {kinds : List TokenKind} (hkinds : kinds ⊆ [.name, .intrinsic])
    (left right : List Piece) {n : NameId → Node}
    (hn : ∀ x, (n x).production = left ++ .name x :: right) :
    (occur text >>= fun x => add (n x)).Carries (left ++ .text kinds text :: right)
      fun id => [.node id] := by
  refine ((carries_occur text hkinds).among left right).bind fun x => ?_
  have hadd := carries_add (n x)
  rwa [hn x] at hadd

end Build

/-! ### Between two states -/

namespace ParseState

variable {s t u : ParseState} {before between after after' front : List Piece}

/-- Tokens were read between the states, what was built is still there, and where some pieces covered what
was read before, others do with the tokens read in between. -/
def Carries (s t : ParseState) (before after : List Piece) : Prop :=
  ∃ read, s.cursor.rest = read ++ t.cursor.rest ∧ s.builder.Grows t.builder ∧
    ∀ front ts, s.builder.Written front before ts → t.builder.Written front after (ts ++ read)

namespace Carries

theorem refl (s : ParseState) (pieces : List Piece) : s.Carries s pieces pieces :=
  ⟨[], rfl, .refl _, fun front ts hw => by rwa [List.append_nil]⟩

theorem trans (h : s.Carries t before between) (h' : t.Carries u between after) :
    s.Carries u before after := by
  obtain ⟨read, hread, hgrows, hwritten⟩ := h
  obtain ⟨more, hmore, hgrows', hwritten'⟩ := h'
  refine ⟨read ++ more, by rw [hread, hmore, List.append_assoc], hgrows.trans hgrows', ?_⟩
  intro front ts hw
  rw [← List.append_assoc]
  exact hwritten' front _ (hwritten front ts hw)

/-- Looser pieces may be left. -/
theorem loosen (h : s.Carries t before after) (hloose : Arena.Loosens after after') :
    s.Carries t before after' := by
  obtain ⟨read, hread, hgrows, hwritten⟩ := h
  exact ⟨read, hread, hgrows, fun front ts hw => (hwritten front ts hw).loosen hloose⟩

/-- **The pieces in front stay as they are.** -/
theorem behind (h : s.Carries t before after) (front : List Piece) :
    s.Carries t (front ++ before) (front ++ after) := by
  obtain ⟨read, hread, hgrows, hwritten⟩ := h
  refine ⟨read, hread, hgrows, fun us ts hw => ?_⟩
  obtain ⟨ts₁, ts₂, rfl, h₁, h₂⟩ := Arena.covers_append_iff.1 hw.covers
  have hw₂ : s.builder.Written (us ++ ts₁) before ts₂ :=
    ⟨by simpa using hw.sourced, h₂⟩
  obtain ⟨hsourced, hcovers⟩ := hwritten _ _ hw₂
  refine ⟨by simpa using hsourced, ?_⟩
  rw [List.append_assoc]
  exact (hgrows.covers h₁).append hcovers

end Carries

end ParseState

/-! ### Rules -/

namespace Parser

variable {ι α β : Type} {p : Parser α} {f : α → Parser β} {s t : ParseState}
  {before between pieces : List Piece} {mid after after' : α → List Piece} {last : β → List Piece}

/-- Where some pieces covered what was read, others do behind the rule if it has a result; behind a token
that it does not allow nothing is left of them. -/
def Carries (p : Parser α) (s : ParseState) (before : List Piece) (after : α → List Piece) : Prop :=
  match p s with
  | .ok x t => s.Carries t before (after x)
  | .error (.unexpected ..) t => s.Carries t before []
  | .error (.fault _) _ => True

namespace Carries

theorem of_ok (h : p.Carries s before after) {x : α} (hp : p s = .ok x t) :
    s.Carries t before (after x) := by
  unfold Carries at h
  rwa [hp] at h

theorem of_unexpected (h : p.Carries s before after) {found : Token} {allowed : List TokenKind}
    (hp : p s = .error (.unexpected found allowed) t) : s.Carries t before [] := by
  unfold Carries at h
  rwa [hp] at h

theorem intro (hok : ∀ x t, p s = .ok x t → s.Carries t before (after x))
    (hun : ∀ found allowed t, p s = .error (.unexpected found allowed) t → s.Carries t before []) :
    p.Carries s before after := by
  unfold Carries
  split
  · next x t hp => exact hok x t hp
  · next found allowed t hp => exact hun found allowed t hp
  · trivial

/-- A rule that only looks, or goes on from another state as another rule does. -/
theorem congr {q : Parser α} (hcarries : s.Carries t before between) (hq : q.Carries t between after)
    (hrun : p s = q t) : p.Carries s before after := by
  refine intro (fun x u hx => ?_) fun found allowed u hx => ?_
  · exact hcarries.trans (hq.of_ok (hrun.symm.trans hx))
  · exact hcarries.trans (hq.of_unexpected (hrun.symm.trans hx))

/-- Rules in a row. -/
theorem bind (hp : p.Carries s before mid) (hf : ∀ x t, (f x).Carries t (mid x) last) :
    (p >>= f).Carries s before last := by
  rcases hps : p s with ⟨x, t⟩ | ⟨e, t⟩
  · exact .congr (hp.of_ok hps) (hf x t) (by rw [bind_apply, hps])
  · refine intro (fun y u hy => ?_) fun found allowed u hu => ?_
    · rw [bind_apply, hps] at hy
      contradiction
    · rw [bind_apply, hps] at hu
      obtain ⟨rfl, rfl⟩ := EStateM.Result.error.inj hu
      exact hp.of_unexpected hps

/-- Looser pieces may be left. -/
theorem loosen (h : p.Carries s before after) (hloose : ∀ x, Arena.Loosens (after x) (after' x)) :
    p.Carries s before after' :=
  intro (fun x _ hx => (h.of_ok hx).loosen (hloose x)) fun _ _ _ hu => h.of_unexpected hu

/-- Looser pieces may be found. -/
theorem of_looser (h : p.Carries s before after) (hloose : Arena.Loosens between before) :
    p.Carries s between after :=
  congr ((ParseState.Carries.refl s between).loosen hloose) h rfl

/-- Pieces may be left out. -/
theorem sublist (h : p.Carries s before after) (hsub : ∀ x, (after' x).Sublist (after x)) :
    p.Carries s before after' :=
  h.loosen fun x => Arena.loosens_of_sublist (hsub x)

/-- **The pieces in front stay as they are.** -/
theorem behind (h : p.Carries s before after) (front : List Piece) :
    p.Carries s (front ++ before) fun x => front ++ after x :=
  intro (fun _ _ hx => (h.of_ok hx).behind front) fun _ _ _ hu =>
    ((h.of_unexpected hu).behind front).loosen (Arena.loosens_of_sublist (List.nil_sublist _))

/-- A rule that needs no pieces leaves its own behind those in front. -/
theorem next (h : p.Carries s [] after) (front : List Piece) :
    p.Carries s front fun x => front ++ after x := by
  simpa using h.behind front

/-- A rule of which nothing is kept. -/
theorem skip (h : p.Carries s [] after) (pieces : List Piece) : p.Carries s pieces fun _ => pieces :=
  (h.next pieces).sublist fun _ => List.sublist_append_left ..

/-- A rule that depends on what a look at the state has shown. -/
theorem look {v : α} (hp : p s = .ok v s) (hf : (f v).Carries s before last) :
    (p >>= f).Carries s before last :=
  .congr (.refl s before) hf (by rw [bind_apply, hp])

/-- A rule that depends on the kind of the next token. -/
theorem on_kind {f : TokenKind → Parser β} (hf : (f s.cursor.current.kind).Carries s before last) :
    (currentKind >>= f).Carries s before last :=
  look rfl hf

end Carries

/-! ### The steps -/

theorem carries_pure {x : α} (h : after x = before) : (pure x : Parser α).Carries s before after := by
  refine .intro (fun y t hy => ?_) fun _ _ _ hu => nomatch hu
  obtain ⟨rfl, rfl⟩ := EStateM.Result.ok.inj hy
  exact h ▸ .refl _ _

theorem Carries.map {g : α → β} (h : p.Carries s before fun x => last (g x)) :
    (g <$> p).Carries s before last := by
  rw [map_eq_pure_bind]
  exact h.bind fun x _ => carries_pure rfl

theorem carries_unexpected (allowed : List TokenKind) :
    (unexpected allowed : Parser α).Carries s before after :=
  .intro nofun fun found allowed t ht => by
    obtain ⟨-, rfl⟩ := EStateM.Result.error.inj ht
    exact (ParseState.Carries.refl s before).loosen (Arena.loosens_of_sublist (List.nil_sublist _))

/-- A step of building. -/
theorem carries_build {m : Build α} (h : m.Carries before after) : (build m).Carries s before after := by
  refine .intro (fun x t hx => ?_) fun found allowed t ht => ?_
  · rcases hb : m s.builder with ⟨y, b⟩ | ⟨e, b⟩
    · rw [build_ok hb] at hx
      obtain ⟨rfl, rfl⟩ := EStateM.Result.ok.inj hx
      obtain ⟨hgrows, hwritten⟩ := h _ y b hb
      exact ⟨[], rfl, hgrows, fun front ts hw => by
        rw [List.append_nil]
        exact hwritten front ts hw⟩
    · rw [build_error hb] at hx
      contradiction
  · rcases hb : m s.builder with ⟨y, b⟩ | ⟨e, b⟩
    · rw [build_ok hb] at ht
      contradiction
    · rw [build_error hb] at ht
      cases ht

/-- One more item of a sequence, behind the sequence so far. -/
theorem carries_buildLink (kind : ListKind) (previous : Option NodeId) (item : NodeId) :
    (buildLink kind previous item).Carries s (kind.front previous ++ [.node item]) Piece.nodes :=
  (carries_build (Build.carries_add _)).bind fun _ _ => carries_pure rfl

/-- A token that is read leaves a piece that it fits. -/
theorem carries_advance_of (piece : Token → Piece) (hpos : 0 < s.cursor.left)
    (hfits : ∀ names, (piece s.cursor.current).Fits names s.cursor.current) :
    advance.Carries s pieces fun x => pieces ++ [piece x] := by
  refine .intro (fun x t hx => ?_) fun _ _ _ hu => nomatch hu
  obtain ⟨rfl, rfl⟩ := EStateM.Result.ok.inj hx
  have hgrows := (Builder.Step.position (b := s.builder) s.cursor.current.position).steps.grows
  refine ⟨[s.cursor.current], (Cursor.cons_current_next hpos).symm, hgrows, fun front ts hw => ⟨?_, ?_⟩⟩
  · refine Builder.Sourced.of_same (hw.sourced.mono ?_) rfl rfl
    rw [← List.append_assoc]
    exact List.subset_append_left ..
  · exact (hgrows.covers hw.covers).append (Arena.covers_of_fits (hfits _))

/-- A token of one of some kinds. -/
theorem carries_token {kinds : List TokenKind} (hkind : s.cursor.current.kind ∈ kinds)
    (hne : s.cursor.current.kind ≠ .endOfFile) :
    advance.Carries s pieces fun _ => pieces ++ [.token kinds] :=
  carries_advance_of (fun _ => .token kinds) (Cursor.left_pos_of_kind hne) fun _ => hkind

/-- A token of one of some kinds, with its text. -/
theorem carries_text {kinds : List TokenKind} (hkind : s.cursor.current.kind ∈ kinds)
    (hne : s.cursor.current.kind ≠ .endOfFile) :
    advance.Carries s pieces fun x => pieces ++ [.text kinds x.text] :=
  carries_advance_of (fun x => .text kinds x.text) (Cursor.left_pos_of_kind hne) fun _ => ⟨hkind, rfl⟩

/-- A mark that is seen. -/
theorem carries_mark {m : Mark} (hkind : s.cursor.current.kind = .mark m) :
    advance.Carries s pieces fun _ => pieces ++ [.mark m] :=
  carries_token (hkind ▸ List.mem_singleton_self _) (hkind ▸ nofun)

/-- A name that is seen. -/
theorem carries_word {kind : TokenKind} (hkind : s.cursor.current.kind = kind) (hne : kind ≠ .endOfFile) :
    advance.Carries s pieces fun x => pieces ++ [.text [kind] x.text] :=
  carries_text (hkind ▸ List.mem_singleton_self _) (hkind ▸ hne)

/-- A token of which nothing is kept; behind the last token there is none to be read. -/
theorem carries_advance : advance.Carries s pieces fun _ => pieces := by
  by_cases hpos : 0 < s.cursor.left
  · have hread : advance.Carries s pieces fun _ => pieces ++ [.token [s.cursor.current.kind]] :=
      carries_advance_of (fun _ => .token _) hpos fun _ => List.mem_singleton_self _
    exact hread.sublist fun _ => List.sublist_append_left ..
  · have hrest : s.cursor.rest = [] := by
      rw [← List.length_eq_zero_iff, ← s.cursor.left_eq]
      omega
    refine .intro (fun x t hx => ?_) fun _ _ _ hu => nomatch hu
    obtain ⟨rfl, rfl⟩ := EStateM.Result.ok.inj hx
    have hgrows := (Builder.Step.position (b := s.builder) s.cursor.current.position).steps.grows
    refine ⟨[], by simp [hrest], hgrows, fun front ts hw => ?_⟩
    rw [List.append_nil]
    exact ⟨hw.sourced.of_same rfl rfl, hw.covers⟩

/-- A token of a kind, with its text. -/
theorem carries_expect (kind : TokenKind) (hne : kind ≠ .endOfFile) :
    (expect kind).Carries s pieces fun x => pieces ++ [.text [kind] x.text] := by
  refine .on_kind ?_
  split
  · next hkind => exact carries_word hkind hne
  · exact carries_unexpected _

/-- A token of a kind. -/
theorem carries_expect_token (kind : TokenKind) {kinds : List TokenKind} (hkinds : [kind] ⊆ kinds)
    (hne : kind ≠ .endOfFile) : (expect kind).Carries s pieces fun _ => pieces ++ [.token kinds] :=
  (carries_expect kind hne).loosen fun x => by
    simpa using (Arena.loosens_text hkinds x.text).among pieces []

theorem carries_expectMark (m : Mark) :
    (expectMark m).Carries s pieces fun _ => pieces ++ [.mark m] :=
  (carries_expect_token (.mark m) (List.Subset.refl _) nofun).bind fun _ _ => carries_pure rfl

theorem carries_expectKeyword (k : Keyword) :
    (expectKeyword k).Carries s pieces fun _ => pieces ++ [.word k] :=
  (carries_expect_token (.keyword k) (List.Subset.refl _) nofun).bind fun _ _ => carries_pure rfl

/-- The next token is read if it is of the kind. -/
theorem carries_accept (kind : TokenKind) (hne : kind ≠ .endOfFile) :
    (accept kind).Carries s pieces fun more => pieces ++ cond more [.token [kind]] [] := by
  refine .on_kind ?_
  split
  · next hkind =>
      exact (carries_token (hkind ▸ List.mem_singleton_self _) (hkind ▸ hne)).bind fun _ _ => carries_pure rfl
  · exact carries_pure (List.append_nil _)

/-! ### Repetition and recursion -/

/-- The pieces that a turn leaves, whether it goes on or is done. -/
def Turn.written (again : β → List Piece) (done : α → List Piece) : Turn β α → List Piece
  | .again b => again b
  | .done x => done x

/-- A repetition leaves what its last turn leaves, if each turn leaves what the next one finds.  The
induction is on the tokens left. -/
theorem carries_repeated {turn : β → Parser (Turn β α)} {again : β → List Piece}
    (h : ∀ b t, (turn b).Carries t (again b) (Turn.written again after)) (b : β) (s : ParseState) :
    (repeated turn b).Carries s (again b) after := by
  induction hleft : s.left using Nat.strongRecOn generalizing b s with
  | ind l ih =>
      subst hleft
      have hloop : repeated turn b s = _ := loop_eq turn b s
      rcases ht : turn b s with ⟨b' | x, t⟩ | ⟨e, t⟩
      · rw [ht] at hloop
        by_cases hlt : t.left < s.left
        · simp only [if_pos hlt] at hloop
          exact .congr ((h b s).of_ok ht) (ih t.left hlt b' t rfl) hloop
        · simp only [if_neg hlt] at hloop
          exact .intro (fun x u hx => nomatch hloop.symm.trans hx) fun _ _ u hu =>
            nomatch hloop.symm.trans hu
      · rw [ht] at hloop
        exact .congr ((h b s).of_ok ht) (carries_pure rfl) hloop
      · rw [ht] at hloop
        refine .intro (fun x u hx => nomatch hloop.symm.trans hx) fun found allowed u hu => ?_
        obtain ⟨rfl, rfl⟩ := EStateM.Result.error.inj (hloop.symm.trans hu)
        exact (h b s).of_unexpected ht

/-- The rule leaves one node, and it stands for all that was kept. -/
def Writes (p : Parser NodeId) : Prop := ∀ s, p.Carries s [] fun id => [.node id]

/-- **A rule that refers to itself leaves one node if it does where the references do.**  The induction is
on the tokens left. -/
theorem writes_fix {rule : (ι → Parser NodeId) → ι → Parser NodeId}
    (h : ∀ inner : ι → Parser NodeId, (∀ j, (inner j).Writes) → ∀ i, (rule inner i).Writes) (i : ι) :
    Writes (fix rule i) := by
  intro s
  induction hleft : s.left using Nat.strongRecOn generalizing i s with
  | ind l ih =>
      subst hleft
      have hbelow : ∀ j, (below s.left (fix rule) j).Writes := by
        intro j t
        by_cases hlt : t.left < s.left
        · exact .congr (.refl t []) (ih t.left hlt j t rfl) (below_apply hlt)
        · -- beyond the bound there is only a fault
          unfold Carries below
          simp only [if_neg hlt]
      exact .congr (.refl s []) (h _ hbelow i s) (fix_eq_below rule i s)

/-! ### Going on behind an error -/

/-- **A token that is not allowed leaves no piece behind.** -/
theorem carries_attempt (h : p.Carries s before after) :
    (attempt p).Carries s before fun
      | .ok x => after x
      | .error _ => [] := by
  refine .intro (fun x t hx => ?_) fun found allowed t ht => ?_
  · unfold attempt at hx
    split at hx
    · next x' t' hp =>
        obtain ⟨rfl, rfl⟩ := EStateM.Result.ok.inj hx
        exact h.of_ok hp
    · next found allowed t' hp =>
        obtain ⟨rfl, rfl⟩ := EStateM.Result.ok.inj hx
        exact h.of_unexpected hp
    · contradiction
  · unfold attempt at ht
    split at ht
    · contradiction
    · contradiction
    · cases ht

theorem carries_report (found : Token) (allowed : List TokenKind) :
    (report found allowed).Carries s pieces fun _ => pieces := by
  refine .intro (fun x t hx => ?_) fun _ _ _ hu => nomatch hu
  obtain ⟨-, rfl⟩ := EStateM.Result.ok.inj hx
  refine ⟨[], rfl, (Builder.Step.report _ found.position).steps.grows, fun front ts hw => ?_⟩
  rw [List.append_nil]
  exact ⟨hw.sourced.of_same rfl rfl, hw.covers⟩

end Parser

end ShaderLang
