/-
**The outline shows the whole tree once.**

Each node that can be reached from the root has one line, but for the links before other ones and the root.
A line is indented by two spaces for each node above its own that has a line.

The lines stand in the order in which the constructs were written: behind the lines of the constructs that
they are part of, and of two constructs that lie apart the one that was written first has its line first.

Main definitions:

* `ShaderLang.CompilationUnit.Row`, `ShaderLang.CompilationUnit.Lists` — the lines of nodes and of all that
  is shown below them;
* `ShaderLang.CompilationUnit.Row.Precedes` — a node is part of another one, or was written after it;
* `ShaderLang.CompilationUnit.Outlined` — **the rows of a program**.

Main results:

* `ShaderLang.CompilationUnit.Lists.mem_iff`, `ShaderLang.CompilationUnit.Lists.pairwise` — which rows there
  are, and in which order;
* `ShaderLang.CompilationUnit.WellFormed.exists_outlined` — the outline of a forest whose nodes have places;
* `ShaderLang.CompilationUnit.ofTokens_outlined` — **the outline of what was read**.
-/

import ShaderLang.Proofs.CompilationUnit.Descriptions
import ShaderLang.Proofs.CompilationUnit.Shown
import ShaderLang.Proofs.Grammar.ProgramLayout
import ShaderLang.Proofs.Results

set_option relaxedAutoImplicit false
set_option autoImplicit false

namespace ShaderLang

/-! ### The order of what is shown below a node -/

namespace Arena

variable {a : Arena} {names : Names} {tokens : List Token} {places : NodeId → Place} {id : NodeId}
  {n : Node}

/-- What a node refers to stands in its place, one behind the other. -/
theorem children_pairwise (hplaces : ∀ x, a.Reaches id x → a.InPlace names tokens places x)
    (hn : a.node? id = some n) : n.children.Pairwise fun c d => (places c).last ≤ (places d).first := by
  obtain ⟨m, hm, -, -, hordered⟩ := hplaces id .refl
  obtain rfl := Option.some.inj (hn.symm.trans hm)
  rw [← n.inside_production]
  refine hordered.pairwise fun c hc => ?_
  rw [n.inside_production] at hc
  obtain ⟨-, -, hlt, -⟩ := hplaces c (.single ⟨n, hn, hc⟩)
  exact Nat.le_of_lt hlt

/-- The items of a chain, last item first, stand in its place, one before the other. -/
theorem chainItems_pairwise {k : Nat} {items : List NodeId} (h : a.chainItems k id = .ok items)
    (hplaces : ∀ x, a.Reaches id x → a.InPlace names tokens places x) :
    items.Pairwise (fun c d => (places d).last ≤ (places c).first) ∧ ∀ c ∈ items, a.Reaches id c := by
  induction k generalizing id items with
  | zero => contradiction
  | succ k ih =>
      obtain ⟨n, hn, hitems⟩ := chainItems_eq_ok.1 h
      rcases hlink : n.asLink with _ | ⟨_ | previous, item⟩ <;> rw [hlink] at hitems
      · obtain rfl : items = [id] := hitems
        exact ⟨List.pairwise_singleton .., List.forall_mem_singleton.2 .refl⟩
      · obtain rfl : items = [item] := hitems
        have hitem : a.Refers id item := ⟨n, hn, by simp [Node.children_of_asLink hlink]⟩
        exact ⟨List.pairwise_singleton .., List.forall_mem_singleton.2 (.single hitem)⟩
      · obtain ⟨rest, hrest, rfl⟩ : ∃ rest, a.chainItems k previous = .ok rest ∧ items = item :: rest :=
          hitems
        have hchildren : n.children = [previous, item] := Node.children_of_asLink hlink
        have hprevious : a.Refers id previous := ⟨n, hn, by simp [hchildren]⟩
        have hitem : a.Refers id item := ⟨n, hn, by simp [hchildren]⟩
        have hplaces' : ∀ x, a.Reaches previous x → a.InPlace names tokens places x :=
          fun x hx => hplaces x (.head hprevious hx)
        obtain ⟨hpairwise, hall⟩ := ih hrest hplaces'
        -- what comes before the item lies in the place of the link before
        have hbefore : (places previous).last ≤ (places item).first := by
          have horder := children_pairwise hplaces hn
          rw [hchildren] at horder
          exact List.rel_of_pairwise_cons horder (List.mem_singleton.2 rfl)
        refine ⟨List.pairwise_cons.2 ⟨fun c hc => ?_, hpairwise⟩,
          List.forall_mem_cons.2 ⟨.single hitem, fun c hc => .head hprevious (hall c hc)⟩⟩
        exact Nat.le_trans (inside_of_reaches hplaces' (hall c hc)).2 hbefore

end Arena

namespace CompilationUnit

open Arena

variable {u : CompilationUnit} {names : Names} {tokens : List Token} {places : NodeId → Place}
  {id : NodeId} {ids inner : List NodeId} {n : Node} {depth : Nat}

/-- What is shown below a node stands in its place, one behind the other. -/
theorem below_pairwise (hplaces : ∀ x, u.arena.Reaches id x → u.arena.InPlace names tokens places x)
    (hn : u.arena.node? id = some n) (hinner : u.below id n = .ok inner) :
    inner.Pairwise fun c d => (places c).last ≤ (places d).first := by
  unfold CompilationUnit.below at hinner
  split at hinner
  · obtain ⟨chain, hchain, rfl⟩ := listItems_eq_ok.1 hinner
    exact List.pairwise_reverse.2 (chainItems_pairwise hchain hplaces).1
  · obtain rfl := Except.ok.inj hinner
    exact children_pairwise hplaces hn

/-! ### Rows -/

/-- A line of the outline: the node that it is for, and how deep it is shown. -/
structure Row where
  id : NodeId
  node : Node
  depth : Nat

namespace Row

/-- The text of the line. -/
def text (u : CompilationUnit) (r : Row) : String := indentation r.depth ++ u.describe r.node

/-- A line is one line if the names are. -/
theorem oneLine_text (r : Row) (h : u.OneLineNames) : Text.OneLine (r.text u) := by
  have hspaces : '\n' ∉ List.replicate (2 * r.depth) ' ' := Text.notMem_replicate (by decide) _
  exact Text.oneLine_append.2 ⟨Text.oneLine_ofList.2 hspaces, oneLine_describe h r.node⟩

/-- The second node is part of the first one, or the first one was written before it. -/
def Precedes (a : Arena) (places : NodeId → Place) (r r' : Row) : Prop :=
  a.Below r.id r'.id ∨ (places r.id).last ≤ (places r'.id).first

end Row

/-- **The rows of nodes and of all that is shown below them.** -/
inductive Lists (u : CompilationUnit) : Nat → List NodeId → List Row → Prop where
  | nil {depth : Nat} : Lists u depth [] []
  | cons {depth : Nat} {id : NodeId} {ids inner : List NodeId} {n : Node} {rows rows' : List Row}
      (here : u.arena.node? id = some n) (below : u.below id n = .ok inner)
      (inside : Lists u (depth + 1) inner rows) (beside : Lists u depth ids rows') :
      Lists u depth (id :: ids) (⟨id, n, depth⟩ :: (rows ++ rows'))

/-- All that is shown below nodes of a forest has rows. -/
theorem exists_lists (ha : u.arena.Forest) (depth : Nat) (h : ∀ id ∈ ids, id.index < u.arena.size) :
    ∃ rows, u.Lists depth ids rows := by
  -- what is shown below a node has lesser numbers
  obtain ⟨bound, hbound⟩ : ∃ bound, ∀ id ∈ ids, id.index < bound := ⟨_, h⟩
  induction bound generalizing depth ids with
  | zero =>
      cases ids with
      | nil => exact ⟨[], .nil⟩
      | cons id ids => exact absurd (hbound id List.mem_cons_self) (Nat.not_lt_zero _)
  | succ bound ih =>
      induction ids with
      | nil => exact ⟨[], .nil⟩
      | cons id ids ihs =>
          obtain ⟨hid, h⟩ := List.forall_mem_cons.1 h
          obtain ⟨hlt, hbound⟩ := List.forall_mem_cons.1 hbound
          obtain ⟨rows', hrows'⟩ := ihs h hbound
          obtain ⟨n, hn⟩ := exists_node?_of_lt hid
          obtain ⟨inner, hinner⟩ := exists_below ha hn
          have hless : ∀ c ∈ inner, c.index < id.index := fun c hc =>
            ha.index_lt (Shows.below ha ⟨n, inner, hn, hinner, hc⟩)
          obtain ⟨rows, hrows⟩ := ih (depth + 1) (fun c hc => Nat.lt_trans (hless c hc) hid)
            fun c hc => Nat.lt_of_lt_of_le (hless c hc) (Nat.le_of_lt_succ hlt)
          exact ⟨_, .cons hn hinner hrows hrows'⟩

namespace Lists

variable {rows : List Row}

/-- **The outline has the texts of the rows.** -/
theorem outline (h : u.Lists depth ids rows) (ha : u.arena.Forest) {fuel : Nat}
    (hids : ∀ id ∈ ids, id.index < fuel) :
    ∃ lines, ids.mapM (u.outlineWithin fuel depth) = .ok lines ∧
      lines.flatten = rows.map (Row.text u) := by
  induction h generalizing fuel with
  | nil => exact ⟨[], rfl, rfl⟩
  | @cons depth id ids inner n rows rows' here below _ _ ih ihs =>
      obtain ⟨hid, hids⟩ := List.forall_mem_cons.1 hids
      obtain ⟨fuel, rfl⟩ : ∃ k, fuel = k + 1 := ⟨fuel - 1, by omega⟩
      have hinner : ∀ c ∈ inner, c.index < fuel := by
        intro c hc
        have hlt := ha.index_lt (Shows.below ha ⟨n, inner, here, below, hc⟩)
        omega
      obtain ⟨lines, hlines, htext⟩ := ih hinner
      obtain ⟨lines', hlines', htext'⟩ := ihs hids
      have hhere : u.outlineWithin (fuel + 1) depth id =
          .ok (Row.text u ⟨id, n, depth⟩ :: lines.flatten) := by
        rw [outlineWithin, get_of_node? here]
        show (u.below id n >>= _) = _
        rw [below]
        show (inner.mapM (u.outlineWithin fuel (depth + 1)) >>= _) = _
        rw [hlines]
        rfl
      refine ⟨(Row.text u ⟨id, n, depth⟩ :: lines.flatten) :: lines', ?_, ?_⟩
      · rw [List.mapM_cons, hhere, hlines']
        rfl
      · rw [List.flatten_cons, htext, htext', List.cons_append, List.map_cons, List.map_append]

/-- **There is a row for each node that is shown below the nodes**, as deep as it is shown. -/
theorem mem_iff (h : u.Lists depth ids rows) {r : Row} : r ∈ rows ↔
    u.arena.node? r.id = some r.node ∧ ∃ id ∈ ids, ∃ k, u.Under id k r.id ∧ r.depth = depth + k := by
  induction h with
  | nil => simp
  | @cons depth id ids inner n rows rows' here below _ _ ih ihs =>
      rw [List.mem_cons, List.mem_append, ih, ihs]
      constructor
      · rintro (rfl | ⟨hn, c, hc, k, hk, hdepth⟩ | ⟨hn, id', hid', hk⟩)
        · exact ⟨here, id, List.mem_cons_self, 0, .refl, rfl⟩
        · exact ⟨hn, id, List.mem_cons_self, k + 1, .head ⟨n, inner, here, below, hc⟩ hk, by omega⟩
        · exact ⟨hn, id', List.mem_cons_of_mem _ hid', hk⟩
      · rintro ⟨hn, id', hid', k, hk, hdepth⟩
        rcases List.mem_cons.1 hid' with rfl | hid'
        · cases k with
          | zero =>
              have hid := hk.eq_of_zero
              obtain rfl := Option.some.inj (here.symm.trans (hid ▸ hn))
              left
              cases r
              simp_all
          | succ k =>
              obtain ⟨c, ⟨m, inner', hm, hinner, hc⟩, hk⟩ := hk.exists_head
              obtain rfl := Option.some.inj (here.symm.trans hm)
              obtain rfl := Except.ok.inj (below.symm.trans hinner)
              exact .inr (.inl ⟨hn, c, hc, k, hk, by omega⟩)
        · exact .inr (.inr ⟨hn, id', hid', k, hk, hdepth⟩)

/-- The rows of the declarations are those of what is shown below the root. -/
theorem mem_iff_root (h : u.Lists 0 ids rows)
    (hids : ∀ c, c ∈ ids ↔ ∃ root, u.root = some root ∧ u.Shows root c) {r : Row} : r ∈ rows ↔
      u.arena.node? r.id = some r.node ∧ ∃ root, u.root = some root ∧ u.Under root (r.depth + 1) r.id := by
  rw [h.mem_iff]
  refine and_congr_right fun _ => ⟨?_, ?_⟩
  · rintro ⟨id, hid, k, hk, hdepth⟩
    obtain ⟨root, hroot, hshows⟩ := (hids id).1 hid
    rw [hdepth, Nat.zero_add]
    exact ⟨root, hroot, .head hshows hk⟩
  · rintro ⟨root, hroot, hunder⟩
    obtain ⟨id, hshows, hk⟩ := hunder.exists_head
    exact ⟨id, (hids id).2 ⟨root, hroot, hshows⟩, r.depth, hk, (Nat.zero_add _).symm⟩

/-- What has a row is one of the nodes or below one of them. -/
theorem exists_reaches (h : u.Lists depth ids rows) (ha : u.arena.Forest) {r : Row} (hr : r ∈ rows) :
    ∃ id ∈ ids, u.arena.Reaches id r.id := by
  obtain ⟨-, id, hid, k, hk, -⟩ := h.mem_iff.1 hr
  exact ⟨id, hid, hk.reaches ha⟩

/-- **The rows stand in the order in which the constructs were written.** -/
theorem pairwise (h : u.Lists depth ids rows) (ha : u.arena.Forest)
    (hplaces : ∀ id ∈ ids, ∀ x, u.arena.Reaches id x → u.arena.InPlace names tokens places x)
    (hids : ids.Pairwise fun c d => (places c).last ≤ (places d).first) :
    rows.Pairwise (Row.Precedes u.arena places) := by
  induction h with
  | nil => exact .nil
  | @cons depth id ids inner n rows rows' here below inside beside ih ihs =>
      obtain ⟨hid, hplaces⟩ := List.forall_mem_cons.1 hplaces
      obtain ⟨hfirst, hids⟩ := List.pairwise_cons.1 hids
      have hshows : ∀ c ∈ inner, u.arena.Below id c := fun c hc =>
        Shows.below ha ⟨n, inner, here, below, hc⟩
      have hinside : ∀ r ∈ rows, u.arena.Below id r.id := by
        intro r hr
        obtain ⟨c, hc, hreach⟩ := inside.exists_reaches ha hr
        exact (hshows c hc).trans_left hreach
      -- what is not part of the node begins behind it
      have hbehind : ∀ x, u.arena.Reaches id x → ∀ r ∈ rows',
          (places x).last ≤ (places r.id).first := by
        intro x hx r hr
        obtain ⟨id', hid', hreach⟩ := beside.exists_reaches ha hr
        have hlast := (inside_of_reaches hid hx).2
        have hnext := (inside_of_reaches (hplaces id' hid') hreach).1
        exact Nat.le_trans hlast (Nat.le_trans (hfirst id' hid') hnext)
      have hrows : rows.Pairwise (Row.Precedes u.arena places) :=
        ih (fun c hc x hx => hid x ((hshows c hc).to_reflTransGen.trans hx))
          (below_pairwise hid here below)
      refine List.pairwise_cons.2 ⟨fun r hr => ?_, List.pairwise_append.2 ⟨hrows, ihs hplaces hids, ?_⟩⟩
      · rcases List.mem_append.1 hr with hr | hr
        · exact .inl (hinside r hr)
        · exact .inr (hbehind id .refl r hr)
      · intro r hr r' hr'
        exact .inr (hbehind r.id (hinside r hr).to_reflTransGen r' hr')

/-- Every node has one row only. -/
theorem nodup (h : u.Lists depth ids rows) (ha : u.arena.Forest)
    (hplaces : ∀ id ∈ ids, ∀ x, u.arena.Reaches id x → u.arena.InPlace names tokens places x)
    (hids : ids.Pairwise fun c d => (places c).last ≤ (places d).first) : (rows.map Row.id).Nodup := by
  refine List.pairwise_map.2 ((h.pairwise ha hplaces hids).imp_of_mem fun {r r'} hr _ hprecedes heq => ?_)
  rcases hprecedes with hbelow | hlast
  · exact ha.acyclic r.id (heq ▸ hbelow)
  · obtain ⟨id, hid, hreach⟩ := h.exists_reaches ha hr
    obtain ⟨-, -, hlt, -⟩ := hplaces id hid r.id hreach
    rw [← heq] at hlast
    exact absurd hlt (Nat.not_lt.2 hlast)

end Lists

/-! ### The outline of a program -/

/-- **The rows are those of the program**: one for each node that has a line, as deep as there are nodes
above it that have lines.  All that can be reached from the root has a place among the tokens, and the rows
are in the order of the places. -/
structure Outlined (u : CompilationUnit) (tokens : List Token) (places : NodeId → Place)
    (rows : List Row) : Prop where
  nodes : ∀ r ∈ rows, u.arena.node? r.id = some r.node
  once : (rows.map Row.id).Nodup
  lines : ∀ id, id ∈ rows.map Row.id ↔ u.HasLine id
  depths : ∀ r ∈ rows, {p | u.HasLine p ∧ u.arena.Below p r.id}.encard = r.depth
  inPlace : ∀ root x, u.root = some root → u.arena.Reaches root x →
    u.arena.InPlace u.names tokens places x
  ordered : rows.Pairwise (Row.Precedes u.arena places)

/-- Names that come from tokens hold no line feed if the tokens hold none. -/
theorem oneLineNames_finish {b : Builder} {ts : List Token} (h : b.Sourced ts) {root : Option NodeId}
    (hts : ∀ t ∈ ts, t.kind ∈ [TokenKind.name, .intrinsic] → Text.OneLine t.text) :
    (b.finish root).OneLineNames := by
  have hgiven : ∀ {text}, Given ts text → Text.OneLine text := by
    rintro text (rfl | ⟨t, ht, hkind, rfl⟩)
    · decide
    · exact hts t ht hkind
  refine ⟨fun id text htext => hgiven (h.given htext), fun id name hname => hgiven ?_⟩
  have hstruct := h.given_nameOf id
  rwa [show b.structs.nameOf id = some name from hname] at hstruct

/-- The empty builder is written, and no names are in it. -/
theorem written_start (d : Diagnostics) : (Builder.start d).Written [] [] [] where
  sourced := ⟨nofun, nofun⟩
  covers := covers_nil

/-- What can be reached from the root of a program that was read has a place among the tokens. -/
theorem exists_places {b : Builder} {root : Option NodeId} {read : List Token} (ha : b.arena.Forest)
    (h : b.Written [] (Piece.nodes root) read) (rest : List Token) :
    ∃ places, ∀ id x, root = some id → b.arena.Reaches id x →
      b.arena.InPlace b.names (read ++ rest) places x := by
  cases root with
  | none => exact ⟨fun _ => ⟨0, 0⟩, nofun⟩
  | some root =>
      obtain ⟨places, -, hplaces⟩ := (covers_node_iff.1 h.covers).exists_places ha [] rest rfl
      refine ⟨places, fun id x hid hx => ?_⟩
      obtain rfl := Option.some.inj hid
      exact hplaces x hx

/-- The outline has the lines of the declarations. -/
theorem outline_eq {lines : List (List String)} (hids : u.declarations = .ok ids)
    (hlines : ids.mapM (u.outlineWithin u.arena.walkLength 0) = .ok lines) :
    u.outline = .ok (String.join (lines.flatten.map (· ++ "\n"))) := by
  have hall : u.outlineLines = .ok lines.flatten := by
    unfold outlineLines
    rw [hids]
    show (ids.mapM (u.outlineWithin u.arena.walkLength 0) >>= _) = _
    rw [hlines]
    rfl
  unfold CompilationUnit.outline
  rw [hall]
  rfl

namespace WellFormed

/-- The declarations are what is shown below the root, one behind the other. -/
theorem exists_declarations (h : u.WellFormed)
    (hplaces : ∀ root x, u.root = some root → u.arena.Reaches root x →
      u.arena.InPlace names tokens places x) :
    ∃ ids, u.declarations = .ok ids ∧ (∀ c, c ∈ ids ↔ ∃ root, u.root = some root ∧ u.Shows root c) ∧
      ids.Pairwise fun c d => (places c).last ≤ (places d).first := by
  unfold declarations
  cases hroot : u.root with
  | none => exact ⟨[], rfl, by simp, .nil⟩
  | some root =>
      -- the root is a link, so its items are what is shown below it
      obtain ⟨n, hn, hplays⟩ := h.root_chain root hroot
      have hbelow : u.below root n = u.arena.listItems root := by
        cases n <;> first | rfl | cases hplays
      obtain ⟨ids, hids⟩ := exists_below h.forest hn
      refine ⟨ids, hbelow.symm.trans hids, fun c => ⟨fun hc => ⟨root, rfl, n, ids, hn, hids, hc⟩, ?_⟩,
        below_pairwise (fun x hx => hplaces root x hroot hx) hn hids⟩
      rintro ⟨_, ⟨⟩, m, inner, hm, hinner, hc⟩
      obtain rfl := Option.some.inj (hn.symm.trans hm)
      obtain rfl := Except.ok.inj (hids.symm.trans hinner)
      exact hc

/-- **A forest whose nodes have places has an outline, and its rows are those of the program.** -/
theorem exists_outlined (h : u.WellFormed)
    (hplaces : ∀ root x, u.root = some root → u.arena.Reaches root x →
      u.arena.InPlace u.names tokens places x) :
    ∃ rows, u.outline = .ok (String.join ((rows.map (Row.text u)).map (· ++ "\n"))) ∧
      u.Outlined tokens places rows := by
  obtain ⟨ids, hids, hmem, hpairwise⟩ := h.exists_declarations hplaces
  have hlt : ∀ id ∈ ids, id.index < u.arena.size := by
    intro id hid
    obtain ⟨root, hroot, hshows⟩ := (hmem id).1 hid
    exact Nat.lt_trans (h.forest.index_lt (hshows.below h.forest)) (h.root_chain root hroot).lt_size
  have hplaces' : ∀ id ∈ ids, ∀ x, u.arena.Reaches id x → u.arena.InPlace u.names tokens places x := by
    intro id hid x hx
    obtain ⟨root, hroot, hshows⟩ := (hmem id).1 hid
    exact hplaces root x hroot ((hshows.below h.forest).to_reflTransGen.trans hx)
  obtain ⟨rows, hrows⟩ := exists_lists h.forest 0 hlt
  have hfuel : ∀ id ∈ ids, id.index < u.arena.walkLength := fun id hid => Nat.lt_succ_of_lt (hlt id hid)
  obtain ⟨lines, hlines, htexts⟩ := hrows.outline h.forest hfuel
  have hrow : ∀ {r}, r ∈ rows ↔ _ := hrows.mem_iff_root hmem
  have hline : ∀ id, id ∈ rows.map Row.id ↔ u.HasLine id := by
    intro id
    rw [h.hasLine_iff, List.mem_map]
    constructor
    · rintro ⟨r, hr, rfl⟩
      obtain ⟨root, hroot, hunder⟩ := (hrow.1 hr).2
      exact ⟨root, r.depth, hroot, hunder⟩
    · rintro ⟨root, k, hroot, hunder⟩
      have hid : id.index < u.arena.size :=
        Nat.lt_of_le_of_lt ((hunder.reaches h.forest).index_le h.forest)
          (h.root_chain root hroot).lt_size
      obtain ⟨n, hn⟩ := exists_node?_of_lt hid
      exact ⟨⟨id, n, k⟩, hrow.2 ⟨hn, root, hroot, hunder⟩, rfl⟩
  refine ⟨rows, ?_, ?_⟩
  · rw [← htexts]
    exact outline_eq hids hlines
  · exact
      { nodes := fun r hr => (hrow.1 hr).1
        once := hrows.nodup h.forest hplaces' hpairwise
        lines := hline
        depths := fun r hr => by
          obtain ⟨root, hroot, hunder⟩ := (hrow.1 hr).2
          exact h.encard_above hroot hunder
        inPlace := hplaces
        ordered := hrows.pairwise h.forest hplaces' hpairwise }

end WellFormed

/-- **The outline shows the whole tree once.**  Reading any tokens leaves a program whose outline can be
written, and it has the texts of the rows of the program, each with its end.  They are its lines as long as
no name holds a line feed, and no name does if the tokens of names hold none. -/
theorem ofTokens_outlined (tokens : TokenStream) (o : Options) :
    ∃ u text places rows, ofTokens tokens o = .ok u ∧ u.outline = .ok text ∧
      u.Outlined tokens.tokens places rows ∧
      text = String.join ((rows.map (Row.text u)).map (· ++ "\n")) ∧
      (u.OneLineNames → Text.lines text.toList = (rows.map (Row.text u)).map String.toList) ∧
      ((∀ t ∈ tokens.tokens, t.kind ∈ [TokenKind.name, .intrinsic] → Text.OneLine t.text) →
        u.OneLineNames) := by
  obtain ⟨root, t, hp, -, -, hholds⟩ := Grammar.program_ends (s := .start tokens o) rfl
  obtain ⟨read, hread, -, hwritten⟩ := Grammar.carries_program.of_ok hp
  have hwf : (t.builder.finish root).WellFormed := wellFormed_finish hholds
  have hw : t.builder.Written [] (Piece.nodes root) read := hwritten [] [] (written_start _)
  obtain ⟨places, hplaces⟩ := exists_places hwf.forest hw t.cursor.rest
  rw [← hread] at hplaces
  obtain ⟨rows, houtline, houtlined⟩ := hwf.exists_outlined hplaces
  refine ⟨t.builder.finish root, _, places, rows, ?_, houtline, houtlined, rfl, fun hnames => ?_,
    fun htokens => oneLineNames_finish hw.sourced fun token htoken => htokens token ?_⟩
  · unfold ofTokens
    rw [hp]
  · exact Text.lines_join (List.forall_mem_map.2 fun r _ => r.oneLine_text hnames)
  · rw [show tokens.tokens = read ++ t.cursor.rest from hread]
    exact List.mem_append_left _ htoken

/-- Two variables in one declaration, the second one with a value. -/
def paired : TokenStream where
  tokens :=
    [⟨.typeName, "int", ⟨1, 0⟩⟩, ⟨.name, "a", ⟨1, 4⟩⟩, ⟨.mark .comma, ",", ⟨1, 5⟩⟩,
      ⟨.name, "b", ⟨1, 7⟩⟩, ⟨.mark .assignment, "=", ⟨1, 9⟩⟩, ⟨.int, "2", ⟨1, 11⟩⟩,
      ⟨.mark .semicolon, ";", ⟨1, 12⟩⟩]
  stop := ⟨1, 13⟩

/-- Of the two links of the declaration one has a line, and the link of the program has none. -/
theorem ofTokens_outlined_paired :
    (∀ t ∈ paired.tokens, t.kind ∈ [TokenKind.name, .intrinsic] → Text.OneLine t.text) ∧
    ∃ u text places rows, ofTokens paired .standard = .ok u ∧ u.outline = .ok text ∧
      u.Outlined paired.tokens places rows ∧
      Text.lines text.toList = (rows.map (Row.text u)).map String.toList ∧
      rows.map (Row.text u) = ["DeclarationStatement", "  DeclaratorList", "    SingleDeclaration int a",
        "    SingleDeclaration int b", "      IntLiteral 2"] := by
  have hplain : ∀ t ∈ paired.tokens, t.kind ∈ [TokenKind.name, .intrinsic] → Text.OneLine t.text := by
    decide
  have hrun : ((ofTokens paired .standard).toOption.map fun u =>
      u.outline.toOption.map fun text => Text.lines text.toList) =
      some (some (["DeclarationStatement", "  DeclaratorList", "    SingleDeclaration int a",
        "    SingleDeclaration int b", "      IntLiteral 2"].map String.toList)) := by decide +kernel
  obtain ⟨u, text, places, rows, hu, htext, houtlined, -, hlines, hnames⟩ :=
    ofTokens_outlined paired .standard
  obtain ⟨v, hv, hrun⟩ := exists_ok_of_toOption_map hrun
  obtain rfl := Except.ok.inj (hu.symm.trans hv)
  rw [htext] at hrun
  have hrows := hlines (hnames hplain)
  refine ⟨hplain, u, text, places, rows, hu, htext, houtlined, hrows, ?_⟩
  exact List.map_injective_iff.2 (fun _ _ => String.toList_inj.1) (hrows.symm.trans (Option.some.inj hrun))

end CompilationUnit

end ShaderLang
