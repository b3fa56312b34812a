/-
**Every node has a place among the tokens.**

A node that is laid out over tokens has its nodes laid out over parts of them, and those theirs.  No node
is part of two others, so that gives each one place: the number of its first token and the number of the
token behind it.  The places of what a node refers to lie inside its own, in the order of its production.

Main definitions:

* `ShaderLang.Place` — from one token up to another one;
* `ShaderLang.Situated` — pieces one behind the other, the nodes among them at their places;
* `ShaderLang.Arena.Reaches`, `ShaderLang.Arena.InPlace` — a node stands at its place as it is written.

Main results:

* `ShaderLang.Arena.Forest.apart` — what is below one child of a node is not below another one;
* `ShaderLang.Arena.Laid.exists_places` — **everything below a node that is laid out has a place**;
* `ShaderLang.Arena.inside_of_reaches`, `ShaderLang.Situated.pairwise` — places inside of others, and one
  behind the other.
-/

import ShaderLang.Proofs.Grammar.Productions

set_option relaxedAutoImplicit false
set_option autoImplicit false

namespace ShaderLang

/-- From the first token of a construct up to the one behind it. -/
structure Place where
  first : Nat
  last : Nat

/-- The pieces are found from one token on up to another one, the nodes among them at their places. -/
inductive Situated (names : Names) (tokens : List Token) (places : NodeId → Place) :
    List Piece → Nat → Nat → Prop where
  | nil {i j : Nat} (h : i ≤ j) : Situated names tokens places [] i j
  | token {piece : Piece} {pieces : List Piece} {i j k : Nat} {t : Token} (hi : i ≤ k)
      (here : tokens[k]? = some t) (fits : piece.Fits names t)
      (rest : Situated names tokens places pieces (k + 1) j) :
      Situated names tokens places (piece :: pieces) i j
  | node {id : NodeId} {pieces : List Piece} {i j : Nat} (hi : i ≤ (places id).first)
      (rest : Situated names tokens places pieces (places id).last j) :
      Situated names tokens places (.node id :: pieces) i j

namespace Situated

variable {names : Names} {tokens : List Token} {places places' : NodeId → Place} {pieces : List Piece}
  {i j : Nat}

/-- Tokens in front may be passed over. -/
theorem of_le (h : Situated names tokens places pieces i j) {i' : Nat} (hi : i' ≤ i) :
    Situated names tokens places pieces i' j := by
  cases h with
  | nil h => exact .nil (Nat.le_trans hi h)
  | token hk here fits rest => exact .token (Nat.le_trans hi hk) here fits rest
  | node hk rest => exact .node (Nat.le_trans hi hk) rest

/-- Only the places of the nodes among the pieces matter. -/
theorem congr (h : Situated names tokens places pieces i j)
    (hplaces : ∀ c ∈ Piece.inside pieces, places' c = places c) :
    Situated names tokens places' pieces i j := by
  induction h with
  | nil h => exact .nil h
  | token hi here fits _ ih =>
      rw [Piece.inside_of_fits fits] at hplaces
      exact .token hi here fits (ih hplaces)
  | node hi _ ih =>
      rw [Piece.inside_node] at hplaces
      obtain ⟨hid, hplaces⟩ := List.forall_mem_cons.1 hplaces
      refine .node (hid ▸ hi) ?_
      rw [hid]
      exact ih hplaces

/-- The places of the nodes among the pieces lie between the ends. -/
theorem bounds (h : Situated names tokens places pieces i j)
    (hplaces : ∀ c ∈ Piece.inside pieces, (places c).first ≤ (places c).last) :
    i ≤ j ∧ ∀ c ∈ Piece.inside pieces, i ≤ (places c).first ∧ (places c).last ≤ j := by
  induction h with
  | nil h => exact ⟨h, nofun⟩
  | token hi _ fits _ ih =>
      rw [Piece.inside_of_fits fits] at hplaces ⊢
      obtain ⟨hle, hall⟩ := ih hplaces
      exact ⟨by omega, fun c hc => ⟨by have := (hall c hc).1; omega, (hall c hc).2⟩⟩
  | node hi _ ih =>
      rw [Piece.inside_node] at hplaces ⊢
      obtain ⟨hid, hplaces⟩ := List.forall_mem_cons.1 hplaces
      obtain ⟨hle, hall⟩ := ih hplaces
      refine ⟨by omega, List.forall_mem_cons.2 ⟨⟨hi, hle⟩, fun c hc => ?_⟩⟩
      exact ⟨by have := (hall c hc).1; omega, (hall c hc).2⟩

/-- **The nodes among the pieces stand one behind the other.** -/
theorem pairwise (h : Situated names tokens places pieces i j)
    (hplaces : ∀ c ∈ Piece.inside pieces, (places c).first ≤ (places c).last) :
    (Piece.inside pieces).Pairwise fun c d => (places c).last ≤ (places d).first := by
  induction h with
  | nil => exact .nil
  | token _ _ fits _ ih =>
      rw [Piece.inside_of_fits fits] at hplaces ⊢
      exact ih hplaces
  | node _ rest ih =>
      rw [Piece.inside_node] at hplaces ⊢
      obtain ⟨-, hplaces⟩ := List.forall_mem_cons.1 hplaces
      exact List.pairwise_cons.2 ⟨fun c hc => ((rest.bounds hplaces).2 c hc).1, ih hplaces⟩

end Situated

namespace Arena

variable {a : Arena} {names : Names} {tokens front ts : List Token} {places places' : NodeId → Place}
  {id : NodeId} {pieces : List Piece} {parts : List (NodeId × List Token)}

/-! ### What is below a node -/

/-- The second node is the first one or below it. -/
def Reaches (a : Arena) : NodeId → NodeId → Prop := Relation.ReflTransGen a.Refers

theorem Reaches.index_le (ha : a.Forest) {c : NodeId} (h : a.Reaches id c) : c.index ≤ id.index := by
  rcases Relation.reflTransGen_iff_eq_or_transGen.1 h with rfl | hbelow
  · exact Nat.le_refl _
  · exact Nat.le_of_lt (ha.index_lt hbelow)

/-- Two nodes that refer to one are the same. -/
theorem Forest.parent_unique (ha : a.Forest) {c p q : NodeId} (hp : a.Refers p c) (hq : a.Refers q c) :
    p = q := by
  obtain ⟨n, hn, hc⟩ := hp
  obtain ⟨m, hm, hc'⟩ := hq
  exact ha.oneParent p q n m hn hm c hc hc'

/-- Two nodes that reach a third one reach one another: one of them the other. -/
theorem Forest.total (ha : a.Forest) {c d x : NodeId} (hc : a.Reaches c x) (hd : a.Reaches d x) :
    a.Reaches c d ∨ a.Reaches d c := by
  have hunique : Relator.RightUnique (Function.swap a.Refers) := fun _ _ _ hp hq => ha.parent_unique hp hq
  rcases Relation.ReflTransGen.total_of_right_unique hunique hc.swap hd.swap with h | h
  · exact .inr h.swap
  · exact .inl h.swap

/-- **What is below one child of a node is not below another one.** -/
theorem Forest.apart (ha : a.Forest) {c d : NodeId} (hc : a.Refers id c) (hd : a.Refers id d)
    (hne : c ≠ d) {x : NodeId} (hx : a.Reaches c x) : ¬ a.Reaches d x := by
  -- a child that reached another one would reach the parent of it, its own
  have hnot : ∀ {c d : NodeId}, a.Refers id c → a.Refers id d → c ≠ d → ¬ a.Reaches c d := by
    intro c d hc hd hne hreach
    rcases Relation.ReflTransGen.cases_tail hreach with heq | ⟨p, hp, hd'⟩
    · exact hne heq.symm
    · obtain rfl := ha.parent_unique hd hd'
      exact ha.acyclic id (Relation.TransGen.head' hc hp)
  intro hx'
  rcases ha.total hx hx' with h | h
  · exact hnot hc hd hne h
  · exact hnot hd hc hne.symm h

/-! ### Places -/

/-- **The node stands at its place as it is written**: the pieces of its production are found there one
behind the other, and the nodes among them at places of their own. -/
def InPlace (a : Arena) (names : Names) (tokens : List Token) (places : NodeId → Place) (id : NodeId) :
    Prop :=
  ∃ n, a.node? id = some n ∧ (places id).first < (places id).last ∧ (places id).last ≤ tokens.length ∧
    Situated names tokens places n.production (places id).first (places id).last

/-- Only the places of the node and of what it refers to matter. -/
theorem InPlace.congr (h : a.InPlace names tokens places id) (hid : places' id = places id)
    (hbelow : ∀ c, a.Refers id c → places' c = places c) : a.InPlace names tokens places' id := by
  obtain ⟨n, hn, hlt, hlast, hordered⟩ := h
  refine ⟨n, hn, ?_⟩
  rw [hid]
  refine ⟨hlt, hlast, hordered.congr fun c hc => hbelow c ⟨n, hn, ?_⟩⟩
  rwa [n.inside_production] at hc

/-- Everything below the node has a place, if the tokens are found behind those in front. -/
def HasPlaces (a : Arena) (names : Names) (tokens : List Token) (id : NodeId) (ts : List Token) : Prop :=
  ∀ front behind, tokens = front ++ ts ++ behind → ∃ places : NodeId → Place,
    places id = ⟨front.length, front.length + ts.length⟩ ∧
      ∀ x, a.Reaches id x → a.InPlace names tokens places x

end Arena

/-- Where the nodes among the pieces have places, the pieces are found one behind the other. -/
theorem Spread.exists_places {a : Arena} {names : Names} {tokens ts : List Token} {pieces : List Piece}
    {parts : List (NodeId × List Token)} (h : Spread names pieces parts ts)
    (hparts : ∀ p ∈ parts, a.HasPlaces names tokens p.1 p.2)
    (hapart : parts.Pairwise fun p q => ∀ x, a.Reaches p.1 x → ¬ a.Reaches q.1 x)
    {front behind : List Token} (htokens : tokens = front ++ ts ++ behind) :
    ∃ places, Situated names tokens places pieces front.length (front.length + ts.length) ∧
      ∀ p ∈ parts, ∀ x, a.Reaches p.1 x → a.InPlace names tokens places x := by
  induction h generalizing front with
  | nil => exact ⟨fun _ => ⟨0, 0⟩, .nil (Nat.le_add_right _ _), nofun⟩
  | @skip _ _ t ts _ ih =>
      have htokens' : tokens = (front ++ [t]) ++ ts ++ behind := by simpa using htokens
      obtain ⟨places, hordered, hplaces⟩ := ih hparts hapart htokens'
      refine ⟨places, ?_, hplaces⟩
      have hlength : (front ++ [t]).length + ts.length = front.length + (t :: ts).length := by
        simp only [List.length_append, List.length_cons, List.length_nil]
        omega
      exact (hlength ▸ hordered).of_le (by simp)
  | @here piece _ _ t ts fits _ ih =>
      have htokens' : tokens = (front ++ [t]) ++ ts ++ behind := by simpa using htokens
      obtain ⟨places, hordered, hplaces⟩ := ih hparts hapart htokens'
      refine ⟨places, ?_, hplaces⟩
      have hlength : (front ++ [t]).length + ts.length = front.length + (t :: ts).length := by
        simp only [List.length_append, List.length_cons, List.length_nil]
        omega
      rw [hlength, List.length_append] at hordered
      exact .token (Nat.le_refl _) (by simp [htokens]) fits hordered
  | @node id _ parts part ts rest ih =>
      obtain ⟨hpart, hparts⟩ := List.forall_mem_cons.1 hparts
      obtain ⟨hid, hapart⟩ := List.pairwise_cons.1 hapart
      have htokens' : tokens = (front ++ part) ++ ts ++ behind := by simpa using htokens
      obtain ⟨places, hordered, hplaces⟩ := ih hparts hapart htokens'
      obtain ⟨own, hown, hbelow⟩ := hpart front (ts ++ behind) (by simpa using htokens)
      -- what is below the node keeps its own place
      classical
      let both : NodeId → Place := fun x => if a.Reaches id x then own x else places x
      have hin : ∀ x, a.Reaches id x → both x = own x := fun x hx => if_pos hx
      have hout : ∀ p ∈ parts, ∀ x, a.Reaches p.1 x → both x = places x :=
        fun p hp x hx => if_neg fun hx' => hid p hp x hx' hx
      refine ⟨both, .node ?_ ?_, List.forall_mem_cons.2 ⟨fun x hx => ?_, fun p hp x hx => ?_⟩⟩
      · rw [hin id .refl, hown]
      · rw [hin id .refl, hown]
        have hlength : (front ++ part).length + ts.length = front.length + (part ++ ts).length := by
          simp only [List.length_append]
          omega
        rw [hlength, List.length_append] at hordered
        refine hordered.congr fun c hc => ?_
        rw [← rest.map_fst] at hc
        obtain ⟨p, hp, rfl⟩ := List.mem_map.1 hc
        exact hout p hp p.1 .refl
      · exact (hbelow x hx).congr (hin x hx) fun c hc => hin c (hx.tail hc)
      · exact (hplaces p hp x hx).congr (hout p hp x hx) fun c hc => hout p hp c (hx.tail hc)

namespace Arena

variable {a : Arena} {names : Names} {tokens ts : List Token} {places : NodeId → Place} {id : NodeId}

/-- **Everything below a node that is laid out has a place.** -/
theorem Laid.exists_places (ha : a.Forest) (h : a.Laid names id ts) : a.HasPlaces names tokens id ts := by
  induction h with
  | @node id n parts ts here spread inside ih =>
      intro front behind htokens
      have hchildren : parts.map Prod.fst = n.children := by rw [spread.map_fst, n.inside_production]
      have hrefers : ∀ p ∈ parts, a.Refers id p.1 := fun p hp =>
        ⟨n, here, hchildren ▸ List.mem_map_of_mem hp⟩
      have hapart : parts.Pairwise fun p q => ∀ x, a.Reaches p.1 x → ¬ a.Reaches q.1 x := by
        have hdistinct : (parts.map Prod.fst).Nodup := hchildren ▸ ha.distinct id n here
        refine (List.pairwise_map.1 hdistinct).imp_of_mem fun {p q} hp hq hne x hx => ?_
        exact ha.apart (hrefers p hp) (hrefers q hq) hne hx
      obtain ⟨places, hordered, hplaces⟩ := spread.exists_places ih hapart htokens
      -- the node itself is below none of its children
      classical
      let all : NodeId → Place := fun x =>
        if x = id then ⟨front.length, front.length + ts.length⟩ else places x
      have hid : all id = ⟨front.length, front.length + ts.length⟩ := if_pos rfl
      have hbelow : ∀ x, a.Below id x → all x = places x := by
        intro x hx
        refine if_neg ?_
        rintro rfl
        exact ha.acyclic x hx
      refine ⟨all, hid, fun x hx => ?_⟩
      rcases Relation.ReflTransGen.cases_head hx with rfl | ⟨c, hc, hx⟩
      · have hpos : 0 < ts.length := List.length_pos_iff.2 (Laid.node here spread inside).ne_nil
        refine ⟨n, here, ?_⟩
        rw [hid]
        refine ⟨by simpa using hpos, by simp [htokens], hordered.congr fun c hc => ?_⟩
        exact hbelow c (.single ⟨n, here, by rwa [n.inside_production] at hc⟩)
      · have hmem : c ∈ parts.map Prod.fst := by
          obtain ⟨m, hm, hcm⟩ := hc
          obtain rfl := Option.some.inj (here.symm.trans hm)
          rwa [hchildren]
        obtain ⟨p, hp, rfl⟩ := List.mem_map.1 hmem
        have hidx : a.Below id x := Relation.TransGen.head' hc hx
        exact (hplaces p hp x hx).congr (hbelow x hidx) fun d hd => hbelow d (hidx.tail hd)

/-- What is below a node stands inside the place of the node. -/
theorem inside_of_reaches (h : ∀ x, a.Reaches id x → a.InPlace names tokens places x) {c : NodeId}
    (hc : a.Reaches id c) :
    (places id).first ≤ (places c).first ∧ (places c).last ≤ (places id).last := by
  induction hc with
  | refl => exact ⟨Nat.le_refl _, Nat.le_refl _⟩
  | @tail p c hp hc ih =>
      obtain ⟨n, hn, hmem⟩ := hc
      obtain ⟨m, hm, -, -, hordered⟩ := h p hp
      obtain rfl := Option.some.inj (hn.symm.trans hm)
      have hbounds := hordered.bounds fun d hd => by
        rw [n.inside_production] at hd
        obtain ⟨_, _, hlt, -⟩ := h d (hp.tail ⟨n, hn, hd⟩)
        exact Nat.le_of_lt hlt
      have hinside := hbounds.2 c (by rwa [n.inside_production])
      exact ⟨Nat.le_trans ih.1 hinside.1, Nat.le_trans hinside.2 ih.2⟩

end Arena

end ShaderLang
