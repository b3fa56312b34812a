/-
**The calls of a function are the calls in its body.**

While a program is read, a call is noted for the function that is being built, which is known by its
name only.  The finished nodes tell the same: the nodes between the head of a function and the function
itself are those of its body, so the calls among them are what the function calls, and no call from
another place is there.  Both agree as long as no token was reported as not allowed; a part that broke
a rule may have noted calls and never become a function.

Main definitions:

* `ShaderLang.Arena.called`, `ShaderLang.Arena.callsBetween` — what the calls among some nodes call;
* `ShaderLang.Arena.definedCalls` — what the functions of a name call, from their nodes;
* `ShaderLang.CompilationUnit.CallsExact` — the calls that were noted are the calls among the nodes.

Main results:

* `ShaderLang.Builder.Steps.callees_eq` — what small steps note;
* `ShaderLang.Builder.Noted.turn` — a turn without a report of a token keeps both in agreement;
* `ShaderLang.CompilationUnit.ofTokens_callees` — **the calls that were noted are exactly the calls
  in the bodies of functions**.
-/

import Mathlib.Data.List.Intervals
import ShaderLang.Proofs.CallGraph.Regrouping
import ShaderLang.Proofs.CompilationUnit.Bodies
import ShaderLang.Proofs.CompilationUnit.WellFormed

set_option relaxedAutoImplicit false
set_option autoImplicit false

namespace ShaderLang

/-! ### Calls among the nodes -/

namespace Arena

/-- The name that is called, if the node is a call of a name. -/
def called (a : Arena) (names : Names) (id : NodeId) : Option String :=
  match a.node? id with
  | some (.call callee _) => (a.node? callee).bind (Node.spelled names)
  | _ => none

/-- The names that are called from one place on and before another one. -/
def callsBetween (a : Arena) (names : Names) (first last : Nat) : List String :=
  (List.Ico first last).filterMap fun i => a.called names ⟨i⟩

/-- The head of a function, if the node is a function of the name. -/
def headNamed (a : Arena) (names : Names) (f : String) (id : NodeId) : Option NodeId :=
  match a.node? id with
  | some (.definition head _) =>
      match a.node? head with
      | some (.prototype _ name _ _) => if names.text? name = some f then some head else none
      | _ => none
  | _ => none

/-- The names that a function calls between its head and itself; none for any other node. -/
def bodyCalls (a : Arena) (names : Names) (f : String) (id : NodeId) : List String :=
  match a.headNamed names f id with
  | some head => a.callsBetween names (head.index + 1) id.index
  | none => []

/-- The names that the functions of a name call, function by function. -/
def definedCalls (a : Arena) (names : Names) (f : String) : List String :=
  (List.Ico 0 a.size).flatMap fun i => a.bodyCalls names f ⟨i⟩

variable {a a' : Arena} {names names' : Names}

@[simp] theorem callsBetween_self (first : Nat) : a.callsBetween names first first = [] := by
  simp [callsBetween]

theorem callsBetween_append {i j k : Nat} (hij : i ≤ j) (hjk : j ≤ k) :
    a.callsBetween names i j ++ a.callsBetween names j k = a.callsBetween names i k := by
  rw [callsBetween, callsBetween, callsBetween, ← List.filterMap_append,
    List.Ico.append_consecutive hij hjk]

theorem callsBetween_succ (i : Nat) :
    a.callsBetween names i (i + 1) = (a.called names ⟨i⟩).toList := by
  rw [callsBetween, List.Ico.succ_singleton, List.filterMap_cons]
  cases a.called names ⟨i⟩ <;> rfl

theorem callsBetween_congr {i j : Nat}
    (h : ∀ id : NodeId, id.index < j → a'.called names' id = a.called names id) :
    a'.callsBetween names' i j = a.callsBetween names i j := by
  refine List.filterMap_congr fun k hk => ?_
  exact h ⟨k⟩ (List.Ico.mem.1 hk).2

end Arena

namespace Builder

variable {b b' : Builder}

/-! ### Old calls stay as they are -/

theorem spelled_of_grows {n : Node} (hn : b.Knows n) (hg : b.Grows b') :
    n.spelled b'.names = n.spelled b.names := by
  cases n with
  | name x =>
      obtain ⟨text, htext⟩ := Option.isSome_iff_exists.1 (hn x (List.mem_cons_self ..))
      rw [Node.spelled, Node.spelled, htext, hg.names x text htext]
  | _ => rfl

theorem called_of_grows (hb : b.Resolved) (hg : b.Grows b') {id : NodeId}
    (hid : id.index < b.arena.size) :
    b'.arena.called b'.names id = b.arena.called b.names id := by
  obtain ⟨n, hn⟩ := Arena.exists_node?_of_lt hid
  unfold Arena.called
  rw [hn, hg.nodes id n hn]
  cases n with
  | call callee arguments =>
      obtain ⟨m, hm⟩ := hb.callee id callee arguments hn
      dsimp only
      rw [hm, hg.nodes callee m hm]
      exact spelled_of_grows (hb.known callee m hm) hg
  | _ => rfl

theorem callsBetween_of_grows (hb : b.Resolved) (hg : b.Grows b') {i j : Nat}
    (hj : j ≤ b.arena.size) :
    b'.arena.callsBetween b'.names i j = b.arena.callsBetween b.names i j :=
  Arena.callsBetween_congr fun _ hid => called_of_grows hb hg (Nat.lt_of_lt_of_le hid hj)

theorem headNamed_of_grows (hb : b.Resolved) (hg : b.Grows b') (f : String) {id : NodeId}
    (hid : id.index < b.arena.size) :
    b'.arena.headNamed b'.names f id = b.arena.headNamed b.names f id := by
  obtain ⟨n, hn⟩ := Arena.exists_node?_of_lt hid
  unfold Arena.headNamed
  rw [hn, hg.nodes id n hn]
  cases n with
  | definition head body =>
      obtain ⟨m, hm⟩ := hb.head id head body hn
      dsimp only
      rw [hm, hg.nodes head m hm]
      cases m with
      | prototype result name parameters tie =>
          have hname := hb.known head _ hm name (List.mem_cons_self ..)
          obtain ⟨text, htext⟩ := Option.isSome_iff_exists.1 hname
          dsimp only
          rw [htext, hg.names name text htext]
      | _ => rfl
  | _ => rfl

theorem bodyCalls_of_grows (hb : b.Resolved) (hg : b.Grows b') (f : String) {id : NodeId}
    (hid : id.index < b.arena.size) :
    b'.arena.bodyCalls b'.names f id = b.arena.bodyCalls b.names f id := by
  unfold Arena.bodyCalls
  rw [headNamed_of_grows hb hg f hid]
  cases b.arena.headNamed b.names f id with
  | none => rfl
  | some head => exact callsBetween_of_grows hb hg (Nat.le_of_lt hid)

/-- What functions call: what it was before, and then what the new functions call. -/
theorem definedCalls_of_grows (hb : b.Resolved) (hg : b.Grows b') (f : String) :
    b'.arena.definedCalls b'.names f = b.arena.definedCalls b.names f ++
      (List.Ico b.arena.size b'.arena.size).flatMap fun i => b'.arena.bodyCalls b'.names f ⟨i⟩ := by
  have hold : (List.Ico 0 b.arena.size).flatMap (fun i => b'.arena.bodyCalls b'.names f ⟨i⟩) =
      b.arena.definedCalls b.names f := by
    refine List.flatMap_congr fun i hi => ?_
    exact bodyCalls_of_grows hb hg f (List.Ico.mem.1 hi).2
  rw [Arena.definedCalls, ← List.Ico.append_consecutive (Nat.zero_le _) hg.nodes.size_le,
    List.flatMap_append, hold]

/-- A node that is no function has no body. -/
theorem bodyCalls_eq_nil {a : Arena} {names : Names} {id : NodeId} (f : String)
    (h : ∀ head body, a.node? id ≠ some (.definition head body)) : a.bodyCalls names f id = [] := by
  unfold Arena.bodyCalls Arena.headNamed
  cases hn : a.node? id with
  | none => rfl
  | some n =>
      cases n with
      | definition head body => exact absurd hn (h head body)
      | _ => rfl

/-- Where no function is new, functions call what they called before. -/
theorem definedCalls_eq (hb : b.Resolved) (hg : b.Grows b') (h : AddsNo Node.isFunction b b')
    (f : String) :
    b'.arena.definedCalls b'.names f = b.arena.definedCalls b.names f := by
  have hnew : (List.Ico b.arena.size b'.arena.size).flatMap
      (fun i => b'.arena.bodyCalls b'.names f ⟨i⟩) = [] := by
    refine List.flatMap_eq_nil_iff.2 fun i hi => bodyCalls_eq_nil f fun head body hdef => ?_
    have hlt := Arena.lt_size_of_node? (h ⟨i⟩ _ rfl hdef)
    exact absurd hlt (Nat.not_lt.2 (List.Ico.mem.1 hi).1)
  rw [definedCalls_of_grows hb hg f, hnew, List.append_nil]

/-! ### What is noted -/

theorem callees_noted (b : Builder) (n : Node) (f : String) :
    (b.noted n).calls.callees f =
      b.calls.callees f ++ if b.current = some f then (n.spelled b.names).toList else [] := by
  unfold noted
  cases b.current with
  | none => simp
  | some caller =>
      cases n.spelled b.names with
      | none => simp
      | some text =>
          dsimp only
          rw [CallGraph.callees_record]
          simp [eq_comm]

/-- A small step notes the call that it builds for the function that is being built. -/
theorem Step.callees_eq (h : Step b b') (f : String) :
    b'.calls.callees f = b.calls.callees f ++
      if b.current = some f then b'.arena.callsBetween b'.names b.arena.size b'.arena.size
      else [] := by
  cases h with
  | @node n plain known =>
      have hsize : (b.push n).arena.size = b.arena.size + 1 := Arena.size_add ..
      have hnode : (b.push n).arena.node? ⟨b.arena.size⟩ = some n := Arena.node?_add_self ..
      have hcalled : (b.push n).arena.called (b.push n).names ⟨b.arena.size⟩ = none := by
        unfold Arena.called
        rw [hnode]
        cases n <;> first | rfl | exact (Bool.false_ne_true plain).elim
      rw [hsize, Arena.callsBetween_succ, hcalled]
      show b.calls.callees f = _
      simp
  | @call callee n arguments here =>
      have hsize : ((b.noted n).push (.call callee arguments)).arena.size = b.arena.size + 1 := by
        rw [← arena_noted b n]
        exact Arena.size_add ..
      have hnode : ((b.noted n).push (.call callee arguments)).arena.node? ⟨b.arena.size⟩ =
          some (.call callee arguments) := by
        rw [← arena_noted b n]
        exact Arena.node?_add_self ..
      have hcallee : ((b.noted n).push (.call callee arguments)).arena.node? callee = some n :=
        (grows_push _ _).nodes callee n (by rwa [arena_noted])
      have hcalled : ((b.noted n).push (.call callee arguments)).arena.called
          ((b.noted n).push (.call callee arguments)).names ⟨b.arena.size⟩ = n.spelled b.names := by
        unfold Arena.called
        rw [hnode]
        dsimp only
        rw [hcallee]
        show n.spelled (b.noted n).names = _
        rw [names_noted]
      rw [hsize, Arena.callsBetween_succ, hcalled]
      exact callees_noted b n f
  | _ => simp

/-- **What small steps note** are the calls that they build. -/
theorem Steps.callees_eq (h : Steps b b') (hb : b.Resolved) (f : String) :
    b'.calls.callees f = b.calls.callees f ++
      if b.current = some f then b'.arena.callsBetween b'.names b.arena.size b'.arena.size
      else [] := by
  induction h with
  | refl => simp
  | @tail c c' hsteps hstep ih =>
      have hc : c.Resolved := hb.steps hsteps
      rw [hstep.callees_eq f, ih, Steps.current_eq hsteps, List.append_assoc]
      by_cases hf : b.current = some f
      · -- the calls among the older nodes are read in the newer arena as well
        have hold : c'.arena.callsBetween c'.names b.arena.size c.arena.size =
            c.arena.callsBetween c.names b.arena.size c.arena.size :=
          callsBetween_of_grows hc hstep.steps.grows (Nat.le_refl _)
        rw [if_pos hf, if_pos hf, if_pos hf, ← hold,
          Arena.callsBetween_append (Steps.grows hsteps).nodes.size_le hstep.steps.grows.nodes.size_le]
      · rw [if_neg hf, if_neg hf, if_neg hf, List.append_nil]

theorem matched_noted {n : Node} (h : b.calls.Matched) : (b.noted n).calls.Matched := by
  unfold noted
  split
  · exact h.record _ _
  · exact h

theorem Steps.matched (h : Steps b b') (hb : b.calls.Matched) : b'.calls.Matched := by
  induction h with
  | refl => exact hb
  | tail _ hstep ih =>
      cases hstep with
      | call => exact matched_noted ih
      | _ => exact ih

/-! ### At rest -/

/-- At rest: no function is being built, the callers are kept once each, and what was noted for a name is
what its functions call. -/
structure Noted (b : Builder) : Prop where
  current : b.current = none
  matched : b.calls.Matched
  callees : ∀ f, b.calls.callees f = b.arena.definedCalls b.names f

/-- The head of a function notes nothing. -/
theorem calls_headed (b : Builder) (result : DataType) (text : String)
    (parameters tie : Option NodeId) : (b.headed result text parameters tie).calls = b.calls := rfl

/-- What a new function calls. -/
theorem bodyCalls_defined {b₁ : Builder} {result : DataType} {text : String}
    {parameters tie : Option NodeId} (hb : b₁.Resolved)
    (inner : Steps (b.headed result text parameters tie) b₁) (body : NodeId) (f : String) :
    (b₁.defined b.arena.nextId body).arena.bodyCalls (b₁.defined b.arena.nextId body).names f
        ⟨b₁.arena.size⟩ =
      if some text = some f then b₁.arena.callsBetween b₁.names (b.arena.size + 1) b₁.arena.size
      else [] := by
  have hgrows : b₁.Grows (b₁.defined b.arena.nextId body) := grows_defined ..
  have hnode : (b₁.defined b.arena.nextId body).arena.node? ⟨b₁.arena.size⟩ =
      some (.definition b.arena.nextId body) := Arena.node?_add_self ..
  have hhead : (b₁.defined b.arena.nextId body).arena.node? b.arena.nextId =
      some (.prototype result (b.names.occur text).1 parameters tie) :=
    (inner.grows.trans hgrows).nodes _ _ (Resolved.node?_headed ..)
  have hname : (b₁.defined b.arena.nextId body).names.text? (b.names.occur text).1 = some text :=
    (inner.grows.trans hgrows).names _ _ (b.names.text?_occur text)
  unfold Arena.bodyCalls Arena.headNamed
  rw [hnode]
  dsimp only
  rw [hhead]
  dsimp only
  rw [hname]
  by_cases hf : some text = some f
  · rw [if_pos hf, if_pos hf]
    exact callsBetween_of_grows hb hgrows (Nat.le_refl _)
  · rw [if_neg hf, if_neg hf]

namespace Noted

/-- Where no call is noted and no function is new, both stay in agreement. -/
theorem of_same (h : b.Noted) (hb : b.Resolved) (hg : b.Grows b') (hnew : AddsNo Node.isFunction b b')
    (hcalls : b'.calls = b.calls) (hcurrent : b'.current = none) : b'.Noted where
  current := hcurrent
  matched := hcalls ▸ h.matched
  callees := by
    intro f
    rw [hcalls, h.callees f, definedCalls_eq hb hg hnew f]

theorem steps (h : b.Noted) (hb : b.Resolved) (hsteps : Steps b b') : b'.Noted where
  current := hsteps.current_eq.trans h.current
  matched := hsteps.matched h.matched
  callees := by
    intro f
    rw [hsteps.callees_eq hb f, h.current, if_neg nofun, List.append_nil, h.callees f,
      definedCalls_eq hb hsteps.grows hsteps.addsNo_function f]

/-- The calls that were noted in a body are those that the new function calls. -/
theorem function (h : b.Noted) (hb : b.Resolved) {b₁ : Builder} {result : DataType} {text : String}
    {parameters tie : Option NodeId} (inner : Steps (b.headed result text parameters tie) b₁)
    (body : NodeId) : (b₁.defined b.arena.nextId body).Noted where
  current := rfl
  matched := inner.matched h.matched
  callees := by
    intro f
    have hheaded := hb.headed result text parameters tie
    have hb₁ : b₁.Resolved := hheaded.steps inner
    have hsize : (b₁.defined b.arena.nextId body).arena.size = b₁.arena.size + 1 :=
      Arena.size_add ..
    have hold : b₁.arena.definedCalls b₁.names f = b.arena.definedCalls b.names f :=
      definedCalls_eq hb ((grows_headed ..).trans inner.grows)
        ((addsNo_headed b rfl).trans inner.addsNo_function) f
    have hnoted : b₁.calls.callees f = b.calls.callees f ++
        if some text = some f then b₁.arena.callsBetween b₁.names (b.arena.size + 1) b₁.arena.size
        else [] := by
      have heq := inner.callees_eq hheaded f
      rwa [size_headed, calls_headed] at heq
    rw [definedCalls_of_grows hb₁ (grows_defined ..) f, hsize, List.Ico.succ_singleton,
      List.flatMap_singleton, bodyCalls_defined hb₁ inner body f, hold, ← h.callees f]
    exact hnoted

/-- **A turn without a report of a token keeps in agreement** what was noted and what is built. -/
theorem turn (h : b.Noted) (hb : b.Resolved) (hturn : Turn b b') (herrors : b'.errors = b.errors) :
    b'.Noted := by
  cases hturn with
  | step inner => exact h.steps hb inner.steps
  | link => exact h.of_same hb (grows_push b _) (addsNo_push b rfl) rfl h.current
  | head result text parameters tie p =>
      have hgrows := Turn.grows (.head (b := b) result text parameters tie p)
      exact h.of_same hb hgrows (addsNo_headed b rfl) rfl rfl
  | function inner body => exact h.function hb inner body
  | @struct b₁ name members collected inner collects =>
      have hopened : (b.opened name).Noted :=
        h.of_same hb (grows_opened b name) (.refl b) rfl h.current
      have hresolved : (b.opened name).Resolved := hb.opening (.struct name)
      have hb₁ : b₁.Noted := hopened.steps hresolved inner
      exact hb₁.of_same (hresolved.steps inner) (grows_closed ..) (addsNo_closed b₁ fun _ => rfl) rfl
        hb₁.current
  | @rejected b₁ b₂ p opening inner unexpected place =>
      -- the only turn that reports a token
      have hle := (opening.grows.trans inner.grows).errors
      rw [errors_rejected b₂ unexpected place] at herrors
      omega

/-- The induction is on the turns: behind none of them is there a report more. -/
theorem turns (h : b.Noted) (hb : b.Resolved) (hturns : Turns b b')
    (herrors : b'.errors = b.errors) : b'.Noted := by
  induction hturns with
  | refl => exact h
  | @tail c c' hturns hturn ih =>
      have hle := (Turns.grows hturns).errors
      have hle' := hturn.grows.errors
      have hc : c.Noted := ih (by omega)
      exact hc.turn (hb.turns hturns) hturn (by omega)

/-- Nothing is noted where nothing is built. -/
theorem of_empty (harena : b.arena = .empty) (hcalls : b.calls = .empty)
    (hcurrent : b.current = none) : b.Noted where
  current := hcurrent
  matched := by
    rw [hcalls]
    exact CallGraph.matched_empty
  callees := by
    intro f
    rw [hcalls, harena]
    rfl

end Noted

end Builder

namespace CompilationUnit

open Grammar

/-- No token was reported as not allowed. -/
def Clean (u : CompilationUnit) : Prop :=
  ∀ d ∈ u.diagnostics.reports, d.problem.isUnexpected = false

/-- Where nothing was reported no token was. -/
theorem clean_of_size {u : CompilationUnit} (h : u.diagnostics.reports.size = 0) : u.Clean := by
  rw [Clean, Array.eq_empty_of_size_eq_zero h]
  exact fun d hd => absurd hd (Array.not_mem_empty d)

/-- The calls that were noted are the calls in the bodies of functions. -/
structure CallsExact (u : CompilationUnit) : Prop where
  /-- The calls of a name are those of its functions, function by function. -/
  callees : ∀ f, u.calls.callees f = u.arena.definedCalls u.names f
  /-- No other pairs were noted. -/
  pairs : ∀ f, (u.calls.pairs.filter fun p => p.1 == f).map Prod.snd =
    u.arena.definedCalls u.names f
  /-- Every function has a head with a name, and nothing between it and its head bounds a part of the
  program. -/
  functions : ∀ id head body, u.arena.node? id = some (.definition head body) →
    head.index < id.index ∧
      (∃ result name parameters tie text,
        u.arena.node? head = some (.prototype result name parameters tie) ∧
          u.names.text? name = some text) ∧
      ∀ i n, head.index < i → i < id.index → u.arena.node? ⟨i⟩ = some n → n.isBoundary = false
  /-- What is below a head, or below a part of the program that is no function, lies in no body. -/
  outside : ∀ i c, u.arena.IsOutside i → Relation.ReflTransGen u.arena.Refers i c →
    ¬ u.arena.InBody c
  /-- Every name has a text. -/
  identifiers : ∀ id n, u.arena.node? id = some (.name n) → (u.names.text? n).isSome

/-- **The calls that were noted are exactly the calls in the bodies of functions**, whatever the
tokens are, as long as none of them was reported as not allowed. -/
theorem ofTokens_callees (tokens : TokenStream) (o : Options) :
    ∃ u, ofTokens tokens o = .ok u ∧ (u.Clean → u.CallsExact) := by
  obtain ⟨root, t, hp, -, -, hholds⟩ := program_ends (s := .start tokens o) rfl
  have hturns := turns_program hp
  have hsealed : t.builder.arena.Sealed := sealed_program rfl hp
  have hstart : (ParseState.start tokens o).builder.Resolved := .of_empty rfl
  have hresolved : t.builder.Resolved := hstart.turns hturns
  have hbodies : t.builder.Bodies := (Builder.Bodies.of_empty rfl).turns hturns
  refine ⟨t.builder.finish root, by unfold ofTokens; rw [hp], ?_⟩
  intro hclean
  have herrors : t.builder.errors = (ParseState.start tokens o).builder.errors := by
    refine Array.countP_eq_zero.2 fun d hd => ?_
    rw [hclean d hd]
    exact Bool.false_ne_true
  have hnoted : t.builder.Noted :=
    (Builder.Noted.of_empty rfl rfl rfl).turns hstart hturns herrors
  constructor
  case callees => exact hnoted.callees
  case pairs =>
    intro f
    exact (hnoted.matched.filter_pairs f).trans (hnoted.callees f)
  case functions =>
    intro id head body hdef
    obtain ⟨hbefore, ⟨result, name, parameters, tie, hhead⟩, hinner⟩ := hbodies id head body hdef
    have hname := hresolved.known head _ hhead name (List.mem_cons_self ..)
    obtain ⟨text, htext⟩ := Option.isSome_iff_exists.1 hname
    exact ⟨hbefore, ⟨result, name, parameters, tie, text, hhead, htext⟩, hinner⟩
  case outside =>
    intro i c hi hc
    exact hbodies.not_inBody hholds.forest hsealed hi hc
  case identifiers =>
    intro id n hn
    exact hresolved.known id _ hn n (List.mem_cons_self ..)

/-- A variable whose first value is a call, and a function that calls the same name. -/
def callers : TokenStream where
  tokens :=
    [⟨.typeName, "int", ⟨1, 0⟩⟩, ⟨.name, "k", ⟨1, 0⟩⟩, ⟨.mark .assignment, "=", ⟨1, 0⟩⟩,
      ⟨.name, "g", ⟨1, 0⟩⟩, ⟨.mark .openParen, "(", ⟨1, 0⟩⟩, ⟨.mark .closeParen, ")", ⟨1, 0⟩⟩,
      ⟨.mark .semicolon, ";", ⟨1, 0⟩⟩, ⟨.typeName, "int", ⟨1, 0⟩⟩, ⟨.name, "f", ⟨1, 0⟩⟩,
      ⟨.mark .openParen, "(", ⟨1, 0⟩⟩, ⟨.mark .closeParen, ")", ⟨1, 0⟩⟩,
      ⟨.mark .openCurly, "\x7b", ⟨1, 0⟩⟩, ⟨.name, "g", ⟨1, 0⟩⟩, ⟨.mark .openParen, "(", ⟨1, 0⟩⟩,
      ⟨.mark .closeParen, ")", ⟨1, 0⟩⟩, ⟨.mark .semicolon, ";", ⟨1, 0⟩⟩,
      ⟨.mark .closeCurly, "\x7d", ⟨1, 0⟩⟩]
  stop := ⟨1, 0⟩

/-- Only the call in the body of the function was noted. -/
theorem ofTokens_callees_callers :
    ∃ u, ofTokens callers .standard = .ok u ∧ u.Clean ∧ u.CallsExact ∧
      u.calls.pairs = [("f", "g")] := by
  obtain ⟨u, hu, hexact⟩ := ofTokens_callees callers .standard
  have hrun : (match ofTokens callers .standard with
      | .ok v => (v.diagnostics.reports.size, v.calls.pairs)
      | .error _ => (1, [])) = (0, [("f", "g")]) := by
    decide +kernel
  rw [hu] at hrun
  obtain ⟨hreports, hpairs⟩ := Prod.mk.inj hrun
  have hclean : u.Clean := clean_of_size hreports
  exact ⟨u, hu, hclean, hexact hclean, hpairs⟩

end CompilationUnit

end ShaderLang
