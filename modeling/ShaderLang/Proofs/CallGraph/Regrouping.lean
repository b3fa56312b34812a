/-
**The call graph loses and invents no call.**

Calls are noted one by one, those of different functions in any order.  What a function calls is found by
its name in a table, and the functions stand in a list of their own.  A function that only one of the two
knows, or that stands in the list twice, would lose calls or show them twice; so the proof is about the two
of them.  Every call leaves them with the same functions, each kept once
(`ShaderLang.CallGraph.Matched.record`), and then the list grows only by a function that calls for the
first time (`ShaderLang.CallGraph.Matched.callers_record`).

Main definitions:

* `ShaderLang.CallGraph.Matched` — the table and the list keep the same callers, each once;
* `ShaderLang.CallGraph.recorded` — the graph of some calls;
* `ShaderLang.CallGraph.regrouped` — the calls caller by caller;
* `ShaderLang.CallGraph.Regroups` — what the graph of some calls answers.

Main results:

* `ShaderLang.CallGraph.Matched.record` — one more call leaves the table and the list matched;
* `ShaderLang.CallGraph.Matched.pairs_record_perm` — one more call adds its pair and nothing else;
* `ShaderLang.CallGraph.regroups_recorded` — **the graph of some calls is these calls, stably regrouped
  by caller**.
-/

import Mathlib.Data.List.Induction
import Mathlib.Data.List.Nodup
import ShaderLang.CallGraph

set_option relaxedAutoImplicit false
set_option autoImplicit false

namespace ShaderLang

/-- An item at the end counts if it is new. -/
theorem eraseDups_concat {α : Type} [BEq α] [LawfulBEq α] (xs : List α) (x : α) [Decidable (x ∈ xs)] :
    (xs ++ [x]).eraseDups = xs.eraseDups ++ if x ∈ xs then [] else [x] := by
  rw [List.eraseDups_append]
  congr 1
  by_cases hx : x ∈ xs
  · simp [List.removeAll, hx]
  · simp [List.removeAll, hx, List.eraseDups_cons]

namespace CallGraph

variable {g : CallGraph} {caller callee f : String} {es : List (String × List String)}
  {log : List (String × String)}

/-! ### The table and the list of callers -/

/-- The table and the list keep the same callers, each once. -/
structure Matched (g : CallGraph) : Prop where
  distinct : g.callers.Nodup
  keys : (g.table.map Prod.fst).Perm g.callers

theorem matched_empty : empty.Matched := ⟨List.nodup_nil, .refl _⟩

/-- A table knows the functions that stand in it. -/
theorem lookup_eq_none_iff : es.lookup f = none ↔ f ∉ es.map Prod.fst := by
  induction es with
  | nil => simp
  | cons e es ih =>
      obtain ⟨name, callees⟩ := e
      rw [lookup_cons_eq, List.map_cons, List.mem_cons, not_or, ← ih]
      by_cases hf : f = name <;> simp [hf]

theorem Matched.lookup_eq_none_iff (h : g.Matched) : g.table.lookup f = none ↔ f ∉ g.callers := by
  rw [CallGraph.lookup_eq_none_iff, h.keys.mem_iff]

/-- A function that is no caller calls nothing. -/
theorem Matched.callees_eq_nil (h : g.Matched) (hf : f ∉ g.callers) : g.callees f = [] := by
  rw [callees, h.lookup_eq_none_iff.2 hf]
  rfl

theorem map_fst_extend (caller callee : String) (es : List (String × List String)) :
    (extend caller callee es).map Prod.fst = es.map Prod.fst := by
  induction es with
  | nil => rfl
  | cons e es ih =>
      obtain ⟨name, callees⟩ := e
      rw [extend]
      split
      · rfl
      · rw [List.map_cons, ih, List.map_cons]

/-- **A call adds its caller if it is the first one.** -/
theorem Matched.callers_record (h : g.Matched) (caller callee : String) :
    (g.record caller callee).callers = g.callers ++ if caller ∈ g.callers then [] else [caller] := by
  unfold CallGraph.record
  split
  · next hlookup =>
      have hknown : caller ∈ g.callers := by
        by_contra hnew
        rw [h.lookup_eq_none_iff.2 hnew] at hlookup
        contradiction
      rw [if_pos hknown, List.append_nil]
  · next hlookup => rw [if_neg (h.lookup_eq_none_iff.1 hlookup)]

/-- **One more call leaves the table and the list matched.** -/
theorem Matched.record (h : g.Matched) (caller callee : String) : (g.record caller callee).Matched := by
  unfold CallGraph.record
  split
  · exact ⟨h.distinct, by rw [map_fst_extend]; exact h.keys⟩
  · next hlookup =>
      have hnew := h.lookup_eq_none_iff.1 hlookup
      constructor
      case distinct =>
        exact h.distinct.append (List.nodup_singleton _) (List.disjoint_singleton.2 hnew)
      case keys =>
        -- the table gets the caller in front, and the list at its end
        exact (h.keys.cons caller).trans (List.perm_append_singleton ..).symm

/-! ### The pairs of a caller -/

/-- Among callers that are kept once, the pairs of one are what it calls. -/
theorem filter_flatMap_eq (k : String → List String) {fs : List String} (h : fs.Nodup) :
    ((fs.flatMap fun c => (k c).map fun callee => (c, callee)).filter fun p => p.1 == f).map Prod.snd =
      if f ∈ fs then k f else [] := by
  have hblock (c : String) : (((k c).map fun callee => (c, callee)).filter fun p => p.1 == f) =
      if c = f then (k c).map fun callee => (c, callee) else [] := by
    rw [List.filter_map]
    by_cases hc : c = f <;> simp [Function.comp_def, hc]
  induction fs with
  | nil => rfl
  | cons c fs ih =>
      obtain ⟨hfresh, hrest⟩ := List.nodup_cons.1 h
      rw [List.flatMap_cons, List.filter_append, List.map_append, hblock, ih hrest]
      by_cases hc : c = f
      · subst hc
        simp [hfresh, Function.comp_def]
      · simp [hc, Ne.symm hc]

/-- The pairs of a caller are its calls. -/
theorem Matched.filter_pairs (h : g.Matched) (f : String) :
    (g.pairs.filter fun p => p.1 == f).map Prod.snd = g.callees f := by
  rw [pairs, filter_flatMap_eq g.callees h.distinct]
  split
  · rfl
  · next hf => exact (h.callees_eq_nil hf).symm

/-! ### One call -/

/-- **One more call adds its pair and nothing else**, wherever the pair goes. -/
theorem Matched.pairs_record_perm (h : g.Matched) (caller callee : String) :
    (g.record caller callee).pairs.Perm (g.pairs ++ [(caller, callee)]) := by
  have hothers {fs : List String} (hfs : caller ∉ fs) :
      (fs.flatMap fun f => ((g.record caller callee).callees f).map fun c => (f, c)) =
        fs.flatMap fun f => (g.callees f).map fun c => (f, c) := by
    refine List.flatMap_congr fun f hf => ?_
    have hne : f ≠ caller := fun heq => hfs (heq ▸ hf)
    rw [callees_record, if_neg hne, List.append_nil]
  unfold pairs
  rw [h.callers_record]
  by_cases hknown : caller ∈ g.callers
  · -- the caller stands in one place, and what it calls grows there
    obtain ⟨front, rest, hcallers⟩ := List.append_of_mem hknown
    obtain ⟨-, hrest, hfront⟩ := List.nodup_append.1 (hcallers ▸ h.distinct)
    have hrest : caller ∉ rest := (List.nodup_cons.1 hrest).1
    have hfront : caller ∉ front := fun hmem => hfront _ hmem _ List.mem_cons_self rfl
    rw [if_pos hknown, List.append_nil, hcallers, List.flatMap_append, List.flatMap_append,
      List.flatMap_cons, List.flatMap_cons, hothers hfront, hothers hrest, callees_record, if_pos rfl,
      List.map_append, List.append_assoc, List.append_assoc, List.append_assoc]
    exact (List.perm_append_comm.append_left _).append_left _
  · rw [if_neg hknown, List.flatMap_append, hothers hknown, List.flatMap_singleton, callees_record,
      if_pos rfl, h.callees_eq_nil hknown]
    exact .refl _

/-- One more call of a caller in the table counts once. -/
theorem foldr_extend (callee : String) (h : es.lookup caller ≠ none) :
    (extend caller callee es).foldr (fun e n => e.2.length + n) 0 =
      es.foldr (fun e n => e.2.length + n) 0 + 1 := by
  induction es with
  | nil => exact absurd rfl h
  | cons e es ih =>
      obtain ⟨name, callees⟩ := e
      rw [extend]
      by_cases hname : name = caller
      · rw [if_pos hname, List.foldr_cons, List.foldr_cons, List.length_append, List.length_singleton]
        exact Nat.add_right_comm ..
      · rw [lookup_cons_eq, if_neg (Ne.symm hname)] at h
        rw [if_neg hname, List.foldr_cons, ih h, List.foldr_cons, Nat.add_assoc]

theorem size_record (g : CallGraph) (caller callee : String) :
    (g.record caller callee).size = g.size + 1 := by
  unfold record size
  split
  · next hlookup => exact foldr_extend callee (by rw [hlookup]; exact Option.some_ne_none _)
  · rw [List.foldr_cons, List.length_singleton, Nat.add_comm]

theorem Matched.isEmpty_iff (h : g.Matched) : g.isEmpty = true ↔ g.callers = [] := by
  rw [isEmpty, List.isEmpty_iff, ← List.map_eq_nil_iff]
  constructor
  · intro hkeys
    exact List.perm_nil.1 (hkeys ▸ h.keys).symm
  · intro hcallers
    exact List.perm_nil.1 (hcallers ▸ h.keys)

/-! ### All calls -/

/-- The graph of some calls, each a caller and what it calls. -/
def recorded (log : List (String × String)) : CallGraph :=
  log.foldl (fun g c => g.record c.1 c.2) empty

/-- The calls of one function. -/
def callsFrom (log : List (String × String)) (f : String) : List (String × String) :=
  log.filter fun c => c.1 == f

/-- The calls caller by caller: callers in the order of their first call, and the calls of each in the
order in which they came. -/
def regrouped (log : List (String × String)) : List (String × String) :=
  (log.map Prod.fst).eraseDups.flatMap (callsFrom log)

/-- What the graph of some calls answers. -/
structure Regroups (log : List (String × String)) : Prop where
  pairs : (recorded log).pairs = regrouped log
  complete : (recorded log).pairs.Perm log
  callees (f : String) : (recorded log).callees f = (callsFrom log f).map Prod.snd
  callersOf (f : String) : (recorded log).callersOf f =
    ((regrouped log).filter fun c => c.2 == f).map Prod.fst
  callersOf_perm (f : String) : ((recorded log).callersOf f).Perm
    ((log.filter fun c => c.2 == f).map Prod.fst)
  calls (f f' : String) : (recorded log).calls f f' = true ↔ (f, f') ∈ log
  size : (recorded log).size = log.length
  isEmpty : (recorded log).isEmpty = true ↔ (recorded log).size = 0

theorem recorded_append (log : List (String × String)) (c : String × String) :
    recorded (log ++ [c]) = (recorded log).record c.1 c.2 := by
  rw [recorded, List.foldl_append]
  rfl

theorem matched_recorded (log : List (String × String)) : (recorded log).Matched := by
  induction log using List.reverseRecOn with
  | nil => exact matched_empty
  | append_singleton log c ih =>
      rw [recorded_append]
      exact ih.record c.1 c.2

/-- **Callers are kept in the order of their first call.** -/
theorem callers_recorded (log : List (String × String)) :
    (recorded log).callers = (log.map Prod.fst).eraseDups := by
  induction log using List.reverseRecOn with
  | nil => rfl
  | append_singleton log c ih =>
      rw [recorded_append, (matched_recorded log).callers_record, ih, if_congr List.mem_eraseDups rfl rfl,
        List.map_append]
      exact (eraseDups_concat _ c.1).symm

/-- The calls of a function are those that were recorded for it, in order. -/
theorem callees_recorded (log : List (String × String)) (f : String) :
    (recorded log).callees f = (callsFrom log f).map Prod.snd := by
  induction log using List.reverseRecOn with
  | nil => rfl
  | append_singleton log c ih =>
      rw [recorded_append, callees_record, ih, callsFrom, callsFrom, List.filter_append, List.map_append]
      congr 1
      by_cases hf : f = c.1
      · simp [hf]
      · simp [hf, Ne.symm hf]

/-- **No call is lost, and none is invented.** -/
theorem pairs_recorded_perm (log : List (String × String)) : (recorded log).pairs.Perm log := by
  induction log using List.reverseRecOn with
  | nil => exact .refl _
  | append_singleton log c ih =>
      rw [recorded_append]
      exact ((matched_recorded log).pairs_record_perm c.1 c.2).trans (ih.append_right [c])

theorem size_recorded (log : List (String × String)) : (recorded log).size = log.length := by
  induction log using List.reverseRecOn with
  | nil => rfl
  | append_singleton log c ih =>
      rw [recorded_append, size_record, ih, List.length_append, List.length_singleton]

theorem map_snd_callsFrom (log : List (String × String)) (f : String) :
    ((callsFrom log f).map Prod.snd).map (fun callee => (f, callee)) = callsFrom log f := by
  rw [List.map_map]
  refine (List.map_congr_left fun c hc => ?_).trans (List.map_id _)
  obtain rfl := beq_iff_eq.1 (List.mem_filter.1 hc).2
  rfl

/-- **The pairs are the calls, caller by caller.** -/
theorem pairs_recorded (log : List (String × String)) : (recorded log).pairs = regrouped log := by
  rw [CallGraph.pairs, callers_recorded, regrouped]
  refine List.flatMap_congr fun f _ => ?_
  rw [callees_recorded, map_snd_callsFrom]

theorem calls_recorded_iff {f f' : String} : (recorded log).calls f f' = true ↔ (f, f') ∈ log := by
  rw [calls, callees_recorded, List.contains_iff_mem, List.mem_map]
  constructor
  · rintro ⟨c, hc, rfl⟩
    obtain ⟨hmem, hf⟩ := List.mem_filter.1 hc
    obtain rfl := beq_iff_eq.1 hf
    exact hmem
  · intro h
    exact ⟨_, List.mem_filter.2 ⟨h, beq_self_eq_true _⟩, rfl⟩

/-- **The graph of some calls is these calls, stably regrouped by caller.** -/
theorem regroups_recorded (log : List (String × String)) : Regroups log := by
  constructor
  case pairs => exact pairs_recorded log
  case complete => exact pairs_recorded_perm log
  case callees => exact callees_recorded log
  case callersOf =>
    intro f
    rw [callersOf, pairs_recorded]
  case callersOf_perm => exact fun f => ((pairs_recorded_perm log).filter _).map Prod.fst
  case calls => exact fun f f' => calls_recorded_iff
  case size => exact size_recorded log
  case isEmpty =>
    rw [(matched_recorded log).isEmpty_iff, callers_recorded, size_recorded, List.length_eq_zero_iff]
    cases log <;> simp [List.eraseDups_cons]

/-- Calls of two functions in turn. -/
example : (recorded [("f", "a"), ("g", "a"), ("f", "b"), ("f", "a")]).pairs =
    [("f", "a"), ("f", "b"), ("f", "a"), ("g", "a")] := by
  decide +kernel

end CallGraph

end ShaderLang
