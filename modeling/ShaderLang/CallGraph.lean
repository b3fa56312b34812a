/-
**Calls between functions.**

For every function that calls another the names it calls are kept, one for each call, in the order
of the calls.  They are found by the name of the function; a second list keeps the functions in the
order of their first call.

Main definitions:

* `ShaderLang.CallGraph` — callers and what they call;
* `ShaderLang.CallGraph.record` — one more call;
* `ShaderLang.CallGraph.callees`, `ShaderLang.CallGraph.callersOf`, `ShaderLang.CallGraph.calls`,
  `ShaderLang.CallGraph.pairs` — who calls whom.

Main results:

* `ShaderLang.CallGraph.callees_record` — a call goes to the end of its caller's calls and changes no
  other caller's.
-/

set_option relaxedAutoImplicit false
set_option autoImplicit false

namespace ShaderLang

/-- Who calls whom. -/
structure CallGraph where
  /-- The names that each caller calls; in which order the callers stand here does not matter. -/
  table : List (String × List String)
  /-- The callers, in the order of their first call. -/
  callers : List String
  deriving DecidableEq, Repr

namespace CallGraph

/-- No calls. -/
def empty : CallGraph := ⟨[], []⟩

/-- One more call of a caller that is in the table. -/
def extend (caller callee : String) : List (String × List String) → List (String × List String)
  | [] => []
  | (name, callees) :: rest =>
      if name = caller then (name, callees ++ [callee]) :: rest
      else (name, callees) :: extend caller callee rest

/-- One more call. -/
def record (g : CallGraph) (caller callee : String) : CallGraph :=
  match g.table.lookup caller with
  | some _ => { g with table := extend caller callee g.table }
  | none => ⟨(caller, [callee]) :: g.table, g.callers ++ [caller]⟩

/-- The names that a function calls, one for each call. -/
def callees (g : CallGraph) (caller : String) : List String := (g.table.lookup caller).getD []

/-- All calls as pairs of caller and callee. -/
def pairs (g : CallGraph) : List (String × String) :=
  g.callers.flatMap fun caller => (g.callees caller).map fun callee => (caller, callee)

/-- The callers of a function, one for each call. -/
def callersOf (g : CallGraph) (callee : String) : List String :=
  (g.pairs.filter fun p => p.2 == callee).map Prod.fst

/-- The first function calls the second. -/
def calls (g : CallGraph) (caller callee : String) : Bool := (g.callees caller).contains callee

/-- The number of calls. -/
def size (g : CallGraph) : Nat := g.table.foldr (fun e n => e.2.length + n) 0

/-- There are no calls. -/
def isEmpty (g : CallGraph) : Bool := g.table.isEmpty

@[simp] theorem callees_empty (f : String) : empty.callees f = [] := rfl

theorem lookup_cons_eq (f name : String) (cs : List String) (es : List (String × List String)) :
    ((name, cs) :: es).lookup f = if f = name then some cs else es.lookup f := by
  by_cases hf : f = name
  · simp [hf]
  · simp [List.lookup_cons, beq_false_of_ne hf, hf]

theorem lookup_extend (caller callee f : String) (es : List (String × List String)) :
    (extend caller callee es).lookup f =
      if f = caller then (es.lookup caller).map (· ++ [callee]) else es.lookup f := by
  induction es with
  | nil => simp [extend]
  | cons e es ih =>
      obtain ⟨name, callees⟩ := e
      rw [extend, lookup_cons_eq, lookup_cons_eq]
      by_cases hname : name = caller
      · subst hname
        rw [if_pos rfl, if_pos rfl, lookup_cons_eq]
        by_cases hf : f = name <;> simp [hf]
      · rw [if_neg hname, if_neg (Ne.symm hname), lookup_cons_eq, ih]
        by_cases hf : f = name
        · simp [hf, hname]
        · simp [hf]

/-- A call goes to the end of its caller's calls and changes no other caller's. -/
theorem callees_record (g : CallGraph) (caller callee f : String) :
    (g.record caller callee).callees f =
      g.callees f ++ if f = caller then [callee] else [] := by
  unfold record callees
  split
  · next hlookup =>
      rw [lookup_extend, hlookup]
      by_cases hf : f = caller
      · simp [hf, hlookup]
      · simp [hf]
  · next hlookup =>
      rw [lookup_cons_eq]
      by_cases hf : f = caller
      · simp [hf, hlookup]
      · simp [hf]

end CallGraph

end ShaderLang
