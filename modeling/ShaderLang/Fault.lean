/-
**Faults.**

A node can be built before the nodes it refers to.  A walk that follows a reference to a node that
is not there, or that would never come to an end, stops with a fault.  Reading a program builds no
such nodes.

Main definitions:

* `ShaderLang.Fault` — the two faults;
* `ShaderLang.Walk` — computations over nodes that may have no answer or meet a fault.
-/

import ShaderLang.Node

set_option relaxedAutoImplicit false
set_option autoImplicit false

namespace ShaderLang

/-- What can stop a walk. -/
inductive Fault where
  /-- A reference to a node that is not there, and how many nodes there are. -/
  | outside (id : NodeId) (size : Nat)
  /-- A walk that comes back to where it was. -/
  | endless
  deriving DecidableEq, Repr

namespace Fault

/-- The fault in words. -/
def message : Fault → String
  | outside id size =>
      "node " ++ id.text ++ " is outside an arena of " ++ toString size ++ " nodes"
  | endless => "the nodes refer to each other in a circle"

end Fault

/-- A computation over nodes: it has an answer, or none, or meets a fault. -/
abbrev Walk (α : Type) : Type := OptionT (Except Fault) α

namespace Walk

/-- Stops with a fault. -/
def fault {α : Type} (f : Fault) : Walk α := OptionT.mk (.error f)

/-- An answer that may be missing. -/
def ofOption {α : Type} (a : Option α) : Walk α := OptionT.mk (.ok a)

/-- Makes a missing answer an answer of its own. -/
def attempt {α : Type} (w : Walk α) : Walk (Option α) := OptionT.mk (w.run.map some)

@[simp] theorem run_fault {α : Type} (f : Fault) :
    (fault f : Walk α).run = .error f := rfl

@[simp] theorem run_ofOption {α : Type} (a : Option α) : (ofOption a).run = .ok a := rfl

@[simp] theorem run_pure {α : Type} (a : α) : (pure a : Walk α).run = .ok (some a) := rfl

@[simp] theorem run_failure {α : Type} : (failure : Walk α).run = .ok none := rfl

@[simp] theorem run_attempt {α : Type} (w : Walk α) : w.attempt.run = w.run.map some := rfl

theorem run_bind {α β : Type} (w : Walk α) (f : α → Walk β) :
    (w >>= f).run =
      match w.run with
      | .error e => .error e
      | .ok none => .ok none
      | .ok (some a) => (f a).run := by
  show OptionT.run (OptionT.bind w f) = _
  unfold OptionT.bind OptionT.run OptionT.mk
  rcases (show Except Fault (Option α) from w) with e | (_ | a) <;> rfl

end Walk

end ShaderLang
