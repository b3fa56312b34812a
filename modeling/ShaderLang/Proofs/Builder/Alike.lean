/-
**What steps of building say.**

A step of building asks what nodes there are, what they are called, and what is declared.  It asks
neither where a node was built nor what has been reported.  So in builders that are alike, which only
positions and reports set apart, a step has the same result, leaves builders that are alike, and
reports the same problems.

What a step reports is either about the value or type of an expression, or about the one word that the
step was given: a word that is no type, no semantic, no number or no intrinsic function.

Main definitions:

* `ShaderLang.Builder.Alike` — builders that only positions and reports set apart;
* `ShaderLang.Problem.cut` — a problem as it is reported where a report lists at most so many
  alternatives;
* `ShaderLang.Build.Tells` — a step does the same in all builders that are alike, and all that it
  reports is of some kind.

Main results:

* `ShaderLang.Build.Tells.bind` — steps in a row;
* `ShaderLang.Build.tells_intLiteral`, `ShaderLang.Build.tells_structType`,
  `ShaderLang.Build.tells_declaration`, … — **what each step says**.
-/

import ShaderLang.Builder.Declaration
import ShaderLang.Builder.Expression
import ShaderLang.Builder.Statement
import ShaderLang.Constant.Literal
import ShaderLang.Proofs.Arena.Alike
import ShaderLang.Proofs.Structs.Registration

set_option relaxedAutoImplicit false
set_option autoImplicit false

namespace ShaderLang

/-! ### Problems -/

namespace Problem

/-- The problem as it is reported where a report lists at most so many alternatives. -/
def cut (limit : Nat) : Problem → Problem
  | .unexpectedToken token expected => .unexpectedToken token (expected.take limit)
  | p => p

/-- The problem is one with the value or the type of an expression. -/
def IsStatic : Problem → Prop
  | .nonIntegerIndex => True
  | .nonIntegerSize => True
  | .sizeOutOfRange _ => True
  | .nonConstantDimension => True
  | .dimensionOutOfRange _ => True
  | _ => False

/-- The problem lists no alternatives, so it is always reported as it is. -/
def Uncut (p : Problem) : Prop := ∀ limit, p.cut limit = p

end Problem

/-! ### Builders that are alike -/

namespace Builder

/-- The problems reported so far. -/
def problems (b : Builder) : List Problem := b.diagnostics.reports.toList.map Diagnostic.problem

/-- Only positions and reports set the builders apart. -/
structure Alike (b b' : Builder) : Prop where
  arena : b.arena.Alike b'.arena
  names : b.names = b'.names
  structs : b.structs = b'.structs
  calls : b.calls = b'.calls
  current : b.current = b'.current
  declared : b.declared = b'.declared

namespace Alike

variable {b b' : Builder}

theorem refl (b : Builder) : b.Alike b := ⟨.refl _, rfl, rfl, rfl, rfl, rfl⟩

theorem scope_eq (h : b.Alike b') : b.scope = b'.scope := by
  have hname : b.nameDeclared = b'.nameDeclared := by
    funext id
    unfold nameDeclared
    rw [h.names, h.declared]
  have hmember : b.memberDeclared = b'.memberDeclared := by
    funext type id
    unfold memberDeclared
    rw [h.names, h.structs]
  unfold scope
  rw [hname, hmember, h.names]

theorem isInteger_eq (h : b.Alike b') : b.isInteger = b'.isInteger := by
  funext id
  unfold isInteger
  rw [h.scope_eq, h.arena.isInteger_eq]

theorem fold_eq (h : b.Alike b') : b.fold = b'.fold := by
  funext id
  unfold fold
  rw [h.arena.fold_eq]

theorem memberOf_eq (h : b.Alike b') (type : DataType) : b.memberOf type = b'.memberOf type := by
  have hcount : b.elementCount = b'.elementCount := by
    funext size
    unfold elementCount
    rw [h.fold_eq]
  funext id
  unfold memberOf
  rw [h.arena.get_eq, hcount, h.names]

theorem membersOf_eq (h : b.Alike b') : b.membersOf = b'.membersOf := by
  have hmember : b.memberOf = b'.memberOf := funext h.memberOf_eq
  funext id
  unfold membersOf
  rw [h.arena.get_eq, h.arena.listItems_eq, hmember]

/-- Structs get the same members. -/
theorem collectMembers_eq (h : b.Alike b') : b.collectMembers = b'.collectMembers := by
  funext members
  unfold collectMembers
  rw [h.arena.listItems_eq, h.membersOf_eq]

end Alike

/-- A report adds its problem. -/
theorem problems_report (b : Builder) (p : Problem) (place : Position) :
    problems { b with diagnostics := b.diagnostics.report p place } = b.problems ++ [p] := by
  simp [problems, Diagnostics.report]

end Builder

namespace Build

variable {α β : Type} {b b' : Builder} {fine : Problem → Prop} {m : Build α} {f : α → Build β}

/-! ### What a step says -/

/-- The outcomes of a step in two builders are alike, and in both cases the same was reported. -/
inductive Matches (said : List Problem) (b' : Builder) :
    EStateM.Result Fault Builder α → EStateM.Result Fault Builder α → Prop where
  | ok {x : α} {c c' : Builder} (alike : c.Alike c') (reports : c'.problems = b'.problems ++ said) :
      Matches said b' (.ok x c) (.ok x c')
  | fault {f : Fault} {c c' : Builder} : Matches said b' (.error f c) (.error f c')

/-- The step does and says the same in all builders that are alike to this one. -/
def Blind (said : List Problem) (m : Build α) (b : Builder) : Prop :=
  ∀ b', b.Alike b' → Matches said b' (m b) (m b')

/-- The step does the same in all builders that are alike to this one, it opens no struct, and what it
says is fine. -/
def Tells (fine : Problem → Prop) (m : Build α) (b : Builder) : Prop :=
  (∀ x c, m b = .ok x c → c.structs.lookup = b.structs.lookup) ∧
    ∃ said : List Problem, (∀ p ∈ said, fine p ∧ p.Uncut) ∧ m.Blind said b

namespace Matches

variable {said said' : List Problem} {r r' : EStateM.Result Fault Builder α}

/-- What was said before comes first. -/
theorem after {c' : Builder} (h : Matches said' c' r r')
    (hbefore : c'.problems = b'.problems ++ said) : Matches (said ++ said') b' r r' := by
  cases h with
  | ok alike reports =>
      rw [hbefore, List.append_assoc] at reports
      exact .ok alike reports
  | fault => exact .fault

end Matches

/-- A step that asks nothing of positions and reports, and reports nothing. -/
theorem blind_of_same {x : Builder → α} {next : Builder → Builder}
    (hm : ∀ b, m b = .ok (x b) (next b)) (hx : ∀ b', b.Alike b' → x b = x b')
    (halike : ∀ b', b.Alike b' → (next b).Alike (next b'))
    (hsaid : ∀ b', (next b').problems = b'.problems) : m.Blind [] b := by
  intro b' h
  rw [hm, hm, ← hx b' h]
  exact .ok (halike b' h) (by rw [hsaid, List.append_nil])

namespace Tells

/-- Steps in a row. -/
theorem bind (hm : m.Tells fine b) (hf : ∀ x c, m b = .ok x c → (f x).Tells fine c) :
    (m >>= f).Tells fine b := by
  obtain ⟨hkeeps, said, hfine, hblind⟩ := hm
  cases hrun : m b with
  | error e c =>
      refine ⟨fun x c' h => ?_, said, hfine, fun b' h => ?_⟩
      · rw [bind_apply, hrun] at h
        contradiction
      · have hmatch := hblind b' h
        rw [hrun] at hmatch
        cases hrun' : m b' with
        | ok y c' =>
            rw [hrun'] at hmatch
            contradiction
        | error e' c' =>
            rw [hrun'] at hmatch
            cases hmatch
            rw [bind_apply, bind_apply, hrun, hrun']
            exact .fault
  | ok x c =>
      obtain ⟨hkeeps', said', hfine', hblind'⟩ := hf x c hrun
      refine ⟨fun y c' h => ?_, said ++ said', fun p hp => ?_, fun b' h => ?_⟩
      · rw [bind_apply, hrun] at h
        exact (hkeeps' y c' h).trans (hkeeps x c hrun)
      · rcases List.mem_append.1 hp with hp | hp
        · exact hfine p hp
        · exact hfine' p hp
      · have hmatch := hblind b' h
        rw [hrun] at hmatch
        cases hrun' : m b' with
        | error e' c' =>
            rw [hrun'] at hmatch
            contradiction
        | ok y c' =>
            rw [hrun'] at hmatch
            cases hmatch with
            | ok alike reports =>
                rw [bind_apply, bind_apply, hrun, hrun']
                exact (hblind' c' alike).after reports

end Tells

/-! ### Single steps -/

theorem tells_pure (x : α) : (pure x : Build α).Tells fine b := by
  refine ⟨fun y c h => ?_, [], nofun, ?_⟩
  · obtain ⟨-, rfl⟩ := EStateM.Result.ok.inj h
    rfl
  · exact blind_of_same (fun _ => rfl) (fun _ _ => rfl) (fun _ h => h) fun _ => rfl

/-- A step that reports nothing. -/
theorem tells_of_same {x : Builder → α} {next : Builder → Builder}
    (hm : ∀ b, m b = .ok (x b) (next b)) (hx : ∀ b', b.Alike b' → x b = x b')
    (halike : ∀ b', b.Alike b' → (next b).Alike (next b'))
    (hsaid : ∀ b', (next b').problems = b'.problems)
    (hkeeps : (next b).structs.lookup = b.structs.lookup) : m.Tells fine b := by
  refine ⟨fun y c h => ?_, [], nofun, blind_of_same hm hx halike hsaid⟩
  rw [hm] at h
  obtain ⟨-, rfl⟩ := EStateM.Result.ok.inj h
  exact hkeeps

/-- A question whose answer does not depend on positions and reports. -/
theorem tells_ask {question : Builder → Except Fault α}
    (h : ∀ b', b.Alike b' → question b = question b') : (ask question).Tells fine b := by
  refine ⟨fun x c hx => ?_, [], nofun, fun b' hb => ?_⟩
  · unfold ask at hx
    split at hx
    · obtain ⟨-, rfl⟩ := EStateM.Result.ok.inj hx
      rfl
    · contradiction
  · unfold ask
    rw [← h b' hb]
    cases question b with
    | ok x => exact .ok hb (List.append_nil _).symm
    | error e => exact .fault

/-- A step that is another one in all builders that are alike to this one. -/
theorem tells_of_eq {n : Build α} (hn : n.Tells fine b) (h : ∀ b', b.Alike b' → m b' = n b') :
    m.Tells fine b := by
  obtain ⟨hkeeps, said, hfine, hblind⟩ := hn
  have hself := h b (.refl b)
  refine ⟨fun x c hx => hkeeps x c (hself.symm.trans hx), said, hfine, fun b' hb => ?_⟩
  rw [hself, h b' hb]
  exact hblind b' hb

theorem tells_report {p : Problem} (hp : fine p) (huncut : p.Uncut) : (report p).Tells fine b := by
  refine ⟨fun x c h => ?_, [p], ?_, fun b' h => ?_⟩
  · obtain ⟨-, rfl⟩ := EStateM.Result.ok.inj h
    rfl
  · intro q hq
    obtain rfl := List.mem_singleton.1 hq
    exact ⟨hp, huncut⟩
  · exact .ok ⟨h.arena, h.names, h.structs, h.calls, h.current, h.declared⟩
      (b'.problems_report p b'.position)

theorem tells_add (n : Node) : (add n).Tells fine b :=
  tells_of_same (fun _ => rfl) (fun _ h => h.arena.nextId_eq)
    (fun _ h => ⟨h.arena.add n _ _, h.names, h.structs, h.calls, h.current, h.declared⟩)
    (fun _ => rfl) rfl

theorem tells_occur (text : String) : (occur text).Tells fine b := by
  refine tells_of_same (fun _ => rfl) (fun b' h => ?_) (fun b' h => ?_) (fun _ => rfl) rfl
  · rw [h.names]
  · exact ⟨h.arena, congrArg (fun n => (n.occur text).2) h.names, h.structs, h.calls, h.current,
      h.declared⟩

theorem tells_declare (name : String) (type : DataType) (isArray : Bool) :
    (declare name type isArray).Tells fine b := by
  refine tells_of_same (fun _ => rfl) (fun _ _ => rfl) (fun b' h => ?_) (fun _ => rfl) rfl
  exact ⟨h.arena, h.names, h.structs, h.calls, h.current,
    congrArg ((name, ⟨type, isArray⟩) :: ·) h.declared⟩

theorem tells_setCurrent (name : Option String) : (setCurrent name).Tells fine b :=
  tells_of_same (fun _ => rfl) (fun _ _ => rfl)
    (fun _ h => ⟨h.arena, h.names, h.structs, h.calls, rfl, h.declared⟩) (fun _ => rfl) rfl

/-- Opening a struct says nothing. -/
theorem blind_beginStruct (name : String) : (beginStruct name).Blind [] b := by
  refine blind_of_same (fun _ => rfl) (fun b' h => ?_) (fun b' h => ?_) fun _ => rfl
  · rw [h.structs]
  · exact ⟨h.arena, h.names, congrArg (fun s => (s.register name).2) h.structs, h.calls, h.current,
      h.declared⟩

/-! ### Literals and names -/

/-- A new node for a new occurrence of a name. -/
theorem tells_occur_add (text : String) (n : NameId → Node) :
    (occur text >>= fun id => add (n id)).Tells fine b :=
  (tells_occur text).bind fun id _ _ => tells_add (n id)

/-- A word that is no integer. -/
theorem tells_intLiteral (text : String) :
    (intLiteral text).Tells (fun p => p = .malformedNumber text ∧ IntegerLiteral.ofText text = none)
      b := by
  unfold intLiteral
  split
  · exact tells_add _
  · next hnone => exact (tells_report ⟨rfl, hnone⟩ fun _ => rfl).bind fun _ _ _ => tells_add _

/-- A word that is no floating-point number. -/
theorem tells_floatLiteral (text : String) :
    (floatLiteral text).Tells
      (fun p => p = .malformedNumber text ∧ ShaderLang.floatLiteral text = none) b := by
  unfold floatLiteral
  split
  · exact tells_add _
  · next hnone => exact (tells_report ⟨rfl, hnone⟩ fun _ => rfl).bind fun _ _ _ => tells_add _

theorem tells_stringLiteral (text : String) : (stringLiteral text).Tells fine b := by
  have hliteral : (modifyGet fun b : Builder =>
      ((b.names.addLiteral text true).1, { b with names := (b.names.addLiteral text true).2 }) :
      Build (Option StringId)).Tells fine b := by
    refine tells_of_same (fun _ => rfl) (fun b' h => ?_) (fun b' h => ?_) (fun _ => rfl) rfl
    · rw [h.names]
    · exact ⟨h.arena, congrArg (fun n => (n.addLiteral text true).2) h.names, h.structs, h.calls,
        h.current, h.declared⟩
  exact hliteral.bind fun id _ _ => tells_add (.string id)

theorem tells_name (text : String) : (name text).Tells fine b := tells_occur_add text .name

theorem tells_field (base : NodeId) (text : String) : (field base text).Tells fine b :=
  tells_occur_add text (.field base)

/-! ### Questions about expressions -/

theorem tells_isInteger (id : NodeId) : (ask (·.isInteger id)).Tells fine b :=
  tells_ask fun _ h => congrFun h.isInteger_eq id

theorem tells_fold (id : NodeId) : (ask (·.fold id)).Tells fine b :=
  tells_ask fun _ h => congrFun h.fold_eq id

theorem tells_element (array position : NodeId) :
    (element array position).Tells Problem.IsStatic b := by
  refine (tells_isInteger position).bind fun isInteger c _ => ?_
  dsimp only
  split
  · exact (tells_report trivial fun _ => rfl).bind fun _ _ _ => tells_add _
  · exact (tells_pure ()).bind fun _ _ _ => tells_add _

theorem tells_checkSize (size : Option NodeId) : (checkSize size).Tells Problem.IsStatic b := by
  cases size with
  | none => exact tells_pure ()
  | some id =>
      refine (tells_isInteger id).bind fun isInteger c _ => ?_
      split
      · refine (tells_fold id).bind fun value c' _ => ?_
        split
        · split
          · exact tells_report trivial fun _ => rfl
          · exact tells_pure _
        · exact tells_pure _
      · exact tells_report trivial fun _ => rfl

theorem tells_dimension (id : NodeId) : (dimension id).Tells Problem.IsStatic b := by
  refine (tells_fold id).bind fun value c _ => ?_
  split
  · exact (tells_report trivial fun _ => rfl).bind fun _ _ _ => tells_pure _
  · exact (tells_report trivial fun _ => rfl).bind fun _ _ _ => tells_pure _
  · split
    · exact tells_pure _
    · exact (tells_report trivial fun _ => rfl).bind fun _ _ _ => tells_pure _

/-! ### Calls -/

/-- Noting a call says nothing. -/
theorem tells_noteCall (callee : NodeId) : (noteCall callee).Tells fine b := by
  refine (tells_ask fun b' h => congrFun h.arena.get_eq callee).bind fun node c _ => ?_
  split
  · next n =>
      refine tells_of_same (fun _ => rfl) (fun _ _ => rfl) (fun b' h => ?_) (fun b' => ?_) ?_
      · rw [← h.current, ← h.names]
        split
        · next caller text _ _ =>
            exact ⟨h.arena, rfl, h.structs, congrArg (·.record caller text) h.calls, rfl, h.declared⟩
        · exact h
      · split <;> rfl
      · split <;> rfl
  · exact tells_pure ()

theorem tells_call (callee : NodeId) (arguments : Option NodeId) :
    (call callee arguments).Tells fine b :=
  (tells_noteCall callee).bind fun _ _ _ => tells_add _

/-- A word that is no intrinsic function. -/
theorem tells_intrinsicCall (text : String) (arguments : Option NodeId) :
    (intrinsicCall text arguments).Tells
      (fun p => p = .unknownIntrinsic text ∧ Intrinsic.ofName text = none) b := by
  unfold intrinsicCall
  split
  · exact tells_add _
  · next hnone =>
      refine (tells_report ⟨rfl, hnone⟩ fun _ => rfl).bind fun _ c _ => ?_
      exact (tells_name text).bind fun callee _ _ => tells_call callee arguments

/-! ### Types -/

/-- A word that is no built-in type. -/
theorem tells_namedType (text : String) :
    (namedType text).Tells (fun p => p = .unknownType text ∧ DataType.ofKeyword text = none) b := by
  unfold namedType
  split
  · exact tells_pure _
  · next hnone => exact (tells_report ⟨rfl, hnone⟩ fun _ => rfl).bind fun _ _ _ => tells_pure _

/-- The name of a struct is looked up in what is built. -/
theorem structType_apply (text : String) (b : Builder) :
    structType text b = (b.structs.lookup text).elim
      ((report (.unknownType text) >>= fun _ => pure DataType.void : Build DataType) b)
      fun id => .ok (.struct id) b := by
  unfold structType
  have hget : (get : Build Builder) b = .ok b b := rfl
  rw [bind_apply, hget]
  cases hlookup : b.structs.lookup text <;> simp only [hlookup] <;> rfl

/-- A name that stands for no struct. -/
theorem tells_structType (text : String) :
    (structType text).Tells (fun p => p = .unknownType text ∧ b.structs.lookup text = none) b := by
  cases hlookup : b.structs.lookup text with
  | some id =>
      refine tells_of_eq (tells_pure (.struct id)) fun b' h => ?_
      rw [structType_apply, ← h.structs, hlookup]
      rfl
  | none =>
      have hreport : (report (.unknownType text) >>= fun _ => pure .void : Build DataType).Tells
          (fun p => p = .unknownType text ∧ none = (none : Option UInt32)) b :=
        (tells_report ⟨rfl, rfl⟩ fun _ => rfl).bind fun _ _ _ => tells_pure _
      refine tells_of_eq hreport fun b' h => ?_
      rw [structType_apply, ← h.structs, hlookup]
      rfl

theorem tells_vectorType (component : DataType) (size : NodeId) :
    (vectorType component size).Tells Problem.IsStatic b := by
  refine (tells_dimension size).bind fun extent c _ => ?_
  split <;> exact tells_pure _

theorem tells_matrixType (component : DataType) (rows columns : NodeId) :
    (matrixType component rows columns).Tells Problem.IsStatic b := by
  refine (tells_dimension rows).bind fun r c _ => (tells_dimension columns).bind fun k c' _ => ?_
  split <;> exact tells_pure _

/-! ### Declarations -/

/-- A word that is no semantic. -/
theorem tells_semantic (text : String) :
    (semantic text).Tells (fun p => p = .unknownSemantic text ∧ Semantic.ofText text = none) b := by
  unfold semantic
  split
  · exact (tells_add _).bind fun _ _ _ => tells_pure _
  · next hnone => exact (tells_report ⟨rfl, hnone⟩ fun _ => rfl).bind fun _ _ _ => tells_pure _

theorem tells_declaration (q : Qualifiers) (type : DataType) (text : String)
    (size tie initializer : Option NodeId) :
    (declaration q type text size tie initializer).Tells Problem.IsStatic b := by
  refine (tells_checkSize size).bind fun _ c _ => ?_
  exact (tells_declare text type size.isSome).bind fun _ _ _ => tells_occur_add text _

theorem tells_structDeclarator (text : String) (size tie : Option NodeId) :
    (structDeclarator text size tie).Tells Problem.IsStatic b :=
  (tells_checkSize size).bind fun _ _ _ => tells_occur_add text _

/-- Closing a struct says nothing, and no name stands for another struct than before. -/
theorem tells_structDeclaration (id : UInt32) (members : Option NodeId) :
    (structDeclaration id members).Tells fine b := by
  have hclosed : ∀ text : String, (do
      let collected ← ask fun b => b.collectMembers members
      modify fun b => { b with structs := (b.structs.finalize text collected).2 }
      let name ← occur text
      add (.structDeclaration id name members) : Build NodeId).Tells fine b := by
    intro text
    refine (tells_ask fun b' h => congrFun h.collectMembers_eq members).bind fun collected c _ => ?_
    have hclose : (modify fun b : Builder =>
        { b with structs := (b.structs.finalize text collected).2 } : Build Unit).Tells fine c := by
      refine tells_of_same (fun _ => rfl) (fun _ _ => rfl) (fun b' h => ?_) (fun _ => rfl)
        (c.structs.lookup_finalize text collected)
      exact ⟨h.arena, h.names, congrArg (fun s => (s.finalize text collected).2) h.structs, h.calls,
        h.current, h.declared⟩
    exact hclose.bind fun _ _ _ => tells_occur_add _ _
  refine tells_of_eq (hclosed ((b.structs.nameOf id).getD "")) fun b' h => ?_
  rw [h.structs]
  rfl

theorem tells_parameter (q : Qualifiers) (type : DataType) (text : Option String)
    (size tie : Option NodeId) :
    (parameter q type text size tie).Tells Problem.IsStatic b := by
  refine (tells_checkSize size).bind fun _ c _ => ?_
  cases text with
  | none => exact tells_add _
  | some text =>
      exact (tells_declare text type size.isSome).bind fun _ _ _ => tells_occur_add text _

theorem tells_prototype (result : DataType) (text : String) (parameters tie : Option NodeId) :
    (prototype result text parameters tie).Tells fine b :=
  (tells_setCurrent (some text)).bind fun _ _ _ => tells_occur_add text _

theorem tells_definition (head body : NodeId) : (definition head body).Tells fine b :=
  (tells_setCurrent none).bind fun _ _ _ => tells_add _

end Build

end ShaderLang
