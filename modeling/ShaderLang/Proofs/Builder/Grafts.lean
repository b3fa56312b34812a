/-
**Steps of building trade parts.**

A step of building takes some parts that are held and leaves others in their place; it never touches
the rest.  A walk over nodes inside a step could meet a fault only if what the step takes was not
held.  No step reports a token that is not allowed: such reports are the grammar's.

Main definitions:

* `ShaderLang.Builder.errors` — how many tokens that were not allowed have been reported;
* `ShaderLang.Build.Grafts` — the parts that a step takes and leaves.

Main results:

* `ShaderLang.Build.grafts_add` — a new node takes what it refers to and leaves itself;
* `ShaderLang.Build.Grafts.bind`, `ShaderLang.Build.Grafts.framed` — steps in a row, and beside other
  parts;
* `ShaderLang.Build.grafts_element`, `ShaderLang.Build.grafts_declaration`,
  `ShaderLang.Build.grafts_structDeclaration`, … — the steps that do more than add a node.
-/

import ShaderLang.Builder.Declaration
import ShaderLang.Builder.Expression
import ShaderLang.Builder.Statement
import ShaderLang.Proofs.Arena.Walks

set_option relaxedAutoImplicit false
set_option autoImplicit false

namespace ShaderLang

/-- The report is about a token that is not allowed. -/
def Problem.isUnexpected : Problem → Bool
  | unexpectedToken .. => true
  | _ => false

/-- How many tokens that were not allowed have been reported. -/
def Builder.errors (b : Builder) : Nat :=
  b.diagnostics.reports.countP fun d => d.problem.isUnexpected

theorem Diagnostics.countP_report (d : Diagnostics) (p : Problem) (at_ : Position) :
    ((d.report p at_).reports.countP fun r => r.problem.isUnexpected)
      = (d.reports.countP fun r => r.problem.isUnexpected) + if p.isUnexpected then 1 else 0 := by
  simp [report, Array.countP_push]

namespace Build

open Arena

variable {α β : Type}

/-- The step takes the first parts, leaves the second ones, and reports no token; it meets a fault
only if it cannot take what it takes. -/
def Grafts (pre : List Part) (m : Build α) (post : α → List Part) : Prop :=
  ∀ b, match m b with
    | .ok x b' => b'.errors = b.errors ∧ Trades b.arena pre b'.arena (post x)
    | .error _ _ => ∀ frame, ¬ b.arena.Holds (frame ++ pre)

/-! ### Steps in a row -/

theorem Grafts.pure {pre : List Part} {post : α → List Part} {x : α}
    (h : (post x).Subperm pre) : (Pure.pure x : Build α).Grafts pre post :=
  fun _ => ⟨rfl, Trades.drop h⟩

theorem Grafts.bind {pre : List Part} {mid : α → List Part} {post : β → List Part} {m : Build α}
    {f : α → Build β} (hm : m.Grafts pre mid) (hf : ∀ x, (f x).Grafts (mid x) post) :
    (m >>= f).Grafts pre post := by
  intro b
  have h₁ := hm b
  rw [bind_apply]
  rcases hmb : m b with ⟨x, b'⟩ | ⟨e, b'⟩
  · rw [hmb] at h₁
    obtain ⟨herr, htrade⟩ := h₁
    have h₂ := hf x b'
    rcases hfb : f x b' with ⟨y, b''⟩ | ⟨e, b''⟩
    · rw [hfb] at h₂
      simp only [hfb]
      exact ⟨h₂.1.trans herr, htrade.trans h₂.2⟩
    · rw [hfb] at h₂
      simp only [hfb]
      exact fun frame h => h₂ frame (htrade frame h)
  · rw [hmb] at h₁
    exact h₁

/-- Other parts do not stand in the way of a step. -/
theorem Grafts.framed {pre : List Part} {post : α → List Part} {m : Build α} (extra : List Part)
    (hm : m.Grafts pre post) : m.Grafts (extra ++ pre) fun x => extra ++ post x := by
  intro b
  have h := hm b
  rcases hmb : m b with ⟨x, b'⟩ | ⟨e, b'⟩
  · rw [hmb] at h
    exact ⟨h.1, h.2.framed extra⟩
  · rw [hmb] at h
    intro frame hh
    rw [← List.append_assoc] at hh
    exact h _ hh

/-- A step may be given more than it takes. -/
theorem Grafts.of_subperm {pre more : List Part} {post : α → List Part} {m : Build α}
    (hm : m.Grafts pre post) (hs : pre.Subperm more) : m.Grafts more post :=
  (Grafts.pure (x := ()) hs).bind fun _ => hm

/-! ### The steps that others consist of -/

/-- A new node takes what it refers to and leaves itself. -/
theorem grafts_add (n : Node) {r : Role} (hr : n.plays r) :
    (add n).Grafts n.fields fun id => [(id, r)] :=
  fun b => ⟨rfl, fun _ h => h.add hr b.position⟩

/-- The step changes neither the nodes nor the number of tokens reported. -/
def Apart (m : Build α) : Prop :=
  ∀ b, ∃ x b', m b = .ok x b' ∧ b'.arena = b.arena ∧ b'.errors = b.errors

theorem Apart.grafts {m : Build α} (h : m.Apart) (pre : List Part) :
    m.Grafts pre fun _ => pre := by
  intro b
  obtain ⟨x, b', hmb, harena, herr⟩ := h b
  rw [hmb]
  refine ⟨herr, ?_⟩
  rw [harena]
  exact Trades.refl

theorem apart_pure (x : α) : (pure x : Build α).Apart := fun b => ⟨x, b, rfl, rfl, rfl⟩

theorem apart_get : (get : Build Builder).Apart := fun b => ⟨b, b, rfl, rfl, rfl⟩

theorem apart_modify {f : Builder → Builder}
    (h : ∀ b, (f b).arena = b.arena ∧ (f b).errors = b.errors) : (modify f : Build Unit).Apart :=
  fun b => ⟨(), f b, rfl, h b⟩

theorem apart_occur (name : String) : (occur name).Apart := fun _ => ⟨_, _, rfl, rfl, rfl⟩

theorem apart_declare (name : String) (type : DataType) (isArray : Bool) :
    (declare name type isArray).Apart :=
  fun _ => ⟨_, _, rfl, rfl, rfl⟩

theorem apart_setCurrent (name : Option String) : (setCurrent name).Apart :=
  fun _ => ⟨_, _, rfl, rfl, rfl⟩

theorem apart_report {p : Problem} (hp : p.isUnexpected = false) : (report p).Apart := by
  intro b
  refine ⟨(), _, rfl, rfl, ?_⟩
  simp [Builder.errors, Diagnostics.countP_report, hp]

theorem Apart.bind {m : Build α} {f : α → Build β} (hm : m.Apart) (hf : ∀ x, (f x).Apart) :
    (m >>= f).Apart := by
  intro b
  obtain ⟨x, b', hmb, harena, herr⟩ := hm b
  obtain ⟨y, b'', hfb, harena', herr'⟩ := hf x b'
  exact ⟨y, b'', by rw [bind_apply, hmb]; exact hfb, harena'.trans harena, herr'.trans herr⟩

/-- A question that meets no fault as long as the parts are held. -/
theorem grafts_ask {question : Builder → Except Fault α} {pre : List Part}
    (h : ∀ b frame, b.arena.Holds (frame ++ pre) → Ends (question b)) :
    (ask question).Grafts pre fun _ => pre := by
  intro b
  rcases hq : question b with e | x
  · have hask : ask question b = .error e b := by simp only [ask, hq]
    rw [hask]
    intro frame hh
    obtain ⟨v, hv⟩ := h b frame hh
    rw [hq] at hv
    contradiction
  · have hask : ask question b = .ok x b := by simp only [ask, hq]
    rw [hask]
    exact ⟨rfl, Trades.refl⟩

theorem grounded_of_mem {a : Arena} {frame pre : List Part} (h : a.Holds (frame ++ pre))
    {id : NodeId} {r : Role} (hm : (id, r) ∈ pre) : a.Grounded id :=
  h.forest.grounded (h.lt_size (List.mem_append_right _ hm))

/-! ### Questions about parts -/

theorem grafts_isInteger {pre : List Part} {id : NodeId} {r : Role} (hm : (id, r) ∈ pre) :
    (ask (·.isInteger id)).Grafts pre fun _ => pre :=
  grafts_ask fun _ _ h => isInteger_ends (grounded_of_mem h hm)

theorem grafts_fold {pre : List Part} {id : NodeId} {r : Role} (hm : (id, r) ∈ pre) :
    (ask (·.fold id)).Grafts pre fun _ => pre :=
  grafts_ask fun _ _ h => fold_ends (grounded_of_mem h hm)

/-- The check of a size takes nothing, if the size is among the parts. -/
theorem grafts_checkSize {pre : List Part} {size : Option NodeId}
    (hm : ∀ id, size = some id → ∃ r, (id, r) ∈ pre) :
    (checkSize size).Grafts pre fun _ => pre := by
  cases size with
  | none => exact (apart_pure ()).grafts pre
  | some id =>
      obtain ⟨r, hr⟩ := hm id rfl
      refine (grafts_isInteger hr).bind fun isInt => ?_
      split
      · refine (grafts_fold hr).bind fun value => ?_
        split
        · split
          · exact (apart_report rfl).grafts pre
          · exact (apart_pure ()).grafts pre
        · exact (apart_pure ()).grafts pre
      · exact (apart_report rfl).grafts pre

theorem mem_optional {size : Option NodeId} {r : Role} (more : List Part) :
    ∀ id, size = some id → ∃ r', (id, r') ∈ optional size r ++ more := by
  rintro id rfl
  exact ⟨r, by simp⟩

/-! ### Expressions and types -/

/-- A node without fields behind a step that touches no nodes. -/
theorem Apart.then_add {m : Build α} (h : m.Apart) {n : α → Node} {pre : List Part} {r : Role}
    (hf : ∀ x, (n x).fields = pre) (hr : ∀ x, (n x).plays r) :
    (m >>= fun x => add (n x)).Grafts pre fun id => [(id, r)] := by
  refine (h.grafts pre).bind fun x => ?_
  rw [← hf x]
  exact grafts_add (n x) (hr x)

theorem grafts_intLiteral (text : String) :
    (intLiteral text).Grafts [] fun id => [(id, .expression)] := by
  unfold intLiteral
  split
  · exact grafts_add _ rfl
  · exact (apart_report rfl).then_add (fun _ => rfl) fun _ => rfl

theorem grafts_floatLiteral (text : String) :
    (floatLiteral text).Grafts [] fun id => [(id, .expression)] := by
  unfold floatLiteral
  split
  · exact grafts_add _ rfl
  · exact (apart_report rfl).then_add (fun _ => rfl) fun _ => rfl

theorem grafts_stringLiteral (text : String) :
    (stringLiteral text).Grafts [] fun id => [(id, .expression)] := by
  refine Apart.then_add ?_ (fun _ => rfl) fun _ => rfl
  exact fun _ => ⟨_, _, rfl, rfl, rfl⟩

theorem grafts_name (text : String) : (name text).Grafts [] fun id => [(id, .expression)] :=
  (apart_occur text).then_add (fun _ => rfl) fun _ => rfl

theorem grafts_field (base : NodeId) (text : String) :
    (field base text).Grafts [(base, .expression)] fun id => [(id, .expression)] :=
  (apart_occur text).then_add (fun _ => rfl) fun _ => rfl

theorem grafts_element (array position : NodeId) :
    (element array position).Grafts [(array, .expression), (position, .expression)]
      fun id => [(id, .expression)] := by
  have hm : (position, Role.expression) ∈ [(array, Role.expression), (position, .expression)] := by
    simp
  refine (grafts_isInteger hm).bind fun isInt => ?_
  split
  · exact (apart_report rfl).then_add (fun _ => rfl) fun _ => rfl
  · exact grafts_add (.index array position) rfl

/-- Noting a call looks at the callee and leaves all parts as they are. -/
theorem grafts_noteCall {pre : List Part} {callee : NodeId} {r : Role} (hm : (callee, r) ∈ pre) :
    (noteCall callee).Grafts pre fun _ => pre := by
  refine (grafts_ask fun b _ h => (grounded_of_mem h hm).get_ends).bind fun node => ?_
  split
  · refine (apart_modify fun b => ?_).grafts pre
    split <;> exact ⟨rfl, rfl⟩
  · exact (apart_pure ()).grafts pre

theorem grafts_call (callee : NodeId) (arguments : Option NodeId) :
    (call callee arguments).Grafts ((callee, .expression) :: optional arguments (.list .arguments))
      fun id => [(id, .expression)] :=
  (grafts_noteCall (List.mem_cons_self ..)).bind fun _ => grafts_add (.call callee arguments) rfl

theorem grafts_intrinsicCall (text : String) (arguments : Option NodeId) :
    (intrinsicCall text arguments).Grafts (optional arguments (.list .arguments))
      fun id => [(id, .expression)] := by
  unfold intrinsicCall
  split
  · exact grafts_add (.intrinsicCall _ arguments) rfl
  · refine ((apart_report rfl).grafts _).bind fun _ => ?_
    -- here the callee is built behind its arguments
    rw [← List.append_nil (optional arguments _)]
    refine ((grafts_name text).framed _).bind fun callee => ?_
    refine (grafts_call callee arguments).of_subperm ?_
    exact (List.perm_append_singleton _ _).symm.subperm

theorem apart_namedType (text : String) : (namedType text).Apart := by
  unfold namedType
  split
  · exact apart_pure _
  · exact (apart_report rfl).bind fun _ => apart_pure _

theorem apart_structType (text : String) : (structType text).Apart := by
  refine apart_get.bind fun b => ?_
  split
  · exact apart_pure _
  · exact (apart_report rfl).bind fun _ => apart_pure _

theorem grafts_dimension {pre : List Part} {id : NodeId} {r : Role} (hm : (id, r) ∈ pre) :
    (dimension id).Grafts pre fun _ => pre := by
  refine (grafts_fold hm).bind fun value => ?_
  split
  · exact ((apart_report rfl).bind fun _ => apart_pure _).grafts pre
  · exact ((apart_report rfl).bind fun _ => apart_pure _).grafts pre
  · split
    · exact (apart_pure _).grafts pre
    · exact ((apart_report rfl).bind fun _ => apart_pure _).grafts pre

/-- The size of a vector is used up; the type has no part in it. -/
theorem grafts_vectorType (component : DataType) (size : NodeId) :
    (vectorType component size).Grafts [(size, .expression)] fun _ => [] := by
  refine (grafts_dimension (List.mem_singleton.2 rfl)).bind fun n => ?_
  split <;> exact Grafts.pure List.nil_subperm

theorem grafts_matrixType (component : DataType) (rows columns : NodeId) :
    (matrixType component rows columns).Grafts [(rows, .expression), (columns, .expression)]
      fun _ => [] := by
  refine (grafts_dimension (List.mem_cons_self ..)).bind fun r => ?_
  refine (grafts_dimension (List.mem_cons_of_mem _ (List.mem_singleton.2 rfl))).bind fun c => ?_
  split <;> exact Grafts.pure List.nil_subperm

/-! ### Declarations -/

theorem grafts_semantic (text : String) :
    (semantic text).Grafts [] fun id => optional id .semantic := by
  unfold semantic
  split
  · exact (grafts_add (.semantic _) rfl).bind fun id => Grafts.pure (.refl _)
  · exact ((apart_report rfl).grafts []).bind fun _ => Grafts.pure (.refl _)

theorem grafts_declaration (q : Qualifiers) (type : DataType) (text : String)
    (size tie initializer : Option NodeId) :
    (declaration q type text size tie initializer).Grafts
      (optional size .expression ++ optional tie .semantic ++ optional initializer .initializer)
      fun id => [(id, .declaration)] := by
  refine Grafts.bind (grafts_checkSize fun id hid => ?_) fun _ => ?_
  · rw [List.append_assoc]
    exact mem_optional _ id hid
  refine ((apart_declare text type size.isSome).grafts _).bind fun _ => ?_
  exact (apart_occur text).then_add (fun _ => rfl) fun _ => rfl

theorem grafts_structDeclarator (text : String) (size tie : Option NodeId) :
    (structDeclarator text size tie).Grafts (optional size .expression ++ optional tie .semantic)
      fun id => [(id, .structDeclarator)] := by
  refine (grafts_checkSize (mem_optional _)).bind fun _ => ?_
  exact (apart_occur text).then_add (fun _ => rfl) fun _ => rfl

theorem grafts_parameter (q : Qualifiers) (type : DataType) (text : Option String)
    (size tie : Option NodeId) :
    (parameter q type text size tie).Grafts (optional size .expression ++ optional tie .semantic)
      fun id => [(id, .parameter)] := by
  refine (grafts_checkSize (mem_optional _)).bind fun _ => ?_
  split
  · exact grafts_add (.parameter q type none size tie) rfl
  · next text =>
      refine ((apart_declare text type size.isSome).grafts _).bind fun _ => ?_
      exact (apart_occur text).then_add (fun _ => rfl) fun _ => rfl

theorem apart_beginStruct (name : String) : (beginStruct name).Apart :=
  fun _ => ⟨_, _, rfl, rfl, rfl⟩

theorem grafts_prototype (result : DataType) (text : String) (parameters tie : Option NodeId) :
    (prototype result text parameters tie).Grafts
      (optional parameters (.list .parameters) ++ optional tie .semantic)
      fun id => [(id, .prototype)] := by
  refine ((apart_setCurrent (some text)).grafts _).bind fun _ => ?_
  exact (apart_occur text).then_add (fun _ => rfl) fun _ => rfl

theorem grafts_definition (head body : NodeId) :
    (definition head body).Grafts [(head, .prototype), (body, .compound)]
      fun id => [(id, .external)] :=
  ((apart_setCurrent none).grafts _).bind fun _ => grafts_add (.definition head body) rfl

/-! ### The members of a struct -/

variable {b : Builder} {id : NodeId}

theorem memberOf_ends (type : DataType) (h : b.arena.Grounded id) : Ends (b.memberOf type id) := by
  obtain ⟨n, hn, hbelow⟩ := h.exists_node
  unfold Builder.memberOf
  rw [get_of_node? hn]
  refine Ends.bind ⟨n, rfl⟩ fun v hv => ?_
  obtain rfl := Except.ok.inj hv
  split
  · next name size tie =>
      have hcount : Ends (b.elementCount size) := by
        cases size with
        | none => exact ⟨none, rfl⟩
        | some size => exact (fold_ends (hbelow size (by simp [Node.children])).1).map _
      exact hcount.bind fun _ _ => ⟨_, rfl⟩
  · exact ⟨none, rfl⟩

theorem membersOf_ends (h : b.arena.Grounded id) : Ends (b.membersOf id) := by
  obtain ⟨n, hn, hbelow⟩ := h.exists_node
  unfold Builder.membersOf
  rw [get_of_node? hn]
  refine Ends.bind ⟨n, rfl⟩ fun v hv => ?_
  obtain rfl := Except.ok.inj hv
  split
  · next type declarators =>
      obtain ⟨items, hitems, hall⟩ :=
        listItems_ends (hbelow declarators (by simp [Node.children])).1
      refine Ends.bind ⟨items, hitems⟩ fun is his => ?_
      obtain rfl := Except.ok.inj (hitems.symm.trans his)
      exact (Ends.mapM fun i hi => memberOf_ends type (hall i hi).1).bind fun _ _ => ⟨_, rfl⟩
  · exact ⟨[], rfl⟩

/-- Collecting the members of a struct ends without a fault. -/
theorem collectMembers_ends {members : Option NodeId}
    (h : ∀ id, members = some id → b.arena.Grounded id) : Ends (b.collectMembers members) := by
  cases members with
  | none => exact ⟨[], rfl⟩
  | some id =>
      obtain ⟨lines, hlines, hall⟩ := listItems_ends (h id rfl)
      refine Ends.bind ⟨lines, hlines⟩ fun ls hls => ?_
      obtain rfl := Except.ok.inj (hlines.symm.trans hls)
      exact (Ends.mapM fun i hi => membersOf_ends (hall i hi).1).bind fun _ _ => ⟨_, rfl⟩

theorem grafts_structDeclaration (sid : UInt32) (members : Option NodeId) :
    (structDeclaration sid members).Grafts (optional members (.list .structMembers))
      fun id => [(id, .external)] := by
  refine (apart_get.grafts _).bind fun before => ?_
  have hmembers : ∀ (b : Builder) (frame : List Part),
      b.arena.Holds (frame ++ optional members (.list .structMembers)) →
        Ends (b.collectMembers members) := by
    intro b frame h
    refine collectMembers_ends ?_
    rintro id rfl
    exact grounded_of_mem h (List.mem_singleton.2 rfl)
  refine (grafts_ask hmembers).bind fun collected => ?_
  refine ((apart_modify ?_).grafts _).bind fun _ => ?_
  · exact fun b => ⟨rfl, rfl⟩
  · exact (apart_occur _).then_add (fun _ => rfl) fun _ => rfl

end Build

end ShaderLang
