/-
**What a step of building adds.**

A step that builds an expression leaves everything as it was and adds one node with known contents
on top.  Names and texts are only added to, structs are not touched, and only problems of certain
kinds are reported.  This needs nothing of what was built before: the new node is grounded as soon as
what it refers to is.

Main definitions:

* `ShaderLang.Builder.Extends` — everything built before is still there, and what may be reported;
* `ShaderLang.Build.Makes` — a step that ends with a new grounded node of which something is known.

Main results:

* `ShaderLang.Builder.Extends.trans`, `ShaderLang.Builder.Extends.grounded` — growth is transitive and
  keeps nodes grounded;
* `ShaderLang.Build.makes_add`, `ShaderLang.Build.makes_name`, … — what the steps make.
-/

import ShaderLang.Proofs.Builder.Grafts
import ShaderLang.Proofs.Names.Texts

set_option relaxedAutoImplicit false
set_option autoImplicit false

namespace ShaderLang

/-! ### Growth -/

namespace Builder

/-- Everything built before is still there, structs are the same, and only problems that are allowed
have been reported. -/
structure Extends (allowed : Problem → Prop) (b b' : Builder) : Prop where
  nodes : ∀ id n, b.arena.node? id = some n → b'.arena.node? id = some n
  names : ∀ id text, b.names.text? id = some text → b'.names.text? id = some text
  texts : ∀ id text, b.names.pool.get? id = some text → b'.names.pool.get? id = some text
  structs : b'.structs = b.structs
  reports : ∃ new : Array Diagnostic, b'.diagnostics.reports = b.diagnostics.reports ++ new ∧
    ∀ d ∈ new, allowed d.problem

namespace Extends

variable {allowed : Problem → Prop} {b b' b'' : Builder}

/-- Everything is there if nothing went away and nothing is reported. -/
theorem of_quiet (hnodes : ∀ id n, b.arena.node? id = some n → b'.arena.node? id = some n)
    (hnames : ∀ id text, b.names.text? id = some text → b'.names.text? id = some text)
    (htexts : ∀ id text, b.names.pool.get? id = some text → b'.names.pool.get? id = some text)
    (hstructs : b'.structs = b.structs) (hreports : b'.diagnostics = b.diagnostics) :
    Extends allowed b b' :=
  ⟨hnodes, hnames, htexts, hstructs, #[], by rw [hreports, Array.append_empty], by simp⟩

theorem refl (b : Builder) : Extends allowed b b :=
  of_quiet (fun _ _ h => h) (fun _ _ h => h) (fun _ _ h => h) rfl rfl

theorem trans (h : Extends allowed b b') (h' : Extends allowed b' b'') : Extends allowed b b'' where
  nodes := fun id n hn => h'.nodes id n (h.nodes id n hn)
  names := fun id t ht => h'.names id t (h.names id t ht)
  texts := fun id t ht => h'.texts id t (h.texts id t ht)
  structs := h'.structs.trans h.structs
  reports := by
    obtain ⟨new, hnew, hall⟩ := h.reports
    obtain ⟨new', hnew', hall'⟩ := h'.reports
    refine ⟨new ++ new', by rw [hnew', hnew, Array.append_assoc], ?_⟩
    intro d hd
    rcases Array.mem_append.1 hd with hd | hd
    · exact hall d hd
    · exact hall' d hd

/-- More problems may be allowed. -/
theorem weaken {allowed' : Problem → Prop} (h : Extends allowed b b')
    (hp : ∀ p, allowed p → allowed' p) : Extends allowed' b b' := by
  obtain ⟨new, hnew, hall⟩ := h.reports
  exact ⟨h.nodes, h.names, h.texts, h.structs, new, hnew, fun d hd => hp _ (hall d hd)⟩

/-- As long as no reports of tokens are allowed, there are as many as before. -/
theorem errors_eq (h : Extends allowed b b') (hp : ∀ p, allowed p → p.isUnexpected = false) :
    b'.errors = b.errors := by
  obtain ⟨new, hnew, hall⟩ := h.reports
  have hnone : new.countP (fun d => d.problem.isUnexpected) = 0 := by
    rw [Array.countP_eq_zero]
    intro d hd
    rw [hp _ (hall d hd)]
    exact Bool.false_ne_true
  rw [errors, errors, hnew, Array.countP_append, hnone, Nat.add_zero]

/-- Grounded nodes stay grounded. -/
theorem grounded (h : Extends allowed b b') {id : NodeId} (hid : b.arena.Grounded id) :
    b'.arena.Grounded id := by
  induction hid with
  | node here below _ ih => exact .node (h.nodes _ _ here) below ih

/-- Only the position of what comes next changes. -/
theorem position (b : Builder) (p : Position) : Extends allowed b { b with position := p } :=
  of_quiet (fun _ _ h => h) (fun _ _ h => h) (fun _ _ h => h) rfl rfl

end Extends

end Builder

namespace Build

open Arena

variable {allowed : Problem → Prop} {b : Builder}

/-- The step ends with a new grounded node, and of its contents something is known in the builder
that it leaves. -/
def Makes (allowed : Problem → Prop) (b : Builder) (m : Build NodeId)
    (contents : Builder → Node → Prop) : Prop :=
  ∃ id b' n, m b = .ok id b' ∧ b.Extends allowed b' ∧ b'.arena.Grounded id ∧
    b'.arena.node? id = some n ∧ contents b' n

/-- A step that only makes room for what comes next. -/
theorem Makes.after {α : Type} {m : Build α} {f : α → Build NodeId} {contents : Builder → Node → Prop}
    {x : α} {b' : Builder} (hm : m b = .ok x b') (hb : b.Extends allowed b')
    (hf : Makes allowed b' (f x) contents) : Makes allowed b (m >>= f) contents := by
  obtain ⟨id, b'', n, hrun, hgrows, hrest⟩ := hf
  exact ⟨id, b'', n, by rw [bind_apply, hm]; exact hrun, hb.trans hgrows, hrest⟩

theorem extends_add (n : Node) :
    b.Extends allowed { b with arena := b.arena.add n b.position } := by
  refine .of_quiet (fun id m hm => ?_) (fun _ _ h => h) (fun _ _ h => h) rfl rfl
  show (b.arena.add n b.position).node? id = some m
  rw [node?_add_of_lt _ _ _ (lt_size_of_node? hm)]
  exact hm

/-- A node whose children are grounded. -/
theorem makes_add {n : Node} {contents : Builder → Node → Prop}
    (hchildren : ∀ c ∈ n.children, b.arena.Grounded c)
    (hcontents : contents { b with arena := b.arena.add n b.position } n) :
    Makes allowed b (add n) contents := by
  have hgrows : b.Extends allowed { b with arena := b.arena.add n b.position } := extends_add n
  have hnode := node?_add_self b.arena n b.position
  refine ⟨b.arena.nextId, _, n, rfl, hgrows, .node hnode ?_ ?_, hnode, hcontents⟩
  · exact fun c hc => (hchildren c hc).lt_size
  · exact fun c hc => hgrows.grounded (hchildren c hc)

theorem extends_report {p : Problem} (hp : allowed p) :
    b.Extends allowed { b with diagnostics := b.diagnostics.report p b.position } where
  nodes := fun _ _ h => h
  names := fun _ _ h => h
  texts := fun _ _ h => h
  structs := rfl
  reports := by
    refine ⟨#[⟨p, b.position⟩], Array.push_eq_append, fun d hd => ?_⟩
    obtain rfl := Array.mem_singleton.1 hd
    exact hp

theorem extends_occur (name : String) :
    b.Extends allowed { b with names := (b.names.occur name).2 } :=
  .of_quiet (fun _ _ h => h) (fun _ _ h => b.names.text?_occur_of_some name h)
    (fun _ _ h => StringPool.get?_of_prefix (b.names.texts_occur name) h) rfl rfl

theorem extends_literal (text : String) :
    b.Extends allowed { b with names := (b.names.addLiteral text true).2 } :=
  .of_quiet (fun _ _ h => h)
    (fun _ _ h => b.names.text?_addLiteral_of_some text true h)
    (fun _ _ h => StringPool.get?_of_prefix (b.names.pool.texts_addLiteral text true) h) rfl rfl

/-! ### Literals and names -/

theorem makes_intLiteral (text : String)
    (hp : IntegerLiteral.ofText text = none → allowed (.malformedNumber text)) :
    Makes allowed b (intLiteral text) fun _ n =>
      ∃ l, n = .int l.value l.isUnsigned ∧ l = (IntegerLiteral.ofText text).getD ⟨0, false⟩ := by
  unfold intLiteral
  split
  · next l hl => exact makes_add (by simp [Node.children]) ⟨l, rfl, by rw [hl]; rfl⟩
  · next hl =>
      refine .after rfl (extends_report (hp hl)) (makes_add (by simp [Node.children]) ?_)
      exact ⟨⟨0, false⟩, rfl, by rw [hl]; rfl⟩

theorem makes_floatLiteral (text : String)
    (hp : ShaderLang.floatLiteral text = none → allowed (.malformedNumber text)) :
    Makes allowed b (floatLiteral text) fun _ n =>
      n = .float ((ShaderLang.floatLiteral text).getD 0.0) := by
  unfold floatLiteral
  split
  · next x hx => exact makes_add (by simp [Node.children]) (by rw [hx]; rfl)
  · next hx =>
      refine .after rfl (extends_report (hp hx)) (makes_add (by simp [Node.children]) ?_)
      rw [hx]
      rfl

theorem makes_boolLiteral (value : Bool) :
    Makes allowed b (boolLiteral value) fun _ n => n = .bool value :=
  makes_add (by simp [Node.children]) rfl

theorem makes_stringLiteral (text : String) :
    Makes allowed b (stringLiteral text) fun b' n =>
      ∃ sid, n = .string sid ∧
        (sid.bind b'.names.pool.get?).getD "" = StringPool.literalText text ∧
        ∀ i, sid = some i → (b'.names.pool.get? i).isSome := by
  refine .after rfl (extends_literal text) (makes_add (by simp [Node.children]) ?_)
  exact ⟨_, rfl, b.names.pool.text_addLiteral text,
    fun _ hid => Option.isSome_iff_exists.2 ⟨_, b.names.pool.get?_of_addLiteral text true hid⟩⟩

theorem makes_name (text : String) :
    Makes allowed b (name text) fun b' n => ∃ id, n = .name id ∧ b'.names.text? id = some text := by
  refine .after rfl (extends_occur text) (makes_add (by simp [Node.children]) ?_)
  exact ⟨_, rfl, b.names.text?_occur text⟩

/-! ### Operators -/

theorem makes_field {base : NodeId} (hbase : b.arena.Grounded base) (text : String) :
    Makes allowed b (field base text) fun b' n =>
      ∃ id, n = .field base id ∧ b'.names.text? id = some text := by
  refine .after rfl (extends_occur text) (makes_add ?_ ?_)
  · intro c hc
    obtain rfl := List.mem_singleton.1 hc
    exact hbase
  · exact ⟨_, rfl, b.names.text?_occur text⟩

theorem makes_element {array position : NodeId} (harray : b.arena.Grounded array)
    (hposition : b.arena.Grounded position) (hp : allowed .nonIntegerIndex) :
    Makes allowed b (element array position) fun _ n => n = .index array position := by
  have hchildren : ∀ c ∈ (Node.index array position).children, b.arena.Grounded c := by
    intro c hc
    rcases List.mem_cons.1 hc with rfl | hc
    · exact harray
    · obtain rfl := List.mem_singleton.1 hc
      exact hposition
  -- whatever the index is found to be, the node is made
  obtain ⟨isInt, hint⟩ : Ends (b.isInteger position) := isInteger_ends hposition
  have hask : ask (·.isInteger position) b = .ok isInt b := by simp only [ask, hint]
  refine .after hask (.refl b) ?_
  split
  · exact .after rfl (extends_report hp) (makes_add hchildren rfl)
  · exact makes_add hchildren rfl

/-! ### Calls -/

theorem grounded_call {a : Arena} {callee : NodeId} {arguments : Option NodeId}
    (hcallee : a.Grounded callee) (harguments : ∀ id, arguments = some id → a.Grounded id) :
    ∀ c ∈ (Node.call callee arguments).children, a.Grounded c := by
  intro c hc
  rcases List.mem_cons.1 hc with rfl | hc
  · exact hcallee
  · exact harguments c (Option.mem_toList.1 hc)

theorem makes_call {callee : NodeId} {arguments : Option NodeId} (hcallee : b.arena.Grounded callee)
    (harguments : ∀ id, arguments = some id → b.arena.Grounded id) :
    Makes allowed b (call callee arguments) fun _ n => n = .call callee arguments := by
  obtain ⟨node, hnode⟩ := hcallee.get_ends
  have hask : ask (fun b => b.arena.get callee) b = .ok node b := by simp only [ask, hnode]
  -- noting the call looks at the callee, but leaves the nodes as they are
  obtain ⟨b', hnote, hgrows, harena⟩ : ∃ b', noteCall callee b = .ok () b' ∧ b.Extends allowed b' ∧
      b'.arena = b.arena := by
    unfold noteCall
    rw [bind_apply, hask]
    dsimp only
    split
    · refine ⟨_, rfl, ?_, ?_⟩ <;> dsimp only <;> split
      · exact .of_quiet (fun _ _ h => h) (fun _ _ h => h) (fun _ _ h => h) rfl rfl
      · exact .refl b
      · rfl
      · rfl
    · exact ⟨b, rfl, .refl b, rfl⟩
  refine .after hnote hgrows (makes_add ?_ rfl)
  rw [harena]
  exact grounded_call hcallee harguments

theorem makes_intrinsicCall (i : Intrinsic) {arguments : Option NodeId}
    (harguments : ∀ id, arguments = some id → b.arena.Grounded id) :
    Makes allowed b (intrinsicCall i.name arguments) fun _ n => n = .intrinsicCall i arguments := by
  unfold intrinsicCall
  rw [Intrinsic.ofName_name]
  refine makes_add ?_ rfl
  intro c hc
  exact harguments c (Option.mem_toList.1 hc)

/-! ### Variables -/

theorem extends_declare (name : String) (type : DataType) (isArray : Bool) :
    b.Extends allowed { b with declared := (name, ⟨type, isArray⟩) :: b.declared } :=
  .of_quiet (fun _ _ h => h) (fun _ _ h => h) (fun _ _ h => h) rfl rfl

/-- Whatever the size of an array is found to be, its check only reports. -/
theorem checkSize_extends {size : Option NodeId} (hsize : ∀ c ∈ size.toList, b.arena.Grounded c)
    (hp : size.isSome → allowed .nonIntegerSize ∧ ∀ value, allowed (.sizeOutOfRange value)) :
    ∃ b', checkSize size b = .ok () b' ∧ b.Extends allowed b' ∧ b'.arena = b.arena := by
  cases size with
  | none => exact ⟨b, rfl, .refl b, rfl⟩
  | some id =>
      obtain ⟨htype, hrange⟩ := hp rfl
      have hground : b.arena.Grounded id := hsize id (by simp)
      obtain ⟨isInt, hint⟩ : Ends (b.isInteger id) := isInteger_ends hground
      obtain ⟨value, hvalue⟩ : Ends (b.fold id) := fold_ends hground
      have hask : ask (·.isInteger id) b = .ok isInt b := by simp only [ask, hint]
      have hask' : ask (·.fold id) b = .ok value b := by simp only [ask, hvalue]
      rw [checkSize, bind_apply, hask]
      cases isInt with
      | false => exact ⟨_, rfl, extends_report htype, rfl⟩
      | true =>
          simp only [if_true, bind_apply, hask']
          cases value with
          | none => exact ⟨b, rfl, .refl b, rfl⟩
          | some value =>
              by_cases hcount : value.count.isNone
              · simp only [hcount, if_true]
                exact ⟨_, rfl, extends_report (hrange value.text), rfl⟩
              · simp only [hcount]
                exact ⟨b, rfl, .refl b, rfl⟩

theorem makes_declaration (q : Qualifiers) (type : DataType) (text : String)
    {size tie value : Option NodeId} (hsize : ∀ c ∈ size.toList, b.arena.Grounded c)
    (htie : ∀ c ∈ tie.toList, b.arena.Grounded c)
    (hvalue : ∀ c ∈ value.toList, b.arena.Grounded c)
    (hp : size.isSome → allowed .nonIntegerSize ∧ ∀ value, allowed (.sizeOutOfRange value)) :
    Makes allowed b (declaration q type text size tie value) fun b' n =>
      ∃ name, n = .declaration q type name size tie value ∧ b'.names.text? name = some text := by
  obtain ⟨b', hcheck, hgrows, harena⟩ := checkSize_extends hsize hp
  refine .after hcheck hgrows (.after rfl (extends_declare text type size.isSome) ?_)
  refine .after rfl (extends_occur text) (makes_add ?_ ?_)
  · intro c hc
    show b'.arena.Grounded c
    rw [harena]
    simp only [Node.children, List.mem_append] at hc
    rcases hc with (hc | hc) | hc
    · exact hsize c hc
    · exact htie c hc
    · exact hvalue c hc
  · exact ⟨_, rfl, b'.names.text?_occur text⟩

end Build

end ShaderLang
