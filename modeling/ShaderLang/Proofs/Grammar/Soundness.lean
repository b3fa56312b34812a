/-
**What rules rely on in a step of building.**

A rule is sound if the steps of building that it takes are.  What has to be known of a step is the same
for all properties of the reader that follow from how its rules are put together, so it is gathered here
once for each step: inside a part of a program the step is a small one, it reports no token that is not
allowed, no name stands for another struct behind it, the types that it keeps are admitted, and it does
and says the same wherever only positions and reports differ.

What a step relies on was there before it: a token that was read, or something that was found out of a
type.

Main definitions:

* `ShaderLang.Site` — where a rule stands;
* `ShaderLang.Fact` — what was found out of a type before;
* `ShaderLang.Build.Sound` — **what rules rely on in a step of building**.

Main results:

* `ShaderLang.Build.sound_intLiteral`, `ShaderLang.Build.sound_structType`,
  `ShaderLang.Build.sound_declaration`, … — **each step is sound where it is taken**.
-/

import ShaderLang.Proofs.Grammar.Words

set_option relaxedAutoImplicit false
set_option autoImplicit false

namespace ShaderLang

/-! ### What was found out -/

/-- Where a rule stands: inside a part of a program; at its parameters, where a token may be read as the
word `void`; where functions are entered and left and structs are closed as well; or where structs are
opened as well. -/
inductive Site where
  | inside
  | heading
  | around
  | anywhere

/-- No function is entered or left here, and structs are left alone. -/
def Site.isInner : Site → Bool
  | .inside | .heading => true
  | .around | .anywhere => false

theorem Site.ne_inside {site : Site} (h : site.isInner = false) : site ≠ .inside := by
  rintro rfl
  contradiction

/-- What was found out of a type before: it is built in, or admitted. -/
inductive Fact where
  | builtIn (type : DataType)
  | admitted (type : DataType)

/-- The fact is true of the type. -/
def Fact.Holds (structs : Structs) : Fact → Prop
  | builtIn type => type.IsBuiltIn ∧ type.Shaped
  | admitted type => structs.Admits type

/-- Nothing is found out. -/
abbrev nothing {α : Type} : α → List Fact := fun _ => []

/-- The tokens but for those that stand for the end. -/
def withoutEnds (ts : List Token) : List Token := ts.filter fun t => t.kind ≠ .endOfFile

variable {words : List Token} {known : List Fact} {structs structs' : Structs} {t : Token}
  {type : DataType}

theorem Fact.Holds.mono {k : Fact} (h : k.Holds structs) (hsize : structs.size ≤ structs'.size) :
    k.Holds structs' := by
  cases k with
  | builtIn => exact h
  | admitted => exact Structs.Admits.mono h hsize

/-- A token of a kind that was read. -/
theorem mem_withoutEnds {kind : TokenKind} (h : t ∈ words) (hkind : t.kind = kind)
    (hne : kind ≠ .endOfFile) : t ∈ withoutEnds words :=
  List.mem_filter.2 ⟨h, decide_eq_true (hkind ▸ hne)⟩

namespace Build

open Builder Structs

variable {α : Type} {site : Site} {step : Build α} {gives : α → List Fact} {text : String}

/-! ### Sound steps -/

/-- What rules rely on in a step of building behind some words and facts: inside a part of a
program it is a small step, it reports no token that is not allowed, it opens no struct unless structs
are opened where it is taken, it keeps only types that are admitted, and what it says depends on the
words alone and is about words that were read. -/
structure Sound (site : Site) (words : List Token) (known : List Fact) (step : Build α)
    (gives : α → List Fact) : Prop where
  inner : site.isInner = true → step.Inner
  errors : ∀ b x b', step b = .ok x b' → b'.errors = b.errors
  names : site ≠ .anywhere → ∀ b, (step.after b).structs.names = b.structs.names
  moves : ∀ b, (∀ k ∈ known, k.Holds b.structs) →
    step.MovesTo (fun x structs => ∀ k ∈ gives x, k.Holds structs) b
  tells : ∀ b, ∃ said : List Problem, (∀ p ∈ said, p.Uncut ∧
    (site ≠ .anywhere → p.IsAbout (withoutEnds words) b.structs)) ∧ step.Blind said b

/-- What may be built inside a part of a program may be built everywhere. -/
theorem Sound.of_inside (h : step.Sound .inside words known gives) : step.Sound site words known gives where
  inner := fun _ => h.inner rfl
  errors := h.errors
  names := fun _ => h.names nofun
  moves := h.moves
  tells := fun b => by
    obtain ⟨said, hsaid, hblind⟩ := h.tells b
    exact ⟨said, fun p hp => ⟨(hsaid p hp).1, fun _ => (hsaid p hp).2 nofun⟩, hblind⟩

/-- A step that grafts reports no token that is not allowed. -/
theorem Grafts.errors_eq {pre : List Part} {post : α → List Part} (h : step.Grafts pre post)
    {b b' : Builder} {x : α} (hx : step b = .ok x b') : b'.errors = b.errors := by
  have hgrafts := h b
  rw [hx] at hgrafts
  exact hgrafts.1

theorem movesTo_nothing {b : Builder} (h : step.MovesTo Unknown b) :
    step.MovesTo (fun x structs => ∀ k ∈ nothing x, k.Holds structs) b :=
  fun x b' hx => ⟨(h x b' hx).1, nofun⟩

/-- A step that only says what is about words that were read. -/
theorem exists_said {b : Builder} {fine : Problem → Prop} (h : step.Tells fine b)
    (hfine : ∀ p, fine p → p.IsAbout (withoutEnds words) b.structs) :
    ∃ said : List Problem, (∀ p ∈ said, p.Uncut ∧
      (site ≠ .anywhere → p.IsAbout (withoutEnds words) b.structs)) ∧ step.Blind said b := by
  obtain ⟨-, said, hsaid, hblind⟩ := h
  exact ⟨said, fun p hp => ⟨(hsaid p hp).2, fun _ => hfine p (hsaid p hp).1⟩, hblind⟩

/-- A small step. -/
theorem Sound.of_inner {pre : List Part} {post : α → List Part} {fine : Builder → Problem → Prop}
    (hinner : step.Inner) (hgrafts : step.Grafts pre post)
    (hmoves : ∀ b, (∀ k ∈ known, k.Holds b.structs) →
      step.MovesTo (fun x structs => ∀ k ∈ gives x, k.Holds structs) b)
    (htells : ∀ b, step.Tells (fine b) b)
    (hfine : ∀ b p, fine b p → p.IsAbout (withoutEnds words) b.structs) :
    step.Sound site words known gives where
  inner := fun _ => hinner
  errors := fun _ _ _ hx => hgrafts.errors_eq hx
  names := fun _ b => congrArg Structs.names (hinner b).structs_eq
  moves := hmoves
  tells := fun b => exists_said (htells b) (hfine b)

/-- A small step that finds nothing out and only says something about values and types. -/
theorem Sound.of_static {pre : List Part} {post : α → List Part} (hinner : step.Inner)
    (hgrafts : step.Grafts pre post)
    (hmoves : ∀ b, (∀ k ∈ known, k.Holds b.structs) → step.MovesTo Unknown b)
    (htells : ∀ b, step.Tells Problem.IsStatic b) : step.Sound site words known nothing :=
  .of_inner hinner hgrafts (fun b hb => movesTo_nothing (hmoves b hb)) htells fun _ _ hp =>
    Problem.isAbout_of_isStatic hp

/-! ### Nodes -/

/-- A plain node without names or a size. -/
theorem sound_add_typed {n : Node} (hplain : n.isPlain = true) (hnames : n.names = [])
    (hsize : n.size? = none) (htypes : ∀ type ∈ n.types, .admitted type ∈ known) :
    (add n).Sound site words known nothing where
  inner := fun _ => inner_add hplain hnames hsize
  errors := by
    rintro b x b' hx
    obtain ⟨-, rfl⟩ := EStateM.Result.ok.inj hx
    rfl
  names := fun _ _ => rfl
  moves := fun _ hknown => movesTo_nothing (movesTo_add fun type htype => hknown _ (htypes type htype))
  tells := fun b => by
    have htells : (add n).Tells (fun _ => False) b := tells_add n
    exact exists_said htells nofun

/-- A plain node without names, a size or types. -/
theorem sound_add {n : Node} (hplain : n.isPlain = true) (hnames : n.names = [])
    (hsize : n.size? = none) (htypes : n.types = []) : (add n).Sound site words known nothing :=
  sound_add_typed hplain hnames hsize fun _ h => absurd (htypes ▸ h) List.not_mem_nil

/-! ### Words -/

/-- What is said of a word that was read may be said. -/
theorem isAbout_of_read {p : Problem} {structs : Structs} {kind : TokenKind}
    (h : t ∈ words) (hkind : t.kind = kind) (hne : kind ≠ .endOfFile)
    (hp : p.IsAbout [t] structs) : p.IsAbout (withoutEnds words) structs := by
  refine hp.mono (fun u hu => ?_) rfl
  obtain rfl := List.mem_singleton.1 hu
  exact mem_withoutEnds h hkind hne

theorem sound_intLiteral (h : t ∈ words) (hkind : t.kind = .int) :
    (intLiteral t.text).Sound site words known nothing := by
  refine .of_inner (inner_intLiteral _) (grafts_intLiteral _)
    (fun _ _ => movesTo_nothing (movesTo_intLiteral _)) (fun _ => tells_intLiteral _) ?_
  rintro b p ⟨rfl, hnone⟩
  exact isAbout_of_read h hkind nofun ⟨t, List.mem_singleton_self _, rfl, .inl ⟨hkind, hnone⟩⟩

theorem sound_floatLiteral (h : t ∈ words) (hkind : t.kind = .float) :
    (floatLiteral t.text).Sound site words known nothing := by
  refine .of_inner (inner_floatLiteral _) (grafts_floatLiteral _)
    (fun _ _ => movesTo_nothing (movesTo_floatLiteral _)) (fun _ => tells_floatLiteral _) ?_
  rintro b p ⟨rfl, hnone⟩
  exact isAbout_of_read h hkind nofun ⟨t, List.mem_singleton_self _, rfl, .inr ⟨hkind, hnone⟩⟩

theorem sound_stringLiteral (text : String) : (stringLiteral text).Sound site words known nothing :=
  .of_static (inner_stringLiteral _) (grafts_stringLiteral _) (fun _ _ => movesTo_stringLiteral _)
    fun _ => tells_stringLiteral _

theorem sound_name (text : String) : (name text).Sound site words known nothing :=
  .of_static (inner_name _) (grafts_name _) (fun _ _ => movesTo_name _) fun _ => tells_name _

theorem sound_field (base : NodeId) (text : String) : (field base text).Sound site words known nothing :=
  .of_static (inner_field base text) (grafts_field base text) (fun _ _ => movesTo_field base text)
    fun _ => tells_field base text

theorem sound_intrinsicCall (h : t ∈ words) (hkind : t.kind = .intrinsic)
    (arguments : Option NodeId) : (intrinsicCall t.text arguments).Sound site words known nothing := by
  refine .of_inner (inner_intrinsicCall t.text arguments) (grafts_intrinsicCall t.text arguments)
    (fun _ _ => movesTo_nothing (movesTo_intrinsicCall t.text arguments))
    (fun _ => tells_intrinsicCall t.text arguments) ?_
  rintro b p ⟨rfl, hnone⟩
  exact isAbout_of_read h hkind nofun ⟨t, List.mem_singleton_self _, rfl, hkind, hnone⟩

theorem sound_semantic (h : t ∈ words) (hkind : t.kind = .name) :
    (semantic t.text).Sound site words known nothing := by
  refine .of_inner (inner_semantic _) (grafts_semantic _)
    (fun _ _ => movesTo_nothing (movesTo_semantic _)) (fun _ => tells_semantic _) ?_
  rintro b p ⟨rfl, hnone⟩
  exact isAbout_of_read h hkind nofun ⟨t, List.mem_singleton_self _, rfl, hkind, hnone⟩

/-! ### Types -/

/-- A built-in type is admitted as well. -/
theorem movesTo_builtIn {m : Build DataType} {b : Builder} {gives : DataType → List Fact}
    (hgives : ∀ type, gives type ⊆ [.builtIn type, .admitted type]) (h : m.MovesTo Plain b) :
    m.MovesTo (fun type structs => ∀ k ∈ gives type, k.Holds structs) b := by
  intro type b' htype
  obtain ⟨hmoves, hplain⟩ := h type b' htype
  refine ⟨hmoves, fun k hk => ?_⟩
  have hmem := hgives type hk
  simp only [List.mem_cons, List.not_mem_nil, or_false] at hmem
  rcases hmem with rfl | rfl
  · exact hplain
  · exact .inl hplain

/-- A type word that was read. -/
theorem sound_namedType {gives : DataType → List Fact} (h : t ∈ words)
    (hkind : t.kind = .typeName) (hgives : ∀ type, gives type ⊆ [.builtIn type, .admitted type]) :
    (namedType t.text).Sound site words known gives := by
  refine .of_inner (inner_namedType _) ((apart_namedType _).grafts [])
    (fun _ _ => movesTo_builtIn hgives (movesTo_namedType _)) (fun _ => tells_namedType _) ?_
  rintro b p ⟨rfl, hnone⟩
  exact isAbout_of_read h hkind nofun ⟨t, List.mem_singleton_self _, rfl, .inr ⟨hkind, hnone⟩⟩

/-- A word that stands for a type by itself. -/
theorem sound_standard {gives : DataType → List Fact} (h : (DataType.ofKeyword text).isSome)
    (hgives : ∀ type, gives type ⊆ [.builtIn type, .admitted type]) :
    (namedType text).Sound site words known gives := by
  refine .of_inner (inner_namedType _) ((apart_namedType _).grafts [])
    (fun _ _ => movesTo_builtIn hgives (movesTo_namedType _)) (fun _ => tells_namedType _) ?_
  rintro b p ⟨rfl, hnone⟩
  rw [hnone] at h
  contradiction

theorem sound_structType (h : t ∈ words) (hkind : t.kind = .name) :
    (structType t.text).Sound site words known fun type => [.admitted type] := by
  have hmoves {b : Builder} : (structType t.text).MovesTo
      (fun type structs => ∀ k ∈ [Fact.admitted type], k.Holds structs) b := by
    intro type b' htype
    obtain ⟨hmoves, hadmitted⟩ := movesTo_structType t.text type b' htype
    exact ⟨hmoves, List.forall_mem_singleton.2 hadmitted⟩
  refine .of_inner (inner_structType _) ((apart_structType _).grafts []) (fun _ _ => hmoves)
    (fun _ => tells_structType _) ?_
  rintro b p ⟨rfl, hnone⟩
  exact isAbout_of_read h hkind nofun ⟨t, List.mem_singleton_self _, rfl, .inl ⟨hkind, hnone⟩⟩

theorem sound_vectorType {gives : DataType → List Fact} (h : .builtIn type ∈ known)
    (hgives : ∀ type, gives type ⊆ [.builtIn type, .admitted type]) (size : NodeId) :
    (vectorType type size).Sound site words known gives :=
  .of_inner (inner_vectorType type size) (grafts_vectorType type size)
    (fun _ hknown => movesTo_builtIn hgives (movesTo_vectorType (hknown _ h).1 size))
    (fun _ => tells_vectorType type size) fun _ _ hp => Problem.isAbout_of_isStatic hp

theorem sound_matrixType {gives : DataType → List Fact} (h : .builtIn type ∈ known)
    (hgives : ∀ type, gives type ⊆ [.builtIn type, .admitted type]) (rows columns : NodeId) :
    (matrixType type rows columns).Sound site words known gives :=
  .of_inner (inner_matrixType type rows columns) (grafts_matrixType type rows columns)
    (fun _ hknown => movesTo_builtIn hgives (movesTo_matrixType (hknown _ h).1 rows columns))
    (fun _ => tells_matrixType type rows columns) fun _ _ hp => Problem.isAbout_of_isStatic hp

/-! ### Other steps inside a part of a program -/

theorem sound_element (array position : NodeId) : (element array position).Sound site words known nothing :=
  .of_static (inner_element array position) (grafts_element array position)
    (fun _ _ => movesTo_element array position) fun _ => tells_element array position

theorem sound_call (callee : NodeId) (arguments : Option NodeId) :
    (call callee arguments).Sound site words known nothing :=
  .of_static (inner_call callee arguments) (grafts_call callee arguments)
    (fun _ _ => movesTo_call callee arguments) fun _ => tells_call callee arguments

theorem sound_declaration (q : Qualifiers) (h : .admitted type ∈ known) (text : String)
    (size tie initializer : Option NodeId) :
    (declaration q type text size tie initializer).Sound site words known nothing :=
  .of_static (inner_declaration q type text size tie initializer)
    (grafts_declaration q type text size tie initializer)
    (fun _ hknown => movesTo_declaration q (hknown _ h) text size tie initializer)
    fun _ => tells_declaration q type text size tie initializer

theorem sound_structDeclarator (text : String) (size tie : Option NodeId) :
    (structDeclarator text size tie).Sound site words known nothing :=
  .of_static (inner_structDeclarator text size tie) (grafts_structDeclarator text size tie)
    (fun _ _ => movesTo_structDeclarator text size tie) fun _ => tells_structDeclarator text size tie

theorem sound_parameter (q : Qualifiers) (h : .admitted type ∈ known) (text : Option String)
    (size tie : Option NodeId) : (parameter q type text size tie).Sound site words known nothing :=
  .of_static (inner_parameter q type text size tie) (grafts_parameter q type text size tie)
    (fun _ hknown => movesTo_parameter q (hknown _ h) text size tie)
    fun _ => tells_parameter q type text size tie

/-! ### Functions and structs -/

/-- A step that enters or leaves a function or closes a struct. -/
theorem Sound.of_outer {pre : List Part} {post : α → List Part} (hsite : site.isInner = false)
    (hgrafts : step.Grafts pre post) (hnames : ∀ b, (step.after b).structs.names = b.structs.names)
    (hmoves : ∀ b, (∀ k ∈ known, k.Holds b.structs) → step.MovesTo Unknown b)
    (htells : ∀ b, step.Tells Problem.IsStatic b) : step.Sound site words known nothing where
  inner := fun h => Bool.noConfusion (hsite.symm.trans h)
  errors := fun _ _ _ hx => hgrafts.errors_eq hx
  names := fun _ => hnames
  moves := fun b hb => movesTo_nothing (hmoves b hb)
  tells := fun b => exists_said (htells b) fun _ hp => Problem.isAbout_of_isStatic hp

theorem sound_prototype (hsite : site.isInner = false) (h : .admitted type ∈ known) (text : String)
    (parameters tie : Option NodeId) : (prototype type text parameters tie).Sound site words known nothing :=
  .of_outer hsite (grafts_prototype type text parameters tie) (fun _ => rfl)
    (fun _ hknown => movesTo_prototype (hknown _ h) text parameters tie)
    fun _ => tells_prototype type text parameters tie

theorem sound_definition (hsite : site.isInner = false) (head body : NodeId) :
    (definition head body).Sound site words known nothing :=
  .of_outer hsite (grafts_definition head body) (fun _ => rfl) (fun _ _ => movesTo_definition head body)
    fun _ => tells_definition head body

theorem sound_endFunction (hsite : site.isInner = false) : endFunction.Sound site words known nothing :=
  .of_outer hsite ((apart_setCurrent none).grafts []) (fun _ => rfl) (fun _ _ => movesTo_setCurrent none)
    fun _ => tells_setCurrent none

theorem sound_structDeclaration (hsite : site.isInner = false) (id : UInt32) (members : Option NodeId) :
    (structDeclaration id members).Sound site words known nothing := by
  refine .of_outer hsite (grafts_structDeclaration id members) (fun b => ?_)
    (fun _ _ => movesTo_structDeclaration id members) fun _ => tells_structDeclaration id members
  unfold after
  rw [structDeclaration_apply]
  cases b.collectMembers members with
  | ok collected => exact Structs.names_finalize ..
  | error e => rfl

/-- Opening a struct says nothing, but from there on its name stands for a type. -/
theorem sound_beginStruct (text : String) : (beginStruct text).Sound .anywhere words known nothing where
  inner := nofun
  errors := fun _ _ _ hx => ((apart_beginStruct text).grafts []).errors_eq hx
  names := fun h => absurd rfl h
  moves := fun _ _ => movesTo_nothing (movesTo_beginStruct text)
  tells := fun _ => ⟨[], nofun, blind_beginStruct text⟩

end Build

end ShaderLang
