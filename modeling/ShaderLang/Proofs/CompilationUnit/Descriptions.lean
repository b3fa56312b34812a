/-
**A description stays on one line.**

What is said of a node is put together of fixed words, numbers, quoted texts and names.  Words and numbers
hold no line feed, and in a quoted text it is written as an escape.  So only a name can bring a line feed
into a description, and names come from tokens.

Main definitions:

* `ShaderLang.Text.OneLine` — a text without line feeds.

Main results:

* `ShaderLang.Text.lines_join` — texts without line feeds, each with its end, are the lines of what they
  make up;
* `ShaderLang.Text.oneLine_quoted`, `ShaderLang.oneLine_floatText` — quoted texts and numbers;
* `ShaderLang.CompilationUnit.oneLine_describe` — **a description is one line if the names are**.
-/

import ShaderLang.CompilationUnit
import ShaderLang.Proofs.Token.Excerpts

set_option relaxedAutoImplicit false
set_option autoImplicit false

namespace ShaderLang

namespace Text

/-! ### Texts without line feeds -/

/-- The text holds no line feed. -/
def OneLine (s : String) : Prop := '\n' ∉ s.toList

instance (s : String) : Decidable (OneLine s) := inferInstanceAs (Decidable (¬ '\n' ∈ s.toList))

variable {s t : String} {cs : List Char} {l : List String}

@[simp] theorem oneLine_append : OneLine (s ++ t) ↔ OneLine s ∧ OneLine t := by
  simp [OneLine, not_or]

@[simp] theorem oneLine_ofList : OneLine (String.ofList cs) ↔ '\n' ∉ cs := by
  simp [OneLine]

theorem oneLine_join (h : ∀ t ∈ l, OneLine t) : OneLine (String.join l) := by
  simpa [OneLine] using h

theorem oneLine_intercalate (hs : OneLine s) (h : ∀ t ∈ l, OneLine t) : OneLine (s.intercalate l) := by
  induction l with
  | nil => simp [OneLine]
  | cons t l ih =>
      obtain ⟨ht, hl⟩ := List.forall_mem_cons.1 h
      cases l with
      | nil => rwa [String.intercalate_singleton]
      | cons t' l =>
          rw [String.intercalate_cons_cons]
          exact oneLine_append.2 ⟨oneLine_append.2 ⟨ht, hs⟩, ih hl⟩

theorem notMem_replicate {c : Char} (hc : '\n' ≠ c) (n : Nat) : '\n' ∉ List.replicate n c :=
  fun hmem => hc (List.eq_of_mem_replicate hmem)

/-- Digits are no line feeds. -/
theorem notMem_toDigits {b : Nat} (hb : 1 < b) (n : Nat) : '\n' ∉ Nat.toDigits b n := by
  induction n using Nat.strongRecOn with
  | ind n ih =>
      by_cases hlt : n < b
      · rw [Nat.toDigits_of_lt_base hlt]
        simp
      · have hless : n / b < n := Nat.div_lt_self (by omega) hb
        rw [Nat.toDigits_of_base_le hb (Nat.not_lt.1 hlt), List.mem_append, not_or]
        exact ⟨ih _ hless, by simp⟩

theorem oneLine_toString (n : Nat) : OneLine (toString n) := by
  rw [Nat.toString_eq_ofList_toDigits, oneLine_ofList]
  exact notMem_toDigits (by decide) n

theorem oneLine_toString_int (i : Int) : OneLine (toString i) := by
  cases i with
  | ofNat n => exact oneLine_toString n
  | negSucc n => exact oneLine_append.2 ⟨by decide, oneLine_toString (n + 1)⟩

/-- Between quotes a line feed is written as an escape. -/
theorem oneLine_quotedChar (c : Char) : OneLine (quotedChar c) := by
  unfold quotedChar
  split
  case h_7 hline _ _ =>
      split
      · simpa [OneLine] using Ne.symm hline
      · have hdigits : OneLine (String.ofList (Nat.toDigits 16 c.toNat)) :=
          oneLine_ofList.2 (notMem_toDigits (by decide) _)
        exact oneLine_append.2 ⟨oneLine_append.2 ⟨by decide, hdigits⟩, by decide⟩
  all_goals decide

theorem oneLine_quoted (s : String) : OneLine (quoted s) := by
  have hjoin : OneLine (String.join (s.toList.map quotedChar)) :=
    oneLine_join (List.forall_mem_map.2 fun c _ => oneLine_quotedChar c)
  exact oneLine_append.2 ⟨oneLine_append.2 ⟨by decide, hjoin⟩, by decide⟩

/-- A text without line feeds is the only line up to its end. -/
theorem lines_line (h : '\n' ∉ cs) : lines (cs ++ ['\n']) = [cs] := by
  induction cs with
  | nil => rfl
  | cons c cs ih =>
      rw [List.mem_cons, not_or] at h
      rw [List.cons_append, lines_cons (Ne.symm h.1), ih h.2]
      rfl

/-- **Texts without line feeds, each with its end, are the lines of what they make up.** -/
theorem lines_join (h : ∀ t ∈ l, OneLine t) :
    lines (String.join (l.map (· ++ "\n"))).toList = l.map String.toList := by
  induction l with
  | nil => rfl
  | cons t l ih =>
      obtain ⟨ht, hl⟩ := List.forall_mem_cons.1 h
      have htext : (String.join ((t :: l).map (· ++ "\n"))).toList =
          t.toList ++ '\n' :: (String.join (l.map (· ++ "\n"))).toList := by simp
      rw [htext, lines_append, lines_line ht, ih hl]
      rfl

end Text

/-! ### Numbers -/

open Text

namespace Decimal

theorem notMem_digits (d : Decimal) : '\n' ∉ d.digits := by
  intro hmem
  have hdigits : '\n' ∈ (Nat.toDigits 10 d.significand).reverse :=
    (List.dropWhile_sublist _).mem (List.mem_reverse.1 hmem)
  exact notMem_toDigits (by decide) _ (List.mem_reverse.1 hdigits)

variable {digits : List Char}

theorem oneLine_positionalText (h : '\n' ∉ digits) (point : Int) :
    OneLine (positionalText digits point) := by
  have hzeros : ∀ n, '\n' ∉ List.replicate n '0' := notMem_replicate (by decide)
  unfold positionalText
  split
  · have hall : '\n' ∉ List.replicate (-point).toNat '0' ++ digits := by simp [h, hzeros]
    exact oneLine_append.2 ⟨by decide, oneLine_ofList.2 hall⟩
  · have hwhole : '\n' ∉ digits.take point.toNat ++ List.replicate (point.toNat - digits.length) '0' := by
      rw [List.mem_append, not_or]
      exact ⟨fun hmem => h (List.mem_of_mem_take hmem), hzeros _⟩
    have hfraction : '\n' ∉ if (digits.drop point.toNat).isEmpty then ['0'] else digits.drop point.toNat := by
      split
      · decide
      · exact fun hmem => h (List.mem_of_mem_drop hmem)
    exact oneLine_append.2 ⟨oneLine_append.2 ⟨oneLine_ofList.2 hwhole, by decide⟩,
      oneLine_ofList.2 hfraction⟩

theorem oneLine_scientificText (h : '\n' ∉ digits) (point : Int) :
    OneLine (scientificText digits point) := by
  have hfirst : '\n' ∉ digits.take 1 := fun hmem => h (List.mem_of_mem_take hmem)
  have hfraction : '\n' ∉ digits.drop 1 := fun hmem => h (List.mem_of_mem_drop hmem)
  have hpoint : OneLine (if (digits.drop 1).isEmpty then "" else "." ++ String.ofList (digits.drop 1)) := by
    split
    · decide
    · exact oneLine_append.2 ⟨by decide, oneLine_ofList.2 hfraction⟩
  exact oneLine_append.2 ⟨oneLine_append.2 ⟨oneLine_append.2 ⟨oneLine_ofList.2 hfirst, hpoint⟩, by decide⟩,
    oneLine_toString_int _⟩

theorem oneLine_text (d : Decimal) : OneLine d.text := by
  unfold text
  split
  · exact oneLine_positionalText d.notMem_digits _
  · exact oneLine_scientificText d.notMem_digits _

end Decimal

theorem oneLine_floatText (x : Float) : OneLine (floatText x) := by
  unfold floatText
  split
  · decide
  · split <;> decide
  · next negative significand exponent _ =>
      have hmagnitude :
          OneLine (if significand = 0 then "0.0" else (Decimal.shortest significand exponent).text) := by
        split
        · decide
        · exact Decimal.oneLine_text _
      cases negative with
      | false => exact hmagnitude
      | true => exact oneLine_append.2 ⟨by decide, hmagnitude⟩

theorem Constant.oneLine_text (c : Constant) : OneLine c.text := by
  cases c with
  | signed v => exact oneLine_toString_int _
  | unsigned v => exact oneLine_append.2 ⟨oneLine_toString _, by decide⟩
  | floating v => exact oneLine_floatText v

/-! ### Operators, types, qualifiers and semantics -/

theorem BinaryOp.oneLine_symbol (op : BinaryOp) : OneLine op.symbol := by
  cases op <;> decide

theorem AssignOp.oneLine_symbol (op : AssignOp) : OneLine op.symbol := by
  cases op with
  | assign => decide
  | compound op => exact oneLine_append.2 ⟨op.oneLine_symbol, by decide⟩

theorem Qualifiers.keywords_subset (a : Qualifiers) (table : List (String × Qualifiers)) :
    a.keywords table ⊆ table.map Prod.fst := by
  induction table generalizing a with
  | nil => exact List.nil_subset _
  | cons entry table ih =>
      rw [keywords, List.map_cons]
      split
      · exact List.cons_subset_cons _ (ih _)
      · exact List.subset_cons_of_subset _ (ih _)

theorem Qualifiers.oneLine_text (a : Qualifiers) : OneLine a.text := by
  have htable : ∀ keyword ∈ table.map Prod.fst, OneLine keyword := by decide
  exact oneLine_intercalate (by decide) fun keyword hkeyword =>
    htable keyword (a.keywords_subset table hkeyword)

theorem Semantic.oneLine_text (s : Semantic) : OneLine s.text := by
  have htable : ∀ kind ∈ SemanticKind.all, OneLine kind.name := by decide +kernel
  exact oneLine_append.2 ⟨htable _ s.kind.mem_all, oneLine_toString _⟩

theorem DataType.oneLine_numberText {label : String} (h : OneLine label) (id : UInt32) :
    OneLine (numberText label id) :=
  oneLine_append.2 ⟨oneLine_append.2 ⟨h, by decide⟩, oneLine_toString _⟩

theorem DataType.oneLine_text (t : DataType) : OneLine t.text := by
  have htable : ∀ b ∈ BaseType.all, OneLine b.name := by decide
  have hextents : OneLine t.extentText := by
    unfold extentText
    split
    · exact oneLine_append.2 ⟨oneLine_append.2 ⟨oneLine_toString _, by decide⟩, oneLine_toString _⟩
    · exact oneLine_toString _
    · decide
  unfold text
  split
  · next b _ => exact oneLine_append.2 ⟨htable b b.mem_all, hextents⟩
  · refine oneLine_numberText ?_ _
    split <;> decide

/-! ### Descriptions -/

theorem Node.oneLine_label (n : Node) : OneLine n.label := by
  unfold Node.label
  split
  case h_21 kind _ _ => cases kind <;> decide
  all_goals decide

namespace CompilationUnit

variable {u : CompilationUnit}

/-- The names of the program and of its structs hold no line feed. -/
structure OneLineNames (u : CompilationUnit) : Prop where
  names : ∀ id text, u.names.text? id = some text → OneLine text
  structs : ∀ id name, u.structs.nameOf id = some name → OneLine name

namespace OneLineNames

theorem nameText (h : u.OneLineNames) (id : NameId) : OneLine (u.nameText id) := by
  unfold CompilationUnit.nameText
  cases hname : u.names.text? id with
  | none => decide
  | some text => exact h.names id text hname

theorem typeText (h : u.OneLineNames) (t : DataType) : OneLine (u.structs.typeText t) := by
  unfold Structs.typeText
  split
  · cases hname : u.structs.nameOf t.base with
    | none => exact DataType.oneLine_numberText (by decide) _
    | some name => exact h.structs t.base name hname
  · exact t.oneLine_text

/-- What is shown behind a label stays on one line. -/
theorem details (h : u.OneLineNames) (n : Node) : ∀ t ∈ u.details n, OneLine t := by
  have hqualifiers : ∀ q : Qualifiers, ∀ t ∈ if q.isEmpty then [] else [q.text], OneLine t := by
    intro q t ht
    split at ht
    · contradiction
    · exact List.mem_singleton.1 ht ▸ q.oneLine_text
  cases n with
  | int value isUnsigned => exact List.forall_mem_singleton.2 (Constant.oneLine_text _)
  | float value => exact List.forall_mem_singleton.2 (oneLine_floatText value)
  | bool value => exact List.forall_mem_singleton.2 (by cases value <;> decide)
  | string id => exact List.forall_mem_singleton.2 (oneLine_quoted _)
  | name id => exact List.forall_mem_singleton.2 (h.nameText id)
  | unary op => exact List.forall_mem_singleton.2 (by cases op <;> decide)
  | binary op => exact List.forall_mem_singleton.2 op.oneLine_symbol
  | assign op => exact List.forall_mem_singleton.2 op.oneLine_symbol
  | cast type => exact List.forall_mem_singleton.2 (h.typeText type)
  | construct type => exact List.forall_mem_singleton.2 (h.typeText type)
  | intrinsicCall intrinsic => exact List.forall_mem_singleton.2 (by cases intrinsic <;> decide)
  | field base name => exact List.forall_mem_singleton.2 (oneLine_append.2 ⟨by decide, h.nameText name⟩)
  | declaration qualifiers type name =>
      exact List.forall_mem_append.2 ⟨hqualifiers qualifiers, List.forall_mem_cons.2
        ⟨h.typeText type, List.forall_mem_singleton.2 (h.nameText name)⟩⟩
  | structDeclaration id name =>
      have hnumber : OneLine ("(" ++ toString id.toNat ++ ")") :=
        oneLine_append.2 ⟨oneLine_append.2 ⟨by decide, oneLine_toString _⟩, by decide⟩
      exact List.forall_mem_cons.2 ⟨h.nameText name, List.forall_mem_singleton.2 hnumber⟩
  | structMember type => exact List.forall_mem_singleton.2 (h.typeText type)
  | structDeclarator name => exact List.forall_mem_singleton.2 (h.nameText name)
  | parameter qualifiers type name =>
      have hname : ∀ t ∈ (name.map u.nameText).toList, OneLine t := by
        cases name with
        | none => exact nofun
        | some name => exact List.forall_mem_singleton.2 (h.nameText name)
      exact List.forall_mem_append.2 ⟨List.forall_mem_append.2
        ⟨hqualifiers qualifiers, List.forall_mem_singleton.2 (h.typeText type)⟩, hname⟩
  | prototype result name =>
      exact List.forall_mem_cons.2
        ⟨h.typeText result, List.forall_mem_singleton.2 (h.nameText name)⟩
  | jump jump => exact List.forall_mem_singleton.2 (by cases jump <;> decide)
  | semantic s => exact List.forall_mem_singleton.2 s.oneLine_text
  | _ => exact nofun

end OneLineNames

/-- **A description is one line if the names are.** -/
theorem oneLine_describe (h : u.OneLineNames) (n : Node) : OneLine (u.describe n) :=
  oneLine_intercalate (by decide) (List.forall_mem_cons.2 ⟨n.oneLine_label, h.details n⟩)

end CompilationUnit

end ShaderLang
