/-
**Texts and names stay where they are.**

The pool and the table of names only grow at their ends.  So a text keeps its number when a name occurs
or a literal is added, it stays the first of its kind, an occurrence keeps its text, and what is added
last has the text that it was added for.

Main definitions:

* `ShaderLang.StringPool.meaning`, `ShaderLang.StringPool.literalText` — the text that a literal stands
  for.

Main results:

* `ShaderLang.Names.texts_occur`, `ShaderLang.Names.occurrences_occur`,
  `ShaderLang.StringPool.texts_addLiteral` — pool and table grow at their ends;
* `ShaderLang.StringPool.get?_of_prefix`, `ShaderLang.StringPool.find?_of_prefix` — texts keep their
  numbers, also as the first of their kind;
* `ShaderLang.Names.text?_occur`, `ShaderLang.StringPool.get?_of_addLiteral` — what is added has its text.
-/

import ShaderLang.Names

set_option relaxedAutoImplicit false
set_option autoImplicit false

namespace ShaderLang

theorem prefix_push {α : Type} (xs : Array α) (x : α) : xs.toList <+: (xs.push x).toList := by
  rw [Array.toList_push]
  exact List.prefix_append _ _

/-- A place in front is the same place in what continues it. -/
theorem getElem?_of_prefix {α : Type} {xs ys : Array α} (h : xs.toList <+: ys.toList) {i : Nat} {x : α}
    (hx : xs[i]? = some x) : ys[i]? = some x := by
  obtain ⟨rest, hrest⟩ := h
  have hlt : i < xs.toList.length := (Array.getElem?_eq_some_iff.1 hx).1
  rw [← Array.getElem?_toList] at hx ⊢
  rw [← hrest, List.getElem?_append_left hlt, hx]

/-! ### Texts -/

namespace StringPool

variable {p p' : StringPool} {id : StringId} {text : String}

theorem find?_eq (p : StringPool) (text : String) :
    p.find? text = (p.texts.toList.findIdx? (· == text)).map StringId.mk := by
  rw [find?, ← List.findIdx?_toArray]

theorem get?_of_find? (h : p.find? text = some id) : p.get? id = some text := by
  unfold find? at h
  obtain ⟨i, hi, rfl⟩ := Option.map_eq_some_iff.1 h
  obtain ⟨hlt, heq, -⟩ := Array.findIdx?_eq_some_iff_getElem.1 hi
  show p.texts[i]? = some text
  rw [Array.getElem?_eq_getElem hlt]
  exact congrArg some (beq_iff_eq.1 heq)

/-- A text is found if the pool holds it. -/
theorem find?_eq_none_iff : p.find? text = none ↔ text ∉ p.texts := by
  rw [find?, Option.map_eq_none_iff, Array.findIdx?_eq_none_iff]
  constructor
  · intro hall hmem
    simpa using hall text hmem
  · intro hne x hx
    simpa using fun heq : x = text => hne (heq ▸ hx)

/-- Texts keep their numbers. -/
theorem get?_of_prefix (h : p.texts.toList <+: p'.texts.toList) (hid : p.get? id = some text) :
    p'.get? id = some text := getElem?_of_prefix h hid

/-- The first of the texts that are equal stays the first. -/
theorem find?_of_prefix (h : p.texts.toList <+: p'.texts.toList) (hid : p.find? text = some id) :
    p'.find? text = some id := by
  obtain ⟨rest, hrest⟩ := h
  rw [find?_eq] at hid ⊢
  obtain ⟨i, hi, rfl⟩ := Option.map_eq_some_iff.1 hid
  rw [← hrest, List.findIdx?_append, hi]
  rfl

/-- A new text is found where it was added. -/
theorem find?_add_nextId (h : p.find? text = none) : (p.add text).find? text = some p.nextId := by
  rw [find?_eq, Option.map_eq_none_iff] at h
  rw [find?_eq, add, Array.toList_push, List.findIdx?_append, h]
  simp [nextId, size]

variable (p) (literal : String) (hasQuotes : Bool)

/-- The text that a literal stands for. -/
def meaning : String :=
  String.ofList (Text.unescape (if hasQuotes then unquote literal.toList else literal.toList))

/-- The text that a literal between quotes stands for. -/
def literalText (literal : String) : String := String.ofList (Text.unescape (unquote literal.toList))

theorem texts_addLiteral : p.texts.toList <+: (p.addLiteral literal hasQuotes).2.texts.toList := by
  unfold addLiteral
  dsimp only
  split
  · exact List.prefix_rfl
  · exact prefix_push _ _

/-- A literal that has a number has its text there. -/
theorem get?_of_addLiteral (h : (p.addLiteral literal hasQuotes).1 = some id) :
    (p.addLiteral literal hasQuotes).2.get? id = some (meaning literal hasQuotes) := by
  unfold addLiteral at h ⊢
  unfold meaning
  dsimp only at h ⊢
  split at h
  · contradiction
  · next hne =>
      obtain rfl := Option.some.inj h
      exact p.get?_add_nextId _

/-- The number of a literal gives its text back; the empty text has no number. -/
theorem text_addLiteral :
    ((p.addLiteral literal true).1.bind (p.addLiteral literal true).2.get?).getD ""
      = literalText literal := by
  unfold addLiteral literalText
  simp only [if_true]
  split
  · next h =>
      rw [h]
      rfl
  · simp

end StringPool

/-! ### Names -/

namespace Names

variable (n : Names) (name : String)

theorem texts_occur : n.pool.texts.toList <+: (n.occur name).2.pool.texts.toList := by
  unfold occur
  split
  · exact List.prefix_rfl
  · exact prefix_push _ _

theorem occurrences_occur :
    n.table.occurrences.toList <+: (n.occur name).2.table.occurrences.toList := by
  unfold occur
  split <;> exact prefix_push _ _

/-- Occurrences keep their texts. -/
theorem text?_of_prefix {n n' : Names} (htexts : n.pool.texts.toList <+: n'.pool.texts.toList)
    (htable : n.table.occurrences.toList <+: n'.table.occurrences.toList) {id : NameId} {text : String}
    (h : n.text? id = some text) : n'.text? id = some text := by
  obtain ⟨o, ho, hpool⟩ := Option.bind_eq_some_iff.1 h
  exact Option.bind_eq_some_iff.2
    ⟨o, getElem?_of_prefix htable ho, StringPool.get?_of_prefix htexts hpool⟩

/-- Occurrences keep their texts where a name occurs. -/
theorem text?_occur_of_some {id : NameId} {text : String} (h : n.text? id = some text) :
    (n.occur name).2.text? id = some text :=
  text?_of_prefix (n.texts_occur name) (n.occurrences_occur name) h

/-- Occurrences keep their texts where a literal is added. -/
theorem text?_addLiteral_of_some (literal : String) (hasQuotes : Bool) {id : NameId} {text : String}
    (h : n.text? id = some text) : (n.addLiteral literal hasQuotes).2.text? id = some text := by
  have htexts : n.pool.texts.toList <+: (n.addLiteral literal hasQuotes).2.pool.texts.toList :=
    n.pool.texts_addLiteral literal hasQuotes
  exact text?_of_prefix htexts (List.prefix_refl n.table.occurrences.toList) h

/-- A new occurrence has the text of its name. -/
theorem text?_occur : (n.occur name).2.text? (n.occur name).1 = some name := by
  unfold occur
  split
  · next text hfind =>
      have htable : (n.table.add text).get? n.table.nextId = some ⟨text, 0⟩ := by
        simp [NameTable.get?, NameTable.add, NameTable.nextId, NameTable.size]
      exact Option.bind_eq_some_iff.2 ⟨_, htable, StringPool.get?_of_find? hfind⟩
  · have htable : (n.table.add n.pool.nextId).get? n.table.nextId = some ⟨n.pool.nextId, 0⟩ := by
      simp [NameTable.get?, NameTable.add, NameTable.nextId, NameTable.size]
    exact Option.bind_eq_some_iff.2 ⟨_, htable, n.pool.get?_add_nextId name⟩

end Names

end ShaderLang
