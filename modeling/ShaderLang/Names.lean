/-
**Pooled texts and names.**

Texts are kept in a pool in the order in which they came.  A string literal always adds its text,
unless it is empty; a name adds its text only when the pool does not hold it yet.  Every occurrence
of a name gets an entry of its own in the table of names, so that a later pass can resolve each
occurrence by itself.

Main definitions:

* `ShaderLang.StringPool` — texts in the order in which they came;
* `ShaderLang.StringPool.addLiteral` — the text of a string literal;
* `ShaderLang.NameTable`, `ShaderLang.Names` — occurrences of names, and the table over its pool;
* `ShaderLang.Names.occur` — a new occurrence of a name;
* `ShaderLang.Names.lastOccurrence` — the newest occurrence of a name.
-/

import ShaderLang.LastIndex
import ShaderLang.Node
import ShaderLang.Text.Escape

set_option relaxedAutoImplicit false
set_option autoImplicit false

namespace ShaderLang

/-- Texts in the order in which they came. -/
structure StringPool where
  texts : Array String
  deriving DecidableEq

namespace StringPool

/-- No texts. -/
def empty : StringPool := ⟨#[]⟩

/-- The number of texts. -/
def size (p : StringPool) : Nat := p.texts.size

/-- The text with a number. -/
def get? (p : StringPool) (id : StringId) : Option String := p.texts[id.index]?

/-- The first place of a text. -/
def find? (p : StringPool) (text : String) : Option StringId :=
  (p.texts.findIdx? (· == text)).map StringId.mk

/-- The number that the next text gets. -/
def nextId (p : StringPool) : StringId := ⟨p.size⟩

/-- Adds a text at the end. -/
def add (p : StringPool) (text : String) : StringPool := ⟨p.texts.push text⟩

@[simp] theorem get?_add_nextId (p : StringPool) (text : String) :
    (p.add text).get? p.nextId = some text := by
  simp [get?, add, nextId, size]

/-- Texts keep their numbers. -/
theorem get?_add_of_some {p : StringPool} {id : StringId} {old : String} (text : String)
    (h : p.get? id = some old) : (p.add text).get? id = some old := by
  have hlt : id.index < p.texts.size := (Array.getElem?_eq_some_iff.1 h).1
  rw [get?, add, Array.getElem?_push, if_neg (by omega)]
  exact h

/-- The characters between the quotes of a literal; a text that is not between quotes is kept. -/
def unquote (cs : List Char) : List Char :=
  match cs with
  | '"' :: rest => if rest.getLast? = some '"' then rest.dropLast else cs
  | _ => cs

/-- Adds the text that a literal stands for.  The empty text is not kept and has no number. -/
def addLiteral (p : StringPool) (literal : String) (hasQuotes : Bool) :
    Option StringId × StringPool :=
  let cs := if hasQuotes then unquote literal.toList else literal.toList
  match Text.unescape cs with
  | [] => (none, p)
  | text => (some p.nextId, p.add (String.ofList text))

end StringPool

/-- One occurrence of a name. -/
structure Occurrence where
  text : StringId
  /-- What the name was resolved to; nothing resolves names yet, so it is always zero. -/
  category : UInt8
  deriving DecidableEq, Repr

/-- The occurrences of names in the order in which they came. -/
structure NameTable where
  occurrences : Array Occurrence
  deriving DecidableEq

namespace NameTable

/-- No occurrences. -/
def empty : NameTable := ⟨#[]⟩

/-- The number of occurrences. -/
def size (t : NameTable) : Nat := t.occurrences.size

/-- The occurrence with a number. -/
def get? (t : NameTable) (id : NameId) : Option Occurrence := t.occurrences[id.index]?

/-- The number that the next occurrence gets. -/
def nextId (t : NameTable) : NameId := ⟨t.size⟩

/-- Adds an occurrence at the end. -/
def add (t : NameTable) (text : StringId) : NameTable := ⟨t.occurrences.push ⟨text, 0⟩⟩

end NameTable

/-- A table of names over a pool of texts. -/
structure Names where
  pool : StringPool
  table : NameTable
  deriving DecidableEq

namespace Names

/-- No texts and no names. -/
def empty : Names := ⟨.empty, .empty⟩

/-- The text of an occurrence. -/
def text? (n : Names) (id : NameId) : Option String :=
  (n.table.get? id).bind fun o => n.pool.get? o.text

/-- A new occurrence of a name.  Its text goes into the pool only if it is not there yet. -/
def occur (n : Names) (name : String) : NameId × Names :=
  match n.pool.find? name with
  | some text => (n.table.nextId, { n with table := n.table.add text })
  | none =>
      (n.table.nextId, { pool := n.pool.add name, table := n.table.add n.pool.nextId })

/-- The newest occurrence of a name. -/
def lastOccurrence (n : Names) (name : String) : Option NameId :=
  (lastIndex (fun o => n.pool.get? o.text == some name) n.table.occurrences.toList).map NameId.mk

/-- Adds the text of a string literal. -/
def addLiteral (n : Names) (literal : String) (hasQuotes : Bool) : Option StringId × Names :=
  let (id, pool) := n.pool.addLiteral literal hasQuotes
  (id, { n with pool })

end Names

end ShaderLang
