/-
**Pooled names are stable and canonical.**

Literals and names come in any order.  A literal always adds its text, so the pool may hold a text many
times; a name adds its text only if the pool does not hold it.  A name is looked for from the front of
the pool, and the pool grows at its end, so all occurrences of a name have the first number of its text,
whatever literals come in between.  An occurrence is looked for from the end of the table.

One invariant carries everything: the occurrences in the table are, in order, those of the names that
came, each with the number at which the pool finds the name (`ShaderLang.Names.records_filled`).

Main definitions:

* `ShaderLang.Names.Entry`, `ShaderLang.Names.filled` — literals and names, and the table after them;
* `ShaderLang.Names.Records` — the occurrences are those of some names;
* `ShaderLang.Names.Interned` — what holds of a table and its pool after all entries.

Main results:

* `ShaderLang.Names.records_filled` — the occurrences are those of the names that came;
* `ShaderLang.Names.interned_filled` — **names are stable and canonical**.
-/

import Mathlib.Data.List.Forall2
import Mathlib.Data.List.Induction
import ShaderLang.Proofs.Names.Texts
import ShaderLang.Proofs.Results

set_option relaxedAutoImplicit false
set_option autoImplicit false

namespace ShaderLang

/-- The last place of a property is the same in two lists that agree about it place by place. -/
theorem lastIndex_of_forall₂ {α β : Type} {p : α → Bool} {q : β → Bool} {xs : List α} {ys : List β}
    (h : List.Forall₂ (fun x y => p x = q y) xs ys) : lastIndex p xs = lastIndex q ys := by
  induction h with
  | nil => rfl
  | cons hxy _ ih => rw [lastIndex_cons, lastIndex_cons, ih, hxy]

/-- The last place of a property is the one behind which it does not hold. -/
theorem lastIndex_append_cons {α : Type} {p : α → Bool} {x : α} (xs : List α) {ys : List α}
    (hx : p x = true) (hys : ∀ y ∈ ys, p y = false) :
    lastIndex p (xs ++ x :: ys) = some xs.length := by
  have hdrop : (xs ++ x :: ys).drop (xs.length + 1) = ys := by
    rw [List.append_cons, List.drop_left' (by simp)]
  exact lastIndex_eq_some_iff.2 ⟨x, by simp, hx, by rwa [hdrop]⟩

namespace Names

/-- What is put into the pool and the table: a literal, with or without its quotes, or a name. -/
inductive Entry where
  | literal (text : String) (hasQuotes : Bool)
  | name (text : String)

/-- The name that an entry is, if it is one. -/
def Entry.name? : Entry → Option String
  | .literal _ _ => none
  | .name text => some text

/-- One more entry. -/
def enter (n : Names) : Entry → Names
  | .literal text hasQuotes => (n.addLiteral text hasQuotes).2
  | .name text => (n.occur text).2

/-- The table and the pool after all entries. -/
def filled (entries : List Entry) : Names := entries.foldl enter empty

/-- What holds of the table and the pool after all entries. -/
structure Interned (entries : List Entry) : Prop where
  literal {front rest : List Entry} {text : String} {hasQuotes : Bool} {id : StringId}
    (h : entries = front ++ .literal text hasQuotes :: rest)
    (hid : ((filled front).addLiteral text hasQuotes).1 = some id) :
      (filled entries).pool.get? id = some (StringPool.meaning text hasQuotes)
  name {front rest : List Entry} {text : String} (h : entries = front ++ .name text :: rest) :
    (filled entries).text? ((filled front).occur text).1 = some text
  canonical {i j : NameId} {o o' : Occurrence} (ho : (filled entries).table.get? i = some o)
    (ho' : (filled entries).table.get? j = some o') :
      ∃ text text', (filled entries).text? i = some text ∧ (filled entries).text? j = some text' ∧
        (o.text = o'.text ↔ text = text')
  pool (text : String) : ((filled entries).occur text).2.pool =
    if text ∈ (filled entries).pool.texts then (filled entries).pool
    else (filled entries).pool.add text
  last {front rest : List Entry} {text : String} (h : entries = front ++ .name text :: rest)
    (hrest : .name text ∉ rest) :
      (filled entries).lastOccurrence text = some ((filled front).occur text).1
  absent {text : String} : (filled entries).lastOccurrence text = none ↔ .name text ∉ entries

/-! ### One entry -/

variable {n n' n'' : Names} {names : List String} {text : String}

/-- The pool and the table of the first come first in those of the second. -/
structure Precedes (n n' : Names) : Prop where
  texts : n.pool.texts.toList <+: n'.pool.texts.toList
  occurrences : n.table.occurrences.toList <+: n'.table.occurrences.toList

theorem Precedes.trans (h : Precedes n n') (h' : Precedes n' n'') : Precedes n n'' :=
  ⟨h.texts.trans h'.texts, h.occurrences.trans h'.occurrences⟩

theorem precedes_enter (n : Names) (e : Entry) : Precedes n (n.enter e) := by
  cases e with
  | literal text hasQuotes => exact ⟨n.pool.texts_addLiteral text hasQuotes, List.prefix_rfl⟩
  | name text => exact ⟨n.texts_occur text, n.occurrences_occur text⟩

theorem fst_occur (n : Names) (text : String) : (n.occur text).1 = ⟨n.table.occurrences.size⟩ := by
  unfold occur
  split <;> rfl

/-- A name adds its text only if the pool does not hold it. -/
theorem pool_occur (n : Names) (text : String) :
    (n.occur text).2.pool = if text ∈ n.pool.texts then n.pool else n.pool.add text := by
  unfold occur
  cases hfind : n.pool.find? text with
  | none => rw [if_neg (StringPool.find?_eq_none_iff.1 hfind)]
  | some id =>
      have hmem : text ∈ n.pool.texts := by
        by_contra hne
        rw [StringPool.find?_eq_none_iff.2 hne] at hfind
        contradiction
      rw [if_pos hmem]

/-- A new occurrence has the number at which the pool finds its name. -/
theorem exists_occur (n : Names) (text : String) : ∃ id,
    (n.occur text).2.pool.find? text = some id ∧
      (n.occur text).2.table.occurrences.toList = n.table.occurrences.toList ++ [⟨id, 0⟩] := by
  unfold occur
  split
  · next id hid => exact ⟨id, hid, by simp [NameTable.add]⟩
  · next hnone => exact ⟨n.pool.nextId, StringPool.find?_add_nextId hnone, by simp [NameTable.add]⟩

/-! ### All entries -/

/-- The occurrences are those of the names, each with the number at which the pool finds its name. -/
def Records (names : List String) (n : Names) : Prop :=
  List.Forall₂ (fun text o => n.pool.find? text = some o.text) names n.table.occurrences.toList

/-- **An entry adds its name to those that are recorded.** -/
theorem Records.enter (h : Records names n) (e : Entry) :
    Records (names ++ e.name?.toList) (n.enter e) := by
  -- the pool grows, and what it finds stays where it is
  have hold : List.Forall₂ (fun text o => (n.enter e).pool.find? text = some o.text) names
      n.table.occurrences.toList :=
    h.imp fun _ _ hid => StringPool.find?_of_prefix (precedes_enter n e).texts hid
  cases e with
  | literal text hasQuotes =>
      rw [Entry.name?, Option.toList_none, List.append_nil]
      exact hold
  | name text =>
      obtain ⟨id, hid, htable⟩ := n.exists_occur text
      have hnew : (n.enter (.name text)).table.occurrences.toList =
          n.table.occurrences.toList ++ [⟨id, 0⟩] := htable
      rw [Records, hnew]
      exact List.rel_append hold (.cons hid .nil)

theorem filled_append (front rest : List Entry) :
    filled (front ++ rest) = rest.foldl Names.enter (filled front) := List.foldl_append

/-- The names of some entries, in order. -/
def namesOf (entries : List Entry) : List String := entries.filterMap Entry.name?

theorem mem_namesOf {entries : List Entry} : text ∈ namesOf entries ↔ .name text ∈ entries := by
  rw [namesOf, List.mem_filterMap]
  constructor
  · rintro ⟨e, he, htext⟩
    cases e with
    | literal => contradiction
    | name name =>
        obtain rfl := Option.some.inj htext
        exact he
  · intro h
    exact ⟨_, h, rfl⟩

/-- **The occurrences are those of the names that came.** -/
theorem records_filled (entries : List Entry) : Records (namesOf entries) (filled entries) := by
  induction entries using List.reverseRecOn with
  | nil => exact .nil
  | append_singleton entries e ih =>
      have hnames : namesOf (entries ++ [e]) = namesOf entries ++ e.name?.toList := by
        cases e <;> simp [namesOf, Entry.name?]
      rw [hnames, filled_append]
      exact ih.enter e

/-- Nothing goes away. -/
theorem precedes_foldl (n : Names) (rest : List Entry) : Precedes n (rest.foldl Names.enter n) := by
  induction rest generalizing n with
  | nil => exact ⟨List.prefix_rfl, List.prefix_rfl⟩
  | cons e rest ih => exact (precedes_enter n e).trans (ih _)

/-- What an entry added is still there at the end. -/
theorem precedes_filled (front rest : List Entry) (e : Entry) :
    Precedes ((filled front).enter e) (filled (front ++ e :: rest)) := by
  rw [filled_append]
  exact precedes_foldl _ rest

namespace Records

/-- An occurrence has the text that the pool finds at its number. -/
theorem exists_text (h : Records names n) {i : NameId} {o : Occurrence}
    (ho : n.table.get? i = some o) :
    ∃ text, n.text? i = some text ∧ n.pool.find? text = some o.text := by
  have hmem : o ∈ n.table.occurrences.toList := Array.mem_toList_iff.2 (Array.mem_of_getElem? ho)
  obtain ⟨text, -, hfind⟩ := exists_of_forall₂_right h hmem
  exact ⟨text, Option.bind_eq_some_iff.2 ⟨o, ho, StringPool.get?_of_find? hfind⟩, hfind⟩

/-- The newest occurrence of a name is the last of the names that is the same. -/
theorem lastOccurrence_eq (h : Records names n) (text : String) :
    n.lastOccurrence text = (lastIndex (· == text) names).map NameId.mk := by
  have hagree : List.Forall₂ (fun o name => (n.pool.get? o.text == some text) = (name == text))
      n.table.occurrences.toList names := by
    refine h.flip.imp fun o name hfind => ?_
    rw [StringPool.get?_of_find? hfind]
    rfl
  rw [lastOccurrence, lastIndex_of_forall₂ hagree]

end Records

/-- **Pooled names are stable and canonical.** -/
theorem interned_filled (entries : List Entry) : Interned entries := by
  have hrecords := records_filled entries
  constructor
  case literal =>
    intro front rest text hasQuotes id h hid
    rw [h]
    exact StringPool.get?_of_prefix (precedes_filled front rest _).texts
      (StringPool.get?_of_addLiteral _ _ _ hid)
  case name =>
    intro front rest text h
    rw [h]
    have hprecedes := precedes_filled front rest (.name text)
    exact text?_of_prefix hprecedes.texts hprecedes.occurrences ((filled front).text?_occur text)
  case canonical =>
    intro i j o o' ho ho'
    obtain ⟨text, htext, hfind⟩ := hrecords.exists_text ho
    obtain ⟨text', htext', hfind'⟩ := hrecords.exists_text ho'
    refine ⟨text, text', htext, htext', ?_, ?_⟩
    · intro heq
      rw [← heq] at hfind'
      exact Option.some.inj ((StringPool.get?_of_find? hfind).symm.trans
        (StringPool.get?_of_find? hfind'))
    · rintro rfl
      exact Option.some.inj (hfind.symm.trans hfind')
  case pool => exact pool_occur _
  case last =>
    intro front rest text h hrest
    have hnames : namesOf entries = namesOf front ++ text :: namesOf rest := by
      simp [h, namesOf, Entry.name?]
    have hbehind : ∀ name ∈ namesOf rest, (name == text) = false := by
      intro name hname
      refine beq_eq_false_iff_ne.2 fun heq => hrest ?_
      exact mem_namesOf.1 (heq ▸ hname)
    have hplace : (filled front).table.occurrences.size = (namesOf front).length :=
      (records_filled front).length_eq.symm
    rw [hrecords.lastOccurrence_eq, hnames, lastIndex_append_cons _ (by simp) hbehind, fst_occur,
      hplace]
    rfl
  case absent =>
    intro text
    rw [hrecords.lastOccurrence_eq, Option.map_eq_none_iff, lastIndex_eq_none_iff, ← mem_namesOf]
    constructor
    · intro hall hmem
      simpa using hall text hmem
    · intro hne name hname
      exact beq_eq_false_iff_ne.2 fun heq => hne (heq ▸ hname)

/-- A name twice and its text as a literal between: the pool holds the text twice, both occurrences
have the first number, and the second occurrence is the newest. -/
example : let n := filled [.name "color", .literal "\"color\"" true, .name "color"]
    n.pool.texts = #["color", "color"] ∧ n.table.occurrences = #[⟨⟨0⟩, 0⟩, ⟨⟨0⟩, 0⟩] ∧
      n.lastOccurrence "color" = some ⟨1⟩ := by
  decide +kernel

end Names

end ShaderLang
