/-
**Which struct a declaration closes.**

A struct declaration is closed by its number, but its members are stored under its name, and a name
stands for the newest struct that was opened with it.  So when two structs of one name are open, closing
the older one gives its members to the newer one and leaves the older one empty
(`ShaderLang.Session.rivals_crossed`).  Whatever else happens between opening and closing, other structs
being opened and closed included, this is the only way to miss: where no other struct of the name was
opened in between, the struct with the number gets the members and no other struct changes.

Main definitions:

* `ShaderLang.Build.Spares` — a step of building that leaves the structs as they are;
* `ShaderLang.Session.NextWithout`, `ShaderLang.Session.ReachesWithout` — a session goes on without
  opening a struct of some name.

Main results:

* `ShaderLang.Operation.spares_perform` — only opening and closing concern the structs;
* `ShaderLang.Session.closes_newest` — **closing a struct fills in the newest one of its name**;
* `ShaderLang.Session.closes_own` — **and that is the one with the number, where no other was opened
  since**.
-/

import ShaderLang.Proofs.Builder.Sessions
import ShaderLang.Proofs.Builder.Turns
import ShaderLang.Proofs.Structs.Registration

set_option relaxedAutoImplicit false
set_option autoImplicit false

namespace ShaderLang

/-! ### Steps that leave the structs as they are -/

namespace Build

variable {α β : Type} {m : Build α}

/-- The step leaves the structs as they are. -/
def Spares (m : Build α) : Prop := ∀ b x b', m b = .ok x b' → b'.structs = b.structs

theorem spares_of_inner (h : m.Inner) : m.Spares := by
  intro b x b' hm
  have hsame := (h b).structs_eq
  unfold after at hsame
  rwa [hm] at hsame

theorem spares_modify {f : Builder → Builder} (h : ∀ b, (f b).structs = b.structs) :
    (modify f : Build Unit).Spares := by
  intro b x b' hm
  obtain ⟨-, rfl⟩ := EStateM.Result.ok.inj hm
  exact h b

theorem spares_add (n : Node) : (add n).Spares := by
  intro b x b' hm
  obtain ⟨-, rfl⟩ := EStateM.Result.ok.inj hm
  rfl

theorem Spares.bind {f : α → Build β} (hm : m.Spares) (hf : ∀ x, (f x).Spares) :
    (m >>= f).Spares := by
  intro b y b'' h
  rw [bind_apply] at h
  cases hmb : m b with
  | ok x b' =>
      rw [hmb] at h
      exact (hf x b' y b'' h).trans (hm b x b' hmb)
  | error e b' =>
      rw [hmb] at h
      contradiction

theorem Spares.map {f : α → β} (hm : m.Spares) : (f <$> m).Spares := by
  rw [map_eq_pure_bind]
  exact hm.bind fun x => spares_of_inner (inner_pure (f x))

theorem Inner.spares_map {f : α → β} (h : m.Inner) : (f <$> m).Spares := (spares_of_inner h).map

/-- A step that leaves the structs as they are, as an operation without an answer. -/
theorem Spares.done (hm : m.Spares) : (m >>= fun _ => pure Answer.done : Build Answer).Spares :=
  hm.bind fun _ => spares_of_inner (inner_pure _)

theorem spares_setCurrent (name : Option String) : (setCurrent name).Spares :=
  spares_modify fun _ => rfl

theorem inner_occur (text : String) : (occur text).Inner := fun _ => (Builder.Step.occur text).steps

end Build

namespace Operation

open Build

/-- The operation opens or closes a struct. -/
def isStruct : Operation → Bool
  | beginStruct _ => true
  | structDeclaration .. => true
  | _ => false

/-- **Only opening and closing a struct concern the structs.** -/
theorem spares_perform {o : Operation} (h : o.isStruct = false) : o.perform.Spares := by
  cases o with
  | beginStruct text => contradiction
  | structDeclaration id members => contradiction
  | position p => exact Spares.done (m := setPosition p) (spares_modify fun _ => rfl)
  | report p => exact (spares_of_inner (inner_report p)).done
  | diagnostics change =>
      exact (spares_modify (f := fun b => { b with diagnostics := change b.diagnostics })
        fun _ => rfl).done
  | endFunction => exact (spares_setCurrent none).done
  | qualifier keyword => exact spares_of_inner (inner_pure _)
  | int text => exact (inner_intLiteral text).spares_map
  | float text => exact (inner_floatLiteral text).spares_map
  | string text => exact (inner_stringLiteral text).spares_map
  | name text => exact (inner_name text).spares_map
  | field base text => exact (inner_field base text).spares_map
  | element array position => exact (inner_element array position).spares_map
  | call callee list => exact (inner_call callee list).spares_map
  | intrinsicCall text list => exact (inner_intrinsicCall text list).spares_map
  | namedType text => exact (inner_namedType text).spares_map
  | structType text => exact (inner_structType text).spares_map
  | vectorType component size => exact (inner_vectorType component size).spares_map
  | matrixType component rows columns => exact (inner_matrixType component rows columns).spares_map
  | semantic text =>
      refine (spares_of_inner (inner_semantic text)).bind fun id => ?_
      cases id <;> exact spares_of_inner (inner_pure _)
  | declaration q type text size tie initializer =>
      exact (inner_declaration q type text size tie initializer).spares_map
  | structDeclarator text size tie => exact (inner_structDeclarator text size tie).spares_map
  | parameter q type text size tie => exact (inner_parameter q type text size tie).spares_map
  | prototype type text parameters tie =>
      exact ((spares_setCurrent _).bind fun _ =>
        (spares_of_inner (inner_occur text)).bind fun _ => spares_add _).map
  | definition head body => exact ((spares_setCurrent _).bind fun _ => spares_add _).map
  | _ => exact (spares_add _).map

end Operation

/-! ### Opening and closing a struct -/

namespace Operation

variable {b : Builder}

theorem perform_beginStruct (text : String) :
    (beginStruct text).perform b = .ok (.struct (Structs.idOf b.structs.size)) (b.opened text) := rfl

theorem perform_structDeclaration (id : UInt32) {members : Option NodeId}
    {collected : List StructMember} (h : b.collectMembers members = .ok collected) :
    (structDeclaration id members).perform b =
      .ok (.node b.arena.nextId) (b.closed id members collected) := by
  rw [perform, map_eq_pure_bind, Build.bind_apply, Builder.structDeclaration_apply, h]
  rfl

end Operation

namespace Session

open Build

variable {diagnostics : Diagnostics} {s t : Session} {id : UInt32} {name : String}
  {members : Option NodeId}

/-- **Closing a struct fills in the newest one of its name and no other**, at any point of any
session: the closing meets no fault, that struct then has exactly the members that the nodes declare,
and every other struct is as it was. -/
theorem closes_newest (h : (start diagnostics).Reaches s)
    (ho : s.Allows (.structDeclaration id members)) (hname : s.builder.structs.nameOf id = some name)
    (hfits : s.builder.structs.size ≤ Structs.capacity) :
    ∃ place node b collected, s.builder.structs.placeNamed name = some place ∧
      (Operation.structDeclaration id members).perform s.builder = .ok (.node node) b ∧
      s.builder.collectMembers members = .ok collected ∧
      ∀ other, b.structs.entry? other =
        if other = Structs.idOf place then some ⟨name, collected⟩
        else s.builder.structs.entry? other := by
  obtain ⟨-, hsound⟩ := Reaches.grown (sound_start diagnostics) h
  obtain ⟨place, hplace⟩ := Structs.exists_placeNamed hname
  obtain ⟨collected, hcollected⟩ : Ends (s.builder.collectMembers members) :=
    collectMembers_ends fun c hc => hsound.ordered.descending.grounded
      (hsound.present c (ho c (Option.mem_toList.2 hc)))
  refine ⟨place, _, _, collected, hplace, Operation.perform_structDeclaration id hcollected,
    hcollected, fun other => ?_⟩
  -- the number is turned into a name, and the name into the newest place
  show Structs.entry? (s.builder.structs.finalize ((s.builder.structs.nameOf id).getD "")
    collected).2 other = _
  rw [hname]
  exact Structs.entry?_finalize _ _ hplace hfits collected other

/-! ### Between opening and closing -/

/-- One operation of a session, other than opening a struct of the name. -/
inductive NextWithout (name : String) (s : Session) : Session → Prop where
  | perform {o : Operation} (allowed : s.Allows o) (other : o ≠ .beginStruct name) {answer : Answer}
      {b : Builder} (run : o.perform s.builder = .ok answer b) :
      NextWithout name s ⟨b, s.returned ++ answer.node?.toList⟩

/-- Any number of operations of a session, none of which opens a struct of the name. -/
def ReachesWithout (name : String) : Session → Session → Prop :=
  Relation.ReflTransGen (NextWithout name)

theorem NextWithout.next (h : NextWithout name s t) : s.Next t := by
  cases h with
  | perform allowed other run => exact .perform allowed run

theorem ReachesWithout.reaches (h : ReachesWithout name s t) : s.Reaches t :=
  Relation.ReflTransGen.mono (fun _ _ => NextWithout.next) _ _ h

/-- No such operation changes which struct is the newest of the name. -/
theorem NextWithout.placeNamed_eq (h : NextWithout name s t) :
    t.builder.structs.placeNamed name = s.builder.structs.placeNamed name := by
  cases h with
  | @perform o allowed other answer b run =>
      cases hstruct : o.isStruct with
      | false => rw [Operation.spares_perform hstruct _ _ _ run]
      | true =>
          cases o with
          | beginStruct text =>
              obtain ⟨-, rfl⟩ := EStateM.Result.ok.inj run
              exact Structs.placeNamed_register_of_ne _ _ fun heq => other (heq ▸ rfl)
          | structDeclaration id members =>
              rw [Operation.perform, map_eq_pure_bind, bind_apply,
                Builder.structDeclaration_apply] at run
              cases hcollect : s.builder.collectMembers members with
              | ok collected =>
                  rw [hcollect] at run
                  obtain ⟨-, rfl⟩ := EStateM.Result.ok.inj run
                  exact Structs.placeNamed_finalize ..
              | error e =>
                  rw [hcollect] at run
                  contradiction
          | _ => contradiction

theorem ReachesWithout.placeNamed_eq (h : ReachesWithout name s t) :
    t.builder.structs.placeNamed name = s.builder.structs.placeNamed name := by
  induction h with
  | refl => rfl
  | tail _ hnext ih => exact hnext.placeNamed_eq.trans ih

/-- **Closing a struct fills in that struct and no other**, where no other struct of its name was
opened since: its number was the answer when it was opened, any operations may have followed, and
closing it gives it exactly the members that the nodes declare and leaves all others as they are. -/
theorem closes_own {b : Builder} (h : (start diagnostics).Reaches s)
    (hopened : (Operation.beginStruct name).perform s.builder = .ok (.struct id) b)
    (hrun : ReachesWithout name ⟨b, s.returned⟩ t) (ho : t.Allows (.structDeclaration id members))
    (hfits : t.builder.structs.size ≤ Structs.capacity) :
    ∃ node b' collected,
      (Operation.structDeclaration id members).perform t.builder = .ok (.node node) b' ∧
      t.builder.collectMembers members = .ok collected ∧
      b'.structs.entry? id = some ⟨name, collected⟩ ∧
      ∀ other, other ≠ id → b'.structs.entry? other = t.builder.structs.entry? other := by
  obtain ⟨hid, rfl⟩ := EStateM.Result.ok.inj hopened
  obtain rfl : Structs.idOf s.builder.structs.size = id := Answer.struct.inj hid
  have hopen : s.Next ⟨s.builder.opened name, s.returned⟩ := by
    have hnext := Next.perform (s := s) (o := .beginStruct name) nofun
      (Operation.perform_beginStruct name)
    rwa [show (Answer.struct _).node?.toList = [] from rfl, List.append_nil] at hnext
  -- the struct that was opened is still the newest of its name
  have hplace : t.builder.structs.placeNamed name = some s.builder.structs.size :=
    hrun.placeNamed_eq.trans (Structs.placeNamed_register ..)
  have hname : t.builder.structs.nameOf (Structs.idOf s.builder.structs.size) = some name :=
    Structs.nameOf_idOf hplace
      (Nat.lt_of_lt_of_le (Structs.lt_size_of_placeNamed hplace) hfits)
  obtain ⟨place, node, b', collected, hnewest, hperform, hcollected, hentries⟩ :=
    closes_newest ((h.tail hopen).trans hrun.reaches) ho hname hfits
  obtain rfl : s.builder.structs.size = place := Option.some.inj (hplace.symm.trans hnewest)
  refine ⟨node, b', collected, hperform, hcollected, ?_, fun other hne => ?_⟩
  · rw [hentries, if_pos rfl]
  · rw [hentries, if_neg hne]

/-- Two structs of one name are open, and the members of one are built. -/
def rivals : Session :=
  [.beginStruct "S", .beginStruct "S", .structDeclarator "x" none none,
    .link .structDeclarators none ⟨0⟩, .structMember (.scalar .float) ⟨1⟩,
    .link .structMembers none ⟨2⟩].foldl ask (start .empty)

/-- The older struct is closed, and the newer one gets its members. -/
theorem rivals_crossed :
    rivals.returned = [⟨0⟩, ⟨1⟩, ⟨2⟩, ⟨3⟩] ∧
      rivals.builder.structs.nameOf 256 = some "S" ∧
      rivals.builder.collectMembers (some ⟨3⟩) = .ok [⟨"x", .scalar .float, none⟩] ∧
      (rivals.ask (.structDeclaration 256 (some ⟨3⟩))).builder.structs.entries =
        #[⟨"S", []⟩, ⟨"S", [⟨"x", .scalar .float, none⟩]⟩] := by
  decide +kernel

end Session

end ShaderLang
