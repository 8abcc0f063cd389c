import JsExport.Proofs.Hierarchy.Acceptance
import JsExport.Proofs.Program.Ownership

/-
  Drafts that are made by edits.

  An edit that is carried out looks a declaration up and
  then writes one piece of the draft after another; nothing
  is taken back when it stops.  Its lookup comes before its
  first write, so an edit that is refused has changed
  nothing.  Starting from nothing, edits list every member
  once, with the type that it names as its owner, and a
  build finds no fault with that.

  Main declarations:
    * `Edit.carryOut` and `Edit.outcome_carryOut`
    * `Draft.Becomes` and `Draft.edit_cases`
    * `Draft.OwnsEach.of_becomes`
    * `Draft.editAll` and `Draft.OwnsEach.editAll`
    * `Defect.isOwnership`
    * `edits_keep_members_owned_once`
-/

namespace JsExport

------------------------------------------------------------
-- Edits Piece By Piece
------------------------------------------------------------

namespace Edit

/- Changes of a draft that stay when what follows stops. -/
abbrev Run (α : Type) : Type :=
  EStateM Defect Draft α

/- The draft that a run leaves, and its answer. -/
def outcome
    {α : Type} :
    EStateM.Result Defect Draft α →
      Draft × Except Defect α
| .ok answer p => (p, .ok answer)
| .error defect p => (p, .error defect)

/-
  That an edit gives the number of the entry that it adds,
  the last of its table, and no number when it adds none.
-/
def Numbers
    (q : Draft) : Edit → Option Nat → Prop
| .addType d, some id =>
    q.types[id]? = some d ∧ q.types.length = id + 1
| .addMember owner m, some id =>
    q.members[id]? = some (m.setOwner owner) ∧
      q.members.length = id + 1
| .addType _, none => False
| .addMember _ _, none => False
| _, answer => answer = none

/- That an edit adds no type that lists members already. -/
def AddsUnlisted : Edit → Prop
| .addType d => d.members = []
| _ => True

/- Read something off the draft, or stop. -/
def look
    {α : Type}
    (read : Draft → Except Defect α) : Run α := do
  match read (← get) with
  | .ok found => return found
  | .error defect => throw defect

/- Carry out an edit, one write after another. -/
def carryOut : Edit → Run (Option Nat)
| .addType d => do
    let id := (← get).types.length
    modify (fun p => { p with types := p.types ++ [d] })
    return some id
| .addMember owner m => do
    let id := (← get).members.length
    let d ← look (fun p => p.type? owner (.ownerOf m.name))
    modify (fun p => p.putType owner (d.addMember id))
    modify (fun p =>
      { p with members := p.members ++ [m.setOwner owner] })
    return some id
| .setSuperclass t superclass => do
    let d ← look (fun p => p.type? t .superclassEdit)
    modify (fun p =>
      p.putType t (d.setSuperclass superclass))
    return none
| .addInterface t listed => do
    let d ← look (fun p => p.type? t .interfaceEdit)
    modify (fun p => p.putType t (d.addInterface listed))
    return none
| .setDelegation constructor target => do
    let m ← look (fun p =>
      p.member? constructor .delegationEdit)
    modify (fun p =>
      p.putMember constructor (m.setDelegation target))
    return none

/- A run that begins by reading the draft goes on with it. -/
theorem bind_get
    {α : Type}
    (next : Draft → Run α)
    (p : Draft) :
    (get >>= next) p = next p p :=
  rfl

/- A run that begins by looking goes on if that is found. -/
theorem bind_look
    {α β : Type}
    (read : Draft → Except Defect α)
    (next : α → Run β)
    (p : Draft) :
    (look read >>= next) p =
      match read p with
      | .ok found => next found p
      | .error defect => .error defect p := by
  unfold look
  rw [bind_assoc, bind_get]
  cases read p <;> rfl

/-
  What is carried out ends where the edit does, and answers
  as it does: no write comes before the lookup.
-/
theorem outcome_carryOut
    (e : Edit)
    (p : Draft) :
    outcome (e.carryOut p) = p.edit e := by
  cases e with
  | addType d => rfl
  | addMember owner m =>
      simp only [carryOut, Draft.edit, Draft.edit?, bind_get,
        bind_look]
      cases p.type? owner (.ownerOf m.name) <;> rfl
  | setSuperclass t superclass =>
      simp only [carryOut, Draft.edit, Draft.edit?, bind_look]
      cases p.type? t .superclassEdit <;> rfl
  | addInterface t listed =>
      simp only [carryOut, Draft.edit, Draft.edit?, bind_look]
      cases p.type? t .interfaceEdit <;> rfl
  | setDelegation constructor target =>
      simp only [carryOut, Draft.edit, Draft.edit?, bind_look]
      cases p.member? constructor .delegationEdit <;> rfl

end Edit

------------------------------------------------------------
-- What Edits Do
------------------------------------------------------------

namespace Draft

/- What an edit makes of a draft, and the number it gives. -/
inductive Becomes
    (p : Draft) : Edit → Draft → Option Nat → Prop
| addType
    (d : TypeDecl) :
    Becomes p (.addType d)
      { p with types := p.types ++ [d] }
      (some p.types.length)
| addMember
    {owner : TypeId}
    {d : TypeDecl}
    (hOwner : p.types[owner]? = some d)
    (m : MemberDecl) :
    Becomes p (.addMember owner m)
      ⟨p.types.set owner (d.addMember p.members.length),
        p.members ++ [m.setOwner owner]⟩
      (some p.members.length)
| setSuperclass
    {t : TypeId}
    {d : TypeDecl}
    (hType : p.types[t]? = some d)
    (superclass : TypeId) :
    Becomes p (.setSuperclass t superclass)
      (p.putType t (d.setSuperclass superclass)) none
| addInterface
    {t : TypeId}
    {d : TypeDecl}
    (hType : p.types[t]? = some d)
    (listed : TypeId) :
    Becomes p (.addInterface t listed)
      (p.putType t (d.addInterface listed)) none
| setDelegation
    {constructor : MemberId}
    {m : MemberDecl}
    (hMember : p.members[constructor]? = some m)
    (target : MemberId) :
    Becomes p (.setDelegation constructor target)
      (p.putMember constructor (m.setDelegation target))
      none

variable {p q : Draft}
variable {e : Edit}
variable {answer : Option Nat}

theorem type?_eq_ok_iff
    {t : TypeId}
    {place : Reference}
    {d : TypeDecl} :
    p.type? t place = .ok d ↔ p.types[t]? = some d := by
  unfold type?
  cases p.types[t]? <;> simp

theorem member?_eq_ok_iff
    {m : MemberId}
    {place : Reference}
    {d : MemberDecl} :
    p.member? m place = .ok d ↔ p.members[m]? = some d := by
  unfold member?
  cases p.members[m]? <;> simp

/- An edit that is done finds what it refers to. -/
theorem becomes_of_edit?_eq_ok
    (hDone : p.edit? e = .ok (q, answer)) :
    p.Becomes e q answer := by
  cases e with
  | addType d =>
      cases hDone
      exact .addType d
  | addMember owner m =>
      rcases Lookup.bind_eq_ok_iff.mp hDone with
        ⟨d, hFound, hRest⟩
      cases hRest
      exact .addMember (type?_eq_ok_iff.mp hFound) m
  | setSuperclass t superclass =>
      rcases Lookup.bind_eq_ok_iff.mp hDone with
        ⟨d, hFound, hRest⟩
      cases hRest
      exact .setSuperclass (type?_eq_ok_iff.mp hFound) _
  | addInterface t listed =>
      rcases Lookup.bind_eq_ok_iff.mp hDone with
        ⟨d, hFound, hRest⟩
      cases hRest
      exact .addInterface (type?_eq_ok_iff.mp hFound) _
  | setDelegation constructor target =>
      rcases Lookup.bind_eq_ok_iff.mp hDone with
        ⟨m, hFound, hRest⟩
      cases hRest
      exact .setDelegation (member?_eq_ok_iff.mp hFound) _

/- An edit that is refused leaves the draft as it is. -/
theorem edit_cases
    (p : Draft)
    (e : Edit) :
    (∃ defect, p.edit e = (p, .error defect)) ∨
      ∃ q answer, p.Becomes e q answer ∧
        p.edit e = (q, .ok answer) := by
  unfold edit
  cases hEdit : p.edit? e with
  | error defect => exact .inl ⟨defect, rfl⟩
  | ok done =>
      exact .inr ⟨done.1, done.2,
        becomes_of_edit?_eq_ok hEdit, rfl⟩

/- Entries are numbered by their places in the tables. -/
theorem Becomes.numbers
    (hBecomes : p.Becomes e q answer) :
    e.Numbers q answer := by
  cases hBecomes with
  | addType d =>
      exact ⟨List.getElem?_concat_length, List.length_append⟩
  | addMember hOwner m =>
      exact ⟨List.getElem?_concat_length, List.length_append⟩
  | setSuperclass hType superclass => rfl
  | addInterface hType listed => rfl
  | setDelegation hMember target => rfl

------------------------------------------------------------
-- Edits And Owners
------------------------------------------------------------

section Replaced

variable {α β : Type}
variable {xs : List α}
variable {i : Nat}
variable {a b : α}
variable (hAt : xs[i]? = some a)

include hAt

/- What is replaced by its like reads the same. -/
theorem map_set_eq
    {f : α → β}
    (hSame : f b = f a) :
    (xs.set i b).map f = xs.map f := by
  induction xs generalizing i with
  | nil => rfl
  | cons x xs ih =>
      cases i with
      | zero =>
          cases hAt
          rw [List.set_cons_zero, List.map_cons, hSame,
            List.map_cons]
      | succ i =>
          rw [List.set_cons_succ, List.map_cons, ih hAt,
            List.map_cons]

/- A longer part in the place of a part adds to the whole. -/
theorem flatMap_set_perm
    {f : α → List β}
    {y : β}
    (hLonger : f b = f a ++ [y]) :
    ((xs.set i b).flatMap f).Perm (xs.flatMap f ++ [y]) := by
  induction xs generalizing i with
  | nil => cases hAt
  | cons x xs ih =>
      cases i with
      | zero =>
          cases hAt
          rw [List.set_cons_zero, List.flatMap_cons, hLonger,
            List.flatMap_cons, List.append_assoc,
            List.append_assoc]
          exact List.perm_append_comm.append_left _
      | succ i =>
          rw [List.set_cons_succ, List.flatMap_cons,
            List.flatMap_cons, List.append_assoc]
          exact (ih hAt).append_left _

end Replaced

/- What lists fit is read off the lists and the owners. -/
theorem memberListsFit_iff :
    p.MemberListsFit ↔
      ∀ (t : TypeId) (ids : List MemberId),
        (p.types.map TypeDecl.members)[t]? = some ids →
          ∀ id ∈ ids,
            (p.members.map MemberDecl.owner)[id]? =
              some (some t) := by
  unfold MemberListsFit
  simp only [List.getElem?_map, Option.map_eq_some_iff]
  constructor
  · rintro hFits t _ ⟨d, hType, rfl⟩ id hListed
    exact hFits t d hType id hListed
  · intro hFits t d hType id hListed
    exact hFits t _ ⟨d, hType, rfl⟩ id hListed

/- So is whether every member is listed once. -/
theorem OwnsEach.congr
    (hOwns : p.OwnsEach)
    (hLists :
      q.types.map TypeDecl.members =
        p.types.map TypeDecl.members)
    (hOwners :
      q.members.map MemberDecl.owner =
        p.members.map MemberDecl.owner) :
    q.OwnsEach := by
  have hListed : q.listed = p.listed := by
    unfold listed
    rw [List.flatMap_def, List.flatMap_def]
    exact congrArg List.flatten hLists
  have hLength : q.members.length = p.members.length := by
    have hSame := congrArg List.length hOwners
    rwa [List.length_map, List.length_map] at hSame
  refine ⟨?_, ?_⟩
  · rw [hListed, hLength]
    exact hOwns.listed_perm
  · rw [memberListsFit_iff, hLists, hOwners,
      ← memberListsFit_iff]
    exact hOwns.memberLists

/- Whom a constructor calls does not change its owner. -/
theorem owner_setDelegation
    (m : MemberDecl)
    (target : MemberId) :
    (m.setDelegation target).owner = m.owner := by
  unfold MemberDecl.setDelegation
  cases m.shape <;> rfl

/- A type without members adds nothing to the lists. -/
theorem OwnsEach.addType
    (hOwns : p.OwnsEach)
    {d : TypeDecl}
    (hNone : d.members = []) :
    ({ p with types := p.types ++ [d] } : Draft).OwnsEach := by
  constructor
  · unfold listed
    rw [List.flatMap_append, List.flatMap_singleton, hNone,
      List.append_nil]
    exact hOwns.listed_perm
  · intro t found hType id hListed
    by_cases hLt : t < p.types.length
    · rw [List.getElem?_append_left hLt] at hType
      exact hOwns.memberLists t found hType id hListed
    · rw [List.getElem?_append_right (Nat.le_of_not_lt hLt)]
        at hType
      cases List.mem_singleton.mp (List.mem_of_getElem? hType)
      rw [hNone] at hListed
      cases hListed

/- A new member is listed by its owner alone. -/
theorem OwnsEach.addMember
    (hOwns : p.OwnsEach)
    {owner : TypeId}
    {d : TypeDecl}
    (hOwner : p.types[owner]? = some d)
    (m : MemberDecl) :
    (⟨p.types.set owner (d.addMember p.members.length),
      p.members ++ [m.setOwner owner]⟩ : Draft).OwnsEach := by
  have hKept :
      ∀ (t : TypeId) (found : TypeDecl),
        p.types[t]? = some found →
          ∀ id ∈ found.members, ∃ n : MemberDecl,
            (p.members ++ [m.setOwner owner])[id]? = some n ∧
              n.owner = some t := by
    intro t found hType id hListed
    rcases hOwns.memberLists t found hType id hListed with
      ⟨n, hMember, hOwned⟩
    have hLt := (List.getElem?_eq_some_iff.mp hMember).1
    exact ⟨n, (List.getElem?_append_left hLt).trans hMember,
      hOwned⟩
  constructor
  · have hLonger :
        (d.addMember p.members.length).members =
          d.members ++ [p.members.length] := rfl
    refine (flatMap_set_perm hOwner hLonger).trans ?_
    rw [List.length_append, List.length_singleton,
      List.range_succ]
    exact hOwns.listed_perm.append_right _
  · intro t found hType id hListed
    by_cases hSame : owner = t
    · subst hSame
      have hLt := (List.getElem?_eq_some_iff.mp hOwner).1
      cases (List.getElem?_set_self hLt).symm.trans hType
      rcases List.mem_append.mp hListed with hOld | hNew
      · exact hKept owner d hOwner id hOld
      · cases List.mem_singleton.mp hNew
        exact ⟨m.setOwner owner, List.getElem?_concat_length,
          rfl⟩
    · rw [List.getElem?_set_ne hSame] at hType
      exact hKept t found hType id hListed

/- What edits do keeps every member listed once. -/
theorem OwnsEach.of_becomes
    (hOwns : p.OwnsEach)
    (hNone : e.AddsUnlisted)
    (hBecomes : p.Becomes e q answer) :
    q.OwnsEach := by
  cases hBecomes with
  | addType d => exact hOwns.addType hNone
  | addMember hOwner m => exact hOwns.addMember hOwner m
  | setSuperclass hType superclass =>
      exact hOwns.congr (map_set_eq hType rfl) rfl
  | addInterface hType listed =>
      exact hOwns.congr (map_set_eq hType rfl) rfl
  | setDelegation hMember target =>
      exact hOwns.congr rfl
        (map_set_eq hMember (owner_setDelegation _ target))

/- An edit keeps it so whether or not it is refused. -/
theorem OwnsEach.edit
    (hOwns : p.OwnsEach)
    (hNone : e.AddsUnlisted) :
    (p.edit e).1.OwnsEach := by
  rcases p.edit_cases e with
    ⟨defect, hEdit⟩ | ⟨q, answer, hBecomes, hEdit⟩
  · rw [hEdit]
    exact hOwns
  · rw [hEdit]
    exact hOwns.of_becomes hNone hBecomes

------------------------------------------------------------
-- Runs Of Edits
------------------------------------------------------------

/- The draft after edits that follow each other. -/
def editAll
    (p : Draft)
    (edits : List Edit) : Draft :=
  edits.foldl (fun p e => (p.edit e).1) p

theorem editAll_append
    (p : Draft)
    (edits more : List Edit) :
    p.editAll (edits ++ more) =
      (p.editAll edits).editAll more :=
  List.foldl_append

theorem ownsEach_empty :
    empty.OwnsEach := by
  constructor
  · exact List.Perm.refl _
  · intro t d hType
    cases hType

/- All edits together keep it so. -/
theorem OwnsEach.editAll
    {edits : List Edit}
    (hOwns : p.OwnsEach)
    (hNone : ∀ e ∈ edits, e.AddsUnlisted) :
    (p.editAll edits).OwnsEach := by
  induction edits generalizing p with
  | nil => exact hOwns
  | cons e edits ih =>
      exact ih (hOwns.edit (hNone e List.mem_cons_self))
        (fun other hOther =>
          hNone other (List.mem_cons_of_mem e hOther))

end Draft

------------------------------------------------------------
-- Defects Of Ownership
------------------------------------------------------------

/- Whether a defect is about who owns and lists a member. -/
def Defect.isOwnership : Defect → Bool
| .unownedMember _ _ => true
| .unknownMember _ (.memberListOf _) => true
| _ => false

namespace Draft

variable {p : Draft}
variable {defect : Defect}

theorem isOwnership_of_mem_superclassDefects
    {d : TypeDecl}
    (hDefect : defect ∈ p.superclassDefects d) :
    defect.isOwnership = false := by
  unfold superclassDefects at hDefect
  split at hDefect
  · cases hDefect
  · split at hDefect
    · cases List.mem_singleton.mp hDefect
      rfl
    · split at hDefect
      · cases List.mem_singleton.mp hDefect
        rfl
      · split at hDefect
        · cases hDefect
        · cases List.mem_singleton.mp hDefect
          rfl

theorem isOwnership_of_mem_interfaceDefects
    {d : TypeDecl}
    (hDefect : defect ∈ p.interfaceDefects d) :
    defect.isOwnership = false := by
  rcases List.mem_flatMap.mp hDefect with ⟨t, _, hHere⟩
  split at hHere
  · cases List.mem_singleton.mp hHere
    rfl
  · split at hHere
    · cases hHere
    · cases List.mem_singleton.mp hHere
      rfl

theorem isOwnership_of_mem_signatureDefects
    {m : MemberDecl}
    (hDefect : defect ∈ p.signatureDefects m) :
    defect.isOwnership = false := by
  rcases List.mem_flatMap.mp hDefect with ⟨t, _, hHere⟩
  split at hHere
  · cases hHere
  · cases List.mem_singleton.mp hHere
    rfl

theorem isOwnership_of_mem_delegationDefects
    {m : MemberDecl}
    {id : MemberId}
    (hDefect : defect ∈ p.delegationDefects m id) :
    defect.isOwnership = false := by
  unfold delegationDefects at hDefect
  split at hDefect
  · cases hDefect
  · split at hDefect
    · cases hDefect
    · cases List.mem_singleton.mp hDefect
      rfl

theorem isOwnership_of_mem_bodyDefects
    {m : MemberDecl}
    (hDefect : defect ∈ p.bodyDefects m) :
    defect.isOwnership = false := by
  rcases List.mem_append.mp hDefect with hCall | hTest
  · rcases List.mem_flatMap.mp hCall with ⟨c, _, hHere⟩
    split at hHere
    · cases hHere
    · cases List.mem_singleton.mp hHere
      rfl
  · rcases List.mem_flatMap.mp hTest with ⟨c, _, hHere⟩
    split at hHere
    · cases hHere
    · cases List.mem_singleton.mp hHere
      rfl

/- Where every member is listed once, no defect says not. -/
theorem OwnsEach.isOwnership_of_mem_defects
    (hOwns : p.OwnsEach)
    (hDefect : defect ∈ p.defects) :
    defect.isOwnership = false := by
  rcases List.mem_append.mp hDefect with hType | hMember
  · rcases List.mem_flatMap.mp hType with ⟨⟨d, t⟩, he, hHere⟩
    have hFound := List.mk_mem_zipIdx_iff_getElem?.mp he
    rcases List.mem_append.mp hHere with hSuper | hRest
    · exact isOwnership_of_mem_superclassDefects hSuper
    · rcases List.mem_append.mp hRest with hListed | hOwned
      · exact isOwnership_of_mem_interfaceDefects hListed
      · rw [(p.memberListDefects_eq_nil_iff d t).mpr
          (hOwns.memberLists t d hFound)] at hOwned
        cases hOwned
  · rcases List.mem_flatMap.mp hMember with
      ⟨⟨m, id⟩, he, hHere⟩
    have hFound := List.mk_mem_zipIdx_iff_getElem?.mp he
    rcases List.mem_append.mp hHere with hOwned | hRest
    · rw [(p.ownerDefects_eq_nil_iff m id).mpr
        (hOwns.owners id m hFound)] at hOwned
      cases hOwned
    · rcases List.mem_append.mp hRest with hSigned | hRest
      · exact isOwnership_of_mem_signatureDefects hSigned
      · rcases List.mem_append.mp hRest with
          hDelegates | hBody
        · exact isOwnership_of_mem_delegationDefects
            hDelegates
        · exact isOwnership_of_mem_bodyDefects hBody

/- A build is refused for a defect or for the hierarchy. -/
theorem mem_defects_or_ofTypes?_of_build_eq_error
    (hRefused : p.build = .error defect) :
    defect ∈ p.defects ∨
      Hierarchy.ofTypes? p.types = .error defect := by
  unfold build at hRefused
  cases hHead : p.defects.head? with
  | some first =>
      rw [hHead] at hRefused
      cases hRefused
      exact .inl (List.mem_of_head? hHead)
  | none =>
      rw [hHead] at hRefused
      cases hFound : Hierarchy.ofTypes? p.types with
      | error other =>
          rw [hFound] at hRefused
          cases hRefused
          exact .inr rfl
      | ok hierarchy =>
          rw [hFound] at hRefused
          cases hRefused

/- A hierarchy is not refused for an owner. -/
theorem isOwnership_of_ofTypes?_eq_error
    {types : List TypeDecl}
    (hRefused : Hierarchy.ofTypes? types = .error defect) :
    defect.isOwnership = false := by
  by_cases hClosed :
      Supertypes.Closed (Supertypes.ofTypes types)
        types.length
  · by_cases hAcyclic : Acyclic types
    · rcases Hierarchy.exists_ofTypes?_eq_ok hClosed
        hAcyclic with ⟨h, hOk⟩
      rw [hOk] at hRefused
      cases hRefused
    · rcases Hierarchy.ofTypes?_of_not_acyclic hClosed
        hAcyclic with ⟨t, d, _, _, hCycle⟩
      rw [hCycle] at hRefused
      cases hRefused
      rfl
  · rcases Hierarchy.ofTypes?_of_not_closed hClosed with
      ⟨d, _, s, _, _, hStray⟩
    rw [hStray] at hRefused
    cases hRefused
    rfl

/- So a build is not refused for the lists or the owners. -/
theorem OwnsEach.isOwnership_of_build_eq_error
    (hOwns : p.OwnsEach)
    (hRefused : p.build = .error defect) :
    defect.isOwnership = false := by
  rcases mem_defects_or_ofTypes?_of_build_eq_error
      hRefused with hDefect | hHierarchy
  · exact hOwns.isOwnership_of_mem_defects hDefect
  · exact isOwnership_of_ofTypes?_eq_error hHierarchy

end Draft

/-
  Edits are made one after another from nothing on, and none
  of them adds a type that lists members already.  An edit
  carried out write by write ends where the edit does; if it
  is refused, the draft stays as it is, and a number that it
  gives is that of the entry it adds.  After every edit each
  number of a member stands once in all lists, in that of
  the type that the member names as its owner, and no other
  number is listed.  So a build may be refused, but not
  because of an owner or a list.
-/
theorem edits_keep_members_owned_once
    (edits : List Edit)
    (hNone : ∀ e ∈ edits, e.AddsUnlisted) :
    (∀ before e after, edits = before ++ e :: after →
      let p := Draft.empty.editAll before
      let q := Draft.empty.editAll (before ++ [e])
      Edit.outcome (e.carryOut p) = (q, (p.edit e).2) ∧
      (∀ defect, (p.edit e).2 = .error defect → q = p) ∧
      (∀ answer, (p.edit e).2 = .ok answer →
        e.Numbers q answer) ∧
      (∀ id, q.listed.count id =
        if id < q.members.length then 1 else 0) ∧
      q.MemberListsFit ∧ q.OwnersFit) ∧
    ∀ defect,
      (Draft.empty.editAll edits).build = .error defect →
        (∀ id name, defect ≠ .unownedMember id name) ∧
          ∀ id type,
            defect ≠ .unknownMember id (.memberListOf type) := by
  constructor
  · intro before e after hEdits p q
    have hStep : q = (p.edit e).1 :=
      Draft.empty.editAll_append before [e]
    have hUpTo :
        ∀ other ∈ before ++ [e], other.AddsUnlisted := by
      intro other hOther
      apply hNone
      rw [hEdits]
      rcases List.mem_append.mp hOther with hBefore | hLast
      · exact List.mem_append_left _ hBefore
      · cases List.mem_singleton.mp hLast
        exact List.mem_append_right _ List.mem_cons_self
    have hOwns : q.OwnsEach :=
      Draft.ownsEach_empty.editAll hUpTo
    refine ⟨?_, ?_, ?_, hOwns.count_listed,
      hOwns.memberLists, hOwns.owners⟩
    · rw [Edit.outcome_carryOut, hStep]
    · intro defect hRefused
      rcases p.edit_cases e with
        ⟨_, hEdit⟩ | ⟨_, _, _, hEdit⟩
      · rw [hStep, hEdit]
      · rw [hEdit] at hRefused
        cases hRefused
    · intro answer hDone
      rcases p.edit_cases e with
        ⟨_, hEdit⟩ | ⟨_, _, hBecomes, hEdit⟩
      · rw [hEdit] at hDone
        cases hDone
      · rw [hEdit] at hDone
        cases hDone
        rw [hStep, hEdit]
        exact hBecomes.numbers
  · intro defect hRefused
    have hOwns := Draft.ownsEach_empty.editAll hNone
    have hOther :=
      hOwns.isOwnership_of_build_eq_error hRefused
    constructor
    · rintro id name rfl
      cases hOther
    · rintro id type rfl
      cases hOther

/-
  A lamp is made switch first, which is refused, and so is a
  wick of a type that does not come; a shade extends itself.
-/
def Edit.lampMaking : List Edit :=
  let part (name : String) : MemberDecl :=
    .plain name 7 (.plain (.method .void) [] .empty) .untagged
  [.addMember 0 (part "switch"),
    .addType (.plain "Lamp" .classKind .none []),
    .addMember 0 (part "switch"),
    .addMember 3 (part "wick"),
    .addType (.plain "Shade" .classKind .none []),
    .addMember 1 (part "dim"),
    .addMember 0 (part "glow"),
    .setSuperclass 1 1,
    .addInterface 2 0,
    .setDelegation 5 0]

/-
  Four of the edits are refused, the last one among them,
  the three members that are made are listed by their types,
  and a build fails for the shade alone.
-/
theorem lamp_parts_listed_once :
    (∀ e ∈ Edit.lampMaking, e.AddsUnlisted) ∧
    let p := Draft.empty.editAll Edit.lampMaking
    p = Draft.empty.editAll (Edit.lampMaking.take 9) ∧
    p.types.map (fun d => d.members) = [[0, 2], [1]] ∧
    p.members.map (fun m => (m.name, m.owner)) =
      [("switch", some 0), ("dim", some 1),
        ("glow", some 0)] ∧
    (∀ id, p.listed.count id = if id < 3 then 1 else 0) ∧
    p.build = .error (.inheritanceCycle "Shade") := by
  have hNone : ∀ e ∈ Edit.lampMaking, e.AddsUnlisted := by
    simp [Edit.lampMaking, Edit.AddsUnlisted, TypeDecl.plain]
  have hEach := (edits_keep_members_owned_once
    Edit.lampMaking hNone).1
  rcases hEach (Edit.lampMaking.take 9)
      (.setDelegation 5 0) [] rfl with
    ⟨_, hRefused, _, hCount, _⟩
  exact ⟨hNone,
    hRefused (.unknownMember 5 .delegationEdit) rfl, rfl, rfl,
    hCount, by decide +kernel⟩

end JsExport
