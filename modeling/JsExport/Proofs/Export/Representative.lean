import JsExport.Proofs.Export.Partition
import JsExport.Proofs.Hierarchy.Superclasses

/-
  Who stands for a method.

  What is nearer is not always more specific: an interface
  may be near and yet be extended by one that is far.  So
  only declarations that no subtype declares again may stand
  for a slot.  When a type or one of its superclasses is no
  interface and declares the method, the nearest of them
  inherits from all others that do, and its first declaration
  stands for the slot.  When there is none, the method is
  declared in interfaces only, and the first one in the order
  of the ancestry decides.

  Main declarations:
    * `Slot.IsLatest` and `Program.CodesAt`
    * `Surface.representative?_filter_cases`
    * `Program.Sound.isFirst_member`
    * `Program.Sound.isLatest_and_code_iff`
    * `nearest_class_or_first_interface_stands`
-/

namespace JsExport

open Lookup Supertypes

------------------------------------------------------------
-- The Search Among The Declarations
------------------------------------------------------------

namespace Surface

variable {h : Hierarchy}
variable {table : ExportTable}
variable {t : TypeNode}
variable {members : List MemberNode}

/-
  What stands for a group of members is the first one that
  no subtype declares again and that a class declares, or,
  when no class does, the first one of that kind.
-/
theorem representative?_filter_cases
    {ours : MemberNode → Bool}
    {m : MemberNode}
    (hFirst :
      representative? h (members.filter ours) = some m) :
    Listing.IsFirst members (fun n =>
        (ours n ∧ ¬ isRedeclared h (members.filter ours) n) ∧
          n.owner.decl.isInterface = false) m ∨
      (∀ n ∈ members, ours n →
          ¬ isRedeclared h (members.filter ours) n →
            n.owner.decl.isInterface) ∧
        Listing.IsFirst members (fun n =>
          ours n ∧
            ¬ isRedeclared h (members.filter ours) n) m := by
  unfold representative? at hFirst
  dsimp only at hFirst
  rw [List.filter_filter, List.head?_filter,
    List.find?_filter] at hFirst
  rcases Option.or_eq_some_iff.mp hFirst with
    hCode | ⟨hNone, hHead⟩
  · left
    apply (Listing.find?_eq_some_iff_isFirst.mp hCode).congr
    intro n _
    simp [and_comm]
  · right
    constructor
    · intro n hn hOurs hLatest
      have hNot := List.find?_eq_none.mp hNone n hn
      simpa [hOurs, hLatest] using hNot
    · apply (Listing.find?_eq_some_iff_isFirst.mp hHead).congr
      intro n _
      simp [and_comm]

/- A slot of methods stands for a group of one signature. -/
theorem representative?_eq_some_of_mem_slots
    {slot : Slot}
    (hSlot : slot ∈ (ofMembers h table t members).slots)
    (hCallable : slot.member.decl.isCallable) :
    ∃ ours : MemberNode → Bool,
      (∀ n, ours n = true ↔ reaches t n ∧
        n.decl.signature? = slot.member.decl.signature?) ∧
      representative? h (members.filter ours) =
        some slot.member ∧
      slot.overridden = (members.filter ours).filter
        (fun n => n.id != slot.member.id) := by
  rcases mem_slots_iff.mp hSlot with hMethod | hField
  · rcases hMethod.from_group with
      ⟨group, hGroup, hFirst, hRest⟩
    rcases mem_methodGroups_iff.mp hGroup with
      ⟨first, _, _, rfl⟩
    have hIn := mem_of_representative?_eq_some hFirst
    have hSame := (List.mem_filter.mp hIn).2
    simp only [Bool.and_eq_true, decide_eq_true_eq] at hSame
    rw [List.filter_filter] at hFirst
    refine ⟨_, ?_, hFirst, hRest.trans
      (congrArg (List.filter _) List.filter_filter)⟩
    intro n
    simp only [Bool.and_eq_true, decide_eq_true_eq]
    rw [and_comm, hSame.2]
    refine and_congr_right (fun _ => and_iff_right_of_imp ?_)
    intro hKey
    exact MemberDecl.isCallable_of_signature?_eq hCallable
      (hKey.trans hSame.2.symm)
  · have hNot := hField.isField
    rw [MemberDecl.isField_eq, hCallable] at hNot
    cases hNot

end Surface

------------------------------------------------------------
-- Latest Declarations
------------------------------------------------------------

/- That no subtype has a further declaration in the slot. -/
structure Slot.IsLatest
    (types : List TypeDecl)
    (slot : Slot)
    (m : MemberNode) : Prop where
  declared : m ∈ slot.declarations
  not_below :
    ∀ n ∈ slot.declarations,
      ¬ Inherits types n.owner.id m.owner.id

/-
  That a type, so many superclasses above another one, is no
  interface and declares a method of the signature that
  objects of the lower type have.
-/
structure Program.CodesAt
    (p : Program)
    (t : TypeNode)
    (key : Option (String × List TypeExpr))
    (steps : Nat)
    (c : TypeNode) : Prop where
  hasType : p.HasType c
  in_line : StepsAbove (superclass p.types) t.id steps c.id
  isInterface_eq : c.decl.isInterface = false
  declares :
    ∃ m ∈ p.declaredBy c,
      p.Reached t m ∧ m.decl.signature? = key

/- That a type is the nearest of them. -/
structure Program.CodesFirstAt
    (p : Program)
    (t : TypeNode)
    (key : Option (String × List TypeExpr))
    (steps : Nat)
    (c : TypeNode) : Prop
    extends p.CodesAt t key steps c where
  nearest : ∀ k d, p.CodesAt t key k d → steps ≤ k

theorem Program.CodesAt.exists_first
    {p : Program}
    {t : TypeNode}
    {key : Option (String × List TypeExpr)}
    (hSome : ∃ steps c, p.CodesAt t key steps c) :
    ∃ steps c, p.CodesFirstAt t key steps c := by
  classical
  rcases Nat.find_spec hSome with ⟨c, hCodes⟩
  refine ⟨Nat.find hSome, c, hCodes, ?_⟩
  intro k d hOther
  exact Nat.find_min' hSome ⟨d, hOther⟩

namespace Program.Sound

variable {p : Program}
variable (hSound : p.Sound)
variable {table : ExportTable}
variable {t : TypeNode}
variable (hType : p.HasType t)
variable {lineage : List TypeNode}
variable (hLineage : p.lineage t.id = .ok lineage)
variable {slot : Slot}
variable (hSlot :
  slot ∈ (Surface.ofMembers p.hierarchy table t
    (lineage.flatMap p.declaredBy)).slots)
variable (hCallable : slot.member.decl.isCallable)

include hSound hType hLineage hSlot hCallable

/- A slot has all methods of its signature within reach. -/
theorem mem_declarations_iff_reached
    (n : MemberNode) :
    n ∈ slot.declarations ↔
      p.Reached t n ∧
        n.decl.signature? = slot.member.decl.signature? := by
  rcases Surface.representative?_eq_some_of_mem_slots hSlot
      hCallable with
    ⟨ours, hOurs, hFirst, hRest⟩
  have hMember := Surface.mem_of_representative?_eq_some hFirst
  have hGroup :
      n ∈ (lineage.flatMap p.declaredBy).filter ours ↔
        p.Reached t n ∧
          n.decl.signature? =
            slot.member.decl.signature? := by
    rw [← hSound.mem_filter_reaches_iff hType hLineage,
      List.mem_filter, List.mem_filter, hOurs, and_assoc]
  unfold Slot.declarations
  rw [List.mem_cons, hRest, List.mem_filter, ← hGroup,
    bne_iff_ne]
  constructor
  · rintro (rfl | ⟨hn, _⟩)
    · exact hMember
    · exact hn
  · intro hn
    by_cases hId : n.id = slot.member.id
    · exact .inl ((hSound.hasMember_of_lineage hLineage
        (List.mem_of_mem_filter hn)).1.eq_of_id_eq
          (hSound.hasMember_of_lineage hLineage
            (List.mem_of_mem_filter hMember)).1 hId)
    · exact .inr ⟨hn, hId⟩

/- The search for who stands for a slot, told by its slot. -/
theorem isFirst_member :
    Listing.IsFirst (lineage.flatMap p.declaredBy) (fun n =>
        slot.IsLatest p.types n ∧
          n.owner.decl.isInterface = false) slot.member ∨
      (∀ n, slot.IsLatest p.types n →
          n.owner.decl.isInterface) ∧
        Listing.IsFirst (lineage.flatMap p.declaredBy)
          (slot.IsLatest p.types) slot.member := by
  have hMem := hSound.mem_declarations_iff_reached hType
    hLineage hSlot hCallable
  have hListed :
      ∀ n, n ∈ slot.declarations ↔
        n ∈ (lineage.flatMap p.declaredBy).filter
            (Surface.reaches t) ∧
          n.decl.signature? =
            slot.member.decl.signature? := by
    intro n
    rw [hMem, hSound.mem_filter_reaches_iff hType hLineage]
  rcases Surface.representative?_eq_some_of_mem_slots hSlot
      hCallable with
    ⟨ours, hOurs, hFirst, _⟩
  have hGroup :
      ∀ n, n ∈ (lineage.flatMap p.declaredBy).filter ours ↔
        n ∈ slot.declarations := by
    intro n
    rw [hListed, List.mem_filter, List.mem_filter, hOurs,
      and_assoc]
  have hLatest :
      ∀ n ∈ lineage.flatMap p.declaredBy,
        ours n ∧ ¬ Surface.isRedeclared p.hierarchy
            ((lineage.flatMap p.declaredBy).filter ours) n ↔
          slot.IsLatest p.types n := by
    intro n hn
    have hOwn : ours n = true ↔ n ∈ slot.declarations := by
      rw [← hGroup, List.mem_filter, and_iff_right hn]
    rw [hOwn]
    unfold Surface.isRedeclared
    simp only [List.any_eq_true, hGroup,
      hSound.fits.isAncestor_iff]
    constructor
    · rintro ⟨hDeclared, hNot⟩
      exact ⟨hDeclared, fun o ho hBelow =>
        hNot ⟨o, ho, hBelow⟩⟩
    · rintro ⟨hDeclared, hNot⟩
      exact ⟨hDeclared, fun ⟨o, ho, hBelow⟩ =>
        hNot o ho hBelow⟩
  rcases Surface.representative?_filter_cases hFirst with
    hCode | ⟨hNone, hHead⟩
  · left
    apply hCode.congr
    intro n hn
    rw [hLatest n hn]
  · right
    refine ⟨?_, hHead.congr hLatest⟩
    intro n hn
    have hIn := List.mem_of_mem_filter
      ((hGroup n).mpr hn.declared)
    rcases (hLatest n hIn).mpr hn with ⟨hOwn, hNot⟩
    exact hNone n hIn hOwn hNot

/- No subtype declares again what stands for a slot. -/
theorem isLatest_member :
    slot.IsLatest p.types slot.member := by
  rcases hSound.isFirst_member hType hLineage hSlot hCallable
    with hCode | ⟨_, hHead⟩
  · exact hCode.holds.1
  · exact hHead.holds

------------------------------------------------------------
-- Declarations In Classes
------------------------------------------------------------

/- A class that declares the method is in the line. -/
theorem exists_codesAt
    {n : MemberNode}
    (hn : n ∈ slot.declarations)
    (hCode : n.owner.decl.isInterface = false) :
    ∃ steps, p.CodesAt t slot.member.decl.signature? steps
      n.owner := by
  rcases (hSound.mem_declarations_iff_reached hType hLineage
      hSlot hCallable n).mp hn with
    ⟨hReached, hSame⟩
  have hAbove :
      n.owner.id = t.id ∨
        Inherits p.types t.id n.owner.id := by
    rcases hReached.owned_or_inherited with
      hOwn | ⟨hInherits, _⟩
    · exact .inl (congrArg TypeNode.id hOwn)
    · exact .inr hInherits
  rcases hSound.exists_stepsAbove_superclass hType
      hReached.member.2.2 hCode hAbove with
    ⟨steps, hSteps⟩
  exact ⟨steps, hReached.member.2.2, hSteps, hCode, n,
    hSound.mem_declaredBy_of_hasMember hReached.member,
    hReached, hSame⟩

variable {steps : Nat}
variable {c : TypeNode}
variable (hFirst :
  p.CodesFirstAt t slot.member.decl.signature? steps c)

include hFirst

/- All other classes that declare it are above the nearest. -/
theorem eq_or_inherits_of_codesFirstAt
    {n : MemberNode}
    (hn : n ∈ slot.declarations)
    (hCode : n.owner.decl.isInterface = false) :
    n.owner = c ∨ Inherits p.types c.id n.owner.id := by
  rcases hSound.exists_codesAt hType hLineage hSlot hCallable
      hn hCode with
    ⟨k, hOther⟩
  rcases Superclasses.eq_or_inherits_of_le hFirst.in_line
      hOther.in_line (hFirst.nearest k _ hOther) with
    hId | hAbove
  · exact .inl (hOther.hasType.eq_of_id_eq hFirst.hasType hId)
  · exact .inr hAbove

/-
  The latest declarations in classes are those of the
  nearest class.
-/
theorem isLatest_and_code_iff
    (n : MemberNode) :
    (slot.IsLatest p.types n ∧
        n.owner.decl.isInterface = false) ↔
      n ∈ slot.declarations ∧ n.owner = c := by
  constructor
  · rintro ⟨hLatest, hCode⟩
    refine ⟨hLatest.declared, ?_⟩
    rcases hSound.eq_or_inherits_of_codesFirstAt hType
        hLineage hSlot hCallable hFirst hLatest.declared hCode
      with hSame | hAbove
    · exact hSame
    · rcases hFirst.declares with ⟨m, hm, hReached, hKey⟩
      have hDeclared :=
        (hSound.mem_declarations_iff_reached hType hLineage
          hSlot hCallable m).mpr ⟨hReached, hKey⟩
      rw [← ((p.mem_declaredBy_iff c m).mp hm).2.1] at hAbove
      exact absurd hAbove (hLatest.not_below m hDeclared)
  · rintro ⟨hDeclared, rfl⟩
    refine ⟨⟨hDeclared, ?_⟩, hFirst.isInterface_eq⟩
    intro other hOther hBelow
    have hReached :=
      ((hSound.mem_declarations_iff_reached hType hLineage
        hSlot hCallable other).mp hOther).1
    have hCode := hSound.not_isInterface_of_inherits
      hFirst.hasType hReached.member.2.2 hBelow
      hFirst.isInterface_eq
    rcases hSound.eq_or_inherits_of_codesFirstAt hType
        hLineage hSlot hCallable hFirst hOther hCode with
      hSame | hAbove
    · rw [hSame] at hBelow
      exact hSound.fits.acyclic _ hBelow
    · exact hSound.fits.acyclic _ (hBelow.trans hAbove)

/- The first declaration of the nearest class stands. -/
theorem isFirst_member_of_codesFirstAt :
    Listing.IsFirst (p.declaredBy c) (fun m =>
        p.Reached t m ∧
          m.decl.signature? = slot.member.decl.signature?)
      slot.member := by
  have hMem := hSound.mem_declarations_iff_reached hType
    hLineage hSlot hCallable
  have hLatest := hSound.isLatest_and_code_iff hType hLineage
    hSlot hCallable hFirst
  rcases hFirst.declares with ⟨m, hm, hReached, hKey⟩
  have hOwner := ((p.mem_declaredBy_iff c m).mp hm).2.1
  have hIn : c ∈ lineage := by
    have hListed := List.mem_of_mem_filter
      ((hSound.mem_filter_reaches_iff hType hLineage).mpr
        hReached)
    exact hOwner ▸
      (hSound.hasMember_of_lineage hLineage hListed).2
  have hAmong :
      Listing.IsFirst (lineage.flatMap p.declaredBy) (fun n =>
        n ∈ slot.declarations ∧ n.owner = c) slot.member := by
    rcases hSound.isFirst_member hType hLineage hSlot
        hCallable with
      hCode | ⟨hNone, _⟩
    · exact hCode.congr (fun n _ => hLatest n)
    · have hm' := (hLatest m).mpr
        ⟨(hMem m).mpr ⟨hReached, hKey⟩, hOwner⟩
      rw [hNone m hm'.1] at hm'
      cases hm'.2
  have hHere := hAmong.of_flatMap hIn (by
    rintro other _ hNe n hn ⟨_, hSame⟩
    exact hNe (((p.mem_declaredBy_iff other n).mp
      hn).2.1.symm.trans hSame))
  apply hHere.congr
  intro n hn
  rw [hMem, and_iff_left
    ((p.mem_declaredBy_iff c n).mp hn).2.1]

end Program.Sound

------------------------------------------------------------
-- Methods In Views
------------------------------------------------------------

namespace ExportView.Shows

variable {v : ExportView}
variable {p : Program}
variable (hShows : v.Shows p)
variable (hSound : p.Sound)
variable {s : Surface}
variable (hSurface : s ∈ v.surfaces)

include hShows hSound hSurface

theorem mem_declarations_iff
    {slot : Slot}
    (hSlot : slot ∈ s.slots)
    (hCallable : slot.member.decl.isCallable)
    (n : MemberNode) :
    n ∈ slot.declarations ↔
      p.Reached s.type n ∧
        n.decl.signature? = slot.member.decl.signature? := by
  rcases hShows.exists_ofMembers_eq hSurface with
    ⟨lineage, hLineage, hType, hMade⟩
  rw [hMade] at hSlot
  exact hSound.mem_declarations_iff_reached hType hLineage
    hSlot hCallable n

theorem isLatest_member
    {slot : Slot}
    (hSlot : slot ∈ s.slots)
    (hCallable : slot.member.decl.isCallable) :
    slot.IsLatest p.types slot.member := by
  rcases hShows.exists_ofMembers_eq hSurface with
    ⟨lineage, hLineage, hType, hMade⟩
  rw [hMade] at hSlot
  exact hSound.isLatest_member hType hLineage hSlot hCallable

/- A method within reach is in a slot of its signature. -/
theorem exists_slot_of_isCallable
    {m : MemberNode}
    (hm : p.Reached s.type m)
    (hCallable : m.decl.isCallable) :
    ∃ slot ∈ s.slots, slot.member.decl.isCallable ∧
      slot.member.decl.signature? = m.decl.signature? ∧
        m ∈ slot.declarations := by
  rcases hShows.exists_ofMembers_eq hSurface with
    ⟨lineage, hLineage, hType, hMade⟩
  have hIn :=
    (hSound.mem_filter_reaches_iff hType hLineage).mpr hm
  have hGroup := Surface.mem_methodGroups_iff.mpr
    ⟨m, hIn, hCallable, rfl⟩
  have hHere :
      m ∈ ((lineage.flatMap p.declaredBy).filter
          (Surface.reaches s.type)).filter (fun n =>
            n.decl.isCallable &&
              decide (n.decl.signature? =
                m.decl.signature?)) := by
    rw [List.mem_filter, hCallable, decide_eq_true rfl]
    exact ⟨hIn, rfl⟩
  rcases hSound.fits.exists_representative?_eq
      (List.ne_nil_of_mem hHere) with
    ⟨first, hFirst⟩
  have hSame := Surface.mem_of_mem_methodGroups hGroup
    (Surface.mem_of_representative?_eq_some hFirst) hHere
  have hSlot :
      ∃ slot ∈ s.slots, slot.member = first := by
    apply List.mem_map.mp
    rw [hMade, Surface.map_member_slots]
    exact List.mem_append_left _
      (List.mem_filterMap.mpr ⟨_, hGroup, hFirst⟩)
  rcases hSlot with ⟨slot, hSlot, rfl⟩
  refine ⟨slot, hSlot, hSame.2.1, hSame.2.2.symm, ?_⟩
  exact (hShows.mem_declarations_iff hSound hSurface hSlot
    hSame.2.1 m).mpr ⟨hm, hSame.2.2⟩

end ExportView.Shows

------------------------------------------------------------
-- Slots Of Built Programs
------------------------------------------------------------

/-
  In every slot of methods no subtype of the owner of what
  stands for it declares the method again.  When a type or
  one of its superclasses is no interface and declares a
  method of the signature that objects have, the first one
  that the nearest of them lists stands for the slot.
  Otherwise all declarations are in interfaces, and the first
  one in the order of the ancestry stands for the slot of
  those that no subtype declares again.
-/
theorem nearest_class_or_first_interface_stands
    {draft : Draft}
    {p : Program}
    (hBuild : draft.build = .ok p) :
    ∃ v, p.exportView = .ok v ∧
      ∀ t < p.types.length, ∃ s lineage,
        v.surface t = .ok s ∧ s.type.id = t ∧
        p.lineage t = .ok lineage ∧
        ∀ slot ∈ s.slots, slot.member.decl.isCallable →
          slot.IsLatest p.types slot.member ∧
          ((∃ steps c, p.CodesAt s.type
              slot.member.decl.signature? steps c) →
            ∃ steps c,
              p.CodesFirstAt s.type
                slot.member.decl.signature? steps c ∧
              Listing.IsFirst (p.declaredBy c) (fun m =>
                  p.Reached s.type m ∧
                    m.decl.signature? =
                      slot.member.decl.signature?)
                slot.member) ∧
          ((¬ ∃ steps c, p.CodesAt s.type
              slot.member.decl.signature? steps c) →
            (∀ m ∈ slot.declarations,
              m.owner.decl.isInterface) ∧
            Listing.IsFirst (lineage.flatMap p.declaredBy)
              (slot.IsLatest p.types) slot.member) := by
  have hSound := Program.sound_of_build hBuild
  rcases hSound.exportView_succeeds with ⟨v, hView⟩
  have hShows := Program.exportView_eq_ok_iff.mp hView
  refine ⟨v, hView, ?_⟩
  intro t hLt
  rcases hShows.exists_surface hSound hLt with
    ⟨s, hSurface, hFound, hMade⟩
  have hId := Program.type_id_of_surface_eq_ok hMade
  rcases hShows.exists_ofMembers_eq hSurface with
    ⟨lineage, hLineage, hType, hEq⟩
  refine ⟨s, lineage, hFound, hId, hId ▸ hLineage, ?_⟩
  intro slot hSlot hCallable
  rw [hEq] at hSlot
  refine ⟨hSound.isLatest_member hType hLineage hSlot
    hCallable, ?_, ?_⟩
  · intro hSome
    rcases Program.CodesAt.exists_first hSome with
      ⟨steps, c, hFirst⟩
    exact ⟨steps, c, hFirst,
      hSound.isFirst_member_of_codesFirstAt hType hLineage
        hSlot hCallable hFirst⟩
  · intro hNone
    have hInterfaces :
        ∀ m ∈ slot.declarations,
          m.owner.decl.isInterface := by
      intro m hm
      apply Bool.not_eq_false _ |>.mp
      intro hCode
      rcases hSound.exists_codesAt hType hLineage hSlot
          hCallable hm hCode with
        ⟨steps, hCodes⟩
      exact hNone ⟨steps, m.owner, hCodes⟩
    refine ⟨hInterfaces, ?_⟩
    rcases hSound.isFirst_member hType hLineage hSlot
        hCallable with
      hCode | ⟨_, hHead⟩
    · have hBoth := hCode.holds
      rw [hInterfaces _ hBoth.1.declared] at hBoth
      cases hBoth.2
    · exact hHead

/-
  A radio plays and stops as all that sounds.  It is near to
  what sounds, while what is loud, and sounds too, is above
  its base, which can be stopped.
-/
def Draft.radio : Draft :=
  let method : MemberShape := .plain (.method .void) [] .empty
  ⟨[.plain "Sound" .interfaceKind .none [0, 1],
    { TypeDecl.plain "Loud" .interfaceKind .none [2, 3] with
      interfaces := [0] },
    { TypeDecl.plain "Base" .classKind .none [4] with
      interfaces := [1] },
    { TypeDecl.plain "Radio" .classKind .none [] with
      superClass := some 2
      interfaces := [0] }],
  [.plain "play" 0 method .untagged,
    .plain "stop" 0 method .untagged,
    .plain "play" 1 method .untagged,
    .plain "stop" 1 method .untagged,
    .plain "stop" 2 method .untagged]⟩

/- A class declares one of the two slots, the other none. -/
theorem Draft.radio.exists_slots
    {p : Program}
    {v : ExportView}
    {s : Surface}
    (hBuild : radio.build = .ok p)
    (hView : p.exportView = .ok v)
    (hSurface : v.surface 3 = .ok s) :
    (∃ stop ∈ s.slots,
      stop.declarations.map (fun m => m.id) = [4, 1, 3] ∧
      stop.member.decl.isCallable ∧
      stop.member.owner.decl.isInterface = false) ∧
    ∃ play ∈ s.slots,
      play.declarations.map (fun m => m.id) = [2, 0] ∧
      play.member.decl.isCallable ∧
      play.member.owner.decl.isInterface := by
  have hShown :
      (radio.build.toOption.bind (fun p =>
        p.exportView.toOption.bind (fun v =>
          (v.surface 3).toOption.map (fun s => decide
            ((∃ stop ∈ s.slots,
              stop.declarations.map (fun m => m.id) =
                  [4, 1, 3] ∧
                stop.member.decl.isCallable ∧
                stop.member.owner.decl.isInterface = false) ∧
            ∃ play ∈ s.slots,
              play.declarations.map (fun m => m.id) = [2, 0] ∧
                play.member.decl.isCallable ∧
                play.member.owner.decl.isInterface))))) =
        some true := by
    decide +kernel
  simpa only [hBuild, hView, hSurface, Except.toOption,
    Option.bind_some, Option.map_some, Option.some.injEq,
    decide_eq_true_eq] using hShown

/-
  The radio plays as what is loud does, though what sounds
  is nearer, and stops as its base does.
-/
theorem radio_plays_loud_and_stops_as_base :
    ∃ p v s lineage, Draft.radio.build = .ok p ∧
      p.exportView = .ok v ∧ v.surface 3 = .ok s ∧
      p.lineage 3 = .ok lineage ∧
      lineage.map (fun t => t.id) = [3, 2, 0, 1] ∧
      (∃ slot ∈ s.slots,
        slot.declarations.map (fun m => m.id) = [4, 1, 3] ∧
        ∃ steps c,
          p.CodesFirstAt s.type slot.member.decl.signature?
            steps c ∧
          Listing.IsFirst (p.declaredBy c) (fun m =>
              p.Reached s.type m ∧
                m.decl.signature? =
                  slot.member.decl.signature?)
            slot.member) ∧
      ∃ slot ∈ s.slots,
        slot.declarations.map (fun m => m.id) = [2, 0] ∧
        slot.IsLatest p.types slot.member ∧
        Listing.IsFirst (lineage.flatMap p.declaredBy)
          (slot.IsLatest p.types) slot.member := by
  have hBuilt : ∃ p, Draft.radio.build = .ok p := ⟨_, rfl⟩
  rcases hBuilt with ⟨p, hBuild⟩
  rcases Draft.build_eq_ok_iff.mp hBuild with
    ⟨_, _, hTypes, _⟩
  rcases nearest_class_or_first_interface_stands hBuild with
    ⟨v, hView, hEach⟩
  rcases hEach 3 (by rw [hTypes]; decide) with
    ⟨s, lineage, hSurface, _, hLineage, hSlots⟩
  have hIds :
      (Draft.radio.build.toOption.bind (fun p =>
        (p.lineage 3).toOption.map (fun lineage =>
          lineage.map (fun t => t.id)))) =
        some [3, 2, 0, 1] := by
    decide +kernel
  simp only [hBuild, hLineage, Except.toOption,
    Option.bind_some, Option.map_some,
    Option.some.injEq] at hIds
  rcases Draft.radio.exists_slots hBuild hView hSurface with
    ⟨⟨stop, hStop, hStopIds, hCallable, hClass⟩,
      play, hPlay, hPlayIds, hCalled, hInterface⟩
  refine ⟨p, v, s, lineage, hBuild, hView, hSurface,
    hLineage, hIds, ⟨stop, hStop, hStopIds, ?_⟩,
    play, hPlay, hPlayIds, ?_⟩
  · rcases hSlots stop hStop hCallable with
      ⟨_, hCode, hNone⟩
    refine hCode ?_
    by_contra hNot
    have hOnly := (hNone hNot).1 stop.member
      List.mem_cons_self
    rw [hClass] at hOnly
    cases hOnly
  · rcases hSlots play hPlay hCalled with
      ⟨hLatest, hCode, hNone⟩
    refine ⟨hLatest, (hNone ?_).2⟩
    intro hSome
    rcases hCode hSome with ⟨steps, c, hCodes, hFirst⟩
    have hOwner :=
      ((p.mem_declaredBy_iff c _).mp hFirst.mem).2.1
    rw [hOwner, hCodes.isInterface_eq] at hInterface
    cases hInterface

end JsExport
