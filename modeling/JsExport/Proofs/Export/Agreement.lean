import JsExport.Proofs.Export.Inherited
import JsExport.Proofs.Export.Slots

/-
  Slots and the table of identities.

  The table looks for an exported method above the owner of
  a member, a slot among all declarations of its method.  For
  members that may be exported the two agree but for one
  case: the exported declaration is no supertype of the owner
  and meets the member in a type below both, which then
  exposes it.

  Main declarations:
    * `MemberDecl.refusesExport`
    * `ExportView.Shows.exposedBy_of_identity_isSome`
    * `slots_agree_with_table_unless_exposed`
-/

namespace JsExport

open Lookup

------------------------------------------------------------
-- Members That Are Not Exported
------------------------------------------------------------

/-
  Whether a member refuses to be exported: an overlay does,
  and what is ignored without a tag that exports it.
-/
def MemberDecl.refusesExport
    (m : MemberDecl) : Bool :=
  m.tag == .jsOverlay || (m.isIgnored && !m.tag.isExplicit)

/- What is not exported by itself may be by overriding. -/
theorem MemberDecl.mayInheritExport_of_not_refuses
    {m : MemberDecl}
    {owner : TypeDecl}
    (hAllowed : m.refusesExport = false)
    (hDirect : ¬ m.isDirectlyExported owner)
    (hMay : m.isOverridable) :
    m.mayInheritExport := by
  unfold refusesExport at hAllowed
  rcases Bool.or_eq_false_iff.mp hAllowed with
    ⟨hOverlay, hIgnored⟩
  have hTag : (m.tag != .jsOverlay) = true := by
    simpa using hOverlay
  have hExplicit : m.tag.isExplicit = false := by
    apply Bool.eq_false_iff.mpr
    intro hExplicit
    apply hDirect
    unfold isDirectlyExported
    rw [hTag, hExplicit]
    rfl
  unfold mayInheritExport
  rw [hTag, hMay]
  simpa [hExplicit] using hIgnored

theorem MemberDecl.isOverridable_iff
    {m : MemberDecl} :
    m.isOverridable ↔
      m.isInstanceMethod ∧ m.isPrivate = false := by
  unfold isOverridable isInstanceMethod
  rw [Bool.and_eq_true, Bool.not_eq_true']

theorem MemberDecl.isCallable_eq_isSome_signature?
    (m : MemberDecl) :
    m.isCallable = m.signature?.isSome := by
  unfold isCallable signature?
  rw [Option.isSome_map]

theorem MemberDecl.isCallable_of_signature?_eq
    {m n : MemberDecl}
    (hCallable : m.isCallable)
    (hSame : n.signature? = m.signature?) :
    n.isCallable := by
  rw [isCallable_eq_isSome_signature?] at hCallable ⊢
  rw [hSame]
  exact hCallable

theorem MemberDecl.sharesSignature_of_eq
    {m n : MemberDecl}
    (hCallable : m.isCallable)
    (hSame : n.signature? = m.signature?) :
    n.sharesSignature m := by
  rw [isCallable_eq_isSome_signature?] at hCallable
  rcases Option.isSome_iff_exists.mp hCallable with
    ⟨key, hKey⟩
  exact sharesSignature_iff.mpr
    ⟨key, hSame.trans hKey, hKey⟩

------------------------------------------------------------
-- Members Of Objects
------------------------------------------------------------

/-
  That objects of a type have a member: it is the type's own
  or inherited, and what is inherited is not private.
-/
structure Program.Reached
    (p : Program)
    (t : TypeNode)
    (m : MemberNode) : Prop where
  member : p.HasMember m
  isStatic_eq : m.decl.isStatic = false
  isConstructor_eq : m.decl.isConstructor = false
  owned_or_inherited :
    m.owner = t ∨
      (Inherits p.types t.id m.owner.id ∧
        m.decl.isPrivate = false)

namespace Program

variable {p : Program}
variable {t : TypeNode}
variable {m n : MemberNode}

theorem Reached.isInstanceMethod
    (hReached : p.Reached t m)
    (hCallable : m.decl.isCallable) :
    m.decl.isInstanceMethod :=
  MemberDecl.isInstanceMethod_iff.mpr
    ⟨hCallable, hReached.isConstructor_eq,
      hReached.isStatic_eq⟩

/- What is above another member of the type is inherited. -/
theorem Reached.isPrivate_of_above
    (hAcyclic : Acyclic p.types)
    (hLow : p.Reached t m)
    (hHigh : p.Reached t n)
    (hAbove : Inherits p.types m.owner.id n.owner.id) :
    n.decl.isPrivate = false := by
  rcases hHigh.owned_or_inherited with
    hOwn | ⟨_, hAccess⟩
  · rw [hOwn] at hAbove
    rcases hLow.owned_or_inherited with
      hSame | ⟨hBelow, _⟩
    · rw [hSame] at hAbove
      exact absurd hAbove (hAcyclic _)
    · exact absurd (hBelow.trans hAbove) (hAcyclic _)
  · exact hAccess

/- An exported method is not beside one that is not. -/
theorem Reached.owner_ne_of_exports
    {table : ExportTable}
    (hApart : p.MethodsApart)
    (hLow : p.Reached t m)
    (hHigh : p.Reached t n)
    (hCallable : m.decl.isCallable)
    (hSame : n.decl.signature? = m.decl.signature?)
    (hNone : table.identity? m.id = none)
    (hExports : table.exports n.id) :
    n.owner ≠ m.owner := by
  intro hBeside
  have hMethod := hHigh.isInstanceMethod
    (MemberDecl.isCallable_of_signature?_eq hCallable hSame)
  have hEq := hApart n m hHigh.member hLow.member hBeside
    hMethod (hLow.isInstanceMethod hCallable) hSame
  unfold ExportTable.exports at hExports
  rw [hEq, hNone] at hExports
  cases hExports

variable (hSound : p.Sound)

include hSound

theorem Sound.reached_of_mem
    (hType : p.HasType t)
    {lineage : List TypeNode}
    (hLineage : p.lineage t.id = .ok lineage)
    (hMem :
      m ∈ (lineage.flatMap p.declaredBy).filter
        (Surface.reaches t)) :
    p.Reached t m := by
  rcases List.mem_filter.mp hMem with ⟨hIn, hReach⟩
  rcases hSound.hasMember_of_lineage hLineage hIn with
    ⟨hMember, hOwner⟩
  simp only [Surface.reaches, Bool.and_eq_true,
    Bool.not_eq_true', Bool.or_eq_true, beq_iff_eq] at hReach
  rcases hReach with ⟨⟨hStatic, hMaker⟩, hAccess⟩
  refine ⟨hMember, hStatic, hMaker, ?_⟩
  by_cases hSame : m.owner.id = t.id
  · exact .inl (hMember.2.2.eq_of_id_eq hType hSame)
  · have hAbove :=
      ((mem_of_lineage_eq_ok hLineage).mp hOwner).1
    rcases (hSound.fits.mem_ancestry_iff hType.lt_length
        _).mp hAbove with
      hHere | hInherits
    · exact absurd hHere hSame
    · exact .inr ⟨hInherits, hAccess.resolve_left hSame⟩

theorem Sound.isAncestorOrSelf_eq_false
    {above below : TypeId}
    (hNe : above ≠ below)
    (hNot : ¬ Inherits p.types below above) :
    p.hierarchy.isAncestorOrSelf above below = false := by
  unfold Hierarchy.isAncestorOrSelf
  rw [Bool.or_eq_false_iff, beq_eq_false_iff_ne]
  refine ⟨hNe, ?_⟩
  apply Bool.eq_false_iff.mpr
  rw [ne_eq, hSound.fits.isAncestor_iff]
  exact hNot

/-
  The exported method that another one of the type does not
  take over is declared by none of its supertypes.
-/
theorem Sound.not_inherits_of_exports
    {table : ExportTable}
    (hFixed : table.IsFixedPoint p)
    (hLow : p.Reached t m)
    (hHigh : p.Reached t n)
    (hCallable : m.decl.isCallable)
    (hSame : n.decl.signature? = m.decl.signature?)
    (hAllowed : m.decl.refusesExport = false)
    (hAccess : m.decl.isPrivate = false)
    (hNone : table.identity? m.id = none)
    (hExports : table.exports n.id) :
    ¬ Inherits p.types m.owner.id n.owner.id := by
  intro hAbove
  have hHidden : ¬ table.exports m.id := by
    unfold ExportTable.exports
    rw [hNone]
    exact Bool.false_ne_true
  have hDirect :
      ¬ m.decl.isDirectlyExported m.owner.decl := by
    intro hDirect
    exact hHidden (ExportTable.exports_iff.mpr
      ⟨_, hFixed.identity?_of_direct hLow.member hDirect⟩)
  have hMay : m.decl.mayInheritExport :=
    MemberDecl.mayInheritExport_of_not_refuses hAllowed
      hDirect (MemberDecl.isOverridable_iff.mpr
        ⟨hLow.isInstanceMethod hCallable, hAccess⟩)
  have hOver : ExportTable.isOverriddenBy m.decl n := by
    apply Bool.and_eq_true_iff.mpr
    constructor
    · exact MemberDecl.isOverridable_iff.mpr
        ⟨hHigh.isInstanceMethod
            (MemberDecl.isCallable_of_signature?_eq hCallable
              hSame),
          hLow.isPrivate_of_above hSound.fits.acyclic hHigh
            hAbove⟩
    · exact MemberDecl.sharesSignature_of_eq hCallable hSame
  exact hHidden (hSound.exports_of_exports_above hFixed
    hLow.member hMay hHigh.member hAbove hOver hExports)

end Program

------------------------------------------------------------
-- Slots And Entries
------------------------------------------------------------

/- A type exposes what it joins with an exported method. -/
theorem Surface.isExposedHere_of_unrelated
    {h : Hierarchy}
    {table : ExportTable}
    {t : TypeNode}
    {m n : MemberNode}
    {overridden : List MemberNode}
    (hElsewhere : m.owner.id ≠ t.id)
    (hn : n ∈ overridden)
    (hUnrelated :
      h.isAncestorOrSelf n.owner.id m.owner.id = false)
    (hExports : table.exports n.id) :
    isExposedHere h table t m overridden := by
  unfold isExposedHere
  rw [Bool.and_eq_true, bne_iff_ne, List.any_eq_true]
  refine ⟨hElsewhere, n, hn, ?_⟩
  rw [hUnrelated, hExports]
  rfl

namespace ExportView.Shows

variable {v : ExportView}
variable {p : Program}
variable (hShows : v.Shows p)
variable (hSound : p.Sound)
variable {s : Surface}
variable (hSurface : s ∈ v.surfaces)
variable {slot : Slot}
variable (hSlot : slot ∈ s.slots)

include hShows hSound hSurface hSlot

/-
  A slot whose member may be exported, but is not, has an
  identity only where a type exposes it.
-/
theorem exposedBy_of_identity_isSome
    (hFixed : v.table.IsFixedPoint p)
    (hApart : p.MethodsApart)
    (hAllowed : slot.member.decl.refusesExport = false)
    (hAccess : slot.member.decl.isPrivate = false)
    (hNone : v.identity? slot.member = none)
    (hSome : slot.identity.isSome) :
    slot.exposedBy = some s.type := by
  rcases Option.isSome_iff_exists.mp hSome with
    ⟨identity, hIdentity⟩
  rcases hShows.exists_passedTo?_of_identity_eq hSurface
      hSlot hNone hIdentity with
    ⟨n, hn, above, hFound, _⟩
  rcases hShows.exists_ofMembers_eq hSurface with
    ⟨lineage, hLineage, hType, hMade⟩
  rw [hMade] at hSlot
  have hExports := ExportTable.exports_iff.mpr ⟨above, hFound⟩
  rcases Surface.mem_of_mem_overridden hSlot hn with
    ⟨hReach, hCallable, hSame⟩
  have hLow := hSound.reached_of_mem hType hLineage
    (Surface.member_mem_of_mem_slots hSlot)
  have hHigh := hSound.reached_of_mem hType hLineage hReach
  have hNotAbove := hSound.not_inherits_of_exports hFixed
    hLow hHigh hCallable hSame hAllowed hAccess hNone hExports
  have hNotBeside := Program.Reached.owner_ne_of_exports
    hApart hLow hHigh hCallable hSame hNone hExports
  have hElsewhere : slot.member.owner ≠ s.type := by
    intro hHere
    rcases hHigh.owned_or_inherited with
      hOwn | ⟨hInherits, _⟩
    · exact hNotBeside (hOwn.trans hHere.symm)
    · exact hNotAbove (hHere ▸ hInherits)
  rcases Surface.mem_slots_iff.mp hSlot with hMethod | hField
  swap
  · rw [hField.eq_fieldSlot] at hn
    cases hn
  rw [hMethod.exposedBy_eq, if_pos]
  refine Surface.isExposedHere_of_unrelated ?_ hn ?_ hExports
  · intro hId
    exact hElsewhere
      (hLow.member.2.2.eq_of_id_eq hType hId)
  · refine hSound.isAncestorOrSelf_eq_false ?_ hNotAbove
    intro hId
    exact hNotBeside
      (hHigh.member.2.2.eq_of_id_eq hLow.member.2.2 hId)

end ExportView.Shows

------------------------------------------------------------
-- Views Of Built Programs
------------------------------------------------------------

/-
  Where no type has two methods of one signature, a slot
  whose member may be exported has the identity of the
  member, or else the identity comes from elsewhere and the
  type exposes it.  Where also no type lists a member twice,
  each exported member of objects stands for exactly one slot
  of its own type, with its identity.
-/
theorem slots_agree_with_table_unless_exposed
    {draft : Draft}
    {p : Program}
    (hBuild : draft.build = .ok p)
    (hApart : p.MethodsApart) :
    ∃ v, p.exportView = .ok v ∧
      ∀ t < p.types.length, ∃ s, v.surface t = .ok s ∧
        s.type.id = t ∧
        (∀ slot ∈ s.slots,
          ¬ slot.member.decl.refusesExport →
          ¬ slot.member.decl.isPrivate →
            slot.identity = v.identity? slot.member ∨
              (v.identity? slot.member = none ∧
                slot.identity.isSome ∧
                slot.exposedBy = some s.type)) ∧
        ((∀ d ∈ p.types, d.members.Nodup) →
          ∀ m ∈ p.declaredBy s.type,
            ¬ m.decl.isStatic → ¬ m.decl.isConstructor →
            (v.identity? m).isSome →
              ∃ slot,
                s.slots.filter (fun e => e.member = m) =
                    [slot] ∧
                  slot.identity = v.identity? m) := by
  have hSound := Program.sound_of_build hBuild
  rcases hSound.exportView_succeeds with ⟨v, hView⟩
  have hShows := Program.exportView_eq_ok_iff.mp hView
  have hFixed : v.table.IsFixedPoint p :=
    hSound.isFixedPoint_iff.mpr
      (hSound.resolves_exportTable hShows.table_eq)
  refine ⟨v, hView, ?_⟩
  intro t hLt
  rcases hShows.exists_surface hSound hLt with
    ⟨s, hSurface, hFound, hMade⟩
  refine ⟨s, hFound, Program.type_id_of_surface_eq_ok hMade,
    ?_, ?_⟩
  · intro slot hSlot hAllowed hAccess
    cases hOwn : v.identity? slot.member with
    | some identity =>
        exact .inl (hShows.identity_eq_of_exported hSurface
          hSlot hOwn)
    | none =>
        cases hIdentity : slot.identity with
        | none => exact .inl rfl
        | some identity =>
            refine .inr ⟨rfl, rfl, ?_⟩
            exact hShows.exposedBy_of_identity_isSome hSound
              hSurface hSlot hFixed hApart
              (by simpa using hAllowed)
              (by simpa using hAccess) hOwn
              (by rw [hIdentity]; rfl)
  · intro hOnce m hDeclared hStatic hMaker hExported
    rcases hShows.exists_slot_of_own hSound hSurface hApart
        hOnce hDeclared (by simpa using hStatic)
        (by simpa using hMaker) with
      ⟨slot, hSlot, rfl⟩
    rcases Option.isSome_iff_exists.mp hExported with
      ⟨identity, hOwn⟩
    refine ⟨slot, ?_, ?_⟩
    · exact hShows.filter_member_eq hSound hSurface hOnce
        hSlot
    · rw [hOwn]
      exact hShows.identity_eq_of_exported hSurface hSlot hOwn

/-
  A front door opens, and rings like a door and a bell that
  know nothing of each other.
-/
def Draft.frontDoor : Draft :=
  let exported : TypeFlags := ⟨true, false, false⟩
  ⟨[.plain "Bell" .interfaceKind exported [0],
    .plain "Door" .classKind .none [1],
    { TypeDecl.plain "FrontDoor" .classKind .none [2] with
      superClass := some 1
      interfaces := [0] }],
  [.plain "ring" 0 (.plain (.method .void) [] .empty)
      .untagged,
    .plain "ring" 1 (.plain (.method .void) [] .empty)
      .untagged,
    .plain "open" 2 (.plain (.method .void) [] .empty)
      .jsMethod]⟩

theorem Draft.frontDoor_methodsApart
    {p : Program}
    (hBuild : Draft.frontDoor.build = .ok p) :
    p.MethodsApart := by
  rcases (Program.sound_of_build
      hBuild).memberNodes_succeeds with
    ⟨members, hMembers⟩
  have hAll :
      (Draft.frontDoor.build.toOption.bind (fun p =>
        p.memberNodes.toOption.map (fun members =>
          decide (∀ m ∈ members, ∀ n ∈ members,
            m.owner = n.owner → m = n)))) = some true := by
    decide +kernel
  rw [hBuild] at hAll
  simp only [Except.toOption, Option.bind_some, hMembers,
    Option.map_some, Option.some.injEq, decide_eq_true_eq]
    at hAll
  intro m n hm hn hOwner _ _ _
  exact hAll m
    ((Program.mem_of_memberNodes_eq_ok hMembers).mpr hm) n
    ((Program.mem_of_memberNodes_eq_ok hMembers).mpr hn)
    hOwner

/-
  The front door exposes the ring of the door, which is not
  exported by the door, and has its own opening once.
-/
theorem front_door_exposes_ring :
    ∃ p v s, Draft.frontDoor.build = .ok p ∧
      p.MethodsApart ∧ p.exportView = .ok v ∧
      v.surface 2 = .ok s ∧
      (∃ slot ∈ s.slots, slot.member.id = 1 ∧
        v.identity? slot.member = none ∧
        slot.identity.isSome ∧
        slot.exposedBy = some s.type) ∧
      ∃ m slot, m.id = 2 ∧
        s.slots.filter (fun e => e.member = m) = [slot] ∧
        slot.identity = v.identity? m := by
  have hBuilt : ∃ p, Draft.frontDoor.build = .ok p := ⟨_, rfl⟩
  rcases hBuilt with ⟨p, hBuild⟩
  have hApart := Draft.frontDoor_methodsApart hBuild
  rcases slots_agree_with_table_unless_exposed hBuild hApart
    with ⟨v, hView, hEach⟩
  rcases Draft.build_eq_ok_iff.mp hBuild with
    ⟨_, _, hTypes, hMembers⟩
  rcases hEach 2 (by rw [hTypes]; decide) with
    ⟨s, hSurface, _, hSlots, hOwn⟩
  have hSeen :
      (Draft.frontDoor.build.toOption.bind (fun p =>
        p.exportView.toOption.bind (fun v =>
          (v.surface 2).toOption.map (fun s =>
            s.slots.map (fun slot =>
              (slot.member.id, slot.identity.isSome,
                (v.identity? slot.member).isSome)))))) =
        some [(2, true, true), (1, true, false)] := by
    decide +kernel
  have hTold :
      (Draft.frontDoor.build.toOption.bind (fun p =>
        p.exportView.toOption.bind (fun v =>
          (v.surface 2).toOption.map (fun s =>
            decide (∀ slot ∈ s.slots,
              slot.member.decl.refusesExport = false ∧
                slot.member.decl.isPrivate = false ∧
                slot.member.decl.isStatic = false ∧
                slot.member.decl.isConstructor = false ∧
                (slot.member.id = 2 →
                  slot.member ∈ p.declaredBy s.type)))))) =
        some true := by
    decide +kernel
  simp only [hBuild, hView, hSurface, Except.toOption,
    Option.bind_some, Option.map_some, Option.some.injEq,
    decide_eq_true_eq] at hSeen hTold
  refine ⟨p, v, s, hBuild, hApart, hView, hSurface, ?_, ?_⟩
  · have hRing : (1, true, false) ∈ s.slots.map (fun slot =>
        (slot.member.id, slot.identity.isSome,
          (v.identity? slot.member).isSome)) := by
      rw [hSeen]
      exact List.mem_cons_of_mem _ List.mem_cons_self
    rcases List.mem_map.mp hRing with ⟨slot, hSlot, hEq⟩
    simp only [Prod.mk.injEq] at hEq
    rcases hTold slot hSlot with ⟨hAllowed, hAccess, _⟩
    rcases hSlots slot hSlot (by simp [hAllowed])
        (by simp [hAccess]) with
      hSame | ⟨hNone, hSome, hExposed⟩
    · rw [hSame, hEq.2.2] at hEq
      cases hEq.2.1
    · exact ⟨slot, hSlot, hEq.1, hNone, hSome, hExposed⟩
  · have hOpen : (2, true, true) ∈ s.slots.map (fun slot =>
        (slot.member.id, slot.identity.isSome,
          (v.identity? slot.member).isSome)) := by
      rw [hSeen]
      exact List.mem_cons_self
    rcases List.mem_map.mp hOpen with ⟨slot, hSlot, hEq⟩
    simp only [Prod.mk.injEq] at hEq
    rcases hTold slot hSlot with
      ⟨_, _, hStatic, hMaker, hDeclared⟩
    rcases hOwn (by rw [hTypes]; decide) slot.member
        (hDeclared hEq.1) (by simp [hStatic])
        (by simp [hMaker]) hEq.2.2 with
      ⟨found, hFound, hIdentity⟩
    exact ⟨slot.member, found, hEq.1, hFound, hIdentity⟩

end JsExport
