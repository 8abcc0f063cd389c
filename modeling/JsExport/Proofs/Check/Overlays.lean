import JsExport.Proofs.Check.FunctionTypes
import JsExport.Proofs.Export.Refusal
import JsExport.Proofs.Export.Representative

/-
  Overlays that are accepted only add to their types.

  The rule on overlays scans what is declared above the type,
  and the slots of the type gather what its objects have.
  What an accepted overlay could share a slot with is another
  method of the type itself, or one above it that can be
  overridden, which the rule has looked for.  So the overlay
  is alone in its slot, and as the table refuses it an
  identity, the slot has none either.

  Main declarations:
    * `Overlay.breach?_eq_none_iff`
    * `Program.Sound.breach?_eq_none_of_kept`
    * `ExportView.Shows.exists_slotWith?`
    * `accepted_overlays_additive`
-/

namespace JsExport

open Lookup

------------------------------------------------------------
-- The Rule On Overlays
------------------------------------------------------------

namespace Overlay

variable {inNative : Bool}
variable {above : List MemberNode}
variable {m : MemberNode}

/- What is asked of a method that is an overlay. -/
theorem breach?_eq_none_iff
    (hCallable : m.decl.isCallable) :
    breach? inNative above m = none ↔
      inNative ∧ overrides above m.decl = false ∧
        hasModifiers m := by
  unfold breach?
  rw [hCallable]
  cases inNative <;> cases overrides above m.decl <;>
    cases hasModifiers m <;> simp

/- An overlay is fixed and has code of its own in objects. -/
theorem hasModifiers_iff :
    hasModifiers m ↔
      (m.decl.isFinal ∨ m.decl.isPrivate ∨
          m.owner.decl.isFinal) ∧
        m.decl.isStatic = false ∧ m.decl.isNative = false := by
  unfold hasModifiers isFixed
  simp only [Bool.and_eq_true, Bool.or_eq_true,
    Bool.not_eq_true', and_assoc]
  apply and_congr_left'
  rw [or_assoc, or_comm (a := m.owner.decl.isFinal = true)]

end Overlay

namespace Program

variable {p : Program}

/- A type that declares an overlay has the role for it. -/
theorem overlaying_mem_roles
    {t : TypeNode}
    (hHas : p.hasOverlay t)
    {roles : List TypeRole}
    (hRoles : p.roles t = .ok roles) :
    TypeRole.overlaying ∈ roles := by
  rcases bind_eq_ok_iff.mp hRoles with
    ⟨implements, _, hRest⟩
  rcases bind_eq_ok_iff.mp hRest with ⟨nearest, _, hEq⟩
  cases hEq
  simp [hHas]

namespace Sound

variable (hSound : p.Sound)

include hSound

/- Without reports the rule holds of each overlay. -/
theorem breach?_eq_none_of_kept
    (hNone : p.contractFindings = .ok [])
    {m : MemberNode}
    (hMember : p.HasMember m)
    (hOverlay : m.decl.tag = .jsOverlay) :
    ∃ ancestors,
      p.lineage m.owner.id = .ok (m.owner :: ancestors) ∧
        Overlay.breach?
          ((m.owner :: ancestors).any
            (fun s => s.decl.isNative))
          (ancestors.flatMap p.declaredBy) m = none := by
  have hType := hMember.2.2
  have hDeclared := hSound.mem_declaredBy_of_hasMember hMember
  have hHas : p.hasOverlay m.owner :=
    List.any_eq_true.mpr
      ⟨m, hDeclared, decide_eq_true hOverlay⟩
  rcases hSound.roles_succeeds hType with ⟨roles, hRoles⟩
  have hKept : Overlay.additive p m.owner = .ok [] :=
    contract_eq_nil hNone hType hRoles
      (List.mem_of_getElem? (rfl : contracts[13]? = some _))
      (overlaying_mem_roles hHas hRoles)
  rcases hSound.exists_lineage_eq_cons hType with
    ⟨ancestors, hLineage⟩
  refine ⟨ancestors, hLineage, ?_⟩
  rcases bind_eq_ok_iff.mp hKept with
    ⟨lineage, hSame, hEq⟩
  cases hLineage.symm.trans hSame
  have hEach := List.filterMap_eq_nil_iff.mp
    (Except.ok.inj hEq) m (List.mem_filter.mpr
      ⟨hDeclared, decide_eq_true hOverlay⟩)
  exact Option.map_eq_none_iff.mp hEach

/- What a type inherits is declared by the other ancestors. -/
theorem mem_above_of_inherits
    {t : TypeNode}
    {ancestors : List TypeNode}
    (hLineage : p.lineage t.id = .ok (t :: ancestors))
    {n : MemberNode}
    (hMember : p.HasMember n)
    (hInherits : Inherits p.types t.id n.owner.id) :
    n ∈ ancestors.flatMap p.declaredBy := by
  have hOwner : n.owner ∈ t :: ancestors :=
    (mem_of_lineage_eq_ok hLineage).mpr
      ⟨(hSound.fits.mem_ancestry_iff hInherits.lt_length
        _).mpr (.inr hInherits), hMember.2.2⟩
  rcases List.mem_cons.mp hOwner with hSame | hAbove
  · rw [hSame] at hInherits
    exact absurd hInherits (hSound.fits.acyclic _)
  · exact List.mem_flatMap.mpr ⟨n.owner, hAbove,
      hSound.mem_declaredBy_of_hasMember hMember⟩

/-
  Objects of the type have one method of the signature of an
  overlay that overrides nothing, if the type itself has no
  other.
-/
theorem eq_of_reached_of_not_overrides
    {m : MemberNode}
    (hMethod : m.decl.isInstanceMethod)
    {ancestors : List TypeNode}
    (hLineage :
      p.lineage m.owner.id = .ok (m.owner :: ancestors))
    (hNot :
      Overlay.overrides (ancestors.flatMap p.declaredBy)
        m.decl = false)
    (hAlone :
      ∀ n, p.HasMember n → n.owner = m.owner →
        n.decl.isInstanceMethod →
          n.decl.signature? = m.decl.signature? → n = m)
    {n : MemberNode}
    (hReached : p.Reached m.owner n)
    (hSame : n.decl.signature? = m.decl.signature?) :
    n = m := by
  have hCallable :=
    (MemberDecl.isInstanceMethod_iff.mp hMethod).1
  have hOther := hReached.isInstanceMethod
    (MemberDecl.isCallable_of_signature?_eq hCallable hSame)
  rcases hReached.owned_or_inherited with
    hOwn | ⟨hInherits, hAccess⟩
  · exact hAlone n hReached.member hOwn hOther hSame
  · have hOverridden :
        Overlay.overrides (ancestors.flatMap p.declaredBy)
          m.decl = true := by
      apply List.any_eq_true.mpr
      refine ⟨n, hSound.mem_above_of_inherits hLineage
        hReached.member hInherits, ?_⟩
      rw [Bool.and_eq_true]
      exact ⟨MemberDecl.isOverridable_iff.mpr
        ⟨hOther, hAccess⟩,
        MemberDecl.sharesSignature_of_eq hCallable hSame⟩
    rw [hNot] at hOverridden
    cases hOverridden

end Sound

end Program

------------------------------------------------------------
-- The Slot Of A Method
------------------------------------------------------------

namespace ExportView.Shows

variable {v : ExportView}
variable {p : Program}
variable (hShows : v.Shows p)
variable {s : Surface}
variable (hSurface : s ∈ v.surfaces)
variable {m : MemberNode}

include hShows hSurface

/- A slot that has a method is one of its signature. -/
theorem signature?_eq_of_mem_declarations
    {slot : Slot}
    (hSlot : slot ∈ s.slots)
    (hm : m ∈ slot.declarations)
    (hCallable : m.decl.isCallable) :
    slot.member.decl.isCallable ∧
      m.decl.signature? = slot.member.decl.signature? := by
  rcases List.mem_cons.mp hm with rfl | hOther
  · exact ⟨hCallable, rfl⟩
  · rcases hShows.exists_ofMembers_eq hSurface with
      ⟨lineage, _, _, hMade⟩
    rw [hMade] at hSlot
    exact (Surface.mem_of_mem_overridden hSlot hOther).2

variable (hSound : p.Sound)

include hSound

/- A method that objects have is found in a slot. -/
theorem exists_slotWith?
    (hm : p.Reached s.type m)
    (hCallable : m.decl.isCallable) :
    ∃ slot, s.slotWith? m.id = some slot ∧
      slot ∈ s.slots ∧ m ∈ slot.declarations := by
  rcases hShows.exists_slot_of_isCallable hSound hSurface hm
      hCallable with
    ⟨first, hFirst, _, _, hIn⟩
  have hSome : (s.slotWith? m.id).isSome :=
    List.find?_isSome.mpr
      ⟨first, hFirst, Slot.holds_iff.mpr ⟨m, hIn, rfl⟩⟩
  rcases Option.isSome_iff_exists.mp hSome with
    ⟨slot, hFound⟩
  have hSlot := List.mem_of_find?_eq_some hFound
  have hHolds := List.find?_some hFound
  rcases Slot.holds_iff.mp hHolds with ⟨n, hn, hId⟩
  rcases hShows.hasMember_slot hSound hSurface hSlot with
    ⟨hMember, hOthers⟩
  have hHas : p.HasMember n := by
    rcases List.mem_cons.mp hn with rfl | hOther
    · exact hMember
    · exact hOthers n hOther
  rw [hHas.eq_of_id_eq hm.member hId] at hn
  exact ⟨slot, hFound, hSlot, hn⟩

/- A method without others of its signature is alone. -/
theorem exists_slotWith?_eq_of_alone
    (hm : p.Reached s.type m)
    (hCallable : m.decl.isCallable)
    (hAlone :
      ∀ n, p.Reached s.type n →
        n.decl.signature? = m.decl.signature? → n = m) :
    ∃ slot, s.slotWith? m.id = some slot ∧
      slot ∈ s.slots ∧ slot.member = m ∧
        slot.overridden = [] := by
  rcases hShows.exists_slotWith? hSurface hSound hm hCallable
    with ⟨slot, hFound, hSlot, hIn⟩
  rcases hShows.signature?_eq_of_mem_declarations hSurface
      hSlot hIn hCallable with
    ⟨hStands, hSame⟩
  have hOnly : ∀ n ∈ slot.declarations, n = m := by
    intro n hn
    rcases (hShows.mem_declarations_iff hSound hSurface hSlot
        hStands n).mp hn with
      ⟨hReached, hKey⟩
    exact hAlone n hReached (hKey.trans hSame.symm)
  have hSelf := hOnly slot.member List.mem_cons_self
  refine ⟨slot, hFound, hSlot, hSelf, ?_⟩
  apply List.eq_nil_iff_forall_not_mem.mpr
  intro n hn
  rcases hShows.exists_ofMembers_eq hSurface with
    ⟨lineage, _, _, hMade⟩
  rw [hMade] at hSlot
  apply Surface.id_ne_of_mem_overridden hSlot hn
  rw [hOnly n (List.mem_cons_of_mem _ hn), hSelf]

end ExportView.Shows

------------------------------------------------------------
-- Programs Without Errors
------------------------------------------------------------

/-
  Take a program that is checked without errors and a method
  of it that is an overlay, where the type of the method has
  no other method of objects with the same signature.  The
  type is native or inherits from a native one.  The method
  belongs to objects, has code of its own, and cannot be
  declared again below.  In the surface of its type it stands
  for a slot of its own, overrides nothing there, and has no
  identity.
-/
theorem accepted_overlays_additive
    {draft : Draft}
    {p : Program}
    (hBuild : draft.build = .ok p)
    {settings : Settings}
    {outcome : Outcome}
    (hCheck : p.check settings = .ok outcome)
    (hSilent : outcome.log.errors = [])
    {m : MemberNode}
    (hMember : p.HasMember m)
    (hOverlay : m.decl.tag = .jsOverlay)
    (hCallable : m.decl.isCallable)
    (hMethod : m.decl.isConstructor = false)
    (hAlone :
      ∀ n, p.HasMember n → n.owner = m.owner →
        n.decl.isInstanceMethod →
          n.decl.signature? = m.decl.signature? → n = m) :
    (∃ a, p.HasType a ∧ a.decl.isNative ∧
      a.id ∈ p.hierarchy.ancestry m.owner.id) ∧
    m.decl.isStatic = false ∧ m.decl.isNative = false ∧
    (m.decl.isFinal ∨ m.decl.isPrivate ∨
      m.owner.decl.isFinal) ∧
    ∃ v s slot, p.exportView = .ok v ∧
      v.surface m.owner.id = .ok s ∧
      s.slotWith? m.id = some slot ∧
      slot.member = m ∧ slot.overridden = [] ∧
      slot.identity = none := by
  have hSound := Program.sound_of_build hBuild
  rcases Program.check_eq_ok_iff.mp hCheck with
    ⟨v, naming, property, contract, usability, hFinds, rfl⟩
  have hShows := hFinds.shows
  have hNone : p.contractFindings = .ok [] := by
    rw [hFinds.contract_eq, hFinds.contract_eq_nil hSilent]
  rcases hSound.breach?_eq_none_of_kept hNone hMember hOverlay
    with ⟨ancestors, hLineage, hKept⟩
  rcases (Overlay.breach?_eq_none_iff hCallable).mp hKept with
    ⟨hNative, hNot, hModifiers⟩
  rcases Overlay.hasModifiers_iff.mp hModifiers with
    ⟨hFixed, hStatic, hCode⟩
  rcases List.any_eq_true.mp hNative with ⟨a, ha, hIs⟩
  rcases (Program.mem_of_lineage_eq_ok hLineage).mp ha with
    ⟨hAbove, hHas⟩
  have hInstance : m.decl.isInstanceMethod :=
    MemberDecl.isInstanceMethod_iff.mpr
      ⟨hCallable, hMethod, hStatic⟩
  rcases hShows.exists_surface_of_hasType hSound hMember.2.2
    with ⟨s, hSurface, hFound, hType⟩
  have hReached : p.Reached s.type m :=
    ⟨hMember, hStatic, hMethod, .inl hType.symm⟩
  rcases hShows.exists_slotWith?_eq_of_alone hSurface hSound
      hReached hCallable (by
        rw [hType]
        exact fun n => hSound.eq_of_reached_of_not_overrides
          hInstance hLineage hNot hAlone) with
    ⟨slot, hSlotWith, hSlot, rfl, hOthers⟩
  have hTable :=
    hSound.isFixedPoint_exportTable hShows.table_eq
  have hRefuses : slot.member.decl.refusesExport := by
    unfold MemberDecl.refusesExport
    rw [hOverlay]
    rfl
  have hOwn : v.identity? slot.member = none :=
    hTable.identity?_of_refuses hMember hRefuses
  have hIdentity : slot.identity = none := by
    rw [hShows.identity_eq_of_unexported hSurface hSlot hOwn,
      hOthers]
    rfl
  exact ⟨⟨a, hHas, hIs, hAbove⟩, hStatic, hCode, hFixed,
    v, s, slot, Program.exportView_eq_ok_iff.mpr hShows,
    hFound, hSlotWith, rfl, hOthers, hIdentity⟩

/-
  A canvas draws as all native elements do.  It can also be
  cleared, whole or by a name that only the canvas knows of.
-/
def Draft.canvas : Draft :=
  let native : TypeFlags := ⟨true, true, false⟩
  let plain : MemberShape := .plain (.method .void) [] .empty
  ⟨[.plain "Element" .classKind native [0],
    { TypeDecl.plain "Canvas" .classKind native
        [1, 2, 3] with
      superClass := some 0 }],
  [.plain "draw" 0 plain .untagged,
    .plain "draw" 1 plain .untagged,
    { MemberDecl.plain "clear" 1 plain .jsOverlay with
      isFinal := true },
    { MemberDecl.plain "clear" 1
        (.plain (.method .void) [.string] .empty)
        .jsOverlay with
      access := .owner }]⟩

/- To clear the whole canvas is alone in its slot. -/
theorem canvas_cleared_by_overlay :
    ∃ p outcome m, Draft.canvas.build = .ok p ∧
      p.check Settings.standard = .ok outcome ∧
      outcome.log.errors = [] ∧ p.HasMember m ∧ m.id = 2 ∧
      m.decl.tag = .jsOverlay ∧
      ∃ v s slot, p.exportView = .ok v ∧
        v.surface m.owner.id = .ok s ∧
        s.slotWith? 2 = some slot ∧ slot.member = m ∧
        slot.overridden = [] ∧ slot.identity = none := by
  have hBuilt : ∃ p, Draft.canvas.build = .ok p := ⟨_, rfl⟩
  rcases hBuilt with ⟨p, hBuild⟩
  have hSound := Program.sound_of_build hBuild
  rcases Draft.build_eq_ok_iff.mp hBuild with
    ⟨_, _, _, hMembers⟩
  rcases hSound.check_succeeds Settings.standard with
    ⟨outcome, hCheck⟩
  have hSilent : outcome.log.errors = [] :=
    Draft.eq_of_map_check_eq_some hBuild hCheck
      (fun o => o.log.errors) (by decide +kernel)
  rcases hSound.exists_hasMember 2
      (by rw [hMembers]; decide) with
    ⟨m, _, hId, hMember⟩
  have hDecl : m.decl = Draft.canvas.members[2] := by
    have hFound := hMember.1
    rw [hId, hMembers] at hFound
    exact (Option.some.inj hFound).symm
  have hSame :
      ∀ i : Fin 4,
        Draft.canvas.members[i].signature? =
          Draft.canvas.members[2].signature? → i = 2 := by
    decide
  have hAlone :
      ∀ n, p.HasMember n → n.owner = m.owner →
        n.decl.isInstanceMethod →
          n.decl.signature? = m.decl.signature? → n = m := by
    intro n hOther _ _ hKey
    apply hOther.eq_of_id_eq hMember
    have hFound := hOther.1
    rw [hMembers] at hFound
    rcases List.getElem?_eq_some_iff.mp hFound with
      ⟨hLt, hOwn⟩
    rw [hDecl, ← hOwn] at hKey
    rw [hId]
    exact congrArg Fin.val (hSame ⟨n.id, hLt⟩ hKey)
  have hOverlay : m.decl.tag = .jsOverlay := by
    rw [hDecl]
    rfl
  rcases accepted_overlays_additive hBuild hCheck hSilent
      hMember hOverlay (by rw [hDecl]; rfl)
      (by rw [hDecl]; rfl) hAlone with
    ⟨_, _, _, _, v, s, slot, hView, hSurface, hSlot, hRest⟩
  rw [hId] at hSlot
  exact ⟨p, outcome, m, hBuild, hCheck, hSilent, hMember,
    hId, hOverlay, v, s, slot, hView, hSurface, hSlot,
    hRest⟩

end JsExport
