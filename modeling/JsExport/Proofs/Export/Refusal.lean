import JsExport.Proofs.Export.Agreement

/-
  Members that refuse to be exported, and their slots.

  The table gives an overlay no identity, nor a member that
  is ignored without a tag that exports it.  A slot asks
  further: when another declaration of the method is
  exported, the slot takes its role over, also for a member
  that refuses.  So such a slot stays without a name exactly
  when none of its other declarations is exported.

  Main declarations:
    * `ExportTable.IsFixedPoint.identity?_of_refuses`
    * `ExportView.Shows.identity_eq_none_iff`
    * `refusing_slot_unnamed_iff_none_exported`
-/

namespace JsExport

open Lookup

------------------------------------------------------------
-- Entries Of Members That Refuse
------------------------------------------------------------

namespace MemberDecl

variable {m : MemberDecl}

theorem isDirectlyExported_of_refuses
    (hRefuses : m.refusesExport)
    (owner : TypeDecl) :
    m.isDirectlyExported owner = false := by
  unfold refusesExport at hRefuses
  unfold isDirectlyExported
  rcases Bool.or_eq_true_iff.mp hRefuses with
    hOverlay | hIgnored
  · rw [bne, hOverlay]
    rfl
  · rcases Bool.and_eq_true_iff.mp hIgnored with
      ⟨hIgnored, hTag⟩
    have hExplicit : m.tag.isExplicit = false := by
      simpa using hTag
    rw [hIgnored, hExplicit]
    simp

theorem mayInheritExport_of_refuses
    (hRefuses : m.refusesExport) :
    m.mayInheritExport = false := by
  unfold refusesExport at hRefuses
  unfold mayInheritExport
  rcases Bool.or_eq_true_iff.mp hRefuses with
    hOverlay | hIgnored
  · rw [bne, hOverlay]
    rfl
  · rw [(Bool.and_eq_true_iff.mp hIgnored).1]
    simp

end MemberDecl

/- A member that refuses has no identity of its own. -/
theorem ExportTable.IsFixedPoint.identity?_of_refuses
    {p : Program}
    {table : ExportTable}
    (hFixed : table.IsFixedPoint p)
    {m : MemberNode}
    (hMember : p.HasMember m)
    (hRefuses : m.decl.refusesExport) :
    table.identity? m.id = none := by
  rcases hFixed m hMember with ⟨ancestors, _, hAssigns⟩
  have hDirect :
      ¬ m.decl.isDirectlyExported m.owner.decl := by
    rw [MemberDecl.isDirectlyExported_of_refuses hRefuses]
    exact Bool.false_ne_true
  rw [ExportTable.eq_resolve?_of_assigns hAssigns,
    ExportTable.resolve?_of_not_isDirectlyExported hDirect,
    MemberDecl.mayInheritExport_of_refuses hRefuses]
  rfl

------------------------------------------------------------
-- Slots Of Members That Refuse
------------------------------------------------------------

namespace ExportView.Shows

variable {v : ExportView}
variable {p : Program}
variable (hShows : v.Shows p)
variable (hSound : p.Sound)
variable {s : Surface}
variable (hSurface : s ∈ v.surfaces)
variable {slot : Slot}
variable (hSlot : slot ∈ s.slots)

include hShows hSound hSurface hSlot

/- An exported declaration of a method has a role to pass. -/
theorem role_of_overridden
    (hFixed : v.table.IsFixedPoint p)
    {n : MemberNode}
    (hn : n ∈ slot.overridden)
    {identity : JsIdentity}
    (hIdentity : v.identity? n = some identity) :
    identity.role = .method ∨ identity.role.isProperty := by
  rcases hShows.exists_ofMembers_eq hSurface with
    ⟨lineage, hLineage, hType, hMade⟩
  rw [hMade] at hSlot
  rcases Surface.mem_of_mem_overridden hSlot hn with
    ⟨hReach, hCallable, hSame⟩
  have hReached :=
    hSound.reached_of_mem hType hLineage hReach
  have hMethod := hReached.isInstanceMethod
    (MemberDecl.isCallable_of_signature?_eq hCallable hSame)
  exact hSound.role_of_isInstanceMethod hFixed
    hReached.member hMethod hIdentity

/-
  A slot without an entry has no identity exactly when none
  of its other declarations is exported.
-/
theorem identity_eq_none_iff
    (hFixed : v.table.IsFixedPoint p)
    (hOwn : v.identity? slot.member = none) :
    slot.identity = none ↔
      ∀ n ∈ slot.overridden, v.identity? n = none := by
  rw [hShows.identity_eq_of_unexported hSurface hSlot hOwn,
    ← List.findSome?_eq_none_iff]
  cases hFind : slot.overridden.findSome? v.identity? with
  | none => simp
  | some above =>
      rcases List.exists_of_findSome?_eq_some hFind with
        ⟨n, hn, hAbove⟩
      have hRole := hShows.role_of_overridden hSound hSurface
        hSlot hFixed hn hAbove
      rcases JsIdentity.passedTo?_isSome_of_role hRole
          slot.member.decl with
        ⟨identity, hPassed⟩
      simp [hPassed]

end ExportView.Shows

------------------------------------------------------------
-- Views Of Built Programs
------------------------------------------------------------

/-
  A member that refuses to be exported has no identity, and
  its slot has none exactly when no other declaration of the
  method is exported.  Otherwise the slot takes the role of
  such a declaration over, under the name of the member.
-/
theorem refusing_slot_unnamed_iff_none_exported
    {draft : Draft}
    {p : Program}
    (hBuild : draft.build = .ok p) :
    ∃ v, p.exportView = .ok v ∧
      ∀ t < p.types.length, ∃ s, v.surface t = .ok s ∧
        ∀ slot ∈ s.slots, slot.member.decl.refusesExport →
          v.identity? slot.member = none ∧
          (slot.identity = none ↔
            ∀ n ∈ slot.overridden, v.identity? n = none) ∧
          ∀ identity, slot.identity = some identity →
            ∃ n ∈ slot.overridden, ∃ above,
              v.identity? n = some above ∧
                identity.TakesOver above
                  slot.member.decl := by
  have hSound := Program.sound_of_build hBuild
  rcases hSound.exportView_succeeds with ⟨v, hView⟩
  have hShows := Program.exportView_eq_ok_iff.mp hView
  have hFixed : v.table.IsFixedPoint p :=
    hSound.isFixedPoint_iff.mpr
      (hSound.resolves_exportTable hShows.table_eq)
  refine ⟨v, hView, ?_⟩
  intro t hLt
  rcases hShows.exists_surface hSound hLt with
    ⟨s, hSurface, hFound, _⟩
  refine ⟨s, hFound, ?_⟩
  intro slot hSlot hRefuses
  have hMember :=
    (hShows.hasMember_slot hSound hSurface hSlot).1
  have hOwn : v.identity? slot.member = none :=
    hFixed.identity?_of_refuses hMember hRefuses
  refine ⟨hOwn, ?_, ?_⟩
  · exact hShows.identity_eq_none_iff hSound hSurface hSlot
      hFixed hOwn
  · intro identity hIdentity
    rcases hShows.exists_passedTo?_of_identity_eq hSurface
        hSlot hOwn hIdentity with
      ⟨n, hn, above, hAbove, hPassed⟩
    exact ⟨n, hn, above, hAbove,
      JsIdentity.takesOver_of_passedTo?_eq hPassed⟩

/-
  A bell of a shop ignores the interface that names it, and a
  gong plays as an overlay of what a native class plays.  A
  whistle is ignored and nothing names it.
-/
def Draft.gong : Draft :=
  let exported : TypeFlags := ⟨true, false, false⟩
  let native : TypeFlags := ⟨true, true, false⟩
  let ring : MemberShape :=
    .plain (.method .void) [] .empty
  ⟨[.plain "Named" .interfaceKind exported [0],
    { TypeDecl.plain "Bell" .classKind .none [1, 2] with
      interfaces := [0] },
    .plain "Brass" .classKind native [3],
    { TypeDecl.plain "Gong" .classKind native [4] with
      superClass := some 2 }],
  [.plain "ring" 0 ring .untagged,
    { MemberDecl.plain "ring" 1 ring .untagged with
      isIgnored := true },
    { MemberDecl.plain "whistle" 1 ring .untagged with
      isIgnored := true },
    .plain "play" 2 ring .untagged,
    { MemberDecl.plain "play" 3 ring .jsOverlay with
      isFinal := true }]⟩

/-
  The whistle has no name, and the bell takes the role of
  the interface over.
-/
theorem whistle_unnamed_and_bell_named :
    ∃ p v s, Draft.gong.build = .ok p ∧
      p.exportView = .ok v ∧ v.surface 1 = .ok s ∧
      (∃ slot ∈ s.slots, slot.member.id = 2 ∧
        slot.member.decl.refusesExport ∧
        slot.identity = none) ∧
      ∃ slot ∈ s.slots, slot.member.id = 1 ∧
        slot.member.decl.refusesExport ∧
        v.identity? slot.member = none ∧
        ∃ n ∈ slot.overridden, ∃ above identity,
          slot.identity = some identity ∧
          v.identity? n = some above ∧
          identity.TakesOver above slot.member.decl := by
  have hBuilt : ∃ p, Draft.gong.build = .ok p := ⟨_, rfl⟩
  rcases hBuilt with ⟨p, hBuild⟩
  rcases refusing_slot_unnamed_iff_none_exported hBuild with
    ⟨v, hView, hEach⟩
  have hCount : p.types.length = 4 := by
    rw [(Draft.build_eq_ok_iff.mp hBuild).2.2.1]
    rfl
  rcases hEach 1 (by omega) with ⟨s, hSurface, hSlots⟩
  let seen : Slot → Nat × Bool × Bool × Bool := fun slot =>
    (slot.member.id, slot.member.decl.refusesExport,
      slot.overridden.isEmpty, slot.identity.isSome)
  have hSeen :
      (Draft.gong.build.toOption.bind (fun p =>
        p.exportView.toOption.bind (fun v =>
          (v.surface 1).toOption.map (fun s =>
            s.slots.map seen)))) =
        some [(1, true, false, true),
          (2, true, true, false)] := by
    decide +kernel
  simp only [hBuild, hView, hSurface, Except.toOption,
    Option.bind_some, Option.map_some,
    Option.some.injEq] at hSeen
  refine ⟨p, v, s, hBuild, hView, hSurface, ?_, ?_⟩
  · have hWhistle :
        (2, true, true, false) ∈ s.slots.map seen := by
      rw [hSeen]
      exact List.mem_cons_of_mem _ List.mem_cons_self
    rcases List.mem_map.mp hWhistle with ⟨slot, hSlot, hEq⟩
    simp only [seen, Prod.mk.injEq,
      List.isEmpty_iff] at hEq
    rcases hEq with ⟨hId, hRefuses, hAlone, _⟩
    rcases hSlots slot hSlot hRefuses with ⟨_, hNone, _⟩
    refine ⟨slot, hSlot, hId, hRefuses, hNone.mpr ?_⟩
    rw [hAlone]
    intro n hn
    cases hn
  · have hBell :
        (1, true, false, true) ∈ s.slots.map seen := by
      rw [hSeen]
      exact List.mem_cons_self
    rcases List.mem_map.mp hBell with ⟨slot, hSlot, hEq⟩
    simp only [seen, Prod.mk.injEq] at hEq
    rcases hEq with ⟨hId, hRefuses, _, hSome⟩
    rcases hSlots slot hSlot hRefuses with
      ⟨hOwn, _, hTakes⟩
    rcases Option.isSome_iff_exists.mp hSome with
      ⟨identity, hIdentity⟩
    rcases hTakes identity hIdentity with
      ⟨n, hn, above, hAbove, hOver⟩
    exact ⟨slot, hSlot, hId, hRefuses, hOwn, n, hn, above,
      identity, hIdentity, hAbove, hOver⟩

/- The bell is ignored and the gong an overlay, yet named. -/
theorem bell_and_gong_named_by_slots :
    ∃ p v s u x y, Draft.gong.build = .ok p ∧
      p.exportView = .ok v ∧
      v.surface 1 = .ok s ∧ x ∈ s.slots ∧
      x.member.decl.isIgnored ∧
      x.member.decl.tag = .untagged ∧
      x.identity = some ⟨.method, "ring", false⟩ ∧
      v.surface 3 = .ok u ∧ y ∈ u.slots ∧
      y.member.decl.tag = .jsOverlay ∧
      y.identity = some ⟨.method, "play", false⟩ := by
  have hBuilt : ∃ p, Draft.gong.build = .ok p := ⟨_, rfl⟩
  rcases hBuilt with ⟨p, hBuild⟩
  have hSound := Program.sound_of_build hBuild
  rcases hSound.exportView_succeeds with ⟨v, hView⟩
  have hShows := Program.exportView_eq_ok_iff.mp hView
  have hCount : p.types.length = 4 := by
    rw [(Draft.build_eq_ok_iff.mp hBuild).2.2.1]
    rfl
  rcases hShows.exists_surface hSound
      (show 1 < p.types.length by omega) with
    ⟨s, _, hSurface, _⟩
  rcases hShows.exists_surface hSound
      (show 3 < p.types.length by omega) with
    ⟨u, _, hOther, _⟩
  let seen : Slot → Bool × ExportTag × Option JsIdentity :=
    fun slot => (slot.member.decl.isIgnored,
      slot.member.decl.tag, slot.identity)
  have hBells :
      (Draft.gong.build.toOption.bind (fun p =>
        p.exportView.toOption.bind (fun v =>
          (v.surface 1).toOption.bind (fun s =>
            (s.slots.map seen).head?)))) =
        some (true, .untagged,
          some ⟨.method, "ring", false⟩) := by
    decide +kernel
  have hGongs :
      (Draft.gong.build.toOption.bind (fun p =>
        p.exportView.toOption.bind (fun v =>
          (v.surface 3).toOption.bind (fun s =>
            (s.slots.map seen).head?)))) =
        some (false, .jsOverlay,
          some ⟨.method, "play", false⟩) := by
    decide +kernel
  simp only [hBuild, hView, hSurface, hOther,
    Except.toOption, Option.bind_some] at hBells hGongs
  rcases List.mem_map.mp (List.mem_of_mem_head? hBells)
    with ⟨x, hx, hBell⟩
  rcases List.mem_map.mp (List.mem_of_mem_head? hGongs)
    with ⟨y, hy, hGong⟩
  simp only [seen, Prod.mk.injEq] at hBell hGong
  exact ⟨p, v, s, u, x, y, hBuild, hView, hSurface, hx,
    hBell.1, hBell.2.1, hBell.2.2, hOther, hy, hGong.2.1,
    hGong.2.2⟩

end JsExport
