import JsExport.Proofs.Check.ClashCounts

/-
  Clashes of native members.

  The rules on names leave two native members alone, since
  their names are not given by the program.  The rules on
  properties do not, so native members are reported to clash
  when they are accessors of one kind of one property.

  Main declarations:
    * `ExportView.Shows.not_clashAt_of_isNative`
    * `native_clash_reported_iff_like_accessors`
-/

namespace JsExport

/- Native members do not clash by name. -/
theorem ExportView.Shows.not_clashAt_of_isNative
    {v : ExportView}
    {p : Program}
    (hShows : v.Shows p)
    (hSound : p.Sound)
    {m n : MemberNode}
    (hm : p.HasMember m)
    (hn : p.HasMember n)
    (hNative : m.isNative)
    (hNative' : n.isNative)
    (t : TypeId) :
    ¬ v.ClashAt t m.id n.id := by
  rintro ⟨s, hs, x, y, hBoth, hx, hy⟩
  have hSurface := hShows.mem_surfaces_of_surface_eq_ok hs
  have hFirst := (hShows.hasMember_slot hSound hSurface
    (Surface.mem_named_iff.mp hBoth.first_mem).1).1
  have hSecond := (hShows.hasMember_slot hSound hSurface
    (Surface.mem_named_iff.mp hBoth.second_mem).1).1
  apply hBoth.notNative
  rw [hFirst.eq_of_id_eq hm hx, hSecond.eq_of_id_eq hn hy]
  exact ⟨hNative, hNative'⟩

------------------------------------------------------------
-- Reports
------------------------------------------------------------

/-
  Two native members are reported to clash once at most, and
  exactly when they are like accessors at some type: they
  both read one property, or they both write it.
-/
theorem native_clash_reported_iff_like_accessors
    {draft : Draft}
    {p : Program}
    (hBuild : draft.build = .ok p)
    (settings : Settings) :
    ∃ v outcome, p.exportView = .ok v ∧
      p.check settings = .ok outcome ∧
      ∀ m n, p.HasMember m → p.HasMember n →
        m.isNative → n.isNative → m.id ≠ n.id →
          outcome.log.countClashes m.id n.id ≤ 1 ∧
          ((∃ d ∈ outcome.log.entries,
              d.isClashOf m.id n.id) ↔
            ∃ t, v.LikeAccessorsAt t m.id n.id) := by
  have hSound := Program.sound_of_build hBuild
  rcases hSound.check_succeeds settings with
    ⟨outcome, hOutcome⟩
  rcases Program.check_eq_ok_iff.mp hOutcome with
    ⟨v, naming, property, contract, usability, hFinds, rfl⟩
  have hShows := hFinds.shows
  refine ⟨v, _, Program.exportView_eq_ok_iff.mpr hShows,
    hOutcome, ?_⟩
  intro m n hm hn hNative hNative' hNe
  have hNames :
      (v.nameClashes.filter
        (Finding.isClashOf m.id n.id)).length ≠ 1 := by
    rw [Ne, hShows.length_filter_nameClashes_eq_one_iff
      hSound hNe]
    exact not_exists.mpr (hShows.not_clashAt_of_isNative
      hSound hm hn hNative hNative')
  have hNamesLe := v.length_filter_nameClashes_le m.id n.id
  have hLikesLe := v.length_filter_properties_le m.id n.id
  have hCount := hFinds.countClashes_eq m.id n.id
  dsimp only
  constructor
  · omega
  · rw [← List.countP_pos_iff,
      ← hShows.length_filter_properties_eq_one_iff hNe]
    unfold Log.countClashes at hCount
    omega

------------------------------------------------------------
-- A Native Pane
------------------------------------------------------------

/- A native window with two ways to set one property. -/
def Draft.pane : Draft :=
  ⟨[.plain "Pane" .classKind ⟨true, true, false⟩ [0, 1, 2]],
  [.plain "setSize" 0
      (.plain (.method .void) [.prim .int] .empty)
      .jsProperty,
    .plain "setSize" 0
      (.plain (.method .void) [.string] .empty) .jsProperty,
    .plain "size" 0 (.plain (.method .string) [] .empty)
      .untagged]⟩

theorem Draft.exists_native_member_of_pane
    {p : Program}
    (hBuild : Draft.pane.build = .ok p)
    (i : Nat)
    (hLt : i < Draft.pane.members.length) :
    ∃ m, p.HasMember m ∧ m.isNative ∧ m.id = i := by
  have hOwner :
      ∀ d ∈ Draft.pane.members, d.owner = some 0 := by
    decide
  refine ⟨⟨i, Draft.pane.members[i], 0,
    Draft.pane.types[0]⟩, ?_, Bool.or_true _, rfl⟩
  exact Program.hasMember_of_build hBuild
    (List.getElem?_eq_getElem hLt)
    (hOwner _ (List.getElem_mem hLt)) rfl

/- Two native members of the pane are reported to clash. -/
theorem native_setters_of_pane_clash :
    ∃ p outcome m n d, Draft.pane.build = .ok p ∧
      p.check Settings.standard = .ok outcome ∧
      p.HasMember m ∧ p.HasMember n ∧
      m.isNative ∧ n.isNative ∧ m.id ≠ n.id ∧
      d ∈ outcome.log.entries ∧ d.isClashOf m.id n.id := by
  have hBuilt : ∃ p, Draft.pane.build = .ok p := ⟨_, rfl⟩
  rcases hBuilt with ⟨p, hBuild⟩
  rcases (Program.sound_of_build hBuild).check_succeeds
      Settings.standard with
    ⟨outcome, hOutcome⟩
  rcases Draft.exists_native_member_of_pane hBuild 0
      (by decide) with
    ⟨m, hm, hNative, hId⟩
  rcases Draft.exists_native_member_of_pane hBuild 1
      (by decide) with
    ⟨n, hn, hNative', hId'⟩
  have hFound :
      outcome.log.entries.any
        (Diagnostic.isClashOf 0 1) = true :=
    Draft.eq_of_map_check_eq_some hBuild hOutcome
      (fun o => o.log.entries.any
        (Diagnostic.isClashOf 0 1))
      (by decide +kernel)
  rcases List.any_eq_true.mp hFound with ⟨d, hd, hClash⟩
  refine ⟨p, outcome, m, n, d, hBuild, hOutcome, hm, hn,
    hNative, hNative', ?_, hd, ?_⟩
  · rw [hId, hId']
    exact Nat.zero_ne_one
  · rw [hId, hId']
    exact hClash

/-
  The two setters of the pane are like accessors, so they are
  reported; the method of the same name is not, since it is
  no accessor.
-/
theorem pane_setters_reported_and_size_not :
    ∃ p v outcome, Draft.pane.build = .ok p ∧
      p.exportView = .ok v ∧
      p.check Settings.standard = .ok outcome ∧
      outcome.log.countClashes 0 1 = 1 ∧
      (∃ t, v.LikeAccessorsAt t 0 1) ∧
      (¬ ∃ d ∈ outcome.log.entries, d.isClashOf 0 2) ∧
      ¬ ∃ t, v.LikeAccessorsAt t 0 2 := by
  have hBuilt : ∃ p, Draft.pane.build = .ok p := ⟨_, rfl⟩
  rcases hBuilt with ⟨p, hBuild⟩
  rcases native_clash_reported_iff_like_accessors hBuild
      Settings.standard with
    ⟨v, outcome, hView, hOutcome, hEach⟩
  have hPair :
      ∀ i j, i < 3 → j < 3 → i ≠ j →
        ((∃ d ∈ outcome.log.entries, d.isClashOf i j) ↔
          ∃ t, v.LikeAccessorsAt t i j) := by
    intro i j hi hj hNe
    rcases Draft.exists_native_member_of_pane hBuild i hi
      with ⟨m, hm, hNative, rfl⟩
    rcases Draft.exists_native_member_of_pane hBuild j hj
      with ⟨n, hn, hNative', rfl⟩
    exact (hEach m n hm hn hNative hNative' hNe).2
  have hOnce : outcome.log.countClashes 0 1 = 1 :=
    Draft.eq_of_map_check_eq_some hBuild hOutcome
      (fun o => o.log.countClashes 0 1) (by decide +kernel)
  have hNever : outcome.log.countClashes 0 2 = 0 :=
    Draft.eq_of_map_check_eq_some hBuild hOutcome
      (fun o => o.log.countClashes 0 2) (by decide +kernel)
  have hReported :
      ∃ d ∈ outcome.log.entries, d.isClashOf 0 1 :=
    List.countP_pos_iff.mp
      (Nat.lt_of_lt_of_eq Nat.one_pos hOnce.symm)
  have hSilent :
      ¬ ∃ d ∈ outcome.log.entries, d.isClashOf 0 2 := by
    rintro ⟨d, hd, hClash⟩
    exact List.countP_eq_zero.mp hNever d hd hClash
  have hSize := hPair 0 2 (by decide) (by decide) (by decide)
  exact ⟨p, v, outcome, hBuild, hView, hOutcome, hOnce,
    (hPair 0 1 (by decide) (by decide) (by decide)).mp
      hReported,
    hSilent, fun hLike => hSilent (hSize.mpr hLike)⟩

end JsExport
