import JsExport.Proofs.Check.Severity
import JsExport.Proofs.Check.Success
import JsExport.Proofs.Rules.Usability

/-
  Which warnings a check gives.

  Members are looked at for their own export and for types
  that expose them, never for both, and each at most once.
  So the warnings are what the members deserve that are
  exported or exposed.

  Main declarations:
    * `ExportView.NamesFirst`
    * `ExportView.Shows.seen_perm`
    * `ExportView.Shows.usability_perm_deserved`
    * `usability_warnings_exact`
-/

namespace JsExport

open Lookup

namespace ExportView

/-
  That no type is named for exported members, and for each
  exposed one a type that exposes it, where no type above
  exposes the member as well.
-/
structure NamesFirst
    (v : ExportView)
    (p : Program)
    (exposing : MemberNode → Option TypeNode) : Prop where
  none_of_exports :
    ∀ m, v.table.exports m.id → exposing m = none
  first_of_accidental :
    ∀ m, v.IsAccidental m →
      ∃ s ∈ v.surfaces, exposing m = some s.type ∧
        v.Exposes s m ∧
          ∀ r ∈ v.surfaces,
            Inherits p.types s.type.id r.type.id →
              ¬ v.Exposes r m

/- The members that are exported or exposed. -/
def seen
    (v : ExportView) : List MemberNode :=
  v.members.filter (fun m =>
    decide (v.table.exports m.id ∨ v.IsAccidental m))

namespace Shows

variable {v : ExportView}
variable {p : Program}
variable (hShows : v.Shows p)
variable (hSound : p.Sound)

include hShows hSound

theorem namesFirst_exposing :
    v.NamesFirst p v.exposing :=
  ⟨fun _ => exposing_eq_none_of_exports,
    fun _ => hShows.exists_exposing_eq hSound⟩

/- Members are seen in one of two ways, and each once. -/
theorem seen_perm :
    (v.members.filter (fun m => v.table.exports m.id) ++
        v.onlyExposedSlots.map (fun slot =>
          slot.member)).Perm v.seen := by
  unfold seen
  have hMembers : v.members.Nodup :=
    Program.nodup_of_memberNodes_eq_ok hShows.members_eq
  have hSlots :
      (v.onlyExposedSlots.map (fun slot =>
        slot.member)).Nodup := by
    apply List.Nodup.of_map (fun m : MemberNode => m.id)
    rw [List.map_map]
    exact Listing.nodup_map_firstBy _ _
  apply (List.perm_ext_iff_of_nodup ?_
    (hMembers.filter _)).mpr
  · intro m
    rw [List.mem_append, List.mem_map, List.mem_filter,
      List.mem_filter, decide_eq_true_eq, and_or_left]
    apply or_congr Iff.rfl
    constructor
    · rintro ⟨slot, hSlot, rfl⟩
      exact ⟨hShows.mem_members_iff.mpr
        (hShows.hasMember_of_mem_onlyExposedSlots hSound
          hSlot),
        isAccidental_of_mem_onlyExposedSlots hSlot⟩
    · rintro ⟨_, hAccidental⟩
      exact hShows.exists_mem_onlyExposedSlots hSound
        hAccidental
  · rw [List.nodup_append]
    refine ⟨hMembers.filter _, hSlots, ?_⟩
    rintro m hm _ hn rfl
    rcases List.mem_map.mp hn with ⟨slot, hSlot, rfl⟩
    have hOwn := (List.mem_filter.mp hm).2
    rw [not_exports_of_isAccidental
      (isAccidental_of_mem_onlyExposedSlots hSlot)] at hOwn
    cases hOwn

/- The advice is what the members deserve that are seen. -/
theorem usability_perm_deserved
    {advice : Advice}
    (hOn : advice.isOn = true)
    {found : List Finding}
    (hFound : v.usability advice = .ok found) :
    found.Perm (v.seen.flatMap (fun m =>
      v.deserved advice.key (v.exposing m) m)) := by
  rcases (usability_eq_ok_iff hOn).mp hFound with
    ⟨own, exposed, hOwn, hExposed, rfl⟩
  have hFirst := flatten_eq_flatMap_of_mapM_eq_ok
    (g := fun m => v.deserved advice.key (v.exposing m) m)
    hOwn (by
      intro m hm here hHere
      rw [exposing_eq_none_of_exports
        (List.mem_filter.mp hm).2]
      exact eq_deserved_of_memberAdvice_eq_ok hHere)
  have hSecond := flatten_eq_flatMap_of_mapM_eq_ok
    (g := fun slot => v.deserved advice.key
      (v.exposing slot.member) slot.member)
    hExposed (by
      intro slot hSlot here hHere
      rw [exposing_eq_exposedBy hSlot]
      exact eq_deserved_of_memberAdvice_eq_ok hHere)
  have hSeen := (hShows.seen_perm hSound).flatMap_right
    (fun m => v.deserved advice.key (v.exposing m) m)
  rw [List.flatMap_append, List.flatMap_map] at hSeen
  rw [hFirst, hSecond]
  exact hSeen

end Shows

end ExportView

------------------------------------------------------------
-- All Warnings
------------------------------------------------------------

/-
  Take a program that was built, and settings that ask for
  advice.  The warnings are, but for their order, what each
  member deserves that is exported or exposed by some type;
  no member counts twice.  The signature of an exposed member
  names the first type that exposes it.
-/
theorem usability_warnings_exact
    {draft : Draft}
    {p : Program}
    (hBuild : draft.build = .ok p)
    {settings : Settings}
    (hOn : settings.advice.isOn = true) :
    ∃ v outcome exposing, p.exportView = .ok v ∧
      p.check settings = .ok outcome ∧
      v.NamesFirst p exposing ∧
      ((∀ m, m ∈ v.members ↔ p.HasMember m) ∧
        v.members.Nodup) ∧
      (∀ t, p.HasType t → ∃ s ∈ v.surfaces, s.type = t) ∧
      outcome.log.warnings.Perm
        ((v.seen.flatMap (fun m =>
          v.deserved settings.advice.key (exposing m)
            m)).map Finding.diagnostic) := by
  have hSound := Program.sound_of_build hBuild
  rcases hSound.check_succeeds settings with
    ⟨outcome, hCheck⟩
  rcases Program.check_eq_ok_iff.mp hCheck with
    ⟨v, naming, property, contract, usability, hFinds, rfl⟩
  have hShows := hFinds.shows
  have hAdvice := hShows.usability_perm_deserved hSound hOn
    hFinds.usability_eq
  refine ⟨v, _, v.exposing,
    Program.exportView_eq_ok_iff.mpr hShows, hCheck,
    hShows.namesFirst_exposing hSound,
    ⟨fun _ => hShows.mem_members_iff,
      Program.nodup_of_memberNodes_eq_ok hShows.members_eq⟩,
    ?_, ?_⟩
  · intro t hType
    rcases hShows.exists_surface_of_hasType hSound hType with
      ⟨s, hSurface, _, hOwn⟩
    exact ⟨s, hSurface, hOwn⟩
  · rw [hFinds.warnings_eq]
    exact (Listing.sorted_perm _ _).trans (hAdvice.map _)

/-
  A channel takes a frequency and payload, and silences the
  advice on the payload.  A radio has the method without
  knowing of channels.  A handset is both, so that it exposes
  the method of the radio, and a pager does so again.
-/
def Draft.handset : Draft :=
  let channel : TypeFlags := ⟨true, false, false⟩
  let frequency : Param := ⟨"frequency", .prim .long, []⟩
  let payload : Param := ⟨"payload", .array .object 1, []⟩
  let silent : Param :=
    { payload with suppressions := ["unusable-by-js"] }
  let send : List Param → MemberShape := fun params =>
    .callable ⟨.method .void, params, false, .empty⟩
  ⟨[.plain "Channel" .interfaceKind channel [0],
    .plain "Radio" .classKind .none [1],
    { TypeDecl.plain "Handset" .classKind .none [] with
      superClass := some 1, interfaces := [0] },
    { TypeDecl.plain "Pager" .classKind .none [] with
      superClass := some 2 }],
  [.plain "send" 0 (send [frequency, silent]) .untagged,
    .plain "send" 1 (send [frequency, payload]) .untagged]⟩

/- What is said of the frequency that the handset sends on. -/
def Draft.handset.warning : String :=
  "[unusable-by-js] Type of parameter 'frequency' " ++
    "in method 'void Radio.send(long, Object[])' " ++
    "(exposed by 'Handset') is not usable by but " ++
    "exposed to JavaScript."

/- The method of the radio is told of as the handset has it. -/
theorem send_of_radio_reported_at_handset :
    ∃ p v outcome exposing, Draft.handset.build = .ok p ∧
      Settings.standard.advice.isOn = true ∧
      p.exportView = .ok v ∧
      p.check Settings.standard = .ok outcome ∧
      v.NamesFirst p exposing ∧
      outcome.log.warnings.Perm
        ((v.seen.flatMap (fun m =>
          v.deserved "unusable-by-js" (exposing m) m)).map
            Finding.diagnostic) ∧
      outcome.log.warnings.map (fun d => d.subjects) =
        [[.member 0], [.member 1], [.member 1]] ∧
      outcome.log.warnings[1]?.map (fun d => d.message) =
        some Draft.handset.warning := by
  have hBuilt : ∃ p, Draft.handset.build = .ok p := ⟨_, rfl⟩
  rcases hBuilt with ⟨p, hBuild⟩
  have hOn : Settings.standard.advice.isOn = true := rfl
  rcases usability_warnings_exact hBuild hOn with
    ⟨v, outcome, exposing, hView, hCheck, hNames, _, _,
      hWarnings⟩
  have hSubjects :
      outcome.log.warnings.map (fun d => d.subjects) =
        [[.member 0], [.member 1], [.member 1]] :=
    Draft.eq_of_map_check_eq_some hBuild hCheck
      (fun o => o.log.warnings.map (fun d => d.subjects))
      (by decide +kernel)
  have hMessage :
      outcome.log.warnings[1]?.map (fun d => d.message) =
        some Draft.handset.warning :=
    Draft.eq_of_map_check_eq_some hBuild hCheck
      (fun o => o.log.warnings[1]?.map (fun d => d.message))
      (by decide +kernel)
  exact ⟨p, v, outcome, exposing, hBuild, hOn, hView, hCheck,
    hNames, hWarnings, hSubjects, hMessage⟩

/-
  The constructor of a clock is declared with a result.  The
  result is told of, and is not part of the signature.
-/
example :
    let clock : Draft :=
      ⟨[.plain "Clock" .classKind ⟨true, false, false⟩ [0]],
      [.plain "Clock" 0
        (.plain (.maker (.prim .long)) [] .empty)
        .untagged]⟩
    (clock.check .standard).toOption.map (fun o =>
      o.log.warnings.map (fun d => d.message)) =
      some ["[unusable-by-js] Return type of " ++
        "'Clock.Clock()' is not usable by but exposed " ++
        "to JavaScript."] := by
  decide +kernel

end JsExport
