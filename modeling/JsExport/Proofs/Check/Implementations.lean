import JsExport.Proofs.Lookup.Permuted
import JsExport.Proofs.Rules.Claims
import JsExport.Proofs.Rules.ImplementationSearch

/-
  Reports of classes below an implementation.

  An implementation of a function type restricts all classes
  below it, at whatever depth.  Each of them is reported
  once, with the implementation that is nearest above it,
  and no other rule reports the like.

  Main declarations:
    * `Finding.isExtensionOf`
    * `Contract.filter_isExtension_eq_nil`
    * `Program.Sound.filter_typeFindings`
    * `classes_below_implementations_reported`
-/

namespace JsExport

open Lookup Supertypes

------------------------------------------------------------
-- Reports Of Extended Implementations
------------------------------------------------------------

/- Whether a breach is that an implementation is extended. -/
def Breach.isExtension : Breach → Bool
| .extendsImpl _ _ => true
| _ => false

/- Whether a finding is that a type extends one. -/
def Finding.isExtensionOf
    (t : TypeId)
    (f : Finding) : Bool :=
  f.breach.isExtension && decide (f.subjects = [.type t])

/- What is found of a type below an implementation. -/
def TypeNode.extensionOf
    (t above : TypeNode) : Finding :=
  .ofType t (.extendsImpl t.decl.qualifiedName
    above.decl.qualifiedName)

theorem TypeNode.isExtensionOf_extensionOf
    {t above : TypeNode}
    {s : TypeId} :
    (t.extensionOf above).isExtensionOf s ↔ t.id = s := by
  unfold Finding.isExtensionOf extensionOf Finding.ofType
    Breach.isExtension
  simp

/- Only the contract of one role gives such findings. -/
theorem Breach.role?_eq_of_isExtension
    {breach : Breach}
    (hExtension : breach.isExtension) :
    breach.role? = some .implementationSubtype := by
  cases breach with
  | extendsImpl => rfl
  | _ => cases hExtension

theorem Contract.filter_isExtension_eq_nil
    {p : Program}
    {t : TypeNode}
    {c : Contract}
    (hContract : c ∈ contracts)
    (hRole : c.role ≠ .implementationSubtype) :
    ((c.findings p t).toOption.getD []).filter
      (fun f => f.breach.isExtension) = [] := by
  cases hFound : c.findings p t with
  | error => rfl
  | ok findings =>
      apply List.filter_eq_nil_iff.mpr
      intro f hf hExtension
      have hSame :=
        (role?_of_mem hContract hFound hf).symm.trans
          (Breach.role?_eq_of_isExtension hExtension)
      exact hRole (Option.some.inj hSame)

namespace Program.Sound

variable {p : Program}
variable (hSound : p.Sound)
variable {t : TypeNode}
variable (hType : p.HasType t)

include hSound hType

/- A type is reported with its nearest implementation. -/
theorem filter_typeFindings
    {found : Option TypeNode}
    (hNearest : p.nearestImplementation? t = .ok found)
    {findings : List Finding}
    (hFindings : p.typeFindings t = .ok findings) :
    findings.filter (fun f => f.breach.isExtension) =
      found.toList.map t.extensionOf := by
  rcases hSound.implementsFunction_succeeds hType with
    ⟨implements, hImplements⟩
  rcases mem_roles hImplements hNearest with
    ⟨roles, hRoles, _, _, _, hRole⟩
  rcases bind_eq_ok_iff.mp hFindings with
    ⟨same, hSame, hRest⟩
  cases hRoles.symm.trans hSame
  rcases bind_eq_ok_iff.mp hRest with ⟨each, hEach, hEq⟩
  cases hEq
  -- There is one contract for types below implementations.
  have hOne :
      contracts.filter (fun c =>
          decide (c.role = .implementationSubtype)) =
        [⟨.implementationSubtype,
          Implementation.notExtended⟩] := rfl
  have hFound :
      Implementation.notExtended p t =
        .ok (found.toList.map t.extensionOf) := by
    unfold Implementation.notExtended
    rw [hNearest]
    cases found with
    | none => rfl
    | some above => rfl
  rw [flatten_eq_of_mapM_eq_ok hEach, List.filter_flatMap,
    ← Listing.flatMap_filter_of_eq_nil (fun c =>
      decide (c.role = .implementationSubtype)),
    List.filter_comm, hOne]
  · cases found with
    | none =>
        apply List.flatMap_eq_nil_iff.mpr
        intro c hc
        cases List.mem_singleton.mp
          (List.mem_of_mem_filter hc)
        simp only [hFound]
        rfl
    | some above =>
        have hHeld :
            roles.contains TypeRole.implementationSubtype :=
          List.contains_iff_mem.mpr (hRole rfl)
        simp only [List.filter_cons, List.filter_nil, hHeld,
          if_true, List.flatMap_singleton, hFound]
        rfl
  · intro c hc hOther
    exact Contract.filter_isExtension_eq_nil
      (List.mem_of_mem_filter hc) (of_decide_eq_false hOther)

/- The findings on a type are about that type. -/
theorem filter_isExtensionOf
    {found : Option TypeNode}
    (hNearest : p.nearestImplementation? t = .ok found)
    {findings : List Finding}
    (hFindings : p.typeFindings t = .ok findings)
    (s : TypeId) :
    findings.filter (Finding.isExtensionOf s) =
      if t.id = s then found.toList.map t.extensionOf
      else [] := by
  have hAll := hSound.filter_typeFindings hType hNearest
    hFindings
  have hSplit :
      findings.filter (Finding.isExtensionOf s) =
        (found.toList.map t.extensionOf).filter
          (Finding.isExtensionOf s) := by
    rw [← hAll, List.filter_filter]
    apply List.filter_congr
    intro f _
    unfold Finding.isExtensionOf
    rw [Bool.and_right_comm, Bool.and_self]
  rw [hSplit]
  split
  · apply List.filter_eq_self.mpr
    intro f hf
    rcases List.mem_map.mp hf with ⟨above, _, rfl⟩
    exact TypeNode.isExtensionOf_extensionOf.mpr ‹_›
  · apply List.filter_eq_nil_iff.mpr
    intro f hf hOf
    rcases List.mem_map.mp hf with ⟨above, _, rfl⟩
    exact absurd
      (TypeNode.isExtensionOf_extensionOf.mp hOf) ‹_›

/- So one type of all is reported for itself. -/
theorem filter_contractFindings
    {found : Option TypeNode}
    (hNearest : p.nearestImplementation? t = .ok found)
    {contract : List Finding}
    (hContract : p.contractFindings = .ok contract) :
    contract.filter (Finding.isExtensionOf t.id) =
      found.toList.map t.extensionOf := by
  rcases bind_eq_ok_iff.mp hContract with
    ⟨lists, hLists, hEq⟩
  cases hEq
  have hNode := mem_typeNodes_iff.mpr hType
  rw [flatten_eq_of_mapM_eq_ok hLists, List.filter_flatMap,
    Listing.flatMap_eq_of_mem p.nodup_typeNodes hNode]
  · rcases succeeds_of_mapM_eq_ok hLists hNode with
      ⟨findings, hFindings⟩
    have hOwn := hSound.filter_isExtensionOf hType hNearest
      hFindings t.id
    rw [if_pos rfl] at hOwn
    rw [hFindings]
    exact hOwn
  · intro s hs hNe
    have hOther := mem_typeNodes_iff.mp hs
    rcases succeeds_of_mapM_eq_ok hLists hs with
      ⟨findings, hFindings⟩
    rcases hSound.nearestImplementation?_succeeds hOther with
      ⟨nearest, hAbove⟩
    have hOwn := hSound.filter_isExtensionOf hOther hAbove
      hFindings t.id
    rw [if_neg (fun hId =>
      hNe (hOther.eq_of_id_eq hType hId))] at hOwn
    rw [hFindings]
    exact hOwn

end Program.Sound

------------------------------------------------------------
-- Reports Of A Check
------------------------------------------------------------

/-
  Take a built program, and the search from superclass to
  superclass that begins above a type.  The search ends, in
  one way, with the first class on the line of superclasses
  that itself lists a function type, and with nothing just
  when there is none, however long the line is.  The rules
  for roles find once of the type that it extends this class,
  and find nothing of the kind when there is none.  All that
  they find is in the log.
-/
theorem classes_below_implementations_reported
    {draft : Draft}
    {p : Program}
    (hBuild : draft.build = .ok p)
    (settings : Settings) :
    ∃ contract outcome,
      p.contractFindings = .ok contract ∧
      p.check settings = .ok outcome ∧
      (∀ f ∈ contract, f.diagnostic ∈ outcome.log.entries) ∧
      ∀ t, p.HasType t → ∃ found,
        (∀ other, p.SearchEnds t.decl.superClass other ↔
          other = found) ∧
        p.nearestImplementation? t = .ok found ∧
        (∀ b, found = some b ↔
          ∃ between, p.ImplementsFirstAbove t between b) ∧
        (found = none ↔
          ∀ between b, ¬ p.ImplementsAbove t between b) ∧
        contract.filter (Finding.isExtensionOf t.id) =
          found.toList.map (fun b =>
            .ofType t (.extendsImpl t.decl.qualifiedName
              b.decl.qualifiedName)) := by
  have hSound := Program.sound_of_build hBuild
  rcases hSound.check_succeeds settings with
    ⟨outcome, hCheck⟩
  rcases Program.check_eq_ok_iff.mp hCheck with
    ⟨v, naming, property, contract, usability, hFinds, rfl⟩
  refine ⟨contract, _, hFinds.contract_eq, hCheck, ?_, ?_⟩
  · intro f hf
    rw [Log.entries_ofFamilies]
    apply (Listing.sorted_perm _ _).mem_iff.mpr
    apply List.mem_map_of_mem
    exact List.mem_append_left _ (List.mem_append_right _ hf)
  · intro t hType
    rcases hSound.exists_searchEnds hType with
      ⟨found, hNearest, hEnds⟩
    refine ⟨found, ?_, hNearest,
      fun b => hEnds.eq_some_iff hSound hType,
      hEnds.eq_none_iff hSound hType,
      hSound.filter_contractFindings hType hNearest
        hFinds.contract_eq⟩
    intro other
    constructor
    · exact fun hOther => hOther.unique hEnds
    · rintro rfl
      exact hEnds

------------------------------------------------------------
-- A Sample Line Of Superclasses
------------------------------------------------------------

/-
  A callback, a click that implements it, a double click and
  a triple click, each below the one before, and a button.
-/
def Draft.clicks : Draft :=
  ⟨[.plain "Callback" .interfaceKind ⟨false, false, true⟩
      [0],
    { TypeDecl.plain "Click" .classKind .none [1] with
      interfaces := [0] },
    { TypeDecl.plain "DoubleClick" .classKind .none [] with
      superClass := some 1 },
    { TypeDecl.plain "TripleClick" .classKind .none [] with
      superClass := some 2 },
    .plain "Button" .classKind .none []],
  [.plain "call" 0
      (.callable ⟨.method .void, [], true, .empty⟩)
      .untagged,
    .plain "call" 1 (.plain (.method .void) [] .empty)
      .untagged]⟩

namespace Draft.clicks

/- The type of the sample with a number. -/
def node
    (t : TypeId)
    (hLt : t < Draft.clicks.types.length) : TypeNode :=
  ⟨t, Draft.clicks.types[t]⟩

variable {p : Program}
variable (hBuild : Draft.clicks.build = .ok p)

include hBuild

theorem hasType_node
    {t : TypeId}
    (hLt : t < Draft.clicks.types.length) :
    p.HasType (node t hLt) := by
  exact Program.hasType_of_build hBuild
    (List.getElem?_eq_getElem hLt)

/- Between the triple click and the click is one class. -/
theorem implementsFirstAbove :
    p.ImplementsFirstAbove (node 3 (by decide)) 1
      (node 1 (by decide)) := by
  have hCallback := hasType_node hBuild (t := 0) (by decide)
  have hClick := hasType_node hBuild (t := 1) (by decide)
  have hDouble := hasType_node hBuild (t := 2) (by decide)
  have hTriple := hasType_node hBuild (t := 3) (by decide)
  have hLists : p.ListsFunction (node 1 (by decide)) :=
    ⟨_, hCallback, List.mem_cons_self, rfl⟩
  have hNot : ¬ p.ListsFunction (node 2 (by decide)) := by
    rintro ⟨f, _, hListed, _⟩
    cases hListed
  exact .succ hTriple hDouble rfl hNot
    (.of_listsFunction hDouble hClick rfl hLists)

end Draft.clicks

/-
  The triple click is reported with the click, two classes
  above it, and neither click nor button are reported.
-/
theorem triple_click_reported_with_click :
    ∃ p contract outcome, Draft.clicks.build = .ok p ∧
      p.contractFindings = .ok contract ∧
      p.check Settings.standard = .ok outcome ∧
      p.ImplementsFirstAbove
        (Draft.clicks.node 3 (by decide)) 1
        (Draft.clicks.node 1 (by decide)) ∧
      contract.filter (Finding.isExtensionOf 3) =
        [.ofType (Draft.clicks.node 3 (by decide))
          (.extendsImpl "TripleClick" "Click")] ∧
      contract.filter (Finding.isExtensionOf 1) = [] ∧
      contract.filter (Finding.isExtensionOf 4) = [] := by
  have hBuilt : ∃ p, Draft.clicks.build = .ok p := ⟨_, rfl⟩
  rcases hBuilt with ⟨p, hBuild⟩
  rcases classes_below_implementations_reported hBuild
      Settings.standard with
    ⟨contract, outcome, hContract, hCheck, _, hEach⟩
  have hNone :
      ∀ t (hLt : t < Draft.clicks.types.length),
        (Draft.clicks.node t hLt).decl.superClass = none →
          contract.filter (Finding.isExtensionOf t) = [] := by
    intro t hLt hTop
    have hType := Draft.clicks.hasType_node hBuild hLt
    rcases hEach _ hType with
      ⟨found, _, _, _, hNowhere, hFilter⟩
    have hEmpty := hNowhere.mpr (fun between b hAbove =>
      hAbove.superClass_ne_none hType hTop)
    rw [hEmpty] at hFilter
    exact hFilter
  have hFirst := Draft.clicks.implementsFirstAbove hBuild
  rcases hEach _ (Draft.clicks.hasType_node hBuild
      (t := 3) (by decide)) with
    ⟨found, _, _, hSome, _, hFilter⟩
  rw [(hSome _).mpr ⟨1, hFirst⟩] at hFilter
  exact ⟨p, contract, outcome, hBuild, hContract, hCheck,
    hFirst, hFilter, hNone 1 (by decide) rfl,
    hNone 4 (by decide) rfl⟩

end JsExport
