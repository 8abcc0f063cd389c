import JsExport.Proofs.Hierarchy.Acceptance

/-
  Which drafts become programs.

  A draft is built when every reference in it leads where it
  should and no type inherits from itself.  Both can be said
  reference by reference, without the order in which a build
  looks at them, and what is built are the declarations of
  the draft.

  Main declarations:
    * `TypeExpr.Mentions`
    * `Draft.WellFormed.closed`
    * `build_accepts_iff_references_fit`
-/

namespace JsExport

------------------------------------------------------------
-- Types Within Types
------------------------------------------------------------

/-
  That a type is a type of the program, or an array of such
  types, however deep.
-/
inductive TypeExpr.Mentions
    (t : TypeId) : TypeExpr → Prop
| here : Mentions t (.declared t)
| element
    {e : TypeExpr}
    {dims : Nat}
    (hElement : Mentions t e) :
    Mentions t (.array e dims)

/- What is found in a type is what the type mentions. -/
theorem TypeExpr.declared?_eq_some_iff
    {e : TypeExpr}
    {t : TypeId} :
    e.declared? = some t ↔ e.Mentions t := by
  constructor
  · intro hFound
    induction e with
    | declared id =>
        cases hFound
        exact .here
    | array element dims ih => exact .element (ih hFound)
    | _ => cases hFound
  · intro hMentions
    induction hMentions with
    | here => rfl
    | element _ ih => exact ih

namespace Draft

/- Signatures fit when all types they mention are there. -/
theorem signaturesFit_iff
    {draft : Draft} :
    draft.SignaturesFit ↔
      ∀ m ∈ draft.members, ∀ e ∈ m.signatureTypes,
        ∀ t, e.Mentions t → t < draft.types.length := by
  unfold SignaturesFit
  simp only [TypeExpr.declared?_eq_some_iff]

------------------------------------------------------------
-- Acceptance
------------------------------------------------------------

/- The supertypes in a well-formed draft are there. -/
theorem WellFormed.closed
    {draft : Draft}
    (hFit : draft.WellFormed) :
    Supertypes.Closed (Supertypes.ofTypes draft.types)
      draft.types.length := by
  apply Hierarchy.closed_iff.mpr
  intro d hd s hs
  have hThere :
      ∃ above, draft.types[s]? = some above := by
    rcases List.mem_append.mp hs with hSuper | hListed
    · rcases hFit.superclasses d hd s
          (Option.mem_toList.mp hSuper) with
        ⟨_, above, hAbove, _⟩
      exact ⟨above, hAbove⟩
    · rcases hFit.interfaces d hd s hListed with
        ⟨above, hAbove, _⟩
      exact ⟨above, hAbove⟩
  rcases hThere with ⟨above, hAbove⟩
  exact (List.getElem?_eq_some_iff.mp hAbove).1

/- A draft is built when it is well-formed without cycles. -/
theorem exists_build_iff
    {draft : Draft} :
    (∃ p, draft.build = .ok p) ↔
      draft.WellFormed ∧ Acyclic draft.types := by
  constructor
  · rintro ⟨p, hBuild⟩
    have hSound := Program.sound_of_build hBuild
    rcases build_eq_ok_iff.mp hBuild with
      ⟨hFit, _, hTypes, _⟩
    exact ⟨hFit, hTypes ▸ hSound.fits.acyclic⟩
  · rintro ⟨hFit, hAcyclic⟩
    rcases Hierarchy.exists_ofTypes?_eq_ok hFit.closed
        hAcyclic with
      ⟨hierarchy, hFound⟩
    exact ⟨⟨draft.types, draft.members, hierarchy⟩,
      build_eq_ok_iff.mpr ⟨hFit, hFound, rfl, rfl⟩⟩

end Draft

/-
  A draft is built exactly when only classes have
  superclasses and these are classes, interfaces are
  interfaces, types and members agree on who owns whom,
  signatures mention types of the draft only, constructors
  call other ones of their type, bodies refer to what is
  there, and no type inherits from itself.  The program has
  the declarations of the draft.
-/
theorem build_accepts_iff_references_fit
    (draft : Draft) :
    ((∃ p, draft.build = .ok p) ↔
      draft.SuperclassesFit ∧ draft.InterfacesFit ∧
        draft.MemberListsFit ∧ draft.OwnersFit ∧
        (∀ m ∈ draft.members, ∀ e ∈ m.signatureTypes,
          ∀ t, e.Mentions t → t < draft.types.length) ∧
        draft.DelegationsFit ∧ draft.BodiesFit ∧
        Acyclic draft.types) ∧
    ∀ p, draft.build = .ok p →
      p.types = draft.types ∧
        p.members = draft.members := by
  constructor
  · rw [Draft.exists_build_iff, ← Draft.signaturesFit_iff]
    constructor
    · rintro ⟨hFit, hAcyclic⟩
      exact ⟨hFit.superclasses, hFit.interfaces,
        hFit.memberLists, hFit.owners, hFit.signatures,
        hFit.delegations, hFit.bodies, hAcyclic⟩
    · rintro ⟨hSuper, hListed, hLists, hOwners, hSigned,
        hDelegates, hBodies, hAcyclic⟩
      exact ⟨⟨hSuper, hListed, hLists, hOwners, hSigned,
        hDelegates, hBodies⟩, hAcyclic⟩
  · intro p hBuild
    exact (Draft.build_eq_ok_iff.mp hBuild).2.2

/- A crate holds arrays of arrays of a type that is missing. -/
def Draft.crate : Draft :=
  ⟨[.plain "Crate" .classKind .none [0]],
  [.plain "rows" 0
    (.field ⟨.array (.array (.declared 1) 2) 1, .absent⟩)
    .untagged]⟩

/- The shop is built as it is, the crate is refused. -/
theorem shop_built_and_crate_refused :
    (∃ p, Draft.shop.build = .ok p ∧
      p.types = Draft.shop.types ∧
      p.members = Draft.shop.members) ∧
    Acyclic Draft.shop.types ∧
    ¬ ∃ p, Draft.crate.build = .ok p := by
  rcases Draft.exists_build_shop with ⟨p, hBuild⟩
  rcases build_accepts_iff_references_fit Draft.shop with
    ⟨hAccepts, hSame⟩
  refine ⟨⟨p, hBuild, hSame p hBuild⟩, ?_, ?_⟩
  · exact (hAccepts.mp ⟨p, hBuild⟩).2.2.2.2.2.2.2
  · rw [(build_accepts_iff_references_fit Draft.crate).1]
    rintro ⟨_, _, _, _, hSigned, _⟩
    have hLt := hSigned _ List.mem_cons_self _
      List.mem_cons_self 1 (.element (.element .here))
    exact absurd hLt (by decide)

/- What a constructor declares as its result must be there. -/
example :
    (Draft.build
      ⟨[.plain "Crate" .classKind .none [0]],
      [.plain "Crate" 0
        (.plain (.maker (.declared 1)) [] .empty)
        .untagged]⟩).map (fun p => p.types) =
      .error (.unknownType 1 (.signatureOf "Crate")) :=
  rfl

end JsExport
