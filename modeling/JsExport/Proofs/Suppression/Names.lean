import JsExport.Proofs.Suppression.View
import JsExport.Rules.Delegation
import JsExport.Rules.GlobalName
import JsExport.Rules.NameClash
import JsExport.Rules.Rename

/-
  Reports on names without suppressions.

  Clashes, claims of global names, chains of constructors and
  renames are found among the same members, and their reports
  name the members as before.  So no report on names depends
  on what a declaration silences.

  Main declarations:
    * `ExportView.nameClashes_unsilenced`
    * `ExportView.globalNames_unsilenced`
    * `ExportView.constructors_unsilenced`
    * `ExportView.renames_unsilenced`
-/

namespace JsExport

open Lookup

/- The claim of the same member without suppressions. -/
def Claim.unsilenced
    (c : Claim) : Claim :=
  ⟨c.member.unsilenced, c.name⟩

/- The rename in the same slot without suppressions. -/
def Rename.unsilenced
    (r : Rename) : Rename :=
  ⟨r.slot.unsilenced, r.other.unsilenced⟩

------------------------------------------------------------
-- Clashes
------------------------------------------------------------

/- The clash of the same slots without suppressions. -/
def Clash.unsilenced
    (c : Clash) : Clash :=
  ⟨c.type.unsilenced, c.name, c.first.unsilenced,
    c.second.unsilenced⟩

theorem Surface.clashes_unsilenced
    (s : Surface) :
    s.unsilenced.clashes = s.clashes.map .unsilenced := by
  unfold clashes
  rw [s.groups_unsilenced, List.flatMap_map,
    List.map_flatMap]
  apply List.flatMap_congr
  intro g _
  dsimp only
  rw [Listing.pairs_map,
    Listing.filter_map_eq
      (fun e : (Slot × JsIdentity) × (Slot × JsIdentity) =>
        show clash (e.1.1.unsilenced, e.1.2)
          (e.2.1.unsilenced, e.2.2) = clash e.1 e.2 from rfl),
    List.map_map, List.map_map]
  rfl

namespace ExportView

variable (v : ExportView)

theorem ordered_unsilenced
    (c : Clash) :
    c.unsilenced.ordered v.unsilenced =
      (c.ordered v).unsilenced := by
  have hFirst :=
    v.signature_unsilenced c.first.member
  have hSecond :=
    v.signature_unsilenced c.second.member
  unfold Clash.ordered
  change (if v.unsilenced.signature
      c.first.member.unsilenced ≤
        v.unsilenced.signature c.second.member.unsilenced
    then _ else _) = _
  rw [hFirst, hSecond]
  split <;> rfl

theorem finding_unsilenced
    (c : Clash) :
    c.unsilenced.finding v.unsilenced = c.finding v := by
  unfold Clash.finding Clash.unsilenced
  dsimp only
  rw [v.clashTexts_unsilenced]
  rfl

theorem nameClashes_unsilenced :
    v.unsilenced.nameClashes = v.nameClashes := by
  have hClashes :
      v.unsilenced.surfaces.flatMap Surface.clashes =
        (v.surfaces.flatMap Surface.clashes).map
          .unsilenced := by
    unfold unsilenced
    rw [List.flatMap_map, List.map_flatMap]
    exact List.flatMap_congr
      (fun s _ => s.clashes_unsilenced)
  unfold nameClashes
  rw [hClashes,
    Listing.firstBy_map_of_key_eq (fun _ => rfl),
    List.map_map]
  apply List.map_congr_left
  intro c _
  rw [Function.comp, v.ordered_unsilenced,
    v.finding_unsilenced]

------------------------------------------------------------
-- Global Names
------------------------------------------------------------

theorem globalName?_unsilenced
    (m : MemberNode) :
    v.unsilenced.globalName? m.unsilenced =
      v.globalName? m :=
  rfl

theorem fieldsFirst_unsilenced
    (t : TypeNode) :
    v.unsilenced.fieldsFirst t.unsilenced =
      (v.fieldsFirst t).map .unsilenced := by
  have hDeclared :
      v.unsilenced.program.declaredBy t.unsilenced =
        (v.program.declaredBy t).map .unsilenced :=
    v.program.declaredBy_unsilenced t
  unfold fieldsFirst
  dsimp only
  rw [hDeclared,
    Listing.filter_map_eq
      (fun m => m.decl.isField_unsilenced),
    Listing.filter_map_eq
      (fun m => m.decl.isCallable_unsilenced),
    List.map_append]

/- A type claims the same names. -/
theorem claims_unsilenced :
    v.unsilenced.claims = v.claims.map .unsilenced := by
  have hTypes :
      v.unsilenced.types.filter (fun t => !t.decl.isNative) =
        (v.types.filter (fun t => !t.decl.isNative)).map
          .unsilenced :=
    Listing.filter_map_eq (fun _ => rfl) v.types
  unfold claims
  rw [hTypes, List.flatMap_map, List.map_flatMap]
  apply List.flatMap_congr
  intro t _
  rw [v.fieldsFirst_unsilenced, List.filterMap_map,
    List.map_filterMap]
  apply List.filterMap_congr
  intro m _
  rw [Function.comp, v.globalName?_unsilenced,
    Option.map_map]
  rfl

/- The same claims come too late. -/
theorem lateClaims_unsilenced
    (taken : List String)
    (claims : List Claim) :
    lateClaims taken (claims.map .unsilenced) =
      (lateClaims taken claims).map .unsilenced := by
  induction claims generalizing taken with
  | nil => rfl
  | cons c rest ih =>
      have hName : c.unsilenced.name = c.name := rfl
      rw [List.map_cons]
      unfold lateClaims
      rw [hName, ih, ih]
      split <;> rfl

theorem globalNames_unsilenced :
    v.unsilenced.globalNames = v.globalNames := by
  unfold globalNames
  rw [v.claims_unsilenced, lateClaims_unsilenced,
    List.map_map]
  apply List.map_congr_left
  intro c _
  have hSignature := v.signature_unsilenced c.member
  unfold Claim.unsilenced
  rw [Function.comp, hSignature]
  rfl

end ExportView

------------------------------------------------------------
-- Constructors
------------------------------------------------------------

/- Constructors reach each other by the same calls. -/
theorem Program.reachesWithin_unsilenced
    (p : Program)
    (primary : MemberNode)
    (calls : Nat)
    (c : MemberNode) :
    p.unsilenced.reachesWithin primary.unsilenced calls
        c.unsilenced =
      p.reachesWithin primary calls c := by
  induction calls generalizing c with
  | zero => rfl
  | succ calls ih =>
      unfold reachesWithin
      rw [c.decl_unsilenced, c.decl.delegatesTo_unsilenced]
      cases c.decl.delegatesTo with
      | none => rfl
      | some target =>
          dsimp only
          rw [p.member_unsilenced, bind_map_left]
          congr 1
          funext next
          rw [ih]
          rfl

namespace ExportView

variable (v : ExportView)

theorem strandedConstructors_unsilenced
    (primary : MemberNode)
    (constructors : List MemberNode) :
    v.unsilenced.strandedConstructors primary.unsilenced
        (constructors.map .unsilenced) =
      List.map .unsilenced <$>
        v.strandedConstructors primary constructors := by
  have hCount :
      v.program.unsilenced.members.length =
        v.program.members.length :=
    List.length_map _
  unfold strandedConstructors
  apply filterM_map_eq
  intro c
  have hReaches :
      v.unsilenced.program.reachesConstructor
          primary.unsilenced c.unsilenced =
        v.program.reachesConstructor primary c := by
    unfold Program.reachesConstructor
    change v.program.unsilenced.reachesWithin _
      v.program.unsilenced.members.length _ = _
    rw [hCount]
    exact v.program.reachesWithin_unsilenced primary _ c
  rw [hReaches]
  rfl

theorem constructorFindings_unsilenced
    (t : TypeNode) :
    v.unsilenced.constructorFindings t.unsilenced =
      v.constructorFindings t := by
  have hConstructors :
      (v.unsilenced.program.declaredBy t.unsilenced).filter
          (fun m => m.decl.isConstructor) =
        ((v.program.declaredBy t).filter
          (fun m => m.decl.isConstructor)).map
            .unsilenced := by
    change (v.program.unsilenced.declaredBy
      t.unsilenced).filter _ = _
    rw [v.program.declaredBy_unsilenced]
    exact Listing.filter_map_eq
      (fun m => m.decl.isConstructor_unsilenced) _
  unfold constructorFindings
  rw [hConstructors]
  generalize (v.program.declaredBy t).filter
    (fun m => m.decl.isConstructor) = constructors
  have hExported :
      (constructors.map MemberNode.unsilenced).filter
          v.unsilenced.isJsConstructor =
        (constructors.filter v.isJsConstructor).map
          .unsilenced :=
    Listing.filter_map_eq (fun _ => rfl) constructors
  dsimp only
  rw [hExported]
  cases constructors.filter v.isJsConstructor with
  | nil => rfl
  | cons primary rest =>
      cases rest with
      | cons second rest => rfl
      | nil =>
          have hSignature := v.signature_unsilenced primary
          rw [List.map_cons, List.map_nil]
          dsimp only
          rw [v.strandedConstructors_unsilenced,
            bind_map_left, hSignature]
          congr 1
          funext stranded
          rw [List.map_map]
          rfl

theorem constructors_unsilenced :
    v.unsilenced.constructors = v.constructors := by
  have hTypes :
      v.unsilenced.types.filter (fun t => !t.decl.isNative) =
        (v.types.filter (fun t => !t.decl.isNative)).map
          .unsilenced :=
    Listing.filter_map_eq (fun _ => rfl) v.types
  unfold constructors
  rw [hTypes, List.mapM_map]
  congr 1
  exact mapM_congr
    (fun t _ => v.constructorFindings_unsilenced t)

end ExportView

------------------------------------------------------------
-- Renames
------------------------------------------------------------

namespace ExportView

variable (v : ExportView)

theorem slotRenames_unsilenced
    (slot : Slot) :
    v.unsilenced.slotRenames slot.unsilenced =
      (v.slotRenames slot).map .unsilenced := by
  have hIdentity :
      slot.unsilenced.identity = slot.identity := rfl
  unfold slotRenames
  rw [hIdentity]
  cases slot.identity with
  | none => rfl
  | some identity =>
      have hOverridden :
          slot.unsilenced.overridden.filter (fun n =>
              (v.unsilenced.identity? n).any
                (disagree identity)) =
            (slot.overridden.filter (fun n =>
              (v.identity? n).any
                (disagree identity))).map .unsilenced :=
        Listing.filter_map_eq (fun _ => rfl) _
      dsimp only
      rw [hOverridden, List.map_map, List.map_map]
      rfl

theorem renames_unsilenced :
    v.unsilenced.renames = v.renames := by
  have hRenames :
      v.unsilenced.surfaces.flatMap (fun s =>
          s.slots.flatMap v.unsilenced.slotRenames) =
        (v.surfaces.flatMap (fun s =>
          s.slots.flatMap v.slotRenames)).map .unsilenced := by
    change (v.surfaces.map Surface.unsilenced).flatMap _ = _
    rw [List.flatMap_map, List.map_flatMap]
    apply List.flatMap_congr
    intro s _
    change (s.slots.map Slot.unsilenced).flatMap _ = _
    rw [List.flatMap_map, List.map_flatMap]
    exact List.flatMap_congr
      (fun slot _ => v.slotRenames_unsilenced slot)
  unfold renames
  rw [hRenames, Listing.firstBy_map_of_key_eq (fun _ => rfl),
    List.map_map]
  apply List.map_congr_left
  intro r _
  have hQuoted := v.quoted_unsilenced r.slot
  unfold Rename.unsilenced
  rw [Function.comp, hQuoted]
  rfl

end ExportView

end JsExport
