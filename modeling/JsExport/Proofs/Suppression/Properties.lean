import JsExport.Proofs.Suppression.Names
import JsExport.Rules.AccessorShape
import JsExport.Rules.Property

/-
  Reports on properties without suppressions.

  The shape of an accessor, the types that accessors of one
  property speak of and the calls through `super` are read
  off parts of a declaration that hold no suppressions.

  Main declarations:
    * `ExportView.accessorShapes_unsilenced`
    * `ExportView.properties_unsilenced`
    * `ExportView.superAccessors_unsilenced`
-/

namespace JsExport

open Lookup

/- The issue of the same slots without suppressions. -/
def PropertyIssue.unsilenced :
    PropertyIssue → PropertyIssue
| .clash c => .clash c.unsilenced
| .mismatch c => .mismatch c.unsilenced

theorem PropertyIssue.key_unsilenced
    (issue : PropertyIssue) :
    issue.unsilenced.key = issue.key := by
  cases issue <;> rfl

------------------------------------------------------------
-- Shapes
------------------------------------------------------------

theorem shapeBreach?_unsilenced
    (name : String)
    (c : Callable) :
    shapeBreach? name c.unsilenced = shapeBreach? name c := by
  have hReader : c.unsilenced.isReader = c.isReader := by
    unfold Callable.isReader
    rw [c.result_unsilenced]
    unfold Callable.unsilenced
    rw [List.isEmpty_map]
  have hWriter : c.unsilenced.isWriter = c.isWriter := by
    unfold Callable.isWriter
    rw [c.result_unsilenced]
    unfold Callable.unsilenced
    rw [List.length_map]
  unfold shapeBreach?
  rw [hReader, hWriter, c.result_unsilenced]

namespace ExportView

variable (v : ExportView)

theorem shapeFinding?_unsilenced
    (m : MemberNode) :
    v.unsilenced.shapeFinding? m.unsilenced =
      v.shapeFinding? m := by
  have hBreach :
      m.unsilenced.decl.callable?.bind
          (shapeBreach? m.unsilenced.decl.name) =
        m.decl.callable?.bind (shapeBreach? m.decl.name) := by
    rw [m.decl_unsilenced, m.decl.callable?_unsilenced,
      Option.bind_map]
    congr 1
    funext c
    exact shapeBreach?_unsilenced _ c
  unfold shapeFinding?
  rw [hBreach, v.signature_unsilenced]
  rfl

theorem accessorShapes_unsilenced :
    v.unsilenced.accessorShapes = v.accessorShapes := by
  unfold accessorShapes
  change (v.members.map MemberNode.unsilenced).filterMap
    _ = _
  rw [List.filterMap_map]
  exact List.filterMap_congr
    (fun m _ => v.shapeFinding?_unsilenced m)

------------------------------------------------------------
-- Properties
------------------------------------------------------------

theorem accessors_unsilenced
    (access : Accessor)
    (group : List (Slot × JsIdentity)) :
    v.unsilenced.accessors access
        (group.map (fun e => (e.1.unsilenced, e.2))) =
      (v.accessors access group).map .unsilenced := by
  have hSlots :
      ((group.map (fun e => (e.1.unsilenced, e.2))).filter
          (fun e => decide
            (e.2.role = .property access))).map
              (fun e => e.1) =
        ((group.filter (fun e => decide
          (e.2.role = .property access))).map
            (fun e => e.1)).map Slot.unsilenced := by
    rw [Listing.filter_map_eq
        (fun _ : Slot × JsIdentity => rfl),
      List.map_map, List.map_map]
    rfl
  unfold accessors
  rw [hSlots]
  exact Listing.sortedOn_map
    (f := Slot.unsilenced)
    (fun slot => v.signature_unsilenced slot.member) _

theorem typesDiffer_unsilenced
    (getter setter : Slot) :
    typesDiffer getter.unsilenced setter.unsilenced =
      typesDiffer getter setter := by
  have hGetter :
      getter.unsilenced.member.decl.callable? =
        getter.member.decl.callable?.map .unsilenced :=
    getter.member.decl.callable?_unsilenced
  have hSetter :
      setter.unsilenced.member.decl.callable?.bind
          (fun c => c.paramTypes.head?) =
        setter.member.decl.callable?.bind
          (fun c => c.paramTypes.head?) := by
    change setter.member.decl.unsilenced.callable?.bind
      _ = _
    rw [MemberDecl.callable?_unsilenced, Option.bind_map]
    congr 1
    funext c
    exact congrArg List.head? c.paramTypes_unsilenced
  unfold typesDiffer
  rw [hGetter, hSetter]
  cases getter.member.decl.callable? with
  | none => rfl
  | some c =>
      cases setter.member.decl.callable?.bind
        (fun c => c.paramTypes.head?) <;> rfl

theorem groupIssues_unsilenced
    (t : TypeNode)
    (name : String)
    (group : List (Slot × JsIdentity)) :
    v.unsilenced.groupIssues t.unsilenced name
        (group.map (fun e => (e.1.unsilenced, e.2))) =
      (v.groupIssues t name group).map .unsilenced := by
  unfold groupIssues
  rw [v.accessors_unsilenced, v.accessors_unsilenced]
  generalize v.accessors .getter group = getters
  generalize v.accessors .setter group = setters
  have hClashes :
      (Listing.pairs (getters.map Slot.unsilenced) ++
          Listing.pairs (setters.map Slot.unsilenced)).map
            (fun e => PropertyIssue.clash
              ⟨t.unsilenced, name, e.1, e.2⟩) =
        ((Listing.pairs getters ++
          Listing.pairs setters).map (fun e =>
            PropertyIssue.clash ⟨t, name, e.1, e.2⟩)).map
              PropertyIssue.unsilenced := by
    rw [Listing.pairs_map, Listing.pairs_map,
      ← List.map_append, List.map_map, List.map_map]
    rfl
  dsimp only
  rw [hClashes, List.head?_map, List.head?_map]
  cases getters.head? with
  | none => rfl
  | some getter =>
      cases setters.head? with
      | none => rfl
      | some setter =>
          simp only [Option.map_some,
            typesDiffer_unsilenced]
          split
          · rw [List.map_append
              (f := PropertyIssue.unsilenced)]
            rfl
          · rfl

theorem mismatchFinding_unsilenced
    (c : Clash) :
    mismatchFinding c.unsilenced = mismatchFinding c :=
  rfl

theorem issueFinding_unsilenced
    (issue : PropertyIssue) :
    v.unsilenced.issueFinding issue.unsilenced =
      v.issueFinding issue := by
  cases issue with
  | clash c => exact v.finding_unsilenced c
  | mismatch c => exact mismatchFinding_unsilenced c

theorem properties_unsilenced :
    v.unsilenced.properties = v.properties := by
  have hIssues :
      v.unsilenced.propertyIssues =
        v.propertyIssues.map .unsilenced := by
    unfold propertyIssues
    change (v.surfaces.map Surface.unsilenced).flatMap _ = _
    rw [List.flatMap_map, List.map_flatMap]
    apply List.flatMap_congr
    intro s _
    rw [s.groups_unsilenced, List.flatMap_map,
      List.map_flatMap]
    apply List.flatMap_congr
    intro g _
    exact v.groupIssues_unsilenced s.type g.1 g.2
  unfold properties
  rw [hIssues, Listing.firstBy_map_of_key_eq
      PropertyIssue.key_unsilenced, List.map_map]
  exact List.map_congr_left
    (fun issue _ => v.issueFinding_unsilenced issue)

------------------------------------------------------------
-- Super Calls
------------------------------------------------------------

theorem superAccessor_unsilenced
    (m : MemberNode)
    (call : SuperCall) :
    v.unsilenced.superAccessor m.unsilenced call =
      v.superAccessor m call := by
  unfold superAccessor
  change (v.program.unsilenced.member call.target >>= _) = _
  rw [v.program.member_unsilenced, bind_map_left]
  congr 1
  funext target
  rw [v.signature_unsilenced]
  rfl

theorem superAccessors_unsilenced :
    v.unsilenced.superAccessors = v.superAccessors := by
  unfold superAccessors
  change ((v.members.map MemberNode.unsilenced).mapM
    _ >>= _) = _
  rw [List.mapM_map]
  congr 1
  apply mapM_congr
  intro m _
  rw [Function.comp, m.decl_unsilenced,
    m.decl.superCalls_unsilenced]
  exact mapM_congr
    (fun call _ => v.superAccessor_unsilenced m call)

end ExportView

end JsExport
