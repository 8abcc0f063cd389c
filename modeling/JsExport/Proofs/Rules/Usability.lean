import JsExport.Proofs.Export.Surface
import JsExport.Proofs.Listing.First
import JsExport.Proofs.Lookup.Permuted
import JsExport.Rules.Usability

/-
  What advice is deserved, and where members are exposed.

  Arrays may hold arrays, so what makes a type unusable is
  said of the type that its arrays hold in the end.  The
  advice on a member is then read off its declaration, as a
  list without lookups.  The types are looked at with
  supertypes first, so the type that is named for an exposed
  member has no type above that exposes the member as well.

  Main declarations:
    * `Program.Unusable` and `Program.isUsable_eq_true_iff`
    * `ExportView.deserved`
    * `ExportView.eq_deserved_of_memberAdvice_eq_ok`
    * `ExportView.Exposes` and `ExportView.IsAccidental`
    * `ExportView.Shows.exists_exposing_eq`
-/

namespace JsExport

open Lookup

------------------------------------------------------------
-- Unusable Types
------------------------------------------------------------

namespace TypeExpr

/- What an array holds in the end, through all nesting. -/
def innermost : TypeExpr → TypeExpr
| .array element _ => element.innermost
| .void => .void
| .prim kind => .prim kind
| .boxed kind => .boxed kind
| .string => .string
| .object => .object
| .declared t => .declared t
| .external name => .external name

/- Whether the type is an array. -/
def isArray : TypeExpr → Bool
| .array _ _ => true
| _ => false

end TypeExpr

namespace Program

/-
  That JavaScript knows nothing of a type: of the integers
  with 64 bits, boxed or not, of types from elsewhere, and of
  types of the program without annotation.
-/
def Foreign
    (p : Program) : TypeExpr → Prop
| .prim kind => kind = .long
| .boxed kind => kind = .long
| .external _ => True
| .declared t => ∃ d ∈ p.types[t]?, d.flags = .none
| _ => False

instance decidableForeign
    (p : Program) : DecidablePred p.Foreign
| .void => inferInstanceAs (Decidable False)
| .prim kind => inferInstanceAs (Decidable (kind = .long))
| .boxed kind => inferInstanceAs (Decidable (kind = .long))
| .string => inferInstanceAs (Decidable False)
| .object => inferInstanceAs (Decidable False)
| .declared t =>
    inferInstanceAs
      (Decidable (∃ d ∈ p.types[t]?, d.flags = .none))
| .external _ => inferInstanceAs (Decidable True)
| .array _ _ => inferInstanceAs (Decidable False)

/-
  That values of a type should not reach JavaScript: what its
  arrays hold is foreign, or they hold just anything.
-/
def Unusable
    (p : Program)
    (e : TypeExpr) : Prop :=
  p.Foreign e.innermost ∨
    (e.isArray ∧ e.innermost = .object)

instance decidableUnusable
    (p : Program) : DecidablePred p.Unusable :=
  fun e => inferInstanceAs
    (Decidable (p.Foreign e.innermost ∨
      (e.isArray ∧ e.innermost = .object)))

variable {p : Program}

/- A type that is no array is unusable if it is foreign. -/
theorem unusable_iff_foreign
    {e : TypeExpr}
    (hArray : e.isArray = false) :
    p.Unusable e ↔ p.Foreign e := by
  unfold Unusable
  cases e with
  | array => cases hArray
  | _ => simp [TypeExpr.innermost, TypeExpr.isArray]

/- An array is unusable for what it holds. -/
theorem unusable_array_iff
    {element : TypeExpr}
    {dims : Nat} :
    p.Unusable (.array element dims) ↔
      element.isObject ∨ p.Unusable element := by
  unfold Unusable
  cases element with
  | _ => simp [TypeExpr.innermost, TypeExpr.isArray,
      TypeExpr.isObject, Foreign]

end Program

/- A type is usable if it has an annotation. -/
theorem TypeFlags.isUsable_eq_true_iff
    {f : TypeFlags} :
    f.isUsable = true ↔ f ≠ .none := by
  rcases f with ⟨jsType, native, jsFunction⟩
  cases jsType <;> cases native <;> cases jsFunction <;>
    decide

/- What is found usable is what is not unusable. -/
theorem Program.isUsable_eq_true_iff
    {p : Program}
    {e : TypeExpr}
    {usable : Bool}
    (hFound : p.isUsable e = .ok usable) :
    usable = true ↔ ¬ p.Unusable e := by
  induction e with
  | void =>
      cases hFound
      rw [unusable_iff_foreign rfl]
      simp [Foreign]
  | string =>
      cases hFound
      rw [unusable_iff_foreign rfl]
      simp [Foreign]
  | object =>
      cases hFound
      rw [unusable_iff_foreign rfl]
      simp [Foreign]
  | external name =>
      cases hFound
      rw [unusable_iff_foreign rfl]
      simp [Foreign]
  | prim kind =>
      cases hFound
      rw [unusable_iff_foreign rfl]
      simp [Foreign, Prim.isLong]
  | boxed kind =>
      cases hFound
      rw [unusable_iff_foreign rfl]
      simp [Foreign, Prim.isLong]
  | declared t =>
      rcases bind_eq_ok_iff.mp hFound with
        ⟨node, hNode, hEq⟩
      rcases type_eq_ok_iff_hasType.mp hNode with
        ⟨rfl, hType⟩
      have hDecl : p.types[node.id]? = some node.decl := hType
      rw [← Except.ok.inj hEq, unusable_iff_foreign rfl,
        TypeFlags.isUsable_eq_true_iff]
      simp [Foreign, hDecl]
  | array element dims ih =>
      rw [unusable_array_iff, not_or]
      unfold isUsable at hFound
      by_cases hObject : element.isObject
      · rw [if_pos hObject] at hFound
        cases hFound
        simp [hObject]
      · rw [if_neg hObject] at hFound
        rw [ih hFound, and_iff_right hObject]

theorem TypeExpr.isVoid_iff
    {e : TypeExpr} :
    e.isVoid = true ↔ e = .void := by
  cases e with
  | _ => simp [isVoid]

------------------------------------------------------------
-- Deserved Advice
------------------------------------------------------------

namespace ExportView

variable {v : ExportView}
variable {key : String}
variable {m : MemberNode}
variable {exposedBy : Option TypeNode}

/- A result deserves advice unless there is none. -/
def resultDeserved
    (v : ExportView)
    (exposedBy : Option TypeNode)
    (m : MemberNode)
    (c : Callable) : List Finding :=
  if c.result ≠ .void ∧ v.program.Unusable c.result then
    [.ofMember m (.unusableResult
      (Signature.quoted v.program m exposedBy))]
  else []

/- Parameters deserve advice unless they silence it. -/
def paramsDeserved
    (v : ExportView)
    (key : String)
    (exposedBy : Option TypeNode)
    (m : MemberNode)
    (c : Callable) : List Finding :=
  (c.params.filter (fun param =>
    decide (key ∉ param.suppressions ∧
      v.program.Unusable param.type))).map (fun param =>
        .ofMember m (.unusableParam param.name
          (Signature.quoted v.program m exposedBy)))

/-
  The advice that a member deserves, unless the member or its
  owner silences it: one warning for the type of a field, or
  one for the result and one for each parameter.
-/
def deserved
    (v : ExportView)
    (key : String)
    (exposedBy : Option TypeNode)
    (m : MemberNode) : List Finding :=
  if key ∈ m.decl.suppressions ∨
      key ∈ m.owner.decl.suppressions then
    []
  else
    match m.decl.shape with
    | .field f =>
        if v.program.Unusable f.type then
          [.ofMember m (.unusableField m.decl.name
            m.owner.decl.qualifiedName)]
        else []
    | .callable c =>
        v.resultDeserved exposedBy m c ++
          v.paramsDeserved key exposedBy m c

theorem isSilenced_iff :
    isSilenced key m = true ↔
      key ∈ m.decl.suppressions ∨
        key ∈ m.owner.decl.suppressions := by
  unfold isSilenced MemberDecl.suppresses
    TypeDecl.suppresses
  rw [Bool.or_eq_true, List.contains_iff_mem,
    List.contains_iff_mem]

/- Advice is given where it is not silenced and deserved. -/
theorem eq_ite_unusable
    {e : TypeExpr}
    {quiet : Bool}
    {silent : Prop}
    [Decidable silent]
    (hQuiet : quiet = true ↔ silent)
    {advice found : List Finding}
    (hFound :
      (v.program.isUsable e >>= fun usable =>
        if quiet || usable then
          (pure [] : Except LookupError (List Finding))
        else pure advice) = .ok found) :
    found =
      if ¬ silent ∧ v.program.Unusable e then advice
        else [] := by
  rcases eq_ite_of_bind_eq_ok (quiet || ·) hFound with
    ⟨usable, hUsable, rfl⟩
  have hUsable := Program.isUsable_eq_true_iff hUsable
  by_cases hSilent : silent
  · simp [hQuiet.mpr hSilent, hSilent]
  · have hLoud : quiet = false :=
      Bool.eq_false_iff.mpr (mt hQuiet.mp hSilent)
    by_cases hUnusable : v.program.Unusable e
    · simp [hLoud, hSilent, hUnusable, hUsable]
    · simp [hLoud, hSilent, hUnusable, hUsable]

theorem eq_resultDeserved
    {c : Callable}
    {found : List Finding}
    (hFound : v.resultAdvice m exposedBy c = .ok found) :
    found = v.resultDeserved exposedBy m c :=
  eq_ite_unusable TypeExpr.isVoid_iff hFound

theorem flatten_eq_paramsDeserved
    {c : Callable}
    {found : List (List Finding)}
    (hFound :
      c.params.mapM (v.paramAdvice key m exposedBy) =
        .ok found) :
    found.flatten = v.paramsDeserved key exposedBy m c := by
  unfold paramsDeserved
  rw [Listing.map_filter_eq_flatMap]
  apply flatten_eq_flatMap_of_mapM_eq_ok hFound
  intro param _ here hHere
  rw [eq_ite_unusable List.contains_iff_mem hHere]
  simp

/- The advice on a member is what the member deserves. -/
theorem eq_deserved_of_memberAdvice_eq_ok
    {found : List Finding}
    (hFound : v.memberAdvice key m exposedBy = .ok found) :
    found = v.deserved key exposedBy m := by
  unfold memberAdvice at hFound
  unfold deserved
  by_cases hSilent : isSilenced key m
  · rw [if_pos hSilent] at hFound
    rw [if_pos (isSilenced_iff.mp hSilent)]
    exact (Except.ok.inj hFound).symm
  · rw [if_neg hSilent] at hFound
    rw [if_neg (mt isSilenced_iff.mpr hSilent)]
    cases hShape : m.decl.shape with
    | field f =>
        rw [hShape] at hFound
        have hQuiet : false = true ↔ False := by simp
        simpa using eq_ite_unusable hQuiet hFound
    | callable c =>
        rw [hShape] at hFound
        rcases bind_eq_ok_iff.mp hFound with
          ⟨result, hResult, hRest⟩
        rcases bind_eq_ok_iff.mp hRest with
          ⟨params, hParams, hEq⟩
        rw [← Except.ok.inj hEq, eq_resultDeserved hResult,
          flatten_eq_paramsDeserved hParams]

------------------------------------------------------------
-- Members That Are Exposed
------------------------------------------------------------

/-
  That a surface exposes a member that is not exported: the
  member stands for a slot that JavaScript sees, through the
  type alone.
-/
def Exposes
    (v : ExportView)
    (s : Surface)
    (m : MemberNode) : Prop :=
  v.table.exports m.id = false ∧
    ∃ slot ∈ s.slots, slot.member = m ∧
      slot.exposedBy.isSome ∧ slot.identity.isSome

instance decidableExposes
    (v : ExportView)
    (s : Surface) : DecidablePred (v.Exposes s) :=
  fun m => inferInstanceAs
    (Decidable (v.table.exports m.id = false ∧
      ∃ slot ∈ s.slots, slot.member = m ∧
        slot.exposedBy.isSome ∧ slot.identity.isSome))

/- That some type exposes a member that is not exported. -/
def IsAccidental
    (v : ExportView)
    (m : MemberNode) : Prop :=
  ∃ s ∈ v.surfaces, v.Exposes s m

instance decidableIsAccidental
    (v : ExportView) : DecidablePred v.IsAccidental :=
  fun m => inferInstanceAs
    (Decidable (∃ s ∈ v.surfaces, v.Exposes s m))

/- The type that is named for a member, the first of them. -/
def exposing
    (v : ExportView)
    (m : MemberNode) : Option TypeNode :=
  (v.onlyExposedSlots.find? (fun slot =>
    decide (slot.member.id = m.id))).bind
      (fun slot => slot.exposedBy)

theorem exposes_iff
    {s : Surface} :
    v.Exposes s m ↔
      ∃ slot ∈ s.slots.filter v.isOnlyExposed,
        slot.member = m := by
  unfold Exposes isOnlyExposed
  constructor
  · rintro ⟨hOwn, slot, hSlot, rfl, hExposed, hIdentity⟩
    refine ⟨slot, List.mem_filter.mpr ⟨hSlot, ?_⟩, rfl⟩
    rw [hExposed, hIdentity, hOwn]
    rfl
  · rintro ⟨slot, hSlot, rfl⟩
    simp only [List.mem_filter, Bool.and_eq_true,
      Bool.not_eq_true'] at hSlot
    rcases hSlot with ⟨hIn, ⟨hExposed, hIdentity⟩, hOwn⟩
    exact ⟨hOwn, slot, hIn, rfl, hExposed, hIdentity⟩

/- What is exposed first was exposed by some surface. -/
theorem isAccidental_of_mem_onlyExposedSlots
    {slot : Slot}
    (hSlot : slot ∈ v.onlyExposedSlots) :
    v.IsAccidental slot.member := by
  have hIn := (Listing.firstBy_sublist _ _).subset hSlot
  rw [List.filter_flatMap] at hIn
  rcases List.mem_flatMap.mp hIn with ⟨s, hSurface, hMem⟩
  exact ⟨s, hSurface, exposes_iff.mpr ⟨slot, hMem, rfl⟩⟩

theorem not_exports_of_isAccidental
    (hAccidental : v.IsAccidental m) :
    v.table.exports m.id = false := by
  rcases hAccidental with ⟨s, _, hOwn, _⟩
  exact hOwn

/- No type is named for a member that is exported. -/
theorem exposing_eq_none_of_exports
    (hOwn : v.table.exports m.id) :
    v.exposing m = none := by
  have hNone :
      v.onlyExposedSlots.find? (fun slot =>
        decide (slot.member.id = m.id)) = none := by
    apply List.find?_eq_none.mpr
    intro slot hSlot hId
    have hNot := not_exports_of_isAccidental
      (isAccidental_of_mem_onlyExposedSlots hSlot)
    rw [of_decide_eq_true hId, hOwn] at hNot
    cases hNot
  unfold exposing
  rw [hNone]
  rfl

/- For others it is the type whose slot is listed. -/
theorem exposing_eq_exposedBy
    {slot : Slot}
    (hSlot : slot ∈ v.onlyExposedSlots) :
    v.exposing slot.member = slot.exposedBy := by
  have hFound :
      v.onlyExposedSlots.find? (fun e =>
        decide (e.member.id = slot.member.id)) =
          some slot := by
    unfold onlyExposedSlots
    rw [Listing.find?_firstBy]
    exact Listing.find?_eq_some_of_mem_firstBy _ hSlot
  unfold exposing
  rw [hFound]
  rfl

/- No earlier surface exposes what is listed. -/
theorem exists_split_of_mem_onlyExposedSlots
    {slot : Slot}
    (hSlot : slot ∈ v.onlyExposedSlots) :
    ∃ low s high, v.surfaces = low ++ s :: high ∧
      slot ∈ s.slots ∧ v.Exposes s slot.member ∧
        ∀ r ∈ low, ¬ v.Exposes r slot.member := by
  have hFirst :=
    Listing.find?_eq_some_of_mem_firstBy _ hSlot
  rw [List.filter_flatMap] at hFirst
  rcases Listing.exists_of_find?_flatMap_eq_some hFirst with
    ⟨low, s, high, hSplit, hHere, hNot⟩
  have hMem := List.mem_of_find?_eq_some hHere
  refine ⟨low, s, high, hSplit,
    (List.mem_filter.mp hMem).1,
    exposes_iff.mpr ⟨slot, hMem, rfl⟩, ?_⟩
  intro r hr hExposes
  rcases exposes_iff.mp hExposes with ⟨e, he, hSame⟩
  apply hNot r hr e he
  rw [hSame]
  exact decide_eq_true rfl

namespace Shows

variable {p : Program}
variable (hShows : v.Shows p)
variable (hSound : p.Sound)

include hShows hSound

/- Exposed members are members of the program. -/
theorem hasMember_of_isAccidental
    (hAccidental : v.IsAccidental m) :
    p.HasMember m := by
  rcases hAccidental with
    ⟨s, hSurface, _, slot, hSlot, rfl, _⟩
  exact (hShows.hasMember_slot hSound hSurface hSlot).1

theorem hasMember_of_mem_onlyExposedSlots
    {slot : Slot}
    (hSlot : slot ∈ v.onlyExposedSlots) :
    p.HasMember slot.member :=
  hShows.hasMember_of_isAccidental hSound
    (isAccidental_of_mem_onlyExposedSlots hSlot)

/- Every exposed member has one slot that is listed. -/
theorem exists_mem_onlyExposedSlots
    (hAccidental : v.IsAccidental m) :
    ∃ slot ∈ v.onlyExposedSlots, slot.member = m := by
  rcases hAccidental with ⟨s, hSurface, hExposes⟩
  rcases exposes_iff.mp hExposes with ⟨slot, hSlot, rfl⟩
  have hIn :
      slot ∈ (v.surfaces.flatMap (fun s => s.slots)).filter
        v.isOnlyExposed := by
    rw [List.filter_flatMap]
    exact List.mem_flatMap.mpr ⟨s, hSurface, hSlot⟩
  rcases Listing.exists_mem_firstBy
      (fun e : Slot => e.member.id) hIn with
    ⟨first, hFirst, hId⟩
  refine ⟨first, hFirst, ?_⟩
  have hOther :=
    hShows.hasMember_of_mem_onlyExposedSlots hSound hFirst
  exact hOther.eq_of_id_eq
    (hShows.hasMember_slot hSound hSurface
      (List.mem_filter.mp hSlot).1).1 hId

/-
  For an exposed member a type is named that exposes it,
  where no type above exposes the member as well.
-/
theorem exists_exposing_eq
    (hAccidental : v.IsAccidental m) :
    ∃ s ∈ v.surfaces, v.exposing m = some s.type ∧
      v.Exposes s m ∧
        ∀ r ∈ v.surfaces,
          Inherits p.types s.type.id r.type.id →
            ¬ v.Exposes r m := by
  rcases hShows.exists_mem_onlyExposedSlots hSound
      hAccidental with
    ⟨slot, hSlot, rfl⟩
  rcases exists_split_of_mem_onlyExposedSlots hSlot with
    ⟨low, s, high, hSplit, hIn, hExposes, hNot⟩
  have hSurface : s ∈ v.surfaces := by
    rw [hSplit]
    exact List.mem_append_right _ List.mem_cons_self
  refine ⟨s, hSurface, ?_, hExposes, ?_⟩
  · rw [exposing_eq_exposedBy hSlot]
    apply hShows.exposedBy_eq_of_isSome hSurface hIn
    have hListed := List.of_mem_filter
      ((Listing.firstBy_sublist _ _).subset hSlot)
    unfold isOnlyExposed at hListed
    simp only [Bool.and_eq_true] at hListed
    exact hListed.1.1
  · intro r hr hAbove
    -- The surfaces come with supertypes first.
    rcases hShows.exists_surface_before hSound hSplit hAbove
      with ⟨before, hBefore, hId⟩
    have hKnown : before ∈ v.surfaces := by
      rw [hSplit]
      exact List.mem_append_left _ hBefore
    rw [← hShows.eq_of_type_id_eq hr hKnown hId]
    exact hNot before hBefore

end Shows

end ExportView

end JsExport
