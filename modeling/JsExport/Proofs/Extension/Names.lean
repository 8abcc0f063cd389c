import JsExport.Proofs.Check.Outcome
import JsExport.Proofs.Extension.View
import JsExport.Proofs.Rules.Delegation
import JsExport.Proofs.Rules.NameClash
import JsExport.Proofs.Rules.Naming

/-
  Reports on names, in a program that holds another one.

  The first of several reports stays the first, since the
  types of the smaller program come first; and a chain of
  constructors stays within its type.

  Main declarations:
    * `ExportView.Extends.nameClashes_prefix`
    * `ExportView.Extends.globalNames_prefix`
    * `ExportView.Extends.constructors_prefix`
    * `ExportView.Extends.renames_prefix`
-/

namespace JsExport

open Lookup

------------------------------------------------------------
-- Clashes
------------------------------------------------------------

/- That a clash is between members of a program. -/
structure Clash.InProgram
    (c : Clash)
    (p : Program) : Prop where
  type : p.HasType c.type
  first : p.HasMember c.first.member
  second : p.HasMember c.second.member

theorem Clash.InProgram.ordered
    {c : Clash}
    {p : Program}
    (hClash : c.InProgram p)
    (v : ExportView) :
    (c.ordered v).InProgram p := by
  rcases (c.ordered_cases v).1 with hSame | hSwap
  · rw [hSame]
    exact hClash
  · rw [hSwap]
    exact ⟨hClash.type, hClash.second, hClash.first⟩

------------------------------------------------------------
-- Late Claims
------------------------------------------------------------

namespace ExportView

/- Later claims do not make earlier ones late. -/
theorem lateClaims_prefix
    (taken : List String)
    {claims all : List Claim}
    (hPrefix : claims <+: all) :
    lateClaims taken claims <+: lateClaims taken all := by
  rcases hPrefix with ⟨more, rfl⟩
  induction claims generalizing taken with
  | nil => exact List.nil_prefix
  | cons c rest ih =>
      rw [List.cons_append]
      unfold lateClaims
      split
      · exact List.cons_prefix_cons.mpr ⟨rfl, ih taken⟩
      · exact ih (c.name :: taken)

end ExportView

------------------------------------------------------------
-- Reports On Clashes
------------------------------------------------------------

namespace ExportView.Extends

variable {v w : ExportView}
variable (hViews : w.Extends v)

include hViews

theorem clash_finding_eq
    {c : Clash}
    (hClash : c.InProgram v.program) :
    c.finding w = c.finding v := by
  unfold Clash.finding
  rw [hViews.clashTexts_eq hClash.type hClash.first
    hClash.second]

theorem clash_ordered_eq
    {c : Clash}
    (hClash : c.InProgram v.program) :
    c.ordered w = c.ordered v := by
  unfold Clash.ordered
  rw [hViews.signature_eq hClash.first,
    hViews.signature_eq hClash.second]

/- What a group of a surface holds is in the program. -/
theorem hasMember_of_mem_group
    {s : Surface}
    (hSurface : s ∈ v.surfaces)
    {g : String × List (Slot × JsIdentity)}
    (hGroup : g ∈ s.groups)
    {e : Slot × JsIdentity}
    (hMem : e ∈ g.2) :
    v.program.HasMember e.1.member := by
  have hNamed := ((Surface.mem_of_mem_groups hGroup).mp
    hMem).1
  exact (hViews.hasMember_slot hSurface
    (Surface.mem_named_iff.mp hNamed).1).1

theorem clash_inProgram
    {s : Surface}
    (hSurface : s ∈ v.surfaces)
    {c : Clash}
    (hClash : c ∈ s.clashes) :
    c.InProgram v.program := by
  rcases Surface.mem_clashes_iff.mp hClash with
    ⟨g, hGroup, x, y, hPair, _, rfl⟩
  rcases Listing.mem_of_mem_pairs hPair with ⟨hx, hy⟩
  exact ⟨hViews.hasType_of_mem_surfaces hSurface,
    hViews.hasMember_of_mem_group hSurface hGroup hx,
    hViews.hasMember_of_mem_group hSurface hGroup hy⟩

/- The reports on clashes begin with those of before. -/
theorem nameClashes_prefix :
    v.nameClashes <+: w.nameClashes := by
  have hClashes :
      v.surfaces.flatMap Surface.clashes <+:
        w.surfaces.flatMap Surface.clashes :=
    Listing.flatMap_prefix hViews.surfaces_prefix
      (fun _ _ => rfl)
  apply Listing.map_prefix
    (Listing.firstBy_prefix hClashes Clash.key)
  intro c hc
  have hMem := (Listing.firstBy_sublist _ _).subset hc
  rcases List.mem_flatMap.mp hMem with ⟨s, hs, hClash⟩
  have hIn := hViews.clash_inProgram hs hClash
  rw [hViews.clash_ordered_eq hIn,
    hViews.clash_finding_eq (hIn.ordered v)]

------------------------------------------------------------
-- Global Names
------------------------------------------------------------

theorem declaredBy_eq
    {t : TypeNode}
    (hType : v.program.HasType t) :
    w.program.declaredBy t = v.program.declaredBy t :=
  hViews.program.declaredBy_eq hType

theorem hasMember_of_mem_declaredBy
    {t : TypeNode}
    (hType : v.program.HasType t)
    {m : MemberNode}
    (hMem : m ∈ v.program.declaredBy t) :
    v.program.HasMember m ∧ m.owner = t :=
  hViews.program.sound.hasMember_of_mem_declaredBy hType
    hMem

theorem hasMember_of_mem_fieldsFirst
    {t : TypeNode}
    (hType : v.program.HasType t)
    {m : MemberNode}
    (hMem : m ∈ v.fieldsFirst t) :
    v.program.HasMember m :=
  (hViews.hasMember_of_mem_declaredBy hType
    (mem_declaredBy_of_mem_fieldsFirst hMem)).1

theorem hasMember_of_mem_claims
    {c : Claim}
    (hClaim : c ∈ v.claims) :
    v.program.HasMember c.member := by
  rcases (of_mem_claims hClaim).2 with ⟨t, ht, hDeclared⟩
  exact (hViews.hasMember_of_mem_declaredBy
    (hViews.hasType_of_mem_types ht) hDeclared).1

theorem claims_prefix :
    v.claims <+: w.claims := by
  apply Listing.flatMap_prefix
    (Listing.filter_prefix hViews.types_prefix
      (fun _ _ => rfl))
  intro t ht
  have hType := hViews.hasType_of_mem_types
    (List.mem_of_mem_filter ht)
  have hFirst : w.fieldsFirst t = v.fieldsFirst t := by
    unfold fieldsFirst
    rw [hViews.declaredBy_eq hType]
  rw [hFirst]
  apply List.filterMap_congr
  intro m hm
  unfold globalName? identity?
  rw [hViews.identity?_eq
    (hViews.hasMember_of_mem_fieldsFirst hType hm)]

/- The reports on taken names begin with those of before. -/
theorem globalNames_prefix :
    v.globalNames <+: w.globalNames := by
  have hLate := lateClaims_prefix [] hViews.claims_prefix
  apply Listing.map_prefix hLate
  intro c hc
  have hClaim := (lateClaims_sublist [] _).subset hc
  rw [hViews.signature_eq
    (hViews.hasMember_of_mem_claims hClaim)]

end ExportView.Extends

------------------------------------------------------------
-- Constructors
------------------------------------------------------------

namespace Program.Extends

variable {p q : Program}
variable (hExtends : q.Extends p)

include hExtends

/- A constructor calls what it called before. -/
theorem delegates_iff
    {c next : MemberNode}
    (hMember : p.HasMember c) :
    q.Delegates c next ↔ p.Delegates c next := by
  have hSame :
      ∀ target, c.decl.delegatesTo = some target →
        q.member target = p.member target := by
    intro target hTarget
    rcases hExtends.sound.wellFormed.delegations c.id c.decl
        hMember.1 target hTarget with
      ⟨_, _, n, hDecl, _⟩
    exact hExtends.member_eq
      (List.getElem?_eq_some_iff.mp hDecl).1
  constructor
  · rintro ⟨target, hTarget, hFound⟩
    exact ⟨target, hTarget, hSame target hTarget ▸ hFound⟩
  · rintro ⟨target, hTarget, hFound⟩
    refine ⟨target, hTarget, ?_⟩
    rw [hSame target hTarget]
    exact hFound

theorem transGen_delegates_iff
    {c primary : MemberNode}
    (hMember : p.HasMember c) :
    Relation.TransGen q.Delegates c primary ↔
      Relation.TransGen p.Delegates c primary := by
  rw [← exists_delegatesIn_iff, ← exists_delegatesIn_iff]
  apply exists_congr
  intro calls
  constructor
  · intro hReaches
    induction hReaches with
    | last hLast =>
        exact .last ((hExtends.delegates_iff hMember).mp
          hLast)
    | further hCall _ ih =>
        have hHere :=
          (hExtends.delegates_iff hMember).mp hCall
        exact .further hHere (ih
          (hExtends.sound.hasMember_of_delegates hMember
            hHere).1)
  · intro hReaches
    induction hReaches with
    | last hLast =>
        exact .last ((hExtends.delegates_iff hMember).mpr
          hLast)
    | further hCall _ ih =>
        exact .further
          ((hExtends.delegates_iff hMember).mpr hCall)
          (ih (hExtends.sound.hasMember_of_delegates hMember
            hCall).1)

/- More members do not change what a constructor reaches. -/
theorem reachesConstructor_eq
    {c primary : MemberNode}
    (hMember : p.HasMember c)
    (hPrimary : p.HasMember primary)
    (hOwner : c.owner = primary.owner) :
    q.reachesConstructor primary c =
      p.reachesConstructor primary c := by
  have hFirst := hExtends.sound.reachesConstructor_eq_ok_true_iff
    hMember hPrimary hOwner
  have hAll :=
    hExtends.sound_all.reachesConstructor_eq_ok_true_iff
      (hExtends.hasMember hMember)
      (hExtends.hasMember hPrimary) hOwner
  rw [hExtends.transGen_delegates_iff hMember, ← hFirst]
    at hAll
  rcases hExtends.sound.reachesWithin_succeeds primary
      p.members.length hMember with
    ⟨found, hFound⟩
  rcases hExtends.sound_all.reachesWithin_succeeds primary
      q.members.length (hExtends.hasMember hMember) with
    ⟨found', hFound'⟩
  unfold reachesConstructor at hAll ⊢
  rw [hFound, hFound'] at hAll ⊢
  cases found <;> cases found' <;> simp_all

end Program.Extends

namespace ExportView.Extends

variable {v w : ExportView}
variable (hViews : w.Extends v)

include hViews

theorem strandedConstructors_eq
    {primary : MemberNode}
    (hPrimary : v.program.HasMember primary)
    {constructors : List MemberNode}
    (hEach :
      ∀ c ∈ constructors, v.program.HasMember c ∧
        c.owner = primary.owner) :
    w.strandedConstructors primary constructors =
      v.strandedConstructors primary constructors := by
  apply filterM_congr
  intro c hc
  rw [hViews.program.reachesConstructor_eq (hEach c hc).1
    hPrimary (hEach c hc).2]

theorem constructorFindings_eq
    {t : TypeNode}
    (hType : v.program.HasType t) :
    w.constructorFindings t = v.constructorFindings t := by
  have hEach :
      ∀ c ∈ (v.program.declaredBy t).filter
          (fun m => m.decl.isConstructor),
        v.program.HasMember c ∧ c.owner = t :=
    fun c hc => hViews.hasMember_of_mem_declaredBy hType
      (List.mem_of_mem_filter hc)
  have hExported :
      ∀ c ∈ (v.program.declaredBy t).filter
          (fun m => m.decl.isConstructor),
        w.isJsConstructor c = v.isJsConstructor c := by
    intro c hc
    unfold isJsConstructor identity?
    rw [hViews.identity?_eq (hEach c hc).1]
  unfold constructorFindings
  rw [hViews.declaredBy_eq hType]
  dsimp only
  rw [List.filter_congr hExported]
  split
  · rfl
  · rename_i primary hOne
    have hPrimary : primary ∈
        (v.program.declaredBy t).filter
          (fun m => m.decl.isConstructor) := by
      apply List.mem_of_mem_filter (p := v.isJsConstructor)
      rw [hOne]
      exact List.mem_cons_self
    have hOwn := hEach primary hPrimary
    rw [hViews.strandedConstructors_eq hOwn.1 (fun c hc =>
        ⟨(hEach c hc).1,
          (hEach c hc).2.trans hOwn.2.symm⟩),
      hViews.signature_eq hOwn.1]
  · rfl

/- The reports on constructors begin with those of before. -/
theorem constructors_prefix
    {first all : List Finding}
    (hFirst : v.constructors = .ok first)
    (hAll : w.constructors = .ok all) :
    first <+: all := by
  refine Listing.flatten_mapM_prefix
    (Listing.filter_prefix hViews.types_prefix
      (fun _ _ => rfl)) hFirst hAll ?_
  intro t ht
  exact (hViews.constructorFindings_eq
    (hViews.hasType_of_mem_types
      (List.mem_of_mem_filter ht))).symm

------------------------------------------------------------
-- Renames
------------------------------------------------------------

theorem slotRenames_eq
    {s : Surface}
    (hSurface : s ∈ v.surfaces)
    {slot : Slot}
    (hSlot : slot ∈ s.slots) :
    w.slotRenames slot = v.slotRenames slot := by
  have hRest := (hViews.hasMember_slot hSurface hSlot).2
  unfold slotRenames identity?
  cases slot.identity with
  | none => rfl
  | some identity =>
      dsimp only
      rw [List.filter_congr (fun n hn => by
        rw [hViews.identity?_eq (hRest n hn)])]

/- The reports on renames begin with those of before. -/
theorem renames_prefix :
    v.renames <+: w.renames := by
  have hRenames :
      v.surfaces.flatMap
          (fun s => s.slots.flatMap v.slotRenames) <+:
        w.surfaces.flatMap
          (fun s => s.slots.flatMap w.slotRenames) := by
    apply Listing.flatMap_prefix hViews.surfaces_prefix
    intro s hs
    apply List.flatMap_congr
    intro slot hSlot
    exact (hViews.slotRenames_eq hs hSlot).symm
  apply Listing.map_prefix
    (Listing.firstBy_prefix hRenames Rename.key)
  intro r hr
  have hMem := (Listing.firstBy_sublist _ _).subset hr
  rcases List.mem_flatMap.mp hMem with ⟨s, hs, hIn⟩
  rcases List.mem_flatMap.mp hIn with
    ⟨slot, hSlot, hRename⟩
  have hSame : r.slot = slot := by
    unfold slotRenames at hRename
    split at hRename
    · cases hRename
    · rcases List.mem_map.mp hRename with ⟨n, _, rfl⟩
      rfl
  have hMember :
      v.program.HasMember r.slot.member := by
    rw [hSame]
    exact (hViews.hasMember_slot hs hSlot).1
  unfold quoted
  rw [hViews.program.quoted_eq hMember]

------------------------------------------------------------
-- All Reports On Names
------------------------------------------------------------

/- The reports on names are among those of the larger view. -/
theorem namingFindings_sublist
    {naming all : List Finding}
    (hNaming : v.namingFindings = .ok naming)
    (hAll : w.namingFindings = .ok all) :
    naming.Sublist all := by
  rcases namingFindings_eq_ok_iff.mp hNaming with
    ⟨first, hFirst, rfl⟩
  rcases namingFindings_eq_ok_iff.mp hAll with
    ⟨more, hMore, rfl⟩
  exact ((hViews.nameClashes_prefix.sublist.append
    hViews.globalNames_prefix.sublist).append
      (hViews.constructors_prefix hFirst hMore).sublist).append
        hViews.renames_prefix.sublist

end ExportView.Extends

end JsExport
