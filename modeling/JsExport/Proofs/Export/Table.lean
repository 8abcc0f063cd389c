import JsExport.Export.Table
import JsExport.Proofs.Listing.First
import JsExport.Proofs.Program.Sound

/-
  The table of identities as a fixed point.

  The table is filled type by type, supertypes first, so
  what a member overrides is settled when the member is.
  Hence the finished table gives every member what the rules
  give it when they read the finished table, and it is the
  only table that does.

  Main declarations:
    * `ExportTable.Resolves`
    * `Program.tableInOrder`
    * `Program.Sound.resolves_tableInOrder`
    * `Program.Sound.identity?_eq_of_resolves`
    * `JsIdentity.of_passedTo?_eq`
    * `ExportTable.Resolves.access_eq`
    * `ExportTable.Resolves.eq_named`
-/

namespace JsExport

open Lookup

namespace ExportTable

variable {table other : ExportTable}
variable {above members : List MemberNode}
variable {m : MemberNode}

------------------------------------------------------------
-- Entries
------------------------------------------------------------

theorem identity?_set_self
    {id : MemberId}
    (hLt : id < table.length)
    (found : Option JsIdentity) :
    identity? (table.set id found) id = found := by
  unfold identity?
  rw [List.getElem?_set_self hLt]
  rfl

theorem identity?_set_of_ne
    {id k : MemberId}
    (hNe : id ≠ k)
    (found : Option JsIdentity) :
    identity? (table.set id found) k = table.identity? k := by
  unfold identity?
  rw [List.getElem?_set_ne hNe]

/- A member is resolved by what the table has above it. -/
theorem resolve?_congr
    (hAgree :
      ∀ n ∈ above, table.identity? n.id = other.identity? n.id) :
    table.resolve? above m = other.resolve? above m := by
  have hFound :
      table.inherited? above m.decl =
        other.inherited? above m.decl := by
    have hEach :
        ∀ n ∈ above.filter (fun n =>
            n.decl.isOverridable &&
              n.decl.sharesSignature m.decl),
          table.identity? n.id = other.identity? n.id :=
      fun n hn => hAgree n (List.mem_of_mem_filter hn)
    exact congrArg (fun found => found.bind
      (fun identity => identity.passedTo? m.decl))
      (Listing.findSome?_congr hEach)
  unfold resolve?
  rw [hFound]

------------------------------------------------------------
-- The Members Of One Type
------------------------------------------------------------

@[simp]
theorem length_addMembers :
    (table.addMembers above members).length =
      table.length := by
  unfold addMembers
  induction members generalizing table with
  | nil => rfl
  | cons x xs ih =>
      rw [List.foldl_cons, ih, List.length_set]

/- The entries of other members stay. -/
theorem identity?_addMembers_of_not_mem
    {k : MemberId}
    (hNot : ∀ n ∈ members, n.id ≠ k) :
    (table.addMembers above members).identity? k =
      table.identity? k := by
  unfold addMembers
  induction members generalizing table with
  | nil => rfl
  | cons x xs ih =>
      rw [List.foldl_cons,
        ih (fun n hn => hNot n (List.mem_cons_of_mem x hn)),
        identity?_set_of_ne (hNot x List.mem_cons_self)]

/-
  The entry of a member that is added.  Since none of those
  above is added, it does not matter when it is read.
-/
theorem identity?_addMembers_of_mem
    (hMem : m ∈ members)
    (hLt : m.id < table.length)
    (hId : ∀ n ∈ members, n.id = m.id → n = m)
    (hApart : ∀ a ∈ above, ∀ n ∈ members, n.id ≠ a.id) :
    (table.addMembers above members).identity? m.id =
      table.resolve? above m := by
  induction members generalizing table with
  | nil => cases hMem
  | cons x xs ih =>
      let next : ExportTable :=
        table.set x.id (table.resolve? above x)
      have hStep :
          table.addMembers above (x :: xs) =
            next.addMembers above xs := rfl
      rw [hStep]
      by_cases hLater : m ∈ xs
      · have hSame :
            next.resolve? above m =
              table.resolve? above m := by
          apply resolve?_congr
          intro a ha
          exact identity?_set_of_ne
            (hApart a ha x List.mem_cons_self) _
        rw [ih hLater (by simpa [next] using hLt)
          (fun n hn =>
            hId n (List.mem_cons_of_mem x hn))
          (fun a ha n hn =>
            hApart a ha n (List.mem_cons_of_mem x hn)),
          hSame]
      · have hHere : m = x :=
          (List.mem_cons.mp hMem).resolve_right hLater
        subst hHere
        have hNot : ∀ n ∈ xs, n.id ≠ m.id := by
          intro n hn hSame
          have hEq :=
            hId n (List.mem_cons_of_mem m hn) hSame
          exact hLater (hEq ▸ hn)
        rw [identity?_addMembers_of_not_mem hNot,
          identity?_set_self hLt]

------------------------------------------------------------
-- Fixed Points
------------------------------------------------------------

/-
  That a table gives a member what the rules give it, read
  against the table itself.
-/
def Settles
    (p : Program)
    (table : ExportTable)
    (m : MemberNode) : Prop :=
  ∀ lineage, p.lineage m.owner.id = .ok lineage →
    table.identity? m.id =
      table.resolve? (lineage.tail.flatMap p.declaredBy) m

/- The same of all members of a program. -/
def Resolves
    (p : Program)
    (table : ExportTable) : Prop :=
  ∀ m, p.HasMember m → Settles p table m

end ExportTable

------------------------------------------------------------
-- The Table Of A Program
------------------------------------------------------------

/- The table that is filled type by type in a given order. -/
def Program.tableInOrder
    (p : Program)
    (order : List TypeId) :
    Except LookupError ExportTable :=
  order.foldlM (ExportTable.addType p)
    (List.replicate p.members.length none)

/- What the members of a type do to a table. -/
theorem ExportTable.addType_eq_ok_iff
    {p : Program}
    {table next : ExportTable}
    {t : TypeId} :
    ExportTable.addType p table t = .ok next ↔
      ∃ node lineage, p.type t = .ok node ∧
        p.lineage t = .ok lineage ∧
          next = table.addMembers
            (lineage.tail.flatMap p.declaredBy)
            (p.declaredBy node) := by
  unfold ExportTable.addType
  rw [bind_eq_ok_iff]
  constructor
  · rintro ⟨node, hNode, hRest⟩
    rcases bind_eq_ok_iff.mp hRest with
      ⟨lineage, hLineage, hEq⟩
    exact ⟨node, lineage, hNode, hLineage,
      (Except.ok.inj hEq).symm⟩
  · rintro ⟨node, lineage, hNode, hLineage, rfl⟩
    exact ⟨node, hNode, bind_eq_ok_iff.mpr
      ⟨lineage, hLineage, rfl⟩⟩

namespace Program.Sound

variable {p : Program}
variable (hSound : p.Sound)

include hSound

/- What a type inherits is declared by types above it. -/
theorem inherits_of_mem_tail
    {t : TypeId}
    {lineage : List TypeNode}
    (hLineage : p.lineage t = .ok lineage)
    {m : MemberNode}
    (hMem : m ∈ lineage.tail.flatMap p.declaredBy) :
    p.HasMember m ∧ Inherits p.types t m.owner.id := by
  rcases List.mem_flatMap.mp hMem with ⟨s, hs, hm⟩
  have hType := ((mem_of_lineage_eq_ok hLineage).mp
    (List.mem_of_mem_tail hs)).2
  rcases hSound.hasMember_of_mem_declaredBy hType hm with
    ⟨hMember, hOwner⟩
  refine ⟨hMember, ?_⟩
  rw [← hSound.fits.mem_strictAncestry_iff, hOwner]
  have hTail :
      lineage.tail.map (fun s => s.id) =
        p.hierarchy.strictAncestry t := by
    rw [List.map_tail, map_id_of_lineage_eq_ok hLineage]
    rfl
  rw [← hTail]
  exact List.mem_map_of_mem hs

/- Adding a type leaves the members of other types alone. -/
theorem identity?_addType_of_ne
    {table next : ExportTable}
    {t : TypeId}
    (hAdd : ExportTable.addType p table t = .ok next)
    {m : MemberNode}
    (hMember : p.HasMember m)
    (hNe : m.owner.id ≠ t) :
    next.identity? m.id = table.identity? m.id := by
  rcases ExportTable.addType_eq_ok_iff.mp hAdd with
    ⟨node, lineage, hNode, _, rfl⟩
  rcases type_eq_ok_iff_hasType.mp hNode with ⟨rfl, hType⟩
  apply ExportTable.identity?_addMembers_of_not_mem
  intro n hn hSame
  rcases hSound.hasMember_of_mem_declaredBy hType hn with
    ⟨hOther, hOwner⟩
  rw [hOther.eq_of_id_eq hMember hSame] at hOwner
  exact hNe (congrArg TypeNode.id hOwner)

/-
  The members of a type are settled when the type is added,
  and whoever was settled before stays so.
-/
theorem settles_addType
    {order : List TypeId}
    (hOrders : Hierarchy.Orders p.types order)
    {table next : ExportTable}
    {done rest : List TypeId}
    {t : TypeId}
    (hSplit : order = done ++ t :: rest)
    (hLength : table.length = p.members.length)
    (hAdd : ExportTable.addType p table t = .ok next)
    (hDone :
      ∀ m, p.HasMember m → m.owner.id ∈ done →
        ExportTable.Settles p table m) :
    ∀ m, p.HasMember m → m.owner.id ∈ done ++ [t] →
      ExportTable.Settles p next m := by
  intro m hMember hOwner lineage hLineage
  have hBelow :
      ∀ a ∈ lineage.tail.flatMap p.declaredBy,
        next.identity? a.id = table.identity? a.id := by
    intro a ha
    rcases hSound.inherits_of_mem_tail hLineage ha with
      ⟨hAbove, hInherits⟩
    apply hSound.identity?_addType_of_ne hAdd hAbove
    intro hSame
    rw [hSame] at hInherits
    exact hOrders.not_inherits_of_split hSplit hOwner
      hInherits
  rw [ExportTable.resolve?_congr hBelow]
  rcases List.mem_append.mp hOwner with hBefore | hLast
  · have hNe : m.owner.id ≠ t := by
      intro hSame
      have hNodup := hOrders.nodup
      rw [hSplit, ← hSame] at hNodup
      exact (List.disjoint_of_nodup_append hNodup) hBefore
        List.mem_cons_self
    rw [hSound.identity?_addType_of_ne hAdd hMember hNe]
    exact hDone m hMember hBefore lineage hLineage
  · have hHere : m.owner.id = t := List.mem_singleton.mp hLast
    subst hHere
    rcases ExportTable.addType_eq_ok_iff.mp hAdd with
      ⟨node, found, hNode, hFound, rfl⟩
    have hSame : found = lineage :=
      Except.ok.inj (hFound.symm.trans hLineage)
    subst hSame
    rcases type_eq_ok_iff_hasType.mp hNode with
      ⟨hId, hType⟩
    have hOwn : node = m.owner :=
      hType.eq_of_id_eq hMember.2.2 hId
    subst hOwn
    have hEach :
        ∀ n ∈ p.declaredBy m.owner,
          p.HasMember n ∧ n.owner = m.owner :=
      fun n hn => hSound.hasMember_of_mem_declaredBy hType hn
    apply ExportTable.identity?_addMembers_of_mem
    · exact hSound.mem_declaredBy_of_hasMember hMember
    · rw [hLength]
      exact hMember.lt_length
    · intro n hn hEq
      exact (hEach n hn).1.eq_of_id_eq hMember hEq
    · intro a ha n hn hEq
      rcases hSound.inherits_of_mem_tail hLineage ha with
        ⟨hAbove, hInherits⟩
      have hSelf :=
        (hEach n hn).1.eq_of_id_eq hAbove hEq
      rw [← hSelf, (hEach n hn).2] at hInherits
      exact hSound.fits.acyclic _ hInherits

/- A table can be filled in any order of the types. -/
theorem tableInOrder_succeeds
    {order : List TypeId}
    (hKnown : ∀ t ∈ order, t < p.types.length) :
    Succeeds (p.tableInOrder order) := by
  have hTotal :
      ∃ table, p.tableInOrder order = .ok table ∧ True := by
    apply foldlM_succeeds_of_invariant (fun _ => True)
    · intro t ht table _
      have hAdd : Succeeds (ExportTable.addType p table t) :=
        (type_succeeds (hKnown t ht)).bind (fun _ _ =>
          (hSound.lineage_succeeds (hKnown t ht)).map _)
      rcases hAdd with ⟨next, hNext⟩
      exact ⟨next, hNext, trivial⟩
    · trivial
  rcases hTotal with ⟨table, hTable, _⟩
  exact ⟨table, hTable⟩

/-
  A table that is filled with supertypes first has an entry
  for every member, and settles every member.
-/
theorem resolves_tableInOrder
    {order : List TypeId}
    (hOrders : Hierarchy.Orders p.types order)
    {table : ExportTable}
    (hTable : p.tableInOrder order = .ok table) :
    table.length = p.members.length ∧ table.Resolves p := by
  let start : ExportTable :=
    List.replicate p.members.length none
  -- Induction on the types that are done, last one first.
  have hDone :
      ∀ done rest found,
        order = done ++ rest →
        done.foldlM (ExportTable.addType p) start =
            .ok found →
          found.length = p.members.length ∧
            ∀ m, p.HasMember m → m.owner.id ∈ done →
              ExportTable.Settles p found m := by
    intro done
    induction done using List.reverseRecOn with
    | nil =>
        intro rest found _ hFound
        cases hFound
        refine ⟨List.length_replicate, ?_⟩
        intro m _ hOwner
        cases hOwner
    | append_singleton done t ih =>
        intro rest found hSplit hFound
        have hHere : order = done ++ t :: rest := by
          rw [hSplit, List.append_assoc,
            List.singleton_append]
        rw [List.foldlM_append] at hFound
        rcases bind_eq_ok_iff.mp hFound with
          ⟨before, hBefore, hLast⟩
        rcases ih (t :: rest) before hHere hBefore with
          ⟨hLength, hSettled⟩
        have hAdd :
            ExportTable.addType p before t = .ok found := by
          rcases bind_eq_ok_iff.mp hLast with
            ⟨next, hNext, hEnd⟩
          cases hEnd
          exact hNext
        constructor
        · rcases ExportTable.addType_eq_ok_iff.mp hAdd with
            ⟨node, lineage, _, _, rfl⟩
          rw [ExportTable.length_addMembers, hLength]
        · exact hSound.settles_addType hOrders hHere
            hLength hAdd hSettled
  rcases hDone order [] table (List.append_nil _).symm
      hTable with
    ⟨hLength, hSettled⟩
  refine ⟨hLength, ?_⟩
  intro m hMember
  exact hSettled m hMember ((hOrders.mem_iff _).mpr
    hMember.2.2.lt_length)

/- The finished table settles every member. -/
theorem resolves_exportTable
    {table : ExportTable}
    (hTable : p.exportTable = .ok table) :
    table.Resolves p :=
  (hSound.resolves_tableInOrder hSound.fits.orders
    hTable).2

/- There is one table that settles every member. -/
theorem identity?_eq_of_resolves
    {table other : ExportTable}
    (hTable : table.Resolves p)
    (hOther : other.Resolves p)
    {m : MemberNode}
    (hMember : p.HasMember m) :
    table.identity? m.id = other.identity? m.id := by
  have hType :
      ∀ t, t < p.types.length →
        ∀ n, p.HasMember n → n.owner.id = t →
          table.identity? n.id = other.identity? n.id := by
    refine hSound.fits.induction_above ?_
    intro t hLt hAbove n hn hOwner
    subst hOwner
    rcases hSound.lineage_succeeds hLt with
      ⟨lineage, hLineage⟩
    rw [hTable n hn lineage hLineage,
      hOther n hn lineage hLineage]
    apply ExportTable.resolve?_congr
    intro a ha
    rcases hSound.inherits_of_mem_tail hLineage ha with
      ⟨hMem, hInherits⟩
    exact hAbove a.owner.id hInherits a hMem rfl
  exact hType m.owner.id hMember.2.2.lt_length m hMember rfl

end Program.Sound

------------------------------------------------------------
-- Accessors
------------------------------------------------------------

/- A member is a field when it cannot be called. -/
theorem MemberDecl.isField_eq
    (m : MemberDecl) :
    m.isField = !m.isCallable := by
  unfold isField field? isCallable callable?
  cases m.shape <;> rfl

theorem JsRole.isProperty_iff
    {role : JsRole} :
    role.isProperty ↔ ∃ access, role = .property access := by
  cases role <;> simp [isProperty]

/-
  Methods and accessors pass on what they are; the name and
  the access are those of the receiver.
-/
theorem JsIdentity.of_passedTo?_eq
    {above found : JsIdentity}
    {m : MemberDecl}
    (hPassed : above.passedTo? m = some found) :
    (above.role = .method ∧ found = named .method m) ∨
      (above.role.isProperty ∧
        found =
          named (.property (Accessor.ofName m.name)) m) := by
  unfold passedTo? at hPassed
  split at hPassed
  · rename_i hRole
    cases hPassed
    exact .inl ⟨hRole, rfl⟩
  · rename_i hRole
    cases hPassed
    exact .inr ⟨JsRole.isProperty_iff.mpr ⟨_, hRole⟩, rfl⟩
  · cases hPassed
  · cases hPassed

/- What is passed on is named for its receiver. -/
theorem JsIdentity.eq_named_of_passedTo?_eq
    {above found : JsIdentity}
    {m : MemberDecl}
    (hPassed : above.passedTo? m = some found) :
    found = named found.role m := by
  rcases of_passedTo?_eq hPassed with
    ⟨_, rfl⟩ | ⟨_, rfl⟩
  · rfl
  · rfl

/- Only accessors make accessors of what overrides them. -/
theorem JsIdentity.isProperty_of_passedTo?_eq
    {identity found : JsIdentity}
    {m : MemberDecl}
    (hPassed : identity.passedTo? m = some found)
    (hProperty : found.role.isProperty) :
    identity.role.isProperty := by
  rcases of_passedTo?_eq hPassed with
    ⟨_, rfl⟩ | ⟨hRole, _⟩
  · cases hProperty
  · exact hRole

/- Identities passed on keep to the name of the receiver. -/
theorem JsIdentity.access_eq_of_passedTo?_eq
    {identity found : JsIdentity}
    {m : MemberDecl}
    (hPassed : identity.passedTo? m = some found)
    {access : Accessor}
    (hRole : found.role = .property access) :
    access = Accessor.ofName m.name := by
  rcases of_passedTo?_eq hPassed with
    ⟨_, rfl⟩ | ⟨_, rfl⟩
  · cases hRole
  · cases hRole
    rfl

namespace ExportTable.Resolves

variable {p : Program}
variable (hSound : p.Sound)
variable {table : ExportTable}
variable (hTable : table.Resolves p)
variable {m : MemberNode}
variable (hMember : p.HasMember m)
variable {identity : JsIdentity}
variable (hIdentity : table.identity? m.id = some identity)

include hSound hTable hMember hIdentity

/-
  What the table gives a member is its natural identity, or
  is passed on to it, if it may inherit one.
-/
theorem natural_or_passed :
    identity = JsIdentity.natural m.decl ∨
      (m.decl.mayInheritExport ∧
        ∃ above : JsIdentity,
          above.passedTo? m.decl = some identity) := by
  rcases hSound.lineage_succeeds
      hMember.2.2.lt_length with
    ⟨lineage, hLineage⟩
  rw [hTable m hMember lineage hLineage] at hIdentity
  unfold resolve? at hIdentity
  split at hIdentity
  · exact .inl (Option.some.inj hIdentity).symm
  · split at hIdentity
    · rename_i hMay
      rcases Option.bind_eq_some_iff.mp hIdentity with
        ⟨above, _, hPassed⟩
      exact .inr ⟨hMay, above, hPassed⟩
    · cases hIdentity

/-
  A member that the table makes an accessor is a method, and
  it accesses its property as its name says.
-/
theorem access_eq
    {access : Accessor}
    (hRole : identity.role = .property access) :
    m.decl.isCallable ∧
      access = Accessor.ofName m.decl.name := by
  rcases hTable.natural_or_passed hSound hMember
      hIdentity with
    rfl | ⟨hMay, above, hPassed⟩
  · have hNatural :
        JsIdentity.naturalRole m.decl = .property access :=
      hRole
    unfold JsIdentity.naturalRole at hNatural
    split at hNatural
    · cases hNatural
    · rename_i hField
      split at hNatural
      · cases hNatural
      · split at hNatural
        · cases hNatural
          rw [MemberDecl.isField_eq] at hField
          exact ⟨by simpa using hField, rfl⟩
        · cases hNatural
  · refine ⟨?_, JsIdentity.access_eq_of_passedTo?_eq
      hPassed hRole⟩
    unfold MemberDecl.mayInheritExport
      MemberDecl.isOverridable at hMay
    simp only [Bool.and_eq_true] at hMay
    exact hMay.2.1.1.1

/- The table names each member for itself. -/
theorem eq_named :
    identity = JsIdentity.named identity.role m.decl := by
  rcases hTable.natural_or_passed hSound hMember
      hIdentity with
    rfl | ⟨_, above, hPassed⟩
  · rfl
  · exact JsIdentity.eq_named_of_passedTo?_eq hPassed

end ExportTable.Resolves

end JsExport
