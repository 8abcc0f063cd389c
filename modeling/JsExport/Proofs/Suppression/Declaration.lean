import JsExport.Export.Identity
import JsExport.Program.Draft

/-
  Declarations without the warnings that they silence.

  Types, members and parameters may list warnings to be
  silenced.  Erasing these lists changes nothing else of a
  declaration, and so nothing of its modifiers, its signature
  or its own claim to be exported.

  Main declarations:
    * `TypeDecl.unsilenced` and `MemberDecl.unsilenced`
    * `Draft.unsilenced`
    * `Draft.SilencesMore`
    * `Draft.silencesMore_unsilenced`
-/

namespace JsExport

------------------------------------------------------------
-- Erasing Suppressions
------------------------------------------------------------

/- The parameter without the warnings that it silences. -/
def Param.unsilenced
    (p : Param) : Param :=
  { p with suppressions := [] }

def Callable.unsilenced
    (c : Callable) : Callable :=
  { c with params := c.params.map .unsilenced }

def MemberShape.unsilenced : MemberShape → MemberShape
| .callable c => .callable c.unsilenced
| .field f => .field f

/- The member without suppressions, its parameters neither. -/
def MemberDecl.unsilenced
    (m : MemberDecl) : MemberDecl :=
  { m with
    shape := m.shape.unsilenced
    suppressions := [] }

def TypeDecl.unsilenced
    (d : TypeDecl) : TypeDecl :=
  { d with suppressions := [] }

/- The declarations without suppressions. -/
def Draft.unsilenced
    (p : Draft) : Draft :=
  ⟨p.types.map .unsilenced, p.members.map .unsilenced⟩

------------------------------------------------------------
-- Silencing More
------------------------------------------------------------

/- The parameters of a member, of which a field has none. -/
def MemberDecl.params
    (m : MemberDecl) : List Param :=
  (m.callable?.map (fun c => c.params)).getD []

/-
  That declarations are those of another draft and that each
  of them silences at least what it silences there.
-/
structure Draft.SilencesMore
    (other draft : Draft) : Prop where
  same : other.unsilenced = draft.unsilenced
  types :
    ∀ (t : TypeId) (d e : TypeDecl),
      draft.types[t]? = some d → other.types[t]? = some e →
        d.suppressions ⊆ e.suppressions
  members :
    ∀ (id : MemberId) (m n : MemberDecl),
      draft.members[id]? = some m →
        other.members[id]? = some n →
          m.suppressions ⊆ n.suppressions
  params :
    ∀ (id : MemberId) (m n : MemberDecl),
      draft.members[id]? = some m →
        other.members[id]? = some n →
          ∀ (i : Nat) (a b : Param),
            m.params[i]? = some a → n.params[i]? = some b →
              a.suppressions ⊆ b.suppressions

------------------------------------------------------------
-- What Erasing Keeps
------------------------------------------------------------

@[simp]
theorem Callable.result_unsilenced
    (c : Callable) :
    c.unsilenced.result = c.result :=
  rfl

@[simp]
theorem Callable.isConstructor_unsilenced
    (c : Callable) :
    c.unsilenced.isConstructor = c.isConstructor :=
  rfl

@[simp]
theorem Callable.paramTypes_unsilenced
    (c : Callable) :
    c.unsilenced.paramTypes = c.paramTypes := by
  unfold paramTypes unsilenced
  rw [List.map_map]
  rfl

namespace MemberDecl

variable (m : MemberDecl)

@[simp]
theorem callable?_unsilenced :
    m.unsilenced.callable? = m.callable?.map .unsilenced := by
  unfold callable? unsilenced
  cases m.shape <;> rfl

theorem params_unsilenced :
    m.unsilenced.params = m.params.map .unsilenced := by
  unfold params
  rw [callable?_unsilenced]
  cases m.callable? <;> rfl

@[simp]
theorem field?_unsilenced :
    m.unsilenced.field? = m.field? := by
  unfold field? unsilenced
  cases m.shape <;> rfl

@[simp]
theorem isField_unsilenced :
    m.unsilenced.isField = m.isField := by
  unfold isField
  rw [field?_unsilenced]

@[simp]
theorem isCallable_unsilenced :
    m.unsilenced.isCallable = m.isCallable := by
  unfold isCallable
  rw [callable?_unsilenced, Option.isSome_map]

@[simp]
theorem isConstructor_unsilenced :
    m.unsilenced.isConstructor = m.isConstructor := by
  unfold isConstructor
  rw [callable?_unsilenced, Option.any_map]
  rfl

@[simp]
theorem isAbstract_unsilenced :
    m.unsilenced.isAbstract = m.isAbstract := by
  unfold isAbstract
  rw [callable?_unsilenced, Option.any_map]
  rfl

@[simp]
theorem isOverridable_unsilenced :
    m.unsilenced.isOverridable = m.isOverridable := by
  unfold isOverridable
  rw [isCallable_unsilenced, isConstructor_unsilenced]
  rfl

@[simp]
theorem delegatesTo_unsilenced :
    m.unsilenced.delegatesTo = m.delegatesTo := by
  unfold delegatesTo
  rw [callable?_unsilenced]
  cases m.callable? <;> rfl

@[simp]
theorem superCalls_unsilenced :
    m.unsilenced.superCalls = m.superCalls := by
  unfold superCalls
  rw [callable?_unsilenced, Option.map_map]
  rfl

@[simp]
theorem instanceTests_unsilenced :
    m.unsilenced.instanceTests = m.instanceTests := by
  unfold instanceTests
  rw [callable?_unsilenced, Option.map_map]
  rfl

@[simp]
theorem signature?_unsilenced :
    m.unsilenced.signature? = m.signature? := by
  unfold signature?
  rw [callable?_unsilenced, Option.map_map]
  congr 1
  funext c
  exact congrArg (Prod.mk m.name) c.paramTypes_unsilenced

@[simp]
theorem sharesSignature_unsilenced
    (n : MemberDecl) :
    m.unsilenced.sharesSignature n.unsilenced =
      m.sharesSignature n := by
  unfold sharesSignature
  rw [signature?_unsilenced, signature?_unsilenced]

------------------------------------------------------------
-- Export
------------------------------------------------------------

@[simp]
theorem isDirectlyExported_unsilenced
    (owner : TypeDecl) :
    m.unsilenced.isDirectlyExported owner.unsilenced =
      m.isDirectlyExported owner := by
  unfold isDirectlyExported exportedBy
  rw [isAbstract_unsilenced]
  rfl

@[simp]
theorem mayInheritExport_unsilenced :
    m.unsilenced.mayInheritExport = m.mayInheritExport := by
  unfold mayInheritExport
  rw [isOverridable_unsilenced]
  rfl

@[simp]
theorem natural_unsilenced :
    JsIdentity.natural m.unsilenced = JsIdentity.natural m := by
  have hRole :
      JsIdentity.naturalRole m.unsilenced =
        JsIdentity.naturalRole m := by
    unfold JsIdentity.naturalRole
    rw [isField_unsilenced, isConstructor_unsilenced]
    rfl
  unfold JsIdentity.natural
  rw [hRole]
  rfl

end MemberDecl

------------------------------------------------------------
-- Nothing To Silence
------------------------------------------------------------

theorem MemberDecl.unsilenced_unsilenced
    (m : MemberDecl) :
    m.unsilenced.unsilenced = m.unsilenced := by
  unfold unsilenced
  dsimp only
  cases m.shape with
  | field f => rfl
  | callable c =>
      unfold MemberShape.unsilenced Callable.unsilenced
      dsimp only
      rw [List.map_map]
      rfl

/- A draft silences more than without its suppressions. -/
theorem Draft.silencesMore_unsilenced
    (draft : Draft) :
    draft.SilencesMore draft.unsilenced where
  same := by
    unfold unsilenced
    dsimp only
    rw [List.map_map, List.map_map]
    congr 1
    exact List.map_congr_left
      (fun m _ => m.unsilenced_unsilenced.symm)
  types t d e hd _ := by
    unfold unsilenced at hd
    rw [List.getElem?_map] at hd
    rcases Option.map_eq_some_iff.mp hd with ⟨_, _, rfl⟩
    exact List.nil_subset e.suppressions
  members id m n hm _ := by
    unfold unsilenced at hm
    rw [List.getElem?_map] at hm
    rcases Option.map_eq_some_iff.mp hm with ⟨_, _, rfl⟩
    exact List.nil_subset n.suppressions
  params id m n hm _ i a b ha _ := by
    unfold unsilenced at hm
    rw [List.getElem?_map] at hm
    rcases Option.map_eq_some_iff.mp hm with ⟨k, _, rfl⟩
    rw [k.params_unsilenced, List.getElem?_map] at ha
    rcases Option.map_eq_some_iff.mp ha with ⟨_, _, rfl⟩
    exact List.nil_subset b.suppressions

end JsExport
