import JsExport.Decl.TypeExpr

/-
  Why a program is refused.

  The declarations of a program refer to one another by
  number.  A defect says which reference goes wrong, and the
  place of the reference says where it stands.

  Key definitions include:
    * `Reference`
    * `Defect`
    * `Defect.message`
-/

namespace JsExport

------------------------------------------------------------
-- Places Of References
------------------------------------------------------------

/- Where a number of a type or a member is written. -/
inductive Reference
| ownerOf (member : String)
| superclassEdit
| interfaceEdit
| delegationEdit
| superclassOf (type : String)
| interfacesOf (type : String)
| supertypesOf (type : String)
| memberListOf (type : String)
| signatureOf (member : String)
| superCallIn (member : String)
| instanceTestIn (member : String)
deriving DecidableEq, Repr

/- The words for a place. -/
def Reference.text : Reference → String
| .ownerOf member => s!"owner of '{member}'"
| .superclassEdit => "superclass assignment"
| .interfaceEdit => "interface assignment"
| .delegationEdit => "delegation"
| .superclassOf type => s!"superclass of '{type}'"
| .interfacesOf type => s!"interface list of '{type}'"
| .supertypesOf type => s!"supertypes of '{type}'"
| .memberListOf type => s!"member list of '{type}'"
| .signatureOf member => s!"signature of '{member}'"
| .superCallIn member => s!"super call in '{member}'"
| .instanceTestIn member => s!"instanceof in '{member}'"

------------------------------------------------------------
-- Defects
------------------------------------------------------------

/- What is wrong with the declarations of a program. -/
inductive Defect
| unknownType (id : TypeId) (place : Reference)
| unknownMember (id : MemberId) (place : Reference)
| superclassKind (type superclass : String)
| superclassRefused (type : String)
| listedKind (type listed : String)
| unownedMember (id : MemberId) (name : String)
| delegationOutside (member owner : String)
| inheritanceCycle (type : String)
deriving DecidableEq, Repr

namespace Defect

/- The message of a defect. -/
def message : Defect → String
| .unknownType id place =>
    s!"{place.text} refers to unknown {TypeId.text id}"
| .unknownMember id place =>
    s!"{place.text} refers to unknown {MemberId.text id}"
| .superclassKind type superclass =>
    s!"'{type}' extends '{superclass}', " ++
      "which is not a class"
| .superclassRefused type =>
    s!"'{type}' is not a class and cannot have a superclass"
| .listedKind type listed =>
    s!"'{type}' implements '{listed}', " ++
      "which is not an interface"
| .unownedMember id name =>
    s!"member '{name}' ({MemberId.text id}) " ++
      "is not registered on its owning type"
| .delegationOutside member owner =>
    s!"constructor '{member}' of '{owner}' " ++
      "delegates outside its own constructors"
| .inheritanceCycle type =>
    s!"cyclic inheritance involving '{type}'"

end Defect

end JsExport
