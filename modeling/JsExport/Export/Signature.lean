import JsExport.Program.Basic

/-
  How messages write members.

  A method reads `int Shop.price(String)`, a constructor
  `Shop.Shop(int)`, a field `int Shop.count`.  The result
  that a constructor declares is not written.

  Key definitions include:
    * `Signature.text`
    * `Signature.quoted`
-/

namespace JsExport

namespace Signature

------------------------------------------------------------
-- Signatures
------------------------------------------------------------

/- The written form of a type of a program. -/
def typeText
    (p : Program)
    (t : TypeExpr) : String :=
  t.text p.typeName

/- The parameter types, separated by commas. -/
def paramsText
    (p : Program)
    (c : Callable) : String :=
  ", ".intercalate (c.paramTypes.map (typeText p))

/- The written form of a member. -/
def text
    (p : Program)
    (m : MemberNode) : String :=
  let owner := m.owner.decl.qualifiedName
  let name := m.decl.name
  match m.decl.shape with
  | .field f => s!"{typeText p f.type} {owner}.{name}"
  | .callable c =>
      let params := paramsText p c
      if c.isConstructor then
        s!"{owner}.{name}({params})"
      else
        s!"{typeText p c.result} {owner}.{name}({params})"

/-
  A member in quotes, with the type that exposes it when its
  own type does not.
-/
def quoted
    (p : Program)
    (m : MemberNode)
    (exposedBy : Option TypeNode) : String :=
  match exposedBy with
  | none => s!"'{text p m}'"
  | some t =>
      s!"'{text p m}' " ++
        s!"(exposed by '{t.decl.qualifiedName}')"

end Signature

end JsExport
