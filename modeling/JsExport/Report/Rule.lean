/-
  The families of rules that reports are filed under.

  Key definitions include:
    * `Severity`
    * `Rule`
    * `Rule.severity`
    * `Rule.rank`
-/

namespace JsExport

------------------------------------------------------------
-- Rules
------------------------------------------------------------

/- How much a report weighs. -/
inductive Severity
| error
| warning
deriving DecidableEq, Repr

/- The written form of a severity. -/
def Severity.text : Severity → String
| .error => "error"
| .warning => "warning"

/- The families of rules. -/
inductive Rule
| namingCollision
| constructorDelegation
| inconsistentRename
| propertyShape
| propertyConsistency
| propertyAccess
| structuralContract
| unusable
deriving DecidableEq, Repr

namespace Rule

/- The code of a family in reports. -/
def code : Rule → String
| .namingCollision => "NamingCollision"
| .constructorDelegation => "ConstructorDelegation"
| .inconsistentRename => "InconsistentOverrideRename"
| .propertyShape => "PropertyShape"
| .propertyConsistency => "PropertyConsistency"
| .propertyAccess => "PropertyAccess"
| .structuralContract => "StructuralContract"
| .unusable => "UnusableByJs"

/- Advice on usability is a warning, all else an error. -/
def severity : Rule → Severity
| .unusable => .warning
| _ => .error

/- Where a family comes among the reports on one line. -/
def rank : Rule → Nat
| .namingCollision => 0
| .constructorDelegation => 0
| .inconsistentRename => 1
| .propertyShape => 2
| .propertyConsistency => 2
| .propertyAccess => 2
| .structuralContract => 3
| .unusable => 4

end Rule

end JsExport
