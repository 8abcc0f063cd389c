import JsExport.Text.Uppercase
import JsExport.Text.Lowercase

/-
  Java Bean names of methods and properties.

  A property `name` is read by `getName` or `isName` and
  written by `setName`: a verb, then the property's stem,
  which starts with a capital.  The property's own name is
  the stem with a small first letter, unless the stem starts
  with two capitals, as in `getURL`, and is an acronym.

  Key definitions include:
    * `BeanName.Verb`
    * `BeanName.split?`
    * `BeanName.uncapitalize`
    * `BeanName.property`
    * `Accessor`
    * `Accessor.ofName`
-/

namespace JsExport

namespace BeanName

------------------------------------------------------------
-- Accessor Names
------------------------------------------------------------

/- The verbs of accessor names. -/
inductive Verb
| get
| is
| set
deriving DecidableEq, Repr

/- The letters of a verb. -/
def Verb.letters : Verb → List Char
| .get => ['g', 'e', 't']
| .is => ['i', 's']
| .set => ['s', 'e', 't']

/- The rest of a text after the letters of its beginning. -/
def after? : List Char → List Char → Option (List Char)
| [], text => some text
| _ :: _, [] => none
| c :: cs, t :: ts => if c = t then after? cs ts else none

/- The stem of an accessor name that has a given verb. -/
def stem?
    (v : Verb)
    (name : List Char) : Option (List Char) :=
  (after? v.letters name).filter
    (fun stem => stem.head?.any Letter.isUppercase)

/- The verb and the stem of an accessor name. -/
def split?
    (name : String) : Option (Verb × String) :=
  [Verb.get, Verb.is, Verb.set].findSome? (fun v =>
    (stem? v name.toList).map
      (fun stem => (v, String.ofList stem)))

------------------------------------------------------------
-- Property Names
------------------------------------------------------------

/-
  A stem with a small first letter.  Two capitals in front
  are the start of an acronym and stay.
-/
def uncapitalizeChars : List Char → List Char
| [] => []
| c :: cs =>
    if Letter.isUppercase c &&
        cs.head?.any Letter.isUppercase then
      c :: cs
    else
      Letter.lowercase c ++ cs

/- A text with a small first letter, acronyms left alone. -/
def uncapitalize
    (text : String) : String :=
  String.ofList (uncapitalizeChars text.toList)

/-
  The property that a method gives access to.  A method that
  is not named as an accessor names the property itself.
-/
def property
    (name : String) : String :=
  match split? name with
  | some (_, stem) => uncapitalize stem
  | none => name

end BeanName

------------------------------------------------------------
-- Accessors
------------------------------------------------------------

/- What a method does with the property that it stands for. -/
inductive Accessor
| getter
| setter
| invalid
deriving DecidableEq, Repr

/- The access that the name of a method announces. -/
def Accessor.ofName
    (name : String) : Accessor :=
  match BeanName.split? name with
  | some (.get, _) => .getter
  | some (.is, _) => .getter
  | some (.set, _) => .setter
  | none => .invalid

end JsExport
