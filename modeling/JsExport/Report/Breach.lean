import JsExport.Report.Rule

/-
  The ways in which a program breaks a rule.

  A breach holds the written forms of what it is about, so
  that its message is a sentence with the gaps filled in.

  Key definitions include:
    * `Breach`
    * `Breach.rule`
    * `Breach.message`
-/

namespace JsExport

------------------------------------------------------------
-- Breaches
------------------------------------------------------------

/- What is wrong with a program that can be read. -/
inductive Breach
| nameClash (first second name : String)
| globalNameClash (member name : String)
| severalJsConstructors (type : String)
| constructorNotReached (primary : String)
| renamedOverride (member : String)
| readerShape (member : String)
| isReaderShape (member : String)
| writerShape (member : String)
| accessorName (member : String)
| propertyTypes (property type : String)
| superAccessor (member : String)
| functionShape (type : String)
| functionExtends (type : String)
| functionStaticCode (type : String)
| functionAndJsType (type : String)
| extendsFunction (type function : String)
| implInterfaces (type : String)
| implSuperclass (type : String)
| implAndJsType (type : String)
| extendsImpl (type impl : String)
| nativeHidden (member : String)
| enumAsNative (type : String)
| nativeStaticCode (type : String)
| nativeConstructorCode (member : String)
| nativeInterfaceTest (type : String)
| overlayOutsideNative (member : String)
| overlayOverriding (member : String)
| overlayOpen (member : String)
| unusableResult (member : String)
| unusableParam (param member : String)
| unusableField (field type : String)
deriving DecidableEq, Repr

namespace Breach

/- The rule that is broken. -/
def rule : Breach → Rule
| .nameClash _ _ _ => .namingCollision
| .globalNameClash _ _ => .namingCollision
| .severalJsConstructors _ => .namingCollision
| .constructorNotReached _ => .constructorDelegation
| .renamedOverride _ => .inconsistentRename
| .readerShape _ => .propertyShape
| .isReaderShape _ => .propertyShape
| .writerShape _ => .propertyShape
| .accessorName _ => .propertyShape
| .propertyTypes _ _ => .propertyConsistency
| .superAccessor _ => .propertyAccess
| .unusableResult _ => .unusable
| .unusableParam _ _ => .unusable
| .unusableField _ _ => .unusable
| _ => .structuralContract

------------------------------------------------------------
-- Messages
------------------------------------------------------------

/- The message that reports a breach. -/
def message : Breach → String
| .nameClash first second name =>
    s!"{first} and {second} cannot both use " ++
      s!"the same JavaScript name '{name}'."
| .globalNameClash member name =>
    s!"'{member}' cannot be exported because " ++
      s!"the global name '{name}' is already taken."
| .severalJsConstructors type =>
    s!"More than one JsConstructor exists for {type}."
| .constructorNotReached primary =>
    s!"Constructor '{primary}' can be a " ++
      "JsConstructor only if all constructors in the " ++
      "class are delegating to it."
| .renamedOverride member =>
    s!"{member} cannot be assigned a different " ++
      "JavaScript name than the method it overrides."
| .readerShape member =>
    "There cannot be void return type or any " ++
      s!"parameters for the JsProperty getter '{member}'."
| .isReaderShape member =>
    "There cannot be non-boolean return for the " ++
      s!"JsProperty 'is' getter '{member}'."
| .writerShape member =>
    "There needs to be single parameter and void " ++
      "return type for the JsProperty setter " ++
      s!"'{member}'."
| .accessorName member =>
    s!"JsProperty '{member}' doesn't follow Java " ++
      "Bean naming conventions."
| .propertyTypes property type =>
    "The setter and getter for JsProperty " ++
      s!"'{property}' in type '{type}' must have " ++
      "consistent types."
| .superAccessor member =>
    "Cannot call property accessor " ++
      s!"'{member}' via super."
| .functionShape type =>
    s!"JsFunction '{type}' has to be a " ++
      "functional interface."
| .functionExtends type =>
    s!"JsFunction '{type}' cannot extend " ++
      "other interfaces."
| .functionStaticCode type =>
    s!"JsFunction '{type}' cannot have " ++
      "static initializer."
| .functionAndJsType type =>
    s!"'{type}' cannot be both a JsFunction and " ++
      "a JsType at the same time."
| .extendsFunction type function =>
    s!"'{type}' cannot extend " ++
      s!"JsFunction '{function}'."
| .implInterfaces type =>
    s!"JsFunction implementation '{type}' cannot " ++
      "implement more than one interface."
| .implSuperclass type =>
    s!"JsFunction implementation '{type}' cannot " ++
      "extend a class."
| .implAndJsType type =>
    s!"'{type}' cannot be both a JsFunction " ++
      "implementation and a JsType at the same time."
| .extendsImpl type impl =>
    s!"'{type}' cannot extend " ++
      s!"JsFunction implementation '{impl}'."
| .nativeHidden member =>
    s!"Native JsType member '{member}' is not " ++
      "public or has @JsIgnore."
| .enumAsNative type =>
    s!"Enum '{type}' cannot be a native JsType."
| .nativeStaticCode type =>
    s!"Native JsType '{type}' cannot have " ++
      "static initializer."
| .nativeConstructorCode member =>
    s!"Native JsType constructor '{member}' " ++
      "cannot have non-empty method body."
| .nativeInterfaceTest type =>
    "Cannot do instanceof against native JsType " ++
      s!"interface '{type}'."
| .overlayOutsideNative member =>
    s!"Method '{member}' in non-native type " ++
      "cannot be @JsOverlay."
| .overlayOverriding member =>
    s!"JsOverlay method '{member}' cannot " ++
      "override a supertype method."
| .overlayOpen member =>
    s!"JsOverlay method '{member}' cannot be " ++
      "non-final, static, nor native."
| .unusableResult member =>
    s!"[unusable-by-js] Return type of {member} " ++
      "is not usable by but exposed to JavaScript."
| .unusableParam param member =>
    "[unusable-by-js] Type of parameter " ++
      s!"'{param}' in method {member} " ++
      "is not usable by but exposed to JavaScript."
| .unusableField field type =>
    "[unusable-by-js] Type of field " ++
      s!"'{field}' in type '{type}' " ++
      "is not usable by but exposed to JavaScript."

end Breach

end JsExport
