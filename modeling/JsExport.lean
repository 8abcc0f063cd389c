import JsExport.Check
import JsExport.Decl.Member
import JsExport.Decl.Modifier
import JsExport.Decl.Type
import JsExport.Decl.TypeExpr
import JsExport.Export.Identity
import JsExport.Export.Signature
import JsExport.Export.Surface
import JsExport.Export.Table
import JsExport.Export.View
import JsExport.Listing.First
import JsExport.Listing.Stable
import JsExport.Program.Basic
import JsExport.Program.Defect
import JsExport.Program.Draft
import JsExport.Program.Hierarchy
import JsExport.Program.Inherits
import JsExport.Program.Validation
import JsExport.Program.Walk
import JsExport.Program.WellFormed
import JsExport.Report.Breach
import JsExport.Report.Diagnostic
import JsExport.Report.Finding
import JsExport.Report.Log
import JsExport.Report.Rule
import JsExport.Rules.AccessorShape
import JsExport.Rules.Contract
import JsExport.Rules.Delegation
import JsExport.Rules.FunctionType
import JsExport.Rules.GlobalName
import JsExport.Rules.NameClash
import JsExport.Rules.NativeType
import JsExport.Rules.Overlay
import JsExport.Rules.Property
import JsExport.Rules.Rename
import JsExport.Rules.TypeRole
import JsExport.Rules.Usability
import JsExport.Source.Span
import JsExport.Text.BeanName
import JsExport.Text.CodeRun
import JsExport.Text.Lowercase
import JsExport.Text.Uppercase
import JsExport.Proofs.Check.AccessorPairs
import JsExport.Proofs.Check.ClashCounts
import JsExport.Proofs.Check.ClashReports
import JsExport.Proofs.Check.Constructors
import JsExport.Proofs.Check.Extension
import JsExport.Proofs.Check.FunctionTypes
import JsExport.Proofs.Check.GlobalNames
import JsExport.Proofs.Check.Implementations
import JsExport.Proofs.Check.NamingReports
import JsExport.Proofs.Check.NativeClashes
import JsExport.Proofs.Check.Outcome
import JsExport.Proofs.Check.Overlays
import JsExport.Proofs.Check.PropertyTypes
import JsExport.Proofs.Check.Rearrangement
import JsExport.Proofs.Check.Region
import JsExport.Proofs.Check.Renames
import JsExport.Proofs.Check.RepeatedMembers
import JsExport.Proofs.Check.Severity
import JsExport.Proofs.Check.Success
import JsExport.Proofs.Check.Suppression
import JsExport.Proofs.Check.Unambiguous
import JsExport.Proofs.Check.UsabilityReports
import JsExport.Proofs.Check.Verdict
import JsExport.Proofs.Export.Agreement
import JsExport.Proofs.Export.FixedPoint
import JsExport.Proofs.Export.Inherited
import JsExport.Proofs.Export.Partition
import JsExport.Proofs.Export.Refusal
import JsExport.Proofs.Export.Representative
import JsExport.Proofs.Export.Slots
import JsExport.Proofs.Export.Surface
import JsExport.Proofs.Export.Table
import JsExport.Proofs.Extension.Contracts
import JsExport.Proofs.Extension.Names
import JsExport.Proofs.Extension.Program
import JsExport.Proofs.Extension.Properties
import JsExport.Proofs.Extension.Usability
import JsExport.Proofs.Extension.View
import JsExport.Proofs.Hierarchy.Acceptance
import JsExport.Proofs.Hierarchy.Ancestry
import JsExport.Proofs.Hierarchy.Breadth
import JsExport.Proofs.Hierarchy.Nearest
import JsExport.Proofs.Hierarchy.Order
import JsExport.Proofs.Hierarchy.Precedence
import JsExport.Proofs.Hierarchy.Superclasses
import JsExport.Proofs.Hierarchy.Toposort
import JsExport.Proofs.Hierarchy.Walk
import JsExport.Proofs.Listing.First
import JsExport.Proofs.Listing.Mapped
import JsExport.Proofs.Listing.Permuted
import JsExport.Proofs.Listing.Prefix
import JsExport.Proofs.Listing.Repeated
import JsExport.Proofs.Listing.Stable
import JsExport.Proofs.Lookup.Permuted
import JsExport.Proofs.Lookup.Traversal
import JsExport.Proofs.Program.Acceptance
import JsExport.Proofs.Program.Editing
import JsExport.Proofs.Program.Ownership
import JsExport.Proofs.Program.Sound
import JsExport.Proofs.Rearrangement.Contracts
import JsExport.Proofs.Rearrangement.Globals
import JsExport.Proofs.Rearrangement.Names
import JsExport.Proofs.Rearrangement.Program
import JsExport.Proofs.Rearrangement.Properties
import JsExport.Proofs.Rearrangement.Renumber
import JsExport.Proofs.Rearrangement.Usability
import JsExport.Proofs.Rearrangement.View
import JsExport.Proofs.Region.Basic
import JsExport.Proofs.Region.Contracts
import JsExport.Proofs.Region.Exports
import JsExport.Proofs.Report.Grouping
import JsExport.Proofs.Report.Log
import JsExport.Proofs.Rules.AccessorPairs
import JsExport.Proofs.Rules.AccessorShape
import JsExport.Proofs.Rules.Claimants
import JsExport.Proofs.Rules.Claims
import JsExport.Proofs.Rules.Delegation
import JsExport.Proofs.Rules.DelegationLoop
import JsExport.Proofs.Rules.FunctionType
import JsExport.Proofs.Rules.ImplementationSearch
import JsExport.Proofs.Rules.LikeAccessors
import JsExport.Proofs.Rules.NameClash
import JsExport.Proofs.Rules.Naming
import JsExport.Proofs.Rules.Property
import JsExport.Proofs.Rules.PropertyNames
import JsExport.Proofs.Rules.PropertyTypes
import JsExport.Proofs.Rules.Usability
import JsExport.Proofs.Suppression.Contracts
import JsExport.Proofs.Suppression.Declaration
import JsExport.Proofs.Suppression.Names
import JsExport.Proofs.Suppression.Program
import JsExport.Proofs.Suppression.Properties
import JsExport.Proofs.Suppression.Usability
import JsExport.Proofs.Suppression.View
import JsExport.Proofs.Text.BeanName
