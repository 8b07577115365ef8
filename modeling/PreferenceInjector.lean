import PreferenceInjector.Derive.Expansion
import PreferenceInjector.Main
import PreferenceInjector.Proofs.Declaration.Layout
import PreferenceInjector.Proofs.Declaration.Scanning
import PreferenceInjector.Proofs.Declaration.Outcome
import PreferenceInjector.Proofs.Declaration.Soundness
import PreferenceInjector.Proofs.Declaration.Parentheses
import PreferenceInjector.Proofs.Declaration.Settling
import PreferenceInjector.Proofs.Declaration.Completeness.Type
import PreferenceInjector.Proofs.Declaration.Completeness.Field
import PreferenceInjector.Proofs.Declaration.Completeness.Document
import PreferenceInjector.Proofs.Declaration.FirstBadBlock
import PreferenceInjector.Proofs.Declaration.Furthest
import PreferenceInjector.Proofs.Declaration.Denotation
import PreferenceInjector.Proofs.Reported
import PreferenceInjector.Proofs.Declaration.Conversion
import PreferenceInjector.Proofs.Declaration.Parsing
import PreferenceInjector.Proofs.Declaration.TypeTexts
import PreferenceInjector.Proofs.Generation.Registration
import PreferenceInjector.Proofs.Generation.Wiring
import PreferenceInjector.Proofs.Generation.Pass
import PreferenceInjector.Proofs.Declaration.Uncommented
import PreferenceInjector.Proofs.Generation.Retyping
import PreferenceInjector.Proofs.Generation.Comments
import PreferenceInjector.Proofs.FileTree.Places
import PreferenceInjector.Proofs.Generation.Calls
import PreferenceInjector.Proofs.Generation.Reordering
import PreferenceInjector.Proofs.FileTree.Operations
import PreferenceInjector.Proofs.Output.LawfulDisk
import PreferenceInjector.Proofs.Output.Rollback
import PreferenceInjector.Proofs.Output.FirstFault
import PreferenceInjector.Proofs.FileTree.PathTexts
import PreferenceInjector.Proofs.Output.SourcePaths
import PreferenceInjector.Proofs.FileTree.Reading
import PreferenceInjector.Proofs.Output.Written
import PreferenceInjector.Proofs.FileTree.Listing
import PreferenceInjector.Proofs.Output.Repeating
import PreferenceInjector.Proofs.Output.UnitScope
import PreferenceInjector.Proofs.QualifiedNames
import PreferenceInjector.Proofs.Output.UnitNames
import PreferenceInjector.Proofs.Command.Planning
import PreferenceInjector.Proofs.Command.Foretelling
import PreferenceInjector.Proofs.Command.Rerunning
import PreferenceInjector.Proofs.Command.PlanTexts
import PreferenceInjector.Proofs.Derive.Expansion
import PreferenceInjector.Proofs.Derive.Mirrors
import PreferenceInjector.Proofs.Derive.Agreement
import PreferenceInjector.Proofs.Generation.Filling
import PreferenceInjector.Proofs.Generation.Phases
import PreferenceInjector.Proofs.Generation.FirstProblem
import PreferenceInjector.Proofs.Generation.Log
import PreferenceInjector.Proofs.Derive.Words
import PreferenceInjector.Proofs.Derive.Accessors
import PreferenceInjector.Proofs.Generation.SimpleNames
import PreferenceInjector.Proofs.Generation.TypeNames
import PreferenceInjector.Proofs.Generation.Components
import PreferenceInjector.Proofs.Output.UnitComment
import PreferenceInjector.Proofs.Output.UnitWiring
import PreferenceInjector.Proofs.FileTree.ScanOrder
import PreferenceInjector.Proofs.Generation.RefusedFiles
import PreferenceInjector.Proofs.Generation.Explanations
import PreferenceInjector.Proofs.Derive.LowLines
import PreferenceInjector.Proofs.Derive.Spelling
import PreferenceInjector.Proofs.Derive.Phrases
import PreferenceInjector.Proofs.Derive.WrittenTypes
import PreferenceInjector.Proofs.Derive.LastSegments
import PreferenceInjector.Proofs.Derive.ReadItems
import PreferenceInjector.Proofs.Derive.SupportedForm
import PreferenceInjector.Proofs.Derive.Deriving
import PreferenceInjector.Proofs.Derive.LegalNames
import PreferenceInjector.Proofs.TakenValues
import PreferenceInjector.Proofs.Settings.Entries
import PreferenceInjector.Proofs.Settings.Documents
import PreferenceInjector.Proofs.Settings.KnownKeys
import PreferenceInjector.Proofs.Settings.Layers
import PreferenceInjector.Proofs.Settings.Variables
import PreferenceInjector.Proofs.Settings.Loading
