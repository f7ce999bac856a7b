import ParamLens.Analysis.Analyzer
import ParamLens.Analysis.Inheritance
import ParamLens.Analysis.Order
import ParamLens.Analysis.Reference
import ParamLens.Check.Default
import ParamLens.Check.Depends
import ParamLens.Check.Diagnostic
import ParamLens.Check.Expectation
import ParamLens.Check.File
import ParamLens.Check.Known
import ParamLens.Check.Range
import ParamLens.Check.Value
import ParamLens.Command.Display
import ParamLens.Command.Files
import ParamLens.Command.Form
import ParamLens.Command.Request
import ParamLens.Command.Run
import ParamLens.Editor.Address
import ParamLens.Editor.Completion
import ParamLens.Editor.Description
import ParamLens.Editor.Edit
import ParamLens.Editor.Enclosure
import ParamLens.Editor.Hover
import ParamLens.Editor.Item
import ParamLens.Editor.Phrase
import ParamLens.Editor.Scan
import ParamLens.Editor.Server
import ParamLens.Editor.Vocabulary
import ParamLens.Imports.Binding
import ParamLens.Imports.Module
import ParamLens.Installation.Basic
import ParamLens.Json.Basic
import ParamLens.Json.Reading
import ParamLens.Library.Ancestry
import ParamLens.Library.Detection
import ParamLens.Library.Graph
import ParamLens.Library.Interpreter
import ParamLens.Library.Matching
import ParamLens.Library.Module
import ParamLens.Library.Order
import ParamLens.Library.Record
import ParamLens.Library.Reexport
import ParamLens.Library.Requirement
import ParamLens.Library.Search
import ParamLens.Library.Session
import ParamLens.Library.Store
import ParamLens.Library.Survey
import ParamLens.Library.Version
import ParamLens.Log.Calendar
import ParamLens.Log.Record
import ParamLens.Log.Template
import ParamLens.Main
import ParamLens.Number.Basic
import ParamLens.Number.Binary64
import ParamLens.Number.Reading
import ParamLens.Number.Shortest
import ParamLens.Parameter.Basic
import ParamLens.Parameter.Declaration
import ParamLens.Parameter.Recognition
import ParamLens.Parameter.Source
import ParamLens.Syntax.Backwards
import ParamLens.Syntax.Call
import ParamLens.Syntax.Finder
import ParamLens.Syntax.Kind
import ParamLens.Syntax.Literal
import ParamLens.Syntax.Match
import ParamLens.Syntax.Name
import ParamLens.Syntax.Node
import ParamLens.Syntax.Outline
import ParamLens.Syntax.OutlineReading
import ParamLens.Syntax.Query
import ParamLens.Syntax.Sketch
import ParamLens.Syntax.Statement
import ParamLens.Table
import ParamLens.Text.Basic
import ParamLens.Text.Blank
import ParamLens.Text.Dedent
import ParamLens.Text.Dotted
import ParamLens.Text.Encoded
import ParamLens.Text.Letter
import ParamLens.Text.Lowercase
import ParamLens.Text.Numeral
import ParamLens.Text.Printable
import ParamLens.Text.Quoted
import ParamLens.World.Basic
import ParamLens.World.FileSystem
import ParamLens.World.Path
import ParamLens.Proofs.Splicing
import ParamLens.Proofs.Documents
import ParamLens.Proofs.Histories
import ParamLens.Proofs.Completions
import ParamLens.Proofs.Records
import ParamLens.Proofs.Stores
import ParamLens.Proofs.Entering
import ParamLens.Proofs.Ancestors
import ParamLens.Proofs.Flattening
import ParamLens.Proofs.Marking
import ParamLens.Proofs.ModuleMemory
import ParamLens.Proofs.Ordering
import ParamLens.Proofs.Countdown
import ParamLens.Proofs.Populating
import ParamLens.Proofs.SurveyRecords
import ParamLens.Proofs.KnownTypes
import ParamLens.Proofs.Inheriting
import ParamLens.Proofs.Isolation
import ParamLens.Proofs.Searches
import ParamLens.Proofs.AllowedLibraries
import ParamLens.Proofs.ClassLoop
import ParamLens.Proofs.Positions
import ParamLens.Proofs.Representation
import ParamLens.Proofs.Agreement
import ParamLens.Proofs.SingleFile
import ParamLens.Proofs.Magnitudes
import ParamLens.Proofs.Reporting
import ParamLens.Proofs.Verdicts
import ParamLens.Proofs.DefaultBounds
import ParamLens.Proofs.Attribution
import ParamLens.Proofs.References
import ParamLens.Proofs.AliasChains
import ParamLens.Proofs.Reexports
import ParamLens.Proofs.RelativeImports
import ParamLens.Proofs.Dependencies
import ParamLens.Proofs.InheritedNames
import ParamLens.Proofs.Phrases
import ParamLens.Proofs.Arguments
import ParamLens.Proofs.Quotations
import ParamLens.Proofs.Decorators
import ParamLens.Proofs.Preorder
import ParamLens.Proofs.InsertedDefaults
import ParamLens.Proofs.TupleLengths
import ParamLens.Proofs.Naming
import ParamLens.Proofs.DependencyOrder
import ParamLens.Proofs.DefinitionTexts
