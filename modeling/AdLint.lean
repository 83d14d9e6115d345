import AdLint.Analysis
import AdLint.Baseline
import AdLint.Check.FileNaming
import AdLint.Check.JobService
import AdLint.Check.ManifestProcess
import AdLint.Check.RestrictedApi
import AdLint.CommandLine.Basic
import AdLint.CommandLine.Reader
import AdLint.Declaration
import AdLint.Discovery
import AdLint.Document
import AdLint.Expr
import AdLint.FileKind
import AdLint.FileTree
import AdLint.Finding
import AdLint.Glob.Basic
import AdLint.Glob.Reader
import AdLint.Ignore
import AdLint.Java.Grammar.Basic
import AdLint.Java.Grammar.Declaration
import AdLint.Java.Grammar.Expression
import AdLint.Java.Grammar.Statement
import AdLint.Java.Kind
import AdLint.Java.Lexicon
import AdLint.Java.Meaning
import AdLint.Java.Outline
import AdLint.Json.Basic
import AdLint.Json.Fault
import AdLint.Json.Reader
import AdLint.Json.Shape
import AdLint.Kotlin.Grammar.Basic
import AdLint.Kotlin.Grammar.Declaration
import AdLint.Kotlin.Grammar.Expression
import AdLint.Kotlin.Kind
import AdLint.Kotlin.Lexicon
import AdLint.Kotlin.Meaning
import AdLint.Kotlin.Outline
import AdLint.Location
import AdLint.Main
import AdLint.Manifest.Markup
import AdLint.Manifest.Outline
import AdLint.Output
import AdLint.Path
import AdLint.Pattern.Basic
import AdLint.Pattern.Reader
import AdLint.Program
import AdLint.Project.Basic
import AdLint.Project.Constant
import AdLint.Project.Hierarchy
import AdLint.Project.Names
import AdLint.Proofs.Assembly
import AdLint.Proofs.CaselessStart
import AdLint.Proofs.ComponentPackages
import AdLint.Proofs.Components
import AdLint.Proofs.ConstantFields
import AdLint.Proofs.Covering
import AdLint.Proofs.DatabaseInspection
import AdLint.Proofs.DeclarationIndex
import AdLint.Proofs.DecodedReports
import AdLint.Proofs.Derivations
import AdLint.Proofs.Deviation
import AdLint.Proofs.DiscoveredFiles
import AdLint.Proofs.DistinctFindings
import AdLint.Proofs.EnclosingChain
import AdLint.Proofs.Evaluation
import AdLint.Proofs.ExactNames
import AdLint.Proofs.FieldOwners
import AdLint.Proofs.FileChange
import AdLint.Proofs.FileNames
import AdLint.Proofs.FileShape
import AdLint.Proofs.FindingCounts
import AdLint.Proofs.FindingPlaces
import AdLint.Proofs.Folding
import AdLint.Proofs.Footprint
import AdLint.Proofs.FormedReaders
import AdLint.Proofs.GroupedDigits
import AdLint.Proofs.ImportedNames
import AdLint.Proofs.IntegerLiterals
import AdLint.Proofs.IntegerRange
import AdLint.Proofs.JavaCalls
import AdLint.Proofs.JavaMarks
import AdLint.Proofs.JavaNesting
import AdLint.Proofs.JavaShape
import AdLint.Proofs.JavaTerms
import AdLint.Proofs.JavaTree
import AdLint.Proofs.JavaVisit
import AdLint.Proofs.JsonRoundTrip
import AdLint.Proofs.KnownStart
import AdLint.Proofs.KotlinCalls
import AdLint.Proofs.KotlinMarks
import AdLint.Proofs.KotlinNesting
import AdLint.Proofs.KotlinShape
import AdLint.Proofs.KotlinTree
import AdLint.Proofs.KotlinVisit
import AdLint.Proofs.Lineage
import AdLint.Proofs.ManifestElements
import AdLint.Proofs.Marks
import AdLint.Proofs.MigrationChain
import AdLint.Proofs.NameGraph
import AdLint.Proofs.Nesting
import AdLint.Proofs.Occurrences
import AdLint.Proofs.Order
import AdLint.Proofs.OrderlyReaders
import AdLint.Proofs.Outcome
import AdLint.Proofs.Pipeline
import AdLint.Proofs.Placement
import AdLint.Proofs.Places
import AdLint.Proofs.Portability
import AdLint.Proofs.Prelude
import AdLint.Proofs.PrintedDocument
import AdLint.Proofs.QualifiedNames
import AdLint.Proofs.QuotedTexts
import AdLint.Proofs.Reach
import AdLint.Proofs.Reannotation
import AdLint.Proofs.Rearrangement
import AdLint.Proofs.Record
import AdLint.Proofs.RegisteredDatabases
import AdLint.Proofs.RepeatedRun
import AdLint.Proofs.ReportLayout
import AdLint.Proofs.RoomScan
import AdLint.Proofs.SavedBaseline
import AdLint.Proofs.Selection
import AdLint.Proofs.SourceOrder
import AdLint.Proofs.Subtypes
import AdLint.Proofs.Suppression
import AdLint.Proofs.TagPlaces
import AdLint.Proofs.Tasks
import AdLint.Proofs.TextSumReading
import AdLint.Proofs.TextSums
import AdLint.Proofs.Tightening
import AdLint.Proofs.UnknownWords
import AdLint.Proofs.UnqualifiedCalls
import AdLint.Report
import AdLint.Report.Compact
import AdLint.Report.Data
import AdLint.Report.Grouped
import AdLint.Report.Options
import AdLint.Report.Palette
import AdLint.Report.Share
import AdLint.Report.Statistics
import AdLint.Report.Styled
import AdLint.Report.Summary
import AdLint.Report.Terminal
import AdLint.Room.Database
import AdLint.Room.MigrationPath
import AdLint.Room.Registration
import AdLint.Room.Scan
import AdLint.Rule
import AdLint.Run
import AdLint.Settings.Basic
import AdLint.Settings.File
import AdLint.Settings.Reader
import AdLint.Source.Chain
import AdLint.Source.Harvest
import AdLint.Source.Literal
import AdLint.Source.Place
import AdLint.Source.Reader
import AdLint.Source.Token
import AdLint.Source.Tree
import AdLint.Sources
import AdLint.Text.Blank
import AdLint.Text.LetterCase
import AdLint.Text.WordClass
import AdLint.Toml.Reader
import AdLint.Toml.Scalar
import AdLint.Toml.Table
import AdLint.Toml.Text
import AdLint.TypeName
import AdLint.Yaml.Cursor
import AdLint.Yaml.Reader
import AdLint.Yaml.Scalar
import AdLint.Yaml.Token
