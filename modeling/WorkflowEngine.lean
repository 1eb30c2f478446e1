import WorkflowEngine.Binding.Conformance
import WorkflowEngine.Binding.Inputs
import WorkflowEngine.Binding.Locations
import WorkflowEngine.CommandLine.Assembly
import WorkflowEngine.CommandLine.Quoting
import WorkflowEngine.Configuration.Basic
import WorkflowEngine.Configuration.Reading
import WorkflowEngine.Configuration.Toml
import WorkflowEngine.Decimal.Layout
import WorkflowEngine.Decimal.Nearest
import WorkflowEngine.Decimal.Shortest
import WorkflowEngine.Document.Basic
import WorkflowEngine.Document.Binding
import WorkflowEngine.Document.DataType
import WorkflowEngine.Document.Entries
import WorkflowEngine.Document.Ident
import WorkflowEngine.Document.Parameters
import WorkflowEngine.Document.Process
import WorkflowEngine.Document.Requirement
import WorkflowEngine.Duration
import WorkflowEngine.Engine
import WorkflowEngine.Expression
import WorkflowEngine.Failure
import WorkflowEngine.Files.Access
import WorkflowEngine.Files.Glob
import WorkflowEngine.Files.TaskDirectory
import WorkflowEngine.Files.Tree
import WorkflowEngine.Json.Basic
import WorkflowEngine.Json.Parser
import WorkflowEngine.Json.Printer
import WorkflowEngine.Log
import WorkflowEngine.Main
import WorkflowEngine.OrderedMap
import WorkflowEngine.Outputs.Collection
import WorkflowEngine.Path.DirectoryName
import WorkflowEngine.Path.FileUrl
import WorkflowEngine.Path.Lexical
import WorkflowEngine.Path.SecondaryName
import WorkflowEngine.Placeholder.Scan
import WorkflowEngine.Program.Execution
import WorkflowEngine.Program.Invocation
import WorkflowEngine.Scheduling.Graph
import WorkflowEngine.Scheduling.Machine
import WorkflowEngine.Scheduling.Scatter
import WorkflowEngine.Scheduling.Sources
import WorkflowEngine.Scheduling.Task
import WorkflowEngine.Script.Convert
import WorkflowEngine.Script.Evaluation
import WorkflowEngine.Script.Exchange
import WorkflowEngine.Script.Grammar
import WorkflowEngine.Script.Interpreter
import WorkflowEngine.Script.Lexeme
import WorkflowEngine.Script.Library.Arrays
import WorkflowEngine.Script.Library.Core
import WorkflowEngine.Script.Library.JsonText
import WorkflowEngine.Script.Library.Strings
import WorkflowEngine.Script.Machine
import WorkflowEngine.Script.Member
import WorkflowEngine.Script.Number
import WorkflowEngine.Script.Term
import WorkflowEngine.Script.Units
import WorkflowEngine.Shell.Expansion
import WorkflowEngine.Shell.Grammar
import WorkflowEngine.Shell.Interpreter
import WorkflowEngine.Shell.Lexeme
import WorkflowEngine.Shell.Session
import WorkflowEngine.Shell.Utilities
import WorkflowEngine.Text.Blank
import WorkflowEngine.Text.Case
import WorkflowEngine.Text.Quoted
import WorkflowEngine.Text.Utf8
import WorkflowEngine.Tool.Execution
import WorkflowEngine.Tool.LocalExecutor
import WorkflowEngine.Tool.Polling
import WorkflowEngine.Tool.Prepared
import WorkflowEngine.Tool.ProcessTable
import WorkflowEngine.Tool.Request
import WorkflowEngine.Tool.Staging
import WorkflowEngine.Value.Basic
import WorkflowEngine.Value.File
import WorkflowEngine.Proofs.Maps
import WorkflowEngine.Proofs.Tasks
import WorkflowEngine.Proofs.Changes
import WorkflowEngine.Proofs.Validation
import WorkflowEngine.Proofs.Trees
import WorkflowEngine.Proofs.Addresses
import WorkflowEngine.Proofs.Completion
import WorkflowEngine.Proofs.Progress
import WorkflowEngine.Proofs.Precedence
import WorkflowEngine.Proofs.Supplies
import WorkflowEngine.Proofs.Likeness
import WorkflowEngine.Proofs.Plans
import WorkflowEngine.Proofs.Independence
import WorkflowEngine.Proofs.Outcomes
import WorkflowEngine.Proofs.Placeholders
import WorkflowEngine.Proofs.CommandLines
import WorkflowEngine.Proofs.Expansion
import WorkflowEngine.Proofs.Failures
import WorkflowEngine.Proofs.Causes
import WorkflowEngine.Proofs.Blame
import WorkflowEngine.Proofs.DirectoryNames
import WorkflowEngine.Proofs.Separation
import WorkflowEngine.Proofs.Acyclicity
import WorkflowEngine.Proofs.LocalNames
import WorkflowEngine.Proofs.Acceptance
import WorkflowEngine.Proofs.Lineage
import WorkflowEngine.Proofs.Publication
import WorkflowEngine.Proofs.SourceValues
import WorkflowEngine.Proofs.Requirements
import WorkflowEngine.Proofs.DeclaredOutputs
import WorkflowEngine.Proofs.Conformance
import WorkflowEngine.Proofs.OutputTypes
import WorkflowEngine.Proofs.Callers
import WorkflowEngine.Proofs.Abandonment
import WorkflowEngine.Proofs.Scanning
import WorkflowEngine.Proofs.LargeIntegers
import WorkflowEngine.Proofs.FileValues
import WorkflowEngine.Proofs.RoundTrips
import WorkflowEngine.Proofs.Paths
import WorkflowEngine.Proofs.FileNames
import WorkflowEngine.Proofs.ObtainedValues
import WorkflowEngine.Proofs.ScatteredRuns
import WorkflowEngine.Proofs.FreshFailures
import WorkflowEngine.Proofs.Gathering
import WorkflowEngine.Proofs.AbsolutePaths
import WorkflowEngine.Proofs.Normalization
import WorkflowEngine.Proofs.CollectedFiles
import WorkflowEngine.Proofs.Combinations
import WorkflowEngine.Proofs.Spellings
import WorkflowEngine.Proofs.SpelledSections
import WorkflowEngine.Proofs.EquivalentDocuments
import WorkflowEngine.Proofs.DataRoots
import WorkflowEngine.Proofs.Brackets
import WorkflowEngine.Proofs.HeldProcesses
import WorkflowEngine.Proofs.BoundInputs
import WorkflowEngine.Proofs.CommandOrder
import WorkflowEngine.Proofs.Renderings
import WorkflowEngine.Proofs.Timeouts
import WorkflowEngine.Proofs.OrdinaryNames
import WorkflowEngine.Proofs.OptionalTypes
import WorkflowEngine.Proofs.TypeNames
import WorkflowEngine.Proofs.SecondaryNames
import WorkflowEngine.Proofs.Walks
import WorkflowEngine.Proofs.PlainPatterns
import WorkflowEngine.Proofs.CapturedStreams
import WorkflowEngine.Proofs.CutTexts
import WorkflowEngine.Proofs.StagedFiles
import WorkflowEngine.Proofs.StepValues
import WorkflowEngine.Proofs.StoppedTools
import WorkflowEngine.Proofs.ReportedEnds
