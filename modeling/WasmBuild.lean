import WasmBuild.Build.Compiler
import WasmBuild.Build.Event
import WasmBuild.Build.Plan
import WasmBuild.Build.Run
import WasmBuild.Build.Session
import WasmBuild.Build.StandIn
import WasmBuild.CommandLine.Basic
import WasmBuild.CommandLine.Help
import WasmBuild.CommandLine.Parser
import WasmBuild.Decimal
import WasmBuild.Environment
import WasmBuild.Failure
import WasmBuild.FileTree.Basic
import WasmBuild.FileTree.Error
import WasmBuild.FileTree.Locate
import WasmBuild.FileTree.Walk
import WasmBuild.FileTree.Write
import WasmBuild.Json.Record
import WasmBuild.Main
import WasmBuild.Manifest.Basic
import WasmBuild.Manifest.Excerpt
import WasmBuild.Manifest.Load
import WasmBuild.Manifest.Shape
import WasmBuild.Path
import WasmBuild.Program.Action
import WasmBuild.Program.Building
import WasmBuild.Program.Listing
import WasmBuild.Program.Run
import WasmBuild.Project
import WasmBuild.Proofs.Build.Artifacts
import WasmBuild.Proofs.Build.Collisions
import WasmBuild.Proofs.Build.Compilation
import WasmBuild.Proofs.Build.Detail
import WasmBuild.Proofs.Build.Ending
import WasmBuild.Proofs.Build.LazyWalk
import WasmBuild.Proofs.Build.OutputDirectory
import WasmBuild.Proofs.Build.Plans
import WasmBuild.Proofs.Build.Rebuild
import WasmBuild.Proofs.Build.Sessions
import WasmBuild.Proofs.Build.Trace
import WasmBuild.Proofs.CommandLine.Cuts
import WasmBuild.Proofs.CommandLine.JsonFlag
import WasmBuild.Proofs.CommandLine.RoundTrip
import WasmBuild.Proofs.CommandLine.Sayings
import WasmBuild.Proofs.FileTree.Ancestors
import WasmBuild.Proofs.FileTree.Directories
import WasmBuild.Proofs.FileTree.Following
import WasmBuild.Proofs.FileTree.Places
import WasmBuild.Proofs.FileTree.Reach
import WasmBuild.Proofs.FileTree.Texts
import WasmBuild.Proofs.FileTree.UnitPaths
import WasmBuild.Proofs.FileTree.Writing
import WasmBuild.Proofs.Json.Reading
import WasmBuild.Proofs.Manifest.Corrections
import WasmBuild.Proofs.Manifest.Entries
import WasmBuild.Proofs.Manifest.OutputDirs
import WasmBuild.Proofs.Manifest.Paths
import WasmBuild.Proofs.Manifest.Relocation
import WasmBuild.Proofs.Manifest.Resolution
import WasmBuild.Proofs.Manifest.SameSettings
import WasmBuild.Proofs.Manifest.Settings
import WasmBuild.Proofs.Manifest.UnknownKeys
import WasmBuild.Proofs.Manifest.WarningLines
import WasmBuild.Proofs.Manifest.Warnings
import WasmBuild.Proofs.Path.Joining
import WasmBuild.Proofs.Path.Parents
import WasmBuild.Proofs.Path.Splitting
import WasmBuild.Proofs.Path.Text
import WasmBuild.Proofs.Program.Actions
import WasmBuild.Proofs.Program.Blocks
import WasmBuild.Proofs.Program.LevelInForce
import WasmBuild.Proofs.Program.Listings
import WasmBuild.Proofs.Program.Looking
import WasmBuild.Proofs.Program.Preconditions
import WasmBuild.Proofs.Program.Presentation
import WasmBuild.Proofs.Program.Sequence
import WasmBuild.Proofs.Program.SourceNames
import WasmBuild.Proofs.Program.Stream
import WasmBuild.Proofs.Program.WrittenEvents
import WasmBuild.Proofs.Report.Complaints
import WasmBuild.Proofs.Report.EventLine
import WasmBuild.Proofs.Report.Levels
import WasmBuild.Proofs.Suggestion.Choosing
import WasmBuild.Proofs.Suggestion.Closest
import WasmBuild.Proofs.Suggestion.EditDistance
import WasmBuild.Proofs.Suggestion.InPlace
import WasmBuild.Proofs.Suggestion.LeastEdits
import WasmBuild.Proofs.Text.Lines
import WasmBuild.Proofs.Toml.Ends
import WasmBuild.Proofs.Toml.Keyed
import WasmBuild.Proofs.Toml.SameValue
import WasmBuild.Proofs.Toml.Standing
import WasmBuild.Proofs.Verbosity.Offers
import WasmBuild.Report.Complaint
import WasmBuild.Report.Console
import WasmBuild.Report.Event
import WasmBuild.Suggestion
import WasmBuild.Text.Basic
import WasmBuild.Text.Quoted
import WasmBuild.Text.Utf8
import WasmBuild.Toml.DateTime
import WasmBuild.Toml.Document
import WasmBuild.Toml.Growth
import WasmBuild.Toml.Lexeme
import WasmBuild.Toml.Node
import WasmBuild.Toml.Number
import WasmBuild.Toml.Quoted
import WasmBuild.Toml.Value
import WasmBuild.Toolchain
import WasmBuild.Verbosity
