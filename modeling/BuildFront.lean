import BuildFront.Application
import BuildFront.BuildPlan
import BuildFront.CommandLine.Argument
import BuildFront.CommandLine.Help
import BuildFront.CommandLine.Reading
import BuildFront.CommandLine.Request
import BuildFront.Config
import BuildFront.Config.Files
import BuildFront.Diagnostic
import BuildFront.Digest
import BuildFront.Engine
import BuildFront.Event
import BuildFront.Fault
import BuildFront.Host
import BuildFront.IdList
import BuildFront.Invocation
import BuildFront.Json
import BuildFront.Launch
import BuildFront.Machine
import BuildFront.Machine.FileTree
import BuildFront.Machine.SearchPath
import BuildFront.Machine.State
import BuildFront.Main
import BuildFront.NameMap
import BuildFront.OptionSpec
import BuildFront.Path
import BuildFront.PlanWriter
import BuildFront.RawInput
import BuildFront.Registry
import BuildFront.Rejection
import BuildFront.Resolver
import BuildFront.Roster
import BuildFront.SearchPath
import BuildFront.Sink
import BuildFront.Surroundings.CharSet
import BuildFront.Surroundings.Execution
import BuildFront.Surroundings.Image
import BuildFront.Surroundings.Octets
import BuildFront.Surroundings.Pattern
import BuildFront.Surroundings.Shell.Arithmetic
import BuildFront.Surroundings.Shell.Builtin
import BuildFront.Surroundings.Shell.Evaluation
import BuildFront.Surroundings.Shell.Expansion
import BuildFront.Surroundings.Shell.Glob
import BuildFront.Surroundings.Shell.Grammar
import BuildFront.Surroundings.Shell.Launching
import BuildFront.Surroundings.Shell.Reader
import BuildFront.Surroundings.Shell.Session
import BuildFront.Surroundings.Shell.Signal
import BuildFront.Surroundings.Shell.Startup
import BuildFront.Surroundings.Shell.Streams
import BuildFront.Surroundings.Shell.Syntax
import BuildFront.Surroundings.Shell.Trap
import BuildFront.Surroundings.Shell.Words
import BuildFront.Surroundings.Tool
import BuildFront.Surroundings.Tool.Call
import BuildFront.Surroundings.Tool.Condition
import BuildFront.Surroundings.Tool.Dump
import BuildFront.Surroundings.Tool.Edit
import BuildFront.Surroundings.Tool.Files
import BuildFront.Surroundings.Tool.Lines
import BuildFront.Surroundings.Tool.Options
import BuildFront.Surroundings.Tool.Program
import BuildFront.Surroundings.Tool.Search
import BuildFront.Surroundings.Tool.Starter
import BuildFront.Surroundings.Tool.Table
import BuildFront.Surroundings.Tool.Values
import BuildFront.Surroundings.Tool.Wording
import BuildFront.Text.Blank
import BuildFront.Text.Hex
import BuildFront.Text.Utf8
import BuildFront.Toml.DateTime
import BuildFront.Toml.Document
import BuildFront.Toml.Layout
import BuildFront.Toml.Number
import BuildFront.Toml.Reader
import BuildFront.Toml.Section
import BuildFront.Toml.Text
import BuildFront.Toml.Value
import BuildFront.Proofs.IdList.Reading
import BuildFront.Proofs.NameMap.Layers
import BuildFront.Proofs.Resolver.Meaning
import BuildFront.Proofs.Resolver.Order
import BuildFront.Proofs.Config.Precedence
import BuildFront.Proofs.Text.Utf8
import BuildFront.Proofs.Resolver.Composition
import BuildFront.Proofs.Resolver.FailFast
import BuildFront.Proofs.Path.NormalForm
import BuildFront.Proofs.Path.Folding
import BuildFront.Proofs.Path.Canonical
import BuildFront.Proofs.Path.Leading
import BuildFront.Proofs.Text.Legible
import BuildFront.Proofs.Path.Legible
import BuildFront.Proofs.Resolver.Legible
import BuildFront.Proofs.Resolver.PathOptions
import BuildFront.Proofs.Resolver.Standard
import BuildFront.Proofs.Json.Unambiguous
import BuildFront.Proofs.Json.Squeeze
import BuildFront.Proofs.BuildPlan.JsonForm
import BuildFront.Proofs.BuildPlan.RawInput
import BuildFront.Proofs.BuildPlan.Identity
import BuildFront.Proofs.IdList.Display
import BuildFront.Proofs.Resolver.FixedPoint
import BuildFront.Proofs.Json.Grammar
import BuildFront.Proofs.Engine.Command
import BuildFront.Proofs.Resolver.Registries
import BuildFront.Proofs.CommandLine.Options
import BuildFront.Proofs.Application.Stages
import BuildFront.Proofs.Application.Outcome
import BuildFront.Proofs.Application.Directories
import BuildFront.Proofs.IdList.Segments
import BuildFront.Proofs.IdList.Concatenation
import BuildFront.Proofs.Path.Composition
import BuildFront.Proofs.IdList.Firsts
import BuildFront.Proofs.Text.Stripped
import BuildFront.Proofs.IdList.Encodings
import BuildFront.Proofs.Resolver.ListOptions
import BuildFront.Proofs.Resolver.Matrix
import BuildFront.Proofs.Roster.Histories
import BuildFront.Proofs.Config.Layering
import BuildFront.Proofs.Resolver.Independence
import BuildFront.Proofs.Config.Shapes
import BuildFront.Proofs.Machine.Links
import BuildFront.Proofs.Config.Loading
import BuildFront.Proofs.Resolver.Trace
import BuildFront.Proofs.Launch.Supervision
import BuildFront.Proofs.Engine.Verdict
import BuildFront.Proofs.SearchPath.Joining
import BuildFront.Proofs.Engine.ModulePath
import BuildFront.Proofs.Path.Parts
import BuildFront.Proofs.Machine.Searching
import BuildFront.Proofs.Engine.Location
import BuildFront.Proofs.PlanWriter.Writing
import BuildFront.Proofs.Text.Colour
import BuildFront.Proofs.Text.Lines
import BuildFront.Proofs.PlanWriter.Calls
import BuildFront.Proofs.Diagnostic.Layout
import BuildFront.Proofs.Diagnostic.Rendering
