import BuildFront.CommandLine.Argument
import BuildFront.Config.Files
import BuildFront.Launch
import BuildFront.Sink

/-!
What a run asks of its surroundings. Everything else about a run is computed.
-/

namespace BuildFront

structure Host where
  /-- The working directory; it may have been removed, or be out of reach. -/
  cwd : Except OsError Path
  /-- The user's own directory, if it is known. -/
  home : Option Path
  env : NameMap String
  files : FileAccess
  /-- Whether a path leads to a directory, links followed. -/
  isDirectory : Path → Bool
  /-- Where a program of a name is found. -/
  search : String → Option Path
  launch : Invocation → Launch
  /-- Standard output as the run finds it. -/
  output : Sink
  /-- A shell's script for completing arguments. -/
  completions : String → List CommandLine.Argument → Bytes

end BuildFront
