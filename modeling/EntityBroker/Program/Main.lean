import EntityBroker.Program.Libraries
import EntityBroker.Program.Printer
import EntityBroker.Program.Trace.Line

/-!
# The program

The command line against the real environment and file system. The one path that a run looks up is
looked up before it; all else is `EntityBroker.CommandLine.run`.
-/

namespace EntityBroker.CommandLine

/-- What a path of the file system leads to. -/
def findFile (path : String) : IO Found := do
  try
    let canonical ← IO.FS.realPath path
    if ← canonical.isDir then return .directory
    let content ← IO.FS.readBinFile canonical
    return .file content.toList ((canonical.parent.map fun dir => dir.toString).getD "")
  catch _ => return .missing

def readEnvironment : IO Environment := do
  return ⟨← IO.getEnv Config.pathVariable, ← IO.getEnv thresholdVariable, ← IO.getEnv "RUST_LOG"⟩

def readTerminals : IO Terminals := do
  return ⟨← (← IO.getStdout).isTty, ← (← IO.getStderr).isTty⟩

def helpText : List String :=
  ["Query asset managers through the batch entity protocol",
    "",
    "Usage: assetio <COMMAND>",
    "",
    "Commands:",
    "  managers  List registered manager implementations",
    "  config    Parse a default-manager TOML config and print it",
    "  resolve   Resolve traits for entity references",
    "  help      Print this message or the help of the given subcommand(s)"]

def write (terminals : Terminals) (report : RunReport) : IO Unit := do
  for event in report.trace do IO.eprintln event.line
  for text in report.output Json.printer terminals do IO.println text
  for text in report.errors Json.printer terminals do IO.eprintln text
  match report.prose with
  | none => return
  | some .version => IO.println version
  | some .brokenOff => IO.eprintln "a part of the trace filter begins or ends inside a character"
  | some .help =>
    for line in helpText do
      if report.exitCode = 0 then IO.println line else IO.eprintln line

end EntityBroker.CommandLine

open EntityBroker.CommandLine in
def main (arguments : List String) : IO UInt32 := do
  let environment ← readEnvironment
  let found ← match pathOf libraries.arguments arguments environment with
    | some path => findFile path
    | none => pure .missing
  let report := run libraries arguments environment fun _ => found
  write (← readTerminals) report
  return UInt32.ofNat report.exitCode
