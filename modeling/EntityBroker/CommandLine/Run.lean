import EntityBroker.CommandLine.Command
import EntityBroker.Registry
import EntityBroker.Trace

/-!
# Running a command

What a run of the program writes and ends with, as a function of its arguments, its environment and
what paths lead to. Results go to the output as JSON documents; an error goes to the error output,
and its kind decides the exit code. What other libraries do is taken as given (`Libraries`,
`Json.Printer`). Programs read documents line by line, people do not: to a terminal documents are
written over several lines, and errors are no documents at all.
-/

namespace EntityBroker.CommandLine

structure Environment where
  /-- The path of the default configuration. -/
  defaultConfig : Option String
  /-- The threshold of the log. -/
  threshold : Option String
  /-- The filter of the trace. -/
  traceFilter : Option String

/-- What becomes of the text of a trace filter. -/
inductive FilterReading where
  /-- It decides which events are shown. -/
  | filter (shows : TraceEvent → Bool)
  | invalid
  /-- It breaks off the run. -/
  | brokenOff

/-- What a run relies on to read arguments, trace filters and settings files. -/
structure Libraries where
  arguments : ArgumentReader
  filter : String → FilterReading
  settings : Config.Reader

/-- Which of the two outputs go to a terminal. -/
structure Terminals where
  output : Bool
  errors : Bool

/-- What a run prints for people. -/
inductive Prose where
  | help
  | version
  /-- Why the run broke off. -/
  | brokenOff
  deriving DecidableEq

/-- What a run leaves: its exit code, the documents for its output, the error that it ended with,
the events of its trace that are shown, and the prose that it printed. -/
structure RunReport where
  exitCode : Nat
  documents : List Json
  failure : Option Error
  trace : List TraceEvent
  prose : Option Prose

def version : String := "assetio 0.3.0"

def host : Host := ⟨"org.assetio.cli", "assetio CLI", Dict.empty⟩

-- ---------------------------------------------------------------- documents

/-- An object with its keys in increasing order. -/
def document (entries : List (String × Json)) : Json := Json.ofDict (Dict.ofList entries)

def given {α : Type} (key : String) (toJson : α → Json) : Option α → List (String × Json)
  | none => []
  | some value => [(key, toJson value)]

def errorDocument (e : Error) : Json :=
  let causes := if e.causes = [] then [] else [("causes", Json.arr (e.causes.map .str))]
  document [("error", document
    ([("kind", .str e.kind.name), ("message", .str (e.message.getD e.kind.name))] ++
      given "path" .str e.path ++ given "index" (fun i => .int i) e.index ++
      given "code" (fun element => .str element.code.name) e.element ++ causes))]

def detailDocument (d : ManagerDetail) : Json :=
  document [("identifier", .str d.identifier), ("display_name", .str d.displayName),
    ("info", d.info.toJson)]

def configDocument (c : DefaultConfig) : Json :=
  document [("identifier", .str c.identifier), ("settings", c.settings.toJson)]

/-- The line for one reference: its place, the reference and what came of it. -/
def resolvedDocument (index : Nat) (reference : EntityReference) (outcome : Outcome TraitsData) :
    Json :=
  let result := match outcome with
    | .ok data => ("traits", data.toJson)
    | .error e => ("error", document [("code", .str e.code.name), ("message", .str e.message)])
  document [("index", .int index), ("entity", .str reference.text), result]

def resolvedDocuments (references : List EntityReference) (outcomes : List (Outcome TraitsData)) :
    List Json :=
  (references.zip outcomes).zipIdx.map fun ((reference, outcome), index) =>
    resolvedDocument index reference outcome

-- ---------------------------------------------------------------- commands

/-- How a command ends that did not fail: the exit code and the documents that it writes. -/
structure Success where
  exitCode : Nat
  documents : List Json

variable {σ : Type}

def listManagers (f : Factory σ) : Except Error Success :=
  f.available.map fun details =>
    ⟨0, [document [("managers", .arr (details.map fun d => detailDocument d.2))]]⟩

def showConfig (read : Config.Reader) (find : String → Found) (path : String) :
    Except Error Success :=
  (Config.load read find path).map fun c => ⟨0, [configDocument c]⟩

def hasFailure (outcomes : List (Outcome TraitsData)) : Bool :=
  outcomes.any fun outcome => !outcome.isOk

/-- Resolves the references. To fail fast is to let the first element error fail the call; otherwise
every outcome has its line, and an element error shows in the exit code only. -/
def resolveWith (c : ResolveCommand) (made : Running σ) :
    List LogRecord × Except Error Success :=
  let references := c.references.map EntityReference.mk
  let request := Request.resolve references (NameSet.ofList c.traits) c.access
  if c.failFast then
    let reply := made.broker.batch .default request Context.empty made.state
    (reply.logs, reply.result.map fun datas =>
      ⟨0, resolvedDocuments references (datas.map .ok)⟩)
  else
    let reply := made.broker.batch .variant request Context.empty made.state
    (reply.logs, reply.result.map fun outcomes =>
      ⟨if hasFailure outcomes then ErrorKind.batchElement.exitCode else 0,
        resolvedDocuments references outcomes⟩)

def noDefaultManager : Error :=
  .make .usage
    s!"no default manager configured; pass --config or set {Config.pathVariable}"

/-- The manager that a command works with. -/
def managerFor (f : Factory σ) (read : Config.Reader) (find : String → Found)
    (environment : Environment) (config : Option String) :
    List LogRecord × Except Error (Running σ) :=
  match config with
  | some path => f.fromPath read find path
  | none =>
    match f.fromEnvironment read find environment.defaultConfig with
    | (logs, .ok (some made)) => (logs, .ok made)
    | (logs, .ok none) => (logs, .error noDefaultManager)
    | (logs, .error e) => (logs, .error e)

def runCommand (f : Factory σ) (read : Config.Reader) (find : String → Found)
    (environment : Environment) : Command → List LogRecord × Except Error Success
  | .managers => ([], listManagers f)
  | .config path => ([], showConfig read find path)
  | .resolve c =>
    match managerFor f read find environment c.config with
    | (logs, .error e) => (logs, .error e)
    | (logs, .ok made) =>
      let (more, result) := resolveWith c made
      (logs ++ more, result)

-- ---------------------------------------------------------------- runs

/-- The report of a run that ended with an error or not. -/
def RunReport.ofResult (trace : List TraceEvent) : Except Error Success → RunReport
  | .ok s => ⟨s.exitCode, s.documents, none, trace, none⟩
  | .error e => ⟨e.exitCode, [], some e, trace, none⟩

/-- The logger of a run, and what setting it up reports. -/
def loggerFor (environment : Environment) : Logger × List LogRecord :=
  let (chain, report) := FilterChain.wrap ⟨Logger.tracing, []⟩ environment.threshold
  (chain.outermost, report)

/-- Shown where the filter is not set or is no filter: warnings and errors. -/
def isWarning (e : TraceEvent) : Bool := TraceLevel.warn.rank ≤ e.level.rank

/-- Which events are shown, unless reading the filter breaks off the run. -/
def filterFor? (read : String → FilterReading) : Option String → Option (TraceEvent → Bool)
  | none => some isWarning
  | some text =>
    match read text with
    | .filter shows => some shows
    | .invalid => some isWarning
    | .brokenOff => none

/-- The exit code of a run that broke off. -/
def brokenOffExitCode : Nat := 101

/-- A run of whose trace some events are shown. -/
def runWith (shows : TraceEvent → Bool) (libraries : Libraries) (arguments : List String)
    (environment : Environment) (find : String → Found) : RunReport :=
  match libraries.arguments arguments with
  | .error text => .ofResult [] (.error (.make .usage (usageSummary text)))
  | .ok .version => ⟨0, [], none, [], some .version⟩
  | .ok .help => ⟨0, [], none, [], some .help⟩
  | .ok .helpOnNothing => ⟨ErrorKind.usage.exitCode, [], none, [], some .help⟩
  | .ok (.run command) =>
    let (logger, report) := loggerFor environment
    let (logs, result) :=
      runCommand ⟨host, Registry.builtin, logger⟩ libraries.settings find environment command
    .ofResult (((report ++ logs).map TraceEvent.ofRecord).filter shows) result

/-- A run as a whole. It breaks off if the filter of its trace cannot be taken apart. -/
def run (libraries : Libraries) (arguments : List String) (environment : Environment)
    (find : String → Found) : RunReport :=
  match filterFor? libraries.filter environment.traceFilter with
  | some shows => runWith shows libraries arguments environment find
  | none => ⟨brokenOffExitCode, [], none, [], some .brokenOff⟩

/-- The path that a run looks up, if it looks one up. -/
def pathOf (read : ArgumentReader) (arguments : List String) (environment : Environment) :
    Option String :=
  match read arguments with
  | .ok (.run (.config path)) => some path
  | .ok (.run (.resolve c)) => c.config <|> environment.defaultConfig
  | _ => none

-- ---------------------------------------------------------------- what a run writes

/-- Written in place of a document for which the printer has no text. -/
def unprintable : String := "\x7b\"error\":\"json encode failed\"\x7d"

/-- Written in place of the document of an error for which the printer has no text. -/
def unprintableError : String :=
  "\x7b\"error\":\x7b\"kind\":\"Internal\",\"message\":\"json encode failed\"\x7d\x7d"

variable (p : Json.Printer) (terminals : Terminals)

/-- The texts that go to the output, a line end after each of them. -/
def RunReport.output (r : RunReport) : List String :=
  r.documents.map fun document =>
    (if terminals.output then p.pretty document else p.compact document).getD unprintable

/-- An error as people read it, with a line for each error behind it. -/
def errorLines (e : Error) : List String :=
  ("error: " ++ e.shown) :: e.causes.map ("  caused by: " ++ ·)

/-- The texts that go to the error output, a line end after each of them, the trace apart. -/
def RunReport.errors (r : RunReport) : List String :=
  match r.failure with
  | none => []
  | some e =>
    if terminals.errors then errorLines e
    else [(p.compact (errorDocument e)).getD unprintableError]

end EntityBroker.CommandLine
