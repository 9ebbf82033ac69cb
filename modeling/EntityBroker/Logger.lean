import EntityBroker.Severity

/-!
# Loggers and severity filters

A logger says which severities it is interested in, and turns a message given to it into the records
that reach the log at its base. Asking first is up to the caller: a logger that is handed a message
does not have to be interested in it. A filter is a logger on top of another, with a threshold.
-/

namespace EntityBroker

structure LogRecord where
  severity : Severity
  message : String
  deriving DecidableEq, Repr

structure Logger where
  isLogged : Severity → Bool
  log : Severity → String → List LogRecord

namespace Logger

/-- Keeps every message it is given, whatever it is interested in. -/
def recording (isLogged : Severity → Bool) : Logger :=
  ⟨isLogged, fun severity message => [⟨severity, message⟩]⟩

/-- Passes on what is at or above the threshold and of interest to the logger below. -/
def filtered (below : Logger) (threshold : Severity) : Logger :=
  let isLogged := fun s => s.reaches threshold && below.isLogged s
  ⟨isLogged, fun severity message => if isLogged severity then below.log severity message else []⟩

/-- The message goes to the logger only if it is interested in the severity. -/
def offer (logger : Logger) (severity : Severity) (message : String) : List LogRecord :=
  if logger.isLogged severity then logger.log severity message else []

end Logger

-- ---------------------------------------------------------------- thresholds from the environment

/-- The environment variable that names the threshold. -/
def thresholdVariable : String := "ASSETIO_LOGGING_SEVERITY"

def defaultThreshold : Severity := .warning

/-- The threshold that a variable's text asks for. -/
def thresholdOf (text : Option String) : Severity :=
  (text.bind Severity.ofText?).getD defaultThreshold

/-- What is wrong with a variable's text, if anything is. -/
def thresholdReport? (text : Option String) : Option String :=
  match text with
  | none => none
  | some raw =>
    if (Severity.ofText? raw).isSome then none
    else some s!"SeverityFilter: Invalid {thresholdVariable} value '{raw}' - ignoring."

-- ---------------------------------------------------------------- chains of filters

/-- Filters on top of one another over a base logger, the innermost first. -/
structure FilterChain where
  base : Logger
  thresholds : List Severity

namespace FilterChain

/-- The logger that the `n` innermost filters make. -/
def logger (chain : FilterChain) (n : Nat) : Logger :=
  (chain.thresholds.take n).foldl Logger.filtered chain.base

def outermost (chain : FilterChain) : Logger := chain.logger chain.thresholds.length

/-- Puts one more filter on top, its threshold taken from the text of the variable. A text that
names no severity is reported to the logger below, whether or not that is interested. -/
def wrap (chain : FilterChain) (text : Option String) : FilterChain × List LogRecord :=
  ({ chain with thresholds := chain.thresholds ++ [thresholdOf text] },
    match thresholdReport? text with
    | none => []
    | some report => chain.outermost.log .error report)

def setThreshold (chain : FilterChain) (i : Nat) (threshold : Severity) : FilterChain :=
  { chain with thresholds := chain.thresholds.set i threshold }

def threshold (chain : FilterChain) (i : Nat) : Severity :=
  chain.thresholds.getD i defaultThreshold

end FilterChain

end EntityBroker
