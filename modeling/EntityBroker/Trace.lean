import EntityBroker.Logger

/-!
# Trace events

The process-wide trace has five levels, fewer than there are severities. An event whose level stands
for more than one severity, and the finest, carries the severity beside its message.
-/

namespace EntityBroker

inductive TraceLevel where
  | trace
  | debug
  | info
  | warn
  | error
  deriving DecidableEq, Repr

namespace TraceLevel

def all : List TraceLevel := [.trace, .debug, .info, .warn, .error]

def rank : TraceLevel → Nat
  | .trace => 0
  | .debug => 1
  | .info => 2
  | .warn => 3
  | .error => 4

def name : TraceLevel → String
  | .trace => "TRACE"
  | .debug => "DEBUG"
  | .info => "INFO"
  | .warn => "WARN"
  | .error => "ERROR"

end TraceLevel

structure TraceEvent where
  level : TraceLevel
  message : String
  severity : Option Severity
  deriving DecidableEq

def Severity.traceLevel : Severity → TraceLevel
  | .debugApi => .trace
  | .debug => .debug
  | .info => .info
  | .progress => .info
  | .warning => .warn
  | .error => .error
  | .critical => .error

/-- Whether an event at this level tells which severity it came from. -/
def TraceLevel.tellsSeverity : TraceLevel → Bool
  | .trace => true
  | .debug => false
  | .info => true
  | .warn => false
  | .error => true

def TraceEvent.ofRecord (r : LogRecord) : TraceEvent :=
  let level := r.severity.traceLevel
  ⟨level, r.message, if level.tellsSeverity then some r.severity else none⟩

/-- Hands every message on to the trace. -/
def Logger.tracing : Logger := Logger.recording (fun _ => true)

end EntityBroker
