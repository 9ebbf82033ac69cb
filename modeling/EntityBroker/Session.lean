import EntityBroker.Logger
import EntityBroker.TraitsData

/-!
# Hosts, sessions and contexts

A session tells a manager who is asking and where to report; a context goes with related calls and
carries the locale and, opaque to the host, whether the manager attached state of its own.
-/

namespace EntityBroker

structure Host where
  identifier : String
  displayName : String
  info : Info

structure Session where
  host : Host
  logger : Logger

/-- A message of the session reaches the logger if that is interested. -/
def Session.log (session : Session) (severity : Severity) (message : String) : List LogRecord :=
  session.logger.offer severity message

structure Context where
  locale : Option TraitsData
  hasState : Bool

def Context.empty : Context := ⟨none, false⟩

end EntityBroker
