import EntityBroker.Boundary.Custody
import EntityBroker.Boundary.HostCalls

/-!
# The handles that are open

Named handles to exported and shared managers, sessions, brokers made over the boundary, and
adapters, with the ledger of which of them keep which manager alive. Opening a handle under a name
that is in use closes the handle that had it.
-/

namespace EntityBroker.Boundary

inductive Handle where
  | exported (name : String)
  | shared (name : String)
  | host (name : String)
  | adapter (name : String)
  deriving DecidableEq

structure Handles (σ : Type) where
  custody : Custody Handle
  exports : Dict (Suite σ × σ)
  shareds : Dict (Manager σ × σ)
  sessions : Dict Session
  hosts : Dict (Broker σ × σ)
  adapters : Dict (Broker σ × σ)

/-- Where a suite with its handle comes from: given as such, or an export that is used up. -/
inductive SuiteSource (σ : Type) where
  | given (suite : Suite σ) (handle : σ)
  | exported (name : String)
  | missing

namespace Handles

variable {σ : Type}

def empty : Handles σ := ⟨Custody.empty, Dict.empty, Dict.empty, Dict.empty, Dict.empty, Dict.empty⟩

def exportManager (h : Handles σ) (name : String) (manager : Manager σ) (state : σ) : Handles σ :=
  { h with
    exports := h.exports.insert name (Suite.ofManager manager, state)
    custody := h.custody.acquire (.exported name) }

def closeExport (h : Handles σ) (name : String) : Handles σ :=
  { h with exports := h.exports.erase name, custody := h.custody.release (.exported name) }

/-- What a source has. -/
def look (h : Handles σ) : SuiteSource σ → Option (Suite σ × σ)
  | .given suite handle => some (suite, handle)
  | .exported name => h.exports.get? name
  | .missing => none

/-- The handles after what a source has went to the handle that is to own it. -/
def take (h : Handles σ) (owner : Handle) : SuiteSource σ → Handles σ
  | .given _ _ => { h with custody := h.custody.acquire owner }
  | .exported name =>
    { h with
      exports := h.exports.erase name
      custody := h.custody.transfer owner (.exported name) }
  | .missing => h

/-- The handles after what a source has was let go. -/
def letGo (h : Handles σ) : SuiteSource σ → Handles σ
  | .given _ _ => { h with custody := h.custody.discard }
  | .exported name => h.closeExport name
  | .missing => h

/-- A suite that is never called, for where there is none. -/
def noSuite : Suite σ where
  identifier := fun error out _ => ⟨Code.unknown.raw, error, out⟩
  displayName := fun error out _ => ⟨Code.unknown.raw, error, out⟩
  info := fun error out _ => ⟨Code.unknown.raw, error, out⟩

/-- Shares a manager. One that could not be shared is let go, and what had the name keeps it. -/
def share (h : Handles σ) (name : String) (source : SuiteSource σ) (error : Option View)
    (hasOut : Bool) : Handles σ × Call Bool :=
  let found := h.look source
  let suite := (found.map Prod.fst).getD noSuite
  let call := shareManager error hasOut (found.map Prod.snd) suite
  match call.out with
  | some shared =>
    ({ h.take (.shared name) source with shareds := h.shareds.insert name shared },
      ⟨call.code, call.error, true⟩)
  | none => (h.letGo source, ⟨call.code, call.error, false⟩)

def closeShared (h : Handles σ) (name : String) : Handles σ :=
  { h with shareds := h.shareds.erase name, custody := h.custody.release (.shared name) }

def openSession (h : Handles σ) (name : String) (session : Session) : Handles σ :=
  { h with sessions := h.sessions.insert name session }

def closeSession (h : Handles σ) (name : String) : Handles σ :=
  { h with sessions := h.sessions.erase name }

/-- Makes a broker, which keeps the shared manager alive. -/
def makeHost (h : Handles σ) (name manager session : String) (error : Option View)
    (hasOut : Bool) : Handles σ × Call Bool :=
  let call := makeBroker error hasOut (h.shareds.get? manager) (h.sessions.get? session)
  match call.out with
  | some host =>
    ({ h with
      hosts := h.hosts.insert name host
      custody := h.custody.share (.host name) (.shared manager) }, ⟨call.code, call.error, true⟩)
  | none => (h, ⟨call.code, call.error, false⟩)

def closeHost (h : Handles σ) (name : String) : Handles σ :=
  { h with hosts := h.hosts.erase name, custody := h.custody.release (.host name) }

/-- A broker on this side over a manager of the other side. -/
def adapt (h : Handles σ) (name : String) (source : SuiteSource σ) (session : Session) :
    Handles σ :=
  match h.look source with
  | none => h
  | some (suite, handle) =>
    { h.take (.adapter name) source with
      adapters := h.adapters.insert name (⟨suite.manager, session⟩, handle) }

def cloneAdapter (h : Handles σ) (name source : String) : Handles σ :=
  match h.adapters.get? source with
  | none => h
  | some adapter =>
    { h with
      adapters := h.adapters.insert name adapter
      custody := h.custody.share (.adapter name) (.adapter source) }

def closeAdapter (h : Handles σ) (name : String) : Handles σ :=
  { h with adapters := h.adapters.erase name, custody := h.custody.release (.adapter name) }

/-- How many managers are released so far, and how many once every handle is closed. -/
def released (h : Handles σ) : Nat := h.custody.released

def releasedAtEnd (h : Handles σ) : Nat :=
  ((h.custody.owners.map Prod.fst).foldl Custody.release h.custody).released

end Handles

end EntityBroker.Boundary
