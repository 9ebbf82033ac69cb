import EntityBroker.Broker
import EntityBroker.Config
import EntityBroker.TableManager

/-!
# Registered managers

A registry knows managers by identifier, and how each of them starts. A factory makes brokers for
one host from it; the default manager is the one that the configuration names, with its settings
applied. The factory reports to the logger itself, without asking it first.
-/

namespace EntityBroker

/-- A manager with the state that it starts in. -/
structure Implementation (σ : Type) where
  manager : Manager σ
  initial : σ

abbrev Registry (σ : Type) := Dict (Implementation σ)

namespace Registry

variable {σ : Type}

/-- The managers that are always there. -/
def builtin : Registry TableManager.State :=
  Dict.empty.insert TableManager.ownIdentifier ⟨TableManager.manager, .initial⟩

def unknownIdentifier (identifier : String) : Error :=
  .inputValidation s!"No manager implementation registered for identifier '{identifier}'."

def instantiate (registry : Registry σ) (identifier : String) : Except Error (Implementation σ) :=
  match registry.get? identifier with
  | some implementation => .ok implementation
  | none => .error (unknownIdentifier identifier)

end Registry

/-- What a manager tells about itself. -/
structure ManagerDetail where
  identifier : String
  displayName : String
  info : Info

/-- A crash that nothing caught ends like an unknown error. -/
def Answer.toExcept {α : Type} : Answer α → Except Error α
  | .ok value => .ok value
  | .error e => .error e
  | .crash => .error (.ofKind .unknown)

def Implementation.detail {σ : Type} (i : Implementation σ) : Except Error ManagerDetail := do
  let identifier ← (i.manager.identifier i.initial).toExcept
  let displayName ← (i.manager.displayName i.initial).toExcept
  let info ← (i.manager.info i.initial).toExcept
  return ⟨identifier, displayName, info⟩

structure Factory (σ : Type) where
  host : Host
  registry : Registry σ
  logger : Logger

/-- A broker with the state of its manager. -/
structure Running (σ : Type) where
  broker : Broker σ
  state : σ

namespace Factory

variable {σ : Type}

def identifiers (f : Factory σ) : List String := f.registry.keys

/-- What each registered manager tells about itself, in the order of the identifiers. -/
def available (f : Factory σ) : Except Error (List (String × ManagerDetail)) :=
  f.registry.entries.mapM fun (identifier, implementation) => do
    return (identifier, ← implementation.detail)

def create (f : Factory σ) (identifier : String) : Except Error (Running σ) :=
  (f.registry.instantiate identifier).map fun i => ⟨⟨i.manager, ⟨f.host, f.logger⟩⟩, i.initial⟩

/-- The default manager of the configuration at a path. -/
def fromPath (f : Factory σ) (read : Config.Reader) (find : String → Found) (path : String) :
    List LogRecord × Except Error (Running σ) :=
  let announced := f.logger.log .debug s!"Loading default manager config at '{path}'"
  match Config.load read find path with
  | .error e => (announced, .error e)
  | .ok config =>
    match f.create config.identifier with
    | .error e => (announced, .error e)
    | .ok made =>
      let reply := made.broker.applySettings config.settings made.state
      (announced ++ reply.logs, reply.result.map fun () => ⟨made.broker, reply.state⟩)

/-- The default manager of the configuration whose path the environment gives, if it gives one. -/
def fromEnvironment (f : Factory σ) (read : Config.Reader) (find : String → Found)
    (path : Option String) : List LogRecord × Except Error (Option (Running σ)) :=
  match path with
  | none => (f.logger.log .debug
      s!"{Config.pathVariable} not set, unable to instantiate default manager.", .ok none)
  | some path =>
    let announced := f.logger.log .debug
      s!"Retrieved default manager config file path from '{Config.pathVariable}'"
    let (logs, made) := f.fromPath read find path
    (announced ++ logs, made.map some)

end Factory

end EntityBroker
