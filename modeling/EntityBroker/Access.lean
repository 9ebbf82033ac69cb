/-!
# Access modes

Why a host asks: each family of operations admits some of the modes. A mode has one name, whichever
family it is used in.
-/

namespace EntityBroker

inductive Access where
  | read
  | write
  | createRelated
  | required
  | managerDriven
  deriving DecidableEq, Repr

def Access.name : Access → String
  | .read => "read"
  | .write => "write"
  | .createRelated => "createRelated"
  | .required => "required"
  | .managerDriven => "managerDriven"

def Access.all : List Access := [.read, .write, .createRelated, .required, .managerDriven]

def Access.ofName? (name : String) : Option Access := Access.all.find? (fun a => a.name == name)

inductive PolicyAccess where
  | read
  | write
  | createRelated
  | required
  | managerDriven
  deriving DecidableEq, Repr

inductive ResolveAccess where
  | read
  | managerDriven
  deriving DecidableEq, Repr

inductive PublishingAccess where
  | write
  | createRelated
  deriving DecidableEq, Repr

inductive EntityTraitsAccess where
  | read
  | write
  deriving DecidableEq, Repr

inductive DefaultEntityAccess where
  | read
  | write
  | createRelated
  deriving DecidableEq, Repr

def PolicyAccess.mode : PolicyAccess → Access
  | .read => .read
  | .write => .write
  | .createRelated => .createRelated
  | .required => .required
  | .managerDriven => .managerDriven

def ResolveAccess.mode : ResolveAccess → Access
  | .read => .read
  | .managerDriven => .managerDriven

def PublishingAccess.mode : PublishingAccess → Access
  | .write => .write
  | .createRelated => .createRelated

def EntityTraitsAccess.mode : EntityTraitsAccess → Access
  | .read => .read
  | .write => .write

def DefaultEntityAccess.mode : DefaultEntityAccess → Access
  | .read => .read
  | .write => .write
  | .createRelated => .createRelated

-- ---------------------------------------------------------------- the modes a family admits

def PolicyAccess.ofMode? (mode : Access) : Option PolicyAccess :=
  [PolicyAccess.read, .write, .createRelated, .required, .managerDriven].find? (·.mode = mode)

def ResolveAccess.ofMode? (mode : Access) : Option ResolveAccess :=
  [ResolveAccess.read, .managerDriven].find? (·.mode = mode)

def PublishingAccess.ofMode? (mode : Access) : Option PublishingAccess :=
  [PublishingAccess.write, .createRelated].find? (·.mode = mode)

def EntityTraitsAccess.ofMode? (mode : Access) : Option EntityTraitsAccess :=
  [EntityTraitsAccess.read, .write].find? (·.mode = mode)

def DefaultEntityAccess.ofMode? (mode : Access) : Option DefaultEntityAccess :=
  [DefaultEntityAccess.read, .write, .createRelated].find? (·.mode = mode)

end EntityBroker
