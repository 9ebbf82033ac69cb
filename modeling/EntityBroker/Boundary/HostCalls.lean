import EntityBroker.Boundary.Suite
import EntityBroker.Broker

/-!
# Host calls over the boundary

The calls with which a host on the other side makes shared managers and brokers and asks them about
themselves. A call that makes something checks first that there is a place to put it.
-/

namespace EntityBroker.Boundary

variable {σ : Type}

/-- Shares the manager that a suite and a handle make up. -/
def shareManager (error : Option View) (hasOut : Bool) (handle : Option σ) (suite : Suite σ) :
    Call (Option (Manager σ × σ)) :=
  guard error none <|
    if !hasOut then .error (isNull "out")
    else match handle with
      | none => .error (isNull "manager interface handle")
      | some handle => .ok (some (suite.manager, handle))

/-- A broker between a shared manager and a session. -/
def makeBroker (error : Option View) (hasOut : Bool) (shared : Option (Manager σ × σ))
    (session : Option Session) : Call (Option (Broker σ × σ)) :=
  guard error none <|
    if !hasOut then .error (isNull "out")
    else match shared, session with
      | none, _ => .error (isNull "manager interface handle")
      | some _, none => .error (isNull "host session handle")
      | some (manager, state), some session => .ok (some (⟨manager, session⟩, state))

def hostIdentifier (error out : Option View) (broker : Option (Broker σ × σ)) :
    Call (Option View) :=
  guardText error out (ask Suite.managerHandle broker fun (b, state) => b.identifier state)

def hostDisplayName (error out : Option View) (broker : Option (Broker σ × σ)) :
    Call (Option View) :=
  guardText error out (ask Suite.managerHandle broker fun (b, state) => b.displayName state)

def hostInfo (error : Option View) (out : Option Info) (broker : Option (Broker σ × σ)) :
    Call (Option Info) :=
  guardInfo error out (ask Suite.managerHandle broker fun (b, state) => b.info state)

end EntityBroker.Boundary
