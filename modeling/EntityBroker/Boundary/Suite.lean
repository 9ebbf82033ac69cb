import EntityBroker.Boundary.Call

/-!
# Managers on either side of the boundary

A suite is a manager as the boundary knows it: three calls on a handle, by which it tells about
itself. `Suite.ofManager` makes a suite of a manager, `Suite.manager` a manager of a suite. The
boundary has no calls for anything else, so a manager behind it supports nothing else.
-/

namespace EntityBroker.Boundary

structure Suite (σ : Type) where
  identifier : Option View → Option View → Option σ → Call (Option View)
  displayName : Option View → Option View → Option σ → Call (Option View)
  info : Option View → Option Info → Option σ → Call (Option Info)

namespace Suite

variable {σ α : Type}

def managerHandle : String := "manager handle"

def ofManager (m : Manager σ) : Suite σ where
  identifier := fun error out handle => guardText error out (ask managerHandle handle m.identifier)
  displayName := fun error out handle =>
    guardText error out (ask managerHandle handle m.displayName)
  info := fun error out handle => guardInfo error out (ask managerHandle handle m.info)

-- ---------------------------------------------------------------- asking through a suite

/-- The room for a text on this side of the boundary. -/
def roomForText : Nat := 500

def blankView : View := View.ofMemory (List.replicate roomForText 0)

def invalidText (operation : String) (fault : Utf8.Fault) : Error :=
  (Error.make .exception s!"{operation}: manager returned invalid UTF-8").withCause fault.message

/-- Asks for a text. A suite leaves views that were passed to it where they are. -/
def askText (operation : String)
    (getter : Option View → Option View → Option σ → Call (Option View)) (handle : σ) :
    Except Error String :=
  let call := getter (some blankView) (some blankView) (some handle)
  match throwIfError call.code (call.error.getD View.empty) with
  | .error e => .error e
  | .ok () =>
    (Utf8.decode (call.out.getD View.empty).bytes).mapError (invalidText operation)

def askInfo (getter : Option View → Option Info → Option σ → Call (Option Info)) (handle : σ) :
    Except Error Info :=
  let call := getter (some blankView) (some Dict.empty) (some handle)
  match throwIfError call.code (call.error.getD View.empty) with
  | .error e => .error e
  | .ok () => .ok (call.out.getD Dict.empty)

def notImplemented : Error := .notImplemented "Not implemented"

def decline (handle : σ) : Reply σ α := ⟨handle, [], .error notImplemented⟩

/-- The manager behind a suite; its state is the handle. -/
def manager (suite : Suite σ) : Manager σ where
  identifier := fun handle => .ofExcept (askText "identifier" suite.identifier handle)
  displayName := fun handle => .ofExcept (askText "displayName" suite.displayName handle)
  info := fun handle => .ofExcept (askInfo suite.info handle)
  settings := fun _ handle => decline handle
  applySettings := fun _ _ handle => decline handle
  hasCapability := fun _ handle => decline handle
  managementPolicy := fun _ _ _ _ handle => decline handle
  isEntityReference := fun _ _ handle => decline handle
  batch := fun _ _ _ _ handle => ⟨handle, [], [], .error notImplemented⟩

end Suite

/-- The manager as it is seen after it crossed the boundary and back. -/
def crossed {σ : Type} (m : Manager σ) : Manager σ := (Suite.ofManager m).manager

end EntityBroker.Boundary
