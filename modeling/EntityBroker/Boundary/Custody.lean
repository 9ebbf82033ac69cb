/-!
# Who keeps a manager alive

Handles own managers together: a manager is released when the last handle that owns it goes. A
ledger says which manager each handle owns; the managers that no handle owns any more have been
released.
-/

namespace EntityBroker.Boundary

structure Custody (η : Type) where
  /-- Handles with the number of the manager that each owns. -/
  owners : List (η × Nat)
  /-- How many managers there have been. -/
  managers : Nat

namespace Custody

variable {η : Type} [DecidableEq η]

def empty : Custody η := ⟨[], 0⟩

def owned? (c : Custody η) (handle : η) : Option Nat := c.owners.lookup handle

/-- The handle no longer owns anything. -/
def release (c : Custody η) (handle : η) : Custody η :=
  { c with owners := c.owners.filter fun o => o.1 ≠ handle }

/-- The handle owns a manager that there has not been before, and nothing else. -/
def acquire (c : Custody η) (handle : η) : Custody η :=
  ⟨(c.release handle).owners ++ [(handle, c.managers)], c.managers + 1⟩

/-- There was one more manager that no handle ever owned. -/
def discard (c : Custody η) : Custody η := { c with managers := c.managers + 1 }

/-- The handle owns what `other` owns, together with it. -/
def share (c : Custody η) (handle other : η) : Custody η :=
  match c.owned? other with
  | none => c.release handle
  | some manager => { c with owners := (c.release handle).owners ++ [(handle, manager)] }

/-- The handle owns what `other` owned up to now. -/
def transfer (c : Custody η) (handle other : η) : Custody η :=
  (c.share handle other).release other

def isOwned (c : Custody η) (manager : Nat) : Bool := c.owners.any fun o => o.2 == manager

/-- How many managers have been released. -/
def released (c : Custody η) : Nat :=
  ((List.range c.managers).filter fun manager => !c.isOwned manager).length

end Custody

end EntityBroker.Boundary
