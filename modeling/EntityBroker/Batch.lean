import EntityBroker.Error
import EntityBroker.Request

/-!
# Collecting a batch

A manager delivers outcomes one by one, each with the index of its element, in any order. The
outcomes are kept in one slot per element: of two deliveries for one index the later stays, and the
first index that has no slot is remembered. A batch is complete when every slot is filled and no
index strayed.
-/

namespace EntityBroker

structure Delivery (α : Type) where
  index : Nat
  outcome : Outcome α

inductive BatchFault where
  /-- An outcome was delivered for an index that the batch does not have. -/
  | stray (index size : Nat)
  /-- No outcome was delivered for an index. -/
  | undelivered (index size : Nat)
  /-- The references and the list that goes with them differ in length. -/
  | unequalLengths (references others : Nat) (content : String)
  /-- A batch of one element came back without an outcome. -/
  | noOutcome

def BatchFault.toError : BatchFault → Error
  | .stray index size =>
    .inputValidation s!"Index '{index}' out of bounds for batch size of {size}"
  | .undelivered index size =>
    .make .unhandled s!"Manager returned without a result for index {index} of {size}"
  | .unequalLengths references others content =>
    .inputValidation ("Parameter lists must be of the same length: " ++
      s!"{references} entity references vs. {others} {content}.")
  | .noOutcome => .make .internal "single-item batch produced no outcome"

namespace Batch

variable {α : Type}

structure Slots (α : Type) where
  outcomes : List (Option (Outcome α))
  stray : Option Nat

def Slots.empty (size : Nat) : Slots α := ⟨List.replicate size none, none⟩

def Slots.store (slots : Slots α) (d : Delivery α) : Slots α :=
  if d.index < slots.outcomes.length then
    { slots with outcomes := slots.outcomes.set d.index (some d.outcome) }
  else { slots with stray := slots.stray <|> some d.index }

/-- The outcomes of all slots from `index` on, or the first slot that is empty. -/
def takeOutcomes (size index : Nat) :
    List (Option (Outcome α)) → Except BatchFault (List (Outcome α))
  | [] => .ok []
  | none :: _ => .error (.undelivered index size)
  | some outcome :: rest => (takeOutcomes size (index + 1) rest).map (outcome :: ·)

def Slots.finish (slots : Slots α) : Except BatchFault (List (Outcome α)) :=
  match slots.stray with
  | some index => .error (.stray index slots.outcomes.length)
  | none => takeOutcomes slots.outcomes.length 0 slots.outcomes

/-- The outcomes of a batch that the manager ended with `verdict`, in the order of the elements. An
error of the manager goes before anything that is wrong with the deliveries. -/
def collect (size : Nat) (deliveries : List (Delivery α)) (verdict : Except Error Unit) :
    Except Error (List (Outcome α)) :=
  match verdict with
  | .error e => .error e
  | .ok () =>
    ((deliveries.foldl Slots.store (Slots.empty size)).finish).mapError BatchFault.toError

end Batch

end EntityBroker
