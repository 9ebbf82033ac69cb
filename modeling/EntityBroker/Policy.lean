import EntityBroker.Batch

/-!
# Policies for element errors

What a call does with the errors of single elements: the variant policy returns every outcome, the
others make an error of the call out of the first element error.
-/

namespace EntityBroker

inductive Policy where
  | default
  | exception
  | variant
  deriving DecidableEq, Repr

/-- What is known about the elements of a call: the name of the access mode, and the references if
it has them. -/
structure ElementContext where
  access : Option String
  references : List EntityReference

def Request.elementContext {op : Operation} (r : Request op) : ElementContext :=
  ⟨r.access?.map Access.name, r.references⟩

/-- The error of a call that an element's error became. -/
def ElementError.escalate (e : ElementError) (index : Nat) (access : Option String)
    (reference : Option EntityReference) : Error :=
  let text := if e.message = "" then "" else " " ++ e.message
  let accessPart := match access with
    | none => ""
    | some name => " [access=" ++ name ++ "]"
  let referencePart := match reference with
    | none => ""
    | some r => " [entity=" ++ r.text ++ "]"
  { Error.make .batchElement
      (e.code.name ++ ":" ++ text ++ s!" [index={index}]" ++ accessPart ++ referencePart) with
    index := some index
    element := some e }

namespace Policy

variable {α : Type}

/-- What a batch returns under a policy. -/
abbrev Batch : Policy → Type → Type
  | .variant, α => List (Outcome α)
  | .default, α => List α
  | .exception, α => List α

/-- What a call for one element returns under a policy. -/
abbrev Single : Policy → Type → Type
  | .variant, α => Outcome α
  | .default, α => α
  | .exception, α => α

/-- The values of the outcomes from `index` on, or the error of the first that has none. -/
def raiseFirst (context : ElementContext) (index : Nat) :
    List (Outcome α) → Except Error (List α)
  | [] => .ok []
  | .error e :: _ =>
    .error (e.escalate index context.access context.references[index]?)
  | .ok value :: rest => (raiseFirst context (index + 1) rest).map (value :: ·)

def raiseSingle (context : ElementContext) (outcome : Outcome α) : Except Error α :=
  outcome.mapError fun e => e.escalate 0 context.access context.references.head?

def finishBatch (policy : Policy) (context : ElementContext) (outcomes : List (Outcome α)) :
    Except Error (policy.Batch α) :=
  match policy with
  | .variant => .ok outcomes
  | .default => raiseFirst context 0 outcomes
  | .exception => raiseFirst context 0 outcomes

def finishSingle (policy : Policy) (context : ElementContext) (outcome : Outcome α) :
    Except Error (policy.Single α) :=
  match policy with
  | .variant => .ok outcome
  | .default => raiseSingle context outcome
  | .exception => raiseSingle context outcome

end Policy

end EntityBroker
