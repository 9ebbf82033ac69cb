import EntityBroker.Journal
import EntityBroker.Proofs.Broker.Workers

/-!
# When the manager is asked

A manager with a journal shows what a broker does with a batch call. `batch_discipline`: lists that
do not go together are refused in silence, a call without elements is announced and answered without
the manager, and every other call is announced and then asks the manager once, for just what it was
given.
-/

namespace EntityBroker

variable {σ : Type} {op : Operation}

namespace Request

/-- What goes with the references element by element is as long as they are. -/
def Parallel : Request op → Prop
  | .preflight references hints _ => references.length = hints.length
  | .register references datas _ => references.length = datas.length
  | _ => True

/-- A request whose lists do not go together, and what a host is told about it. -/
inductive Unequal : {op : Operation} → Request op → String → Prop
  | hints {references : List EntityReference} {hints : List TraitsData}
      (h : references.length ≠ hints.length) (access : PublishingAccess) :
      Unequal (.preflight references hints access)
        ("Parameter lists must be of the same length: " ++
          s!"{references.length} entity references vs. {hints.length} traits hints.")
  | datas {references : List EntityReference} {datas : List TraitsData}
      (h : references.length ≠ datas.length) (access : PublishingAccess) :
      Unequal (.register references datas access)
        ("Parameter lists must be of the same length: " ++
          s!"{references.length} entity references vs. {datas.length} traits datas.")

/-- What the log is told about a call: the operation and how many elements it asks about. -/
def announcement : Request op → String
  | .entityExists references => s!"entityExists: {references.length} entity reference(s)"
  | .entityTraits references _ => s!"entityTraits: {references.length} entity reference(s)"
  | .defaultEntityReference traitSets _ =>
    s!"defaultEntityReference: {traitSets.length} trait set(s)"
  | .resolve references _ _ => s!"resolve: {references.length} entity reference(s)"
  | .preflight references _ _ => s!"preflight: {references.length} entity reference(s)"
  | .register references _ _ => s!"register: {references.length} entity reference(s)"

theorem announcement_eq (request : Request op) :
    s!"{op.name}: {request.size} " ++ elements op = request.announcement := by
  have hassoc : ∀ name count what : String,
      name ++ ": " ++ count ++ " " ++ what = name ++ ": " ++ count ++ (" " ++ what) :=
    fun _ _ _ => String.append_assoc
  refine (hassoc op.name (toString request.size) (elements op)).trans ?_
  cases request <;> rfl

end Request

/-- The announcement of a call goes to the logger of the session once, if the logger is interested
in calls at all. -/
def Session.announced (session : Session) (request : Request op) : List LogRecord :=
  if session.logger.isLogged .debugApi then session.logger.log .debugApi request.announcement
  else []

/-- What a batch without elements returns. -/
def Policy.noAnswers {α : Type} : (policy : Policy) → policy.Batch α
  | .variant => []
  | .default => []
  | .exception => []

theorem Policy.finishBatch_nil {α : Type} (policy : Policy) (context : ElementContext) :
    policy.finishBatch context ([] : List (Outcome α)) = .ok policy.noAnswers := by
  cases policy <;> rfl

namespace Broker

/-- How a broker handles a batch call on a manager with a journal: what it leaves there, what
reaches the log, and what it answers unless the manager was asked. What the manager reports while it
is asked comes after the announcement. -/
inductive Handled (m : Manager σ) (session : Session) (policy : Policy) (request : Request op)
    (context : Context) (before : Journaled σ) :
    Reply (Journaled σ) (policy.Batch op.Answer) → Prop
  | refused {message : String} (h : request.Unequal message) :
      Handled m session policy request context before
        ⟨before, [], .error (.inputValidation message)⟩
  | spared (h : request.Parallel) (hsize : request.size = 0) :
      Handled m session policy request context before
        ⟨before, session.announced request, .ok policy.noAnswers⟩
  | asked (h : request.Parallel) (hsize : request.size ≠ 0)
      {own : BatchReply σ op.Answer} (hown : m.batch op request context session before.state = own)
      (answer : Except Error (policy.Batch op.Answer)) :
      Handled m session policy request context before
        ⟨⟨own.state, before.journal ++ [.batch op request context session.host]⟩,
          session.announced request ++ own.logs, answer⟩

-- ---------------------------------------------------------------- one call

theorem lengthFault?_eq_none_iff {request : Request op} :
    lengthFault? request = none ↔ request.Parallel := by
  cases request with
  | preflight references hints access =>
    simp [lengthFault?, Request.companion?, Request.size, Request.Parallel, eq_comm]
  | register references datas access =>
    simp [lengthFault?, Request.companion?, Request.size, Request.Parallel, eq_comm]
  | _ => exact iff_of_true rfl trivial

theorem not_parallel_of_unequal {request : Request op} {message : String}
    (h : request.Unequal message) : ¬ request.Parallel := by
  cases h with
  | hints h access => exact h
  | datas h access => exact h

theorem toError_unequalLengths (references others : Nat) (content : String) :
    (BatchFault.unequalLengths references others content).toError =
      .inputValidation ("Parameter lists must be of the same length: " ++
        (s!"{references} entity references vs. {others}" ++ (" " ++ content ++ "."))) := by
  simp only [BatchFault.toError, String.append_assoc]
  rfl

theorem unequal_of_lengthFault? {request : Request op} {fault : BatchFault}
    (h : lengthFault? request = some fault) :
    ∃ message, request.Unequal message ∧ fault.toError = .inputValidation message := by
  have hparallel : ¬ request.Parallel := by
    rw [← lengthFault?_eq_none_iff, h]
    exact nofun
  cases request with
  | preflight references hints access =>
    obtain rfl : .unequalLengths references.length hints.length "traits hints" = fault := by
      simpa [lengthFault?, Request.companion?, Request.size, Ne.symm hparallel] using h
    exact ⟨_, .hints hparallel access, toError_unequalLengths ..⟩
  | register references datas access =>
    obtain rfl : .unequalLengths references.length datas.length "traits datas" = fault := by
      simpa [lengthFault?, Request.companion?, Request.size, Ne.symm hparallel] using h
    exact ⟨_, .datas hparallel access, toError_unequalLengths ..⟩
  | _ => exact absurd trivial hparallel

section
variable (m : Manager σ) (session : Session) (policy : Policy) (request : Request op)
variable (context : Context) (before : Journaled σ)

theorem outcomes_announced (h : lengthFault? request = none) :
    (outcomes ⟨m.journaled, session⟩ request context before) =
      if request.size = 0 then ⟨before, session.announced request, .ok []⟩
      else
        let own := m.batch op request context session before.state
        ⟨⟨own.state, before.journal ++ [.batch op request context session.host]⟩,
          session.announced request ++ own.logs,
          Batch.collect request.size own.deliveries own.verdict⟩ := by
  simp only [outcomes, h, Request.announcement_eq]
  rfl

theorem handled_batch :
    Handled m session policy request context before
      (Broker.batch ⟨m.journaled, session⟩ policy request context before) := by
  cases hf : lengthFault? request with
  | some fault =>
    obtain ⟨message, hunequal, herror⟩ := unequal_of_lengthFault? hf
    rw [batch, outcomes_refused hf, herror]
    exact .refused hunequal
  | none =>
    have hparallel := lengthFault?_eq_none_iff.mp hf
    rw [batch, outcomes_announced m session request context before hf]
    by_cases hsize : request.size = 0
    · simp only [hsize, ↓reduceIte, Except.bind, Policy.finishBatch_nil]
      exact .spared hparallel hsize
    · simp only [hsize, ↓reduceIte]
      exact .asked hparallel hsize rfl _

end

instance (request : Request op) : Decidable request.Parallel :=
  decidable_of_iff (lengthFault? request = none) lengthFault?_eq_none_iff

section
variable {m : Manager σ} {session : Session} {policy : Policy} {request : Request op}
variable {context : Context} {before : Journaled σ}
variable {reply : Reply (Journaled σ) (policy.Batch op.Answer)}

theorem Handled.journal (h : Handled m session policy request context before reply) :
    reply.state.journal = before.journal ++
      if request.Parallel ∧ request.size ≠ 0 then [.batch op request context session.host]
      else [] := by
  cases h with
  | refused h => rw [if_neg fun hasks => not_parallel_of_unequal h hasks.1, List.append_nil]
  | spared h hsize => rw [if_neg fun hasks => hasks.2 hsize, List.append_nil]
  | asked h hsize hown answer => rw [if_pos ⟨h, hsize⟩]

end

/-- Every batch call on every manager, under every policy, is handled in one of three ways, and the
manager is asked, once and for just what the call was given, exactly if the lists of the call go
together and are not empty. -/
theorem batch_discipline (m : Manager σ) (session : Session) (policy : Policy)
    (request : Request op) (context : Context) (before : Journaled σ) :
    let reply := Broker.batch ⟨m.journaled, session⟩ policy request context before
    Handled m session policy request context before reply ∧
      (reply.state.journal = before.journal ++ [.batch op request context session.host] ↔
        request.Parallel ∧ request.size ≠ 0) := by
  intro reply
  have hhandled : Handled m session policy request context before reply :=
    handled_batch m session policy request context before
  refine ⟨hhandled, ?_⟩
  rw [hhandled.journal, List.append_cancel_left_eq]
  by_cases hasks : request.Parallel ∧ request.size ≠ 0 <;> simp [hasks]

end Broker

end EntityBroker
