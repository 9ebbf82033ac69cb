import EntityBroker.Proofs.Broker.Escalation

/-!
# Calls for one element

A call for one element collects a batch of one and finishes with the only outcome of it.
`batch_of_one`: under every policy that comes to what the batch of one comes to, with the same
effect on the manager, the same log and the same errors; and a batch of one never lacks its outcome.
-/

namespace EntityBroker

variable {σ : Type} {op : Operation}

def Reply.map {α β : Type} (f : α → β) (reply : Reply σ α) : Reply σ β :=
  ⟨reply.state, reply.logs, reply.result.map f⟩

/-- What a batch of one returns where a call for its element returns `answer`. -/
def Policy.ofOne {α : Type} : (policy : Policy) → (answer : policy.Single α) → policy.Batch α
  | .variant, outcome => [outcome]
  | .default, value => [value]
  | .exception, value => [value]

/-- The two ways to raise an error agree on the first element. -/
theorem Policy.finishBatch_singleton {α : Type} (policy : Policy) (context : ElementContext)
    (outcome : Outcome α) :
    policy.finishBatch context [outcome] =
      (policy.finishSingle context outcome).map policy.ofOne := by
  have hfirst : context.references[0]? = context.references.head? := List.head?_eq_getElem?.symm
  have hraise : raiseFirst context 0 [outcome] =
      (raiseSingle context outcome).map fun value => [value] := by
    cases outcome with
    | ok value => rfl
    | error e =>
      rw [raiseFirst, hfirst]
      rfl
  cases policy with
  | variant => rfl
  | default => exact hraise
  | exception => exact hraise

namespace Broker

/-- A request for one element always gets as far as the manager. -/
theorem asks_batch (request : Request.Single op) : Asks request.batch := by
  cases request <;> exact ⟨rfl, Nat.one_ne_zero⟩

theorem outcomes_of_one (b : Broker σ) (request : Request.Single op) (context : Context)
    (state : σ) :
    (∃ outcome, (b.outcomes request.batch context state).result = .ok [outcome]) ∨
      ∃ e, (b.outcomes request.batch context state).result = .error e := by
  cases h : (b.outcomes request.batch context state).result with
  | ok outcomes =>
    have hlength := (length_of_outcomes h).trans (Request.size_batch request)
    obtain ⟨outcome, rfl⟩ := List.length_eq_one_iff.mp hlength
    exact .inl ⟨outcome, rfl⟩
  | error e => exact .inr ⟨e, rfl⟩

section
variable {b : Broker σ} {request : Request.Single op} {context : Context} {state : σ}

theorem single_of_outcome {outcome : Outcome op.Answer}
    (h : (b.outcomes request.batch context state).result = .ok [outcome]) (policy : Policy) :
    (b.single policy request context state).result =
      policy.finishSingle request.batch.elementContext outcome := by
  simp only [single, h, Except.bind, firstOutcome]

theorem single_of_error {e : Error}
    (h : (b.outcomes request.batch context state).result = .error e) (policy : Policy) :
    (b.single policy request context state).result = .error e := by
  simp only [single, h, Except.bind]

theorem outcome_of_single {outcome : Outcome op.Answer}
    (h : (b.single .variant request context state).result = .ok outcome) :
    (b.outcomes request.batch context state).result = .ok [outcome] := by
  obtain ⟨first, houtcome⟩ | ⟨e, he⟩ := outcomes_of_one b request context state
  · rw [single_of_outcome houtcome] at h
    cases h
    exact houtcome
  · rw [single_of_error he] at h
    cases h

end

theorem result_batch_of_one (b : Broker σ) (policy : Policy) (request : Request.Single op)
    (context : Context) (state : σ) :
    (b.batch policy request.batch context state).result =
      (b.single policy request context state).result.map policy.ofOne := by
  obtain ⟨outcome, h⟩ | ⟨e, h⟩ := outcomes_of_one b request context state
  · simp only [single_of_outcome h, batch, h, Except.bind, Policy.finishBatch_singleton]
  · simp only [single_of_error h, batch, h, Except.bind, Except.map]

/-- An error of an element is raised as that of the element at index 0. -/
theorem single_raises {b : Broker σ} {request : Request.Single op} {context : Context} {state : σ}
    {e : ElementError} {policy : Policy} (hpolicy : policy ≠ .variant)
    (h : (b.single .variant request context state).result = .ok (.error e)) :
    ∃ note, request.batch.EntityNote 0 note ∧
      (b.single policy request context state).result =
        .error (request.batch.raisedError e 0 note) := by
  have hsize : 0 < request.batch.size := by
    rw [Request.size_batch]
    exact Nat.one_pos
  obtain ⟨note, hnote, hraised⟩ := request.batch.exists_escalate e hsize
  refine ⟨note, hnote, ?_⟩
  rw [single_of_outcome (outcome_of_single h), ← hraised, ← List.head?_eq_getElem?]
  cases policy with
  | variant => exact absurd rfl hpolicy
  | default => rfl
  | exception => rfl

/-- A batch of one fails for want of an outcome only if the manager itself ended with that error. -/
theorem outcomes_noOutcome_iff (b : Broker σ) (request : Request.Single op) (context : Context)
    (state : σ) :
    (b.outcomes request.batch context state).result = .error BatchFault.noOutcome.toError ↔
      (b.manager.batch op request.batch context b.session state).verdict =
        .error BatchFault.noOutcome.toError := by
  rw [outcomes_of_asks (asks_batch request)]
  cases (b.manager.batch op request.batch context b.session state).verdict with
  | error e =>
    show Except.error e = _ ↔ Except.error e = _
    rw [Except.error.injEq, Except.error.injEq]
  | ok _ =>
    refine ⟨fun h => ?_, nofun⟩
    obtain ⟨i, hstray | hundelivered⟩ := Batch.fault_of_collect h
    · cases congrArg Error.kind hstray
    · cases congrArg Error.kind hundelivered

theorem single_noOutcome_iff (b : Broker σ) (policy : Policy) (request : Request.Single op)
    (context : Context) (state : σ) :
    (b.single policy request context state).result = .error BatchFault.noOutcome.toError ↔
      (b.manager.batch op request.batch context b.session state).verdict =
        .error BatchFault.noOutcome.toError := by
  rw [← outcomes_noOutcome_iff]
  obtain ⟨outcome, h⟩ | ⟨e, h⟩ := outcomes_of_one b request context state
  · -- what a policy makes of an outcome is an error of another kind
    rw [single_of_outcome h, h]
    refine ⟨fun hfinish => ?_, nofun⟩
    cases Policy.finishSingle_error_kind hfinish
  · rw [single_of_error h, h, Except.error.injEq, Except.error.injEq]

/-- A call for one element answers what the batch of one answers, with its element taken out: the
manager is asked the same and is left in the same state, the log is the same, and so is every error.
An element error that a policy raises has the index 0 and the notes of the batch of one. The error
that such a batch lacks its outcome is never made: who receives it was sent it by the manager. -/
theorem batch_of_one (b : Broker σ) (policy : Policy) (request : Request.Single op)
    (context : Context) (state : σ) :
    b.batch policy request.batch context state =
        (b.single policy request context state).map policy.ofOne ∧
      (∀ e, policy ≠ .variant → (b.single .variant request context state).result = .ok (.error e) →
        ∃ note, request.batch.EntityNote 0 note ∧
          (b.single policy request context state).result =
            .error (request.batch.raisedError e 0 note)) ∧
      ((b.single policy request context state).result =
          .error (.make .internal "single-item batch produced no outcome") ↔
        (b.manager.batch op request.batch context b.session state).verdict =
          .error (.make .internal "single-item batch produced no outcome")) :=
  ⟨congrArg (Reply.mk _ _) (result_batch_of_one b policy request context state),
    fun _ hpolicy hvariant => single_raises hpolicy hvariant,
    single_noOutcome_iff b policy request context state⟩

end Broker

end EntityBroker
