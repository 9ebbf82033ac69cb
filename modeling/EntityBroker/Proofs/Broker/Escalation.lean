import EntityBroker.Proofs.Broker.Workers

/-!
# What the policies make of one call

`batch_raises`: the default policy answers what the variant policy's answer determines. An error of
the call is the same under both; without element errors the values stay; otherwise the element error
of the lowest index becomes the error of the call, with the index, the access mode and the entity in
its message. The variant policy fails by the indices delivered for, never by an element error.
-/

namespace EntityBroker

variable {op : Operation}

-- ---------------------------------------------------------------- messages

/-- What a raised error says about the access mode; asking whether entities exist has none. -/
def Request.accessNote : Request op → String
  | .entityExists _ => ""
  | .entityTraits _ access => " [access=" ++ access.mode.name ++ "]"
  | .defaultEntityReference _ access => " [access=" ++ access.mode.name ++ "]"
  | .resolve _ _ access => " [access=" ++ access.mode.name ++ "]"
  | .preflight _ _ access => " [access=" ++ access.mode.name ++ "]"
  | .register _ _ access => " [access=" ++ access.mode.name ++ "]"

/-- What a raised error says about the entity at `index`. Asking for a default entity names none; in
every other operation there is an entity at the index, and the error names it. -/
def Request.EntityNote (request : Request op) (index : Nat) (note : String) : Prop :=
  if op = .defaultEntityReference then note = ""
  else ∃ reference, request.references[index]? = some reference ∧
    note = " [entity=" ++ reference.text ++ "]"

/-- The error of a call that the error of the element at `index` becomes. -/
def Request.raisedError (request : Request op) (e : ElementError) (index : Nat) (note : String) :
    Error where
  kind := .batchElement
  message := some (e.code.name ++ ":" ++ (if e.message = "" then "" else " " ++ e.message) ++
    s!" [index={index}]" ++ request.accessNote ++ note)
  path := none
  index := some index
  element := some e
  causes := []

/-- What a call under the variant policy and the same call under a raising policy answer. -/
inductive Raised (request : Request op) :
    Except Error (List (Outcome op.Answer)) → Except Error (List op.Answer) → Prop
  | callError (e : Error) : Raised request (.error e) (.error e)
  | values (values : List op.Answer) : Raised request (.ok (values.map .ok)) (.ok values)
  | elementError (before : List op.Answer) (e : ElementError) (rest : List (Outcome op.Answer))
      (note : String) (h : request.EntityNote before.length note) :
      Raised request (.ok (before.map .ok ++ .error e :: rest))
        (.error (request.raisedError e before.length note))

theorem Request.length_references {request : Request op} (h : op ≠ .defaultEntityReference) :
    request.references.length = request.size := by
  cases request with
  | defaultEntityReference traitSets access => exact absurd rfl h
  | _ => rfl

/-- The message of a raised error ends with the notes of its request. -/
theorem Request.exists_escalate (request : Request op) (e : ElementError) {index : Nat}
    (hi : index < request.size) :
    ∃ note, request.EntityNote index note ∧
      e.escalate index request.elementContext.access request.elementContext.references[index]? =
        request.raisedError e index note := by
  by_cases hop : op = .defaultEntityReference
  · subst hop
    refine ⟨"", by simp [EntityNote], ?_⟩
    cases request
    rfl
  · have hlt : index < request.references.length := by rwa [length_references hop]
    have hget : request.references[index]? = some request.references[index] :=
      List.getElem?_eq_getElem hlt
    refine ⟨_, by rw [EntityNote, if_neg hop]; exact ⟨_, hget, rfl⟩, ?_⟩
    have hreferences : request.elementContext.references = request.references := rfl
    rw [hreferences, hget]
    cases request with
    | defaultEntityReference traitSets access => exact absurd rfl hop
    | entityExists references =>
      simp [ElementError.escalate, elementContext, access?, raisedError, accessNote, Error.make,
        Error.withMessage, Error.ofKind]
    | _ => rfl

-- ---------------------------------------------------------------- raising

namespace Policy

variable {α : Type}

theorem raiseFirst_values (context : ElementContext) (index : Nat) (values : List α) :
    raiseFirst context index (values.map .ok) = .ok values := by
  induction values generalizing index with
  | nil => rfl
  | cons value values ih => simp [raiseFirst, ih, Except.map]

theorem raiseFirst_error (context : ElementContext) (index : Nat) (before : List α)
    (e : ElementError) (rest : List (Outcome α)) :
    raiseFirst context index (before.map .ok ++ .error e :: rest) =
      .error (e.escalate (index + before.length) context.access
        context.references[index + before.length]?) := by
  induction before generalizing index with
  | nil => rfl
  | cons value before ih =>
    have hshift : index + 1 + before.length = index + (before.length + 1) := by omega
    simp [raiseFirst, ih, Except.map, hshift]

/-- Outcomes are all values, or values up to a first error. -/
theorem values_or_error (outcomes : List (Outcome α)) :
    (∃ values : List α, outcomes = values.map .ok) ∨
      ∃ (before : List α) (e : ElementError) (rest : List (Outcome α)),
        outcomes = before.map .ok ++ .error e :: rest := by
  induction outcomes with
  | nil => exact .inl ⟨[], rfl⟩
  | cons outcome outcomes ih =>
    cases outcome with
    | error e => exact .inr ⟨[], e, outcomes, rfl⟩
    | ok value =>
      rcases ih with ⟨values, rfl⟩ | ⟨before, e, rest, rfl⟩
      · exact .inl ⟨value :: values, rfl⟩
      · exact .inr ⟨value :: before, e, rest, rfl⟩

theorem raiseFirst_error_kind {context : ElementContext} {index : Nat}
    {outcomes : List (Outcome α)} {e : Error}
    (h : raiseFirst context index outcomes = .error e) : e.kind = .batchElement := by
  rcases values_or_error outcomes with ⟨values, rfl⟩ | ⟨before, cause, rest, rfl⟩
  · rw [raiseFirst_values] at h
    cases h
  · rw [raiseFirst_error] at h
    cases h
    rfl

theorem finishBatch_error_kind {policy : Policy} {context : ElementContext}
    {outcomes : List (Outcome α)} {e : Error}
    (h : policy.finishBatch context outcomes = .error e) : e.kind = .batchElement := by
  cases policy with
  | variant => cases h
  | default => exact raiseFirst_error_kind h
  | exception => exact raiseFirst_error_kind h

theorem finishSingle_error_kind {policy : Policy} {context : ElementContext}
    {outcome : Outcome α} {e : Error}
    (h : policy.finishSingle context outcome = .error e) : e.kind = .batchElement := by
  cases policy <;> cases outcome <;> cases h <;> rfl

end Policy

theorem Raised.of_outcomes {request : Request op} {outcomes : List (Outcome op.Answer)}
    (hlen : outcomes.length = request.size) :
    Raised request (.ok outcomes) (Policy.raiseFirst request.elementContext 0 outcomes) := by
  rcases Policy.values_or_error outcomes with ⟨values, rfl⟩ | ⟨before, e, rest, rfl⟩
  · rw [Policy.raiseFirst_values]
    exact .values values
  · have hi : before.length < request.size := by
      simp only [List.length_append, List.length_map, List.length_cons] at hlen
      omega
    obtain ⟨note, hnote, hraised⟩ := request.exists_escalate e hi
    rw [Policy.raiseFirst_error, Nat.zero_add, hraised]
    exact .elementError before e rest note hnote

-- ---------------------------------------------------------------- the call

namespace Broker

variable {σ : Type}

theorem length_of_outcomes {b : Broker σ} {request : Request op} {context : Context} {state : σ}
    {outcomes : List (Outcome op.Answer)}
    (h : (b.outcomes request context state).result = .ok outcomes) :
    outcomes.length = request.size := by
  cases hf : lengthFault? request with
  | some fault =>
    rw [outcomes_refused hf] at h
    cases h
  | none =>
    by_cases hs : request.size = 0
    · rw [outcomes_of_empty hf hs] at h
      cases h
      exact hs.symm
    · rw [outcomes_of_asks ⟨hf, hs⟩] at h
      exact Batch.length_of_collect h

/-- A call fails under the variant policy whatever was delivered, as long as it was delivered for
the same indices. -/
theorem outcomes_error_of_indices {b : Broker σ} {request : Request op} {context : Context}
    {state : σ} {e : Error} {others : List (Delivery op.Answer)}
    (hi : others.map Delivery.index =
      (b.manager.batch op request context b.session state).deliveries.map Delivery.index)
    (h : (b.outcomes request context state).result = .error e) :
    ((b.delivering others).outcomes request context state).result = .error e := by
  cases hf : lengthFault? request with
  | some fault =>
    rw [outcomes_refused hf] at h ⊢
    exact h
  | none =>
    by_cases hs : request.size = 0
    · rw [outcomes_of_empty hf hs] at h
      cases h
    · rw [outcomes_of_asks ⟨hf, hs⟩] at h
      rw [outcomes_delivering_of_asks ⟨hf, hs⟩]
      exact Batch.collect_error_of_indices hi.symm h

theorem batch_variant_result (b : Broker σ) (request : Request op) (context : Context)
    (state : σ) :
    (b.batch .variant request context state).result =
      (b.outcomes request context state).result := by
  cases h : (b.outcomes request context state).result <;>
    simp [batch, h, Except.bind, Policy.finishBatch]

/-- A raising policy answers what the answer under the variant policy determines, with the same
effect on the manager and the same log. The two raising policies are one. Under the variant policy
an error of the call stays if every outcome delivered is replaced by any other. -/
theorem batch_raises (b : Broker σ) (request : Request op) (context : Context) (state : σ) :
    Raised request (b.batch .variant request context state).result
        (b.batch .default request context state).result ∧
      b.batch .exception request context state = b.batch .default request context state ∧
      (b.batch .default request context state).state =
        (b.batch .variant request context state).state ∧
      (b.batch .default request context state).logs =
        (b.batch .variant request context state).logs ∧
      ∀ (others : List (Delivery op.Answer)) (e : Error),
        others.map Delivery.index =
          (b.manager.batch op request context b.session state).deliveries.map Delivery.index →
        (b.batch .variant request context state).result = .error e →
        ((b.delivering others).batch .variant request context state).result = .error e := by
  refine ⟨?_, rfl, rfl, rfl, fun others e hi h => ?_⟩
  · rw [batch_variant_result]
    cases h : (b.outcomes request context state).result with
    | error e =>
      have hd : (b.batch .default request context state).result = .error e := by
        simp only [batch, h]
        rfl
      rw [hd]
      exact .callError e
    | ok outcomes =>
      have hd : (b.batch .default request context state).result =
          Policy.raiseFirst request.elementContext 0 outcomes := by
        simp only [batch, h]
        rfl
      rw [hd]
      exact .of_outcomes (length_of_outcomes h)
  · rw [batch_variant_result] at h ⊢
    exact outcomes_error_of_indices hi h

end Broker

end EntityBroker
