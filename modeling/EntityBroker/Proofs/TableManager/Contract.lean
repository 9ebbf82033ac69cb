import EntityBroker.TableManager
import EntityBroker.Proofs.Broker.Escalation

/-!
# The table manager and the contract of batches

A manager owes the broker one of two things for a batch: to refuse all of it and deliver nothing, or
to deliver for every element. `batch_keeps_contract`: the table manager refuses exactly the
operations it has no capability for, and otherwise delivers once for each element, in order. The
broker then has nothing to complain about; all that is left to fail a call is the caller's lists,
the capability, or an element error that the policy raises.
-/

namespace EntityBroker.TableManager

variable {op : Operation}

/-- What is registered comes in pairs of a reference and data. -/
def InPairs : Request op → Prop
  | .register references datas _ => references.length = datas.length
  | _ => True

/-- An error that blames the manager: it left an element out, or delivered for one that the batch
does not have. -/
def BlamesManager (e : Error) : Prop :=
  e.kind = .unhandled ∨
    ∃ index size : Nat,
      e = .inputValidation s!"Index '{index}' out of bounds for batch size of {size}"

/-- What else fails a call: lists that do not go together, a capability that is missing, or an
element error that became the error of the call. -/
inductive Excused (op : Operation) : Error → Prop
  | lengths (references others : Nat) (content : String) :
      Excused op (BatchFault.unequalLengths references others content).toError
  | capability : Excused op (missingCapability op)
  | element (e : Error) (h : e.kind = .batchElement) : Excused op e

-- ---------------------------------------------------------------- outcomes in order

theorem length_answer {request : Request op} (h : InPairs request) (state : State) :
    (answer state request).2.length = request.size := by
  cases request with
  | register references datas access =>
    have hlengths : references.length = datas.length := h
    have hpairs : (registrations references datas).length = references.length := by
      rw [registrations, List.length_zip, ← hlengths, Nat.min_self]
    exact (List.length_map ..).trans hpairs
  | _ => exact List.length_map ..

section
variable {α : Type} (outcomes : List (Outcome α))

theorem index_inOrder : (inOrder outcomes).map Delivery.index = List.range outcomes.length := by
  have hindex : Delivery.index ∘ (fun p : Outcome α × Nat => Delivery.mk p.2 p.1) = Prod.snd := rfl
  rw [inOrder, List.map_map, hindex, List.zipIdx_map_snd, List.range_eq_range']

theorem index_lt_of_mem_inOrder {d : Delivery α} (h : d ∈ inOrder outcomes) :
    d.index < outcomes.length := by
  have hmem : d.index ∈ (inOrder outcomes).map Delivery.index := List.mem_map_of_mem h
  rwa [index_inOrder, List.mem_range] at hmem

theorem exists_mem_inOrder {i : Nat} (h : i < outcomes.length) :
    ∃ d ∈ inOrder outcomes, d.index = i := by
  have hmem : i ∈ (inOrder outcomes).map Delivery.index := by
    rwa [index_inOrder, List.mem_range]
  exact List.mem_map.mp hmem

/-- Outcomes that are delivered in order make a complete batch. -/
theorem collect_inOrder : ∃ collected,
    Batch.collect outcomes.length (inOrder outcomes) (.ok ()) = .ok collected := by
  have hstray : Batch.firstStray? outcomes.length (inOrder outcomes) = none :=
    Batch.firstStray?_eq_none.mpr fun _ hd => index_lt_of_mem_inOrder outcomes hd
  obtain ⟨collected, hcollected, -⟩ := Batch.collect_complete hstray
    fun _ hi => Batch.lastOutcome?_isSome.mpr (exists_mem_inOrder outcomes hi)
  exact ⟨collected, hcollected⟩

end

-- ---------------------------------------------------------------- one batch

theorem batch_of_has {state : State} (h : state.has (required op) = true) (request : Request op) :
    batch op request state =
      ⟨(answer state request).1, [], inOrder (answer state request).2, .ok ()⟩ := by
  rw [batch, if_pos h]

theorem batch_of_not_has {state : State} (h : state.has (required op) = false)
    (request : Request op) :
    batch op request state = ⟨state, [], [], .error (missingCapability op)⟩ := by
  rw [batch, h]
  rfl

-- ---------------------------------------------------------------- what a call fails with

theorem not_blamesManager_of_kind {e : Error} (hunhandled : e.kind ≠ .unhandled)
    (hinput : e.kind ≠ .inputValidation) : ¬ BlamesManager e := by
  rintro (hkind | ⟨index, size, rfl⟩)
  · exact hunhandled hkind
  · exact hinput rfl

/-- The error for lists of unequal lengths is of the same kind as the one for a stray index, but its
message begins otherwise. -/
theorem not_blamesManager_unequalLengths (references others : Nat) (content : String) :
    ¬ BlamesManager (BatchFault.unequalLengths references others content).toError := by
  rintro (hkind | ⟨index, size, h⟩)
  · cases hkind
  · have hmessage := Option.some.inj (congrArg Error.message h)
    have hfirst := congrArg (fun message => message.toList.head?) hmessage
    simp [toString] at hfirst

theorem Excused.not_blamesManager {e : Error} (h : Excused op e) : ¬ BlamesManager e := by
  cases h with
  | lengths references others content =>
    exact not_blamesManager_unequalLengths references others content
  | capability => exact not_blamesManager_of_kind nofun nofun
  | element _ hkind => exact not_blamesManager_of_kind (by simp [hkind]) (by simp [hkind])

theorem bind_error {α β : Type} {x : Except Error α} {f : α → Except Error β} {e : Error} :
    x.bind f = .error e ↔ x = .error e ∨ ∃ a, x = .ok a ∧ f a = .error e := by
  cases x <;> simp [Except.bind]

-- ---------------------------------------------------------------- the broker

theorem inPairs_of_lengthFault? {request : Request op} (h : Broker.lengthFault? request = none) :
    InPairs request := by
  cases request with
  | register references datas access =>
    simp only [Broker.lengthFault?, Request.companion?, ite_eq_left_iff, reduceCtorEq, imp_false,
      Decidable.not_not] at h
    exact h.symm
  | _ => trivial

section
variable {b : Broker State} {context : Context} {state : State} {policy : Policy} {e : Error}

theorem excused_of_outcomes (hb : b.manager = manager) {request : Request op}
    (h : (b.outcomes request context state).result = .error e) : Excused op e := by
  cases hf : Broker.lengthFault? request with
  | some fault =>
    obtain ⟨references, others, content, rfl⟩ := Broker.lengthFault?_eq_some hf
    rw [Broker.outcomes_refused hf] at h
    cases h
    exact .lengths references others content
  | none =>
    by_cases hs : request.size = 0
    · rw [Broker.outcomes_of_empty hf hs] at h
      cases h
    · rw [Broker.outcomes_of_asks ⟨hf, hs⟩, hb] at h
      cases hp : state.has (required op) with
      | false =>
        simp only [manager, batch_of_not_has hp, Batch.collect] at h
        cases h
        exact .capability
      | true =>
        obtain ⟨collected, hcollected⟩ := collect_inOrder (answer state request).2
        rw [length_answer (inPairs_of_lengthFault? hf)] at hcollected
        simp only [manager, batch_of_has hp, hcollected] at h
        cases h

theorem excused_of_batch (hb : b.manager = manager) {request : Request op}
    (h : (b.batch policy request context state).result = .error e) : Excused op e := by
  have hbind : (b.outcomes request context state).result.bind
      (policy.finishBatch request.elementContext) = .error e := h
  rcases bind_error.mp hbind with houtcomes | ⟨outcomes, -, hfinish⟩
  · exact excused_of_outcomes hb houtcomes
  · exact .element e (Policy.finishBatch_error_kind hfinish)

theorem excused_of_single (hb : b.manager = manager) {one : Request.Single op}
    (h : (b.single policy one context state).result = .error e) : Excused op e := by
  have hbind : ((b.outcomes one.batch context state).result.bind Broker.firstOutcome).bind
      (policy.finishSingle one.batch.elementContext) = .error e := h
  rcases bind_error.mp hbind with hfirst | ⟨outcome, -, hfinish⟩
  · rcases bind_error.mp hfirst with houtcomes | ⟨outcomes, houtcomes, hnone⟩
    · exact excused_of_outcomes hb houtcomes
    · -- a batch of one has an outcome
      have hlength := (Broker.length_of_outcomes houtcomes).trans (Request.size_batch one)
      cases outcomes with
      | nil => cases hlength
      | cons outcome rest => cases hnone
  · exact .element e (Policy.finishSingle_error_kind hfinish)

end

/-- The table manager refuses the operations that it lacks the capability for, and only these: it
then delivers nothing and stays as it is. Otherwise it ends well and delivers once for each element,
in order. No call of a broker on it ends in an error that blames the manager. -/
theorem batch_keeps_contract (request : Request op) (context : Context) (session : Session)
    (state : State) :
    let reply := manager.batch op request context session state
    ((∃ e, reply.verdict = .error e ∧ e.kind = .notImplemented) ↔
      state.has (required op) = false) ∧
    (state.has (required op) = false → reply.deliveries = [] ∧ reply.state = state) ∧
    (state.has (required op) = true → reply.verdict = .ok () ∧
      (InPairs request → reply.deliveries.map Delivery.index = List.range request.size)) ∧
    (∀ policy e, (Broker.batch ⟨manager, session⟩ policy request context state).result = .error e →
      ¬ BlamesManager e) ∧
    ∀ policy (one : Request.Single op) e,
      (Broker.single ⟨manager, session⟩ policy one context state).result = .error e →
        ¬ BlamesManager e := by
  intro reply
  have hreply : reply = batch op request state := rfl
  refine ⟨⟨?_, fun hp => ?_⟩, fun hp => ?_, fun hp => ⟨?_, fun hpairs => ?_⟩,
    fun _ _ h => (excused_of_batch rfl h).not_blamesManager,
    fun _ _ _ h => (excused_of_single rfl h).not_blamesManager⟩
  · rintro ⟨e, he, -⟩
    refine Bool.eq_false_iff.mpr fun hp => ?_
    rw [hreply, batch_of_has hp] at he
    cases he
  · rw [hreply, batch_of_not_has hp]
    exact ⟨_, rfl, rfl⟩
  · rw [hreply, batch_of_not_has hp]
    exact ⟨rfl, rfl⟩
  · rw [hreply, batch_of_has hp]
  · rw [hreply, batch_of_has hp, index_inOrder, length_answer hpairs]

end EntityBroker.TableManager
