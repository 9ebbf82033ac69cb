import EntityBroker.Broker
import EntityBroker.Proofs.Batch.Interleaving

/-!
# Managers that deliver from several workers

The deliveries of a manager's reply are the one part of it that hangs on a schedule.
`batch_of_interleaving`: for workers that share no index, no schedule changes what a call answers,
under any policy; a stray delivery fails the call under every schedule.
-/

namespace EntityBroker

/-- The same manager, but it delivers `deliveries` for the batches of one operation. -/
def Manager.delivering {σ : Type} {op : Operation} (m : Manager σ)
    (deliveries : List (Delivery op.Answer)) : Manager σ :=
  { m with
    batch := fun asked request context session state =>
      let reply := m.batch asked request context session state
      if h : asked = op then { reply with deliveries := h ▸ deliveries } else reply }

namespace Broker

variable {σ : Type} {op : Operation}

def delivering (b : Broker σ) (deliveries : List (Delivery op.Answer)) : Broker σ :=
  { b with manager := b.manager.delivering deliveries }

@[simp] theorem session_delivering (b : Broker σ) (deliveries : List (Delivery op.Answer)) :
    (b.delivering deliveries).session = b.session := rfl

theorem batch_delivering (b : Broker σ) (deliveries : List (Delivery op.Answer))
    (request : Request op) (context : Context) (state : σ) :
    (b.delivering deliveries).manager.batch op request context b.session state =
      { b.manager.batch op request context b.session state with deliveries := deliveries } := by
  simp [delivering, Manager.delivering]

/-- Whether a request gets as far as the manager: it has elements, and as many of what goes with
them. -/
def Asks (request : Request op) : Prop := lengthFault? request = none ∧ request.size ≠ 0

theorem lengthFault?_eq_some {request : Request op} {fault : BatchFault}
    (h : lengthFault? request = some fault) :
    ∃ references others content, fault = .unequalLengths references others content := by
  unfold lengthFault? at h
  split at h
  · cases h
  · split at h
    · cases h
    · exact ⟨_, _, _, (Option.some.inj h).symm⟩

theorem outcomes_refused {request : Request op} {fault : BatchFault}
    (h : lengthFault? request = some fault) (b : Broker σ) (context : Context) (state : σ) :
    b.outcomes request context state = ⟨state, [], .error fault.toError⟩ := by
  simp only [outcomes, h]

theorem outcomes_of_empty {request : Request op} (h : lengthFault? request = none)
    (hs : request.size = 0) (b : Broker σ) (context : Context) (state : σ) :
    (b.outcomes request context state).result = .ok [] := by
  simp only [outcomes, h, hs, ↓reduceIte]

theorem outcomes_of_asks {request : Request op} (h : Asks request) (b : Broker σ)
    (context : Context) (state : σ) :
    (b.outcomes request context state).result =
      Batch.collect request.size (b.manager.batch op request context b.session state).deliveries
        (b.manager.batch op request context b.session state).verdict := by
  simp only [outcomes, h.1, h.2, ↓reduceIte]

theorem outcomes_delivering_of_asks {request : Request op} (h : Asks request) (b : Broker σ)
    (deliveries : List (Delivery op.Answer)) (context : Context) (state : σ) :
    ((b.delivering deliveries).outcomes request context state).result =
      Batch.collect request.size deliveries
        (b.manager.batch op request context b.session state).verdict := by
  rw [outcomes_of_asks h, session_delivering, batch_delivering]

/-- Deliveries that every verdict collects alike are the same to the caller. -/
theorem outcomes_delivering_congr (b : Broker σ) {ds es : List (Delivery op.Answer)}
    {request : Request op}
    (h : ∀ verdict, Batch.collect request.size ds verdict = Batch.collect request.size es verdict)
    (context : Context) (state : σ) :
    (b.delivering ds).outcomes request context state =
      (b.delivering es).outcomes request context state := by
  simp only [outcomes, session_delivering, batch_delivering, h]

/-- What a call answers does not depend on the schedule of the manager's workers. Where each of them
delivers for indices of its own that the batch has, every interleaving gives the reply that the
workers give one after the other. Where one of them strays, a manager that was asked and ended well
fails the call under every interleaving, by an index that some worker delivered for. -/
theorem batch_of_interleaving (b : Broker σ) (policy : Policy) (request : Request op)
    (context : Context) (state : σ) {workers : List (List (Delivery op.Answer))}
    {deliveries : List (Delivery op.Answer)} (h : Interleaving workers deliveries) :
    ((∀ w ∈ workers, ∀ d ∈ w, d.index < request.size) → Batch.Separate workers →
      (b.delivering deliveries).batch policy request context state =
        (b.delivering workers.flatten).batch policy request context state) ∧
    (Asks request → (b.manager.batch op request context b.session state).verdict = .ok () →
      (∃ w ∈ workers, ∃ d ∈ w, request.size ≤ d.index) →
      ∃ w ∈ workers, ∃ d ∈ w, request.size ≤ d.index ∧
        ((b.delivering deliveries).batch policy request context state).result =
          .error (.inputValidation
            s!"Index '{d.index}' out of bounds for batch size of {request.size}")) := by
  constructor
  · intro hr hs
    have hout := b.outcomes_delivering_congr (Batch.collect_interleaving h hr hs) context state
    simp only [batch, hout]
  · intro ha hv hr
    obtain ⟨w, hw, d, hd, hle, hc⟩ := Batch.collect_interleaving_stray h hr
    refine ⟨w, hw, d, hd, hle, ?_⟩
    simp only [batch, outcomes_delivering_of_asks ha, hv, hc]
    rfl

/-- Two workers, the first of which delivers twice for one index, under one of their schedules. -/
theorem batch_of_two_workers :
    let manager : Manager Unit :=
      { Manager.unsupported "m" "M" with batch := fun _ _ _ _ state => ⟨state, [], [], .ok ()⟩ }
    let b : Broker Unit := ⟨manager, ⟨"h", "H", Dict.empty⟩, .recording fun _ => true⟩
    let request : Request .entityExists := .entityExists [⟨"a"⟩, ⟨"b"⟩]
    let workers : List (List (Delivery Operation.entityExists.Answer)) :=
      [[⟨0, .ok false⟩, ⟨0, .ok true⟩], [⟨1, .ok false⟩]]
    let deliveries : List (Delivery Operation.entityExists.Answer) :=
      [⟨0, .ok false⟩, ⟨1, .ok false⟩, ⟨0, .ok true⟩]
    Interleaving workers deliveries ∧
      (∀ w ∈ workers, ∀ d ∈ w, d.index < request.size) ∧ Batch.Separate workers ∧
      ((b.delivering deliveries).batch .default request Context.empty ()).result =
        .ok [true, false] := by
  intro manager b request workers deliveries
  have h : Interleaving workers deliveries := by
    apply Interleaving.next [] [[_]]
    apply Interleaving.next [[_]] []
    apply Interleaving.next [] [[]]
    exact .done 2
  have hr : ∀ w ∈ workers, ∀ d ∈ w, d.index < request.size := by
    simp [workers, request, Request.size]
  have hs : Batch.Separate workers := by simp [Batch.Separate, workers]
  refine ⟨h, hr, hs, ?_⟩
  rw [(batch_of_interleaving b .default request Context.empty () h).1 hr hs]
  rfl

end Broker

end EntityBroker
