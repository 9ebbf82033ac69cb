import EntityBroker.Batch

/-!
# What a batch collects

`collect_by_precedence`: the manager's error, else the first stray index, else the lowest index
without an outcome, else the last outcome of every index. The slots after a run of deliveries are
read off the deliveries alone: slot `i` holds the last outcome for `i`, and the stray index is the
first one that is not below the size.
-/

namespace EntityBroker.Batch

variable {α : Type}

/-- The outcome that the last delivery for an index brought. -/
def lastOutcome? (deliveries : List (Delivery α)) (index : Nat) : Option (Outcome α) :=
  (deliveries.filter fun d => d.index = index).getLast?.map Delivery.outcome

/-- The first index delivered for that a batch of `size` elements does not have. -/
def firstStray? (size : Nat) (deliveries : List (Delivery α)) : Option Nat :=
  (deliveries.map Delivery.index).find? fun i => size ≤ i

-- ---------------------------------------------------------------- deliveries

theorem lastOutcome?_cons (d : Delivery α) (rest : List (Delivery α)) (i : Nat) :
    lastOutcome? (d :: rest) i =
      (lastOutcome? rest i).or (if d.index = i then some d.outcome else none) := by
  by_cases h : d.index = i
  · cases hr : (rest.filter fun d => d.index = i).getLast? <;>
      simp [lastOutcome?, h, List.getLast?_cons, hr]
  · simp [lastOutcome?, h]

theorem lastOutcome?_eq_none {deliveries : List (Delivery α)} {i : Nat} :
    lastOutcome? deliveries i = none ↔ ∀ d ∈ deliveries, d.index ≠ i := by
  simp [lastOutcome?]

theorem lastOutcome?_isSome {deliveries : List (Delivery α)} {i : Nat} :
    (lastOutcome? deliveries i).isSome ↔ ∃ d ∈ deliveries, d.index = i := by
  rw [Option.isSome_iff_ne_none, ne_eq, lastOutcome?_eq_none]
  simp

theorem firstStray?_eq_none {size : Nat} {deliveries : List (Delivery α)} :
    firstStray? size deliveries = none ↔ ∀ d ∈ deliveries, d.index < size := by
  simp [firstStray?]

theorem firstStray?_mem {size i : Nat} {deliveries : List (Delivery α)}
    (h : firstStray? size deliveries = some i) : ∃ d ∈ deliveries, d.index = i ∧ size ≤ i := by
  obtain ⟨d, hd, rfl⟩ := List.mem_map.mp (List.mem_of_find?_eq_some h)
  exact ⟨d, hd, rfl, by simpa using List.find?_some h⟩

-- ---------------------------------------------------------------- the slots

/-- Setting a slot that is not there changes nothing, so a stray delivery needs no case. -/
theorem Slots.outcomes_store (slots : Slots α) (d : Delivery α) :
    (slots.store d).outcomes = slots.outcomes.set d.index (some d.outcome) := by
  unfold Slots.store
  split
  · rfl
  · rename_i h
    exact (List.set_eq_of_length_le (Nat.le_of_not_lt h)).symm

theorem Slots.stray_store (slots : Slots α) (d : Delivery α) :
    (slots.store d).stray =
      slots.stray.or (if slots.outcomes.length ≤ d.index then some d.index else none) := by
  unfold Slots.store
  split
  · rename_i h
    simp [Nat.not_le.mpr h]
  · rename_i h
    simp [Nat.le_of_not_lt h]

theorem Slots.length_storeAll (deliveries : List (Delivery α)) (slots : Slots α) :
    (deliveries.foldl Slots.store slots).outcomes.length = slots.outcomes.length := by
  induction deliveries generalizing slots with
  | nil => rfl
  | cons d rest ih => rw [List.foldl_cons, ih, outcomes_store, List.length_set]

/-- A slot holds the last outcome for its index, or what it held before if there was none. -/
theorem Slots.getElem?_storeAll (deliveries : List (Delivery α)) (slots : Slots α) {i : Nat}
    (hi : i < slots.outcomes.length) :
    (deliveries.foldl Slots.store slots).outcomes[i]? =
      some ((lastOutcome? deliveries i).or slots.outcomes[i]) := by
  induction deliveries generalizing slots with
  | nil => simp [lastOutcome?, hi]
  | cons d rest ih =>
    have hs : i < (slots.store d).outcomes.length := by simpa [outcomes_store] using hi
    rw [List.foldl_cons, ih _ hs, lastOutcome?_cons]
    simp only [outcomes_store, List.getElem_set]
    by_cases h : d.index = i <;> simp [h]

theorem Slots.stray_storeAll (deliveries : List (Delivery α)) (slots : Slots α) :
    (deliveries.foldl Slots.store slots).stray =
      slots.stray.or (firstStray? slots.outcomes.length deliveries) := by
  induction deliveries generalizing slots with
  | nil => simp [firstStray?]
  | cons d rest ih =>
    rw [List.foldl_cons, ih, stray_store, Option.or_assoc, outcomes_store, List.length_set]
    by_cases h : slots.outcomes.length ≤ d.index <;> simp [firstStray?, h]

theorem Slots.outcomes_storeAll_empty (size : Nat) (deliveries : List (Delivery α)) :
    (deliveries.foldl Slots.store (Slots.empty size)).outcomes =
      (List.range size).map (lastOutcome? deliveries) := by
  refine List.ext_getElem? fun i => ?_
  by_cases hi : i < size
  · rw [Slots.getElem?_storeAll deliveries (Slots.empty size) (by simpa [Slots.empty] using hi)]
    simp [Slots.empty, hi]
  · rw [List.getElem?_eq_none, List.getElem?_eq_none]
    · simpa using hi
    · rw [Slots.length_storeAll]
      simpa [Slots.empty] using hi

-- ---------------------------------------------------------------- the final pass

theorem takeOutcomes_eq_ok {size index : Nat} {slots : List (Option (Outcome α))}
    {outcomes : List (Outcome α)} :
    takeOutcomes size index slots = .ok outcomes ↔ slots = outcomes.map some := by
  induction slots generalizing index outcomes with
  | nil => cases outcomes <;> simp [takeOutcomes]
  | cons slot slots ih =>
    cases slot with
    | none => cases outcomes <;> simp [takeOutcomes]
    | some outcome =>
      cases outcomes with
      | nil => cases h : takeOutcomes size (index + 1) slots <;> simp [takeOutcomes, h, Except.map]
      | cons first others =>
        rw [List.map_cons, List.cons.injEq, ← @ih (index + 1)]
        cases h : takeOutcomes size (index + 1) slots <;> simp [takeOutcomes, h, Except.map]

/-- The pass stops at the first slot that is empty. -/
theorem takeOutcomes_eq_error {size index : Nat} {slots : List (Option (Outcome α))}
    {fault : BatchFault} :
    takeOutcomes size index slots = .error fault ↔
      ∃ i, slots[i]? = some none ∧ (∀ j < i, slots[j]? ≠ some none) ∧
        fault = .undelivered (index + i) size := by
  induction slots generalizing index with
  | nil => simp [takeOutcomes]
  | cons slot slots ih =>
    cases slot with
    | none =>
      constructor
      · intro h
        exact ⟨0, rfl, fun j hj => absurd hj (Nat.not_lt_zero j), by
          simpa [takeOutcomes, eq_comm] using h⟩
      · rintro ⟨i, -, hlow, rfl⟩
        cases i with
        | zero => rfl
        | succ i => exact absurd rfl (hlow 0 (Nat.succ_pos i))
    | some outcome =>
      have hrest : takeOutcomes size index (some outcome :: slots) = .error fault ↔
          takeOutcomes size (index + 1) slots = .error fault := by
        cases h : takeOutcomes size (index + 1) slots <;> simp [takeOutcomes, h, Except.map]
      rw [hrest, ih]
      constructor
      · rintro ⟨i, hi, hlow, rfl⟩
        refine ⟨i + 1, hi, fun j hj => ?_, by rw [Nat.add_right_comm, Nat.add_assoc]⟩
        cases j with
        | zero => simp
        | succ j => exact hlow j (Nat.lt_of_succ_lt_succ hj)
      · rintro ⟨i, hi, hlow, rfl⟩
        cases i with
        | zero => simp at hi
        | succ i =>
          exact ⟨i, hi, fun j hj => hlow (j + 1) (Nat.succ_lt_succ hj), by
            rw [Nat.add_right_comm, Nat.add_assoc]⟩

-- ---------------------------------------------------------------- collecting

/-- A batch that the manager did not fail depends on its deliveries by the first stray index and by
the last outcome of each index. -/
theorem collect_ok (size : Nat) (deliveries : List (Delivery α)) :
    collect size deliveries (.ok ()) =
      match firstStray? size deliveries with
      | some i => .error (BatchFault.stray i size).toError
      | none => (takeOutcomes size 0 ((List.range size).map (lastOutcome? deliveries))).mapError
          BatchFault.toError := by
  have hlen : (deliveries.foldl Slots.store (Slots.empty size)).outcomes.length = size := by
    simp [Slots.length_storeAll, Slots.empty]
  have hstray : (deliveries.foldl Slots.store (Slots.empty size)).stray =
      firstStray? size deliveries := by
    simp [Slots.stray_storeAll, Slots.empty]
  rw [collect, Slots.finish, hstray, hlen, Slots.outcomes_storeAll_empty]
  cases firstStray? size deliveries <;> rfl

theorem collect_congr {size : Nat} {ds es : List (Delivery α)}
    (hs : firstStray? size ds = firstStray? size es)
    (hl : ∀ i < size, lastOutcome? ds i = lastOutcome? es i) (verdict : Except Error Unit) :
    collect size ds verdict = collect size es verdict := by
  cases verdict with
  | error e => rfl
  | ok _ =>
    have hslots : (List.range size).map (lastOutcome? ds) =
        (List.range size).map (lastOutcome? es) :=
      List.map_congr_left fun i hi => hl i (List.mem_range.mp hi)
    rw [collect_ok, collect_ok, hs, hslots]

theorem collect_stray {size i : Nat} {deliveries : List (Delivery α)}
    (h : firstStray? size deliveries = some i) :
    collect size deliveries (.ok ()) = .error (BatchFault.stray i size).toError := by
  rw [collect_ok, h]

theorem collect_undelivered {size i : Nat} {deliveries : List (Delivery α)}
    (hs : firstStray? size deliveries = none) (hi : i < size)
    (hnone : lastOutcome? deliveries i = none)
    (hlow : ∀ j < i, (lastOutcome? deliveries j).isSome) :
    collect size deliveries (.ok ()) = .error (BatchFault.undelivered i size).toError := by
  have hslot : ∀ j < size, ((List.range size).map (lastOutcome? deliveries))[j]? =
      some (lastOutcome? deliveries j) := fun j hj => by simp [hj]
  have htake : takeOutcomes size 0 ((List.range size).map (lastOutcome? deliveries)) =
      .error (.undelivered (0 + i) size) := by
    refine takeOutcomes_eq_error.mpr ⟨i, by rw [hslot i hi, hnone], fun j hj => ?_, rfl⟩
    rw [hslot j (Nat.lt_trans hj hi), ne_eq, Option.some.injEq]
    exact Option.isSome_iff_ne_none.mp (hlow j hj)
  rw [collect_ok, hs, htake, Nat.zero_add]
  rfl

theorem collect_complete {size : Nat} {deliveries : List (Delivery α)}
    (hs : firstStray? size deliveries = none)
    (hall : ∀ i < size, (lastOutcome? deliveries i).isSome) :
    ∃ outcomes, collect size deliveries (.ok ()) = .ok outcomes ∧ outcomes.length = size ∧
      ∀ i < size, outcomes[i]? = lastOutcome? deliveries i := by
  rw [collect_ok, hs]
  cases h : takeOutcomes size 0 ((List.range size).map (lastOutcome? deliveries)) with
  | error fault =>
    obtain ⟨i, hi, -⟩ := takeOutcomes_eq_error.mp h
    simp only [List.getElem?_map, Option.map_eq_some_iff] at hi
    obtain ⟨j, hj, hnone⟩ := hi
    have hlt : j < size := List.mem_range.mp (List.mem_of_getElem? hj)
    exact absurd hnone (Option.isSome_iff_ne_none.mp (hall j hlt))
  | ok outcomes =>
    have hslots := takeOutcomes_eq_ok.mp h
    refine ⟨outcomes, rfl, by simpa using (congrArg List.length hslots).symm, fun i hi => ?_⟩
    have hat := congrArg (fun slots => slots[i]?) hslots
    simp only [List.getElem?_map, List.getElem?_range hi, Option.map_some] at hat
    cases ho : outcomes[i]? <;> simp_all

/-- A batch that the manager did not fail can fail by an index only, a stray one or one without an
outcome. -/
theorem fault_of_collect {size : Nat} {deliveries : List (Delivery α)} {e : Error}
    (h : collect size deliveries (.ok ()) = .error e) :
    ∃ i, e = (BatchFault.stray i size).toError ∨ e = (BatchFault.undelivered i size).toError := by
  rw [collect_ok] at h
  split at h
  · exact ⟨_, .inl (Except.error.inj h).symm⟩
  · cases ht : takeOutcomes size 0 ((List.range size).map (lastOutcome? deliveries)) with
    | ok outcomes =>
      rw [ht] at h
      cases h
    | error fault =>
      obtain ⟨i, -, -, rfl⟩ := takeOutcomes_eq_error.mp ht
      rw [ht] at h
      exact ⟨_, .inr (Except.error.inj h).symm⟩

theorem length_of_collect {size : Nat} {deliveries : List (Delivery α)}
    {verdict : Except Error Unit} {outcomes : List (Outcome α)}
    (h : collect size deliveries verdict = .ok outcomes) : outcomes.length = size := by
  cases verdict with
  | error e => cases h
  | ok _ =>
    rw [collect_ok] at h
    split at h
    · cases h
    · cases ht : takeOutcomes size 0 ((List.range size).map (lastOutcome? deliveries)) with
      | error fault =>
        rw [ht] at h
        cases h
      | ok all =>
        rw [ht] at h
        have hall : all = outcomes := Except.ok.inj h
        subst hall
        simpa using (congrArg List.length (takeOutcomes_eq_ok.mp ht)).symm

/-- A batch fails by the indices delivered for alone, not by what was delivered. -/
theorem collect_error_of_indices {size : Nat} {ds es : List (Delivery α)}
    {verdict : Except Error Unit} {e : Error}
    (hi : ds.map Delivery.index = es.map Delivery.index)
    (h : collect size ds verdict = .error e) : collect size es verdict = .error e := by
  have hstray : firstStray? size es = firstStray? size ds := by rw [firstStray?, ← hi, firstStray?]
  have hnone : ∀ i, lastOutcome? es i = none ↔ lastOutcome? ds i = none := by
    intro i
    have hindices : ∀ deliveries : List (Delivery α),
        lastOutcome? deliveries i = none ↔ i ∉ deliveries.map Delivery.index := by
      simp [lastOutcome?_eq_none]
    rw [hindices, hindices, hi]
  cases verdict with
  | error _ => exact h
  | ok _ =>
    rw [collect_ok] at h ⊢
    rw [hstray]
    split at h
    · exact h
    · cases ht : takeOutcomes size 0 ((List.range size).map (lastOutcome? ds)) with
      | ok all =>
        rw [ht] at h
        cases h
      | error fault =>
        obtain ⟨i, hgap, hlow, hf⟩ := takeOutcomes_eq_error.mp ht
        have he : takeOutcomes size 0 ((List.range size).map (lastOutcome? es)) = .error fault := by
          refine takeOutcomes_eq_error.mpr ⟨i, ?_, fun j hj => ?_, hf⟩
          · simpa [hnone] using hgap
          · simpa [hnone] using hlow j hj
        rw [ht] at h
        rw [he]
        exact h

/-- What a batch comes to, in order of precedence: the manager's own error whatever was delivered;
the first stray index in the order of delivery; the lowest index without an outcome; and if there is
none of these, the outcome delivered last for each index. -/
theorem collect_by_precedence (size : Nat) (deliveries : List (Delivery α))
    (verdict : Except Error Unit) :
    (∀ e, verdict = .error e → collect size deliveries verdict = .error e) ∧
    (∀ i, verdict = .ok () → firstStray? size deliveries = some i →
      collect size deliveries verdict =
        .error (.inputValidation s!"Index '{i}' out of bounds for batch size of {size}")) ∧
    (∀ i, verdict = .ok () → (∀ d ∈ deliveries, d.index < size) →
      i < size → (∀ d ∈ deliveries, d.index ≠ i) → (∀ j < i, ∃ d ∈ deliveries, d.index = j) →
      collect size deliveries verdict =
        .error (.make .unhandled s!"Manager returned without a result for index {i} of {size}")) ∧
    (verdict = .ok () → (∀ d ∈ deliveries, d.index < size) →
      (∀ i < size, ∃ d ∈ deliveries, d.index = i) →
      ∃ outcomes, collect size deliveries verdict = .ok outcomes ∧ outcomes.length = size ∧
        ∀ i < size, outcomes[i]? = lastOutcome? deliveries i) := by
  refine ⟨?_, ?_, ?_, ?_⟩
  · rintro e rfl
    rfl
  · rintro i rfl hi
    exact collect_stray hi
  · rintro i rfl hrange hi hnone hlow
    exact collect_undelivered (firstStray?_eq_none.mpr hrange) hi (lastOutcome?_eq_none.mpr hnone)
      fun j hj => lastOutcome?_isSome.mpr (hlow j hj)
  · rintro rfl hrange hall
    exact collect_complete (firstStray?_eq_none.mpr hrange)
      fun i hi => lastOutcome?_isSome.mpr (hall i hi)

example : collect 2 [⟨1, .ok 5⟩, ⟨0, .ok 3⟩, ⟨1, .ok 7⟩] (.ok ()) = .ok [.ok 3, .ok 7] := rfl

end EntityBroker.Batch
