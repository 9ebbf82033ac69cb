import EntityBroker.Proofs.Batch.Collect

/-!
# Deliveries from several workers

Workers deliver side by side, each in an order of its own. Where no index belongs to two workers,
what an index gets last does not depend on how their deliveries fall between each other
(`collect_interleaving`); deliveries for one index keep their order, as they come from one worker.
-/

namespace EntityBroker

/-- One item after the other is taken from the front of any of the sequences, until all are used
up. -/
inductive Interleaving {α : Type} : List (List α) → List α → Prop
  | done (count : Nat) : Interleaving (List.replicate count []) []
  | next (before after : List (List α)) {item : α} {rest out : List α}
      (h : Interleaving (before ++ rest :: after) out) :
      Interleaving (before ++ (item :: rest) :: after) (item :: out)

namespace Interleaving

variable {α : Type} {sequences : List (List α)} {out : List α}

theorem mem_iff (h : Interleaving sequences out) (x : α) :
    x ∈ out ↔ ∃ s ∈ sequences, x ∈ s := by
  induction h with
  | done count => simp [List.mem_replicate]
  | @next before after item rest out _ ih =>
    rw [List.mem_cons, ih]
    constructor
    · rintro (rfl | ⟨s, hs, hx⟩)
      · exact ⟨x :: rest, by simp, by simp⟩
      · rcases List.mem_append.mp hs with hs | hs
        · exact ⟨s, by simp [hs], hx⟩
        · rcases List.mem_cons.mp hs with rfl | hs
          · exact ⟨item :: s, by simp, by simp [hx]⟩
          · exact ⟨s, by simp [hs], hx⟩
    · rintro ⟨s, hs, hx⟩
      rcases List.mem_append.mp hs with hs | hs
      · exact .inr ⟨s, by simp [hs], hx⟩
      · rcases List.mem_cons.mp hs with rfl | hs
        · rcases List.mem_cons.mp hx with rfl | hx
          · exact .inl rfl
          · exact .inr ⟨rest, by simp, hx⟩
        · exact .inr ⟨s, by simp [hs], hx⟩

/-- What only one of the sequences has items of comes in the order of that sequence. -/
theorem filter_eq {p : α → Bool} (h : Interleaving sequences out)
    (hp : sequences.Pairwise fun s t => s.filter p = [] ∨ t.filter p = []) :
    out.filter p = sequences.flatten.filter p := by
  induction h with
  | done count => simp
  | @next before after item rest out _ ih =>
    obtain ⟨hb, ha, hba⟩ := List.pairwise_append.mp hp
    obtain ⟨hia, ha⟩ := List.pairwise_cons.mp ha
    have hrest : ∀ {q : Prop}, (item :: rest).filter p = [] ∨ q → rest.filter p = [] ∨ q := by
      rintro q (h | h)
      · exact .inl (List.filter_eq_nil_iff.mpr fun x hx =>
          List.filter_eq_nil_iff.mp h x (List.mem_cons_of_mem _ hx))
      · exact .inr h
    have ih := ih (List.pairwise_append.mpr ⟨hb,
      List.pairwise_cons.mpr ⟨fun t ht => hrest (hia t ht), ha⟩, fun s hs t ht => by
        rcases List.mem_cons.mp ht with rfl | ht
        · exact (hrest (hba s hs _ (List.mem_cons_self ..)).symm).symm
        · exact hba s hs t (List.mem_cons_of_mem _ ht)⟩)
    by_cases hi : p item
    · -- the item goes before everything of `before`, which has nothing of the kind
      have hnone : before.flatten.filter p = [] := by
        rw [List.filter_flatten, List.flatten_eq_nil_iff]
        intro l hl
        obtain ⟨s, hs, rfl⟩ := List.mem_map.mp hl
        rcases hba s hs _ (List.mem_cons_self ..) with h | h
        · exact h
        · simp [hi] at h
      simp [ih, hi, hnone]
    · simp [ih, hi]

end Interleaving

namespace Batch

variable {α : Type} {workers : List (List (Delivery α))} {deliveries : List (Delivery α)}

/-- No two workers deliver for one index. -/
def Separate (workers : List (List (Delivery α))) : Prop :=
  workers.Pairwise fun v w => ∀ d ∈ v, ∀ e ∈ w, d.index ≠ e.index

theorem Separate.lastOutcome?_eq (hs : Separate workers) (h : Interleaving workers deliveries)
    (i : Nat) : lastOutcome? deliveries i = lastOutcome? workers.flatten i := by
  have hone : workers.Pairwise fun v w =>
      (v.filter fun d => d.index = i) = [] ∨ (w.filter fun d => d.index = i) = [] := by
    refine hs.imp fun {v w} hvw => ?_
    by_cases hv : ∃ d ∈ v, d.index = i
    · obtain ⟨d, hd, hdi⟩ := hv
      right
      simpa using fun e he => hdi ▸ (hvw d hd e he).symm
    · left
      simpa using hv
  rw [lastOutcome?, h.filter_eq hone, lastOutcome?]

theorem firstStray?_interleaving (h : Interleaving workers deliveries) {size : Nat}
    (hr : ∀ w ∈ workers, ∀ d ∈ w, d.index < size) : firstStray? size deliveries = none := by
  refine firstStray?_eq_none.mpr fun d hd => ?_
  obtain ⟨w, hw, hdw⟩ := (h.mem_iff d).mp hd
  exact hr w hw d hdw

/-- A batch comes to the same however the deliveries of its workers fall between each other. -/
theorem collect_interleaving (h : Interleaving workers deliveries) {size : Nat}
    (hr : ∀ w ∈ workers, ∀ d ∈ w, d.index < size) (hs : Separate workers)
    (verdict : Except Error Unit) :
    collect size deliveries verdict = collect size workers.flatten verdict := by
  refine collect_congr ?_ (fun i _ => hs.lastOutcome?_eq h i) verdict
  rw [firstStray?_interleaving h hr, eq_comm, firstStray?_eq_none]
  intro d hd
  obtain ⟨w, hw, hdw⟩ := List.mem_flatten.mp hd
  exact hr w hw d hdw

/-- One stray delivery of any worker fails the batch, with the index of some stray delivery. -/
theorem collect_interleaving_stray (h : Interleaving workers deliveries) {size : Nat}
    (hr : ∃ w ∈ workers, ∃ d ∈ w, size ≤ d.index) :
    ∃ w ∈ workers, ∃ d ∈ w, size ≤ d.index ∧
      collect size deliveries (.ok ()) = .error (BatchFault.stray d.index size).toError := by
  cases hf : firstStray? size deliveries with
  | none =>
    obtain ⟨w, hw, d, hd, hle⟩ := hr
    have hlt := firstStray?_eq_none.mp hf d ((h.mem_iff d).mpr ⟨w, hw, hd⟩)
    omega
  | some i =>
    obtain ⟨d, hd, rfl, hle⟩ := firstStray?_mem hf
    obtain ⟨w, hw, hdw⟩ := (h.mem_iff d).mp hd
    exact ⟨w, hw, d, hdw, hle, collect_stray hf⟩

end Batch

end EntityBroker
