import Mathlib.Data.Finset.Card
import Mathlib.Data.Finset.Range
import EntityBroker.Boundary.Custody
import EntityBroker.Dict

/-!
# The ledger of owners

What the changes of a ledger do is said by who owns what afterwards. A manager that has been
released stays released (`IsReleased.step`), every manager is either owned or released and counted
once (`released_add_owned`), and letting a handle go releases its manager if no other handle owns it
(`released_release_of_last`, `released_release_of_other`).
-/

namespace EntityBroker.Boundary.Custody

variable {η : Type} {c next : Custody η} {handle other : η} {manager : Nat}

/-- A handle is in the ledger once, and what it owns is a manager that there has been. -/
structure Valid (c : Custody η) : Prop where
  once : (c.owners.map Prod.fst).Nodup
  numbered : ∀ owner ∈ c.owners, owner.2 < c.managers

theorem Valid.empty : Valid (empty : Custody η) := ⟨List.nodup_nil, fun _ h => by cases h⟩

/-- The managers that some handle owns. -/
def held (c : Custody η) : Finset Nat := (c.owners.map Prod.snd).toFinset

theorem isOwned_iff : c.isOwned manager = true ↔ manager ∈ c.held := by
  simp [isOwned, held]

theorem released_eq_card (c : Custody η) :
    c.released = ((Finset.range c.managers).filter (· ∉ c.held)).card := by
  have hnodup : ((List.range c.managers).filter fun m => !c.isOwned m).Nodup :=
    List.nodup_range.filter _
  rw [released, ← List.toFinset_card_of_nodup hnodup]
  congr 1
  ext manager
  simp [← isOwned_iff]

variable [DecidableEq η]

/-- There has been the manager, and no handle owns it any more. -/
def IsReleased (c : Custody η) (manager : Nat) : Prop :=
  manager < c.managers ∧ ∀ handle, c.owned? handle ≠ some manager

/-- One change of a ledger, or none. -/
inductive Step (c : Custody η) : Custody η → Prop
  | kept : Step c c
  | release (handle : η) : Step c (c.release handle)
  | acquire (handle : η) : Step c (c.acquire handle)
  | discard : Step c c.discard
  | share (handle other : η) : Step c (c.share handle other)
  | transfer (handle other : η) : Step c (c.transfer handle other)

-- ---------------------------------------------------------------- who owns what

@[simp] theorem owned?_discard (c : Custody η) (x : η) : c.discard.owned? x = c.owned? x := rfl

theorem owned?_release (c : Custody η) (handle x : η) :
    (c.release handle).owned? x = if x = handle then none else c.owned? x :=
  Dict.lookup_filter_ne c.owners handle x

/-- An entry that is put after those of the other handles is what its handle is found with. -/
theorem lookup_release_append (c : Custody η) (handle x : η) (manager : Nat) :
    ((c.release handle).owners ++ [(handle, manager)]).lookup x =
      if x = handle then some manager else c.owned? x := by
  have hrelease := c.owned?_release handle x
  rw [owned?] at hrelease
  rw [List.lookup_append, hrelease]
  by_cases hx : x = handle
  · simp [hx]
  · simp [hx, List.lookup_cons, beq_eq_false_iff_ne.mpr hx]

theorem owned?_acquire (c : Custody η) (handle x : η) :
    (c.acquire handle).owned? x = if x = handle then some c.managers else c.owned? x :=
  c.lookup_release_append handle x c.managers

theorem owned?_share (c : Custody η) (handle other x : η) :
    (c.share handle other).owned? x = if x = handle then c.owned? other else c.owned? x := by
  unfold share
  cases hother : c.owned? other with
  | none => exact c.owned?_release handle x
  | some manager => exact c.lookup_release_append handle x manager

theorem owned?_transfer (c : Custody η) (handle other x : η) :
    (c.transfer handle other).owned? x =
      if x = other then none else if x = handle then c.owned? other else c.owned? x := by
  rw [transfer, owned?_release, owned?_share]

@[simp] theorem managers_release (c : Custody η) (handle : η) :
    (c.release handle).managers = c.managers := rfl

@[simp] theorem managers_share (c : Custody η) (handle other : η) :
    (c.share handle other).managers = c.managers := by
  unfold share
  split <;> rfl

@[simp] theorem managers_transfer (c : Custody η) (handle other : η) :
    (c.transfer handle other).managers = c.managers := by
  rw [transfer, managers_release, managers_share]

-- ---------------------------------------------------------------- valid ledgers

theorem Valid.release (h : Valid c) (handle : η) : Valid (c.release handle) where
  once := h.once.sublist (List.filter_sublist.map _)
  numbered := fun owner howner => h.numbered owner (List.mem_of_mem_filter howner)

/-- A handle can be entered with a manager once it is released. -/
theorem Valid.enter (h : Valid c) (handle : η) {managers : Nat} (hle : c.managers ≤ managers)
    (hlt : manager < managers) :
    Valid ⟨(c.release handle).owners ++ [(handle, manager)], managers⟩ := by
  have hrelease := h.release handle
  constructor
  · have hfree : handle ∉ (c.release handle).owners.map Prod.fst := by
      simp [Custody.release]
    simpa using hrelease.once.concat hfree
  · intro owner howner
    rcases List.mem_append.mp howner with howner | howner
    · exact (hrelease.numbered owner howner).trans_le hle
    · rwa [List.mem_singleton.mp howner]

theorem lookup_of_mem {owners : List (η × Nat)} (honce : (owners.map Prod.fst).Nodup)
    (hmem : (handle, manager) ∈ owners) : owners.lookup handle = some manager := by
  induction owners with
  | nil => cases hmem
  | cons owner rest ih =>
    obtain ⟨hnew, hrest⟩ := List.nodup_cons.mp honce
    rcases List.mem_cons.mp hmem with rfl | hmem
    · simp
    · have hne : (handle == owner.1) = false := by
        rw [beq_eq_false_iff_ne]
        rintro rfl
        exact hnew (List.mem_map.mpr ⟨_, hmem, rfl⟩)
      rw [List.lookup_cons, hne]
      exact ih hrest hmem

theorem Valid.mem_iff (h : Valid c) :
    (handle, manager) ∈ c.owners ↔ c.owned? handle = some manager := by
  constructor
  · exact lookup_of_mem h.once
  · intro howned
    obtain ⟨before, rest, howners, -⟩ := List.lookup_eq_some_iff.mp howned
    simp [howners]

theorem Valid.lt_of_owned (h : Valid c) (howned : c.owned? handle = some manager) :
    manager < c.managers :=
  h.numbered _ (h.mem_iff.mpr howned)

theorem Valid.share (h : Valid c) (handle other : η) : Valid (c.share handle other) := by
  unfold Custody.share
  cases hother : c.owned? other with
  | none => exact h.release handle
  | some manager => exact h.enter handle le_rfl (h.lt_of_owned hother)

theorem Valid.step (h : Valid c) (hstep : Step c next) : Valid next := by
  cases hstep with
  | kept => exact h
  | release handle => exact h.release handle
  | acquire handle => exact h.enter handle c.managers.le_succ c.managers.lt_succ_self
  | discard => exact ⟨h.once, fun owner howner => Nat.lt_succ_of_lt (h.numbered owner howner)⟩
  | share handle other => exact h.share handle other
  | transfer handle other => exact (h.share handle other).release other

-- ---------------------------------------------------------------- released managers

theorem managers_le_of_step (hstep : Step c next) : c.managers ≤ next.managers := by
  cases hstep with
  | acquire | discard => exact Nat.le_succ _
  | _ => simp

/-- A manager that has been released is never owned again. -/
theorem IsReleased.step (h : IsReleased c manager) (hstep : Step c next) :
    IsReleased next manager := by
  obtain ⟨hlt, hfree⟩ := h
  refine ⟨hlt.trans_le (managers_le_of_step hstep), fun x => ?_⟩
  cases hstep with
  | kept => exact hfree x
  | release handle =>
    rw [owned?_release]
    split
    · exact (Option.some_ne_none manager).symm
    · exact hfree x
  | acquire handle =>
    rw [owned?_acquire]
    split
    · exact fun hx => hlt.ne (Option.some.inj hx).symm
    · exact hfree x
  | discard => exact hfree x
  | share handle other =>
    rw [owned?_share]
    split
    · exact hfree other
    · exact hfree x
  | transfer handle other =>
    rw [owned?_transfer]
    split
    · exact (Option.some_ne_none manager).symm
    split
    · exact hfree other
    · exact hfree x

theorem Valid.mem_held (h : Valid c) :
    manager ∈ c.held ↔ ∃ handle, c.owned? handle = some manager := by
  simp [held, ← h.mem_iff]

/-- Every manager that there has been is held or released, and is not counted twice. -/
theorem Valid.released_add_held (h : Valid c) : c.released + c.held.card = c.managers := by
  have hheld : (Finset.range c.managers).filter (· ∈ c.held) = c.held := by
    ext manager
    simp only [Finset.mem_filter, Finset.mem_range]
    refine ⟨And.right, fun hmem => ⟨?_, hmem⟩⟩
    obtain ⟨handle, howned⟩ := h.mem_held.mp hmem
    exact h.lt_of_owned howned
  have hsplit := Finset.card_filter_add_card_filter_not (s := Finset.range c.managers) (· ∈ c.held)
  rw [hheld, Finset.card_range, ← released_eq_card] at hsplit
  omega

theorem Valid.isReleased_iff (h : Valid c) :
    IsReleased c manager ↔ manager < c.managers ∧ manager ∉ c.held := by
  simp [IsReleased, h.mem_held]

theorem Valid.released_le_of_step (h : Valid c) (hstep : Step c next) :
    c.released ≤ next.released := by
  rw [released_eq_card, released_eq_card]
  refine Finset.card_le_card fun manager => ?_
  simp only [Finset.mem_filter, Finset.mem_range, ← h.isReleased_iff,
    ← (h.step hstep).isReleased_iff]
  exact fun hreleased => hreleased.step hstep

/-- A handle that alone owns its manager releases it when it is let go. -/
theorem Valid.released_release_of_last (h : Valid c) (howned : c.owned? handle = some manager)
    (hlast : ∀ x, c.owned? x = some manager → x = handle) :
    (c.release handle).released = c.released + 1 ∧ IsReleased (c.release handle) manager := by
  have hafter : ∀ x, (c.release handle).owned? x ≠ some manager := by
    intro x hx
    rw [owned?_release] at hx
    split at hx
    · cases hx
    · exact absurd (hlast x hx) ‹_›
  refine ⟨?_, h.lt_of_owned howned, hafter⟩
  have hnew : manager ∉ (c.release handle).held := by
    rw [(h.release handle).mem_held]
    rintro ⟨x, hx⟩
    exact hafter x hx
  have hheld : c.held = insert manager (c.release handle).held := by
    ext m
    simp only [Finset.mem_insert, h.mem_held, (h.release handle).mem_held, owned?_release]
    constructor
    · rintro ⟨x, hx⟩
      by_cases hhandle : x = handle
      · subst hhandle
        exact .inl (Option.some.inj (hx.symm.trans howned))
      · exact .inr ⟨x, by rwa [if_neg hhandle]⟩
    · rintro (rfl | ⟨x, hx⟩)
      · exact ⟨handle, howned⟩
      · exact ⟨x, by split at hx <;> simp_all⟩
  have hbefore := h.released_add_held
  have hrelease := (h.release handle).released_add_held
  rw [hheld, Finset.card_insert_of_notMem hnew] at hbefore
  rw [managers_release] at hrelease
  omega

/-- A manager that another handle owns too outlives the handle that is let go. -/
theorem Valid.released_release_of_other (h : Valid c) (hne : other ≠ handle)
    (howned : c.owned? handle = c.owned? other) : (c.release handle).released = c.released := by
  have hheld : (c.release handle).held = c.held := by
    ext m
    simp only [h.mem_held, (h.release handle).mem_held, owned?_release]
    constructor
    · rintro ⟨x, hx⟩
      exact ⟨x, by split at hx <;> simp_all⟩
    · rintro ⟨x, hx⟩
      by_cases hhandle : x = handle
      · subst hhandle
        exact ⟨other, by rw [if_neg hne, ← howned, hx]⟩
      · exact ⟨x, by rwa [if_neg hhandle]⟩
  have hbefore := h.released_add_held
  have hrelease := (h.release handle).released_add_held
  rw [hheld, managers_release] at hrelease
  omega

theorem foldl_release (c : Custody η) (handles : List η) :
    handles.foldl Custody.release c =
      { c with owners := c.owners.filter fun o => o.1 ∉ handles } := by
  induction handles generalizing c with
  | nil => simp
  | cons handle rest ih =>
    rw [List.foldl_cons, ih, Custody.release, List.filter_filter]
    simp [Bool.and_comm]

/-- When all handles are let go every manager has been released. -/
theorem released_releaseAll (c : Custody η) :
    ((c.owners.map Prod.fst).foldl Custody.release c).released = c.managers := by
  have hnone : (c.owners.filter fun o => o.1 ∉ c.owners.map Prod.fst) = [] := by
    rw [List.filter_eq_nil_iff]
    intro owner howner
    simpa using ⟨owner.2, howner⟩
  rw [foldl_release, hnone]
  simp [released, isOwned]

end EntityBroker.Boundary.Custody
