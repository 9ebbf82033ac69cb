import EntityBroker.Proofs.TableManager.Writes

/-!
# Writes made again and in another order

A store is what its three look-ups answer (`Store.ext`), so laws of writes are laws of these. Writes
that were made change nothing when they are made again, also where they contradict each other, and
writes that name no entity in common can be made in either order.
-/

namespace EntityBroker.TableManager

namespace Store

/-- A store is what it answers about entities, their traits and their properties. -/
theorem ext {a b : Store} (hcontains : ∀ e, a.contains e = true ↔ b.contains e = true)
    (hcarries : ∀ e t, a.Carries e t ↔ b.Carries e t)
    (hproperty : ∀ e t k, a.property? e t k = b.property? e t k) : a = b := by
  refine Dict.ext_contains (fun e => Bool.eq_iff_iff.mpr (hcontains e)) fun e x y hx hy => ?_
  refine TraitsData.ext (fun t => ?_) fun t k => ?_
  · have ht := hcarries e t
    rw [carries_iff, carries_iff, hx, hy] at ht
    exact Bool.eq_iff_iff.mpr ht
  · have hk := hproperty e t k
    rw [property?_eq, property?_eq, hx, hy] at hk
    exact hk

variable (store : Store) {writes others : List Write}

/-- Of writes that contradict each other the last one stays, so it is also what they leave the next
time. -/
theorem applyAll_again (writes : List Write) :
    (store.applyAll writes).applyAll writes = store.applyAll writes := by
  refine ext (fun e => ?_) (fun e t => ?_) fun e t k => ?_
  · simp only [contains_applyAll, or_self_left]
  · simp only [carries_applyAll, or_self_left]
  · simp only [property?_applyAll, ← Option.or_assoc, Option.or_self]

theorem get?_applyAll_of_unnamed {entity : String} (h : ∀ w ∈ writes, w.entityNamed ≠ entity) :
    (store.applyAll writes).get? entity = store.get? entity := by
  induction writes generalizing store with
  | nil => rfl
  | cons w rest ih =>
    rw [List.forall_mem_cons] at h
    rw [applyAll_cons, ih _ h.2, get?_apply, if_neg h.1.symm]

/-- What writes make of an entity depends on nothing else in the store. -/
theorem get?_applyAll_congr {a b : Store} {entity : String} (h : a.get? entity = b.get? entity)
    (writes : List Write) :
    (a.applyAll writes).get? entity = (b.applyAll writes).get? entity := by
  induction writes generalizing a b with
  | nil => exact h
  | cons w rest ih =>
    rw [applyAll_cons, applyAll_cons]
    exact ih (by rw [get?_apply, get?_apply, h])

theorem applyAll_comm (h : ∀ w ∈ writes, ∀ v ∈ others, w.entityNamed ≠ v.entityNamed) :
    (store.applyAll writes).applyAll others = (store.applyAll others).applyAll writes := by
  refine Dict.ext_get? fun e => ?_
  -- an entity that one of the lists names is not named by the other
  by_cases hnamed : ∃ w ∈ writes, w.entityNamed = e
  · obtain ⟨w, hw, rfl⟩ := hnamed
    have hothers : ∀ v ∈ others, v.entityNamed ≠ w.entityNamed := fun v hv => (h w hw v hv).symm
    rw [get?_applyAll_of_unnamed _ hothers]
    exact get?_applyAll_congr (get?_applyAll_of_unnamed store hothers).symm writes
  · have hwrites : ∀ w ∈ writes, w.entityNamed ≠ e := by simpa using hnamed
    rw [get?_applyAll_of_unnamed _ hwrites]
    exact get?_applyAll_congr (get?_applyAll_of_unnamed store hwrites) others

end Store

end EntityBroker.TableManager
