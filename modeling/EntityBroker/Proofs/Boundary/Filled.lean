import Mathlib.Data.List.TakeDrop
import EntityBroker.Proofs.Boundary.Dictionary
import EntityBroker.Proofs.Utf8.Decode

/-!
# Views after bytes were assigned to them

`assigned_views`: of bytes that are assigned to a view, as many as there is room for stand at the
beginning of its memory, and no other byte of the memory is touched. What was in the view before
does not show, however often it was used. Of a text, the longest beginning that has room is seen.
-/

namespace EntityBroker.Boundary.View

open Utf8 (ShownWithin)

-- ---------------------------------------------------------------- the caller's memory

/-- Memory before and after bytes were copied into its first `capacity` bytes, as many as fit. -/
structure Filled (capacity : Nat) (bytes memory filled : List UInt8) : Prop where
  front : filled.take (min bytes.length capacity) = bytes.take (min bytes.length capacity)
  rest : ∀ i, min bytes.length capacity ≤ i → filled[i]? = memory[i]?
  length : capacity ≤ memory.length → filled.length = memory.length

theorem assign_memory (capacity : Nat) (memory : List UInt8) (size : Nat) (bytes : List UInt8) :
    ∃ filled, assign ⟨capacity, some memory, size⟩ bytes =
        ⟨capacity, some filled, min bytes.length capacity⟩ ∧
      Filled capacity bytes memory filled := by
  let n := min bytes.length capacity
  have htake : bytes.take capacity = bytes.take n := by
    simp [n, List.take_eq_take_iff, Nat.min_comm]
  have hlength : (bytes.take n).length = n := by
    simp [n]
  refine ⟨bytes.take n ++ memory.drop n, ?_, ?_, ?_, ?_⟩
  · simp only [assign, htake, hlength]
    rfl
  · exact List.take_left' hlength
  · intro i hi
    rw [List.getElem?_append_right (by omega), hlength, List.getElem?_drop, Nat.add_sub_cancel' hi]
  · intro hcapacity
    simp only [List.length_append, hlength, List.length_drop]
    omega

-- ---------------------------------------------------------------- what can be read

section
variable (v : View) (bytes : List UInt8)

@[simp] theorem room_assign : (v.assign bytes).room = v.room := by
  cases h : v.memory <;> simp [room, assign, h]

@[simp] theorem size_assign : (v.assign bytes).size = min bytes.length v.room := by
  simp [(written_assign v bytes).size, Nat.min_comm]

@[simp] theorem bytes_assign_room : (v.assign bytes).bytes = bytes.take v.room :=
  (written_assign v bytes).bytes

theorem room_le_capacity : v.room ≤ v.capacity := by
  cases h : v.memory <;> simp [room, h]

theorem fits_iff_bytes_assign : v.fits bytes = true ↔ (v.assign bytes).bytes = bytes := by
  simp [fits_iff, List.take_eq_self_iff]

/-- However often a view is used, there is as much room in it. -/
theorem room_foldl_assign (earlier : List (List UInt8)) :
    (earlier.foldl assign v).room = v.room := by
  induction earlier generalizing v with
  | nil => rfl
  | cons first rest ih => simp [ih]

end

/-- Assigning bytes fills memory from its beginning with as many of them as there is room for,
whatever the memory holds and whatever size was there; without memory it does nothing, and no byte
has room. What then can be read is what was written, and all of it exactly if the bytes are said to
fit. Bytes that were assigned earlier do not show, and of a text its longest beginning does. -/
theorem assigned_views :
    (∀ capacity memory size bytes, ∃ filled,
      assign ⟨capacity, some memory, size⟩ bytes =
          ⟨capacity, some filled, min bytes.length capacity⟩ ∧
        Filled capacity bytes memory filled ∧
        (fits ⟨capacity, some memory, size⟩ bytes = true ↔ bytes.length ≤ capacity)) ∧
    (∀ capacity size bytes, assign ⟨capacity, none, size⟩ bytes = ⟨capacity, none, 0⟩ ∧
      (fits ⟨capacity, none, size⟩ bytes = true ↔ bytes = [])) ∧
    (∀ (v : View) bytes, (v.assign bytes).size ≤ v.capacity ∧
      (v.assign bytes).bytes = bytes.take v.room ∧
      (v.fits bytes = true ↔ (v.assign bytes).bytes = bytes)) ∧
    (∀ (v : View) (earlier : List (List UInt8)) bytes,
      let used := earlier.foldl assign v
      (used.assign bytes).size = (v.assign bytes).size ∧
        (used.assign bytes).bytes = (v.assign bytes).bytes) ∧
    ∀ (v : View) bytes text, Utf8.decode bytes = .ok text →
      ShownWithin v.room text (v.assign bytes).text := by
  refine ⟨?_, ?_, ?_, ?_, ?_⟩
  · intro capacity memory size bytes
    obtain ⟨filled, hassign, hfilled⟩ := assign_memory capacity memory size bytes
    exact ⟨filled, hassign, hfilled, fits_iff⟩
  · intro capacity size bytes
    exact ⟨rfl, List.isEmpty_iff⟩
  · intro v bytes
    refine ⟨?_, v.bytes_assign_room bytes, v.fits_iff_bytes_assign bytes⟩
    simp [Nat.le_trans (Nat.min_le_right ..) v.room_le_capacity]
  · intro v earlier bytes used
    have hroom : used.room = v.room := v.room_foldl_assign earlier
    simp [hroom]
  · intro v bytes text hdecode
    obtain rfl := Utf8.decode_eq_ok.mp hdecode
    rw [View.text, bytes_assign_room]
    exact Utf8.shownWithin_take v.room text

end EntityBroker.Boundary.View
