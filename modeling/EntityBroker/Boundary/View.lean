import EntityBroker.Utf8

/-!
# Views of text in a caller's memory

Text crosses the boundary in memory that the caller owns. A `View` is written to: some capacity, and
how many bytes are in use; its size may be stale, so reading never goes past the capacity. A `Text`
is only read. Either may have no memory behind it.
-/

namespace EntityBroker.Boundary

structure View where
  capacity : Nat
  /-- The caller's memory, if there is any; what a view may touch is its first `capacity` bytes. -/
  memory : Option (List UInt8)
  size : Nat
  deriving DecidableEq

namespace View

/-- No memory at all. -/
def empty : View := ⟨0, none, 0⟩

def ofMemory (memory : List UInt8) : View := ⟨memory.length, some memory, 0⟩

/-- The bytes in use. -/
def bytes (v : View) : List UInt8 :=
  match v.memory with
  | none => []
  | some memory => memory.take (min v.size v.capacity)

def text (v : View) : String := Utf8.decodeLossy v.bytes

/-- Writes as many of the bytes as there is room for. -/
def assign (v : View) (bytes : List UInt8) : View :=
  match v.memory with
  | none => { v with size := 0 }
  | some memory =>
    let written := bytes.take v.capacity
    { v with memory := some (written ++ memory.drop written.length), size := written.length }

/-- Whether all of the bytes have room. -/
def fits (v : View) (bytes : List UInt8) : Bool :=
  match v.memory with
  | none => bytes.isEmpty
  | some _ => bytes.length ≤ v.capacity

def assignText (v : View) (text : String) : View := v.assign (Utf8.encode text)

/-- Of bytes that are written, as many as there is room for can be read. -/
theorem bytes_assign {v : View} {memory : List UInt8} (h : v.memory = some memory)
    (bytes : List UInt8) : (v.assign bytes).bytes = bytes.take v.capacity := by
  have hlength : (bytes.take v.capacity).length ≤ v.capacity := List.length_take_le ..
  simp only [assign, View.bytes, h]
  rw [Nat.min_eq_left hlength, List.take_left]

end View

/-- Bytes that a caller passes in; without memory there are none, whatever the size. -/
structure Text where
  memory : Option (List UInt8)
  size : Nat

namespace Text

def ofBytes (bytes : List UInt8) : Text := ⟨some bytes, bytes.length⟩

def bytes (t : Text) : List UInt8 :=
  match t.memory with
  | none => []
  | some memory => memory.take t.size

def decoded (t : Text) : String := Utf8.decodeLossy t.bytes

end Text

end EntityBroker.Boundary
