/-!
# Depth

How deep a pattern nests. A character has depth 0. Each repetition, group and class is one deeper
than what it holds, and so are items that stand side by side.
-/

namespace EntityBroker.CommandLine.Pattern

/-- Items that stand side by side: how many there are, and the depth of the deepest of them. -/
structure Row where
  size : Nat
  deepest : Nat

namespace Row

def empty : Row := ⟨0, 0⟩

def add (row : Row) (depth : Nat) : Row := ⟨row.size + 1, max row.deepest depth⟩

/-- An item alone is no deeper for standing in a row. -/
def depth (row : Row) : Nat := if 2 ≤ row.size then row.deepest + 1 else row.deepest

/-- The depth of a row together with other rows before it, if there are any. -/
def depthAfter (row : Row) : Option Nat → Nat
  | none => row.depth
  | some before => max before row.depth + 1

end Row

end EntityBroker.CommandLine.Pattern
