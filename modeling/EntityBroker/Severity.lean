import EntityBroker.Numeral

/-!
# Severities

How grave a log message is, from the least to the most grave. The order is that of the ordinals.
-/

namespace EntityBroker

inductive Severity where
  | debugApi
  | debug
  | info
  | progress
  | warning
  | error
  | critical
  deriving DecidableEq, Repr

namespace Severity

def all : List Severity := [.debugApi, .debug, .info, .progress, .warning, .error, .critical]

def ordinal : Severity → Nat
  | .debugApi => 0
  | .debug => 1
  | .info => 2
  | .progress => 3
  | .warning => 4
  | .error => 5
  | .critical => 6

def name : Severity → String
  | .debugApi => "debugApi"
  | .debug => "debug"
  | .info => "info"
  | .progress => "progress"
  | .warning => "warning"
  | .error => "error"
  | .critical => "critical"

def ofOrdinal? (n : Nat) : Option Severity := all.find? (fun s => s.ordinal == n)

/-- Whether the text is the way in which the byte that it reads as is written. -/
def isExact (text : String) : Bool :=
  match parseByte? text.toList with
  | some n => toString n == text
  | none => false

/-- The severity whose ordinal the text reads as. Other spellings of it do not count. -/
def ofText? (text : String) : Option Severity :=
  match (parseByte? text.toList).bind ofOrdinal? with
  | some s => if isExact text then some s else none
  | none => none

/-- Whether `s` is at or above `threshold`. -/
def reaches (s threshold : Severity) : Bool := threshold.ordinal ≤ s.ordinal

theorem ordinal_of_ofOrdinal? {n : Nat} {s : Severity} (h : ofOrdinal? n = some s) :
    s.ordinal = n := by
  simpa using List.find?_some h

theorem ofText?_ordinal (s : Severity) : ofText? (toString s.ordinal) = some s := by
  cases s <;> rfl

/-- A text names a severity only as the digit of it. -/
theorem ofText?_eq_some_iff {text : String} {s : Severity} :
    ofText? text = some s ↔ text = toString s.ordinal := by
  constructor
  · intro h
    unfold ofText? at h
    cases hbyte : parseByte? text.toList with
    | none => simp [hbyte] at h
    | some n =>
      cases hordinal : ofOrdinal? n with
      | none => simp [hbyte, hordinal] at h
      | some t =>
        simp only [hbyte, Option.bind_some, hordinal, isExact, beq_iff_eq,
          Option.ite_none_right_eq_some, Option.some.injEq] at h
        obtain ⟨hexact, rfl⟩ := h
        rw [ordinal_of_ofOrdinal? hordinal, hexact]
  · rintro rfl
    exact ofText?_ordinal s

end Severity

end EntityBroker
