import EntityBroker.Double.Decimal

/-!
# The fewest digits that read back

The reals that round to a finite double form an interval around it, ends included when its
significand is even. Everything is scaled by one power of ten to whole numbers; the grids of
multiples of `10 ^ n` are tried from the coarsest down, and on the first grid that has a point in
the interval the point nearest to the double is taken.
-/

namespace EntityBroker.Double

/-- A double and the ends of its rounding interval, as multiples of `10 ^ exponent`. -/
structure Neighbourhood where
  low : Nat
  value : Nat
  high : Nat
  closed : Bool
  exponent : Int

namespace Neighbourhood

/-- The interval of a finite double in quarters of its last place. Just above a power of two the
doubles below are twice as close. -/
def ofDouble (x : Double) : Neighbourhood :=
  let scale := x.scale - 2
  let unit := if 0 ≤ scale then Nat.pow 2 scale.toNat else Nat.pow 5 (-scale).toNat
  let below := if x.fraction = 0 ∧ 1 < x.exponentField then 1 else 2
  { low := (4 * x.significand - below) * unit
    value := 4 * x.significand * unit
    high := (4 * x.significand + 2) * unit
    closed := x.significand % 2 == 0
    exponent := min scale 0 }

def contains (r : Neighbourhood) (n : Nat) : Bool :=
  if r.closed then r.low ≤ n && n ≤ r.high else r.low < n && n < r.high

/-- The multiplier of the grid point in the interval that is nearest to the value; of two equally
near ones the even. Only the two neighbours of the value need be asked. -/
def onGrid? (r : Neighbourhood) (n : Nat) : Option Nat :=
  let step := Nat.pow 10 n
  let floor := r.value / step
  match r.contains (floor * step), r.contains ((floor + 1) * step) with
  | true, true => some (Decimal.roundHalfEven r.value step)
  | true, false => some floor
  | false, true => some (floor + 1)
  | false, false => none

/-- The first grid from `n` down with a point in the interval; the value is a point of the last. -/
def coarsest (r : Neighbourhood) : Nat → Nat × Nat
  | 0 => (r.value, 0)
  | n + 1 =>
    match r.onGrid? (n + 1) with
    | some c => (c, n + 1)
    | none => r.coarsest n

end Neighbourhood

/-- The shortest decimal that rounds to a finite double, the nearest of the shortest. -/
def shortest (x : Double) : Decimal :=
  if x.isZero then ⟨x.isNegative, 0, 0⟩
  else
    let r := Neighbourhood.ofDouble x
    let (digits, n) := r.coarsest (Decimal.length r.value)
    ⟨x.isNegative, digits, r.exponent + n⟩

end EntityBroker.Double
