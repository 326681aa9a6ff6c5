import AccessChecks.Decimal.Double

/-!
# Shortest decimals

## Reading back

A decimal d · 10^k reads back as a number if it lies between the points halfway to
the neighbours of the number; the points themselves count if the significand is
even.

## Search

The grids of multiples of 10^k are searched from coarse to fine.  On each grid
only the two points around the number can be nearest to it, so the first grid on
which one of them reads back has the fewest digits.
-/

namespace AccessChecks

structure Decimal where
  digits : Nat
  exponent : Int
deriving DecidableEq, Repr, Inhabited

namespace Decimal

/-- A number with the points that bound the decimals which read back as it, all
as multiples of one unit: a quotient of naturals. -/
structure Interval where
  lower : Nat
  value : Nat
  upper : Nat
  closed : Bool
  unitNum : Nat
  unitDen : Nat
deriving DecidableEq, Repr, Inhabited

/-- The interval of a positive number.  A power of two is nearer to the number
below it than to the one above. -/
def Interval.of (x : Double) : Interval :=
  let v := x.magnitude
  let nearBelow := x.fraction = 0 ∧ x.exponentField > 1
  let quarter : Magnitude := ⟨1, v.exponent - 2⟩
  { lower := 4 * v.significand - (if nearBelow then 1 else 2)
    value := 4 * v.significand
    upper := 4 * v.significand + 2
    closed := v.significand % 2 = 0
    unitNum := quarter.num
    unitDen := quarter.den }

def scale (k : Int) : Nat × Nat :=
  (Nat.pow 10 k.toNat, Nat.pow 10 (-k).toNat)

def Interval.contains (i : Interval) (d : Decimal) : Bool :=
  let (up, down) := scale d.exponent
  let point := d.digits * up * i.unitDen
  let lower := i.lower * i.unitNum * down
  let upper := i.upper * i.unitNum * down
  if i.closed then lower ≤ point && point ≤ upper
  else lower < point && point < upper

def around (i : Interval) (k : Int) : Decimal × Decimal :=
  let (up, down) := scale k
  let below := i.value * i.unitNum * down / (i.unitDen * up)
  (⟨below, k⟩, ⟨below + 1, k⟩)

def nearer (i : Interval) (below above : Decimal) : Decimal :=
  let (up, down) := scale below.exponent
  let value := 2 * i.value * i.unitNum * down
  let middle := (below.digits + above.digits) * up * i.unitDen
  if value < middle then below
  else if value > middle then above
  else if below.digits % 2 = 0 then below
  else above

/-- The decimal on the grid 10^k that reads back, if there is one. -/
def onGrid (i : Interval) (k : Int) : Option Decimal :=
  let (below, above) := around i k
  match i.contains below, i.contains above with
  | true, true => some (nearer i below above)
  | true, false => some below
  | false, true => some above
  | false, false => none

def search (i : Interval) (k : Int) : (steps : Nat) → Option Decimal
  | 0 => none
  | steps + 1 => (onGrid i k).orElse fun _ => search i (k - 1) steps

def coarsest : Int := 309

def grids : Nat := 640

/-- The shortest decimal that reads back as a positive number, and the nearest of
those. -/
def shortest (x : Double) : Decimal :=
  (search (Interval.of x) coarsest grids).getD ⟨0, 0⟩

end Decimal

end AccessChecks
