import Agentry.Decimal.Binary64
/-!
# The fewest digits that read back

A positive double owns the interval of reals that round to it; the ends belong to it when its
significand is even. For one digit, two digits, and so on, the two neighbours of the value on that
decimal grid are tried. The first grid with a neighbour in the interval gives the digits; of two
such neighbours the nearer is taken, and of two equally near the even one. Seventeen digits always
do.
-/
namespace Agentry.Decimal

/-- The digits `digits` times `10^exponent`. -/
structure Scientific where
  digits : Nat
  exponent : Int
  deriving DecidableEq, Repr

/-- The reals that round to a double, in quarters of a unit. -/
structure Interval where
  low : Nat
  high : Nat
  closed : Bool

/-- The gap below a power of two is half the gap above it, except among the smallest doubles. -/
def owned (units : Nat) : Interval :=
  let last := lastBit units
  let gap := Nat.pow 2 last
  let below := if units = Nat.pow 2 52 * gap && last != 0 then gap else 2 * gap
  ⟨4 * units - below, 4 * units + 2 * gap, (units / gap) % 2 == 0⟩

def Interval.holds (i : Interval) (scale point : Nat) : Bool :=
  if i.closed then i.low * scale ≤ point && point ≤ i.high * scale
  else i.low * scale < point && point < i.high * scale

/-- Whether a number of units is at least `10^exponent`. -/
def reachesTen (units : Nat) (exponent : Int) : Bool :=
  if 0 ≤ exponent then unitsPerOne * Nat.pow 10 exponent.toNat ≤ units
  else unitsPerOne ≤ units * Nat.pow 10 (-exponent).toNat

/-- The power of ten of the first digit. -/
def leadingTen (units : Nat) : Int :=
  let guess := ((units.log2 : Int) - 1074) * 30103 / 100000
  if reachesTen units (guess + 1) then guess + 1
  else if reachesTen units guess then guess
  else guess - 1

/-- The neighbour of the value on the grid of `10^exponent` that reads back, if one does. -/
def onGrid (units : Nat) (exponent : Int) : Option Nat :=
  let scale := Nat.pow 10 (-exponent).toNat
  let step := 4 * unitsPerOne * Nat.pow 10 exponent.toNat
  let value := 4 * units * scale
  let floor := value / step
  let interval := owned units
  match interval.holds scale (floor * step), interval.holds scale ((floor + 1) * step) with
  | true, true =>
    let below := value - floor * step
    let above := (floor + 1) * step - value
    if below < above then some floor
    else if above < below then some (floor + 1)
    else if floor % 2 = 0 then some floor else some (floor + 1)
  | true, false => some floor
  | false, true => some (floor + 1)
  | false, false => none

/-- Tries grids with one more digit each, `tries` of them. -/
def search (units : Nat) : Nat → Int → Scientific
  | 0, exponent => ⟨(onGrid units exponent).getD 0, exponent⟩
  | tries + 1, exponent =>
    match onGrid units exponent with
    | some digits => ⟨digits, exponent⟩
    | none => search units tries (exponent - 1)

/-- Takes the zeros at the end of the digits into the exponent. -/
def Scientific.stripped : Nat → Scientific → Scientific
  | 0, s => s
  | fuel + 1, s =>
    if s.digits % 10 = 0 && s.digits != 0 then stripped fuel ⟨s.digits / 10, s.exponent + 1⟩ else s

def shortest (units : Nat) : Scientific :=
  (search units 17 (leadingTen units)).stripped 20

end Agentry.Decimal
