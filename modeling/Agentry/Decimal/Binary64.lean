/-!
# Finite double-precision numbers

Every finite double is a whole number of units, the unit being `2^-1074`, and that number has at
most 53 significant bits. So a double is a sign and a natural number of units. A quotient of
naturals is rounded to the nearest number of that form, a tie going to the even significand; past
the largest double there is no finite answer.
-/
namespace Agentry.Decimal

structure Binary64 where
  negative : Bool
  units : Nat
  deriving DecidableEq, Repr

/-- How many units make one. -/
def unitsPerOne : Nat := Nat.pow 2 1074

/-- Where the finite doubles end, in units. -/
def unitsLimit : Nat := Nat.pow 2 2098

/-- The nearest natural to `num / den`, a tie going to the even one. -/
def roundHalfEven (num den : Nat) : Nat :=
  let q := num / den
  let r := num % den
  if 2 * r < den then q
  else if 2 * r > den then q + 1
  else if q % 2 = 0 then q else q + 1

/-- The exponent of the last of 53 significant bits. -/
def lastBit (n : Nat) : Nat :=
  n.log2 - 52

/-- The nearest number of at most 53 significant bits to `num / den`. -/
def roundTo53 (num den : Nat) : Nat :=
  let step := Nat.pow 2 (lastBit (num / den))
  roundHalfEven num (den * step) * step

namespace Binary64

def zero (negative : Bool) : Binary64 := ⟨negative, 0⟩

/-- The double nearest to `num / den`, unless that is past the largest one. -/
def ofQuotient (negative : Bool) (num den : Nat) : Option Binary64 :=
  let units := roundTo53 (num * unitsPerOne) den
  if units < unitsLimit then some ⟨negative, units⟩ else none

/-- The double nearest to `digits * 10^exponent`. The powers of ten that no double can reach are
answered without being computed. -/
def ofDecimal (negative : Bool) (digits : Nat) (exponent : Int) : Option Binary64 :=
  if digits = 0 then some (zero negative)
  else
    let size : Int := digits.log2
    if exponent > 400 then none
    else if exponent < 0 && size + 3 * exponent < -1200 then some (zero negative)
    else if 0 ≤ exponent then ofQuotient negative (digits * Nat.pow 10 exponent.toNat) 1
    else ofQuotient negative digits (Nat.pow 10 (-exponent).toNat)

def ofNat (n : Nat) : Option Binary64 :=
  ofQuotient false n 1

def ofInt (n : Int) : Option Binary64 :=
  ofQuotient (n < 0) n.natAbs 1

def neg (x : Binary64) : Binary64 :=
  ⟨!x.negative, x.units⟩

def mul (x y : Binary64) : Option Binary64 :=
  ofQuotient (x.negative != y.negative) (x.units * y.units) (unitsPerOne * unitsPerOne)

/-- The quotient by a double that is not zero. -/
def div (x y : Binary64) : Option Binary64 :=
  ofQuotient (x.negative != y.negative) x.units y.units

/-- The whole number that a double stands for, if it is one. Both zeros stand for zero. -/
def toInt? (x : Binary64) : Option Int :=
  if x.units % unitsPerOne = 0 then
    let n : Int := (x.units / unitsPerOne : Nat)
    some (if x.negative then -n else n)
  else none

end Binary64

theorem roundHalfEven_one (n : Nat) : roundHalfEven n 1 = n := by
  simp [roundHalfEven, Nat.mod_one]

theorem roundHalfEven_mul (n : Nat) {d : Nat} (h : 0 < d) : roundHalfEven (n * d) d = n := by
  simp [roundHalfEven, Nat.mul_div_cancel _ h, h]

end Agentry.Decimal
