import Fluxion.Decimal.Rounding
import Fluxion.Decimal.Value

/-!
# Choosing decimal digits

Two ways to choose the digits of a magnitude: a given number of significant digits, rounded;
or the fewest digits that read back as the same float.

## Main definitions

* `Scientific` — chosen digits, in units of a power of ten
* `Magnitude.significant` — a given number of digits
* `Magnitude.shortest` — the fewest digits

## Implementation notes

A number reads back as `mantissa · 2 ^ exponent` when it lies between the midpoints to the two
neighbouring floats, and a midpoint itself does when the mantissa is even. In quarters of the
last binary place the midpoints are whole: two above and two below, but one below where the
mantissa is the least one of its exponent, since the floats underneath are twice as dense. If
any point of a decimal grid lies in that interval, then so does one of the two grid points
next to the magnitude, so only these are tried.
-/

namespace Fluxion.Decimal

/-- The number `digits · 10 ^ exponent`. -/
structure Scientific where
  /-- The chosen digits, as a number. -/
  digits : Nat
  /-- The decimal exponent of the last digit. -/
  exponent : Int

namespace Magnitude

/-- The magnitude to `count` significant digits. -/
def significant (v : Magnitude) (count : Nat) : Scientific :=
  if v.mantissa = 0 then ⟨0, 0⟩
  else
    let unit : Int := v.leading - count + 1
    ⟨roundDiv (v.num * Nat.pow 10 (-unit).toNat) (v.den * Nat.pow 10 unit.toNat), unit⟩

/-- The whole number of quarters of the last binary place from the magnitude down to the
midpoint below it. -/
def quartersBelow (v : Magnitude) : Nat :=
  if v.mantissa = Nat.pow 2 52 ∧ -1074 < v.exponent then 1 else 2

/-- The number with `count` digits that is nearest to the magnitude among those that read back
as it. -/
def readingBack? (v : Magnitude) (count : Nat) : Option Scientific :=
  let unit : Int := v.leading - count + 1
  let quarter := Nat.pow 2 (v.exponent - 2).toNat * Nat.pow 10 (-unit).toNat
  let step := Nat.pow 2 (2 - v.exponent).toNat * Nat.pow 10 unit.toNat
  let value := 4 * v.mantissa * quarter
  let low := (4 * v.mantissa - v.quartersBelow) * quarter
  let high := (4 * v.mantissa + 2) * quarter
  let hits (n : Nat) : Bool :=
    if v.mantissa % 2 = 0 then low ≤ n * step && n * step ≤ high
    else low < n * step && n * step < high
  let floor := value / step
  let below := value - floor * step
  let above := (floor + 1) * step - value
  match hits floor, hits (floor + 1) with
  | true, true =>
    some ⟨if below < above ∨ (below = above ∧ floor % 2 = 0) then floor else floor + 1, unit⟩
  | true, false => some ⟨floor, unit⟩
  | false, true => some ⟨floor + 1, unit⟩
  | false, false => none

/-- The fewest digits that read back as the magnitude; seventeen always do. -/
def shortest (v : Magnitude) : Scientific :=
  if v.mantissa = 0 then ⟨0, 0⟩
  else ((List.range 17).findSome? fun n => v.readingBack? (n + 1)).getD (v.significant 17)

end Magnitude

end Fluxion.Decimal
