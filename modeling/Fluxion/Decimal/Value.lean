/-!
# The exact value of a float

A finite float is a whole number times a power of two. Its decimal texts are computed from that
number, in exact arithmetic on natural numbers.

## Main definitions

* `Magnitude` — `mantissa · 2 ^ exponent`, as a quotient `num / den`
* `Magnitude.leading` — the decimal exponent of its first digit
* `Value` — a magnitude with a sign, an infinity, or no number
* `Value.ofFloat` — the value of a float, read off its bits
-/

namespace Fluxion.Decimal

/-- The number `mantissa · 2 ^ exponent`. -/
structure Magnitude where
  /-- The whole-number factor. -/
  mantissa : Nat
  /-- The power of two. -/
  exponent : Int

namespace Magnitude

/-- The numerator of the magnitude. -/
def num (v : Magnitude) : Nat := v.mantissa * Nat.pow 2 v.exponent.toNat

/-- The denominator of the magnitude, a power of two. -/
def den (v : Magnitude) : Nat := Nat.pow 2 (-v.exponent).toNat

theorem den_pos (v : Magnitude) : 0 < v.den := Nat.two_pow_pos _

end Magnitude

/-- The decimal digits of a number, the first one not zero unless the number is. -/
def digitsOf (n : Nat) : List Char := Nat.toDigits 10 n

/-- How many decimal digits a number has. -/
def digitCount (n : Nat) : Nat := (digitsOf n).length

/-- The exponent of the power of ten at or below `v`, for `v` not zero. Below one it is found
from the inverse, whose whole part has as many digits as `v` has places before its first
digit, one fewer if the inverse is itself a power of ten. -/
def Magnitude.leading (v : Magnitude) : Int :=
  if v.den ≤ v.num then (digitCount (v.num / v.den) : Int) - 1
  else
    let inverse := v.den / v.num
    let count := digitCount inverse
    if inverse * v.num = v.den ∧ inverse = Nat.pow 10 (count - 1) then 1 - (count : Int)
    else -(count : Int)

/-- What a float stands for. -/
inductive Value where
  | nan
  | infinite (negative : Bool)
  | finite (negative : Bool) (magnitude : Magnitude)

/-- The value of a pattern of 64 bits: a sign, eleven bits of exponent, and fifty-two bits of
fraction below a leading bit that the exponent zero leaves out. -/
def Value.ofBits (bits : Nat) : Value :=
  let negative := bits / Nat.pow 2 63 % 2 == 1
  let exponent : Nat := bits / Nat.pow 2 52 % Nat.pow 2 11
  let fraction := bits % Nat.pow 2 52
  if exponent = 2047 then if fraction = 0 then .infinite negative else .nan
  else if exponent = 0 then .finite negative ⟨fraction, -1074⟩
  else .finite negative ⟨Nat.pow 2 52 + fraction, (exponent : Int) - 1075⟩

/-- The value of a float. -/
def Value.ofFloat (x : Float) : Value := Value.ofBits x.toBits.toNat

end Fluxion.Decimal
