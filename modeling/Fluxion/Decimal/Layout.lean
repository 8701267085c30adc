import Fluxion.Decimal.Digits

/-!
# Decimal texts of floats

A float is written in one of three ways: with a given number of significant digits, with the
fewest digits that read back, or with a given number of decimal places. The first two are
positional for exponents in a range and scientific outside it; the range and the treatment of
whole numbers are a `Layout`.

## Main definitions

* `Layout`, `Layout.render` — where positional notation ends, and the text
* `general`, `shortest`, `fixed` — the three texts of a float
-/

namespace Fluxion.Decimal

/-- How chosen digits are laid out. -/
structure Layout where
  /-- The least exponent of the first digit that is written positionally. -/
  least : Int
  /-- The exponent of the first digit from which on notation is scientific. -/
  bound : Int
  /-- Whether a whole number in positional notation ends in a point and a zero. -/
  wholePoint : Bool

/-- The digits without the zeros at their end; all zeros leave one. -/
def stripZeros (digits : List Char) : List Char :=
  match (digits.reverse.dropWhile (· == '0')).reverse with
  | [] => ['0']
  | stripped => stripped

/-- Digits in positional notation, the first one standing for units of `10 ^ lead`. -/
def positional (wholePoint : Bool) (digits : List Char) (lead : Int) : List Char :=
  if lead < 0 then '0' :: '.' :: (List.replicate (-lead - 1).toNat '0' ++ digits)
  else
    let whole := lead.toNat + 1
    let fraction := digits.drop whole
    let point := !fraction.isEmpty || wholePoint
    let places := if fraction.isEmpty then ['0'] else fraction
    digits.take whole ++ List.replicate (whole - digits.length) '0' ++
      if point then '.' :: places else []

/-- An exponent with its sign and at least two digits. -/
def exponentText (exponent : Int) : List Char :=
  let digits := digitsOf exponent.natAbs
  (if exponent < 0 then '-' else '+') :: (List.replicate (2 - digits.length) '0' ++ digits)

/-- Digits in scientific notation, the first one standing for units of `10 ^ lead`. -/
def scientific (digits : List Char) (lead : Int) : List Char :=
  let fraction := digits.drop 1
  digits.take 1 ++ (if fraction.isEmpty then [] else '.' :: fraction) ++ 'e' :: exponentText lead

/-- The text of chosen digits. -/
def Layout.render (layout : Layout) (chosen : Scientific) : List Char :=
  let digits := digitsOf chosen.digits
  let lead := chosen.exponent + digits.length - 1
  if layout.least ≤ lead ∧ lead < layout.bound then
    positional layout.wholePoint (stripZeros digits) lead
  else scientific (stripZeros digits) lead

/-- The text of a value, given how magnitudes are written. A value that is no number has no
sign. -/
def Value.render (magnitude : Magnitude → List Char) : Value → String
  | .nan => "nan"
  | .infinite negative => if negative then "-inf" else "inf"
  | .finite negative v => String.ofList ((if negative then ['-'] else []) ++ magnitude v)

/-- A float to `count` significant digits, without the zeros at their end. -/
def general (count : Nat) (x : Float) : String :=
  (Value.ofFloat x).render fun v => Layout.render ⟨-4, count, false⟩ (v.significant count)

/-- A float in the fewest digits that read back as it. -/
def shortest (x : Float) : String :=
  (Value.ofFloat x).render fun v => Layout.render ⟨-4, 16, true⟩ v.shortest

/-- A magnitude to `places` decimal places. -/
def fixedChars (places : Nat) (v : Magnitude) : List Char :=
  let n := roundDiv (v.num * Nat.pow 10 places) v.den
  let fraction := digitsOf (n % Nat.pow 10 places)
  digitsOf (n / Nat.pow 10 places) ++
    '.' :: (List.replicate (places - fraction.length) '0' ++ fraction)

/-- A float to `places` decimal places, of which there is at least one. -/
def fixed (places : Nat) (x : Float) : String :=
  (Value.ofFloat x).render (fixedChars places)

end Fluxion.Decimal
