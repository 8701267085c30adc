/-!
# Decimal numerals

A formula writes its numbers in positional notation without sign or exponent. The numeral is
kept exact; each number type reads it in its own way.
-/

namespace Fluxion.Decimal

/-- The number `digits / 10 ^ places`. -/
structure Numeral where
  /-- All digits, as one number. -/
  digits : Nat
  /-- How many of the digits stand after the point. -/
  places : Nat

namespace Numeral

/-- The numeral that a text of digits with at most one point stands for. -/
def ofLiteral (literal : String) : Numeral :=
  let chars := literal.toList
  let whole := chars.takeWhile (· != '.')
  let fraction := (chars.dropWhile (· != '.')).drop 1
  ⟨Nat.ofDigitChars 10 (whole ++ fraction) 0, fraction.length⟩

/-- The float nearest to a numeral, a half going to the even neighbour. -/
def toFloat (n : Numeral) : Float := Float.ofScientific n.digits true n.places

end Numeral

end Fluxion.Decimal
