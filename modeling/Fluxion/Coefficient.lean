import Fluxion.Decimal.Numeral

/-!
# The numbers of an expression

Expressions are built over any type of coefficients. Differentiation and pruning ask little of
it: zero, one, a half, the base of the natural logarithm, negation, taking one away, and a
test for equality. Evaluation asks for arithmetic besides.

## Main definitions

* `Coefficient` — what differentiation, pruning and parsing need
* `Arithmetic` — what evaluation needs
* the instances for `Float`
-/

namespace Fluxion

open Decimal (Numeral)

/-- Numbers that may stand in an expression. -/
class Coefficient (α : Type) extends Zero α, One α, Neg α, Sub α, BEq α where
  /-- The exponent of a square root. -/
  half : α
  /-- The base of the natural logarithm. -/
  euler : α
  /-- The number that a numeral stands for. -/
  ofNumeral : Numeral → α

/-- Numbers that expressions can be evaluated to. -/
class Arithmetic (α : Type) extends Coefficient α, Add α, Mul α where
  /-- The first number to the power of the second. -/
  pow : α → α → α
  /-- The natural logarithm. -/
  log : α → α
  /-- The sine of an angle in radians. -/
  sin : α → α
  /-- The cosine of an angle in radians. -/
  cos : α → α
  /-- Whether a number is outside the domain of the logarithm, at zero or below. -/
  isNonpos : α → Bool
  /-- The smaller of two numbers; what is no number is smaller than every number. -/
  lesser : α → α → α

instance : Coefficient Float where
  half := 0.5
  euler := 2.718281828459045
  ofNumeral := Numeral.toFloat

instance : Arithmetic Float where
  pow := Float.pow
  log := Float.log
  sin := Float.sin
  cos := Float.cos
  isNonpos x := x ≤ 0
  lesser x y := if x.isNaN then x else if y.isNaN then y else if y < x then y else x

end Fluxion
