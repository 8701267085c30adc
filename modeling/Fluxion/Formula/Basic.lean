import Fluxion.Expr.Basic
import Fluxion.Token

/-!
# Formulas

A formula is what a text says, before it is expressed in the few constructors of `Expr`. It
keeps what the text has and the expression loses: subtraction, division, the names of functions
and parentheses around a formula.

## Main definitions

* `Formula` — the trees of the grammar
* `Formula.tokens` — the kinds and texts of the tokens that a formula was read from
* `Formula.lower` — the expression that a formula stands for
-/

namespace Fluxion

/-- A formula as it is written. -/
inductive Formula where
  | num (literal : String)
  | euler
  | var (name : String)
  | add (left right : Formula)
  | sub (left right : Formula)
  | mul (left right : Formula)
  | div (left right : Formula)
  | pow (base exponent : Formula)
  | neg (operand : Formula)
  /-- A formula in parentheses. -/
  | group (inner : Formula)
  | call (function : FunctionName) (argument : Formula)
deriving DecidableEq

/-- A formula, or a formula whose value is given to a name. -/
structure Statement where
  name : Option String
  formula : Formula

namespace Formula

/-- The kind of a sign together with its text. -/
private def sign (kind : Token.Kind) : Token.Kind × String := (kind, kind.spelling)

/-- The tokens that a formula is written with, as kinds and texts. -/
def tokens : Formula → List (Token.Kind × String)
  | num literal => [(.number, literal)]
  | euler => [sign .euler]
  | var x => [(.name, x)]
  | add l r => l.tokens ++ sign .plus :: r.tokens
  | sub l r => l.tokens ++ sign .minus :: r.tokens
  | mul l r => l.tokens ++ sign .times :: r.tokens
  | div l r => l.tokens ++ sign .slash :: r.tokens
  | pow b e => b.tokens ++ sign .power :: e.tokens
  | neg f => sign .minus :: f.tokens
  | group f => sign .lparen :: (f.tokens ++ [sign .rparen])
  | call g f => sign (.apply g) :: sign .lparen :: (f.tokens ++ [sign .rparen])

variable {α : Type} [Coefficient α]

/-- The reciprocal of an expression, its power to minus one. -/
def reciprocal (e : Expr α) : Expr α := .pow e (.const (-1))

/-- A function applied to an expression: the tangent is a quotient of sine and cosine, the
secant the reciprocal of the cosine, and the root a power. -/
def applyFunction (g : FunctionName) (u : Expr α) : Expr α :=
  match g with
  | .sin => .sin u
  | .cos => .cos u
  | .tan => .mul (.sin u) (reciprocal (.cos u))
  | .sec => reciprocal (.cos u)
  | .log | .ln => .log u
  | .root => .pow u (.const Coefficient.half)

/-- The expression that a formula stands for. -/
def lower : Formula → Expr α
  | num literal => .const (Coefficient.ofNumeral (.ofLiteral literal))
  | euler => .const Coefficient.euler
  | var x => .var x
  | add l r => .add l.lower r.lower
  | sub l r => .add l.lower r.lower.negate
  | mul l r => .mul l.lower r.lower
  | div l r => .mul l.lower (reciprocal r.lower)
  | pow b e => .pow b.lower e.lower
  | neg f => f.lower.negate
  | group f => f.lower
  | call g f => applyFunction g f.lower

end Formula

end Fluxion
