import Fluxion.Coefficient

/-!
# Expressions

An expression is a constant, a variable, a sum, a product, a power, a natural logarithm, a sine
or a cosine. There is no subtraction and no division: `negate`, and powers of minus one, take
their place.

## Main definitions

* `Expr` — the trees
* `Expr.isZero`, `Expr.isOne` — the shapes that are known to be zero, and the literal one
* `Expr.vars` — the variables, from left to right
* `Expr.weight` — the measure by which differentiation and pruning end
* `Expr.depth` — the height of the tree

## Implementation notes

`isZero` looks at shapes only. It holds of a power when the base has such a shape and the
exponent has not, of a logarithm when the operand is the literal one, of a sine when the
operand has such a shape, and never of a cosine.

The weight counts a logarithm twice and the base of a power twice, so that taking the logarithm
of a power or of a product apart makes the expression lighter although it has more nodes.
-/

namespace Fluxion

/-- An expression with constants from `α`. -/
inductive Expr (α : Type) where
  | const (c : α)
  | var (name : String)
  | add (left right : Expr α)
  | mul (left right : Expr α)
  | pow (base exponent : Expr α)
  | log (operand : Expr α)
  | sin (operand : Expr α)
  | cos (operand : Expr α)
deriving BEq

namespace Expr

variable {α : Type}

/-- The constant that an expression is. -/
def constant? : Expr α → Option α
  | const c => some c
  | _ => none

/-- The variables of an expression, from left to right, each as often as it occurs. -/
def vars : Expr α → List String
  | const _ => []
  | var x => [x]
  | add l r | mul l r | pow l r => l.vars ++ r.vars
  | log f | sin f | cos f => f.vars

/-- The variables of an expression in order, each once. -/
def sortedVars (e : Expr α) : List String := e.vars.eraseDups.mergeSort

/-- The number of nodes on the longest path from the root. -/
def depth : Expr α → Nat
  | const _ | var _ => 1
  | add l r | mul l r | pow l r => max l.depth r.depth + 1
  | log f | sin f | cos f => f.depth + 1

/-- The measure of an expression by which differentiation and pruning end. -/
def weight : Expr α → Nat
  | const _ | var _ => 1
  | add l r | mul l r => l.weight + r.weight + 1
  | pow b e => 2 * b.weight + e.weight + 2
  | log f => 2 * f.weight
  | sin f | cos f => f.weight + 1

theorem weight_pos (e : Expr α) : 0 < e.weight := by
  induction e <;> simp only [weight] <;> omega

variable [Coefficient α]

/-- Whether an expression is the literal one. -/
def isOne : Expr α → Bool
  | const c => c == 1
  | _ => false

/-- Whether an expression has a shape known to be zero. -/
def isZero : Expr α → Bool
  | const c => c == 0
  | var _ => false
  | add l r => l.isZero && r.isZero
  | mul l r => l.isZero || r.isZero
  | pow b e => b.isZero && !e.isZero
  | log f => f.isOne
  | sin f => f.isZero
  | cos _ => false

/-- The negative of an expression: a constant changes its sign, anything else is multiplied by
minus one. -/
def negate : Expr α → Expr α
  | const c => const (-c)
  | e => mul (const (-1)) e

end Expr

end Fluxion
