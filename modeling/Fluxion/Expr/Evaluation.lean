import Fluxion.Expr.Basic

/-!
# Evaluation

An expression is evaluated from left to right, a base before its exponent. A variable needs a
value, and the operand of a logarithm must not be zero or below; the first of these that fails
ends the evaluation.

## Main definitions

* `EvalError` — the ways in which evaluation fails
* `Expr.eval` — the value of an expression
-/

namespace Fluxion

/-- Why an expression has no value. -/
inductive EvalError (α : Type) where
  /-- A variable has no value. -/
  | unbound (name : String)
  /-- The operand of a logarithm is zero or below. -/
  | logDomain (operand : α)
  /-- Two batches of numbers have different lengths. -/
  | mismatch (left right : Nat)

namespace Expr

variable {α : Type} [Arithmetic α]

/-- The natural logarithm of a number in its domain. -/
def evalLog (u : α) : Except (EvalError α) α :=
  if Arithmetic.isNonpos u then .error (.logDomain u) else .ok (Arithmetic.log u)

/-- The value of an expression, given the values of variables. -/
def eval (values : String → Option α) : Expr α → Except (EvalError α) α
  | const c => .ok c
  | var x => match values x with
    | some a => .ok a
    | none => .error (.unbound x)
  | add l r => do return (← eval values l) + (← eval values r)
  | mul l r => do return (← eval values l) * (← eval values r)
  | pow b e => do return Arithmetic.pow (← eval values b) (← eval values e)
  | log f => do evalLog (← eval values f)
  | sin f => do return Arithmetic.sin (← eval values f)
  | cos f => do return Arithmetic.cos (← eval values f)

end Expr

end Fluxion
