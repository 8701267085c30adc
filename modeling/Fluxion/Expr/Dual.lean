import Fluxion.Expr.Evaluation

/-!
# Evaluation with slopes

One variable moves, the others stay. Every value is computed together with its slope, which tells
how fast it changes with that variable. No expression for the derivative is made on the way: each
operation gives the slope of its result from the values and the slopes of its operands.

## Main definitions

* `Dual` — a number and its slope, with the operations on both
* `Expr.evalDual` — the value of an expression and its slope
-/

namespace Fluxion

/-- A number, and how fast it changes. -/
structure Dual (α : Type) where
  value : α
  slope : α

namespace Dual

variable {α : Type} [Arithmetic α]

/-- What an operand contributes to a slope. An operand that does not move contributes nothing,
also where the factor is no number. -/
def part (slope factor : α) : α := if slope == 0 then 0 else slope * factor

/-- A number that does not move. -/
def still (c : α) : Dual α := ⟨c, 0⟩

/-- The sum. -/
def add (u v : Dual α) : Dual α := ⟨u.value + v.value, u.slope + v.slope⟩

/-- The product. -/
def mul (u v : Dual α) : Dual α :=
  ⟨u.value * v.value, part u.slope v.value + part v.slope u.value⟩

/-- The first number to the power of the second. -/
def pow (u v : Dual α) : Dual α :=
  let w := Arithmetic.pow u.value v.value
  ⟨w, part u.slope (v.value * Arithmetic.pow u.value (v.value - 1))
    + part v.slope (w * Arithmetic.log u.value)⟩

/-- The natural logarithm. -/
def log (u : Dual α) : Dual α :=
  ⟨Arithmetic.log u.value, part u.slope (Arithmetic.pow u.value (-1))⟩

/-- The sine. -/
def sin (u : Dual α) : Dual α := ⟨Arithmetic.sin u.value, part u.slope (Arithmetic.cos u.value)⟩

/-- The cosine. -/
def cos (u : Dual α) : Dual α :=
  ⟨Arithmetic.cos u.value, part u.slope (-Arithmetic.sin u.value)⟩

end Dual

namespace Expr

variable {α : Type} [Arithmetic α]

/-- The natural logarithm of a number in its domain, with its slope. -/
def evalLogDual (u : Dual α) : Except (EvalError α) (Dual α) :=
  if Arithmetic.isNonpos u.value then .error (.logDomain u.value) else .ok u.log

/-- The value of an expression and its slope, given those of variables. -/
def evalDual (values : String → Option (Dual α)) : Expr α → Except (EvalError α) (Dual α)
  | const c => .ok (.still c)
  | var x => match values x with
    | some a => .ok a
    | none => .error (.unbound x)
  | add l r => do return (← evalDual values l).add (← evalDual values r)
  | mul l r => do return (← evalDual values l).mul (← evalDual values r)
  | pow b e => do return (← evalDual values b).pow (← evalDual values e)
  | log f => do evalLogDual (← evalDual values f)
  | sin f => do return (← evalDual values f).sin
  | cos f => do return (← evalDual values f).cos

end Expr

end Fluxion
