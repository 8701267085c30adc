import Fluxion.Expr.Batch
import Fluxion.Failure
import Std.Data.TreeMap

/-!
# Bindings

Bindings give values to names. An expression is evaluated under bindings; when one of its
variables has no value, the failure tells which names have one.

## Main definitions

* `Bindings` — the values of names
* `Bindings.covers` — whether all variables of an expression have values
* `Bindings.evaluate`, `Bindings.evaluateBatch` — the value of an expression
-/

namespace Fluxion

/-- The values of names, in the order of the names. -/
abbrev Bindings (β : Type) := Std.TreeMap String β

namespace Bindings

variable {α : Type}

/-- Whether all variables of an expression have values. -/
def covers {β : Type} (bindings : Bindings β) (e : Expr α) : Bool := e.vars.all bindings.contains

/-- The value of a name. -/
def load (bindings : Bindings α) (name : String) : Except (Failure α) α :=
  match bindings[name]? with
  | some a => .ok a
  | none => .error (.unbound name bindings.keys)

variable [Arithmetic α]

/-- The value of an expression. -/
def evaluate (bindings : Bindings α) (e : Expr α) : Except (Failure α) α :=
  (e.eval fun x => bindings[x]?).mapError (Failure.ofEvalError bindings.keys)

/-- The value of an expression in which names stand for batches. -/
def evaluateBatch (bindings : Bindings (Batch α)) (e : Expr α) : Except (Failure α) (Batch α) :=
  (e.evalBatch fun x => bindings[x]?).mapError (Failure.ofEvalError bindings.keys)

end Bindings

end Fluxion
