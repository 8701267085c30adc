import Fluxion.Bindings
import Fluxion.Expr.Derivative
import Fluxion.Formula.Parser

/-!
# Workspaces

A workspace holds the values of names, the variable that derivatives are taken with respect to,
and whether derivatives are pruned. It runs one line at a time. An assignment evaluates its
formula and then gives the value to the name. Any other formula is differentiated and, when all
its variables have values, evaluated together with its derivative.

A workspace is changed in place, and a failure undoes nothing: what is done with a workspace is an
action that has a workspace after it in any case, be there a value or a failure.

## Main definitions

* `Workspace` — the state of a session
* `Step` — the outcome of a line
* `Workspace.Action`, `Workspace.perform` — runs a line
* `Workspace.outcome`, `Workspace.run` — the same for a caller who is told of a failure only
-/

namespace Fluxion

/-- The state of a session. -/
structure Workspace (α : Type) where
  /-- The variable that derivatives are taken with respect to. -/
  wrt : String := "x"
  /-- Whether derivatives are pruned. -/
  prune : Bool := true
  /-- The values of names. -/
  bindings : Bindings α := ∅

/-- The value of an expression and the value of its derivative. -/
structure Reading (α : Type) where
  value : α
  slope : α

/-- What was done with the expression of a line. -/
inductive Outcome (α : Type) where
  /-- Its value was given to a name. -/
  | assigned (name : String) (value : α)
  /-- It was differentiated; the derivative was pruned if the workspace asks for it, and read if
  all variables have values. -/
  | derived (derivative : Expr α) (pruned : Option (Expr α)) (reading : Option (Reading α))

/-- The outcome of a line. -/
structure Step (α : Type) where
  expression : Expr α
  /-- The variable that derivatives were taken with respect to. -/
  wrt : String
  outcome : Outcome α

/-- The greatest depth of an expression that is worked on. -/
def depthLimit : Nat := 400

/-- An expression that is not too deep to work on. -/
def checkDepth {α : Type} (e : Expr α) : Except (Failure α) (Expr α) :=
  if depthLimit < e.depth then .error .tooDeep else .ok e

/-- A derivative or a pruned expression; there is none only when a zero to the power zero is
met. -/
def determinate {α : Type} : Option (Expr α) → Except (Failure α) (Expr α)
  | some e => .ok e
  | none => .error .indeterminate

namespace Workspace

variable {α : Type}

/-- Gives a value to a name. -/
def save (w : Workspace α) (name : String) (value : α) : Workspace α :=
  { w with bindings := w.bindings.insert name value }

/-- Takes the values of all names away. -/
def clear (w : Workspace α) : Workspace α := { w with bindings := ∅ }

/-- What is done with a workspace. It may fail, and what was done before it does is not undone. -/
abbrev Action (α β : Type) := EStateM (Failure α) (Workspace α) β

/-- Goes on with a result, or fails. -/
def attempt {β : Type} : Except (Failure α) β → Action α β := liftExcept

/-- The value of an action and the workspace after it, or the failure. -/
def outcome {β : Type} (w : Workspace α) (action : Action α β) :
    Except (Failure α) (β × Workspace α) :=
  match action.run w with
  | .ok b w => .ok (b, w)
  | .error failure _ => .error failure

variable [Arithmetic α]

/-- The values of an expression and of its derivative, if all variables have values. -/
def read (w : Workspace α) (e derivative : Expr α) : Except (Failure α) (Option (Reading α)) :=
  if w.bindings.covers e then do
    let value ← w.bindings.evaluate e
    let slope ← w.bindings.evaluate derivative
    return some ⟨value, slope⟩
  else return none

/-- What becomes of an expression that is not assigned. -/
def derive (w : Workspace α) (e : Expr α) : Except (Failure α) (Outcome α) := do
  let derivative ← determinate (e.diff? w.wrt)
  let pruned ← if w.prune then some <$> determinate derivative.simplify? else pure none
  let reading ← w.read e (pruned.getD derivative)
  return .derived derivative pruned reading

/-- Runs a line. -/
def perform (line : String) : Action α (Step α) := do
  let statement ← attempt ((Statement.parse line).mapError Failure.parse)
  let e ← attempt (checkDepth statement.formula.lower)
  match statement.name with
  | some name =>
    let value ← attempt ((← get).bindings.evaluate e)
    modify (·.save name value)
    return ⟨e, (← get).wrt, .assigned name value⟩
  | none =>
    let w ← get
    return ⟨e, w.wrt, ← attempt (w.derive e)⟩

/-- Runs a line; the result is the outcome and the workspace after it. -/
def run (w : Workspace α) (line : String) : Except (Failure α) (Step α × Workspace α) :=
  w.outcome (perform line)

end Workspace

end Fluxion
