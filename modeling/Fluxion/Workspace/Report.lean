import Fluxion.Expr.Text
import Fluxion.Workspace.Basic

/-!
# Reports

The outcome of a line, and the state of a workspace, as lines of text. Values have six
significant digits.

## Main definitions

* `Step.lines` — the outcome of a line
* `Workspace.tell`, `Workspace.report` — runs a line and reports on it
* `Workspace.summary` — the state of a workspace
-/

namespace Fluxion

/-- A value in a report. -/
def valueText (x : Float) : String := Decimal.general 6 x

/-- A value under a name. -/
def bindingLine (name : String) (value : Float) : String := name ++ " = " ++ valueText value

/-- The lines that report on the outcome of a line. -/
def Step.lines (s : Step Float) : List String :=
  match s.outcome with
  | .assigned name value => [bindingLine name value]
  | .derived derivative pruned reading =>
    ["expression: " ++ s.expression.text, "d/d" ++ s.wrt ++ ": " ++ derivative.text]
      ++ (pruned.map fun p => "pruned: " ++ p.text).toList
      ++ match reading with
        | some r => ["value: " ++ valueText r.value, "slope: " ++ valueText r.slope]
        | none => []

/-- The report on the outcome of a line. -/
def Step.report (s : Step Float) : String := "\n".intercalate s.lines

namespace Workspace

/-- Runs a line and tells its outcome. -/
def tell (line : String) : Action Float String := do
  return (← perform line).report

/-- Runs a line and reports on its outcome. -/
def report (w : Workspace Float) (line : String) :
    Except (Failure Float) (String × Workspace Float) :=
  w.outcome (tell line)

/-- The state of a workspace: what it differentiates by, and the values in the order of their
names. -/
def summary (w : Workspace Float) : String :=
  let mode := if w.prune then "on" else "off"
  "\n".intercalate
    (("=== dydx workspace (d/d" ++ w.wrt ++ ", prune=" ++ mode ++ ") ===")
      :: w.bindings.toList.map fun (name, value) => bindingLine name value)

end Workspace

end Fluxion
