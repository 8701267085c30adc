import Fluxion.Expr.Batch
import Fluxion.Expr.Derivative
import Fluxion.Expr.Dual
import Fluxion.Expr.Text

/-!
# A demonstration

Three expressions are differentiated and pruned, and the slope of the first one is read at six
points in two ways: from the pruned derivative, for all points at once, and without a derivative,
by an evaluation with slopes at each point.

## Main definitions

* `Demo.lines` — the lines of the demonstration
* `Demo.largestError` — how far the two ways of reading a slope are apart
-/

namespace Fluxion.Demo

open Fluxion.Expr

/-- The polynomial `1.1 · 3.3 + 2.2 · x + x³`. -/
def polynomial : Expr Float :=
  add (add (mul (const 1.1) (const 3.3)) (mul (const 2.2) (var "x"))) (pow (var "x") (const 3))

/-- The reciprocal of `x`. -/
def inverse : Expr Float := pow (var "x") (const (-1))

/-- The logarithm of a cube. -/
def logCube : Expr Float := log (pow (var "x") (const 3))

/-- The text of an expression, if there is one. -/
def shown (e : Option (Expr Float)) : String := (e.map Expr.text).getD "undefined"

/-- The derivative with respect to `x`. -/
def derivative (e : Expr Float) : Option (Expr Float) := e.diff? "x"

/-- The points at which slopes are read: six at equal distances from 0.5 to 3. -/
def points : List Float := (List.range 6).map fun i => 0.5 + 0.5 * i.toFloat

/-- The slopes of the polynomial at all points, from the pruned derivative. -/
def slopesAtOnce : List Float :=
  match derivative polynomial >>= simplify? with
  | none => []
  | some d =>
    match d.evalBatch fun x => if x = "x" then some (.lanes points) else none with
    | .ok batch => batch.toList
    | .error _ => []

/-- The slopes of the polynomial point by point, from evaluations in which `x` moves. -/
def slopesOneByOne : List Float :=
  points.filterMap fun a =>
    match polynomial.evalDual fun x => if x = "x" then some ⟨a, 1⟩ else none with
    | .ok u => some u.slope
    | .error _ => none

/-- A table of numbers: four decimal places, right-aligned to the widest, on one line; the type
of the numbers follows on a second line. -/
def table (numbers : List Float) : List String :=
  let texts := numbers.map (Decimal.fixed 4)
  let width := texts.foldl (fun w t => max w t.length) 0
  let padded := texts.map fun t => String.ofList (List.replicate (width - t.length) ' ') ++ t
  ["tensor([" ++ ", ".intercalate padded ++ "],", "       dtype=torch.float64)"]

/-- Lines with a text before the first one. -/
def headed (head : String) : List String → List String
  | [] => [head]
  | line :: lines => (head ++ line) :: lines

/-- The greatest difference between the slopes that were read in the two ways. -/
def largestError : Float :=
  (slopesAtOnce.zip slopesOneByOne).foldl (fun most (a, b) => max most (a - b).abs) 0

/-- The lines of the demonstration. -/
def lines : List String :=
  ["=== dydx: Symbolic Differentiation Demo ===",
   "[1] Polynomial",
   "Expression: " ++ polynomial.text,
   "Derivative: " ++ shown (derivative polynomial),
   "Derivative (pruned): " ++ shown (derivative polynomial >>= simplify?),
   "2nd derivative: " ++ shown (derivative polynomial >>= derivative),
   "2nd derivative (pruned): " ++ shown (derivative polynomial >>= derivative >>= simplify?),
   "",
   "[2] Reciprocal",
   "d/dx " ++ inverse.text ++ " = " ++ shown (derivative inverse >>= simplify?),
   "",
   "[3] Log of a cubic",
   "Log of cubic (pruned): " ++ shown logCube.simplify?,
   "Derivative: " ++ shown (derivative logCube),
   "Derivative, pruned: " ++ shown (derivative logCube >>= simplify?),
   "Derivative of pruned: " ++ shown (logCube.simplify? >>= derivative >>= simplify?)]
  ++ ((logCube.simplify?.map fun e => e.outline 0).getD [])
  ++ ["", "[4] Checking against autograd"]
  ++ headed "symbolic: " (table slopesAtOnce)
  ++ headed "autograd: " (table slopesOneByOne)
  ++ ["max error: " ++ Decimal.general 3 largestError]

end Fluxion.Demo
