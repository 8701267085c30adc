import Fluxion.Decimal.Layout
import Fluxion.Expr.Basic

/-!
# The two texts of an expression

On one line, sums and products stand in parentheses, and so do exponents and the operands of
functions; a base does not. Constants have six decimal places.

As an outline, every node has a line of its own, indented by two blanks for each level above
zero, and a node with operands a closing line as well. Constants have as many digits as they
need.

## Main definitions

* `Expr.text` — the text on one line
* `Expr.outline` — the lines of the outline
-/

namespace Fluxion.Expr

/-- The text of an expression on one line. -/
def text : Expr Float → String
  | const c => Decimal.fixed 6 c
  | var x => x
  | add l r => "(" ++ l.text ++ " + " ++ r.text ++ ")"
  | mul l r => "(" ++ l.text ++ " * " ++ r.text ++ ")"
  | pow b e => b.text ++ "^(" ++ e.text ++ ")"
  | log f => "log (" ++ f.text ++ ")"
  | sin f => "sin (" ++ f.text ++ ")"
  | cos f => "cos (" ++ f.text ++ ")"

/-- A line of the outline at a level; there is no indentation below level zero. -/
def outlineLine (level : Int) (content : String) : String :=
  String.ofList (List.replicate (2 * level).toNat ' ') ++ content

/-- The lines of the outline of an expression at a level. -/
def outline (level : Int) : Expr Float → List String
  | const c => [outlineLine level ("Const(" ++ Decimal.shortest c ++ ")")]
  | var x => [outlineLine level ("Var(" ++ x ++ ")")]
  | add l r => outlineBlock level "Add" (outline (level + 1) l ++ outline (level + 1) r)
  | mul l r => outlineBlock level "Mul" (outline (level + 1) l ++ outline (level + 1) r)
  | pow b e => outlineBlock level "Pow" (outline (level + 1) b ++ outline (level + 1) e)
  | log f => outlineBlock level "log" (outline (level + 1) f)
  | sin f => outlineBlock level "sin" (outline (level + 1) f)
  | cos f => outlineBlock level "cos" (outline (level + 1) f)
where
  /-- A node with operands: its head, the lines of the operands, and the closing line. -/
  outlineBlock (level : Int) (head : String) (operands : List String) : List String :=
    outlineLine level (head ++ "(") :: (operands ++ [outlineLine level ")"])

/-- The outline of an expression as one text. -/
def outlineText (e : Expr Float) (level : Int) : String := "\n".intercalate (e.outline level)

end Fluxion.Expr
