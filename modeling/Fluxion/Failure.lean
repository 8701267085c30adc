import Fluxion.Decimal.Layout
import Fluxion.Expr.Evaluation
import Fluxion.Formula.ParseError

/-!
# Failures

What can go wrong with a line of input, by cause; and notices, which tell a caller about it.

## Main definitions

* `Failure` — the causes
* `Notice`, `Notice.message` — a family of failures, with a text
* `Failure.notice` — the notice for a cause
-/

namespace Fluxion

/-- Why a line has no result. -/
inductive Failure (α : Type) where
  /-- The line is no formula. -/
  | parse (error : ParseError)
  /-- A variable has no value; the names that have one are `available`. -/
  | unbound (name : String) (available : List String)
  /-- The operand of a logarithm is zero or below. -/
  | logDomain (operand : α)
  /-- Two batches of numbers have different lengths. -/
  | mismatch (left right : Nat)
  /-- Pruning met a zero to the power zero. -/
  | indeterminate
  /-- The expression is too deep to work on. -/
  | tooDeep

/-- What a caller is told about a failure. -/
inductive Notice where
  | symbolic (text : String)
  | parse (text : String) (position : Option Nat)
  | unbound (name : String) (available : List String)
  | domain (text : String)
  | mismatch (text : String)
  | indeterminate (text : String)
  | tooDeep (text : String)

namespace Notice

/-- The text for a zero to the power zero. -/
def indeterminateText : String := "0 ^ 0 is not well-defined"

/-- The text for batches of different lengths. -/
def mismatchText (left right : Nat) : String :=
  "The size of tensor a (" ++ toString left ++ ") must match the size of tensor b ("
    ++ toString right ++ ") at non-singleton dimension 0"

/-- The text for an expression that is too deep. -/
def tooDeepText : String := ParseError.tooDeep.reason

/-- The message of a notice. A position is told after the text of a parse error. -/
def message : Notice → String
  | symbolic text | domain text | mismatch text | indeterminate text | tooDeep text => text
  | parse text none => text
  | parse text (some position) => text ++ " (at position " ++ toString position ++ ")"
  | unbound name available =>
    let names := ", ".intercalate available
    "No binding provided for variable '" ++ name ++ "' (available: "
      ++ (if names.isEmpty then "none" else names) ++ ")"

end Notice

namespace Failure

/-- The failure of an evaluation in which the names `available` have values. -/
def ofEvalError {α : Type} (available : List String) : EvalError α → Failure α
  | .unbound name => unbound name available
  | .logDomain operand => logDomain operand
  | .mismatch left right => mismatch left right

/-- The notice for a failure. -/
def notice : Failure Float → Notice
  | parse error => .parse error.reason error.position?
  | unbound name available => .unbound name available
  | logDomain operand =>
    .domain ("log(u) requires u > 0, got u=" ++ Decimal.general 6 operand)
  | mismatch left right => .mismatch (Notice.mismatchText left right)
  | indeterminate => .indeterminate Notice.indeterminateText
  | tooDeep => .tooDeep Notice.tooDeepText

/-- The message of a failure. -/
def message (f : Failure Float) : String := f.notice.message

end Failure

end Fluxion
