import Fluxion.Token

/-!
# Parse errors

A text that is no formula is rejected at one of its tokens, or at its end. A formula whose
parts are nested too deeply is rejected as a whole.

## Main definitions

* `Expected` — what a formula would have to continue with
* `ParseError` — why a text was rejected
* `ParseError.reason`, `ParseError.position?` — how the reason is told
-/

namespace Fluxion

/-- What could have stood where parsing stopped. -/
inductive Expected where
  /-- A number, a variable, a function or an opening parenthesis. -/
  | operand
  /-- The opening parenthesis of an argument. -/
  | opening
  /-- A closing parenthesis. -/
  | closing
  /-- The end of the text. -/
  | finish
deriving DecidableEq

/-- The wording of an expectation. -/
def Expected.text : Expected → String
  | operand => "Expected a number, variable, function or '('"
  | opening => "Expected '('"
  | closing => "Expected ')'"
  | finish => "Unexpected trailing input"

/-- Why a text is rejected. -/
inductive ParseError where
  /-- A piece of text belongs to no formula. -/
  | illegal (literal : String) (position : Nat)
  /-- A token cannot stand where it does, or the text ends too early. -/
  | unexpected (expected : Expected) (found : Option String) (position : Nat)
  /-- Parts of the formula are nested too deeply. -/
  | tooDeep
deriving DecidableEq

namespace ParseError

/-- Where the rejected token starts, if there is one. -/
def position? : ParseError → Option Nat
  | illegal _ position | unexpected _ _ position => some position
  | tooDeep => none

/-- The reason without the position. -/
def reason : ParseError → String
  | illegal literal _ => "Illegal character '" ++ literal ++ "'"
  | unexpected expected (some literal) _ => expected.text ++ ": got '" ++ literal ++ "'"
  | unexpected expected none _ => expected.text ++ ": unexpected end of input"
  | tooDeep => "expression nested too deeply"

end ParseError

end Fluxion
