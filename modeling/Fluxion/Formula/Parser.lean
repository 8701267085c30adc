import Fluxion.Formula.Basic
import Fluxion.Formula.ParseError
import Fluxion.Lexer

/-!
# Parsing

The grammar, from the loosest rule to the tightest:

    sum      := product (('+' | '-') product)*
    product  := unary (('*' | '/') unary)*
    unary    := '-' unary | power
    power    := atom ('^' unary)?
    atom     := number | name | 'e' | '(' sum ')' | function '(' sum ')'

A minus sign binds looser than a power and may stand in an exponent. Sums and products are read
from the left, powers from the right. A statement may be preceded by a name and `=`.

## Main definitions

* `Parser` — reads a value from the front of a list of tokens
* `Formula.unary`, `Formula.sum` — the rules of the grammar
* `Formula.parse`, `Statement.parse` — a whole text

## Implementation notes

The rules recurse on a budget: a minus sign, an exponent, a pair of parentheses and an argument
each take one from it for what they contain. A text that exceeds the budget is rejected as too
deep, as soon as that is known from reading it from left to right.

The operands of a sum or a product are read in a loop. Each operand takes at least one token,
so the number of tokens bounds the number of turns.
-/

namespace Fluxion

/-- Why a parser stops: it expects something else than the tokens that follow, or its budget
is exhausted. -/
inductive Fault where
  | unexpected (expected : Expected) (rest : List Token)
  | tooDeep

/-- Reads a value from the front of a list of tokens and returns the tokens after it. -/
abbrev Parser (β : Type) := List Token → Except Fault (β × List Token)

namespace Formula

/-- How an operator makes one formula of two. -/
abbrev Join := Formula → Formula → Formula

/-- The tokens after one of the kind that has to come next. -/
def expect (kind : Token.Kind) (expected : Expected) : List Token → Except Fault (List Token)
  | t :: ts => if t.kind = kind then .ok ts else .error (.unexpected expected (t :: ts))
  | [] => .error (.unexpected expected [])

/-- Operands joined by operators, read from the left: `left` is what was read so far, and there
are at most `turns` more operands. -/
def chain (operand : Parser Formula) (operator? : Token.Kind → Option Join) :
    Nat → Formula → Parser Formula
  | turns + 1, left, t :: ts =>
    match operator? t.kind with
    | some join => do
      let (right, rest) ← operand ts
      chain operand operator? turns (join left right) rest
    | none => .ok (left, t :: ts)
  | _, left, ts => .ok (left, ts)

/-- An operand, and all operators and operands that follow it. -/
def joined (operand : Parser Formula) (operator? : Token.Kind → Option Join) :
    Parser Formula := fun ts => do
  let (left, rest) ← operand ts
  chain operand operator? rest.length left rest

/-- The operators of a sum. -/
def additive? : Token.Kind → Option Join
  | .plus => some add
  | .minus => some sub
  | _ => none

/-- The operators of a product. -/
def multiplicative? : Token.Kind → Option Join
  | .times => some mul
  | .slash => some div
  | _ => none

/-- A sum of products of operands. -/
def sumOf (operand : Parser Formula) : Parser Formula :=
  joined (joined operand multiplicative?) additive?

/-- A number, a name, the base of the natural logarithm, or `inner` in parentheses, alone or as
the argument of a function. -/
def atom (inner : Parser Formula) : Parser Formula
  | [] => .error (.unexpected .operand [])
  | t :: ts =>
    match t.kind with
    | .number => .ok (num t.literal, ts)
    | .euler => .ok (euler, ts)
    | .name => .ok (var t.literal, ts)
    | .lparen => do
      let (f, ts) ← inner ts
      return (group f, ← expect .rparen .closing ts)
    | .apply g => do
      let (f, ts) ← inner (← expect .lparen .opening ts)
      return (call g f, ← expect .rparen .closing ts)
    | _ => .error (.unexpected .operand (t :: ts))

/-- An atom, or an atom to the power of an exponent. -/
def powerOf (base exponent : Parser Formula) : Parser Formula := fun ts => do
  let (b, rest) ← base ts
  match rest with
  | [] => return (b, [])
  | t :: ts =>
    if t.kind = .power then
      let (e, rest) ← exponent ts
      return (pow b e, rest)
    else return (b, t :: ts)

/-- A power with any number of minus signs before it, nested within a budget. -/
def unary : Nat → Parser Formula
  | 0, _ => .error .tooDeep
  | _ + 1, [] => .error (.unexpected .operand [])
  | budget + 1, t :: ts =>
    if t.kind = .minus then do
      let (f, rest) ← unary budget ts
      return (neg f, rest)
    else powerOf (atom (sumOf (unary budget))) (unary budget) (t :: ts)

/-- A sum, nested within a budget. -/
def sum (budget : Nat) : Parser Formula := sumOf (unary budget)

/-- A sum that takes all tokens. -/
def complete (budget : Nat) (ts : List Token) : Except Fault Formula := do
  let (f, rest) ← sum budget ts
  match rest with
  | [] => return f
  | t :: ts => throw (.unexpected .finish (t :: ts))

/-- How deeply the parts of a formula may be nested. -/
def nestingLimit : Nat := 400

end Formula

/-- The reason of a fault in a text that ends at `finish`. -/
def Fault.toParseError (finish : Nat) : Fault → ParseError
  | .unexpected expected [] => .unexpected expected none finish
  | .unexpected expected (t :: _) =>
    if t.kind = .illegal then .illegal t.literal t.position
    else .unexpected expected (some t.literal) t.position
  | .tooDeep => .tooDeep

/-- The formula that a text is. -/
def Formula.parse (text : String) : Except ParseError Formula :=
  (Formula.complete nestingLimit (Lexer.tokenize text)).mapError (Fault.toParseError text.length)

namespace Statement

/-- The name that a statement is about, and the tokens of its formula. -/
def splitName : List Token → Option String × List Token
  | ⟨.name, x, _⟩ :: ⟨.assign, _, _⟩ :: ts => (some x, ts)
  | ts => (none, ts)

/-- The statement that a text is. -/
def parse (text : String) : Except ParseError Statement :=
  let (name, ts) := splitName (Lexer.tokenize text)
  match Formula.complete Formula.nestingLimit ts with
  | .ok formula => .ok ⟨name, formula⟩
  | .error fault => .error (fault.toParseError text.length)

end Statement

end Fluxion
