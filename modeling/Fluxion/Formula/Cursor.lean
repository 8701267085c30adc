import Fluxion.Formula.Parser

/-!
# A parser that is used again and again

`Formula.parse` and `Statement.parse` are functions of a text. The same grammar is read here by an
object that is given one text after another. It holds the tokens of the last text, with the end
behind them, and the number of the token that it has come to; it looks at that token, and at one
point at the next one, and goes on.

What is done with a cursor before an error is met is not undone. The next text finds the cursor
where the last one left it.

## Main definitions

* `Cursor` — the tokens of a text, and a place among them
* `Cursor.Action` — a value or an error, and the cursor after either
* `Cursor.unary`, `Cursor.sum` — the rules of the grammar
* `Cursor.parse`, `Cursor.parseStatement` — a whole text
* `Cursor.Call`, `Cursor.given`, `Cursor.answers` — texts that are given one after another, the
  cursor after them, and what is answered
-/

namespace Fluxion

/-- A place among the tokens of a text. -/
structure Cursor where
  /-- The tokens of the text that was given last, and the end. -/
  tokens : List Token := []
  /-- The number of the token that the cursor has come to. -/
  index : Nat := 0

/-- The error of a token that cannot stand where it does. -/
def Token.refusal (t : Token) (expected : Expected) : ParseError :=
  match t.kind with
  | .illegal => .illegal t.literal t.position
  | .finish => .unexpected expected none t.position
  | _ => .unexpected expected (some t.literal) t.position

namespace Cursor

open Formula (Join additive? multiplicative? nestingLimit)

/-- The cursor at the first token of a text. -/
def ofText (text : String) : Cursor := ⟨(Lexer.ofText text).tokensAndFinish.1, 0⟩

/-- The token that the cursor has come to. Once a text was given there is one, so that the other
value of `getD` is never taken, here and in `following`. -/
def current (c : Cursor) : Token := c.tokens.getD c.index ⟨.finish, "", 0⟩

/-- The token after that; behind the last one there is only itself. -/
def following (c : Cursor) : Token :=
  c.tokens.getD (min (c.index + 1) (c.tokens.length - 1)) ⟨.finish, "", 0⟩

/-- The cursor one token further, but not behind the end. -/
def forward (c : Cursor) : Cursor :=
  if c.current.kind = .finish then c else { c with index := c.index + 1 }

/-- How many tokens there are before the end. -/
def left (c : Cursor) : Nat := c.tokens.length - 1 - c.index

/-- What is done with a cursor. -/
abbrev Action (β : Type) := EStateM ParseError Cursor β

/-! ### Tokens -/

/-- Goes on to the next token. -/
def advance : Action Unit := modify forward

/-- Refuses the token that the cursor has come to. -/
def reject {β : Type} (expected : Expected) : Action β := do
  throw ((← get).current.refusal expected)

/-- Goes past a token of the kind that has to come next. -/
def expect (kind : Token.Kind) (expected : Expected) : Action Unit := do
  if (← get).current.kind = kind then advance else reject expected

/-- Refuses whatever is not the end. -/
def expectEnd : Action Unit := do
  if (← get).current.kind ≠ .finish then reject .finish

/-! ### The grammar -/

/-- Operands joined by operators, with `left` for what was read so far, and at most `turns` more
operands. -/
def chain (operand : Action Formula) (operator? : Token.Kind → Option Join) :
    Nat → Formula → Action Formula
  | 0, left => return left
  | turns + 1, left => do
    match operator? (← get).current.kind with
    | some join =>
      advance
      let right ← operand
      chain operand operator? turns (join left right)
    | none => return left

/-- An operand, and all operators and operands that follow it. -/
def joined (operand : Action Formula) (operator? : Token.Kind → Option Join) :
    Action Formula := do
  let first ← operand
  chain operand operator? (← get).left first

/-- A sum of products of operands. -/
def sumOf (operand : Action Formula) : Action Formula :=
  joined (joined operand multiplicative?) additive?

/-- What `inner` reads, up to the closing parenthesis after it. -/
def closed (inner : Action Formula) (wrap : Formula → Formula) : Action Formula := do
  let f ← inner
  expect .rparen .closing
  return wrap f

/-- A number, a name, the base of the natural logarithm, or `inner` in parentheses, alone or as
the argument of a function. -/
def atom (inner : Action Formula) : Action Formula := do
  let t := (← get).current
  match t.kind with
  | .number =>
    advance
    return .num t.literal
  | .euler =>
    advance
    return .euler
  | .name =>
    advance
    return .var t.literal
  | .lparen =>
    advance
    closed inner .group
  | .apply g =>
    advance
    expect .lparen .opening
    closed inner (.call g)
  | _ => reject .operand

/-- An atom, or an atom to the power of an exponent. -/
def powerOf (base exponent : Action Formula) : Action Formula := do
  let b ← base
  if (← get).current.kind = .power then
    advance
    let e ← exponent
    return .pow b e
  else return b

/-- A power with any number of minus signs before it, nested within a budget. -/
def unary : Nat → Action Formula
  | 0 => throw .tooDeep
  | budget + 1 => do
    if (← get).current.kind = .minus then
      advance
      let f ← unary budget
      return .neg f
    else powerOf (atom (sumOf (unary budget))) (unary budget)

/-- A sum, nested within a budget. -/
def sum (budget : Nat) : Action Formula := sumOf (unary budget)

/-! ### Whole texts -/

/-- A sum that takes all tokens. -/
def complete : Action Formula := do
  let f ← sum nestingLimit
  expectEnd
  return f

/-- The formula that a text is. -/
def parse (text : String) : Action Formula := do
  set (ofText text)
  complete

/-- Goes past a name and an equals sign, if these come first; the name, if it does. -/
def splitName : Action (Option String) := do
  let c ← get
  if c.current.kind = .name ∧ c.following.kind = .assign then
    advance
    advance
    return some c.current.literal
  else return none

/-- The statement that a text is. -/
def parseStatement (text : String) : Action Statement := do
  set (ofText text)
  let name ← splitName
  let formula ← complete
  return ⟨name, formula⟩

/-! ### One text after another -/

/-- A text that a cursor is given. -/
inductive Call where
  | formula (text : String)
  | statement (text : String)

/-- What a cursor makes of a text; a formula counts as a statement without a name. -/
def Call.action : Call → Action Statement
  | formula text => do return ⟨none, ← parse text⟩
  | statement text => parseStatement text

/-- The value of an action, or its error. -/
def answer {β : Type} (action : Action β) (c : Cursor) : Except ParseError β :=
  match action.run c with
  | .ok b _ => .ok b
  | .error e _ => .error e

/-- The cursor after an action, be there a value or an error. -/
def after {β : Type} (action : Action β) (c : Cursor) : Cursor :=
  match action.run c with
  | .ok _ c => c
  | .error _ c => c

/-- The cursor after texts that it was given one after another. -/
def given (c : Cursor) (calls : List Call) : Cursor :=
  calls.foldl (fun c call => after call.action c) c

/-- What a cursor answers to texts that it is given one after another. -/
def answers (c : Cursor) : List Call → List (Except ParseError Statement)
  | [] => []
  | call :: calls => answer call.action c :: answers (after call.action c) calls

end Cursor

end Fluxion
