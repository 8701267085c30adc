/-!
# Tokens

The words and signs of a formula: names, numbers, operators, parentheses, and the keywords for
functions and for the base of the natural logarithm.

## Main definitions

* `FunctionName` — the functions a formula may apply
* `Token.Kind`, `Token` — a token is a kind, the text it was read from, and where that text
  starts
* `Token.Kind.ofWord` — the kind of a word: a keyword, or else a name
* `Token.Kind.ofSign?` — the kind of a sign
-/

namespace Fluxion

/-- A function that a formula may apply to an argument. -/
inductive FunctionName where
  | sin
  | cos
  | tan
  | sec
  | log
  | ln
  | root
deriving DecidableEq

namespace Token

/-- What a piece of text is read as. -/
inductive Kind where
  /-- Text that belongs to no formula. -/
  | illegal
  /-- The end of the text. -/
  | finish
  | name
  | number
  | assign
  | plus
  | minus
  | times
  | slash
  | power
  | lparen
  | rparen
  | apply (function : FunctionName)
  /-- The base of the natural logarithm. -/
  | euler
deriving DecidableEq

end Token

/-- A piece of text with its kind and the position of its first character. -/
structure Token where
  kind : Token.Kind
  literal : String
  position : Nat
deriving DecidableEq

/-- The word for a function in a formula. -/
def FunctionName.word : FunctionName → String
  | .sin => "sin"
  | .cos => "cos"
  | .tan => "tan"
  | .sec => "sec"
  | .log => "log"
  | .ln => "ln"
  | .root => "root"

/-- All functions. -/
def FunctionName.all : List FunctionName := [.sin, .cos, .tan, .sec, .log, .ln, .root]

theorem FunctionName.mem_all (f : FunctionName) : f ∈ FunctionName.all := by cases f <;> decide

namespace Token.Kind

/-- The kind of a word. -/
def ofWord (word : String) : Kind :=
  if word = "e" then euler
  else match FunctionName.all.find? fun f => f.word == word with
    | some f => apply f
    | none => name

/-- The kind of a sign of one character. -/
def ofSign? : Char → Option Kind
  | '=' => some assign
  | '+' => some plus
  | '-' => some minus
  | '*' => some times
  | '/' => some slash
  | '^' => some power
  | '(' => some lparen
  | ')' => some rparen
  | _ => none

/-- How a kind is spelled: the sign or keyword itself, or else a word for the class. -/
def spelling : Kind → String
  | illegal => "ILLEGAL"
  | finish => "EOF"
  | name => "IDENTIFIER"
  | number => "NUMBER"
  | assign => "="
  | plus => "+"
  | minus => "-"
  | times => "*"
  | slash => "/"
  | power => "^"
  | lparen => "("
  | rparen => ")"
  | apply f => f.word
  | euler => "e"

/-- The tag of a kind in capital letters. -/
def tag : Kind → String
  | illegal => "ILLEGAL"
  | finish => "EOF"
  | name => "IDENT"
  | number => "NUMBER"
  | assign => "ASSIGN"
  | plus => "PLUS"
  | minus => "MINUS"
  | times => "ASTERISK"
  | slash => "SLASH"
  | power => "POWER"
  | lparen => "LPAREN"
  | rparen => "RPAREN"
  | apply .sin => "SIN"
  | apply .cos => "COS"
  | apply .tan => "TAN"
  | apply .sec => "SEC"
  | apply .log => "LOG"
  | apply .ln => "LN"
  | apply .root => "ROOT"
  | euler => "E"

end Token.Kind

end Fluxion
