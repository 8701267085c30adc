import Fluxion.Token
import Fluxion.Unicode.Blank
import Fluxion.Unicode.Letter
import Fluxion.Unicode.Number

/-!
# Reading tokens

A lexer is the part of a text that is still to be read, with its position. Tokens are as long
as possible: a letter takes the letters, numbers and low lines after it, a digit or point takes
the digits and points after it, and every other character stands alone. Blanks part tokens and
belong to none. What belongs to no formula is read as an illegal token, never an error.

## Main definitions

* `Lexer.next` — the next token; at the end of the text, and ever after, the end itself
* `Lexer.tokens` — all tokens up to the end
* `Lexer.readAll` — what is delivered when a lexer is read in several ways, one after another
* `Lexer.tokenize` — the tokens of a text

## Main statements

* `Lexer.length_rest_next_lt` — every token but the end shortens the text to be read
-/

namespace Fluxion

open Unicode (isBlank isLetter isNumber)

/-- What is left of a text, and the position at which it starts. -/
structure Lexer where
  rest : List Char
  position : Nat

namespace Lexer

/-- A lexer at the start of a text. -/
def ofText (text : String) : Lexer := ⟨text.toList, 0⟩

/-- Whether a character may follow the first letter of a word. -/
def isWordChar (c : Char) : Bool := isLetter c || isNumber c || c == '_'

/-- Whether a character may stand in a number. -/
def isNumeralChar (c : Char) : Bool := c.isDigit || c == '.'

/-- The kind of a run of digits and points: a number has a digit and at most one point. -/
def numeralKind (literal : List Char) : Token.Kind :=
  if 1 < literal.count '.' ∨ literal = ['.'] then .illegal else .number

/-- The kind and the length of the token that starts with the character `c` before `cs`. -/
def scan (c : Char) (cs : List Char) : Token.Kind × Nat :=
  match Token.Kind.ofSign? c with
  | some kind => (kind, 1)
  | none =>
    if isLetter c then
      let word := c :: cs.takeWhile isWordChar
      (.ofWord (String.ofList word), word.length)
    else if isNumeralChar c then
      let literal := c :: cs.takeWhile isNumeralChar
      (numeralKind literal, literal.length)
    else (.illegal, 1)

/-- The next token, and the lexer after it. -/
def next (l : Lexer) : Token × Lexer :=
  let start := l.position + (l.rest.takeWhile isBlank).length
  match l.rest.dropWhile isBlank with
  | [] => (⟨.finish, "", start⟩, ⟨[], start⟩)
  | c :: cs =>
    let (kind, length) := scan c cs
    (⟨kind, String.ofList ((c :: cs).take length), start⟩, ⟨(c :: cs).drop length, start + length⟩)

theorem scan_length_pos (c : Char) (cs : List Char) : 0 < (scan c cs).2 := by
  unfold scan
  split
  · exact Nat.one_pos
  · split
    · exact Nat.succ_pos _
    · split
      · exact Nat.succ_pos _
      · exact Nat.one_pos

/-- A token other than the end shortens the text to be read. -/
theorem length_rest_next_lt {l : Lexer} (h : l.next.1.kind ≠ .finish) :
    l.next.2.rest.length < l.rest.length := by
  have hle : (l.rest.dropWhile isBlank).length ≤ l.rest.length :=
    (List.dropWhile_sublist isBlank).length_le
  unfold next at h ⊢
  split at h
  · contradiction
  · rename_i c cs hd
    have := scan_length_pos c cs
    simp only [hd, List.length_drop, List.length_cons] at hle ⊢
    omega

/-- All tokens before the end, and the lexer at the end. -/
def tokens (l : Lexer) : List Token × Lexer :=
  if l.next.1.kind = .finish then ([], l.next.2)
  else
    let (ts, last) := l.next.2.tokens
    (l.next.1 :: ts, last)
termination_by l.rest.length
decreasing_by exact length_rest_next_lt ‹_›

/-- All tokens including the end, and the lexer at the end. -/
def tokensAndFinish (l : Lexer) : List Token × Lexer :=
  let (ts, last) := l.tokens
  (ts ++ [last.next.1], last.next.2)

/-- A way to read from a lexer. -/
inductive Reading where
  /-- The next token, be it the end. -/
  | next
  /-- All tokens and the end. -/
  | withFinish
  /-- All tokens before the end. -/
  | beforeFinish

/-- The tokens that a lexer delivers, and the lexer after them. -/
def read (l : Lexer) : Reading → List Token × Lexer
  | .next => ([l.next.1], l.next.2)
  | .withFinish => l.tokensAndFinish
  | .beforeFinish => l.tokens

/-- What a lexer delivers in each of a sequence of readings, and the lexer after it. -/
def readAll (l : Lexer) : List Reading → List (List Token × Lexer)
  | [] => []
  | r :: rs => l.read r :: (l.read r).2.readAll rs

/-- The tokens of a text, without the end. -/
def tokenize (text : String) : List Token := (ofText text).tokens.1

end Lexer

end Fluxion
