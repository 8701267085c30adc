import Fluxion.Decimal.Value
import Fluxion.Unicode.Blank
import Fluxion.Unicode.Number

/-!
# Reading a float

A float on a command line has an optional sign, and is then an infinity, no number, or decimal
digits with an optional point and exponent. Digits of every script count, and an underscore
may part two digits. Spaces around the number are skipped: those of ASCII's own whitespace,
and every blank beyond ASCII.

## Main definitions

* `readFloat?` — the float that a text stands for

## Implementation notes

A reading goes through three texts: with the characters beyond ASCII replaced by what they
stand for (`plainChar`), without the spaces, and without the underscores (`joinDigits?`).
Exponents far outside the range of floats are decided before any power of ten is computed.
-/

namespace Fluxion.Decimal

open Fluxion.Unicode (isBlank digitValue? trimChars)

/-- The ASCII character that stands for `c` in a number: a space for a blank, a digit for a
digit of any script. ASCII characters stand for themselves. -/
def plainChar (c : Char) : Char :=
  if c.toNat < 128 then c
  else if isBlank c then ' '
  else match digitValue? c with
    | some d => Nat.digitChar d
    | none => c

/-- Whether `c` is one of the spaces that may surround a number. -/
def isSpace (c : Char) : Bool := c == ' ' || (9 ≤ c.toNat && c.toNat ≤ 13)

/-- The text without its underscores, provided each one stands between two digits; `before` is
the character in front of the text. -/
def joinDigits? (before : Char) : List Char → Option (List Char)
  | [] => if before == '_' then none else some []
  | c :: cs =>
    if c == '_' then if before.isDigit then joinDigits? c cs else none
    else if before == '_' && !c.isDigit then none
    else (joinDigits? c cs).map (c :: ·)

/-- A sign, if there is one, and the rest. -/
def takeSign : List Char → Bool × List Char
  | '-' :: cs => (true, cs)
  | '+' :: cs => (false, cs)
  | cs => (false, cs)

/-- An exponent part: nothing, or the letter, an optional sign and at least one digit. -/
def readExponent? : List Char → Option Int
  | [] => some 0
  | c :: cs =>
    let (negative, digits) := takeSign cs
    if (c == 'e' || c == 'E') && !digits.isEmpty && digits.all Char.isDigit then
      let n : Int := Nat.ofDigitChars 10 digits 0
      some (if negative then -n else n)
    else none

/-- The float nearest to `digits · 10 ^ exponent`; far outside the range of floats it is an
infinity or zero. -/
def scaled (digits : Nat) (exponent : Int) : Float :=
  let lead := exponent + digitCount digits
  if digits = 0 ∨ lead < -400 then 0
  else if 400 < lead then 1 / 0
  else if exponent < 0 then Float.ofScientific digits true exponent.natAbs
  else Float.ofScientific digits false exponent.natAbs

/-- An unsigned decimal number: digits with at most one point among or around them, at least
one digit in all, and an exponent part. -/
def readDecimal? (cs : List Char) : Option Float :=
  let whole := cs.takeWhile Char.isDigit
  let rest := cs.dropWhile Char.isDigit
  let (fraction, rest) := match rest with
    | '.' :: rest => (rest.takeWhile Char.isDigit, rest.dropWhile Char.isDigit)
    | rest => ([], rest)
  if whole.isEmpty && fraction.isEmpty then none
  else do
    let exponent ← readExponent? rest
    some (scaled (Nat.ofDigitChars 10 (whole ++ fraction) 0) (exponent - fraction.length))

/-- An unsigned number: a word for an infinity or for no number, or a decimal. -/
def readUnsigned? (cs : List Char) : Option Float :=
  let word := String.ofList (cs.map Char.toLower)
  if word == "inf" || word == "infinity" then some (1 / 0)
  else if word == "nan" then some (0 / 0)
  else readDecimal? cs

/-- The float that a text stands for. -/
def readFloat? (text : String) : Option Float := do
  let chars ← joinDigits? ' ' (trimChars isSpace (text.toList.map plainChar))
  let (negative, unsigned) := takeSign chars
  let x ← readUnsigned? unsigned
  some (if negative then -x else x)

end Fluxion.Decimal
