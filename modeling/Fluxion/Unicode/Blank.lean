import Fluxion.Unicode.Ranges

/-!
# Blank characters

A character is blank when it has the White_Space property or is one of the four ASCII
separators U+001C to U+001F. Blanks part the tokens of a formula and are trimmed from lines.

## Main definitions

* `isBlank` — the class
* `trim`, `trimChars` — a text without the blanks at its two ends
-/

namespace Fluxion.Unicode

/-- The blank characters. -/
def blanks : Ranges :=
  [(0x9, 0xD), (0x1C, 0x20), (0x85, 0x85), (0xA0, 0xA0), (0x1680, 0x1680), (0x2000, 0x200A),
   (0x2028, 0x2029), (0x202F, 0x202F), (0x205F, 0x205F), (0x3000, 0x3000)]

/-- Whether `c` is blank. -/
def isBlank (c : Char) : Bool := blanks.contains c.toNat

/-- A list without the elements of `p` at its two ends. -/
def trimChars (p : Char → Bool) (cs : List Char) : List Char :=
  ((cs.dropWhile p).reverse.dropWhile p).reverse

/-- A text without the blanks at its two ends. -/
def trim (s : String) : String := String.ofList (trimChars isBlank s.toList)

end Fluxion.Unicode
