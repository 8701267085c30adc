import Fluxion.Unicode.Letter
import Fluxion.Unicode.Mark
import Fluxion.Unicode.Number

/-!
# Identifiers

The default identifiers of the standard, closed under compatibility normalisation: a start
character followed by continuing characters. Letters and letter-like numbers start an
identifier; marks, decimal digits and connecting punctuation continue one. The normal forms of
a few letters begin with a blank or a mark, and those letters are excepted.

## Main definitions

* `isIdentifierStart`, `isIdentifierContinue` — the two classes
* `isIdentifier` — the texts
-/

namespace Fluxion.Unicode

/-- The low line and the characters that start identifiers for the sake of older texts. -/
def startExtras : Ranges :=
  [(0x5F, 0x5F), (0x1885, 0x1886), (0x2118, 0x2118), (0x212E, 0x212E)]

/-- Letters whose normal form does not start an identifier. -/
def startExceptions : Ranges :=
  [(0x37A, 0x37A), (0xE33, 0xE33), (0xEB3, 0xEB3), (0x2E2F, 0x2E2F), (0xFC5E, 0xFC63),
   (0xFDFA, 0xFDFB), (0xFE70, 0xFE70), (0xFE72, 0xFE72), (0xFE74, 0xFE74), (0xFE76, 0xFE76),
   (0xFE78, 0xFE78), (0xFE7A, 0xFE7A), (0xFE7C, 0xFE7C), (0xFE7E, 0xFE7E), (0xFF9E, 0xFF9F)]

/-- Whether `c` may be the first character of an identifier. -/
def isIdentifierStart (c : Char) : Bool :=
  (isLetter c || letterNumbers.contains c.toNat || startExtras.contains c.toNat)
    && !startExceptions.contains c.toNat

/-- Connecting punctuation, and the characters that only continue an identifier. -/
def continueExtras : Ranges :=
  [(0x5F, 0x5F), (0xB7, 0xB7), (0x387, 0x387), (0xE33, 0xE33), (0xEB3, 0xEB3),
   (0x1369, 0x1371), (0x19DA, 0x19DA), (0x203F, 0x2040), (0x2054, 0x2054), (0xFE33, 0xFE34),
   (0xFE4D, 0xFE4F), (0xFF3F, 0xFF3F), (0xFF9E, 0xFF9F)]

/-- Whether `c` may stand in an identifier after its first character. -/
def isIdentifierContinue (c : Char) : Bool :=
  isIdentifierStart c || isMark c || decimalDigits.contains c.toNat
    || continueExtras.contains c.toNat

/-- Whether the text is an identifier. -/
def isIdentifier (s : String) : Bool :=
  match s.toList with
  | [] => false
  | c :: cs => isIdentifierStart c && cs.all isIdentifierContinue

end Fluxion.Unicode
