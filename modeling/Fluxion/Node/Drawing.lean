import Fluxion.Decimal.Layout
import Fluxion.Node.Basic

/-!
# Drawings

A drawing of a node in the DOT language declares a box for every node below it and an arrow for
every operand. The boxes are numbered in the order in which a walk from the left first meets
them. A node that is met again is not declared again and the walk does not enter it; the arrow
to it is drawn all the same, after all that is drawn for the operand itself.

## Main definitions

* `Drawing` — the nodes met so far and the lines written so far
* `Node.draw` — the walk
* `Node.dot` — the text of the drawing
-/

namespace Fluxion

/-- The identities met so far, in order, and the lines written for them. -/
structure Drawing where
  seen : List Nat
  lines : Array String

namespace Node

/-- The text in the box of a node. -/
def label : Node Float → String
  | const _ c => Decimal.general 4 c
  | var _ x => x
  | add .. => "+"
  | mul .. => "×"
  | pow .. => "^"
  | log .. => "log"
  | sin .. => "sin"
  | cos .. => "cos"

/-- The colour of the box of a node. -/
def colour : Node Float → String
  | const .. => "lightyellow"
  | var .. => "lightgreen"
  | add .. | mul .. | pow .. => "lightblue"
  | log .. | sin .. | cos .. => "lightcoral"

end Node

namespace Drawing

/-- The name of the box of an identity. -/
def boxName (d : Drawing) (key : Nat) : String := "n" ++ toString (d.seen.idxOf key)

/-- Writes a line. -/
def write (d : Drawing) (line : String) : Drawing := ⟨d.seen, d.lines.push line⟩

/-- Declares a box for a node that is met for the first time. -/
def declare (d : Drawing) (u : Node Float) : Drawing :=
  let d : Drawing := ⟨d.seen ++ [u.key], d.lines⟩
  d.write <|
    "  " ++ d.boxName u.key ++ " [label=\"" ++ u.label ++ "\", fillcolor=" ++ u.colour ++ "];"

/-- Draws the arrow from a node to its operand. -/
def arrow (d : Drawing) (u operand : Node Float) (role : String) : Drawing :=
  d.write <|
    "  " ++ d.boxName u.key ++ " -> " ++ d.boxName operand.key ++ " [label=\"" ++ role ++ "\"];"

end Drawing

namespace Node

/-- Draws all that is below a node and was not met before. -/
def draw (u : Node Float) (d : Drawing) : Drawing :=
  if u.key ∈ d.seen then d
  else match u with
    | const .. | var .. => d.declare u
    | add _ l r | mul _ l r =>
      let d := (l.draw (d.declare u)).arrow u l "L"
      (r.draw d).arrow u r "R"
    | pow _ b e =>
      let d := (b.draw (d.declare u)).arrow u b "base"
      (e.draw d).arrow u e "exp"
    | log _ f | sin _ f | cos _ f => (f.draw (d.declare u)).arrow u f "arg"

/-- The lines of a drawing of a node, as a graph with a name. -/
def dotLines (name : String) (u : Node Float) : List String :=
  ("digraph " ++ name ++ " \x7b")
    :: "  rankdir=TB;"
    :: "  node [shape=box, style=filled, fillcolor=lightblue];"
    :: (u.draw ⟨[], #[]⟩).lines.toList ++ ["\x7d"]

/-- The text of a drawing of a node, as a graph with a name. -/
def dot (name : String) (u : Node Float) : String := "\n".intercalate (dotLines name u)

end Node

end Fluxion
