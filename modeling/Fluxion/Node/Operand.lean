import Fluxion.Node.Basic

/-!
# Operands

The operators of arithmetic apply to nodes and to plain numbers, at least one of the two being
a node. A number becomes a constant. Anything else is refused, by the name of its kind.

## Main definitions

* `Operand` — a node, a number or something else
* `Operator`, `Operator.apply` — the operators
-/

namespace Fluxion

/-- What an operator may find on one of its sides. -/
inductive Operand where
  | node (u : Node Float)
  | number (x : Float)
  /-- Something that does not belong in an expression, of a kind with a name. -/
  | foreign (kind : String)

/-- The operators of arithmetic. -/
inductive Operator where
  | add
  | sub
  | mul
  | div
  | pow

/-- An operand that does not belong in an expression, of a kind with a name. -/
structure ForeignOperand where
  kind : String

/-- Why a foreign operand is refused. -/
def ForeignOperand.message (f : ForeignOperand) : String :=
  "Cannot use " ++ f.kind ++ " in a symbolic expression"

/-- The node for an operand. -/
def Operand.toNode : Operand → Except ForeignOperand (Mint (Node Float))
  | node u => .ok (pure u)
  | number x => .ok (Node.mint (.const · x))
  | foreign kind => .error ⟨kind⟩

/-- The node that an operator makes of two nodes. -/
def Operator.join (operator : Operator) (u v : Node Float) : Mint (Node Float) :=
  match operator with
  | add => Node.mint (.add · u v)
  | sub => u.sub v
  | mul => Node.mint (.mul · u v)
  | div => u.div v
  | pow => Node.mint (.pow · u v)

/-- The node that an operator makes of two operands. -/
def Operator.apply (operator : Operator) (a b : Operand) :
    Except ForeignOperand (Mint (Node Float)) := do
  let left ← a.toNode
  let right ← b.toNode
  return do operator.join (← left) (← right)

end Fluxion
