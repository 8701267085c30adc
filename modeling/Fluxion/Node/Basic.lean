import Fluxion.Expr.Basic

/-!
# Nodes

A node is an expression whose every part has an identity, a number. Where the same part is used
twice, both uses have one identity, and a drawing shows one box for them; parts that merely
look alike have different ones.

New nodes take their identity from a counter. The operators make nodes and change none.

## Main definitions

* `Node`, `Node.key` — expressions with identities
* `Node.erase` — the expression without the identities
* `Mint`, `Mint?` — computations that make new nodes, and such that may fail
* `Node.negate`, `Node.sub`, `Node.div`, … — operators on nodes
-/

namespace Fluxion

/-- An expression with constants from `α` whose every part has an identity. -/
inductive Node (α : Type) where
  | const (key : Nat) (c : α)
  | var (key : Nat) (name : String)
  | add (key : Nat) (left right : Node α)
  | mul (key : Nat) (left right : Node α)
  | pow (key : Nat) (base exponent : Node α)
  | log (key : Nat) (operand : Node α)
  | sin (key : Nat) (operand : Node α)
  | cos (key : Nat) (operand : Node α)

/-- A computation that takes the identities of new nodes from a counter. -/
abbrev Mint (β : Type) := StateM Nat β

/-- A computation that takes the identities of new nodes from a counter, and may fail. -/
abbrev Mint? (β : Type) := StateT Nat Option β

namespace Node

variable {α : Type}

/-- The identity of a node. -/
def key : Node α → Nat
  | const i _ | var i _ | add i _ _ | mul i _ _ | pow i _ _ | log i _ | sin i _ | cos i _ => i

/-- The expression without the identities. -/
def erase : Node α → Expr α
  | const _ c => .const c
  | var _ x => .var x
  | add _ l r => .add l.erase r.erase
  | mul _ l r => .mul l.erase r.erase
  | pow _ b e => .pow b.erase e.erase
  | log _ f => .log f.erase
  | sin _ f => .sin f.erase
  | cos _ f => .cos f.erase

/-- A new node. -/
def mint {m : Type → Type} [Monad m] (make : Nat → Node α) : StateT Nat m (Node α) :=
  fun next => pure (make next, next + 1)

variable [Coefficient α]

/-- The negative of a node: a constant changes its sign, anything else is multiplied by minus
one. -/
def negate : Node α → Mint (Node α)
  | const _ c => mint (const · (-c))
  | u => do
    let minusOne ← mint (const · (-1))
    mint (mul · minusOne u)

/-- The reciprocal of a node. -/
def reciprocal (u : Node α) : Mint (Node α) := do
  let minusOne ← mint (const · (-1))
  mint (pow · u minusOne)

/-- The sum of a node and the negative of another. -/
def sub (u v : Node α) : Mint (Node α) := do
  let negative ← v.negate
  mint (add · u negative)

/-- The product of a node and the reciprocal of another. -/
def div (u v : Node α) : Mint (Node α) := do
  let inverse ← v.reciprocal
  mint (mul · u inverse)

end Node

end Fluxion
