import Fluxion.Expr.Derivative
import Fluxion.Node.Simplify

/-!
# Differentiating nodes

The rules are those for expressions. Where a rule mentions an operand, the derivative uses the
node of the operand itself; for a power, the node that the operand is pruned to.

## Main definitions

* `Node.diff?` — the derivative
-/

namespace Fluxion

namespace Node

variable {α : Type} [Coefficient α]

/-- Pruning never makes a node heavier. -/
theorem weight_le_of_simplify? {u : Node α} {next : Nat} {r : Node α × Nat}
    (h : simplify? u next = some r) : r.1.erase.weight ≤ u.erase.weight := by
  have := erase_simplify? u next
  rw [h] at this
  exact Expr.weight_le_of_simplify? this.symm

omit [Coefficient α] in
/-- The product `log b · e` over nodes. -/
def logTimes (next : Nat) (b e : Node α) : Node α := mul (next + 1) (log next b) e

/-- The derivative with respect to the variable `x`. -/
def diff? (x : String) (u : Node α) : Mint? (Node α) :=
  match u with
  | const _ _ => mint (const · 0)
  | var _ y => mint (const · (if y = x then 1 else 0))
  | add _ l r => do
    let l' ← diff? x l
    let r' ← diff? x r
    mint (add · l' r')
  | mul _ l r => do
    let l' ← diff? x l
    let left ← mint (mul · l' r)
    let r' ← diff? x r
    let right ← mint (mul · l r')
    mint (add · left right)
  | pow _ base exponent => fun next =>
    match _hb : simplify? base next with
    | none => none
    | some (b, next) =>
      match _he : simplify? exponent next with
      | none => none
      | some (e, next) =>
        if b.erase.constant?.isSome then
          (do
            let e' ← diff? x e
            if e'.erase.isZero then mint (const · 0)
            else
              let logarithm ← mint (log · b)
              let power ← mint (pow · b e)
              let inner ← mint (mul · power e')
              mint (mul · logarithm inner)).run next
        else match e.erase.constant? with
          | some n =>
            (do
              let less ← mint (const · (n - 1))
              let power ← mint (pow · b less)
              let b' ← diff? x b
              let inner ← mint (mul · power b')
              mint (mul · e inner)).run next
          | none =>
            (do
              let d ← diff? x (logTimes next b e)
              let power ← mint (pow · b e)
              mint (mul · power d)).run (next + 2)
  | log _ (pow _ b e) => fun next => diff? x (logOfPow next b e) (next + 2)
  | log _ (mul _ p q) => fun next => diff? x (logOfMul next p q) (next + 3)
  | log _ f => do
    let f' ← diff? x f
    let minusOne ← mint (const · (-1))
    let inverse ← mint (pow · f minusOne)
    mint (mul · f' inverse)
  | sin _ f => do
    let cosine ← mint (cos · f)
    let f' ← diff? x f
    mint (mul · cosine f')
  | cos _ f => do
    let sine ← mint (sin · f)
    let minusOne ← mint (const · (-1))
    let negative ← mint (mul · sine minusOne)
    let f' ← diff? x f
    mint (mul · negative f')
termination_by u.erase.weight
decreasing_by
  all_goals simp only [erase, logOfPow, logOfMul, logTimes, Expr.weight]
  all_goals grind [Expr.weight_pos, → weight_le_of_simplify?]

end Node

end Fluxion
