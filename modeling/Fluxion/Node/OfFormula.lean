import Fluxion.Formula.Basic
import Fluxion.Node.Basic

/-!
# The nodes of a formula

Every part of a formula becomes a new node. The tangent uses the node of its argument twice, as
the argument of the sine and of the cosine.

## Main definitions

* `Formula.build` — the nodes of a formula

## Main statements

* `Formula.erase_build` — without the identities they are the expression of the formula
-/

namespace Fluxion

variable {α : Type} [Coefficient α]

/-- A function applied to a node. -/
def Node.applyFunction (g : FunctionName) (u : Node α) : Mint (Node α) :=
  match g with
  | .sin => mint (.sin · u)
  | .cos => mint (.cos · u)
  | .tan => do
    let sine ← mint (.sin · u)
    let cosine ← mint (.cos · u)
    div sine cosine
  | .sec => do
    let cosine ← mint (.cos · u)
    cosine.reciprocal
  | .log | .ln => mint (.log · u)
  | .root => do
    let half ← mint (.const · Coefficient.half)
    mint (.pow · u half)

namespace Formula

/-- The nodes of a formula. -/
def build : Formula → Mint (Node α)
  | num literal => Node.mint (.const · (Coefficient.ofNumeral (.ofLiteral literal)))
  | euler => Node.mint (.const · Coefficient.euler)
  | var x => Node.mint (.var · x)
  | add l r => do
    let l ← l.build
    let r ← r.build
    Node.mint (.add · l r)
  | sub l r => do
    let l ← l.build
    let r ← r.build
    l.sub r
  | mul l r => do
    let l ← l.build
    let r ← r.build
    Node.mint (.mul · l r)
  | div l r => do
    let l ← l.build
    let r ← r.build
    l.div r
  | pow b e => do
    let b ← b.build
    let e ← e.build
    Node.mint (.pow · b e)
  | neg f => do
    let u ← f.build
    u.negate
  | group f => f.build
  | call g f => do
    let u ← f.build
    u.applyFunction g

/-- The node of a formula with identities from zero on. -/
def toNode (f : Formula) : Node α := (f.build.run 0).1

end Formula

/-! ### Agreement with expressions -/

theorem Node.erase_negate (u : Node α) (next : Nat) :
    (u.negate next).1.erase = u.erase.negate := by
  cases u <;> rfl

theorem Node.erase_sub (u v : Node α) (next : Nat) :
    (u.sub v next).1.erase = .add u.erase v.erase.negate :=
  congrArg (Expr.add u.erase) (v.erase_negate next)

theorem Node.erase_applyFunction (g : FunctionName) (u : Node α) (next : Nat) :
    (u.applyFunction g next).1.erase = Formula.applyFunction g u.erase := by
  cases g <;> rfl

/-- Without the identities, the nodes of a formula are the expression of the formula. -/
theorem Formula.erase_build (f : Formula) (next : Nat) :
    (f.build next : Node α × Nat).1.erase = f.lower := by
  induction f generalizing next with
  | num | euler | var => rfl
  | add l r ihl ihr | mul l r ihl ihr | div l r ihl ihr | pow l r ihl ihr =>
    rw [lower, ← ihl next, ← ihr (l.build next : Node α × Nat).2]
    rfl
  | sub l r ihl ihr =>
    rw [lower, ← ihl next, ← ihr (l.build next : Node α × Nat).2]
    exact Node.erase_sub _ _ _
  | neg f ih =>
    rw [lower, ← ih next]
    exact Node.erase_negate _ _
  | group f ih => exact ih next
  | call g f ih =>
    rw [lower, ← ih next]
    exact Node.erase_applyFunction _ _ _

end Fluxion
