import Fluxion.Expr.Simplify

/-!
# Differentiation

The derivative is taken by the rules of calculus, without pruning the result. A power is pruned
first, operand by operand, and its rule depends on what is left of it:

* a constant base, `c ^ g`: the derivative is `log c · (c ^ g · g')`, or zero when `g'` has a
  shape known to be zero, so that the logarithm of a constant outside its domain is not taken;
* a constant exponent, `f ^ n`: the derivative is `n · (f ^ (n - 1) · f')`;
* otherwise the derivative of `f ^ g` is `f ^ g · (log f · g)'`.

The logarithm of a power or of a product is taken apart before it is differentiated.

## Main definitions

* `Expr.diff?` — the derivative; `none` when pruning an operand of a power meets a zero to the
  power zero

## Main statements

* `Expr.diff?_logOfPow`, `Expr.diff?_logOfMul` — logarithms are taken apart
-/

namespace Fluxion

namespace Expr

variable {α : Type} [Coefficient α]

/-- The derivative with respect to the variable `x`. -/
def diff? (x : String) : Expr α → Option (Expr α)
  | const _ => some (const 0)
  | var y => some (const (if y = x then 1 else 0))
  | add l r => do some (add (← diff? x l) (← diff? x r))
  | mul l r => do some (add (mul (← diff? x l) r) (mul l (← diff? x r)))
  | pow base exponent =>
    match _hb : simplify? base, _he : simplify? exponent with
    | some b, some e =>
      if b.constant?.isSome then do
        let e' ← diff? x e
        some (if e'.isZero then const 0 else mul (log b) (mul (pow b e) e'))
      else match e.constant? with
        | some n => do some (mul e (mul (pow b (const (n - 1))) (← diff? x b)))
        | none => do some (mul (pow b e) (← diff? x (mul (log b) e)))
    | _, _ => none
  | log (pow b e) => diff? x (mul e (log b))
  | log (mul p q) => diff? x (add (log p) (log q))
  | log f => do some (mul (← diff? x f) (pow f (const (-1))))
  | sin f => do some (mul (cos f) (← diff? x f))
  | cos f => do some (mul (mul (sin f) (const (-1))) (← diff? x f))
termination_by e => e.weight
decreasing_by all_goals simp only [weight]; grind [weight_pos, → weight_le_of_simplify?]

variable {x : String}

theorem diff?_logOfPow (b k : Expr α) : diff? x (log (pow b k)) = diff? x (mul k (log b)) := by
  simp only [diff?]

theorem diff?_logOfMul (p q : Expr α) :
    diff? x (log (mul p q)) = diff? x (add (log p) (log q)) := by
  simp only [diff?]

end Expr

end Fluxion
