import Fluxion.Proofs.Equality
import Fluxion.Proofs.NormalForm

/-!
# Shapes known to be zero

Whether an expression is zero is asked by its shape, of expressions that are pruned and of others
that are not. The answer can be relied on for both: an expression with such a shape has the value
zero wherever it has a value, and keeps the shape when it is pruned.

## Powers

The test for a power asks that the exponent does *not* have such a shape, and pruning may give it
one: `log (1 + 0)` is not seen to be zero, and `log 1`, to which it is pruned, is. That does no
harm, since zero to the power zero is not pruned to anything. Where a power with a zero base has a
result, its pruned exponent is not seen to be zero either, and the result is zero.

## What is left

Sums, products and powers with the shape of zero are pruned away. In a pruned expression such a
shape is written in one of three ways: as a constant, as the logarithm of one, or as the sine of
another such expression.

## Main definitions

* `Expr.PlainZero` — the zeros of pruned expressions

## Main results

* `Expr.isZero_of_simplify?` — pruning keeps shapes known to be zero
* `Expr.Normal.isZero_iff` — the zeros of normal expressions
* `Expr.isZero_persists` — both of these, and the value
-/

namespace Fluxion

namespace Expr

variable {α : Type} [Coefficient α] {e f s : Expr α}

/-! ### Stability -/

/-- **Pruning keeps shapes known to be zero**, if it comes to a result. -/
theorem isZero_of_simplify? [LawfulEquality α] (h : simplify? e = some s)
    (hz : e.isZero = true) : s.isZero = true := by
  have hzero : (const 0 : Expr α).isZero = true := LawfulEquality.zero_beq_zero
  refine simplify_induction (P := fun e s => e.isZero = true → s.isZero = true) ?const ?var ?add
    ?mul ?pow ?logOfPow ?logOfMul ?logOfOther ?sin ?cos h hz
  case const => exact fun c hz => hz
  case var => exact fun y hz => hz
  case add =>
    intro l p l' p' ihl ihp hz
    obtain ⟨hl, hp⟩ := Bool.and_eq_true_iff.mp hz
    rw [pruneAdd, if_pos (Bool.and_eq_true_iff.mpr ⟨ihl hl, ihp hp⟩)]
    exact hzero
  case mul =>
    intro l p l' p' ihl ihp hz
    rw [pruneMul, if_pos (Bool.or_eq_true_iff.mpr ((Bool.or_eq_true_iff.mp hz).imp ihl ihp))]
    exact hzero
  case pow =>
    intro b k b' k' s _ _ ihb _ hs hz
    have hb := ihb (Bool.and_eq_true_iff.mp hz).1
    -- with a zero exponent there would be no result
    have hk : ¬k'.isZero = true := fun hk => not_isZero_of_prunePow? hs ⟨hk, hb⟩
    rw [prunePow?, if_neg fun hboth => hk (Bool.and_eq_true_iff.mp hboth).1, if_neg hk,
      if_pos hb] at hs
    exact Option.some.inj hs ▸ hzero
  case logOfPow => exact fun b k s _ hz => absurd hz Bool.false_ne_true
  case logOfMul => exact fun p q s _ hz => absurd hz Bool.false_ne_true
  case logOfOther =>
    intro f f' _ _ hf _ hz
    obtain ⟨c, hc, rfl⟩ := eq_const_of_isOne (show f.isOne = true from hz)
    rw [simplify?] at hf
    exact Option.some.inj hf ▸ hc
  case sin => exact fun f f' ih hz => ih hz
  case cos => exact fun f f' _ hz => absurd hz Bool.false_ne_true

/-! ### The zeros of pruned expressions -/

/-- A zero constant, the logarithm of the literal one, or the sine of an expression of this kind. -/
inductive PlainZero : Expr α → Prop
  | const {c : α} (hc : (c == 0) = true) : PlainZero (const c)
  | log {c : α} (hc : (c == 1) = true) : PlainZero (log (.const c))
  | sin {f : Expr α} (hf : PlainZero f) : PlainZero (sin f)

theorem PlainZero.isZero (h : e.PlainZero) : e.isZero = true := by
  induction h with
  | const hc => exact hc
  | log hc => exact hc
  | sin _ ih => exact ih

/-- **The zeros of normal expressions.** No sum, product or power is among them, since pruning would
have removed it. -/
theorem Normal.isZero_iff (hn : e.Normal) : e.isZero = true ↔ e.PlainZero := by
  refine ⟨fun hz => ?_, PlainZero.isZero⟩
  induction e with
  | const c => exact .const hz
  | var y => exact absurd hz Bool.false_ne_true
  | add l p =>
    have hl := (everywhere_add.mp hn).1.1
    rw [isZero_add, hl] at hz
    exact absurd hz Bool.false_ne_true
  | mul l p =>
    obtain ⟨hl, hp⟩ := (everywhere_mul.mp hn).1.1
    rw [isZero_mul, hl, hp] at hz
    exact absurd hz Bool.false_ne_true
  | pow b k =>
    have hb := (everywhere_pow.mp hn).1.1.1
    rw [isZero_pow, hb] at hz
    exact absurd hz Bool.false_ne_true
  | log f =>
    obtain ⟨c, hc, rfl⟩ := eq_const_of_isOne (show f.isOne = true from hz)
    exact .log hc
  | sin f ih => exact .sin (ih (everywhere_sin.mp hn).2 hz)
  | cos f => exact absurd hz Bool.false_ne_true

/-- The exact value of a shape known to be zero. -/
theorem eq_zero_of_hasExactValue {e : Expr Float} (hz : e.isZero = true) {r : String → ℝ} {w : ℝ}
    (hw : e.HasExactValue r w) : w = 0 := by
  obtain ⟨-, hdefined, rfl⟩ := hw
  exact value_eq_zero_of_isZero ((isZero_map exact_realOf e).trans hz) hdefined

/-- **The test for zero is sound, and pruning does not change its answer.** An expression with a
shape known to be zero has no other value than zero, and what it is pruned to has such a shape as
well. And in whatever an expression is pruned to, the only such shapes are zero constants, the
logarithm of the literal one, and sines of these. -/
theorem isZero_persists (e : Expr Float) :
    (e.isZero = true →
      (∀ (r : String → ℝ) (w : ℝ), e.HasExactValue r w → w = 0) ∧
      ∀ s, simplify? e = some s → s.isZero = true) ∧
    ∀ s, simplify? e = some s → (s.isZero = true ↔ s.PlainZero) :=
  ⟨fun hz => ⟨fun _ _ => eq_zero_of_hasExactValue hz, fun _ hs => isZero_of_simplify? hs hz⟩,
    fun _ hs => (normal_of_simplify? hs).isZero_iff⟩

/-- A power with the base `log 1` is zero at two and is pruned to zero. The sine of `log (1 + 0)` is
not seen to be zero, and what it is pruned to is. -/
theorem isZero_persists_log_one :
    let power : Expr Float := pow (log (const 1)) (var "x")
    let sine : Expr Float := sin (log (add (const 1) (const 0)))
    (power.isZero = true ∧ power.HasExactValue (fun _ => 2) (Real.log 1 ^ (2 : ℝ)) ∧
      Real.log 1 ^ (2 : ℝ) = 0) ∧
    (simplify? power = some (const 0) ∧ (const 0 : Expr Float).isZero = true) ∧
    sine.isZero = false ∧ simplify? sine = some (sin (log (const 1))) ∧
      (sin (log (const 1)) : Expr Float).PlainZero := by
  intro power sine
  have hzero : (const 0 : Expr Float).isZero = true := by decide
  have hone : (const 1 : Expr Float).isZero = false := by decide
  have hlog : simplify? (log (const 1) : Expr Float) = some (log (const 1)) := by
    rw [simplify?_log (by simp) (by simp), simplify?]
    rfl
  have hpower : power.isZero = true := by decide
  have hvalue : power.HasExactValue (fun _ => 2) (Real.log 1 ^ (2 : ℝ)) := by
    refine ⟨fun c hc => ?_, ⟨⟨trivial, ?_⟩, trivial, .inr (.inr ⟨?_, two_pos⟩)⟩, ?_⟩
    · obtain rfl : c = 1 := by simpa [power, nodes] using hc
      decide
    · exact one_pos.trans_eq exact_realOf.one.symm
    · rw [map, map, value, value, exact_realOf.one, Real.log_one]
    · simp only [power, map, value, exact_realOf.one]
  have hprunedPower : simplify? power = some (const 0) := by
    rw [simplify?, hlog, simplify?]
    rfl
  have hprunedSine : simplify? sine = some (sin (log (const 1))) := by
    rw [simplify?, simplify?_log (by simp) (by simp), simplify?, simplify?, simplify?]
    simp [pruneAdd, hzero, hone]
  obtain ⟨hsound, hstable⟩ := (isZero_persists power).1 hpower
  exact ⟨⟨hpower, hvalue, hsound _ _ hvalue⟩, ⟨hprunedPower, hstable _ hprunedPower⟩, by decide,
    hprunedSine, ((isZero_persists sine).2 _ hprunedSine).mp (by decide)⟩

end Expr

end Fluxion
