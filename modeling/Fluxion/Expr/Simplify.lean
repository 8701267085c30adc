import Fluxion.Expr.Basic

/-!
# Pruning

Pruning removes structural zeros and ones from an expression, children first: a zero operand of
a sum, a zero or one factor, a zero base, and an exponent that is zero or one. The logarithm of
a power becomes a product and the logarithm of a product a sum, before their operands are
pruned.

A power whose pruned base and exponent are both zero has no value, and pruning gives up on it.

## Main definitions

* `Expr.pruneAdd`, `Expr.pruneMul`, `Expr.prunePow?` — one node over pruned operands
* `Expr.simplify?` — pruning; `none` when a zero to the power zero is met

## Main statements

* `Expr.weight_le_of_simplify?` — pruning never makes an expression heavier
-/

namespace Fluxion

namespace Expr

variable {α : Type} [Coefficient α]

/-! ### One node -/

/-- A sum of pruned operands. -/
def pruneAdd (l r : Expr α) : Expr α :=
  if l.isZero && r.isZero then const 0
  else if l.isZero then r
  else if r.isZero then l
  else add l r

/-- A product of pruned operands. -/
def pruneMul (l r : Expr α) : Expr α :=
  if l.isZero || r.isZero then const 0
  else if l.isOne then r
  else if r.isOne then l
  else mul l r

/-- A power of pruned operands; zero to the power zero has none. -/
def prunePow? (b e : Expr α) : Option (Expr α) :=
  if e.isZero && b.isZero then none
  else if e.isZero then some (const 1)
  else if b.isZero then some (const 0)
  else if e.isOne then some b
  else some (pow b e)

theorem weight_pruneAdd_le (l r : Expr α) : (pruneAdd l r).weight ≤ l.weight + r.weight + 1 := by
  unfold pruneAdd
  split
  · simp [weight]
  · split
    · omega
    · split
      · omega
      · simp [weight]

theorem weight_pruneMul_le (l r : Expr α) : (pruneMul l r).weight ≤ l.weight + r.weight + 1 := by
  unfold pruneMul
  split
  · simp [weight]
  · split
    · omega
    · split
      · omega
      · simp [weight]

theorem weight_le_of_prunePow? {b e s : Expr α} (h : prunePow? b e = some s) :
    s.weight ≤ 2 * b.weight + e.weight + 2 := by
  unfold prunePow? at h
  split at h
  · contradiction
  · split at h
    · obtain rfl := Option.some.inj h
      simp only [weight]
      omega
    · split at h
      · obtain rfl := Option.some.inj h
        simp only [weight]
        omega
      · split at h
        · obtain rfl := Option.some.inj h
          omega
        · obtain rfl := Option.some.inj h
          simp [weight]

/-! ### Whole expressions -/

/-- The pruned expression, unless a zero to the power zero is met. -/
def simplify? : Expr α → Option (Expr α)
  | const c => some (const c)
  | var x => some (var x)
  | add l r => do some (pruneAdd (← simplify? l) (← simplify? r))
  | mul l r => do some (pruneMul (← simplify? l) (← simplify? r))
  | pow b e => do prunePow? (← simplify? b) (← simplify? e)
  | log (pow b e) => simplify? (mul e (log b))
  | log (mul p q) => simplify? (add (log p) (log q))
  | log f => do some (log (← simplify? f))
  | sin f => do some (sin (← simplify? f))
  | cos f => do some (cos (← simplify? f))
termination_by e => e.weight
decreasing_by all_goals simp only [weight]; grind [weight_pos]

/-- Pruning never makes an expression heavier. -/
theorem weight_le_of_simplify? {e s : Expr α} (h : simplify? e = some s) :
    s.weight ≤ e.weight := by
  fun_induction simplify? e generalizing s with
  | case1 c => obtain rfl := Option.some.inj h; exact Nat.le_refl _
  | case2 x => obtain rfl := Option.some.inj h; exact Nat.le_refl _
  | case3 l r ihl ihr =>
    simp only [Option.bind_eq_bind, Option.bind_eq_some_iff, Option.some.injEq] at h
    obtain ⟨l', hl, r', hr, rfl⟩ := h
    have := ihl hl
    have := ihr hr
    have := weight_pruneAdd_le l' r'
    simp only [weight]
    omega
  | case4 l r ihl ihr =>
    simp only [Option.bind_eq_bind, Option.bind_eq_some_iff, Option.some.injEq] at h
    obtain ⟨l', hl, r', hr, rfl⟩ := h
    have := ihl hl
    have := ihr hr
    have := weight_pruneMul_le l' r'
    simp only [weight]
    omega
  | case5 b e ihb ihe =>
    simp only [Option.bind_eq_bind, Option.bind_eq_some_iff] at h
    obtain ⟨b', hb, e', he, h⟩ := h
    have := ihb hb
    have := ihe he
    have := weight_le_of_prunePow? h
    simp only [weight]
    omega
  | case6 b e ih =>
    have hs := ih h
    have := b.weight_pos
    simp only [weight] at hs ⊢
    omega
  | case7 p q ih =>
    have hs := ih h
    simp only [weight] at hs ⊢
    omega
  | case8 f hp hm ih =>
    simp only [Option.bind_eq_bind, Option.bind_eq_some_iff, Option.some.injEq] at h
    obtain ⟨f', hf, rfl⟩ := h
    have := ih hf
    simp only [weight]
    omega
  | case9 f ih =>
    simp only [Option.bind_eq_bind, Option.bind_eq_some_iff, Option.some.injEq] at h
    obtain ⟨f', hf, rfl⟩ := h
    have := ih hf
    simp only [weight]
    omega
  | case10 f ih =>
    simp only [Option.bind_eq_bind, Option.bind_eq_some_iff, Option.some.injEq] at h
    obtain ⟨f', hf, rfl⟩ := h
    have := ih hf
    simp only [weight]
    omega

end Expr

end Fluxion
