import Fluxion.Proofs.Variables

/-!
# Derivatives of what does not depend on the variable

The derivative of an expression in which a variable does not occur is a tree of zeros: it has a
shape that is known to be zero, and if it can be pruned, it is pruned to the literal zero. The rule
for a constant base relies on the first of these. It looks at the derivative of the exponent to see
whether the power is a constant, and then does not take the logarithm of the base.

The second does not follow from the first. A shape of zero in general is pruned to a shape of zero
again, `sin 0` to itself. Here every zero comes from a constant or a variable and is passed on by
sums and products only.

## Main definitions

* `Expr.Vanishes` — the shape of zero, and nothing but the literal zero after pruning

## Main results

* `Expr.vanishes_of_powRule` — the rules for powers of pruned operands
* `Expr.vanishes_diff?_and_log` — the induction along differentiation
* `Expr.diff?_of_absent` — both properties of the derivative
-/

namespace Fluxion

namespace Expr

variable {α : Type} [Coefficient α] {x : String} {b k d e f l p s : Expr α}

/-- The expression has a shape known to be zero, and is pruned to the literal zero unless it cannot
be pruned. -/
structure Vanishes (d : Expr α) : Prop where
  isZero : d.isZero = true
  eq_zero : ∀ s, simplify? d = some s → s = const 0

section

variable (h0 : ((0 : α) == 0) = true)
include h0

theorem vanishes_zero : (const 0 : Expr α).Vanishes where
  isZero := h0
  eq_zero s h := by
    rw [simplify?] at h
    exact (Option.some.inj h).symm

theorem Vanishes.add (hl : l.Vanishes) (hp : p.Vanishes) : (add l p).Vanishes where
  isZero := by rw [Expr.isZero, hl.isZero, hp.isZero, Bool.and_true]
  eq_zero s h := by
    obtain ⟨l', p', hl', hp', rfl⟩ := simplify?_add_eq_some h
    rw [hl.eq_zero l' hl', hp.eq_zero p' hp', pruneAdd, (vanishes_zero h0).isZero]
    rfl

theorem Vanishes.mul_left (hl : l.Vanishes) : (mul l p).Vanishes where
  isZero := by rw [Expr.isZero, hl.isZero, Bool.true_or]
  eq_zero s h := by
    obtain ⟨l', p', hl', -, rfl⟩ := simplify?_mul_eq_some h
    rw [hl.eq_zero l' hl', pruneMul, (vanishes_zero h0).isZero]
    rfl

theorem Vanishes.mul_right (hp : p.Vanishes) : (mul l p).Vanishes where
  isZero := by rw [Expr.isZero, hp.isZero, Bool.or_true]
  eq_zero s h := by
    obtain ⟨l', p', -, hp', rfl⟩ := simplify?_mul_eq_some h
    rw [hp.eq_zero p' hp', pruneMul, (vanishes_zero h0).isZero, Bool.or_true]
    rfl

/-- Where the derivatives of the operands vanish, so does that of the power. The rule for a constant
base is then never applied in full. -/
theorem vanishes_of_powRule (hrule : PowRule x b k d)
    (hb : ∀ d, diff? x b = some d → d.Vanishes)
    (hlog : ∀ d, diff? x (log b) = some d → d.Vanishes)
    (hk : ∀ d, diff? x k = some d → d.Vanishes) : d.Vanishes := by
  cases hrule with
  | still => exact vanishes_zero h0
  | constantBase _ hk' hnot =>
    have hzero := (hk _ hk').isZero
    rw [hnot] at hzero
    cases hzero
  | constantExponent _ _ hb' => exact ((hb _ hb').mul_right h0).mul_right h0
  | general _ _ hl' hk' =>
    exact (((hlog _ hl').mul_left h0).add h0 ((hk _ hk').mul_right h0)).mul_right h0

/-- The second half is about the operand of a logarithm. -/
theorem vanishes_diff?_and_log (x : String) :
    (∀ e : Expr α, x ∉ e.vars → ∀ d, diff? x e = some d → d.Vanishes) ∧
      ∀ f : Expr α, x ∉ f.vars → ∀ d, diff? x (log f) = some d → d.Vanishes := by
  refine diff_induction ?const ?var ?add ?mul ?pow ?log ?sin ?cos ?logOfPow ?logOfMul
    ?logOfOther
  case const =>
    intro c _ d h
    rw [diff?] at h
    exact Option.some.inj h ▸ vanishes_zero h0
  case var =>
    intro y hx d h
    have hne : y ≠ x := fun hyx => hx (List.mem_singleton.mpr hyx.symm)
    rw [diff?, if_neg hne] at h
    exact Option.some.inj h ▸ vanishes_zero h0
  case add =>
    intro l p ihl ihp hx d h
    obtain ⟨hxl, hxp⟩ := not_or.mp (mt List.mem_append.mpr hx)
    obtain ⟨l', p', hl, hp, rfl⟩ := diff?_add_eq_some h
    exact (ihl hxl l' hl).add h0 (ihp hxp p' hp)
  case mul =>
    intro l p ihl ihp hx d h
    obtain ⟨hxl, hxp⟩ := not_or.mp (mt List.mem_append.mpr hx)
    obtain ⟨l', p', hl, hp, rfl⟩ := diff?_mul_eq_some h
    exact ((ihl hxl l' hl).mul_left h0).add h0 ((ihp hxp p' hp).mul_right h0)
  case pow =>
    intro base exponent ihb ihk hx d h
    obtain ⟨hxb, hxk⟩ := not_or.mp (mt List.mem_append.mpr hx)
    obtain ⟨b, k, hb, hk, hrule⟩ := diff?_pow_eq_some h
    obtain ⟨ihP, ihQ⟩ := ihb b hb
    have hxb' : x ∉ b.vars := fun hmem => hxb (vars_subset_of_simplify? hb hmem)
    have hxk' : x ∉ k.vars := fun hmem => hxk (vars_subset_of_simplify? hk hmem)
    exact vanishes_of_powRule h0 (powRule?_cases hrule) (ihP hxb') (ihQ hxb') (ihk k hk hxk')
  case log => exact fun f ih hx d h => ih hx d h
  case sin =>
    intro f ih hx d h
    rw [diff?_sin] at h
    obtain ⟨f', hf, rfl⟩ := Option.map_eq_some_iff.mp h
    exact (ih hx f' hf).mul_right h0
  case cos =>
    intro f ih hx d h
    rw [diff?_cos] at h
    obtain ⟨f', hf, rfl⟩ := Option.map_eq_some_iff.mp h
    exact (ih hx f' hf).mul_right h0
  case logOfPow =>
    intro b k ihb ihk hx d h
    obtain ⟨hxb, hxk⟩ := not_or.mp (mt List.mem_append.mpr hx)
    rw [diff?_logOfPow] at h
    obtain ⟨k', l', hk, hl, rfl⟩ := diff?_mul_eq_some h
    exact ((ihk hxk k' hk).mul_left h0).add h0 ((ihb hxb l' hl).mul_right h0)
  case logOfMul =>
    intro p q ihp ihq hx d h
    obtain ⟨hxp, hxq⟩ := not_or.mp (mt List.mem_append.mpr hx)
    rw [diff?_logOfMul] at h
    obtain ⟨p', q', hp, hq, rfl⟩ := diff?_add_eq_some h
    exact (ihp hxp p' hp).add h0 (ihq hxq q' hq)
  case logOfOther =>
    intro f hpow hmul ih hx d h
    rw [diff?_log hpow hmul] at h
    obtain ⟨f', hf, rfl⟩ := Option.map_eq_some_iff.mp h
    exact (ih hx f' hf).mul_left h0

/-- **The derivative of what does not depend on the variable is recognised as zero**, and pruning it
gives the literal zero. -/
theorem diff?_of_absent (hx : x ∉ e.vars) (h : diff? x e = some d) :
    d.isZero = true ∧ ∀ s, simplify? d = some s → s = const 0 := by
  have hd := (vanishes_diff?_and_log h0 x).1 e hx d h
  exact ⟨hd.isZero, hd.eq_zero⟩

end

/-- A power of which neither operand is a constant. -/
theorem diff?_of_absent_pow :
    let e : Expr Float := pow (var "y") (sin (var "z"))
    let d : Expr Float := mul e (add
      (mul (mul (const 0) (pow (var "y") (const (-1)))) (sin (var "z")))
      (mul (log (var "y")) (mul (cos (var "z")) (const 0))))
    "x" ∉ e.vars ∧ diff? "x" e = some d ∧ d.isZero = true ∧ simplify? d = some (const 0) := by
  intro e d
  have hx : "x" ∉ e.vars := by decide
  have hbase : simplify? (var "y" : Expr Float) = some (var "y") := by rw [simplify?]
  have hexponent : simplify? (sin (var "z") : Expr Float) = some (sin (var "z")) := by
    simp [simplify?]
  have hd : diff? "x" e = some d := by
    rw [diff?_pow, hbase, hexponent]
    simp [powRule?, constant?, diff?, e, d]
  have h0 : ((0 : Float) == 0) = true := by decide
  obtain ⟨hzero, hpruned⟩ := diff?_of_absent h0 hx hd
  have hminus : ((-1 : Float) == 0) = false ∧ ((-1 : Float) == 1) = false := by decide
  obtain ⟨s, hs⟩ : ∃ s, simplify? d = some s := by
    simp [e, d, simplify?, prunePow?, pruneAdd, pruneMul, isZero, isOne, h0, hminus]
  exact ⟨hx, hd, hzero, hpruned s hs ▸ hs⟩

end Expr

end Fluxion
