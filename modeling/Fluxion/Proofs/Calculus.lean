import Fluxion.Proofs.DerivativeDefined
import Fluxion.Proofs.Independence
import Mathlib

/-!
# Differentiation is correct

Where an expression has a value on an open interval and its derivative has the value `w` at a
point of the interval, `w` is the derivative of the expression at the point, in the sense of
calculus.

## Why the absolute reading

The rules for powers and logarithms prune and split operands on the way, and what they look at
may be undefined in the strict reading at points where the expression itself is fine. In the
absolute reading nothing gets lost: the induction assumes and shows definedness there, and the
strict statement follows at the end.

## The three power rules

All of them come down to one fact, `hasDerivAt_rpow_of_log`: off the zeros of the base, the
derivative of `b ^ k` is `b ^ k` times the derivative of `log b * k`, also for a negative base.
Only the rule for a constant exponent is used at a zero of the base, and there the exponent is
greater than one. The shortcut for a constant base rests on `still_of_isZero_diff?`.

## Main definitions

* `Expr.along` — the value of an expression as a function of one variable
* `Expr.DefinedNear` — definedness near an assignment

## Main results

* `hasDerivAt_rpow_of_log` — logarithmic differentiation
* `Expr.hasDerivAt_along` — correctness in the absolute reading
* `Expr.diff?_correct` — correctness, and where the derivative exists
-/

namespace Fluxion

open Filter Topology

/-! ### Powers -/

/-- A function that is continuous at a point and takes whole values near it is constant near
it. -/
theorem eventually_eq_of_int {k : ℝ → ℝ} {t₀ : ℝ} (hint : ∀ᶠ t in 𝓝 t₀, ∃ n : ℤ, k t = n)
    (hk : ContinuousAt k t₀) : ∀ᶠ t in 𝓝 t₀, k t = k t₀ := by
  obtain ⟨n₀, h₀⟩ := hint.self_of_nhds
  filter_upwards [hint, Metric.continuousAt_iff'.mp hk 1 one_pos] with t ⟨n, hn⟩ hclose
  rw [Real.dist_eq, hn, h₀] at hclose
  have hlt : |n - n₀| < 1 := by exact_mod_cast hclose
  rw [hn, h₀, sub_eq_zero.mp (Int.abs_lt_one_iff.mp hlt)]

/-- **Logarithmic differentiation.** Where a power is defined near a point and its base is not
zero there, its derivative is the power times the derivative of `log g * k`. For a negative base
the exponent is whole, hence constant, and so is the sign of the power. -/
theorem hasDerivAt_rpow_of_log {g k : ℝ → ℝ} {t₀ w : ℝ}
    (hdom : ∀ᶠ t in 𝓝 t₀, Expr.PowDefined (g t) (k t)) (hg : ContinuousAt g t₀)
    (hk : ContinuousAt k t₀) (hne : g t₀ ≠ 0)
    (hlog : HasDerivAt (fun t => Real.log (g t) * k t) w t₀) :
    HasDerivAt (fun t => g t ^ k t) (g t₀ ^ k t₀ * w) t₀ := by
  rcases lt_or_gt_of_ne hne with hneg | hpos
  · have hgneg : ∀ᶠ t in 𝓝 t₀, g t < 0 := hg.eventually_lt continuousAt_const hneg
    have hint : ∀ᶠ t in 𝓝 t₀, ∃ n : ℤ, k t = n := by
      filter_upwards [hdom, hgneg] with t hpow hlt
      rcases hpow with h | ⟨-, hn⟩ | ⟨h, -⟩
      · exact absurd hlt h.not_gt
      · exact hn
      · exact absurd h hlt.ne
    have heq : (fun t => g t ^ k t) =ᶠ[𝓝 t₀]
        fun t => Real.exp (Real.log (g t) * k t) * Real.cos (k t₀ * Real.pi) := by
      filter_upwards [hgneg, eventually_eq_of_int hint hk] with t hlt hkt
      rw [Real.rpow_def_of_neg hlt, hkt]
    refine ((hlog.exp.mul_const _).congr_of_eventuallyEq heq).congr_deriv ?_
    rw [Real.rpow_def_of_neg hneg]
    ring
  · have hgpos : ∀ᶠ t in 𝓝 t₀, 0 < g t := continuousAt_const.eventually_lt hg hpos
    have heq : (fun t => g t ^ k t) =ᶠ[𝓝 t₀] fun t => Real.exp (Real.log (g t) * k t) := by
      filter_upwards [hgpos] with t hlt
      rw [Real.rpow_def_of_pos hlt]
    refine (hlog.exp.congr_of_eventuallyEq heq).congr_deriv ?_
    rw [Real.rpow_def_of_pos hpos]

namespace Expr

variable {x : String} {r : String → ℝ} {l p b k f l' p' : Expr ℝ}

/-! ### Expressions as functions of one variable -/

/-- The value of an expression as a function of the variable `x`, the others being fixed. -/
noncomputable def along (x : String) (r : String → ℝ) (e : Expr ℝ) (t : ℝ) : ℝ :=
  e.value (Function.update r x t)

@[simp] theorem along_self (e : Expr ℝ) : along x r e (r x) = e.value r := by
  rw [along, Function.update_eq_self]

/-- The expression is defined, in the absolute reading, near the assignment. -/
def DefinedNear (x : String) (r : String → ℝ) (e : Expr ℝ) : Prop :=
  ∀ᶠ t in 𝓝 (r x), e.Defined {0}ᶜ (Function.update r x t)

theorem DefinedNear.defined {e : Expr ℝ} (h : DefinedNear x r e) : e.Defined {0}ᶜ r := by
  have := h.self_of_nhds
  rwa [Function.update_eq_self] at this

theorem DefinedNear.continuousAt {e : Expr ℝ} (h : DefinedNear x r e) :
    ContinuousAt (along x r e) (r x) :=
  Defined.continuousAt (Set.Subset.refl _) h.self_of_nhds

/-- Where an operand is not zero at a point, its logarithm is defined near the point. -/
theorem DefinedNear.log (h : DefinedNear x r f) (hne : f.value r ≠ 0) :
    DefinedNear x r (log f) := by
  have hnear : ∀ᶠ t in 𝓝 (r x), along x r f t ≠ 0 :=
    h.continuousAt.eventually_ne (by rwa [along_self])
  exact h.and hnear

/-- The variable itself moves as fast as it does, and no other variable moves. -/
theorem hasDerivAt_var {y : String} :
    HasDerivAt (along x r (var y)) (if y = x then 1 else 0) (r x) := by
  by_cases hy : y = x
  · subst hy
    have hid : along y r (var y) = fun t => t := funext fun t => by
      rw [along, value, Function.update_self]
    rw [hid, if_pos rfl]
    exact hasDerivAt_id' _
  · have hfix : along x r (var y) = fun _ => r y := funext fun t => by
      rw [along, value, Function.update_of_ne hy]
    rw [hfix, if_neg hy]
    exact hasDerivAt_const _ _

theorem hasDerivAt_mul (hl : HasDerivAt (along x r l) (l'.value r) (r x))
    (hp : HasDerivAt (along x r p) (p'.value r) (r x)) :
    HasDerivAt (along x r (mul l p)) ((add (mul l' p) (mul l p')).value r) (r x) := by
  refine (hl.fun_mul hp).congr_deriv ?_
  rw [along_self, along_self]
  rfl

/-- Pruned operands of a power are defined near the assignment, and the power is the same
function. -/
theorem pruned_near {base exponent : Expr ℝ} (hb : base.simplify? = some b)
    (hk : exponent.simplify? = some k) (h : DefinedNear x r (pow base exponent)) :
    DefinedNear x r (pow b k) ∧ along x r (pow base exponent) =ᶠ[𝓝 (r x)] along x r (pow b k) := by
  have hpruned : ∀ᶠ t in 𝓝 (r x), (pow b k).Defined {0}ᶜ (Function.update r x t) ∧
      along x r (pow base exponent) t = along x r (pow b k) t := by
    filter_upwards [h] with t ⟨hdb, hdk, hpow⟩
    obtain ⟨hb', hvb⟩ := simplify?_absolute hb hdb
    obtain ⟨hk', hvk⟩ := simplify?_absolute hk hdk
    refine ⟨⟨hb', hk', ?_⟩, ?_⟩
    · rw [hvb, hvk]; exact hpow
    · rw [along, along, value, value, hvb, hvk]
  exact ⟨hpruned.mono fun _ ht => ht.1, hpruned.mono fun _ ht => ht.2⟩

/-! ### The power rules -/

theorem hasDerivAt_pow_of_powRule {d : Expr ℝ} (hrule : PowRule x b k d)
    (h : DefinedNear x r (pow b k)) (hd : d.Defined {0}ᶜ r)
    (hb : ∀ d, DefinedNear x r b → diff? x b = some d → d.Defined {0}ᶜ r →
      HasDerivAt (along x r b) (d.value r) (r x))
    (hlog : ∀ d, DefinedNear x r (log b) → diff? x (log b) = some d → d.Defined {0}ᶜ r →
      HasDerivAt (along x r (log b)) (d.value r) (r x))
    (hk : ∀ d, DefinedNear x r k → diff? x k = some d → d.Defined {0}ᶜ r →
      HasDerivAt (along x r k) (d.value r) (r x)) :
    HasDerivAt (along x r (pow b k)) (d.value r) (r x) := by
  have hnb : DefinedNear x r b := h.mono fun _ ht => ht.1
  have hnk : DefinedNear x r k := h.mono fun _ ht => ht.2.1
  have hdom : ∀ᶠ t in 𝓝 (r x), PowDefined (along x r b t) (along x r k t) :=
    h.mono fun _ ht => ht.2.2
  cases hrule with
  | @still c k' hbc hk' hzero =>
    -- the derivative of the exponent need not be defined, but the exponent does not move
    have hstill : along x r (pow b k) =ᶠ[𝓝 (r x)] fun _ => (pow b k).value r := by
      filter_upwards [h] with t ht
      have hag : ∀ y, y ≠ x → Function.update r x t y = r y := fun y hy =>
        Function.update_of_ne hy t r
      have hkt := (still_of_isZero_diff? hag).1 k k' hk' hzero
      subst hbc
      exact Still.pow (fun _ _ => rfl) hkt ht h.defined
    exact (hasDerivAt_const _ _).congr_of_eventuallyEq hstill
  | @constantBase c k' hbc hk' _ =>
    subst hbc
    obtain ⟨⟨-, hne⟩, -, hdk'⟩ := hd
    have hc : HasDerivAt (fun t => Real.log c * along x r k t) (Real.log c * k'.value r) (r x) :=
      (hk k' hnk hk' hdk').const_mul _
    refine (hasDerivAt_rpow_of_log hdom continuousAt_const hnk.continuousAt hne hc).congr_deriv ?_
    rw [along_self, along_self]
    exact mul_left_comm _ _ _
  | @constantExponent n b' _ hkc hb' =>
    subst hkc
    obtain ⟨-, ⟨-, -, hpow⟩, hdb'⟩ := hd
    have hone : b.value r ≠ 0 ∨ 1 ≤ n := hpow.ne_zero_or.imp_right fun hn =>
      (sub_pos.mp (show (0 : ℝ) < n - 1 from hn)).le
    refine ((hb b' hnb hb' hdb').rpow_const (by rwa [along_self])).congr_deriv ?_
    rw [along_self]
    exact show b'.value r * n * b.value r ^ (n - 1) = n * (b.value r ^ (n - 1) * b'.value r) by ring
  | @general l' k' _ _ hl' hk' =>
    obtain ⟨-, ⟨hdl', -⟩, ⟨-, hne⟩, hdk'⟩ := hd
    have hprod := hasDerivAt_mul (hlog l' (hnb.log hne) hl' hdl') (hk k' hnk hk' hdk')
    refine (hasDerivAt_rpow_of_log hdom hnb.continuousAt hnk.continuousAt
      (by rwa [along_self]) hprod).congr_deriv ?_
    rw [along_self, along_self]
    rfl

/-! ### All rules -/

/-- Where an expression is defined near an assignment and its derivative is defined there, the
derivative has the value of the derivative, all in the absolute reading. The second half is the
same for the logarithm of an expression. -/
theorem hasDerivAt_along :
    (∀ e d, DefinedNear x r e → diff? x e = some d → d.Defined {0}ᶜ r →
      HasDerivAt (along x r e) (d.value r) (r x)) ∧
    ∀ f d, DefinedNear x r (log f) → diff? x (log f) = some d → d.Defined {0}ᶜ r →
      HasDerivAt (along x r (log f)) (d.value r) (r x) := by
  refine diff_induction ?const ?var ?add ?mul ?pow ?log ?sin ?cos ?logOfPow ?logOfMul
    ?logOfOther
  case const =>
    intro c d _ h _
    rw [diff?] at h
    obtain rfl := Option.some.inj h
    exact hasDerivAt_const _ _
  case var =>
    intro y d _ h _
    rw [diff?] at h
    obtain rfl := Option.some.inj h
    refine hasDerivAt_var.congr_deriv ?_
    split <;> rfl
  case add =>
    intro l p ihl ihp d hn h hd
    obtain ⟨l', p', hl, hp, rfl⟩ := diff?_add_eq_some h
    exact (ihl l' (hn.mono fun _ ht => ht.1) hl hd.1).fun_add
      (ihp p' (hn.mono fun _ ht => ht.2) hp hd.2)
  case mul =>
    intro l p ihl ihp d hn h hd
    obtain ⟨l', p', hl, hp, rfl⟩ := diff?_mul_eq_some h
    exact hasDerivAt_mul (ihl l' (hn.mono fun _ ht => ht.1) hl hd.1.1)
      (ihp p' (hn.mono fun _ ht => ht.2) hp hd.2.2)
  case pow =>
    intro base exponent ihb ihk d hn h hd
    obtain ⟨b, k, hb, hk, hrule⟩ := diff?_pow_eq_some h
    obtain ⟨ihP, ihQ⟩ := ihb b hb
    obtain ⟨hn', heq⟩ := pruned_near hb hk hn
    exact (hasDerivAt_pow_of_powRule (powRule?_cases hrule) hn' hd ihP ihQ
      (ihk k hk)).congr_of_eventuallyEq heq
  case log => exact fun f ih => ih
  case sin =>
    intro f ih d hn h hd
    rw [diff?_sin] at h
    obtain ⟨f', hf, rfl⟩ := Option.map_eq_some_iff.mp h
    refine (ih f' hn hf hd.2).sin.congr_deriv ?_
    rw [along_self]
    rfl
  case cos =>
    intro f ih d hn h hd
    rw [diff?_cos] at h
    obtain ⟨f', hf, rfl⟩ := Option.map_eq_some_iff.mp h
    refine (ih f' hn hf hd.2).cos.congr_deriv ?_
    rw [along_self]
    exact show -Real.sin (f.value r) * f'.value r = Real.sin (f.value r) * -1 * f'.value r by ring
  case logOfPow =>
    intro b k ihb ihk d hn h hd
    rw [diff?_logOfPow] at h
    obtain ⟨k', l', hk, hl, rfl⟩ := diff?_mul_eq_some h
    have hsplit := hn.mono fun _ ht => logOfPow_value ht
    have heq : along x r (log (pow b k)) =ᶠ[𝓝 (r x)] along x r (mul k (log b)) :=
      hsplit.mono fun _ ht => ht.2.symm
    exact (hasDerivAt_mul (ihk k' (hsplit.mono fun _ ht => ht.1.1) hk hd.1.1)
      (ihb l' (hsplit.mono fun _ ht => ht.1.2) hl hd.2.2)).congr_of_eventuallyEq heq
  case logOfMul =>
    intro p q ihp ihq d hn h hd
    rw [diff?_logOfMul] at h
    obtain ⟨p', q', hp, hq, rfl⟩ := diff?_add_eq_some h
    have hsplit := hn.mono fun _ ht => logOfMul_value ht
    have heq : along x r (log (mul p q)) =ᶠ[𝓝 (r x)] along x r (add (log p) (log q)) :=
      hsplit.mono fun _ ht => ht.2.symm
    exact ((ihp p' (hsplit.mono fun _ ht => ht.1.1) hp hd.1).fun_add
      (ihq q' (hsplit.mono fun _ ht => ht.1.2) hq hd.2)).congr_of_eventuallyEq heq
  case logOfOther =>
    intro f hpow hmul ih d hn h hd
    rw [diff?_log hpow hmul] at h
    obtain ⟨f', hf, rfl⟩ := Option.map_eq_some_iff.mp h
    have hne : along x r f (r x) ≠ 0 := by
      rw [along_self]
      exact hn.defined.2
    refine ((ih f' (hn.mono fun _ ht => ht.1) hf hd.1).log hne).congr_deriv ?_
    rw [along_self, div_eq_mul_inv, ← Real.rpow_neg_one]
    rfl

/-- **Differentiation is correct.** Where an expression has a value on an open interval, and its
derivative has a value at a point of it, that value is the derivative at the point. If moreover
the operands of logarithms are free of products, powers and logarithms, and all bases of powers
and operands of logarithms are positive, then the derivative does have a value. -/
theorem diff?_correct (e : Expr ℝ) (x : String) (r : String → ℝ) :
    (∀ (a b : ℝ) (g : ℝ → ℝ) (d : Expr ℝ) (w : ℝ), r x ∈ Set.Ioo a b →
      (∀ t ∈ Set.Ioo a b, e.HasValue (Function.update r x t) (g t)) →
      e.diff? x = some d → d.HasValue r w → HasDerivAt g w (r x)) ∧
    ((∀ f, log f ∈ e.nodes → ∀ g ∈ f.nodes,
        (∀ p q, g ≠ mul p q) ∧ (∀ b k, g ≠ pow b k) ∧ ∀ u, g ≠ log u) →
      (∃ w, e.HasValue r w) →
      (∀ b k, pow b k ∈ e.nodes → ∃ u, 0 < u ∧ b.HasValue r u) →
      (∀ f, log f ∈ e.nodes → ∃ u, 0 < u ∧ f.HasValue r u) →
      ∃ d w, e.diff? x = some d ∧ d.HasValue r w) := by
  constructor
  · rintro a b g d w hx hvalue hdiff ⟨hd, rfl⟩
    have hnear : ∀ᶠ t in 𝓝 (r x), t ∈ Set.Ioo a b := Ioo_mem_nhds hx.1 hx.2
    have hdefined : DefinedNear x r e := hnear.mono fun t ht => (hvalue t ht).1.absolute
    have heq : g =ᶠ[𝓝 (r x)] along x r e := hnear.mono fun t ht => (hvalue t ht).2.symm
    exact (hasDerivAt_along.1 e d hdefined hdiff hd.absolute).congr_of_eventuallyEq heq
  · intro hsimple _ hbase hlog
    have htame : e.Tame r := by
      refine tame_of_nodes (fun f hf => ?_) fun b k hbk => ?_
      · obtain ⟨u, hu, -, rfl⟩ := hlog f hf
        exact ⟨simple_of_nodes (hsimple f hf), hu⟩
      · obtain ⟨u, hu, -, rfl⟩ := hbase b k hbk
        exact hu
    obtain ⟨d, hd, hdd⟩ := exists_diff?_of_tame.1 e htame
    exact ⟨d, d.value r, hd, hdd, rfl⟩

/-- At minus two the derivative of the logarithm of a square is minus one, although the logarithm
is taken apart into two that are not defined there; and at two the derivative of `x ^ x` has a
value. -/
theorem diff?_correct_at :
    ((∀ t ∈ Set.Ioo (-3 : ℝ) (-1), (log (mul (var "x") (var "x"))).HasValue
        (Function.update (fun _ => -2) "x" t) (Real.log (t * t))) ∧
      ∃ d, (log (mul (var "x") (var "x"))).diff? "x" = some d ∧ d.HasValue (fun _ => -2) (-1) ∧
        HasDerivAt (fun t => Real.log (t * t)) (-1) (-2)) ∧
    (pow (var "x") (var "x")).HasValue (fun _ => 2) 4 ∧
      ∃ d w, (pow (var "x") (var "x")).diff? "x" = some d ∧ d.HasValue (fun _ => 2) w := by
  constructor
  · have hvalue : ∀ t ∈ Set.Ioo (-3 : ℝ) (-1), (log (mul (var "x") (var "x"))).HasValue
        (Function.update (fun _ => -2) "x" t) (Real.log (t * t)) := by
      intro t ht
      have hpos : 0 < t * t := mul_self_pos.mpr (ht.2.trans (by norm_num)).ne
      refine ⟨⟨⟨trivial, trivial⟩, ?_⟩, ?_⟩
      · simpa [value] using hpos.ne'
      · simp [value]
    have hdiff : (log (mul (var "x") (var "x")) : Expr ℝ).diff? "x" = some
        (add (mul (const 1) (pow (var "x") (const (-1))))
          (mul (const 1) (pow (var "x") (const (-1))))) := by
      rw [diff?_logOfMul, diff?_add, diff?_log (by simp) (by simp), diff?, if_pos rfl]
      rfl
    have hd : (add (mul (const 1) (pow (var "x") (const (-1))))
        (mul (const 1) (pow (var "x") (const (-1)))) : Expr ℝ).HasValue (fun _ => -2) (-1) := by
      have hpow : PowDefined (-2) (-1) := powDefined_neg_one.mpr (by norm_num)
      refine ⟨⟨⟨trivial, trivial, trivial, hpow⟩, trivial, trivial, trivial, hpow⟩, ?_⟩
      norm_num [value, Real.rpow_neg_one]
    refine ⟨hvalue, _, hdiff, hd, ?_⟩
    exact (diff?_correct _ "x" fun _ => -2).1 (-3) (-1) _ _ _
      ⟨by norm_num, by norm_num⟩ hvalue hdiff hd
  · have hvalue : (pow (var "x") (var "x")).HasValue (fun _ => 2) 4 :=
      ⟨⟨trivial, trivial, .inl two_pos⟩, by norm_num [value]⟩
    have hbase : (var "x" : Expr ℝ).HasValue (fun _ => 2) 2 := ⟨trivial, rfl⟩
    refine ⟨hvalue, (diff?_correct _ "x" fun _ => 2).2 ?_ ⟨4, hvalue⟩ ?_ ?_⟩
    · simp [nodes]
    · intro b k hbk
      obtain ⟨rfl, -⟩ : b = var "x" ∧ k = var "x" := by simpa [nodes] using hbk
      exact ⟨2, two_pos, hbase⟩
    · simp [nodes]

end Expr

end Fluxion
