import Fluxion.Proofs.RealValue
import Fluxion.Proofs.Rules

/-!
# Pruning keeps values

Where an expression has a value, pruning succeeds and the pruned expression has the same value,
or else it takes a logarithm of a number that is not positive. The second case is there because
of one rule: `log (p * q)` becomes `log p + log q`, and both factors may be negative.

Both cases come out of one induction. It is carried out for any domain `D` of the logarithm, on
the condition that the domain is all numbers but zero or that no logarithm is taken apart. With
`D = {0}ᶜ` nothing is asked of the expression; with `D = Set.Ioi 0` the strict value is kept.

## Main definitions

* `Expr.NoSplit` — no logarithm is applied directly to a product or a power

## Main results

* `Expr.exists_simplify?` — the induction
* `Expr.simplify?_hasValue` — pruning keeps strict values, up to logarithms that are split
-/

namespace Fluxion

namespace Expr

variable {D : Set ℝ} {r : String → ℝ} {l p b k e s : Expr ℝ}

/-! ### One node -/

theorem pruneAdd_value (hl : l.Defined D r) (hp : p.Defined D r) :
    (pruneAdd l p).Defined D r ∧ (pruneAdd l p).value r = l.value r + p.value r := by
  rw [pruneAdd]
  split_ifs with h h h
  · rw [Bool.and_eq_true] at h
    rw [value_eq_zero_of_isZero h.1 hl, value_eq_zero_of_isZero h.2 hp]
    exact ⟨trivial, (add_zero 0).symm⟩
  · rw [value_eq_zero_of_isZero h hl, zero_add]
    exact ⟨hp, rfl⟩
  · rw [value_eq_zero_of_isZero h hp, add_zero]
    exact ⟨hl, rfl⟩
  · exact ⟨⟨hl, hp⟩, rfl⟩

theorem pruneMul_value (hl : l.Defined D r) (hp : p.Defined D r) :
    (pruneMul l p).Defined D r ∧ (pruneMul l p).value r = l.value r * p.value r := by
  rw [pruneMul]
  split_ifs with h h h
  · rcases Bool.or_eq_true .. ▸ h with h | h
    · rw [value_eq_zero_of_isZero h hl, zero_mul]
      exact ⟨trivial, rfl⟩
    · rw [value_eq_zero_of_isZero h hp, mul_zero]
      exact ⟨trivial, rfl⟩
  · obtain rfl := isOne_iff.mp h
    exact ⟨hp, (one_mul _).symm⟩
  · obtain rfl := isOne_iff.mp h
    exact ⟨hl, (mul_one _).symm⟩
  · exact ⟨⟨hl, hp⟩, rfl⟩

/-- A power that is defined is never zero to the power zero, so its pruned form exists. -/
theorem prunePow?_value (hb : b.Defined D r) (hk : k.Defined D r)
    (hbk : PowDefined (b.value r) (k.value r)) :
    ∃ s, prunePow? b k = some s ∧ s.Defined D r ∧ s.value r = b.value r ^ k.value r := by
  rw [prunePow?]
  split_ifs with h h h h
  · rw [Bool.and_eq_true] at h
    have hb0 := value_eq_zero_of_isZero h.2 hb
    have hk0 := value_eq_zero_of_isZero h.1 hk
    rcases hbk.ne_zero_or with hne | hpos
    · exact absurd hb0 hne
    · exact absurd hk0 hpos.ne'
  · refine ⟨const 1, rfl, trivial, ?_⟩
    rw [value_eq_zero_of_isZero h hk, Real.rpow_zero]
    rfl
  · have hb0 := value_eq_zero_of_isZero h hb
    have hpos := hbk.ne_zero_or.resolve_left (not_not_intro hb0)
    refine ⟨const 0, rfl, trivial, ?_⟩
    rw [hb0, Real.zero_rpow hpos.ne']
    rfl
  · obtain rfl := isOne_iff.mp h
    exact ⟨b, rfl, hb, (Real.rpow_one _).symm⟩
  · exact ⟨pow b k, rfl, ⟨hb, hk, hbk⟩, rfl⟩

/-! ### Whole expressions -/

/-- No logarithm is applied directly to a product or a power. -/
def NoSplit (e : Expr ℝ) : Prop :=
  (∀ p q, log (mul p q) ∉ e.nodes) ∧ ∀ b k, log (pow b k) ∉ e.nodes

theorem NoSplit.of_mem {f : Expr ℝ} (h : e.NoSplit) (hf : f ∈ e.nodes) : f.NoSplit :=
  ⟨fun p q hpq => h.1 p q (nodes_subset hf hpq), fun b k hbk => h.2 b k (nodes_subset hf hbk)⟩

/-- Taking the logarithm of a power apart keeps its absolute value. -/
theorem logOfPow_value (h : (log (pow b k)).Defined {0}ᶜ r) :
    (mul k (log b)).Defined {0}ᶜ r ∧ (mul k (log b)).value r = (log (pow b k)).value r := by
  obtain ⟨⟨hb, hk, hbk⟩, hne⟩ := h
  have hb0 : b.value r ≠ 0 := hbk.rpow_ne_zero_iff.mp hne
  exact ⟨⟨hk, hb, hb0⟩, (hbk.log_rpow hb0).symm⟩

/-- Taking the logarithm of a product apart keeps its absolute value. -/
theorem logOfMul_value (h : (log (mul l p)).Defined {0}ᶜ r) :
    (add (log l) (log p)).Defined {0}ᶜ r ∧
      (add (log l) (log p)).value r = (log (mul l p)).value r := by
  obtain ⟨⟨hl, hp⟩, hne⟩ := h
  have hl0 : l.value r ≠ 0 := left_ne_zero_of_mul hne
  have hp0 : p.value r ≠ 0 := right_ne_zero_of_mul hne
  exact ⟨⟨⟨hl, hl0⟩, hp, hp0⟩, (Real.log_mul hl0 hp0).symm⟩

/-- Where an expression is defined, pruning succeeds and keeps the value, provided that the
logarithm is taken on all numbers but zero or that no logarithm is taken apart. -/
theorem exists_simplify? (hsplit : D = {0}ᶜ ∨ e.NoSplit) (hd : e.Defined D r) :
    ∃ s, e.simplify? = some s ∧ s.Defined D r ∧ s.value r = e.value r := by
  fun_induction simplify? e with
  | case1 c => exact ⟨const c, rfl, trivial, rfl⟩
  | case2 x => exact ⟨var x, rfl, trivial, rfl⟩
  | case3 l p ihl ihp =>
    obtain ⟨l', hl, hdl, hvl⟩ := ihl (hsplit.imp_right (·.of_mem (by simp [nodes]))) hd.1
    obtain ⟨p', hp, hdp, hvp⟩ := ihp (hsplit.imp_right (·.of_mem (by simp [nodes]))) hd.2
    obtain ⟨hds, hvs⟩ := pruneAdd_value hdl hdp
    refine ⟨pruneAdd l' p', by rw [hl, hp]; rfl, hds, ?_⟩
    rw [hvs, hvl, hvp, value]
  | case4 l p ihl ihp =>
    obtain ⟨l', hl, hdl, hvl⟩ := ihl (hsplit.imp_right (·.of_mem (by simp [nodes]))) hd.1
    obtain ⟨p', hp, hdp, hvp⟩ := ihp (hsplit.imp_right (·.of_mem (by simp [nodes]))) hd.2
    obtain ⟨hds, hvs⟩ := pruneMul_value hdl hdp
    refine ⟨pruneMul l' p', by rw [hl, hp]; rfl, hds, ?_⟩
    rw [hvs, hvl, hvp, value]
  | case5 b k ihb ihk =>
    obtain ⟨b', hb, hdb, hvb⟩ := ihb (hsplit.imp_right (·.of_mem (by simp [nodes]))) hd.1
    obtain ⟨k', hk, hdk, hvk⟩ := ihk (hsplit.imp_right (·.of_mem (by simp [nodes]))) hd.2.1
    obtain ⟨s, hs, hds, hvs⟩ := prunePow?_value hdb hdk (by rw [hvb, hvk]; exact hd.2.2)
    refine ⟨s, by rw [hb, hk]; exact hs, hds, ?_⟩
    rw [hvs, hvb, hvk, value]
  | case6 b k ih =>
    obtain rfl := hsplit.resolve_right fun h => h.2 b k (mem_nodes_self _)
    obtain ⟨hd', hv⟩ := logOfPow_value hd
    obtain ⟨s, hs, hds, hvs⟩ := ih (.inl rfl) hd'
    exact ⟨s, hs, hds, hvs.trans hv⟩
  | case7 p q ih =>
    obtain rfl := hsplit.resolve_right fun h => h.1 p q (mem_nodes_self _)
    obtain ⟨hd', hv⟩ := logOfMul_value hd
    obtain ⟨s, hs, hds, hvs⟩ := ih (.inl rfl) hd'
    exact ⟨s, hs, hds, hvs.trans hv⟩
  | case8 f hpow hmul ih =>
    obtain ⟨f', hf, hdf, hvf⟩ := ih (hsplit.imp_right (·.of_mem (by simp [nodes]))) hd.1
    refine ⟨log f', by rw [hf]; rfl, ⟨hdf, hvf ▸ hd.2⟩, ?_⟩
    rw [value, value, hvf]
  | case9 f ih =>
    obtain ⟨f', hf, hdf, hvf⟩ := ih (hsplit.imp_right (·.of_mem (by simp [nodes]))) hd
    refine ⟨sin f', by rw [hf]; rfl, hdf, ?_⟩
    rw [value, value, hvf]
  | case10 f ih =>
    obtain ⟨f', hf, hdf, hvf⟩ := ih (hsplit.imp_right (·.of_mem (by simp [nodes]))) hd
    refine ⟨cos f', by rw [hf]; rfl, hdf, ?_⟩
    rw [value, value, hvf]

/-- A pruned expression keeps definedness and value in the absolute reading. -/
theorem simplify?_absolute (h : e.simplify? = some s) (hd : e.Defined {0}ᶜ r) :
    s.Defined {0}ᶜ r ∧ s.value r = e.value r := by
  obtain ⟨s', hs', hds, hvs⟩ := exists_simplify? (.inl rfl) hd
  obtain rfl := Option.some.inj (h.symm.trans hs')
  exact ⟨hds, hvs⟩

/-- **Pruning keeps values.** Where an expression has a value, pruning succeeds, and the result
has the same value or is undefined because of a logarithm of a number that is not positive. The
second case cannot arise when no logarithm is applied directly to a product or a power. -/
theorem simplify?_hasValue {w : ℝ} (h : e.HasValue r w) :
    ∃ s, e.simplify? = some s ∧
      (s.HasValue r w ∨
        (¬ s.Defined (Set.Ioi 0) r ∧ ∃ f, log f ∈ s.nodes ∧ ∃ u ≤ 0, f.HasValue r u)) ∧
      (((∀ p q, log (mul p q) ∉ e.nodes) ∧ ∀ b k, log (pow b k) ∉ e.nodes) → s.HasValue r w) := by
  obtain ⟨hd, rfl⟩ := h
  obtain ⟨s, hs, hds, hvs⟩ := exists_simplify? (.inl rfl) hd.absolute
  refine ⟨s, hs, ?_, fun hsplit => ?_⟩
  · by_cases hstrict : s.Defined (Set.Ioi 0) r
    · exact .inl ⟨hstrict, hvs⟩
    · exact .inr ⟨hstrict, hds.strict_or.resolve_left hstrict⟩
  · obtain ⟨s', hs', hds', hvs'⟩ := exists_simplify? (.inr hsplit) hd
    obtain rfl := Option.some.inj (hs.symm.trans hs')
    exact ⟨hds', hvs'⟩

/-- At minus two the logarithm of a square is pruned to a sum that is not defined there, and a
product with a zero keeps its value. -/
theorem simplify?_hasValue_neg_two :
    (∃ s, (log (mul (var "x") (var "x"))).simplify? = some s ∧
      (s.HasValue (fun _ => -2) (Real.log 4) ∨
        (¬ s.Defined (Set.Ioi 0) (fun _ => -2) ∧
          ∃ f, log f ∈ s.nodes ∧ ∃ u ≤ 0, f.HasValue (fun _ => -2) u))) ∧
    ∃ s, (pow (var "x") (add (const 3) (const 0))).simplify? = some s ∧
      s.HasValue (fun _ => -2) (-8) := by
  constructor
  · have h : (log (mul (var "x") (var "x"))).HasValue (fun _ => -2) (Real.log 4) := by
      refine ⟨⟨⟨trivial, trivial⟩, ?_⟩, ?_⟩
      · exact show (0 : ℝ) < -2 * -2 by norm_num
      · exact congrArg Real.log (by norm_num : (-2 * -2 : ℝ) = 4)
    obtain ⟨s, hs, hcases, -⟩ := simplify?_hasValue h
    exact ⟨s, hs, hcases⟩
  · have hexp : ((3 : ℝ) + 0) = (3 : ℤ) := by norm_num
    have h : (pow (var "x") (add (const 3) (const 0))).HasValue (fun _ => -2) (-8) := by
      refine ⟨⟨trivial, ⟨trivial, trivial⟩, .inr (.inl ⟨?_, 3, hexp⟩)⟩, ?_⟩
      · exact show (-2 : ℝ) < 0 by norm_num
      · refine show (-2 : ℝ) ^ ((3 : ℝ) + 0) = -8 from ?_
        rw [hexp, Real.rpow_intCast]
        norm_num
    obtain ⟨s, hs, -, hkeep⟩ := simplify?_hasValue h
    exact ⟨s, hs, hkeep (by simp [nodes])⟩

end Expr

end Fluxion
