import Fluxion.Expr.Dual
import Fluxion.Proofs.Calculus

/-!
# Slopes with and without a derivative

The slope of an expression can be read in two ways: from its derivative, which is an expression
again, or from an evaluation that computes a slope with every value. Over the real numbers the two
agree, with or without pruning in between, since both give the derivative of calculus.

## Bases that vanish

An evaluation with slopes has one formula for all powers, with the logarithm of the base in it.
At a zero of the base it holds only where the exponent does not move, so that the bases of powers
are taken not to vanish at the point. Around the point they may.

## Main definitions

* `Expr.moving` — an assignment with one variable that moves

## Main results

* `Expr.map_value_evalDual` — the values of an evaluation with slopes are those of an evaluation
* `Expr.exists_slope` — the slope is the derivative, in the absolute reading
* `Expr.slope_eq_of_diff?` — the two ways of reading a slope agree
-/

namespace Fluxion

open Filter Topology

namespace Expr

/-! ### Values -/

section Arithmetic

variable {α : Type} [Arithmetic α]

/-- Slopes have no effect on values, nor on failures. -/
theorem map_value_evalDual (values : String → Option (Dual α)) (e : Expr α) :
    (e.evalDual values).map Dual.value = e.eval fun x => (values x).map Dual.value := by
  induction e with
  | const c => rfl
  | var x =>
    rw [evalDual, eval]
    cases values x <;> rfl
  | add l p ihl ihp | mul l p ihl ihp | pow l p ihl ihp =>
    rw [evalDual, eval, ← ihl, ← ihp]
    cases l.evalDual values with
    | error err => rfl
    | ok u => cases p.evalDual values <;> rfl
  | log f ih =>
    rw [evalDual, eval, ← ih]
    cases f.evalDual values with
    | error err => rfl
    | ok u =>
      show (evalLogDual u).map Dual.value = evalLog u.value
      rw [evalLogDual, evalLog]
      split <;> rfl
  | sin f ih | cos f ih =>
    rw [evalDual, eval, ← ih]
    cases f.evalDual values <;> rfl

end Arithmetic

/-! ### Slopes -/

variable {x : String} {r : String → ℝ} {e b k : Expr ℝ} {s s' : ℝ}

/-- An assignment, with the slope one for the variable that moves. -/
noncomputable def moving (x : String) (r : String → ℝ) (y : String) : Option (Dual ℝ) :=
  some ⟨r y, if y = x then 1 else 0⟩

theorem part_eq (s c : ℝ) : Dual.part s c = s * c := by
  rw [Dual.part]
  split
  · rename_i h
    rw [show s = 0 from of_decide_eq_true h, zero_mul]
  · rfl

/-- The slope of a power, where the base does not vanish. -/
theorem hasDerivAt_pow (h : DefinedNear x r (pow b k)) (hne : b.value r ≠ 0)
    (hb : HasDerivAt (along x r b) s (r x)) (hk : HasDerivAt (along x r k) s' (r x)) :
    HasDerivAt (along x r (pow b k))
      (Dual.pow ⟨b.value r, s⟩ ⟨k.value r, s'⟩).slope (r x) := by
  have hdom : ∀ᶠ t in 𝓝 (r x), PowDefined (along x r b t) (along x r k t) :=
    h.mono fun _ ht => ht.2.2
  have hne' : along x r b (r x) ≠ 0 := by rwa [along_self]
  have hlog := (hb.log hne').fun_mul hk
  refine (hasDerivAt_rpow_of_log hdom hb.continuousAt hk.continuousAt hne' hlog).congr_deriv ?_
  have hslope : (Dual.pow ⟨b.value r, s⟩ ⟨k.value r, s'⟩).slope =
      s * (k.value r * b.value r ^ (k.value r - 1)) +
        s' * (b.value r ^ k.value r * Real.log (b.value r)) := by
    rw [Dual.pow, part_eq, part_eq]
    rfl
  rw [hslope, along_self, along_self, Real.rpow_sub_one hne]
  field_simp

/-- **The slope is the derivative.** Where an expression is defined near an assignment, strictly at
the assignment itself, and no base of a power vanishes there, it is evaluated to its value and to
the derivative in the variable that moves. -/
theorem exists_slope (hnear : DefinedNear x r e) (hdefined : e.Defined (Set.Ioi 0) r)
    (hbase : ∀ b k, pow b k ∈ e.nodes → b.value r ≠ 0) :
    ∃ s, e.evalDual (moving x r) = .ok ⟨e.value r, s⟩ ∧
      HasDerivAt (along x r e) s (r x) := by
  have hmem {f g : Expr ℝ} (hf : f ∈ g.nodes) (h : ∀ b k, pow b k ∈ g.nodes → b.value r ≠ 0) :
      ∀ b k, pow b k ∈ f.nodes → b.value r ≠ 0 :=
    fun b k hbk => h b k (nodes_subset hf hbk)
  induction e with
  | const c => exact ⟨0, rfl, hasDerivAt_const _ _⟩
  | var y => exact ⟨_, rfl, hasDerivAt_var⟩
  | add l p ihl ihp =>
    obtain ⟨s, hs, hl⟩ := ihl (hnear.mono fun _ ht => ht.1) hdefined.1
      (hmem (by simp [nodes]) hbase)
    obtain ⟨s', hs', hp⟩ := ihp (hnear.mono fun _ ht => ht.2) hdefined.2
      (hmem (by simp [nodes]) hbase)
    exact ⟨s + s', by rw [evalDual, hs, hs']; rfl, hl.fun_add hp⟩
  | mul l p ihl ihp =>
    obtain ⟨s, hs, hl⟩ := ihl (hnear.mono fun _ ht => ht.1) hdefined.1
      (hmem (by simp [nodes]) hbase)
    obtain ⟨s', hs', hp⟩ := ihp (hnear.mono fun _ ht => ht.2) hdefined.2
      (hmem (by simp [nodes]) hbase)
    refine ⟨_, by rw [evalDual, hs, hs']; rfl, (hl.fun_mul hp).congr_deriv ?_⟩
    rw [along_self, along_self, part_eq, part_eq]
    ring
  | pow b k ihb ihk =>
    obtain ⟨s, hs, hb⟩ := ihb (hnear.mono fun _ ht => ht.1) hdefined.1
      (hmem (by simp [nodes]) hbase)
    obtain ⟨s', hs', hk⟩ := ihk (hnear.mono fun _ ht => ht.2.1) hdefined.2.1
      (hmem (by simp [nodes]) hbase)
    exact ⟨_, by rw [evalDual, hs, hs']; rfl,
      hasDerivAt_pow hnear (hbase b k (mem_nodes_self _)) hb hk⟩
  | log f ih =>
    obtain ⟨s, hs, hf⟩ := ih (hnear.mono fun _ ht => ht.1) hdefined.1
      (hmem (by simp [nodes]) hbase)
    have hpos : 0 < f.value r := hdefined.2
    have hdomain : ¬ Arithmetic.isNonpos (f.value r) = true := by
      simpa [Arithmetic.isNonpos] using hpos
    refine ⟨_, by rw [evalDual, hs]; exact if_neg hdomain, ?_⟩
    refine (hf.log (by rw [along_self]; exact hpos.ne')).congr_deriv ?_
    rw [along_self, part_eq, div_eq_mul_inv, ← Real.rpow_neg_one]
    rfl
  | sin f ih =>
    obtain ⟨s, hs, hf⟩ := ih hnear hdefined (hmem (by simp [nodes]) hbase)
    refine ⟨_, by rw [evalDual, hs]; rfl, hf.sin.congr_deriv ?_⟩
    rw [along_self, part_eq]
    exact mul_comm _ _
  | cos f ih =>
    obtain ⟨s, hs, hf⟩ := ih hnear hdefined (hmem (by simp [nodes]) hbase)
    refine ⟨_, by rw [evalDual, hs]; rfl, hf.cos.congr_deriv ?_⟩
    rw [along_self, part_eq]
    exact mul_comm _ _

/-- **The two ways of reading a slope agree.** Let an expression have a value on an open interval,
and let no base of a power vanish at a point of it. Then the expression is evaluated there to its
value and to a slope, which is the derivative at the point; and where the derivative has a value,
as it is or pruned, that value is the slope. -/
theorem slope_eq_of_diff? {a c : ℝ} {g : ℝ → ℝ} (hx : r x ∈ Set.Ioo a c)
    (hvalue : ∀ t ∈ Set.Ioo a c, e.HasValue (Function.update r x t) (g t))
    (hbase : ∀ b k, pow b k ∈ e.nodes → b.value r ≠ 0) :
    ∃ s, e.evalDual (moving x r) = .ok ⟨g (r x), s⟩ ∧ HasDerivAt g s (r x) ∧
      ∀ d, e.diff? x = some d → d.Defined (Set.Ioi 0) r → d.value r = s ∧
        ∀ d', d.simplify? = some d' → d'.value r = s := by
  have hnear : ∀ᶠ t in 𝓝 (r x), t ∈ Set.Ioo a c := Ioo_mem_nhds hx.1 hx.2
  have hself := hvalue (r x) hx
  rw [Function.update_eq_self] at hself
  obtain ⟨s, hs, hderiv⟩ :=
    exists_slope (hnear.mono fun t ht => (hvalue t ht).1.absolute) hself.1 hbase
  have heq : g =ᶠ[𝓝 (r x)] along x r e := hnear.mono fun t ht => (hvalue t ht).2.symm
  have hg : HasDerivAt g s (r x) := hderiv.congr_of_eventuallyEq heq
  refine ⟨s, by rw [hs, hself.2], hg, fun d hd hdefined => ?_⟩
  have hcorrect := (diff?_correct e x r).1 a c g d (d.value r) hx hvalue hd ⟨hdefined, rfl⟩
  have hslope : d.value r = s := hcorrect.unique hg
  exact ⟨hslope, fun d' hd' => (simplify?_absolute hd' hdefined.absolute).2.trans hslope⟩

end Expr

end Fluxion
