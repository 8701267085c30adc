import Fluxion.Proofs.FloatValue

/-!
# Derivatives with the shape of zero

When the derivative of an expression has a shape that is known to be zero, the expression does
not depend on the variable: it has one value at any two assignments that differ at the variable
only. The rule for a constant base relies on this. It looks at the shape of the derivative of the
exponent and forgets the power altogether, without asking where that derivative is defined.

The two assignments are arbitrary, so nothing here is about neighbourhoods.

The constants may be of any type that is read exactly. A shape is known from the tests for zero and
one alone, so it does not matter how one is taken from a float, as the rule for a constant exponent
does.

## Main definitions

* `Expr.Still` — an expression has the same value at two assignments, if it has one at both

## Main results

* `Expr.still_map_of_isZero_diff?` — the statement above, in the absolute reading
* `Expr.eq_of_isZero_diff?` — the same for floats, in the strict reading
-/

namespace Fluxion

namespace Expr

variable {r r' : String → ℝ} {l p b k f : Expr ℝ}

/-- The expression has the same value at both assignments, provided that it is defined at
both. -/
def Still (r r' : String → ℝ) (e : Expr ℝ) : Prop :=
  e.Defined {0}ᶜ r → e.Defined {0}ᶜ r' → e.value r = e.value r'

theorem still_of_isZero {e : Expr ℝ} (h : e.isZero = true) : Still r r' e := fun hd hd' =>
  (value_eq_zero_of_isZero h hd).trans (value_eq_zero_of_isZero h hd').symm

theorem Still.add (hl : Still r r' l) (hp : Still r r' p) : Still r r' (add l p) := fun hd hd' =>
  congrArg₂ (· + ·) (hl hd.1 hd'.1) (hp hd.2 hd'.2)

theorem Still.mul (hl : Still r r' l) (hp : Still r r' p) : Still r r' (mul l p) := fun hd hd' =>
  congrArg₂ (· * ·) (hl hd.1 hd'.1) (hp hd.2 hd'.2)

theorem Still.pow (hb : Still r r' b) (hk : Still r r' k) : Still r r' (pow b k) := fun hd hd' =>
  congrArg₂ (· ^ ·) (hb hd.1 hd'.1) (hk hd.2.1 hd'.2.1)

/-- A power with a zero base is zero wherever it is defined. -/
theorem still_pow_of_isZero_base (h : b.isZero = true) : Still r r' (Expr.pow b k) := by
  have hzero : ∀ {s : String → ℝ}, (Expr.pow b k).Defined {0}ᶜ s → (Expr.pow b k).value s = 0 := by
    intro s hd
    have hb := value_eq_zero_of_isZero h hd.1
    rw [value, hb, Real.zero_rpow (hd.2.2.ne_zero_or.resolve_left (not_not_intro hb)).ne']
  exact fun hd hd' => (hzero hd).trans (hzero hd').symm

/-- A power with a zero exponent is one wherever it is defined. -/
theorem still_pow_of_isZero_exponent (h : k.isZero = true) : Still r r' (Expr.pow b k) := by
  have hone : ∀ {s : String → ℝ}, (Expr.pow b k).Defined {0}ᶜ s → (Expr.pow b k).value s = 1 := by
    intro s hd
    rw [value, value_eq_zero_of_isZero h hd.2.1, Real.rpow_zero]
  exact fun hd hd' => (hone hd).trans (hone hd').symm

theorem still_pow_of_isOne_base (h : b.isOne = true) : Still r r' (Expr.pow b k) := by
  obtain rfl := isOne_iff.mp h
  intro _ _
  rw [value, value, value, value, Real.one_rpow, Real.one_rpow]

/-- Pruning the operands of a power does not hide that it moves. -/
theorem Still.of_pruned {base exponent : Expr ℝ} (hb : base.simplify? = some b)
    (hk : exponent.simplify? = some k) (h : Still r r' (Expr.pow b k)) :
    Still r r' (Expr.pow base exponent) := by
  have hpruned : ∀ {s : String → ℝ}, (Expr.pow base exponent).Defined {0}ᶜ s →
      (Expr.pow b k).Defined {0}ᶜ s ∧
        (Expr.pow b k).value s = (Expr.pow base exponent).value s := by
    rintro s ⟨hdb, hdk, hpow⟩
    obtain ⟨hb', hvb⟩ := simplify?_absolute hb hdb
    obtain ⟨hk', hvk⟩ := simplify?_absolute hk hdk
    refine ⟨⟨hb', hk', ?_⟩, ?_⟩
    · rw [hvb, hvk]; exact hpow
    · rw [value, value, hvb, hvk]
  intro hd hd'
  obtain ⟨hs, hv⟩ := hpruned hd
  obtain ⟨hs', hv'⟩ := hpruned hd'
  rw [← hv, ← hv', h hs hs']

section

variable {α : Type} [Coefficient α] {g : α → ℝ} {x : String}

/-- A power of pruned operands whose derivative has the shape of zero is still. -/
theorem still_of_powRule (hg : Coefficient.Exact g) {b k d : Expr α} (hrule : PowRule x b k d)
    (hz : d.isZero = true)
    (hb : ∀ d, diff? x b = some d → d.isZero = true → Still r r' (b.map g))
    (hlog : ∀ d, diff? x (log b) = some d → d.isZero = true → Still r r' (b.map g))
    (hk : ∀ d, diff? x k = some d → d.isZero = true → Still r r' (k.map g)) :
    Still r r' (Expr.pow (b.map g) (k.map g)) := by
  have hzero : b.isZero = true → Still r r' (Expr.pow (b.map g) (k.map g)) := fun h =>
    still_pow_of_isZero_base ((isZero_map hg b).trans h)
  have hone : b.isOne = true → Still r r' (Expr.pow (b.map g) (k.map g)) := fun h =>
    still_pow_of_isOne_base ((isOne_map hg b).trans h)
  have hzero' : k.isZero = true → Still r r' (Expr.pow (b.map g) (k.map g)) := fun h =>
    still_pow_of_isZero_exponent ((isZero_map hg k).trans h)
  cases hrule with
  | still hbc hk' hkz =>
    subst hbc
    exact Still.pow (fun _ _ => rfl) (hk _ hk' hkz)
  | constantBase hbc hk' hkz =>
    simp only [isZero, Bool.or_eq_true, Bool.and_eq_true, hkz, Bool.false_eq_true, or_false] at hz
    rcases hz with hbo | ⟨hbz, -⟩
    · exact hone hbo
    · exact hzero hbz
  | constantExponent hconst hkc hb' =>
    simp only [isZero, Bool.or_eq_true, Bool.and_eq_true] at hz
    rcases hz with hkz | ⟨hbz, -⟩ | hbz
    · exact hzero' hkz
    · exact hzero hbz
    · subst hkc
      exact Still.pow (hb _ hb' hbz) fun _ _ => rfl
  | general hconst hconst' hl' hk' =>
    simp only [isZero, Bool.or_eq_true, Bool.and_eq_true] at hz
    rcases hz with ⟨hbz, -⟩ | ⟨hl | hkz, hright⟩
    · exact hzero hbz
    · rcases hright with hbo | hkz
      · exact hone hbo
      · exact Still.pow (hlog _ hl' hl) (hk _ hk' hkz)
    · exact hzero' hkz

/-- **An expression whose derivative has the shape of zero does not depend on the variable.** The
second half is about the operand of a logarithm: the operand itself is still, also where its
logarithm is not defined. -/
theorem still_map_of_isZero_diff? (hg : Coefficient.Exact g) (hag : ∀ y, y ≠ x → r y = r' y) :
    (∀ (e : Expr α) d, diff? x e = some d → d.isZero = true → Still r r' (e.map g)) ∧
      ∀ (f : Expr α) d, diff? x (log f) = some d → d.isZero = true → Still r r' (f.map g) := by
  have hstill : ∀ {e : Expr α}, e.isZero = true → Still r r' (e.map g) := fun h =>
    still_of_isZero ((isZero_map hg _).trans h)
  refine diff_induction ?const ?var ?add ?mul ?pow ?log ?sin ?cos ?logOfPow ?logOfMul
    ?logOfOther
  case const => exact fun c d _ _ _ _ => rfl
  case var =>
    intro y d h hz _ _
    rw [diff?] at h
    obtain rfl := Option.some.inj h
    refine hag y fun hy => ?_
    rw [if_pos hy] at hz
    exact one_ne_zero (hg.one.symm.trans ((hg.beq_zero 1).mp hz))
  case add =>
    intro l p ihl ihp d h hz
    obtain ⟨l', p', hl, hp, rfl⟩ := diff?_add_eq_some h
    rw [isZero, Bool.and_eq_true] at hz
    exact (ihl l' hl hz.1).add (ihp p' hp hz.2)
  case mul =>
    intro l p ihl ihp d h hz
    obtain ⟨l', p', hl, hp, rfl⟩ := diff?_mul_eq_some h
    simp only [isZero, Bool.and_eq_true, Bool.or_eq_true] at hz
    obtain ⟨hl' | hpz, hlz | hp'⟩ := hz
    · exact hstill (Bool.or_eq_true .. ▸ .inl hlz)
    · exact (ihl l' hl hl').mul (ihp p' hp hp')
    · exact hstill (Bool.or_eq_true .. ▸ .inl hlz)
    · exact hstill (Bool.or_eq_true .. ▸ .inr hpz)
  case pow =>
    intro base exponent ihb ihk d h hz
    obtain ⟨b, k, hb, hk, hrule⟩ := diff?_pow_eq_some h
    obtain ⟨ihP, ihQ⟩ := ihb b hb
    exact (still_of_powRule hg (powRule?_cases hrule) hz ihP ihQ (ihk k hk)).of_pruned
      (simplify?_map hg hb) (simplify?_map hg hk)
  case log =>
    intro f ih d h hz hd hd'
    exact congrArg Real.log (ih d h hz hd.1 hd'.1)
  case sin =>
    intro f ih d h hz hd hd'
    rw [diff?_sin] at h
    obtain ⟨f', hf, rfl⟩ := Option.map_eq_some_iff.mp h
    exact congrArg Real.sin (ih f' hf hz hd hd')
  case cos =>
    intro f ih d h hz hd hd'
    rw [diff?_cos] at h
    obtain ⟨f', hf, rfl⟩ := Option.map_eq_some_iff.mp h
    simp only [isZero, Bool.or_eq_true] at hz
    refine congrArg Real.cos ?_
    rcases hz with (hfz | hone) | hf'
    · exact hstill hfz hd hd'
    · exact absurd (hg.neg_one.symm.trans ((hg.beq_zero (-1)).mp hone))
        (neg_ne_zero.mpr one_ne_zero)
    · exact ih f' hf hf' hd hd'
  case logOfPow =>
    intro b k ihb ihk d h hz
    rw [diff?_logOfPow] at h
    obtain ⟨k', l', hk, hl, rfl⟩ := diff?_mul_eq_some h
    simp only [isZero, Bool.and_eq_true, Bool.or_eq_true] at hz
    obtain ⟨hk' | hbo, hright⟩ := hz
    · rcases hright with hkz | hl'
      · exact still_pow_of_isZero_exponent ((isZero_map hg k).trans hkz)
      · exact (ihb l' hl hl').pow (ihk k' hk hk')
    · exact still_pow_of_isOne_base ((isOne_map hg b).trans hbo)
  case logOfMul =>
    intro p q ihp ihq d h hz
    rw [diff?_logOfMul] at h
    obtain ⟨p', q', hp, hq, rfl⟩ := diff?_add_eq_some h
    rw [isZero, Bool.and_eq_true] at hz
    exact (ihp p' hp hz.1).mul (ihq q' hq hz.2)
  case logOfOther =>
    intro f hpow hmul ih d h hz
    rw [diff?_log hpow hmul] at h
    obtain ⟨f', hf, rfl⟩ := Option.map_eq_some_iff.mp h
    simp only [isZero, Bool.or_eq_true, Bool.and_eq_true] at hz
    rcases hz with hf' | ⟨hfz, -⟩
    · exact ih f' hf hf'
    · exact hstill hfz

end

/-- The same for real constants. -/
theorem still_of_isZero_diff? {x : String} (hag : ∀ y, y ≠ x → r y = r' y) :
    (∀ e d, diff? x e = some d → d.isZero = true → Still r r' e) ∧
      ∀ f d, diff? x (log f) = some d → d.isZero = true → Still r r' f := by
  simpa only [map_id] using still_map_of_isZero_diff? Coefficient.exact_id hag

/-- **A derivative with the shape of zero means independence.** If the derivative has a shape that
is known to be zero, the expression has the same value at any two assignments that differ at the
variable only, provided that it has a value at both. -/
theorem eq_of_isZero_diff? {x : String} {e d : Expr Float} (hd : diff? x e = some d)
    (hz : d.isZero = true) {r r' : String → ℝ} (hag : ∀ y, y ≠ x → r y = r' y) {w w' : ℝ}
    (hw : e.HasExactValue r w) (hw' : e.HasExactValue r' w') : w = w' := by
  obtain ⟨-, hdefined, rfl⟩ := hw
  obtain ⟨-, hdefined', rfl⟩ := hw'
  exact (still_map_of_isZero_diff? exact_realOf hag).1 e d hd hz hdefined.absolute
    hdefined'.absolute

/-- The rule for a constant base: the exponent `0 * x` is pruned to zero, and its derivative hides
the power. -/
theorem eq_of_isZero_diff?_pow :
    ∃ d, diff? "x" (add (pow (const 2) (mul (const 0) (var "x"))) (var "y") : Expr Float) = some d ∧
      d.isZero = true ∧
      (add (pow (const 2) (mul (const 0) (var "x"))) (var "y")).HasExactValue
        (Function.update (fun _ => 5) "x" 1) (2 ^ ((0 : ℝ) * 1) + 5) ∧
      (add (pow (const 2) (mul (const 0) (var "x"))) (var "y")).HasExactValue
        (Function.update (fun _ => 5) "x" 7) (2 ^ ((0 : ℝ) * 7) + 5) ∧
      (2 : ℝ) ^ ((0 : ℝ) * 1) + 5 = 2 ^ ((0 : ℝ) * 7) + 5 := by
  have hzero : (const 0 : Expr Float).isZero = true := by decide
  have hd : diff? "x" (add (pow (const 2) (mul (const 0) (var "x"))) (var "y") : Expr Float) =
      some (add (const 0) (const 0)) := by
    have hexponent : simplify? (mul (const 0) (var "x") : Expr Float) = some (const 0) := by
      simp [simplify?, pruneMul, hzero]
    rw [diff?_add, diff?_pow, hexponent]
    simp [simplify?, powRule?, constant?, diff?, hzero]
  have htwo : realOf 2 = 2 := by
    have hunpack : (2 : Float).toModel.unpack = .finite .positive (2 ^ 52) (-51) (by decide) := rfl
    rw [realOf_positive hunpack]
    norm_num
  have hvalue : ∀ t : ℝ, (add (pow (const 2) (mul (const 0) (var "x"))) (var "y")).HasExactValue
      (Function.update (fun _ => 5) "x" t) (2 ^ ((0 : ℝ) * t) + 5) := by
    intro t
    refine ⟨fun c hc => ?_, ⟨⟨trivial, ⟨trivial, trivial⟩, .inl ?_⟩, trivial⟩, ?_⟩
    · obtain rfl | rfl : c = 2 ∨ c = 0 := by simpa [nodes] using hc
      · decide
      · decide
    · exact two_pos.trans_eq htwo.symm
    · simp [map, value, htwo, exact_realOf.zero]
  have hag : ∀ y, y ≠ "x" → (Function.update (fun _ => 5) "x" 1 : String → ℝ) y =
      (Function.update (fun _ => 5) "x" 7 : String → ℝ) y := fun y hy => by
    rw [Function.update_of_ne hy, Function.update_of_ne hy]
  exact ⟨_, hd, by decide, hvalue 1, hvalue 7,
    eq_of_isZero_diff? hd (by decide) hag (hvalue 1) (hvalue 7)⟩

end Expr

end Fluxion
