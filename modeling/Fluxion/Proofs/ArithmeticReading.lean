import Fluxion.Proofs.Parsing
import Fluxion.Proofs.RealValue

/-!
# The arithmetic that a text says

A text can be read as arithmetic without going through an expression: a minus sign between two
operands subtracts, a slash divides, `tan` and `sec` are quotients, `root` is a square root. An
expression has none of these. This file shows that nothing is lost: the expression that a text is
parsed as has a value at an assignment just when the arithmetic has, and it is the same value.

What an operation asks of its operands is part of the reading. A quotient asks for a denominator
that is not zero, and the expression asks for it too, because a power of minus one does.

Values are relations between an assignment and a number, so that "defined with the same value"
is one equivalence. How a numeral is read is left open: it may be exact or rounded to a float.

## Main definitions

* `Grammar.arithmetic` — arithmetic as the meaning of derivations
* `Coefficient.withNumerals` — real coefficients with another reading of numerals

## Main results

* `Grammar.hom_hasValue` — lowering each rule keeps the values
* `Formula.parse_arithmetic` — a parsed text has the values that its arithmetic has
-/

namespace Fluxion

/-- The real coefficients with numerals read by `numeral`, exactly or rounded. -/
@[reducible] noncomputable def Coefficient.withNumerals (numeral : Decimal.Numeral → ℝ) :
    Coefficient ℝ :=
  { (inferInstance : Coefficient ℝ) with ofNumeral := numeral }

/-! ### Values part by part -/

namespace Expr

variable {r : String → ℝ} {w : ℝ} {c : ℝ} {x : String} {l p b k f : Expr ℝ}

theorem HasValue.unique {u : ℝ} (hu : f.HasValue r u) (hw : f.HasValue r w) : u = w :=
  hu.2.symm.trans hw.2

theorem hasValue_const : (const c).HasValue r w ↔ c = w := iff_of_eq (true_and _)

theorem hasValue_var : (var x).HasValue r w ↔ r x = w := iff_of_eq (true_and _)

theorem hasValue_add : (add l p).HasValue r w ↔
    ∃ u v, l.HasValue r u ∧ p.HasValue r v ∧ u + v = w := by
  constructor
  · rintro ⟨⟨hl, hp⟩, hw⟩
    exact ⟨_, _, ⟨hl, rfl⟩, ⟨hp, rfl⟩, hw⟩
  · rintro ⟨_, _, ⟨hl, rfl⟩, ⟨hp, rfl⟩, hw⟩
    exact ⟨⟨hl, hp⟩, hw⟩

theorem hasValue_mul : (mul l p).HasValue r w ↔
    ∃ u v, l.HasValue r u ∧ p.HasValue r v ∧ u * v = w := by
  constructor
  · rintro ⟨⟨hl, hp⟩, hw⟩
    exact ⟨_, _, ⟨hl, rfl⟩, ⟨hp, rfl⟩, hw⟩
  · rintro ⟨_, _, ⟨hl, rfl⟩, ⟨hp, rfl⟩, hw⟩
    exact ⟨⟨hl, hp⟩, hw⟩

theorem hasValue_pow : (pow b k).HasValue r w ↔
    ∃ u v, b.HasValue r u ∧ k.HasValue r v ∧ PowDefined u v ∧ u ^ v = w := by
  constructor
  · rintro ⟨⟨hb, hk, hpow⟩, hw⟩
    exact ⟨_, _, ⟨hb, rfl⟩, ⟨hk, rfl⟩, hpow, hw⟩
  · rintro ⟨_, _, ⟨hb, rfl⟩, ⟨hk, rfl⟩, hpow, hw⟩
    exact ⟨⟨hb, hk, hpow⟩, hw⟩

theorem hasValue_log : (log f).HasValue r w ↔
    ∃ u, f.HasValue r u ∧ 0 < u ∧ Real.log u = w := by
  constructor
  · rintro ⟨⟨hf, hpos⟩, hw⟩
    exact ⟨_, ⟨hf, rfl⟩, hpos, hw⟩
  · rintro ⟨_, ⟨hf, rfl⟩, hpos, hw⟩
    exact ⟨⟨hf, hpos⟩, hw⟩

theorem hasValue_sin : (sin f).HasValue r w ↔ ∃ u, f.HasValue r u ∧ Real.sin u = w := by
  constructor
  · rintro ⟨hf, hw⟩
    exact ⟨_, ⟨hf, rfl⟩, hw⟩
  · rintro ⟨_, ⟨hf, rfl⟩, hw⟩
    exact ⟨hf, hw⟩

theorem hasValue_cos : (cos f).HasValue r w ↔ ∃ u, f.HasValue r u ∧ Real.cos u = w := by
  constructor
  · rintro ⟨hf, hw⟩
    exact ⟨_, ⟨hf, rfl⟩, hw⟩
  · rintro ⟨_, ⟨hf, rfl⟩, hw⟩
    exact ⟨hf, hw⟩

/-! ### Operations that expressions spell out -/

theorem hasValue_neg_one_mul : (mul (const (-1)) f).HasValue r w ↔
    ∃ u, f.HasValue r u ∧ -u = w := by
  rw [hasValue_mul]
  constructor
  · rintro ⟨u, v, hu, hv, rfl⟩
    obtain rfl := hasValue_const.mp hu
    exact ⟨v, hv, (neg_one_mul v).symm⟩
  · rintro ⟨v, hv, rfl⟩
    exact ⟨-1, v, hasValue_const.mpr rfl, hv, neg_one_mul v⟩

/-- Both ways of negating have the negative value. -/
theorem hasValue_negate : f.negate.HasValue r w ↔ ∃ u, f.HasValue r u ∧ -u = w := by
  cases f with
  | const c =>
    refine hasValue_const.trans ⟨fun h => ⟨c, hasValue_const.mpr rfl, h⟩, ?_⟩
    rintro ⟨u, hu, rfl⟩
    rw [hasValue_const.mp hu]
  | _ => exact hasValue_neg_one_mul

theorem hasValue_sub : (add l p.negate).HasValue r w ↔
    ∃ u v, l.HasValue r u ∧ p.HasValue r v ∧ u - v = w := by
  rw [hasValue_add]
  constructor
  · rintro ⟨u, _, hu, hneg, rfl⟩
    obtain ⟨v, hv, rfl⟩ := hasValue_negate.mp hneg
    exact ⟨u, v, hu, hv, sub_eq_add_neg u v⟩
  · rintro ⟨u, v, hu, hv, rfl⟩
    exact ⟨u, -v, hu, hasValue_negate.mpr ⟨v, hv, rfl⟩, (sub_eq_add_neg u v).symm⟩

/-- A power of minus one is a reciprocal, and asks for a base that is not zero. -/
theorem hasValue_reciprocal : (pow f (const (-1))).HasValue r w ↔
    ∃ u, f.HasValue r u ∧ u ≠ 0 ∧ u⁻¹ = w := by
  rw [hasValue_pow]
  constructor
  · rintro ⟨u, v, hu, hv, hpow, rfl⟩
    obtain rfl := hasValue_const.mp hv
    exact ⟨u, hu, powDefined_neg_one.mp hpow, (Real.rpow_neg_one u).symm⟩
  · rintro ⟨u, hu, hne, rfl⟩
    exact ⟨u, -1, hu, hasValue_const.mpr rfl, powDefined_neg_one.mpr hne, Real.rpow_neg_one u⟩

theorem hasValue_div : (mul l (pow p (const (-1)))).HasValue r w ↔
    ∃ u v, l.HasValue r u ∧ p.HasValue r v ∧ v ≠ 0 ∧ u / v = w := by
  rw [hasValue_mul]
  constructor
  · rintro ⟨u, _, hu, hinv, rfl⟩
    obtain ⟨v, hv, hne, rfl⟩ := hasValue_reciprocal.mp hinv
    exact ⟨u, v, hu, hv, hne, div_eq_mul_inv u v⟩
  · rintro ⟨u, v, hu, hv, hne, rfl⟩
    exact ⟨u, v⁻¹, hu, hasValue_reciprocal.mpr ⟨v, hv, hne, rfl⟩, (div_eq_mul_inv u v).symm⟩

/-- The sine and the cosine of the tangent are of the same angle. -/
theorem hasValue_tan : (mul (sin f) (pow (cos f) (const (-1)))).HasValue r w ↔
    ∃ u, f.HasValue r u ∧ Real.cos u ≠ 0 ∧ Real.sin u / Real.cos u = w := by
  rw [hasValue_div]
  constructor
  · rintro ⟨_, _, hs, hc, hne, rfl⟩
    obtain ⟨u, hu, rfl⟩ := hasValue_sin.mp hs
    obtain ⟨v, hv, rfl⟩ := hasValue_cos.mp hc
    obtain rfl := hu.unique hv
    exact ⟨u, hu, hne, rfl⟩
  · rintro ⟨u, hu, hne, rfl⟩
    exact ⟨_, _, hasValue_sin.mpr ⟨u, hu, rfl⟩, hasValue_cos.mpr ⟨u, hu, rfl⟩, hne, rfl⟩

theorem hasValue_sec : (pow (cos f) (const (-1))).HasValue r w ↔
    ∃ u, f.HasValue r u ∧ Real.cos u ≠ 0 ∧ 1 / Real.cos u = w := by
  rw [hasValue_reciprocal]
  constructor
  · rintro ⟨_, hc, hne, rfl⟩
    obtain ⟨u, hu, rfl⟩ := hasValue_cos.mp hc
    exact ⟨u, hu, hne, one_div _⟩
  · rintro ⟨u, hu, hne, rfl⟩
    exact ⟨_, hasValue_cos.mpr ⟨u, hu, rfl⟩, hne, (one_div _).symm⟩

/-- A half is no whole number, so the base of a square root is not negative. -/
theorem powDefined_half {u : ℝ} : PowDefined u (1 / 2) ↔ 0 ≤ u := by
  constructor
  · rintro (hpos | ⟨-, n, hn⟩ | ⟨rfl, -⟩)
    · exact hpos.le
    · have htwo : (1 : ℤ) = 2 * n := by
        have hreal : (1 : ℝ) = 2 * n := by rw [← hn]; norm_num
        exact_mod_cast hreal
      omega
    · exact le_refl 0
  · intro h
    rcases h.eq_or_lt with rfl | hpos
    · exact .inr (.inr ⟨rfl, by norm_num⟩)
    · exact .inl hpos

theorem hasValue_sqrt : (pow f (const (1 / 2))).HasValue r w ↔
    ∃ u, f.HasValue r u ∧ 0 ≤ u ∧ √u = w := by
  rw [hasValue_pow]
  constructor
  · rintro ⟨u, v, hu, hv, hpow, rfl⟩
    obtain rfl := hasValue_const.mp hv
    exact ⟨u, hu, powDefined_half.mp hpow, Real.sqrt_eq_rpow u⟩
  · rintro ⟨u, hu, hpos, rfl⟩
    exact ⟨u, 1 / 2, hu, hasValue_const.mpr rfl, powDefined_half.mpr hpos,
      (Real.sqrt_eq_rpow u).symm⟩

end Expr

namespace Grammar

open Fluxion.Expr

variable {numeral : Decimal.Numeral → ℝ} {r : String → ℝ}

/-- Arithmetic at an assignment. The meaning of a derivation is the relation of having a value. -/
noncomputable def arithmetic (numeral : Decimal.Numeral → ℝ) (r : String → ℝ) :
    Interpretation (ℝ → Prop) where
  number literal w := numeral (.ofLiteral literal) = w
  name x w := r x = w
  euler w := Coefficient.euler = w
  join
    | .plus, A, B => fun w => ∃ u v, A u ∧ B v ∧ u + v = w
    | .minus, A, B => fun w => ∃ u v, A u ∧ B v ∧ u - v = w
    | .times, A, B => fun w => ∃ u v, A u ∧ B v ∧ u * v = w
    | .slash, A, B => fun w => ∃ u v, A u ∧ B v ∧ v ≠ 0 ∧ u / v = w
  neg A w := ∃ u, A u ∧ -u = w
  raise A B w := ∃ u v, A u ∧ B v ∧ PowDefined u v ∧ u ^ v = w
  group A := A
  call
    | .sin, A => fun w => ∃ u, A u ∧ Real.sin u = w
    | .cos, A => fun w => ∃ u, A u ∧ Real.cos u = w
    | .tan, A => fun w => ∃ u, A u ∧ Real.cos u ≠ 0 ∧ Real.sin u / Real.cos u = w
    | .sec, A => fun w => ∃ u, A u ∧ Real.cos u ≠ 0 ∧ 1 / Real.cos u = w
    | .log, A | .ln, A => fun w => ∃ u, A u ∧ 0 < u ∧ Real.log u = w
    | .root, A => fun w => ∃ u, A u ∧ 0 ≤ u ∧ √u = w

/-- **Lowering keeps the values**, rule by rule. -/
theorem hom_hasValue : (@lowering ℝ (.withNumerals numeral)).Hom (arithmetic numeral r)
    fun e w => e.HasValue r w where
  number _ := funext fun _ => propext hasValue_const
  name _ := funext fun _ => propext hasValue_var
  euler := funext fun _ => propext hasValue_const
  join o _ _ := by
    funext w
    cases o with
    | plus => exact propext hasValue_add
    | minus => exact propext hasValue_sub
    | times => exact propext hasValue_mul
    | slash => exact propext hasValue_div
  neg _ := funext fun _ => propext hasValue_negate
  raise _ _ := funext fun _ => propext hasValue_pow
  group _ := rfl
  call g _ := by
    funext w
    cases g with
    | sin => exact propext hasValue_sin
    | cos => exact propext hasValue_cos
    | tan => exact propext hasValue_tan
    | sec => exact propext hasValue_sec
    | log | ln => exact propext hasValue_log
    | root => exact propext hasValue_sqrt

end Grammar

namespace Formula

open Grammar (Derivation arithmetic)

/-- **A parsed text means its arithmetic.** The tokens of a text that is parsed have a
derivation, and at every assignment the expression has a value just when the arithmetic of the
derivation has, and it is the same one. -/
theorem parse_arithmetic {text : String} {f : Formula} (h : parse text = .ok f)
    (numeral : Decimal.Numeral → ℝ) :
    (∃ d : Derivation .sum, d.Derives text) ∧
    ∀ d : Derivation .sum, d.Derives text → ∀ (r : String → ℝ) (w : ℝ),
      (@lower ℝ (.withNumerals numeral) f).HasValue r w ↔ d.read (arithmetic numeral r) w := by
  obtain ⟨d, hd, -, rfl⟩ := exists_derivation h
  refine ⟨⟨d, hd⟩, fun d' hd' r w => ?_⟩
  obtain rfl := Derivation.eq_of_derives hd hd'
  rw [@Derivation.lower_formula ℝ (.withNumerals numeral) _ d, ← Grammar.hom_hasValue.read d]

/-- A difference with a quotient by a negative in it, at five, six and three. -/
theorem parse_arithmetic_quotient : ∃ f, parse "a-b/-x" = .ok f ∧
    ∀ numeral, (@lower ℝ (.withNumerals numeral) f).HasValue
      (fun y => if y = "a" then 5 else if y = "b" then 6 else 3) 7 := by
  let d : Derivation .sum :=
    .join (.single (.single (.plain (.base (.name "a"))))) .minus
      (.join (.single (.plain (.base (.name "b")))) .slash (.neg (.plain (.base (.name "x")))))
  have hd : d.Derives "a-b/-x" := by
    rw [Derivation.Derives]
    decide +kernel
  have hparse : parse "a-b/-x" = .ok d.formula := parse_eq_ok d hd (by decide)
  refine ⟨d.formula, hparse, fun numeral => ((parse_arithmetic hparse numeral).2 d hd _ 7).mpr ?_⟩
  show ∃ u v, (if "a" = "a" then 5 else _) = u ∧ (∃ u' v', _ = u' ∧ (∃ u'', _ = u'' ∧ -u'' = v') ∧
    v' ≠ 0 ∧ u' / v' = v) ∧ u - v = 7
  exact ⟨5, -2, rfl, ⟨6, -3, rfl, ⟨3, rfl, rfl⟩, by norm_num, by norm_num⟩, by norm_num⟩

end Formula

end Fluxion
