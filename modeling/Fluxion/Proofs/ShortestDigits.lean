import Fluxion.Decimal.Digits
import Mathlib.Algebra.Order.Field.Power
import Mathlib.Data.Rat.Cast.Order
import Mathlib.Order.Interval.Set.Basic
import Mathlib.Tactic.FieldSimp
import Mathlib.Tactic.Linarith
import Mathlib.Tactic.Positivity
import Mathlib.Tactic.Ring

/-!
# The shortest digits determine a magnitude

The numbers that read back as a magnitude make up an interval around it, from the midpoint below to
the midpoint above. The shortest digits are searched for in that interval, and no two magnitudes
share a number. So what the digits stand for is enough to tell which magnitude they were chosen for.

## Seventeen digits

The search goes up to seventeen digits, and has something to fall back on if it finds none. It never
does: with seventeen digits one of the two grid points around the magnitude is nearer to it than
either midpoint. A unit of the last digit is at most the magnitude divided by `10 ^ 16`, and
`10 ^ 16` is more than a mantissa can be. Below a power of two the midpoint is only half as far
away, but there the mantissa is half as large as it can be.

## Where intervals meet

The interval of an even mantissa has its ends, and that of an odd one has not. Neighbouring
mantissas are not both even, also where the exponent changes: below the least mantissa of an
exponent comes the largest one of the exponent before, which is odd.

## Main definitions

* `Scientific.value`, `Magnitude.value` — the numbers
* `Magnitude.interval` — the numbers that read back as a magnitude
* `Magnitude.Canonical` — the magnitudes of floats

## Main results

* `Magnitude.pow_leading_le` — the power of ten of the first digit is not above the magnitude
* `Magnitude.readingBack?_seventeen` — seventeen digits are enough
* `Magnitude.shortest_mem` — the shortest digits are in the interval
* `Magnitude.eq_of_mem_interval` — intervals of different magnitudes have no number in common
-/

namespace Fluxion.Decimal

/-- The number that chosen digits stand for. -/
def Scientific.value (s : Scientific) : ℚ := s.digits * 10 ^ s.exponent

/-! ### Powers of two and of ten -/

theorem pow_toNat {b : ℚ} (hb : b ≠ 0) (k : Int) : b ^ k.toNat = b ^ k * b ^ (-k).toNat := by
  rw [← zpow_natCast, ← zpow_natCast, ← zpow_add₀ hb]
  congr 1
  omega

section Grid

variable {a n : Nat} {e unit : Int}

/-- Whole multiples of a power of two and of a power of ten, both multiplied with what makes them
whole. -/
theorem exists_scale (e unit : Int) : ∃ K : ℚ, 0 < K ∧
    (∀ a : Nat, ((a * (2 ^ e.toNat * 10 ^ (-unit).toNat) : Nat) : ℚ) = a * 2 ^ e * K) ∧
    ∀ n : Nat, ((n * (2 ^ (-e).toNat * 10 ^ unit.toNat) : Nat) : ℚ) = n * 10 ^ unit * K := by
  refine ⟨2 ^ (-e).toNat * 10 ^ (-unit).toNat, by positivity, fun a => ?_, fun n => ?_⟩
  · push_cast
    rw [pow_toNat two_ne_zero e]
    ring
  · push_cast
    rw [pow_toNat (show (10 : ℚ) ≠ 0 by norm_num) unit]
    ring

theorem binary_le_decimal : a * (2 ^ e.toNat * 10 ^ (-unit).toNat) ≤
    n * (2 ^ (-e).toNat * 10 ^ unit.toNat) ↔ (a : ℚ) * 2 ^ e ≤ n * 10 ^ unit := by
  obtain ⟨K, hK, hbinary, hdecimal⟩ := exists_scale e unit
  rw [← Nat.cast_le (α := ℚ), hbinary, hdecimal, mul_le_mul_iff_of_pos_right hK]

theorem decimal_le_binary : n * (2 ^ (-e).toNat * 10 ^ unit.toNat) ≤
    a * (2 ^ e.toNat * 10 ^ (-unit).toNat) ↔ (n : ℚ) * 10 ^ unit ≤ a * 2 ^ e := by
  obtain ⟨K, hK, hbinary, hdecimal⟩ := exists_scale e unit
  rw [← Nat.cast_le (α := ℚ), hbinary, hdecimal, mul_le_mul_iff_of_pos_right hK]

end Grid

namespace Magnitude

variable {v w : Magnitude} {count n : Nat} {d : ℚ}

/-- The number that a magnitude is. -/
def value (v : Magnitude) : ℚ := v.mantissa * 2 ^ v.exponent

/-- The midpoint to the float below. -/
def lower (v : Magnitude) : ℚ := (4 * v.mantissa - v.quartersBelow) * 2 ^ (v.exponent - 2)

/-- The midpoint to the float above. -/
def upper (v : Magnitude) : ℚ := (4 * v.mantissa + 2) * 2 ^ (v.exponent - 2)

/-- The numbers that read back as the magnitude. -/
def interval (v : Magnitude) : Set ℚ :=
  if v.mantissa % 2 = 0 then Set.Icc v.lower v.upper else Set.Ioo v.lower v.upper

theorem quartersBelow_le (v : Magnitude) : v.quartersBelow ≤ 2 := by
  rw [quartersBelow]
  split <;> decide

/-- The test of a point of a decimal grid. -/
def hits (v : Magnitude) (unit : Int) (n : Nat) : Bool :=
  let quarter := Nat.pow 2 (v.exponent - 2).toNat * Nat.pow 10 (-unit).toNat
  let step := Nat.pow 2 (2 - v.exponent).toNat * Nat.pow 10 unit.toNat
  if v.mantissa % 2 = 0 then
    (4 * v.mantissa - v.quartersBelow) * quarter ≤ n * step &&
      n * step ≤ (4 * v.mantissa + 2) * quarter
  else
    (4 * v.mantissa - v.quartersBelow) * quarter < n * step &&
      n * step < (4 * v.mantissa + 2) * quarter

/-- The last point of a decimal grid that is not above the magnitude. -/
def gridBelow (v : Magnitude) (unit : Int) : Nat :=
  4 * v.mantissa * (Nat.pow 2 (v.exponent - 2).toNat * Nat.pow 10 (-unit).toNat) /
    (Nat.pow 2 (2 - v.exponent).toNat * Nat.pow 10 unit.toNat)

theorem hits_iff (hpos : 0 < v.mantissa) (unit : Int) (n : Nat) :
    v.hits unit n = true ↔ (n : ℚ) * 10 ^ unit ∈ v.interval := by
  have hle : v.quartersBelow ≤ 4 * v.mantissa := by
    have := v.quartersBelow_le
    omega
  have hlow : v.lower = (4 * v.mantissa - v.quartersBelow : Nat) * 2 ^ (v.exponent - 2) := by
    rw [lower]
    push_cast [Nat.cast_sub hle]
    ring
  have hhigh : v.upper = (4 * v.mantissa + 2 : Nat) * 2 ^ (v.exponent - 2) := by
    rw [upper]
    push_cast
    ring
  rw [hits, interval, ← Int.neg_sub v.exponent 2]
  simp only [Nat.pow_eq]
  split
  · simp only [Bool.and_eq_true, decide_eq_true_iff, Set.mem_Icc, hlow, hhigh, binary_le_decimal,
      decimal_le_binary]
  · simp only [Bool.and_eq_true, decide_eq_true_iff, Set.mem_Ioo, hlow, hhigh,
      lt_iff_lt_of_le_iff_le decimal_le_binary, lt_iff_lt_of_le_iff_le binary_le_decimal]

theorem four_mul_value (v : Magnitude) :
    (4 * v.mantissa : Nat) * (2 : ℚ) ^ (v.exponent - 2) = v.value := by
  rw [value, zpow_sub₀ two_ne_zero]
  push_cast
  ring

theorem gridBelow_le (v : Magnitude) (unit : Int) :
    (v.gridBelow unit : ℚ) * 10 ^ unit ≤ v.value := by
  rw [← four_mul_value, ← decimal_le_binary, gridBelow, ← Int.neg_sub v.exponent 2]
  exact Nat.div_mul_le_self _ _

theorem lt_gridBelow (v : Magnitude) (unit : Int) :
    v.value < ((v.gridBelow unit + 1 : Nat) : ℚ) * 10 ^ unit := by
  rw [← four_mul_value, ← lt_iff_lt_of_le_iff_le decimal_le_binary, gridBelow,
    ← Int.neg_sub v.exponent 2]
  simp only [Nat.pow_eq]
  exact (Nat.lt_mul_div_succ _ (by positivity)).trans_eq (Nat.mul_comm _ _)

/-- What the search for a given number of digits comes to. -/
theorem readingBack?_cases (v : Magnitude) (count : Nat) :
    (∃ n, v.readingBack? count = some ⟨n, v.leading - count + 1⟩ ∧
      v.hits (v.leading - count + 1) n = true) ∨
    v.readingBack? count = none ∧
      v.hits (v.leading - count + 1) (v.gridBelow (v.leading - count + 1)) = false ∧
      v.hits (v.leading - count + 1) (v.gridBelow (v.leading - count + 1) + 1) = false := by
  generalize hresult : v.readingBack? count = result
  rw [readingBack?] at hresult
  split at hresult
  all_goals
    rename_i hfloor hnext
    subst hresult
  · refine .inl ⟨_, rfl, ?_⟩
    split
    · exact hfloor
    · exact hnext
  · exact .inl ⟨_, rfl, hfloor⟩
  · exact .inl ⟨_, rfl, hnext⟩
  · exact .inr ⟨rfl, hfloor, hnext⟩

/-! ### Seventeen digits -/

/-- The magnitudes of floats: 53 binary digits, or fewer with the least exponent. -/
structure Canonical (v : Magnitude) : Prop where
  mantissa_lt : v.mantissa < 2 ^ 53
  least_le : -1074 ≤ v.exponent
  normal : 2 ^ 52 ≤ v.mantissa ∨ v.exponent = -1074

theorem lower_eq (v : Magnitude) : v.lower = v.value - v.quartersBelow * 2 ^ (v.exponent - 2) := by
  rw [lower, ← four_mul_value]
  push_cast
  ring

theorem upper_eq (v : Magnitude) : v.upper = v.value + 2 * 2 ^ (v.exponent - 2) := by
  rw [upper, ← four_mul_value]
  push_cast
  ring

/-- The interval extends at least as far above the magnitude as it does below. -/
theorem mem_interval_of_abs_lt (h : |d - v.value| < v.quartersBelow * 2 ^ (v.exponent - 2)) :
    d ∈ v.interval := by
  obtain ⟨hbelow, habove⟩ := abs_lt.mp h
  have hle : (v.quartersBelow : ℚ) * 2 ^ (v.exponent - 2) ≤ 2 * 2 ^ (v.exponent - 2) := by
    gcongr
    exact_mod_cast v.quartersBelow_le
  have hlower : v.lower < d := by rw [lower_eq]; linarith
  have hupper : d < v.upper := by rw [upper_eq]; linarith
  rw [interval]
  split
  · exact ⟨hlower.le, hupper.le⟩
  · exact ⟨hlower, hupper⟩

theorem lt_pow_digitCount (n : Nat) : n < 10 ^ digitCount n := by
  have hpos : 0 < digitCount n := List.length_pos_iff.mpr Nat.toDigits_ne_nil
  exact (Nat.length_toDigits_le_iff (by decide) hpos).mp (Nat.le_refl _)

theorem pow_digitCount_le (h : 0 < n) : 10 ^ (digitCount n - 1) ≤ n := by
  rcases Nat.eq_zero_or_pos (digitCount n - 1) with hzero | hpos
  · rw [hzero]
    exact h
  · refine Nat.le_of_not_lt fun hlt => ?_
    have hle := (Nat.length_toDigits_le_iff (by decide) hpos).mpr hlt
    rw [← digitsOf, ← digitCount] at hle
    omega

theorem value_mul_den (v : Magnitude) : v.value * v.den = v.num := by
  rw [value, den, num]
  simp only [Nat.pow_eq]
  push_cast
  rw [pow_toNat two_ne_zero v.exponent]
  ring

theorem num_pos (h : 0 < v.mantissa) : 0 < v.num := Nat.mul_pos h (Nat.two_pow_pos _)

/-- The leading exponent is not too large. -/
theorem pow_leading_le (h : 0 < v.mantissa) : (10 : ℚ) ^ v.leading ≤ v.value := by
  have hden : (0 : ℚ) < v.den := by exact_mod_cast v.den_pos
  rw [← mul_le_mul_iff_of_pos_right hden, value_mul_den, leading]
  split
  · rename_i hle
    have hwhole : 0 < v.num / v.den := Nat.div_pos hle v.den_pos
    have hcount : 1 ≤ digitCount (v.num / v.den) := List.length_pos_iff.mpr Nat.toDigits_ne_nil
    have hpow : 10 ^ (digitCount (v.num / v.den) - 1) * v.den ≤ v.num :=
      (Nat.mul_le_mul_right _ (pow_digitCount_le hwhole)).trans (Nat.div_mul_le_self _ _)
    rw [← Nat.cast_one, ← Nat.cast_sub hcount, zpow_natCast]
    exact_mod_cast hpow
  · have hcount : 1 ≤ digitCount (v.den / v.num) := List.length_pos_iff.mpr Nat.toDigits_ne_nil
    dsimp only
    split
    · rename_i hexact
      -- the magnitude is a power of ten
      obtain ⟨hmul, hpow⟩ := hexact
      have hden_eq : (v.den : ℚ) = 10 ^ (digitCount (v.den / v.num) - 1) * v.num := by
        exact_mod_cast hmul.symm.trans (congrArg (· * v.num) hpow)
      rw [hden_eq, ← Nat.cast_one, ← neg_sub, ← Nat.cast_sub hcount, zpow_neg, zpow_natCast,
        inv_mul_cancel_left₀ (by positivity)]
    · have hlt : v.den < 10 ^ digitCount (v.den / v.num) * v.num :=
        (Nat.div_lt_iff_lt_mul (num_pos h)).mp (lt_pow_digitCount _)
      rw [zpow_neg, zpow_natCast, inv_mul_le_iff₀ (by positivity)]
      exact_mod_cast hlt.le

theorem exists_grid_abs_le (v : Magnitude) (unit : Int) :
    ∃ n, (n = v.gridBelow unit ∨ n = v.gridBelow unit + 1) ∧
      |(n : ℚ) * 10 ^ unit - v.value| ≤ 10 ^ unit / 2 := by
  have hle := v.gridBelow_le unit
  have hlt := v.lt_gridBelow unit
  by_cases hnear : v.value - v.gridBelow unit * 10 ^ unit ≤ 10 ^ unit / 2
  · refine ⟨_, .inl rfl, ?_⟩
    rw [abs_sub_comm, abs_of_nonneg (sub_nonneg.mpr hle)]
    exact hnear
  · refine ⟨_, .inr rfl, ?_⟩
    rw [abs_of_pos (sub_pos.mpr hlt)]
    push_cast
    linarith

/-- A mantissa has sixteen digits. -/
theorem two_mul_mantissa_lt (hv : v.Canonical) : 2 * v.mantissa < v.quartersBelow * 10 ^ 16 := by
  have hlt := hv.mantissa_lt
  rw [quartersBelow]
  split
  · rename_i hpower
    rw [hpower.1]
    decide
  · omega

/-- **Seventeen digits always read back.** -/
theorem readingBack?_seventeen (hv : v.Canonical) (h : 0 < v.mantissa) :
    v.readingBack? 17 ≠ none := by
  intro hnone
  rcases v.readingBack?_cases 17 with ⟨n, hsome, -⟩ | ⟨-, hfloor, hnext⟩
  · rw [hnone] at hsome
    cases hsome
  · generalize hunit : v.leading - (17 : Nat) + 1 = unit at hfloor hnext
    obtain ⟨n, hn, hnear⟩ := v.exists_grid_abs_le unit
    have hunit_le : (10 : ℚ) ^ unit * 10 ^ 16 ≤ v.value := by
      rw [← hunit, ← zpow_natCast, ← zpow_add₀ (by norm_num)]
      exact (congrArg _ (by omega)).trans_le (pow_leading_le h)
    have hhalf : (10 : ℚ) ^ unit / 2 < v.quartersBelow * 2 ^ (v.exponent - 2) := by
      have hquarter : (0 : ℚ) < 2 ^ (v.exponent - 2) := by positivity
      have hdigits : (2 * v.mantissa : ℚ) < v.quartersBelow * 10 ^ 16 := by
        exact_mod_cast two_mul_mantissa_lt hv
      rw [← four_mul_value] at hunit_le
      push_cast at hunit_le
      nlinarith
    have hhit := (hits_iff h unit n).mpr (mem_interval_of_abs_lt (hnear.trans_lt hhalf))
    rcases hn with rfl | rfl
    · rw [hfloor] at hhit
      cases hhit
    · rw [hnext] at hhit
      cases hhit

theorem shortest_mem (hv : v.Canonical) : v.shortest.value ∈ v.interval := by
  rw [shortest]
  split
  · rename_i hzero
    rw [interval, hzero, if_pos rfl, lower, upper, hzero, Scientific.value]
    simp only [Nat.cast_zero, zero_mul, mul_zero, zero_sub, zero_add, Set.mem_Icc]
    constructor
    · exact mul_nonpos_of_nonpos_of_nonneg (neg_nonpos.mpr (Nat.cast_nonneg _)) (by positivity)
    · positivity
  · rename_i hzero
    have hpos := Nat.pos_of_ne_zero hzero
    cases hfind : (List.range 17).findSome? fun n => v.readingBack? (n + 1) with
    | none =>
      have h17 := List.findSome?_eq_none_iff.mp hfind 16 (by decide)
      exact absurd h17 (readingBack?_seventeen hv hpos)
    | some s =>
      obtain ⟨n, -, hn⟩ := List.exists_of_findSome?_eq_some hfind
      rcases v.readingBack?_cases (n + 1) with ⟨k, hsome, hhit⟩ | ⟨hnone, -, -⟩
      · obtain rfl := Option.some.inj (hn.symm.trans hsome)
        exact (hits_iff hpos _ k).mp hhit
      · rw [hnone] at hn
        cases hn

/-! ### Intervals of different magnitudes -/

/-- Magnitudes in order. -/
def Before (v w : Magnitude) : Prop :=
  v.exponent < w.exponent ∨ v.exponent = w.exponent ∧ v.mantissa < w.mantissa

theorem le_upper (h : d ∈ v.interval) : d ≤ v.upper ∧ (v.mantissa % 2 = 1 → d < v.upper) := by
  rw [interval] at h
  split at h
  · exact ⟨h.2, by omega⟩
  · exact ⟨h.2.le, fun _ => h.2⟩

theorem lower_le (h : d ∈ v.interval) : v.lower ≤ d ∧ (v.mantissa % 2 = 1 → v.lower < d) := by
  rw [interval] at h
  split at h
  · exact ⟨h.1, by omega⟩
  · exact ⟨h.1.le, fun _ => h.1⟩

/-- The midpoint below a magnitude of more than the least exponent. -/
theorem le_quarters (hw : w.Canonical) (h : -1074 < w.exponent) :
    2 ^ 54 - 1 + w.quartersBelow ≤ 4 * w.mantissa := by
  have hnormal := hw.normal.resolve_right h.ne'
  simp only [quartersBelow, Nat.pow_eq]
  split <;> omega

/-- Neighbouring intervals share at most their end, which belongs to the even mantissa. -/
theorem upper_le_lower (hv : v.Canonical) (hw : w.Canonical) (h : v.Before w) :
    v.upper ≤ w.lower ∧ (v.upper = w.lower → v.mantissa % 2 = 1 ∨ w.mantissa % 2 = 1) := by
  have hquarter : (0 : ℚ) < 2 ^ (v.exponent - 2) := by positivity
  rw [upper, lower]
  rcases h with hlt | ⟨heq, hlt⟩
  · have hmantissa : v.mantissa + 1 ≤ 2 ^ 53 := hv.mantissa_lt
    have hquarters := le_quarters hw (hv.least_le.trans_lt hlt)
    have hdouble : (2 : ℚ) * 2 ^ (v.exponent - 2) ≤ 2 ^ (w.exponent - 2) := by
      rw [← zpow_one_add₀ two_ne_zero]
      exact zpow_le_zpow_right₀ one_le_two (by omega)
    have hle : ((2 ^ 55 - 2 : Nat) : ℚ) * 2 ^ (v.exponent - 2) ≤
        (4 * w.mantissa - w.quartersBelow) * 2 ^ (w.exponent - 2) := by
      have hw' : ((2 ^ 54 - 1 : Nat) : ℚ) ≤ 4 * w.mantissa - w.quartersBelow :=
        le_sub_iff_add_le.mpr (by exact_mod_cast hquarters)
      calc ((2 ^ 55 - 2 : Nat) : ℚ) * 2 ^ (v.exponent - 2)
          = (2 ^ 54 - 1 : Nat) * (2 * 2 ^ (v.exponent - 2)) := by push_cast; ring
        _ ≤ (2 ^ 54 - 1 : Nat) * 2 ^ (w.exponent - 2) := by gcongr
        _ ≤ _ := by gcongr
    have hle' : (4 * v.mantissa + 2 : ℚ) ≤ (2 ^ 55 - 2 : Nat) := by
      exact_mod_cast (by omega : 4 * v.mantissa + 2 ≤ 2 ^ 55 - 2)
    refine ⟨(mul_le_mul_of_nonneg_right hle' hquarter.le).trans hle, fun h => .inl ?_⟩
    -- the mantissa is the largest one
    have hge := le_of_mul_le_mul_right (hle.trans_eq h.symm) hquarter
    have hge' : 2 ^ 55 - 2 ≤ 4 * v.mantissa + 2 := by exact_mod_cast hge
    omega
  · have hbelow := w.quartersBelow_le
    rw [← heq]
    have hle : (4 * v.mantissa + 2 + w.quartersBelow : ℚ) ≤ 4 * w.mantissa := by
      exact_mod_cast (by omega : 4 * v.mantissa + 2 + w.quartersBelow ≤ 4 * w.mantissa)
    refine ⟨mul_le_mul_of_nonneg_right (by linarith) hquarter.le, fun h => ?_⟩
    have hsame : (4 * v.mantissa + 2 + w.quartersBelow : ℚ) = 4 * w.mantissa := by
      rw [mul_right_cancel₀ hquarter.ne' h]
      ring
    have hsame' : 4 * v.mantissa + 2 + w.quartersBelow = 4 * w.mantissa := by exact_mod_cast hsame
    omega

theorem lt_of_before {d' : ℚ} (hv : v.Canonical) (hw : w.Canonical) (h : v.Before w)
    (hd : d ∈ v.interval) (hd' : d' ∈ w.interval) : d < d' := by
  obtain ⟨hle, hodd⟩ := upper_le_lower hv hw h
  obtain ⟨hdv, hdv'⟩ := le_upper hd
  obtain ⟨hdw, hdw'⟩ := lower_le hd'
  refine lt_of_le_of_ne (hdv.trans (hle.trans hdw)) ?_
  rintro rfl
  rcases hodd (le_antisymm hle (hdw.trans hdv)) with hv1 | hw1
  · exact (hdv' hv1).not_ge (hle.trans hdw)
  · exact (hdw' hw1).not_ge (hdv.trans hle)

theorem eq_of_mem_interval (hv : v.Canonical) (hw : w.Canonical) (hd : d ∈ v.interval)
    (hd' : d ∈ w.interval) : v = w := by
  by_contra hne
  have hbefore : v.Before w ∨ w.Before v := by
    obtain ⟨m, e⟩ := v
    obtain ⟨m', e'⟩ := w
    have hne' : ¬(m = m' ∧ e = e') := fun h => hne (by rw [h.1, h.2])
    simp only [Before]
    omega
  rcases hbefore with h | h
  · exact lt_irrefl d (lt_of_before hv hw h hd hd')
  · exact lt_irrefl d (lt_of_before hw hv h hd' hd)

end Magnitude
end Fluxion.Decimal
