import Fluxion.Proofs.FloatValue
import Fluxion.Proofs.Shapes

/-!
# The laws of floats

Differentiation takes one away from an exponent and asks whether zero is left. Over floats the
difference is rounded, so that zero might come out although the exponent was not one. It does not:
floats get sparse towards zero only down to a least exponent, below which none of their digits lie,
and the exact difference of two floats has no digits below it either. Rounding cuts off digits
behind the leading one, so that what is left of a number that has its digits above the least
exponent is not zero.

## Main definitions

* `Stored` — a mantissa and an exponent that can be stored

## Main results

* `stored_of_unpack`, `Stored.unpack_pack_ne_zero` — what is stored in a float, and read back
* `round_eq_finite` — rounding keeps a mantissa positive
* `realOf_eq_of_sub` — a difference is zero only of equal numbers
* the instance of `LawfulCoefficient` for `Float`
-/

namespace Fluxion

open Float.Model (UnpackedFloat Format totalExponent)
open Float.Model.UnpackedFloat

variable {m m' : Nat} {e e' : Int} {s s' : Sign} {c c' : Float}

/-- The mantissa is not zero and has 53 binary digits, and none of them lies below the least
exponent. -/
structure Stored (m : Nat) (e : Int) : Prop where
  pos : 0 < m
  lt : m < 2 ^ 53
  le : -1074 ≤ e

/-! ### What floats are stored as -/

theorem stored_of_unpack {hm : 0 < m} (h : c.toModel.unpack = .finite s m e hm) : Stored m e where
  pos := hm
  lt := (mantissa_of_unpack h).1
  le := by
    delta Float.Model.unpack UnpackedFloat.unpack at h
    rcases ite_eq_iff.mp h with ⟨-, h⟩ | ⟨-, h⟩
    · rcases ite_eq_iff.mp h with ⟨-, h⟩ | ⟨-, h⟩ <;> cases h
    · rcases ite_eq_iff.mp h with ⟨hexponent, h⟩ | ⟨hexponent, h⟩
      · rcases dite_eq_iff.mp h with ⟨_, h⟩ | ⟨_, h⟩
        · cases h
        · obtain ⟨-, -, rfl⟩ := UnpackedFloat.finite.inj h
          rw [hexponent]
          decide
      · obtain ⟨-, -, rfl⟩ := UnpackedFloat.finite.inj h
        have hpos : 0 < (@unpackExponent .binary64 c.toModel.toBits.toBitVec).toNat :=
          Nat.pos_of_ne_zero fun hzero => hexponent (BitVec.eq_of_toNat_eq hzero)
        change -1074 ≤ _ - (1023 + 52 : Int)
        omega

/-- All digits of a zero are zeros. -/
theorem unpack_eq_zero {b : BitVec Format.binary64.numBits}
    (h : UnpackedFloat.unpack .binary64 b = .zero s) :
    unpackExponent b = 0#_ ∧ unpackMantissa b = 0#_ := by
  delta UnpackedFloat.unpack at h
  rcases ite_eq_iff.mp h with ⟨-, h⟩ | ⟨-, h⟩
  · rcases ite_eq_iff.mp h with ⟨-, h⟩ | ⟨-, h⟩ <;> cases h
  · rcases ite_eq_iff.mp h with ⟨hexponent, h⟩ | ⟨-, h⟩
    · rcases dite_eq_iff.mp h with ⟨hmantissa, -⟩ | ⟨_, h⟩
      · exact ⟨hexponent, hmantissa⟩
      · cases h
    · cases h

theorem Stored.unpack_pack_ne_zero (hs : Stored m e) :
    (Float.Model.pack (.finite s m e hs.pos)).unpack ≠ .zero s' := by
  obtain ⟨hpos, hlt, hle⟩ := hs
  intro h
  obtain ⟨hexponent, hmantissa⟩ := unpack_eq_zero h
  change unpackExponent (UnpackedFloat.pack .binary64 (.finite s m e hpos)) = 0#11 at hexponent
  change unpackMantissa (UnpackedFloat.pack .binary64 (.finite s m e hpos)) = 0#52 at hmantissa
  delta UnpackedFloat.pack at hexponent hmantissa
  dsimp only at hexponent hmantissa
  split_ifs at hexponent hmantissa with hlarge hnormal
  · -- an infinity
    rw [packedInfinity, unpackExponent_packComponents] at hexponent
    exact absurd hexponent (by decide)
  · -- the exponent is stored as at least one
    rw [unpackExponent_packComponents] at hexponent
    have hstored := congrArg BitVec.toNat hexponent
    change ((e + 1023 + 52).toNat % 2048 : Nat) = 0 at hstored
    change ¬2048 ≤ (e + 1023 + 52).toNat + 1 at hlarge
    omega
  · -- the mantissa is short and stored as it is
    rw [unpackMantissa_packComponents] at hmantissa
    have hstored := congrArg BitVec.toNat hmantissa
    have hlog : m.log2 < 53 := (Nat.log2_lt hpos.ne').mpr hlt
    change ¬m.log2 + 1 = 53 at hnormal
    have hshort : m < 2 ^ 52 := (Nat.log2_lt hpos.ne').mp (by omega)
    change m % 2 ^ 52 = 0 at hstored
    rw [Nat.mod_eq_of_lt hshort] at hstored
    omega

/-! ### Rounding -/

theorem mantissa_shiftRight (d : ExtendedMantissa) (k : Nat) :
    (d >>> k).mantissa = d.mantissa / 2 ^ k := by
  induction k with
  | zero => exact (Nat.div_one _).symm
  | succ k ih =>
    change (d >>> k).shiftRightOne.mantissa = _
    rw [ExtendedMantissa.shiftRightOne, ih, Nat.div_div_eq_div_mul, Nat.pow_succ]

theorem mantissa_le_roundedMantissa (d : ExtendedMantissa) : d.mantissa ≤ d.roundedMantissa := by
  obtain ⟨m, roundBit, stickyBit⟩ := d
  cases roundBit <;> cases stickyBit
  · exact Nat.le_refl m
  · exact Nat.le_refl m
  · exact Nat.le_add_right m _
  · exact Nat.le_succ m

theorem targetExponent_binary64 (t : Int) :
    Format.binary64.targetExponent t = max (t - 53) (-1074) := rfl

/-- A shift to the target exponent leaves the leading digit in place, and keeps the digits above
the least exponent. -/
theorem stored_shiftToTargetExponent (hm : 0 < m) (he : -1074 ≤ e) :
    Stored (shiftToTargetExponent .binary64 m e .exact).1.mantissa
      (shiftToTargetExponent .binary64 m e .exact).2 := by
  rw [shiftToTargetExponent, shiftToExponent, mantissa_shiftRight]
  set k := (Format.binary64.targetExponent (totalExponent m e) - e).toNat with hk
  rw [targetExponent_binary64, totalExponent] at hk
  have hleading : 2 ^ k ≤ m :=
    (Nat.pow_le_pow_right two_pos (by omega)).trans (Nat.log2_self_le hm.ne')
  have hdigits : m < 2 ^ k * 2 ^ 53 := by
    rw [← Nat.pow_add]
    exact Nat.lt_log2_self.trans_le (Nat.pow_le_pow_right two_pos (by omega))
  refine ⟨Nat.div_pos hleading (Nat.two_pow_pos k), Nat.div_lt_of_lt_mul hdigits, ?_⟩
  dsimp only
  omega

/-- Rounding up may carry over to another digit, and a second shift takes it back. -/
theorem roundWithAccuracy_eq_finite (hm : 0 < m) (he : -1074 ≤ e) :
    ∃ (m' : Nat) (e' : Int) (h : Stored m' e'),
      roundWithAccuracy .binary64 s m e .exact = .finite s m' e' h.pos := by
  have hfirst := stored_shiftToTargetExponent hm he
  have hsecond := stored_shiftToTargetExponent
    (hfirst.pos.trans_le (mantissa_le_roundedMantissa _)) hfirst.le
  exact ⟨_, _, hsecond, dif_neg hsecond.pos.ne'⟩

theorem round_eq_finite (hm : 0 < m) (he : -1074 ≤ e) :
    ∃ (m' : Nat) (e' : Int) (h : Stored m' e'),
      UnpackedFloat.round .binary64 s m e = .finite s m' e' h.pos := by
  rw [UnpackedFloat.round, decreaseExponent]
  refine roundWithAccuracy_eq_finite ?_ ?_
  · rw [Nat.shiftLeft_eq]
    exact Nat.mul_pos hm (Nat.two_pow_pos _)
  · rw [targetExponent_binary64]
    omega

/-- What is rounded and stored is zero only if it was zero before. -/
theorem eq_zero_of_unpack_normalize {m : Int} (he : -1074 ≤ e)
    (h : (Float.Model.pack (UnpackedFloat.normalize .binary64 m e s)).unpack = .zero s') :
    m = 0 := by
  rw [UnpackedFloat.normalize] at h
  rcases lt_trichotomy m 0 with hm | hm | hm
  · rw [Int.compare_eq_lt.mpr hm] at h
    obtain ⟨m', e', hs, hround⟩ := round_eq_finite (s := .negative) (m := (-m).toNat) (by omega) he
    exact absurd (hround ▸ h) hs.unpack_pack_ne_zero
  · exact hm
  · rw [Int.compare_eq_gt.mpr hm] at h
    obtain ⟨m', e', hs, hround⟩ := round_eq_finite (s := .positive) (m := m.toNat) (by omega) he
    exact absurd (hround ▸ h) hs.unpack_pack_ne_zero

/-! ### Differences -/

/-- More digits are made of a mantissa for the difference, without changing the number. -/
theorem apply_shiftLeft_mul {hm : 0 < m} (h : e' ≤ e) :
    (s.apply ((m <<< (e - e').toNat : Nat) : Int) : ℚ) * 2 ^ e' =
      ratOfUnpacked (.finite s m e hm) := by
  have hwide : ((m <<< (e - e').toNat : Nat) : ℚ) * 2 ^ e' = m * 2 ^ e := by
    have hexponent : e = ((e - e').toNat : Int) + e' := by omega
    nth_rewrite 2 [hexponent]
    rw [Nat.shiftLeft_eq, Nat.cast_mul, Nat.cast_pow, Nat.cast_ofNat, zpow_add₀ two_ne_zero,
      zpow_natCast, mul_assoc]
  cases s with
  | positive =>
    show (((m <<< (e - e').toNat : Nat) : Int) : ℚ) * 2 ^ e' = m * 2 ^ e
    rw [Int.cast_natCast, hwide]
  | negative =>
    show ((-((m <<< (e - e').toNat : Nat) : Int) : Int) : ℚ) * 2 ^ e' = -(m * 2 ^ e)
    rw [Int.cast_neg, Int.cast_natCast, neg_mul, hwide]

theorem unpack_pack_infinity : (Float.Model.pack (.infinity s)).unpack = .infinity s := by
  cases s <;> rfl

theorem unpack_pack_notANumber : (Float.Model.pack .notANumber).unpack = .notANumber := rfl

theorem ratOfUnpacked_eq_of_sub {u u' : UnpackedFloat}
    (hu : ∀ s m e hm, u = .finite s m e hm → Stored m e)
    (hu' : ∀ s m e hm, u' = .finite s m e hm → Stored m e)
    (h : (Float.Model.pack (UnpackedFloat.sub .binary64 u u')).unpack = .zero s) :
    ratOfUnpacked u = ratOfUnpacked u' := by
  revert h
  fun_cases UnpackedFloat.sub .binary64 u u' <;> intro h
  case case1 | case2 | case4 =>
    rw [unpack_pack_notANumber] at h
    contradiction
  case case3 | case5 | case6 =>
    rw [unpack_pack_infinity] at h
    contradiction
  case case7 | case8 => rfl
  case case9 => exact absurd h (hu' _ _ _ _ rfl).unpack_pack_ne_zero
  case case10 s' hnan hinf hzero =>
    cases u with
    | notANumber => exact absurd rfl hnan
    | infinity s => exact absurd rfl (hinf s)
    | zero s => exact absurd rfl (hzero s)
    | finite s m e hm => exact absurd h (hu _ _ _ _ rfl).unpack_pack_ne_zero
  case case11 s₁ m₁ e₁ hm₁ s₂ m₂ e₂ hm₂ least w₁ _ hw₁ w₂ _ hw₂ _ =>
    -- the mantissas of the exact difference are written with the lesser of the two exponents
    obtain ⟨rfl, -⟩ := Prod.mk.inj hw₁
    obtain ⟨rfl, -⟩ := Prod.mk.inj hw₂
    have hleast : -1074 ≤ least := le_min (hu _ _ _ _ rfl).le (hu' _ _ _ _ rfl).le
    have hsame := sub_eq_zero.mp (eq_zero_of_unpack_normalize hleast h)
    rw [← apply_shiftLeft_mul (min_le_left e₁ e₂), ← apply_shiftLeft_mul (min_le_right e₁ e₂)]
    exact congrArg (fun n : Int => (n : ℚ) * 2 ^ least) hsame

theorem realOf_eq_zero_iff : realOf c = 0 ↔ ∃ s, c.toModel.unpack = .zero s := by
  rw [realOf, Rat.cast_eq_zero]
  constructor
  · intro h
    cases hc : c.toModel.unpack with
    | zero s => exact ⟨s, rfl⟩
    | infinity s => rw [hc] at h; exact absurd h two_ne_zero
    | notANumber => rw [hc] at h; exact absurd h two_ne_zero
    | finite s m e hm =>
      rw [hc] at h
      have hne := (mantissa_mul_pos hm e).ne'
      cases s with
      | positive => exact absurd h hne
      | negative => exact absurd h (neg_ne_zero.mpr hne)
  · rintro ⟨s, hs⟩
    rw [hs]
    rfl

/-- **A difference of floats is zero only of equal numbers.** -/
theorem realOf_eq_of_sub (h : realOf (c - c') = 0) : realOf c = realOf c' := by
  obtain ⟨s, hzero⟩ := realOf_eq_zero_iff.mp h
  exact congrArg Rat.cast <| ratOfUnpacked_eq_of_sub (fun _ _ _ _ => stored_of_unpack)
    (fun _ _ _ _ => stored_of_unpack) hzero

instance : LawfulCoefficient Float where
  zero_beq_zero := by decide
  one_beq_one := by decide
  beq_zero_of_beq_one {c} h := by
    rw [Bool.eq_false_iff, Ne, beq_zero_iff, (beq_one_iff c).mp h]
    exact one_ne_zero
  neg_one_beq_zero := by decide
  beq_one_of_sub_one {c} h := by
    have hsame := realOf_eq_of_sub ((beq_zero_iff (c - 1)).mp h)
    rw [beq_one_iff, hsame, exact_realOf.one]

end Fluxion
