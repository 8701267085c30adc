import Fluxion.Proofs.Pruning

/-!
# Floats as real numbers

The constants of an expression are floats, and a finite float is a real number, its mantissa times
a power of two. So an expression can be read over the real numbers with nothing rounded: every
constant is the number that it is, and what differs from evaluation is only that the operations are
those of the real numbers.

Pruning asks two things of a constant, whether it is zero and whether it is one, and floats answer
both correctly. Reading the constants of an expression therefore does not change what is pruned. How
floats are added or rounded plays no part in that.

## Main definitions

* `Expr.map` — an expression with other constants
* `Coefficient.Exact` — a reading of constants that respects zero, one and the tests for them
* `realOf` — the number that a float is
* `Expr.HasExactValue` — the value of an expression with finite constants

## Main results

* `Expr.isZero_map`, `Expr.simplify?_map` — shapes and pruning do not depend on how constants are
  read
* `beq_zero_iff`, `beq_one_iff` — a float equals zero or one just when its number does
* `exact_realOf` — floats are read exactly
-/

namespace Fluxion

/-- Constants are read as real numbers in such a way that zero, one and minus one are what they are,
and that the tests for zero and one are right. -/
structure Coefficient.Exact {α : Type} [Coefficient α] (g : α → ℝ) : Prop where
  zero : g 0 = 0
  one : g 1 = 1
  neg_one : g (-1) = -1
  beq_zero : ∀ c, (c == 0) = true ↔ g c = 0
  beq_one : ∀ c, (c == 1) = true ↔ g c = 1

theorem Coefficient.exact_id : Exact (id : ℝ → ℝ) where
  zero := rfl
  one := rfl
  neg_one := rfl
  beq_zero _ := decide_eq_true_iff
  beq_one _ := decide_eq_true_iff

namespace Expr

/-- The expression with other constants. -/
def map {α β : Type} (g : α → β) : Expr α → Expr β
  | const c => const (g c)
  | var x => var x
  | add l p => add (l.map g) (p.map g)
  | mul l p => mul (l.map g) (p.map g)
  | pow b k => pow (b.map g) (k.map g)
  | log f => log (f.map g)
  | sin f => sin (f.map g)
  | cos f => cos (f.map g)

theorem map_id {α : Type} (e : Expr α) : e.map id = e := by
  induction e with
  | const c => rfl
  | var x => rfl
  | add l p ihl ihp | mul l p ihl ihp | pow l p ihl ihp => rw [map, ihl, ihp]
  | log f ih | sin f ih | cos f ih => rw [map, ih]

section

variable {α : Type} [Coefficient α] {g : α → ℝ} {e s l p b k : Expr α}

/-! ### Constants that are read exactly -/

theorem isOne_map (hg : Coefficient.Exact g) (e : Expr α) : (e.map g).isOne = e.isOne := by
  cases e with
  | const c => exact Bool.eq_iff_iff.mpr (decide_eq_true_iff.trans (hg.beq_one c).symm)
  | _ => rfl

/-- Shapes stay what they are. -/
theorem isZero_map (hg : Coefficient.Exact g) (e : Expr α) : (e.map g).isZero = e.isZero := by
  induction e with
  | const c => exact Bool.eq_iff_iff.mpr (decide_eq_true_iff.trans (hg.beq_zero c).symm)
  | var x => rfl
  | add l p ihl ihp | mul l p ihl ihp | pow l p ihl ihp => rw [map, isZero, isZero, ihl, ihp]
  | log f _ => exact isOne_map hg f
  | sin f ih => exact ih
  | cos f _ => rfl

theorem pruneAdd_map (hg : Coefficient.Exact g) (l p : Expr α) :
    pruneAdd (l.map g) (p.map g) = (pruneAdd l p).map g := by
  rw [pruneAdd, pruneAdd, isZero_map hg, isZero_map hg]
  split_ifs
  · exact congrArg const hg.zero.symm
  · rfl
  · rfl
  · rfl

theorem pruneMul_map (hg : Coefficient.Exact g) (l p : Expr α) :
    pruneMul (l.map g) (p.map g) = (pruneMul l p).map g := by
  rw [pruneMul, pruneMul, isZero_map hg, isZero_map hg, isOne_map hg, isOne_map hg]
  split_ifs
  · exact congrArg const hg.zero.symm
  · rfl
  · rfl
  · rfl

theorem prunePow?_map (hg : Coefficient.Exact g) (h : prunePow? b k = some s) :
    prunePow? (b.map g) (k.map g) = some (s.map g) := by
  rw [prunePow?] at h
  rw [prunePow?, isZero_map hg, isZero_map hg, isOne_map hg]
  split_ifs at h ⊢ <;> obtain rfl := Option.some.inj h
  · exact congrArg (some <| const ·) hg.one.symm
  · exact congrArg (some <| const ·) hg.zero.symm
  · rfl
  · rfl

/-- **Pruning does not look at constants**, except whether they are zero or one. -/
theorem simplify?_map (hg : Coefficient.Exact g) (h : simplify? e = some s) :
    simplify? (e.map g) = some (s.map g) := by
  refine simplify_induction (P := fun e s => simplify? (e.map g) = some (s.map g)) ?const ?var ?add
    ?mul ?pow ?logOfPow ?logOfMul ?logOfOther ?sin ?cos h
  case const => exact fun c => by rw [map, simplify?]
  case var => exact fun y => by rw [map, simplify?]
  case add =>
    intro l p l' p' hl hp
    rw [map, simplify?, hl, hp, ← pruneAdd_map hg]
    rfl
  case mul =>
    intro l p l' p' hl hp
    rw [map, simplify?, hl, hp, ← pruneMul_map hg]
    rfl
  case pow =>
    intro b k b' k' s _ _ hb hk hs
    rw [map, simplify?, hb, hk]
    exact prunePow?_map hg hs
  case logOfPow =>
    intro b k s hs
    rw [map, map, simplify?]
    exact hs
  case logOfMul =>
    intro p q s hs
    rw [map, map, simplify?]
    exact hs
  case logOfOther =>
    intro f f' hpow hmul _ hf
    rw [map, simplify?_log, hf]
    · rfl
    · intro b k hmap
      cases f with
      | pow b' k' => exact hpow b' k' rfl
      | _ => cases hmap
    · intro p q hmap
      cases f with
      | mul p' q' => exact hmul p' q' rfl
      | _ => cases hmap
  case sin =>
    intro f f' hf
    rw [map, simplify?, hf]
    rfl
  case cos =>
    intro f f' hf
    rw [map, simplify?, hf]
    rfl

end

end Expr

/-! ### Floats -/

section Model

open Float.Model (UnpackedFloat)

/-- The number that an unpacked float is. Infinities, and what is no number, are read as junk,
which is neither zero nor one. -/
def ratOfUnpacked : UnpackedFloat → ℚ
  | .finite .positive m e _ => m * 2 ^ e
  | .finite .negative m e _ => -(m * 2 ^ e)
  | .zero _ => 0
  | .infinity _ | .notANumber => 2

/-- The number that a float is, with nothing rounded. -/
noncomputable def realOf (c : Float) : ℝ := ratOfUnpacked c.toModel.unpack

variable {m : Nat} {e : Int} {c : Float}

theorem unpack_zero : (0 : Float).toModel.unpack = .zero .positive := rfl

theorem unpack_one :
    (1 : Float).toModel.unpack = .finite .positive (2 ^ 52) (-52) (by decide) := rfl

theorem realOf_positive {hm : 0 < m} (h : c.toModel.unpack = .finite .positive m e hm) :
    realOf c = m * 2 ^ e := by
  rw [realOf, h]
  change ((m * 2 ^ e : ℚ) : ℝ) = m * 2 ^ e
  push_cast
  rfl

theorem realOf_negative {hm : 0 < m} (h : c.toModel.unpack = .finite .negative m e hm) :
    realOf c = -(m * 2 ^ e) := by
  rw [realOf, h]
  change ((-(m * 2 ^ e) : ℚ) : ℝ) = -(m * 2 ^ e)
  push_cast
  rfl

/-- The mantissa of a float has 53 binary digits, unless its exponent is the least one. -/
theorem mantissa_of_unpack {s : UnpackedFloat.Sign} {hm : 0 < m}
    (h : c.toModel.unpack = .finite s m e hm) : m < 2 ^ 53 ∧ (2 ^ 52 ≤ m ∨ e = -1074) := by
  have hlt := (@UnpackedFloat.unpackMantissa .binary64 c.toModel.toBits.toBitVec).isLt
  delta Float.Model.unpack UnpackedFloat.unpack at h
  rcases ite_eq_iff.mp h with ⟨-, h⟩ | ⟨-, h⟩
  · -- an infinity, or no number
    rcases ite_eq_iff.mp h with ⟨-, h⟩ | ⟨-, h⟩ <;> cases h
  · rcases ite_eq_iff.mp h with ⟨hexponent, h⟩ | ⟨-, h⟩
    · -- the least exponent, with which the mantissa may be short
      rcases dite_eq_iff.mp h with ⟨_, h⟩ | ⟨_, h⟩
      · cases h
      · obtain ⟨rfl, rfl, rfl⟩ := UnpackedFloat.finite.inj h
        refine ⟨Nat.lt_trans hlt (by decide), .inr ?_⟩
        rw [hexponent]
        rfl
    · -- the first digit is one and not stored
      obtain ⟨rfl, rfl, rfl⟩ := UnpackedFloat.finite.inj h
      rw [BitVec.toNat_append, ← Nat.shiftLeft_add_eq_or_of_lt hlt]
      change _ < 2 ^ 52 at hlt
      change 2 ^ 52 + _ < 2 ^ 53 ∧ (2 ^ 52 ≤ 2 ^ 52 + _ ∨ _)
      omega

theorem mantissa_mul_pos (hm : 0 < m) (e : Int) : (0 : ℚ) < m * 2 ^ e :=
  mul_pos (Nat.cast_pos.mpr hm) (zpow_pos two_pos e)

/-- One is written in one way. -/
theorem eq_one_of_mantissa (hlt : m < 2 ^ 53) (hnormal : 2 ^ 52 ≤ m ∨ e = -1074)
    (h : (m : ℚ) * 2 ^ e = 1) : m = 2 ^ 52 ∧ e = -52 := by
  -- the mantissa is a power of two, and only one of them has 53 digits
  have hm : (m : ℚ) = 2 ^ (-e) := by
    rw [zpow_neg]
    exact eq_inv_of_mul_eq_one_left h
  have hlt' : -e < 53 := by
    refine (zpow_lt_zpow_iff_right₀ (one_lt_two : (1 : ℚ) < 2)).mp ?_
    rw [← hm]
    exact_mod_cast hlt
  have hle : 2 ^ 52 ≤ m := hnormal.resolve_right (by omega)
  have hle' : 52 ≤ -e := by
    refine (zpow_le_zpow_iff_right₀ (one_lt_two : (1 : ℚ) < 2)).mp ?_
    rw [← hm]
    exact_mod_cast hle
  obtain rfl : e = -52 := by omega
  have hm' : (m : ℚ) = (2 ^ 52 : ℕ) := by
    rw [hm]
    norm_num
  exact ⟨Nat.cast_injective hm', rfl⟩

theorem beq_iff_compare {c c' : Float} :
    (c == c') = true ↔ c.toModel.unpack.compare c'.toModel.unpack = some .eq := by
  change (UnpackedFloat.compare _ _ == some Ordering.eq) = true ↔ _
  exact beq_iff_eq

theorem beq_zero_iff (c : Float) : (c == 0) = true ↔ realOf c = 0 := by
  rw [beq_iff_compare, unpack_zero, realOf, Rat.cast_eq_zero]
  cases hc : c.toModel.unpack with
  | zero s => exact iff_of_true rfl rfl
  | infinity s => cases s <;> exact iff_of_false nofun two_ne_zero
  | notANumber => exact iff_of_false nofun two_ne_zero
  | finite s m e hm =>
    have hne := (mantissa_mul_pos hm e).ne'
    cases s with
    | positive => exact iff_of_false nofun hne
    | negative => exact iff_of_false nofun (neg_ne_zero.mpr hne)

theorem beq_one_iff (c : Float) : (c == 1) = true ↔ realOf c = 1 := by
  rw [beq_iff_compare, unpack_one, realOf, ← (Rat.cast_one : ((1 : ℚ) : ℝ) = 1), Rat.cast_inj]
  cases hc : c.toModel.unpack with
  | zero s => exact iff_of_false nofun zero_ne_one
  | infinity s => cases s <;> exact iff_of_false nofun (OfNat.ofNat_ne_one 2)
  | notANumber => exact iff_of_false nofun (OfNat.ofNat_ne_one 2)
  | finite s m e hm =>
    cases s with
    | positive =>
      change some ((compare e (-52)).then (compare m (2 ^ 52))) = some .eq ↔ (m : ℚ) * 2 ^ e = 1
      rw [Option.some_inj, Ordering.then_eq_eq, Std.compare_eq_iff_eq, Std.compare_eq_iff_eq]
      constructor
      · rintro ⟨rfl, rfl⟩
        norm_num
      · intro h
        obtain ⟨hlt, hnormal⟩ := mantissa_of_unpack hc
        exact (eq_one_of_mantissa hlt hnormal h).symm
    | negative =>
      have hneg := neg_neg_of_pos (mantissa_mul_pos hm e)
      exact iff_of_false nofun (hneg.trans one_pos).ne

theorem exact_realOf : Coefficient.Exact realOf where
  zero := (beq_zero_iff 0).mp (by decide)
  one := (beq_one_iff 1).mp (by decide)
  neg_one := by
    have hunpack : (-1 : Float).toModel.unpack = .finite .negative (2 ^ 52) (-52) (by decide) := rfl
    rw [realOf_negative hunpack]
    norm_num
  beq_zero := beq_zero_iff
  beq_one := beq_one_iff

end Model

namespace Expr

/-- The constants of the expression are finite floats, and with each of them read as the number that
it is, the value of the expression is `w`. -/
def HasExactValue (e : Expr Float) (r : String → ℝ) (w : ℝ) : Prop :=
  (∀ c, const c ∈ e.nodes → c.isFinite = true) ∧ (e.map realOf).HasValue r w

end Expr

end Fluxion
