import Fluxion.Proofs.FloatValue
import Fluxion.Proofs.NumberText
import Fluxion.Proofs.Shapes

/-!
# Structural equality

Two expressions are structurally equal when they have the same nodes in the same places and their
constants are equal as numbers. This is the test `==`, and it is not equality of the expressions:
zero and minus zero are equal numbers and different constants, and what is no number is not even
equal to itself. So structural equality is reflexive only where all constants are numbers.

Pruning respects it all the same. It asks of constants nothing but whether they are zero or one,
and equal numbers answer alike.

## Main definitions

* `Expr.Equal` — structural equality as a relation
* `LawfulEquality` — the laws of the equality of constants

## Main results

* `Expr.equal_iff_beq` — the relation is the test
* `Expr.equal_self` — an expression without NaN is structurally equal to itself
* `Expr.Equal.simplify?` — pruning respects structural equality
-/

namespace Fluxion

namespace Expr

variable {α : Type} [BEq α] {e f l p l' p' : Expr α}

/-- The same nodes in the same places, with equal constants. -/
inductive Equal : Expr α → Expr α → Prop where
  | const {c d : α} (h : (c == d) = true) : Equal (const c) (const d)
  | var (x : String) : Equal (var x) (var x)
  | add {l p l' p' : Expr α} (hl : Equal l l') (hp : Equal p p') : Equal (add l p) (add l' p')
  | mul {l p l' p' : Expr α} (hl : Equal l l') (hp : Equal p p') : Equal (mul l p) (mul l' p')
  | pow {b k b' k' : Expr α} (hb : Equal b b') (hk : Equal k k') : Equal (pow b k) (pow b' k')
  | log {f f' : Expr α} (hf : Equal f f') : Equal (log f) (log f')
  | sin {f f' : Expr α} (hf : Equal f f') : Equal (sin f) (sin f')
  | cos {f f' : Expr α} (hf : Equal f f') : Equal (cos f) (cos f')

theorem equal_of_beq (h : (e == f) = true) : e.Equal f := by
  induction e generalizing f with
  | const c => cases f <;> first | exact .const h | cases h
  | var x =>
    cases f <;> try cases h
    rename_i y
    obtain rfl : x = y := beq_iff_eq.mp h
    exact .var x
  | add l p ihl ihp =>
    cases f <;> try cases h
    obtain ⟨hl, hp⟩ := Bool.and_eq_true_iff.mp h
    exact .add (ihl hl) (ihp hp)
  | mul l p ihl ihp =>
    cases f <;> try cases h
    obtain ⟨hl, hp⟩ := Bool.and_eq_true_iff.mp h
    exact .mul (ihl hl) (ihp hp)
  | pow b k ihb ihk =>
    cases f <;> try cases h
    obtain ⟨hb, hk⟩ := Bool.and_eq_true_iff.mp h
    exact .pow (ihb hb) (ihk hk)
  | log g ih =>
    cases f <;> try cases h
    exact .log (ih h)
  | sin g ih =>
    cases f <;> try cases h
    exact .sin (ih h)
  | cos g ih =>
    cases f <;> try cases h
    exact .cos (ih h)

theorem Equal.beq (h : e.Equal f) : (e == f) = true := by
  induction h with
  | const h => exact h
  | var x => exact beq_self_eq_true x
  | add _ _ ihl ihp | mul _ _ ihl ihp | pow _ _ ihl ihp =>
    exact Bool.and_eq_true_iff.mpr ⟨ihl, ihp⟩
  | log _ ih | sin _ ih | cos _ ih => exact ih

/-- The relation is the test. -/
theorem equal_iff_beq : e.Equal f ↔ (e == f) = true := ⟨Equal.beq, equal_of_beq⟩

theorem Equal.weight_eq (h : e.Equal f) : e.weight = f.weight := by
  induction h with
  | const h => rfl
  | var x => rfl
  | add _ _ ihl ihp | mul _ _ ihl ihp | pow _ _ ihl ihp => rw [weight, weight, ihl, ihp]
  | log _ ih | sin _ ih | cos _ ih => rw [weight, weight, ih]

/-- An expression whose constants are all equal to themselves is structurally equal to itself. -/
theorem equal_self (h : e.Everywhere fun g => ∀ c, g = const c → (c == c) = true) :
    e.Equal e := by
  induction e with
  | const c => exact .const (everywhere_const.mp h c rfl)
  | var x => exact .var x
  | add l p ihl ihp =>
    obtain ⟨-, hl, hp⟩ := everywhere_add.mp h
    exact .add (ihl hl) (ihp hp)
  | mul l p ihl ihp =>
    obtain ⟨-, hl, hp⟩ := everywhere_mul.mp h
    exact .mul (ihl hl) (ihp hp)
  | pow b k ihb ihk =>
    obtain ⟨-, hb, hk⟩ := everywhere_pow.mp h
    exact .pow (ihb hb) (ihk hk)
  | log f ih => exact .log (ih (everywhere_log.mp h).2)
  | sin f ih => exact .sin (ih (everywhere_sin.mp h).2)
  | cos f ih => exact .cos (ih (everywhere_cos.mp h).2)

end Expr

/-! ### Equal constants -/

/-- Laws of the equality of constants. It need not be reflexive. -/
class LawfulEquality (α : Type) [Coefficient α] : Prop where
  symm : ∀ {c d : α}, (c == d) = true → (d == c) = true
  trans : ∀ {c d k : α}, (c == d) = true → (d == k) = true → (c == k) = true
  zero_beq_zero : ((0 : α) == 0) = true
  one_beq_one : ((1 : α) == 1) = true

section Model

open Float.Model (UnpackedFloat)

theorem finite_eq_of_compare {s : UnpackedFloat.Sign} {m m' : Nat} {e e' : Int} {hm : 0 < m}
    {hm' : 0 < m'} (h : (compare e e').then (compare m m') = .eq) :
    UnpackedFloat.finite s m e hm = .finite s m' e' hm' := by
  rw [Ordering.then_eq_eq, Std.compare_eq_iff_eq, Std.compare_eq_iff_eq] at h
  obtain ⟨rfl, rfl⟩ := h
  rfl

theorem eq_of_compare_eq_eq {u v : UnpackedFloat} (h : u.compare v = some .eq) :
    (∃ s t, u = .zero s ∧ v = .zero t) ∨ u = v ∧ u ≠ .notANumber := by
  cases u with
  | notANumber => cases h
  | infinity s =>
    cases v with
    | infinity t => cases s <;> cases t <;> first | exact .inr ⟨rfl, nofun⟩ | cases h
    | _ => cases s <;> cases h
  | zero s =>
    cases v with
    | zero t => exact .inl ⟨s, t, rfl, rfl⟩
    | notANumber => cases h
    | infinity t => cases t <;> cases h
    | finite t m e hm => cases t <;> cases h
  | finite s m e hm =>
    cases v with
    | zero t => cases s <;> cases h
    | notANumber => cases h
    | infinity t => cases t <;> cases h
    | finite t m' e' hm' =>
      cases s <;> cases t
      case positive.positive => exact .inr ⟨finite_eq_of_compare (Option.some.inj h), nofun⟩
      case negative.negative =>
        exact .inr ⟨finite_eq_of_compare (Ordering.swap_eq_eq.mp (Option.some.inj h)), nofun⟩
      all_goals cases h

/-- Two floats are equal when they are the same number, or both zero. -/
theorem compare_eq_eq_iff {u v : UnpackedFloat} : u.compare v = some .eq ↔
    (∃ s t, u = .zero s ∧ v = .zero t) ∨ u = v ∧ u ≠ .notANumber := by
  refine ⟨eq_of_compare_eq_eq, ?_⟩
  rintro (⟨s, t, rfl, rfl⟩ | ⟨rfl, hne⟩)
  · rfl
  · cases u with
    | notANumber => exact absurd rfl hne
    | infinity s => cases s <;> rfl
    | zero s => rfl
    | finite s m e hm => exact Decimal.compare_self rfl

end Model

instance : LawfulEquality Float where
  symm h := by
    rw [beq_iff_compare, compare_eq_eq_iff] at h ⊢
    rcases h with ⟨s, t, hu, hv⟩ | ⟨huv, hne⟩
    · exact .inl ⟨t, s, hv, hu⟩
    · exact .inr ⟨huv.symm, huv ▸ hne⟩
  trans h h' := by
    rw [beq_iff_compare, compare_eq_eq_iff] at h h' ⊢
    rcases h with ⟨s, t, hu, hv⟩ | ⟨huv, hne⟩
    · rcases h' with ⟨s', t', hu', hv'⟩ | ⟨huv', hne'⟩
      · exact .inl ⟨s, t', hu, hv'⟩
      · exact .inl ⟨s, t, hu, huv' ▸ hv⟩
    · exact huv ▸ h'
  zero_beq_zero := by decide
  one_beq_one := by decide

/-! ### Pruning -/

namespace Expr

variable {α : Type} [Coefficient α] [LawfulEquality α] {e f l p l' p' b k b' k' s : Expr α}

theorem Equal.symm (h : e.Equal f) : f.Equal e := by
  induction h with
  | const h => exact .const (LawfulEquality.symm h)
  | var x => exact .var x
  | add _ _ ihl ihp => exact .add ihl ihp
  | mul _ _ ihl ihp => exact .mul ihl ihp
  | pow _ _ ihb ihk => exact .pow ihb ihk
  | log _ ih => exact .log ih
  | sin _ ih => exact .sin ih
  | cos _ ih => exact .cos ih

/-- Equal constants are equal to the same constants. -/
theorem beq_eq_of_beq {c d k : α} (h : (c == d) = true) : (c == k) = (d == k) :=
  Bool.eq_iff_iff.mpr ⟨LawfulEquality.trans (LawfulEquality.symm h), LawfulEquality.trans h⟩

theorem Equal.isOne_eq (h : e.Equal f) : e.isOne = f.isOne := by
  cases h with
  | const h => exact beq_eq_of_beq h
  | _ => rfl

theorem Equal.isZero_eq (h : e.Equal f) : e.isZero = f.isZero := by
  induction h with
  | const h => exact beq_eq_of_beq h
  | var x => rfl
  | add _ _ ihl ihp | mul _ _ ihl ihp | pow _ _ ihl ihp => rw [isZero, isZero, ihl, ihp]
  | log hf => exact hf.isOne_eq
  | sin _ ih => exact ih
  | cos => rfl

theorem Equal.pruneAdd (hl : l.Equal l') (hp : p.Equal p') :
    (pruneAdd l p).Equal (pruneAdd l' p') := by
  rw [Expr.pruneAdd, Expr.pruneAdd, hl.isZero_eq, hp.isZero_eq]
  split_ifs
  · exact .const LawfulEquality.zero_beq_zero
  · exact hp
  · exact hl
  · exact .add hl hp

theorem Equal.pruneMul (hl : l.Equal l') (hp : p.Equal p') :
    (pruneMul l p).Equal (pruneMul l' p') := by
  rw [Expr.pruneMul, Expr.pruneMul, hl.isZero_eq, hp.isZero_eq, hl.isOne_eq, hp.isOne_eq]
  split_ifs
  · exact .const LawfulEquality.zero_beq_zero
  · exact hp
  · exact hl
  · exact .mul hl hp

theorem Equal.prunePow? (hb : b.Equal b') (hk : k.Equal k') (h : prunePow? b k = some s) :
    ∃ t, prunePow? b' k' = some t ∧ s.Equal t := by
  rw [Expr.prunePow?, hb.isZero_eq, hk.isZero_eq, hk.isOne_eq] at h
  rw [Expr.prunePow?]
  split_ifs at h with hboth hkz hbz hone
  · rw [if_neg hboth, if_pos hkz]
    exact ⟨_, rfl, Option.some.inj h ▸ .const LawfulEquality.one_beq_one⟩
  · rw [if_neg hboth, if_neg hkz, if_pos hbz]
    exact ⟨_, rfl, Option.some.inj h ▸ .const LawfulEquality.zero_beq_zero⟩
  · rw [if_neg hboth, if_neg hkz, if_neg hbz, if_pos hone]
    exact ⟨_, rfl, Option.some.inj h ▸ hb⟩
  · rw [if_neg hboth, if_neg hkz, if_neg hbz, if_neg hone]
    exact ⟨_, rfl, Option.some.inj h ▸ .pow hb hk⟩

/-- Structurally equal expressions are pruned to structurally equal ones. -/
theorem Equal.simplify? (h : e.Equal f) (hs : simplify? e = some s) :
    ∃ t, simplify? f = some t ∧ s.Equal t := by
  refine simplify_induction (P := fun e s => ∀ f, e.Equal f → ∃ t, Expr.simplify? f = some t ∧
    s.Equal t) ?const ?var ?add ?mul ?pow ?logOfPow ?logOfMul ?logOfOther ?sin ?cos hs f h
  case const =>
    intro c f h
    cases h with
    | const h => exact ⟨_, by rw [Expr.simplify?], .const h⟩
  case var =>
    intro x f h
    cases h with
    | var => exact ⟨_, by rw [Expr.simplify?], .var x⟩
  case add =>
    intro l p l' p' ihl ihp f h
    cases h with
    | add hl hp =>
      obtain ⟨t, ht, hlt⟩ := ihl _ hl
      obtain ⟨t', ht', hpt⟩ := ihp _ hp
      exact ⟨_, by rw [Expr.simplify?, ht, ht']; rfl, hlt.pruneAdd hpt⟩
  case mul =>
    intro l p l' p' ihl ihp f h
    cases h with
    | mul hl hp =>
      obtain ⟨t, ht, hlt⟩ := ihl _ hl
      obtain ⟨t', ht', hpt⟩ := ihp _ hp
      exact ⟨_, by rw [Expr.simplify?, ht, ht']; rfl, hlt.pruneMul hpt⟩
  case pow =>
    intro b k b' k' s _ _ ihb ihk hs f h
    cases h with
    | pow hb hk =>
      obtain ⟨t, ht, hbt⟩ := ihb _ hb
      obtain ⟨t', ht', hkt⟩ := ihk _ hk
      obtain ⟨r, hr, hsr⟩ := hbt.prunePow? hkt hs
      exact ⟨r, by rw [Expr.simplify?, ht, ht']; exact hr, hsr⟩
  case logOfPow =>
    intro b k s ih f h
    cases h with
    | log h =>
      cases h with
      | pow hb hk =>
        rw [Expr.simplify?]
        exact ih _ (.mul hk (.log hb))
  case logOfMul =>
    intro p q s ih f h
    cases h with
    | log h =>
      cases h with
      | mul hp hq =>
        rw [Expr.simplify?]
        exact ih _ (.add (.log hp) (.log hq))
  case logOfOther =>
    intro g g' hpow hmul _ ih f h
    cases h with
    | log hg =>
      obtain ⟨t, ht, hgt⟩ := ih _ hg
      refine ⟨_, ?_, .log hgt⟩
      rw [simplify?_log, ht, Option.map_some]
      · rintro b k rfl
        cases hg
        exact hpow _ _ rfl
      · rintro p q rfl
        cases hg
        exact hmul _ _ rfl
  case sin =>
    intro g g' ih f h
    cases h with
    | sin hg =>
      obtain ⟨t, ht, hgt⟩ := ih _ hg
      exact ⟨_, by rw [Expr.simplify?, ht]; rfl, .sin hgt⟩
  case cos =>
    intro g g' ih f h
    cases h with
    | cos hg =>
      obtain ⟨t, ht, hgt⟩ := ih _ hg
      exact ⟨_, by rw [Expr.simplify?, ht]; rfl, .cos hgt⟩

end Expr

end Fluxion
