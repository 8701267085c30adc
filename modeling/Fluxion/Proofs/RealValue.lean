import Fluxion.Expr.Evaluation
import Mathlib.Analysis.SpecialFunctions.Pow.Continuity

/-!
# Real values of expressions

Expressions with real constants, read over the real numbers. The reading is split in two: a
total function `value`, which gives junk outside the domains of the functions, and a predicate
`Defined`, which says that the domains are respected everywhere in the tree. An expression *has
the value* `w` when both agree; one undefined part makes the whole undefined.

## Two domains of the logarithm

`Defined` takes the domain of the logarithm as a parameter. There are two of interest.

* `Set.Ioi 0` is the strict reading: the operand of a logarithm is positive.
* `{0}ᶜ` is the absolute reading: it is only not zero, and the value is `log |u|`.

Pruning and differentiation take `log (p * q)` apart into `log p + log q`. That keeps the
absolute reading and not the strict one, so inductions that follow these functions are carried
out in the absolute reading, of which the strict one is a part.

## Main definitions

* `Expr.value`, `Expr.Defined`, `Expr.HasValue` — the reading
* `Expr.PowDefined` — the domain of the power
* `Expr.nodes` — an expression together with all its parts

## Main results

* `Expr.eval_of_hasValue` — the strict value is the one that evaluation computes
* `Expr.value_eq_zero_of_isZero` — the shapes that are known to be zero have the value zero
* `Expr.Defined.continuousAt` — the value is continuous in each variable where it is defined
* `Expr.Defined.strict_or` — what is defined in the absolute reading only has a logarithm of a
  number that is not positive
-/

namespace Fluxion

open Filter Topology

/-! ### Real coefficients

Numerals are read exactly. The base of the natural logarithm is the one that floats have. -/

noncomputable instance : Coefficient ℝ where
  beq c d := @decide (c = d) (Classical.propDecidable _)
  half := 1 / 2
  euler := 6121026514868073 / 2 ^ 51
  ofNumeral n := n.digits / 10 ^ n.places

noncomputable instance : Arithmetic ℝ where
  pow b k := b ^ k
  log := Real.log
  sin := Real.sin
  cos := Real.cos
  isNonpos u := @decide (u ≤ 0) (Classical.propDecidable _)
  lesser := min

namespace Expr

/-- Where `b ^ k` is defined: everywhere for a positive base, at whole exponents for a negative
base, and at positive exponents for the base zero. -/
def PowDefined (b k : ℝ) : Prop := 0 < b ∨ (b < 0 ∧ ∃ n : ℤ, k = n) ∨ (b = 0 ∧ 0 < k)

/-- The value of an expression, given the values of variables; junk where the expression is not
defined. -/
noncomputable def value (r : String → ℝ) : Expr ℝ → ℝ
  | const c => c
  | var x => r x
  | add l p => l.value r + p.value r
  | mul l p => l.value r * p.value r
  | pow b k => b.value r ^ k.value r
  | log f => Real.log (f.value r)
  | sin f => Real.sin (f.value r)
  | cos f => Real.cos (f.value r)

/-- Whether all parts of an expression are defined when logarithms are taken on `D`. -/
def Defined (D : Set ℝ) (r : String → ℝ) : Expr ℝ → Prop
  | const _ | var _ => True
  | add l p | mul l p => l.Defined D r ∧ p.Defined D r
  | pow b k => b.Defined D r ∧ k.Defined D r ∧ PowDefined (b.value r) (k.value r)
  | log f => f.Defined D r ∧ f.value r ∈ D
  | sin f | cos f => f.Defined D r

/-- The expression is defined, with logarithms of positive numbers only, and its value is
`w`. -/
def HasValue (e : Expr ℝ) (r : String → ℝ) (w : ℝ) : Prop :=
  e.Defined (Set.Ioi 0) r ∧ e.value r = w

/-- An expression and all its parts. -/
def nodes {α : Type} : Expr α → List (Expr α)
  | const c => [const c]
  | var x => [var x]
  | add l p => add l p :: (l.nodes ++ p.nodes)
  | mul l p => mul l p :: (l.nodes ++ p.nodes)
  | pow b k => pow b k :: (b.nodes ++ k.nodes)
  | log f => log f :: f.nodes
  | sin f => sin f :: f.nodes
  | cos f => cos f :: f.nodes

@[simp] theorem mem_nodes_self {α : Type} (e : Expr α) : e ∈ e.nodes := by
  cases e <;> simp [nodes]

/-- The parts of a part are parts. -/
theorem nodes_subset {α : Type} {e f : Expr α} (h : f ∈ e.nodes) : f.nodes ⊆ e.nodes := by
  induction e with
  | const c => rw [List.mem_singleton.mp h]; exact List.Subset.refl _
  | var x => rw [List.mem_singleton.mp h]; exact List.Subset.refl _
  | add l p ihl ihp | mul l p ihl ihp | pow l p ihl ihp =>
    rcases List.mem_cons.mp h with rfl | h
    · exact List.Subset.refl _
    · rcases List.mem_append.mp h with h | h
      · exact fun g hg => List.mem_cons_of_mem _ (List.mem_append_left _ (ihl h hg))
      · exact fun g hg => List.mem_cons_of_mem _ (List.mem_append_right _ (ihp h hg))
  | log g ih | sin g ih | cos g ih =>
    rcases List.mem_cons.mp h with rfl | h
    · exact List.Subset.refl _
    · exact fun _ hg => List.mem_cons_of_mem _ (ih h hg)

variable {D : Set ℝ} {r : String → ℝ} {e f b k : Expr ℝ}

/-- A strict value is what evaluation computes. -/
theorem eval_of_hasValue {w : ℝ} (h : e.HasValue r w) :
    e.eval (fun x => some (r x)) = .ok w := by
  obtain ⟨hd, rfl⟩ := h
  induction e with
  | const c => rfl
  | var x => rfl
  | add l p ihl ihp | mul l p ihl ihp =>
    rw [eval, ihl hd.1, ihp hd.2]
    rfl
  | pow b k ihb ihk =>
    rw [eval, ihb hd.1, ihk hd.2.1]
    rfl
  | log f ih =>
    rw [eval, ih hd.1]
    have hpos : ¬ f.value r ≤ 0 := not_le.mpr hd.2
    exact if_neg (by simpa [Arithmetic.isNonpos] using hpos)
  | sin f ih | cos f ih =>
    rw [eval, ih hd]
    rfl

/-! ### Shapes -/

@[simp] theorem isOne_iff : e.isOne = true ↔ e = const 1 := by
  cases e with
  | const c => exact decide_eq_true_iff.trans ⟨fun h => h ▸ rfl, fun h => const.inj h⟩
  | _ => exact ⟨nofun, nofun⟩

@[simp] theorem isZero_const {c : ℝ} : (const c).isZero = true ↔ c = 0 := decide_eq_true_iff

/-- The shapes that are known to be zero have the value zero wherever they are defined. -/
theorem value_eq_zero_of_isZero (h : e.isZero = true) (hd : e.Defined D r) : e.value r = 0 := by
  induction e with
  | const c => exact isZero_const.mp h
  | var x => exact nomatch h
  | add l p ihl ihp =>
    rw [isZero, Bool.and_eq_true] at h
    rw [value, ihl h.1 hd.1, ihp h.2 hd.2, add_zero]
  | mul l p ihl ihp =>
    rw [isZero, Bool.or_eq_true] at h
    rcases h with h | h
    · rw [value, ihl h hd.1, zero_mul]
    · rw [value, ihp h hd.2, mul_zero]
  | pow b k ihb _ =>
    rw [isZero, Bool.and_eq_true] at h
    have hb := ihb h.1 hd.1
    -- a zero base is defined at positive exponents only
    obtain hk : 0 < k.value r := by
      rcases hd.2.2 with hpos | ⟨hneg, _⟩ | ⟨_, hk⟩
      · exact absurd hb hpos.ne'
      · exact absurd hb hneg.ne
      · exact hk
    rw [value, hb, Real.zero_rpow hk.ne']
  | log f _ =>
    obtain rfl := isOne_iff.mp h
    exact Real.log_one
  | sin f ih => rw [value, ih h hd, Real.sin_zero]
  | cos f _ => exact nomatch h

/-! ### The two readings -/

theorem Defined.mono {D D' : Set ℝ} (hD : D ⊆ D') (h : e.Defined D r) : e.Defined D' r := by
  induction e with
  | const c => trivial
  | var x => trivial
  | add l p ihl ihp | mul l p ihl ihp => exact ⟨ihl h.1, ihp h.2⟩
  | pow b k ihb ihk => exact ⟨ihb h.1, ihk h.2.1, h.2.2⟩
  | log f ih => exact ⟨ih h.1, hD h.2⟩
  | sin f ih | cos f ih => exact ih h

/-- What is defined strictly is defined absolutely. -/
theorem Defined.absolute (h : e.Defined (Set.Ioi 0) r) : e.Defined {0}ᶜ r :=
  h.mono fun _ hu => (Set.mem_Ioi.mp hu).ne'

/-- What is defined absolutely is defined strictly, or else some logarithm in it is taken of a
number that is not positive. -/
theorem Defined.strict_or (h : e.Defined {0}ᶜ r) :
    e.Defined (Set.Ioi 0) r ∨ ∃ f, log f ∈ e.nodes ∧ ∃ u ≤ 0, f.HasValue r u := by
  induction e with
  | const c => exact .inl trivial
  | var x => exact .inl trivial
  | add l p ihl ihp | mul l p ihl ihp =>
    rcases ihl h.1 with hl | ⟨f, hf, hu⟩
    · rcases ihp h.2 with hp | ⟨f, hf, hu⟩
      · exact .inl ⟨hl, hp⟩
      · exact .inr ⟨f, by simp [nodes, hf], hu⟩
    · exact .inr ⟨f, by simp [nodes, hf], hu⟩
  | pow b k ihb ihk =>
    rcases ihb h.1 with hb | ⟨f, hf, hu⟩
    · rcases ihk h.2.1 with hk | ⟨f, hf, hu⟩
      · exact .inl ⟨hb, hk, h.2.2⟩
      · exact .inr ⟨f, by simp [nodes, hf], hu⟩
    · exact .inr ⟨f, by simp [nodes, hf], hu⟩
  | log f ih =>
    rcases ih h.1 with hf | ⟨g, hg, hu⟩
    · rcases lt_or_ge 0 (f.value r) with hpos | hle
      · exact .inl ⟨hf, hpos⟩
      · exact .inr ⟨f, mem_nodes_self _, f.value r, hle, hf, rfl⟩
    · exact .inr ⟨g, List.mem_cons_of_mem _ hg, hu⟩
  | sin f ih | cos f ih =>
    rcases ih h with hf | ⟨g, hg, hu⟩
    · exact .inl hf
    · exact .inr ⟨g, List.mem_cons_of_mem _ hg, hu⟩

/-! ### Powers -/

theorem PowDefined.ne_zero_or {x y : ℝ} (h : PowDefined x y) : x ≠ 0 ∨ 0 < y := by
  rcases h with h | ⟨h, _⟩ | ⟨_, h⟩
  · exact .inl h.ne'
  · exact .inl h.ne
  · exact .inr h

/-- The reciprocal is defined off zero. -/
theorem powDefined_neg_one {x : ℝ} : PowDefined x (-1) ↔ x ≠ 0 := by
  constructor
  · intro h
    exact h.ne_zero_or.resolve_right (by norm_num)
  · intro h
    rcases lt_or_gt_of_ne h with hneg | hpos
    · exact .inr (.inl ⟨hneg, -1, by norm_num⟩)
    · exact .inl hpos

theorem PowDefined.rpow_ne_zero_iff {x y : ℝ} (h : PowDefined x y) : x ^ y ≠ 0 ↔ x ≠ 0 := by
  constructor
  · rintro hxy rfl
    exact hxy (Real.zero_rpow (h.ne_zero_or.resolve_left (not_not_intro rfl)).ne')
  · intro hx
    rcases h with hpos | ⟨_, n, rfl⟩ | ⟨h0, _⟩
    · exact (Real.rpow_pos_of_pos hpos y).ne'
    · rw [Real.rpow_intCast]
      exact zpow_ne_zero n hx
    · exact absurd h0 hx

/-- The logarithm of a power is a product wherever the power is defined and not zero. -/
theorem PowDefined.log_rpow {x y : ℝ} (h : PowDefined x y) (hx : x ≠ 0) :
    Real.log (x ^ y) = y * Real.log x := by
  rcases h with hpos | ⟨_, n, rfl⟩ | ⟨h0, _⟩
  · exact Real.log_rpow hpos y
  · rw [Real.rpow_intCast, Real.log_zpow]
  · exact absurd h0 hx

/-! ### Continuity -/

/-- The value of an expression is continuous in each variable wherever it is defined. -/
theorem Defined.continuousAt (hD : D ⊆ {0}ᶜ) {x : String} {t : ℝ}
    (h : e.Defined D (Function.update r x t)) :
    ContinuousAt (fun t => e.value (Function.update r x t)) t := by
  induction e with
  | const c => exact continuousAt_const
  | var y =>
    by_cases hy : y = x
    · subst hy
      simpa [value] using continuousAt_id' t
    · simpa [value, Function.update_of_ne hy] using continuousAt_const
  | add l p ihl ihp => exact (ihl h.1).add (ihp h.2)
  | mul l p ihl ihp => exact (ihl h.1).mul (ihp h.2)
  | pow b k ihb ihk => exact (ihb h.1).rpow (ihk h.2.1) h.2.2.ne_zero_or
  | log f ih => exact (ih h.1).log (hD h.2)
  | sin f ih => exact Real.continuous_sin.continuousAt.comp (ih h)
  | cos f ih => exact Real.continuous_cos.continuousAt.comp (ih h)

end Expr

end Fluxion
