import Fluxion.Expr.Derivative

/-!
# The rules of pruning and differentiation

What the two functions can do, said once, so that proofs about them need not open them. A pruned
expression is followed back to its source by `simplify_induction`.

## The recursion of differentiation

Differentiation is not structural: a power is pruned before its rule is chosen, and the logarithm
of a power or a product is taken apart first. Every induction along it has the same shape, which
is packaged here as `diff_induction`.

It carries two statements side by side, `P e` about the derivative of `e` and `Q f` about the
derivative of `log f`. A single one does not do. The general rule for a power `b ^ k`
differentiates `log b * k`, in which `log b` is a new expression, and what is known there is known
of `b` itself: its logarithm need not be defined.

## Main definitions

* `Expr.powRule?` — the derivative of a power of pruned operands
* `Expr.PowRule` — the same as a relation, one constructor a rule

## Main results

* `Expr.weight_logOfPow_lt`, `weight_logOfMul_lt` — a logarithm that is taken apart gets lighter
* `Expr.pruneAdd_cases`, `pruneMul_cases`, `prunePow?_cases` — what pruning makes of one node
* `Expr.simplify?_log` — pruning a logarithm that is not taken apart
* `Expr.simplify?_add_eq_some`, `simplify?_mul_eq_some` — pruning sums and products read backwards
* `Expr.simplify_induction` — induction along pruning
* `Expr.diff?_add`, `diff?_mul`, `diff?_pow`, … — differentiation, one equation a constructor
* `Expr.diff?_add_eq_some`, `diff?_mul_eq_some`, `powRule?_cases` — the same read backwards
* `Expr.diff_induction` — induction along differentiation
-/

namespace Fluxion

namespace Expr

variable {α : Type} [Coefficient α] {x : String}

/-! ### Logarithms that are taken apart -/

omit [Coefficient α] in
/-- A logarithm counts the base of a power once more than the product does. -/
theorem weight_logOfPow_lt (b k : Expr α) : (mul k (log b)).weight < (log (pow b k)).weight := by
  have := k.weight_pos
  simp only [weight]
  omega

omit [Coefficient α] in
theorem weight_logOfMul_lt (p q : Expr α) :
    (add (log p) (log q)).weight < (log (mul p q)).weight := by
  simp only [weight]
  omega

omit [Coefficient α] in
theorem weight_lt_log (f : Expr α) : f.weight < (log f).weight := by
  have := f.weight_pos
  simp only [weight]
  omega

/-! ### Pruning one node -/

theorem pruneAdd_cases {motive : Expr α → Prop} {l p : Expr α} (zero : motive (const 0))
    (left : motive l) (right : motive p) (node : motive (add l p)) : motive (pruneAdd l p) := by
  rw [pruneAdd]
  split
  · exact zero
  · split
    · exact right
    · split
      · exact left
      · exact node

theorem pruneMul_cases {motive : Expr α → Prop} {l p : Expr α} (zero : motive (const 0))
    (left : motive l) (right : motive p) (node : motive (mul l p)) : motive (pruneMul l p) := by
  rw [pruneMul]
  split
  · exact zero
  · split
    · exact right
    · split
      · exact left
      · exact node

theorem prunePow?_cases {motive : Expr α → Prop} {b k s : Expr α} (h : prunePow? b k = some s)
    (zero : motive (const 0)) (one : motive (const 1)) (base : motive b)
    (node : motive (pow b k)) : motive s := by
  rw [prunePow?] at h
  split at h
  · contradiction
  · split at h
    · exact Option.some.inj h ▸ one
    · split at h
      · exact Option.some.inj h ▸ zero
      · split at h
        · exact Option.some.inj h ▸ base
        · exact Option.some.inj h ▸ node

/-! ### Pruning whole expressions -/

theorem simplify?_log {f : Expr α} (hpow : ∀ b k, f ≠ pow b k) (hmul : ∀ p q, f ≠ mul p q) :
    simplify? (log f) = (simplify? f).map log := by
  rw [simplify?]
  · cases simplify? f <;> rfl
  · exact hpow
  · exact hmul

theorem simplify?_add_eq_some {l p s : Expr α} (h : simplify? (add l p) = some s) :
    ∃ l' p', simplify? l = some l' ∧ simplify? p = some p' ∧ s = pruneAdd l' p' := by
  rw [simplify?] at h
  obtain ⟨l', hl, h⟩ := Option.bind_eq_some_iff.mp h
  obtain ⟨p', hp, h⟩ := Option.bind_eq_some_iff.mp h
  exact ⟨l', p', hl, hp, (Option.some.inj h).symm⟩

theorem simplify?_mul_eq_some {l p s : Expr α} (h : simplify? (mul l p) = some s) :
    ∃ l' p', simplify? l = some l' ∧ simplify? p = some p' ∧ s = pruneMul l' p' := by
  rw [simplify?] at h
  obtain ⟨l', hl, h⟩ := Option.bind_eq_some_iff.mp h
  obtain ⟨p', hp, h⟩ := Option.bind_eq_some_iff.mp h
  exact ⟨l', p', hl, hp, (Option.some.inj h).symm⟩

/-! ### Induction along pruning -/

/-- Induction along pruning: `P e s` is about an expression `e` and what it is pruned to. -/
theorem simplify_induction {P : Expr α → Expr α → Prop} (const : ∀ c, P (const c) (const c))
    (var : ∀ y, P (var y) (var y))
    (add : ∀ l p l' p', P l l' → P p p' → P (add l p) (pruneAdd l' p'))
    (mul : ∀ l p l' p', P l l' → P p p' → P (mul l p) (pruneMul l' p'))
    (pow : ∀ b k b' k' s, simplify? b = some b' → simplify? k = some k' → P b b' → P k k' →
      prunePow? b' k' = some s → P (pow b k) s)
    (logOfPow : ∀ b k s, P (.mul k (log b)) s → P (log (.pow b k)) s)
    (logOfMul : ∀ p q s, P (.add (log p) (log q)) s → P (log (.mul p q)) s)
    (logOfOther : ∀ f f', (∀ b k, f ≠ .pow b k) → (∀ p q, f ≠ .mul p q) →
      simplify? f = some f' → P f f' → P (log f) (log f'))
    (sin : ∀ f f', P f f' → P (sin f) (sin f')) (cos : ∀ f f', P f f' → P (cos f) (cos f'))
    {e s : Expr α} (h : simplify? e = some s) : P e s := by
  fun_induction simplify? e generalizing s with
  | case1 c => exact Option.some.inj h ▸ const c
  | case2 y => exact Option.some.inj h ▸ var y
  | case3 l p ihl ihp =>
    obtain ⟨l', hl, h⟩ := Option.bind_eq_some_iff.mp h
    obtain ⟨p', hp, h⟩ := Option.bind_eq_some_iff.mp h
    exact Option.some.inj h ▸ add l p l' p' (ihl hl) (ihp hp)
  | case4 l p ihl ihp =>
    obtain ⟨l', hl, h⟩ := Option.bind_eq_some_iff.mp h
    obtain ⟨p', hp, h⟩ := Option.bind_eq_some_iff.mp h
    exact Option.some.inj h ▸ mul l p l' p' (ihl hl) (ihp hp)
  | case5 b k ihb ihk =>
    obtain ⟨b', hb, h⟩ := Option.bind_eq_some_iff.mp h
    obtain ⟨k', hk, h⟩ := Option.bind_eq_some_iff.mp h
    exact pow b k b' k' s hb hk (ihb hb) (ihk hk) h
  | case6 b k ih => exact logOfPow b k s (ih h)
  | case7 p q ih => exact logOfMul p q s (ih h)
  | case8 f hpow hmul ih =>
    obtain ⟨f', hf, h⟩ := Option.bind_eq_some_iff.mp h
    exact Option.some.inj h ▸ logOfOther f f' hpow hmul hf (ih hf)
  | case9 f ih =>
    obtain ⟨f', hf, h⟩ := Option.bind_eq_some_iff.mp h
    exact Option.some.inj h ▸ sin f f' (ih hf)
  | case10 f ih =>
    obtain ⟨f', hf, h⟩ := Option.bind_eq_some_iff.mp h
    exact Option.some.inj h ▸ cos f f' (ih hf)

/-! ### Differentiation -/

/-- The derivative of a power whose operands are pruned. -/
def powRule? (x : String) (b k : Expr α) : Option (Expr α) :=
  if b.constant?.isSome then
    (diff? x k).map fun k' => if k'.isZero then const 0 else mul (log b) (mul (pow b k) k')
  else match k.constant? with
    | some n => (diff? x b).map fun b' => mul k (mul (pow b (const (n - 1))) b')
    | none => (diff? x (mul (log b) k)).map (mul (pow b k))

theorem diff?_add (l p : Expr α) :
    diff? x (add l p) = (diff? x l).bind fun l' => (diff? x p).map (add l') := by
  rw [diff?]
  cases diff? x l <;> cases diff? x p <;> rfl

theorem diff?_mul (l p : Expr α) :
    diff? x (mul l p) =
      (diff? x l).bind fun l' => (diff? x p).map fun p' => add (mul l' p) (mul l p') := by
  rw [diff?]
  cases diff? x l <;> cases diff? x p <;> rfl

theorem diff?_pow (base exponent : Expr α) :
    diff? x (pow base exponent) =
      (simplify? base).bind fun b => (simplify? exponent).bind (powRule? x b) := by
  rw [diff?]
  split
  · rename_i b k hb hk
    rw [hb, hk, Option.bind_some, Option.bind_some, powRule?]
    split
    · cases diff? x k <;> rfl
    · cases k.constant? with
      | some n => cases diff? x b <;> rfl
      | none => cases diff? x (mul (log b) k) <;> rfl
  · rename_i hnone
    cases hb : simplify? base with
    | none => rfl
    | some b =>
      cases hk : simplify? exponent with
      | none => rfl
      | some k => exact absurd hk (hnone b k hb)

theorem diff?_log {f : Expr α} (hpow : ∀ b k, f ≠ pow b k) (hmul : ∀ p q, f ≠ mul p q) :
    diff? x (log f) = (diff? x f).map fun f' => mul f' (pow f (const (-1))) := by
  rw [diff?]
  · cases diff? x f <;> rfl
  · exact hpow
  · exact hmul

theorem diff?_sin (f : Expr α) : diff? x (sin f) = (diff? x f).map (mul (cos f)) := by
  rw [diff?]
  cases diff? x f <;> rfl

theorem diff?_cos (f : Expr α) :
    diff? x (cos f) = (diff? x f).map (mul (mul (sin f) (const (-1)))) := by
  rw [diff?]
  cases diff? x f <;> rfl

/-! ### Differentiation read backwards -/

theorem diff?_add_eq_some {l p d : Expr α} (h : diff? x (add l p) = some d) :
    ∃ l' p', diff? x l = some l' ∧ diff? x p = some p' ∧ d = add l' p' := by
  rw [diff?_add] at h
  obtain ⟨l', hl, h⟩ := Option.bind_eq_some_iff.mp h
  obtain ⟨p', hp, rfl⟩ := Option.map_eq_some_iff.mp h
  exact ⟨l', p', hl, hp, rfl⟩

theorem diff?_mul_eq_some {l p d : Expr α} (h : diff? x (mul l p) = some d) :
    ∃ l' p', diff? x l = some l' ∧ diff? x p = some p' ∧ d = add (mul l' p) (mul l p') := by
  rw [diff?_mul] at h
  obtain ⟨l', hl, h⟩ := Option.bind_eq_some_iff.mp h
  obtain ⟨p', hp, rfl⟩ := Option.map_eq_some_iff.mp h
  exact ⟨l', p', hl, hp, rfl⟩

theorem diff?_pow_eq_some {base exponent d : Expr α} (h : diff? x (pow base exponent) = some d) :
    ∃ b k, simplify? base = some b ∧ simplify? exponent = some k ∧ powRule? x b k = some d := by
  rw [diff?_pow] at h
  obtain ⟨b, hb, h⟩ := Option.bind_eq_some_iff.mp h
  obtain ⟨k, hk, h⟩ := Option.bind_eq_some_iff.mp h
  exact ⟨b, k, hb, hk, h⟩

/-- The ways in which a power of pruned operands is differentiated. -/
inductive PowRule (x : String) (b k : Expr α) : Expr α → Prop where
  /-- A constant to the power of something whose derivative has the shape of zero. -/
  | still {c : α} {k' : Expr α} (hb : b = const c) (hk : diff? x k = some k')
      (hzero : k'.isZero = true) : PowRule x b k (const 0)
  /-- A constant to the power of anything else. -/
  | constantBase {c : α} {k' : Expr α} (hb : b = const c) (hk : diff? x k = some k')
      (hzero : k'.isZero = false) : PowRule x b k (mul (log b) (mul (pow b k) k'))
  /-- Anything to the power of a constant. -/
  | constantExponent {n : α} {b' : Expr α} (hconst : b.constant? = none) (hk : k = const n)
      (hb : diff? x b = some b') : PowRule x b k (mul k (mul (pow b (const (n - 1))) b'))
  /-- Logarithmic differentiation. -/
  | general {l' k' : Expr α} (hconst : b.constant? = none) (hconst' : k.constant? = none)
      (hb : diff? x (log b) = some l') (hk : diff? x k = some k') :
      PowRule x b k (mul (pow b k) (add (mul l' k) (mul (log b) k')))

omit [Coefficient α] in
theorem eq_const_of_constant? {e : Expr α} {c : α} (h : e.constant? = some c) : e = const c := by
  cases e with
  | const c' => exact congrArg const (Option.some.inj h)
  | _ => exact nomatch h

theorem powRule?_cases {b k d : Expr α} (h : powRule? x b k = some d) : PowRule x b k d := by
  rw [powRule?] at h
  split at h
  · rename_i hconst
    obtain ⟨c, hc⟩ := Option.isSome_iff_exists.mp hconst
    obtain ⟨k', hk, rfl⟩ := Option.map_eq_some_iff.mp h
    split
    · rename_i hzero
      exact .still (eq_const_of_constant? hc) hk hzero
    · rename_i hzero
      exact .constantBase (eq_const_of_constant? hc) hk (Bool.eq_false_iff.mpr hzero)
  · rename_i hconst
    have hconst := Option.not_isSome_iff_eq_none.mp hconst
    split at h
    · rename_i n hn
      obtain ⟨b', hb, rfl⟩ := Option.map_eq_some_iff.mp h
      exact .constantExponent hconst (eq_const_of_constant? hn) hb
    · rename_i hn
      obtain ⟨D, hD, rfl⟩ := Option.map_eq_some_iff.mp h
      obtain ⟨l', k', hl, hk, rfl⟩ := diff?_mul_eq_some hD
      exact .general hconst hn hl hk

/-! ### Induction along differentiation -/

/-- Induction along differentiation: `P e` is about the derivative of `e` and `Q f` about the
derivative of `log f`. -/
theorem diff_induction {P Q : Expr α → Prop} (const : ∀ c, P (const c)) (var : ∀ y, P (var y))
    (add : ∀ l p, P l → P p → P (add l p)) (mul : ∀ l p, P l → P p → P (mul l p))
    (pow : ∀ base exponent, (∀ b, simplify? base = some b → P b ∧ Q b) →
      (∀ k, simplify? exponent = some k → P k) → P (pow base exponent))
    (log : ∀ f, Q f → P (log f)) (sin : ∀ f, P f → P (sin f)) (cos : ∀ f, P f → P (cos f))
    (logOfPow : ∀ b k, Q b → P k → Q (.pow b k)) (logOfMul : ∀ p q, Q p → Q q → Q (.mul p q))
    (logOfOther : ∀ f, (∀ b k, f ≠ .pow b k) → (∀ p q, f ≠ .mul p q) → P f → Q f) :
    (∀ e, P e) ∧ ∀ f, Q f := by
  -- the weight of `log f` bounds the calls below it
  have main : ∀ n, (∀ e : Expr α, e.weight ≤ n → P e) ∧ ∀ f : Expr α, 2 * f.weight ≤ n → Q f := by
    intro n
    induction n using Nat.strongRecOn with
    | _ n ih =>
      have hP : ∀ e : Expr α, e.weight < n → P e := fun e he => (ih _ he).1 e (Nat.le_refl _)
      have hQ : ∀ f : Expr α, 2 * f.weight < n → Q f := fun f hf => (ih _ hf).2 f (Nat.le_refl _)
      have hlog : ∀ f : Expr α, 2 * f.weight ≤ n → Q f := by
        intro f hf
        have hpos := f.weight_pos
        cases f with
        | pow b k =>
          simp only [weight] at hf
          exact logOfPow b k (hQ _ (by omega)) (hP _ (by omega))
        | mul p q =>
          simp only [weight] at hf
          exact logOfMul p q (hQ _ (by omega)) (hQ _ (by omega))
        | _ => exact logOfOther _ (by simp) (by simp) (hP _ (by omega))
      refine ⟨fun e he => ?_, hlog⟩
      cases e with
      | const c => exact const c
      | var y => exact var y
      | add l p =>
        simp only [weight] at he
        have := l.weight_pos
        have := p.weight_pos
        exact add l p (hP _ (by omega)) (hP _ (by omega))
      | mul l p =>
        simp only [weight] at he
        have := l.weight_pos
        have := p.weight_pos
        exact mul l p (hP _ (by omega)) (hP _ (by omega))
      | pow base exponent =>
        simp only [weight] at he
        refine pow base exponent (fun b hb => ?_) fun k hk => ?_
        · have := weight_le_of_simplify? hb
          exact ⟨hP _ (by omega), hQ _ (by omega)⟩
        · have := weight_le_of_simplify? hk
          exact hP _ (by omega)
      | log f => exact log f (hlog f he)
      | sin f =>
        simp only [weight] at he
        exact sin f (hP _ (by omega))
      | cos f =>
        simp only [weight] at he
        exact cos f (hP _ (by omega))
  exact ⟨fun e => (main _).1 e (Nat.le_refl _), fun f => (main _).2 f (Nat.le_refl _)⟩

end Expr

end Fluxion
