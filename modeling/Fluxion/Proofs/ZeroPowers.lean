import Fluxion.Proofs.Indeterminate
import Fluxion.Proofs.NormalForm

/-!
# When pruning meets a zero to the power zero

Pruning gives up on a power whose operands are pruned to zeros, and on nothing else. It does not
come to every power, though. A logarithm takes the powers and products below it apart before they
are pruned: `log (b ^ k)` is pruned as `k * log b`, and from there on the logarithm goes on into
`b`. So `log (0 ^ 0)` is pruned to zero, and so is `log (x * (0 ^ 0) ^ 2) * 0`.

The powers that are left out are those on the way down from a logarithm through factors and bases.
The exponents on that way, and whatever is no factor and no base, are pruned as everything else.

## Main definitions

* `Expr.powers` — the powers that pruning comes to
* `Expr.ZeroPower` — both operands of a power are pruned to zeros

## Main results

* `Expr.prunable_iff_powers` — what can be pruned, with and without a logarithm above it
* `Expr.simplify?_eq_none_iff` — when pruning gives up
* `Expr.simplify?_log_zero_pow_zero` — the logarithm of zero to the power zero
-/

namespace Fluxion

namespace Expr

variable {α : Type}

/-- The powers in an expression that pruning comes to, each as its base and its exponent. With
`inLog` the expression is the operand of a logarithm, which takes powers and products apart. -/
def powers (inLog : Bool) : Expr α → List (Expr α × Expr α)
  | const _ | var _ => []
  | add l p => l.powers false ++ p.powers false
  | mul l p => l.powers inLog ++ p.powers inLog
  | pow b k => (if inLog then [] else [(b, k)]) ++ (b.powers inLog ++ k.powers false)
  | log f => f.powers true
  | sin f | cos f => f.powers false

variable {b k e : Expr α}

theorem pow_mem_nodes_of_mem_powers {inLog : Bool} (h : (b, k) ∈ e.powers inLog) :
    pow b k ∈ e.nodes := by
  induction e generalizing inLog with
  | const | var => cases h
  | add l p ihl ihp | mul l p ihl ihp =>
    rcases List.mem_append.mp h with h | h
    · exact List.mem_cons_of_mem _ (List.mem_append_left _ (ihl h))
    · exact List.mem_cons_of_mem _ (List.mem_append_right _ (ihp h))
  | pow c m ihc ihm =>
    rcases List.mem_append.mp h with h | h
    · cases inLog with
      | false =>
        obtain ⟨rfl, rfl⟩ := Prod.mk.inj (List.mem_singleton.mp h)
        exact mem_nodes_self _
      | true => cases h
    · rcases List.mem_append.mp h with h | h
      · exact List.mem_cons_of_mem _ (List.mem_append_left _ (ihc h))
      · exact List.mem_cons_of_mem _ (List.mem_append_right _ (ihm h))
  | log f ih | sin f ih | cos f ih => exact List.mem_cons_of_mem _ (ih h)

/-- Under a logarithm there is a difference for powers and products only. -/
theorem powers_true_eq (hpow : ∀ b k, e ≠ pow b k) (hmul : ∀ l p, e ≠ mul l p) :
    e.powers true = e.powers false := by
  cases e with
  | pow b k => exact absurd rfl (hpow b k)
  | mul l p => exact absurd rfl (hmul l p)
  | _ => rfl

/-- No power is left out where no logarithm is applied to a power or a product. -/
theorem LogsIntact.mem_powers (he : e.LogsIntact) (h : pow b k ∈ e.nodes) :
    (b, k) ∈ e.powers false := by
  induction e with
  | const | var => cases List.mem_singleton.mp h
  | add l p ihl ihp =>
    obtain ⟨-, hl, hp⟩ := everywhere_add.mp he
    simp only [nodes, List.mem_cons, reduceCtorEq, false_or, List.mem_append] at h
    exact List.mem_append.mpr (h.imp (ihl hl) (ihp hp))
  | mul l p ihl ihp =>
    obtain ⟨-, hl, hp⟩ := everywhere_mul.mp he
    simp only [nodes, List.mem_cons, reduceCtorEq, false_or, List.mem_append] at h
    exact List.mem_append.mpr (h.imp (ihl hl) (ihp hp))
  | pow c m ihc ihm =>
    obtain ⟨-, hc, hm⟩ := everywhere_pow.mp he
    simp only [nodes, List.mem_cons, pow.injEq, List.mem_append] at h
    rcases h with ⟨rfl, rfl⟩ | h
    · exact List.mem_cons_self
    · exact List.mem_append_right _ (List.mem_append.mpr (h.imp (ihc hc) (ihm hm)))
  | log f ih =>
    obtain ⟨hlog, hf⟩ := everywhere_log.mp he
    simp only [nodes, List.mem_cons, reduceCtorEq, false_or] at h
    rw [powers, powers_true_eq (by rintro b k rfl; exact hlog) (by rintro l p rfl; exact hlog)]
    exact ih hf h
  | sin f ih =>
    simp only [nodes, List.mem_cons, reduceCtorEq, false_or] at h
    exact ih (everywhere_sin.mp he).2 h
  | cos f ih =>
    simp only [nodes, List.mem_cons, reduceCtorEq, false_or] at h
    exact ih (everywhere_cos.mp he).2 h

variable [Coefficient α]

/-- Both operands of the power `b ^ k` are pruned to zeros. -/
def ZeroPower (b k : Expr α) : Prop :=
  ∃ b' k', simplify? b = some b' ∧ simplify? k = some k' ∧ b'.isZero = true ∧ k'.isZero = true

theorem prunable_pow_iff : (pow b k).Prunable ↔ ¬ZeroPower b k ∧ b.Prunable ∧ k.Prunable := by
  rw [prunable_pow]
  constructor
  · rintro ⟨b', k', hb, hk, hnot⟩
    refine ⟨?_, ⟨b', hb⟩, k', hk⟩
    rintro ⟨b'', k'', hb', hk', hbz, hkz⟩
    obtain rfl := Option.some.inj (hb.symm.trans hb')
    obtain rfl := Option.some.inj (hk.symm.trans hk')
    exact hnot ⟨hkz, hbz⟩
  · rintro ⟨hnot, ⟨b', hb⟩, k', hk⟩
    exact ⟨b', k', hb, hk, fun hzero => hnot ⟨b', k', hb, hk, hzero.2, hzero.1⟩⟩

/-- An expression can be pruned when no power that pruning comes to is zero to the power zero. The
second half is about the operand of a logarithm. -/
theorem prunable_iff_powers (e : Expr α) :
    (e.Prunable ↔ ∀ q ∈ e.powers false, ¬ZeroPower q.1 q.2) ∧
      ((log e).Prunable ↔ ∀ q ∈ e.powers true, ¬ZeroPower q.1 q.2) := by
  induction e with
  | const c =>
    exact ⟨iff_of_true (prunable_const c) nofun,
      iff_of_true (Prunable.log (prunable_const c)) nofun⟩
  | var y =>
    exact ⟨iff_of_true (prunable_var y) nofun, iff_of_true (Prunable.log (prunable_var y)) nofun⟩
  | add l p ihl ihp =>
    have hadd : (add l p).Prunable ↔ ∀ q ∈ l.powers false ++ p.powers false,
        ¬ZeroPower q.1 q.2 := by
      rw [prunable_add, List.forall_mem_append, ihl.1, ihp.1]
    exact ⟨hadd, (prunable_log (f := add l p) (by simp) (by simp)).trans hadd⟩
  | mul l p ihl ihp =>
    rw [prunable_logOfMul, prunable_mul, powers, powers, List.forall_mem_append,
      List.forall_mem_append, ← ihl.1, ← ihp.1, ← ihl.2, ← ihp.2]
    exact ⟨Iff.rfl, Iff.rfl⟩
  | pow b k ihb ihk =>
    rw [prunable_logOfPow, prunable_pow_iff, powers, powers, List.forall_mem_append,
      List.forall_mem_append, List.forall_mem_append, List.forall_mem_append, ← ihb.1, ← ihb.2,
      ← ihk.1]
    exact ⟨by simp, by simp [and_comm]⟩
  | log f ih =>
    exact ⟨ih.2, (prunable_log (f := log f) (by simp) (by simp)).trans ih.2⟩
  | sin f ih =>
    have hsin := prunable_sin.trans ih.1
    exact ⟨hsin, (prunable_log (f := sin f) (by simp) (by simp)).trans hsin⟩
  | cos f ih =>
    have hcos := prunable_cos.trans ih.1
    exact ⟨hcos, (prunable_log (f := cos f) (by simp) (by simp)).trans hcos⟩

/-- **Pruning gives up just where it comes to a zero to the power zero.** The powers that it comes
to are parts of the expression, and they are all of its powers unless a logarithm is applied
directly to a power or a product. -/
theorem simplify?_eq_none_iff (e : Expr α) :
    (simplify? e = none ↔ ∃ b k, (b, k) ∈ e.powers false ∧ ZeroPower b k) ∧
      (∀ b k, (b, k) ∈ e.powers false → pow b k ∈ e.nodes) ∧
      (e.LogsIntact → ∀ b k, pow b k ∈ e.nodes → (b, k) ∈ e.powers false) := by
  refine ⟨?_, fun b k => pow_mem_nodes_of_mem_powers, fun he b k => he.mem_powers⟩
  have hnone : simplify? e = none ↔ ¬e.Prunable := by
    rw [Prunable, ← Option.ne_none_iff_exists', not_ne_iff]
  rw [hnone, (prunable_iff_powers e).1]
  simp only [not_forall, not_not, Prod.exists, exists_prop]

/-- A logarithm takes the outer power apart and leaves the exponent to pruning. -/
theorem simplify?_eq_none_iff_exponent :
    let zeroPower : Expr Float := pow (sin (const 0)) (const 0)
    let e : Expr Float := log (pow (const 0) zeroPower)
    (sin (const 0), const 0) ∈ e.powers false ∧ (sin (const 0) : Expr Float).ZeroPower (const 0) ∧
      simplify? e = none ∧ zeroPower ∈ e.nodes ∧
      (cos zeroPower).LogsIntact ∧ (sin (const 0), const 0) ∈ (cos zeroPower).powers false := by
  intro zeroPower e
  have hmem : (sin (const 0), const 0) ∈ e.powers false := by simp [e, zeroPower, powers]
  have hzero : (const 0 : Expr Float).isZero = true := by decide
  have hpower : (sin (const 0) : Expr Float).ZeroPower (const 0) :=
    ⟨sin (const 0), const 0, by simp [simplify?], by rw [simplify?], hzero, hzero⟩
  have hintact : (cos zeroPower).LogsIntact := by
    simp [LogsIntact, zeroPower, everywhere_cos, everywhere_pow, everywhere_sin, everywhere_const]
  obtain ⟨hnone, hnodes, -⟩ := simplify?_eq_none_iff e
  obtain ⟨-, -, hall⟩ := simplify?_eq_none_iff (cos zeroPower)
  exact ⟨hmem, hpower, hnone.mpr ⟨_, _, hmem, hpower⟩, hnodes _ _ hmem, hintact,
    hall hintact _ _ (by simp [zeroPower, nodes])⟩

/-- The logarithm of zero to the power zero is pruned to zero, although its operand is a power of
zeros. -/
theorem simplify?_log_zero_pow_zero :
    simplify? (log (pow (const 0) (const 0)) : Expr Float) = some (const 0) ∧
      ¬((simplify? (log (pow (const 0) (const 0)) : Expr Float) = none) ↔
        ∃ b k, pow b k ∈ (log (pow (const 0) (const 0)) : Expr Float).nodes ∧ ZeroPower b k) := by
  have hzero : (const 0 : Expr Float).isZero = true := by decide
  have hpruned : simplify? (log (pow (const 0) (const 0)) : Expr Float) = some (const 0) := by
    simp [simplify?, pruneMul, hzero]
  have hconst : simplify? (const 0 : Expr Float) = some (const 0) := by rw [simplify?]
  refine ⟨hpruned, fun hiff => ?_⟩
  have hpower : ZeroPower (const 0 : Expr Float) (const 0) :=
    ⟨const 0, const 0, hconst, hconst, hzero, hzero⟩
  have hnone := hiff.mpr ⟨const 0, const 0, by simp [nodes], hpower⟩
  rw [hpruned] at hnone
  cases hnone

end Expr

end Fluxion
