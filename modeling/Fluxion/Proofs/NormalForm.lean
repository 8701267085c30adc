import Fluxion.Node.Simplify
import Fluxion.Proofs.Shapes

/-!
# The normal form of pruning

In a pruned expression there is nothing left to remove: no operand of a sum or a product has a
shape known to be zero, no factor is the literal one, and no power has a base or an exponent with
such a shape or the literal one as its exponent.

## Pruning again

That does not make a pruned expression a fixed point. What is pruned under a logarithm may turn out
to be a product or a power, as in `log (x * y + 0)`, and the logarithm is taken apart only the next
time. This is the only way: where no logarithm is applied to a product or a power, pruning again
keeps every node, and where there is one, pruning again makes the expression lighter.

## Main definitions

* `Expr.Normal` — there is nothing to remove
* `Expr.LogsIntact` — no logarithm is applied directly to a product or a power

## Main results

* `Expr.normal_of_simplify?` — what is pruned is normal
* `Expr.logsIntact_of_weight_le` — pruning takes weight off where a logarithm is taken apart
* `Node.prune_eq_same` — a normal node without such a logarithm is kept
* `Node.simplify?_normal` — all of this for pruned nodes
-/

namespace Fluxion

namespace Expr

variable {α : Type} [Coefficient α] {b k e l p s : Expr α}

/-! ### What pruning leaves -/

/-- There is nothing for pruning to remove, neither a zero nor a one. -/
def Normal : Expr α → Prop :=
  Everywhere fun
    | add l p => l.isZero = false ∧ p.isZero = false
    | mul l p => (l.isZero = false ∧ p.isZero = false) ∧ l.isOne = false ∧ p.isOne = false
    | pow b k => (b.isZero = false ∧ k.isZero = false) ∧ k.isOne = false
    | _ => True

omit [Coefficient α] in
/-- No logarithm is applied directly to a product or a power. -/
def LogsIntact : Expr α → Prop :=
  Everywhere fun
    | log (mul _ _) | log (pow _ _) => False
    | _ => True

theorem Normal.pruneAdd (hl : l.Normal) (hp : p.Normal) : (pruneAdd l p).Normal := by
  rw [Expr.pruneAdd]
  split_ifs with hboth hlz hpz
  · exact everywhere_const.mpr trivial
  · exact hp
  · exact hl
  · exact everywhere_add.mpr ⟨⟨Bool.eq_false_iff.mpr hlz, Bool.eq_false_iff.mpr hpz⟩, hl, hp⟩

theorem Normal.pruneMul (hl : l.Normal) (hp : p.Normal) : (pruneMul l p).Normal := by
  rw [Expr.pruneMul]
  split_ifs with hzero hlo hpo
  · exact everywhere_const.mpr trivial
  · exact hp
  · exact hl
  · rw [Bool.or_eq_true, not_or] at hzero
    exact everywhere_mul.mpr ⟨⟨⟨Bool.eq_false_iff.mpr hzero.1, Bool.eq_false_iff.mpr hzero.2⟩,
      Bool.eq_false_iff.mpr hlo, Bool.eq_false_iff.mpr hpo⟩, hl, hp⟩

theorem Normal.of_prunePow? (hb : b.Normal) (hk : k.Normal) (h : prunePow? b k = some s) :
    s.Normal := by
  rw [Expr.prunePow?] at h
  split_ifs at h with hboth hkz hbz hone
  · obtain rfl := Option.some.inj h
    exact everywhere_const.mpr trivial
  · obtain rfl := Option.some.inj h
    exact everywhere_const.mpr trivial
  · obtain rfl := Option.some.inj h
    exact hb
  · obtain rfl := Option.some.inj h
    exact everywhere_pow.mpr ⟨⟨⟨Bool.eq_false_iff.mpr hbz, Bool.eq_false_iff.mpr hkz⟩,
      Bool.eq_false_iff.mpr hone⟩, hb, hk⟩

/-- **What is pruned is normal.** -/
theorem normal_of_simplify? (h : simplify? e = some s) : s.Normal := by
  refine simplify_induction (P := fun _ s => s.Normal) ?const ?var ?add ?mul ?pow
    ?logOfPow ?logOfMul ?logOfOther ?sin ?cos h
  case const => exact fun c => everywhere_const.mpr trivial
  case var => exact fun y => everywhere_var.mpr trivial
  case add => exact fun l p l' p' hl hp => hl.pruneAdd hp
  case mul => exact fun l p l' p' hl hp => hl.pruneMul hp
  case pow => exact fun b k b' k' s _ _ hb hk hs => hb.of_prunePow? hk hs
  case logOfPow => exact fun b k s ih => ih
  case logOfMul => exact fun p q s ih => ih
  case logOfOther => exact fun f f' _ _ _ ih => everywhere_log.mpr ⟨trivial, ih⟩
  case sin => exact fun f f' ih => everywhere_sin.mpr ⟨trivial, ih⟩
  case cos => exact fun f f' ih => everywhere_cos.mpr ⟨trivial, ih⟩

/-- Pruning takes weight off an expression in which a logarithm is taken apart. -/
theorem logsIntact_of_weight_le (h : simplify? e = some s) (hw : e.weight ≤ s.weight) :
    e.LogsIntact := by
  fun_induction simplify? e generalizing s with
  | case1 c => exact everywhere_const.mpr trivial
  | case2 y => exact everywhere_var.mpr trivial
  | case3 l p ihl ihp =>
    obtain ⟨l', hl, h⟩ := Option.bind_eq_some_iff.mp h
    obtain ⟨p', hp, h⟩ := Option.bind_eq_some_iff.mp h
    obtain rfl := Option.some.inj h
    have hsum := weight_pruneAdd_le l' p'
    have hlw := weight_le_of_simplify? hl
    have hpw := weight_le_of_simplify? hp
    simp only [weight] at hw
    exact everywhere_add.mpr ⟨trivial, ihl hl (by omega), ihp hp (by omega)⟩
  | case4 l p ihl ihp =>
    obtain ⟨l', hl, h⟩ := Option.bind_eq_some_iff.mp h
    obtain ⟨p', hp, h⟩ := Option.bind_eq_some_iff.mp h
    obtain rfl := Option.some.inj h
    have hproduct := weight_pruneMul_le l' p'
    have hlw := weight_le_of_simplify? hl
    have hpw := weight_le_of_simplify? hp
    simp only [weight] at hw
    exact everywhere_mul.mpr ⟨trivial, ihl hl (by omega), ihp hp (by omega)⟩
  | case5 b k ihb ihk =>
    obtain ⟨b', hb, h⟩ := Option.bind_eq_some_iff.mp h
    obtain ⟨k', hk, h⟩ := Option.bind_eq_some_iff.mp h
    have hpower := weight_le_of_prunePow? h
    have hbw := weight_le_of_simplify? hb
    have hkw := weight_le_of_simplify? hk
    simp only [weight] at hw
    exact everywhere_pow.mpr ⟨trivial, ihb hb (by omega), ihk hk (by omega)⟩
  | case6 b k ih =>
    have hlighter := weight_le_of_simplify? h
    have hpos := b.weight_pos
    simp only [weight] at hw hlighter
    omega
  | case7 p q ih =>
    have hlighter := weight_le_of_simplify? h
    simp only [weight] at hw hlighter
    omega
  | case8 f hpow hmul ih =>
    obtain ⟨f', hf, h⟩ := Option.bind_eq_some_iff.mp h
    obtain rfl := Option.some.inj h
    simp only [weight] at hw
    refine everywhere_log.mpr ⟨?_, ih hf (by omega)⟩
    cases f with
    | mul p q => exact hmul p q rfl
    | pow b k => exact hpow b k rfl
    | _ => trivial
  | case9 f ih =>
    obtain ⟨f', hf, h⟩ := Option.bind_eq_some_iff.mp h
    obtain rfl := Option.some.inj h
    simp only [weight] at hw
    exact everywhere_sin.mpr ⟨trivial, ih hf (by omega)⟩
  | case10 f ih =>
    obtain ⟨f', hf, h⟩ := Option.bind_eq_some_iff.mp h
    obtain rfl := Option.some.inj h
    simp only [weight] at hw
    exact everywhere_cos.mpr ⟨trivial, ih hf (by omega)⟩

end Expr

/-! ### Nodes that are kept -/

namespace Node

variable {α : Type}

/-- Nothing is made of a node but the node itself, and no identity is used up. -/
theorem bind_of_same {β : Type} {m : Mint? (Pruned α)} {k : Pruned α → Mint? β} {next : Nat}
    (h : m next = some (.same, next)) : (m >>= k) next = k .same next := by
  show ((m next).bind fun r => k r.1 r.2) = _
  rw [h]
  rfl

variable [Coefficient α] {u l r f s : Node α} {next next' : Nat}

theorem pruneAdd_same (hl : l.erase.isZero = false) (hr : r.erase.isZero = false) :
    pruneAdd l r .same .same next = some (.same, next) := by
  rw [pruneAdd, hl, hr]
  rfl

theorem pruneMul_same (hl : l.erase.isZero = false) (hr : r.erase.isZero = false)
    (hlo : l.erase.isOne = false) (hro : r.erase.isOne = false) :
    pruneMul l r .same .same next = some (.same, next) := by
  rw [pruneMul, hl, hr, hlo, hro]
  rfl

theorem prunePow_same (hl : l.erase.isZero = false) (hr : r.erase.isZero = false)
    (hro : r.erase.isOne = false) : prunePow l r .same .same next = some (.same, next) := by
  rw [prunePow, hl, hr, hro]
  rfl

/-- A node in which there is nothing to remove and no logarithm to take apart is kept. -/
theorem prune_eq_same (hn : u.erase.Normal) (hi : u.erase.LogsIntact) :
    prune u next = some (.same, next) := by
  fun_induction prune u generalizing next with
  | case1 | case2 => rfl
  | case3 i l r ihl ihr =>
    obtain ⟨⟨hlz, hrz⟩, hnl, hnr⟩ := Expr.everywhere_add.mp hn
    obtain ⟨-, hil, hir⟩ := Expr.everywhere_add.mp hi
    rw [bind_of_same (ihl hnl hil), bind_of_same (ihr hnr hir)]
    exact pruneAdd_same hlz hrz
  | case4 i l r ihl ihr =>
    obtain ⟨⟨⟨hlz, hrz⟩, hlo, hro⟩, hnl, hnr⟩ := Expr.everywhere_mul.mp hn
    obtain ⟨-, hil, hir⟩ := Expr.everywhere_mul.mp hi
    rw [bind_of_same (ihl hnl hil), bind_of_same (ihr hnr hir)]
    exact pruneMul_same hlz hrz hlo hro
  | case5 i b e ihb ihe =>
    obtain ⟨⟨⟨hbz, hez⟩, heo⟩, hnb, hne⟩ := Expr.everywhere_pow.mp hn
    obtain ⟨-, hib, hie⟩ := Expr.everywhere_pow.mp hi
    rw [bind_of_same (ihb hnb hib), bind_of_same (ihe hne hie)]
    exact prunePow_same hbz hez heo
  | case6 => exact (Expr.everywhere_log.mp hi).1.elim
  | case7 => exact (Expr.everywhere_log.mp hi).1.elim
  | case8 i f _ _ ih =>
    rw [bind_of_same (ih (Expr.everywhere_log.mp hn).2 (Expr.everywhere_log.mp hi).2)]
    rfl
  | case9 i f ih =>
    rw [bind_of_same (ih (Expr.everywhere_sin.mp hn).2 (Expr.everywhere_sin.mp hi).2)]
    rfl
  | case10 i f ih =>
    rw [bind_of_same (ih (Expr.everywhere_cos.mp hn).2 (Expr.everywhere_cos.mp hi).2)]
    rfl

theorem simplify?_of_prune {p : Pruned α} (h : prune u next = some (p, next')) :
    simplify? u next = some (p.node u, next') := by
  show ((prune u next).bind fun r => some (r.1.node u, r.2)) = _
  rw [h]
  rfl

/-- A node that is pruned to itself holds no logarithm of a product or a power. -/
theorem logsIntact_of_simplify? (h : simplify? s next = some (s, next')) : s.erase.LogsIntact := by
  have herase : s.erase.simplify? = some s.erase := by rw [← erase_simplify? s next, h]; rfl
  exact Expr.logsIntact_of_weight_le herase (Nat.le_refl _)

/-- **Pruning reaches a normal form.** In a pruned node there is nothing left to remove. Pruning it
again, with whatever identities for new nodes, gives the node itself just when no logarithm in it is
applied directly to a product or a power. -/
theorem simplify?_normal (h : simplify? u next = some (s, next')) :
    s.erase.Normal ∧ ∀ m,
      ((∃ m', prune s m = some (.same, m')) ↔ s.erase.LogsIntact) ∧
      ((∃ m', simplify? s m = some (s, m')) ↔ s.erase.LogsIntact) := by
  have hnormal : s.erase.Normal := by
    refine Expr.normal_of_simplify? (e := u.erase) ?_
    rw [← erase_simplify? u next, h]
    rfl
  refine ⟨hnormal, fun m => ⟨⟨?_, fun hi => ⟨m, prune_eq_same hnormal hi⟩⟩, ⟨?_, fun hi =>
    ⟨m, simplify?_of_prune (prune_eq_same hnormal hi)⟩⟩⟩⟩
  · rintro ⟨m', hm⟩
    exact logsIntact_of_simplify? (simplify?_of_prune hm)
  · rintro ⟨m', hm⟩
    exact logsIntact_of_simplify? hm

/-- A product shows up under a logarithm, which is not what it is pruned to in the end. -/
theorem simplify?_normal_log_mul :
    let product : Node Float := .mul 2 (.var 0 "x") (.var 1 "y")
    simplify? (.log 4 (.add 3 product (.const 5 0))) 6 = some (.log 6 product, 7) ∧
      (Node.log 6 product).erase.Normal ∧
      ¬∃ m', simplify? (.log 6 product) 7 = some (.log 6 product, m') := by
  intro product
  have hpruned : simplify? (.log 4 (.add 3 product (.const 5 0))) 6 = some (.log 6 product, 7) := by
    simp [product, simplify?, prune, pruneAdd, pruneMul, rebuild, rebuildFunction, remake,
      Pruned.node, erase, Expr.isZero, Expr.isOne]
    rfl
  obtain ⟨hnormal, hagain⟩ := simplify?_normal hpruned
  exact ⟨hpruned, hnormal, fun hsame => (Expr.everywhere_log.mp ((hagain 7).2.mp hsame)).1⟩

end Node

end Fluxion
