import Fluxion.Expr.Simplify
import Fluxion.Node.Basic

/-!
# Pruning nodes

The rules are those for expressions. Besides, they say which nodes of the result are nodes of
the source: a node below which nothing changes is kept, and a node is new only when an operand
has changed or a rule makes it.

## Main definitions

* `Node.Pruned` — what pruning makes of a node: the node itself or another one
* `Node.prune`, `Node.simplify?` — pruning

## Main statements

* `Node.erase_simplify?` — without the identities, pruning nodes is pruning expressions
-/

namespace Fluxion

namespace Node

variable {α : Type}

/-- What pruning makes of a node. -/
inductive Pruned (α : Type) where
  /-- The node itself. -/
  | same
  /-- Another node. -/
  | other (u : Node α)

/-- The node that `u` is pruned to. -/
def Pruned.node (u : Node α) : Pruned α → Node α
  | same => u
  | other v => v

/-- A new node in place of another one. -/
def remake (make : Nat → Node α) : Mint? (Pruned α) := do return .other (← mint make)

/-- A node over two operands: kept when both are, and made anew otherwise. -/
def rebuild (make : Nat → Node α) : Pruned α → Pruned α → Mint? (Pruned α)
  | .same, .same => pure .same
  | _, _ => remake make

/-- A node over one operand: kept when the operand is, and made anew otherwise. -/
def rebuildFunction (make : Nat → Node α) : Pruned α → Mint? (Pruned α)
  | .same => pure .same
  | .other _ => remake make

/-- The product `e · log b` that the logarithm of a power becomes. -/
def logOfPow (next : Nat) (b e : Node α) : Node α := mul (next + 1) e (log next b)

/-- The sum `log p + log q` that the logarithm of a product becomes. -/
def logOfMul (next : Nat) (p q : Node α) : Node α :=
  add (next + 2) (log next p) (log (next + 1) q)

variable [Coefficient α]

/-- The sum of the nodes `p` and `q` that the operands are pruned to. -/
def pruneAdd (p q : Node α) (l' r' : Pruned α) : Mint? (Pruned α) :=
  if p.erase.isZero && q.erase.isZero then remake (const · 0)
  else if p.erase.isZero then pure (.other q)
  else if q.erase.isZero then pure (.other p)
  else rebuild (add · p q) l' r'

/-- The product of the nodes `p` and `q` that the operands are pruned to. -/
def pruneMul (p q : Node α) (l' r' : Pruned α) : Mint? (Pruned α) :=
  if p.erase.isZero || q.erase.isZero then remake (const · 0)
  else if p.erase.isOne then pure (.other q)
  else if q.erase.isOne then pure (.other p)
  else rebuild (mul · p q) l' r'

/-- The power of the nodes `p` and `q` that the operands are pruned to. -/
def prunePow (p q : Node α) (b' e' : Pruned α) : Mint? (Pruned α) :=
  if q.erase.isZero && p.erase.isZero then failure
  else if q.erase.isZero then remake (const · 1)
  else if p.erase.isZero then remake (const · 0)
  else if q.erase.isOne then pure (.other p)
  else rebuild (pow · p q) b' e'

/-- What pruning makes of a node, unless a zero to the power zero is met. -/
def prune (u : Node α) : Mint? (Pruned α) :=
  match u with
  | const _ _ | var _ _ => pure .same
  | add _ l r => do
    let l' ← prune l
    let r' ← prune r
    pruneAdd (l'.node l) (r'.node r) l' r'
  | mul _ l r => do
    let l' ← prune l
    let r' ← prune r
    pruneMul (l'.node l) (r'.node r) l' r'
  | pow _ b e => do
    let b' ← prune b
    let e' ← prune e
    prunePow (b'.node b) (e'.node e) b' e'
  | log _ (pow _ b e) => fun next =>
    (prune (logOfPow next b e) (next + 2)).map fun (v, next') =>
      (.other (v.node (logOfPow next b e)), next')
  | log _ (mul _ p q) => fun next =>
    (prune (logOfMul next p q) (next + 3)).map fun (v, next') =>
      (.other (v.node (logOfMul next p q)), next')
  | log _ f => do
    let f' ← prune f
    rebuildFunction (log · (f'.node f)) f'
  | sin _ f => do
    let f' ← prune f
    rebuildFunction (sin · (f'.node f)) f'
  | cos _ f => do
    let f' ← prune f
    rebuildFunction (cos · (f'.node f)) f'
termination_by u.erase.weight
decreasing_by
  all_goals simp only [erase, logOfPow, logOfMul, Expr.weight]; grind [Expr.weight_pos]

/-- The pruned node, unless a zero to the power zero is met. -/
def simplify? (u : Node α) : Mint? (Node α) := do return (← prune u).node u

/-! ### Agreement with expressions -/

/-- `m` makes of the node `u` a node whose expression is `e`, whatever the counter says. -/
def Makes (u : Node α) (m : Mint? (Pruned α)) (e : Option (Expr α)) : Prop :=
  ∀ next, (m next).map (fun r => (r.1.node u).erase) = e

omit [Coefficient α] in
theorem makes_pure (u : Node α) (p : Pruned α) : Makes u (pure p) (some (p.node u).erase) :=
  fun _ => rfl

omit [Coefficient α] in
theorem makes_failure (u : Node α) : Makes u failure none := fun _ => rfl

omit [Coefficient α] in
theorem makes_remake {u : Node α} {make : Nat → Node α} {e : Expr α}
    (h : ∀ i, (make i).erase = e) : Makes u (remake make) (some e) :=
  fun next => congrArg some (h next)

omit [Coefficient α] in
theorem makes_rebuild {u l r : Node α} {make : Nat → Node α} {join : Expr α → Expr α → Expr α}
    {l' r' : Pruned α} (hu : u.erase = join l.erase r.erase)
    (h : ∀ i, (make i).erase = join (l'.node l).erase (r'.node r).erase) :
    Makes u (rebuild make l' r') (some (join (l'.node l).erase (r'.node r).erase)) := by
  cases l' with
  | same =>
    cases r' with
    | same => exact hu ▸ makes_pure u .same
    | other v => exact makes_remake h
  | other w => exact makes_remake h

omit [Coefficient α] in
theorem makes_rebuildFunction {u f : Node α} {make : Nat → Node α} {apply : Expr α → Expr α}
    {f' : Pruned α} (hu : u.erase = apply f.erase)
    (h : ∀ i, (make i).erase = apply (f'.node f).erase) :
    Makes u (rebuildFunction make f') (some (apply (f'.node f).erase)) := by
  cases f' with
  | same => exact hu ▸ makes_pure u .same
  | other v => exact makes_remake h

omit [Coefficient α] in
theorem makes_bind {u f : Node α} {m : Mint? (Pruned α)} {k : Pruned α → Mint? (Pruned α)}
    {e : Option (Expr α)} {g : Expr α → Option (Expr α)} (hm : Makes f m e)
    (hk : ∀ p, Makes u (k p) (g (p.node f).erase)) : Makes u (m >>= k) (e >>= g) := by
  intro next
  have hn := hm next
  change ((m next).bind fun r => k r.1 r.2).map _ = e.bind g
  cases hr : m next with
  | none =>
    rw [hr] at hn
    rw [← hn]
    rfl
  | some r =>
    rw [hr] at hn
    rw [← hn]
    exact hk r.1 r.2

omit [Coefficient α] in
theorem makes_ite {u : Node α} {c : Prop} [Decidable c] {m n : Mint? (Pruned α)}
    {d e : Option (Expr α)} (hm : Makes u m d) (hn : Makes u n e) :
    Makes u (if c then m else n) (if c then d else e) := by
  split
  · exact hm
  · exact hn

theorem makes_pruneAdd {u l r : Node α} (hu : u.erase = .add l.erase r.erase) (l' r' : Pruned α) :
    Makes u (pruneAdd (l'.node l) (r'.node r) l' r')
      (some (Expr.pruneAdd (l'.node l).erase (r'.node r).erase)) := by
  unfold pruneAdd Expr.pruneAdd
  simp only [apply_ite some]
  exact makes_ite (makes_remake fun _ => rfl) <| makes_ite (makes_pure _ _) <|
    makes_ite (makes_pure _ _) (makes_rebuild hu fun _ => rfl)

theorem makes_pruneMul {u l r : Node α} (hu : u.erase = .mul l.erase r.erase) (l' r' : Pruned α) :
    Makes u (pruneMul (l'.node l) (r'.node r) l' r')
      (some (Expr.pruneMul (l'.node l).erase (r'.node r).erase)) := by
  unfold pruneMul Expr.pruneMul
  simp only [apply_ite some]
  exact makes_ite (makes_remake fun _ => rfl) <| makes_ite (makes_pure _ _) <|
    makes_ite (makes_pure _ _) (makes_rebuild hu fun _ => rfl)

theorem makes_prunePow {u b e : Node α} (hu : u.erase = .pow b.erase e.erase) (b' e' : Pruned α) :
    Makes u (prunePow (b'.node b) (e'.node e) b' e')
      (Expr.prunePow? (b'.node b).erase (e'.node e).erase) := by
  unfold prunePow Expr.prunePow?
  exact makes_ite (makes_failure _) <| makes_ite (makes_remake fun _ => rfl) <|
    makes_ite (makes_remake fun _ => rfl) <|
      makes_ite (makes_pure _ _) (makes_rebuild hu fun _ => rfl)

omit [Coefficient α] in
theorem exists_of_erase_eq_pow {u : Node α} {b e : Expr α} (h : u.erase = .pow b e) :
    ∃ i b' e', u = pow i b' e' := by
  cases u <;> simp [erase] at h
  exact ⟨_, _, _, rfl⟩

omit [Coefficient α] in
theorem exists_of_erase_eq_mul {u : Node α} {p q : Expr α} (h : u.erase = .mul p q) :
    ∃ i p' q', u = mul i p' q' := by
  cases u <;> simp [erase] at h
  exact ⟨_, _, _, rfl⟩

/-- Without the identities, pruning nodes is pruning expressions. -/
theorem makes_prune (u : Node α) : Makes u (prune u) u.erase.simplify? := by
  fun_induction prune u with
  | case1 i c => rw [erase, Expr.simplify?]; exact makes_pure _ .same
  | case2 i x => rw [erase, Expr.simplify?]; exact makes_pure _ .same
  | case3 i l r ihl ihr =>
    rw [erase, Expr.simplify?]
    exact makes_bind ihl fun l' => makes_bind ihr fun r' => makes_pruneAdd rfl l' r'
  | case4 i l r ihl ihr =>
    rw [erase, Expr.simplify?]
    exact makes_bind ihl fun l' => makes_bind ihr fun r' => makes_pruneMul rfl l' r'
  | case5 i b e ihb ihe =>
    rw [erase, Expr.simplify?]
    exact makes_bind ihb fun b' => makes_bind ihe fun e' => makes_prunePow rfl b' e'
  | case6 i j b e ih =>
    intro next
    rw [erase, erase, Expr.simplify?, Option.map_map]
    exact ih next (next + 2)
  | case7 i j p q ih =>
    intro next
    rw [erase, erase, Expr.simplify?, Option.map_map]
    exact ih next (next + 3)
  | case8 i f hp hm ih =>
    rw [erase, Expr.simplify?]
    · exact makes_bind ih fun f' => makes_rebuildFunction rfl fun _ => rfl
    · rintro b e hf
      obtain ⟨j, b', e', rfl⟩ := exists_of_erase_eq_pow hf
      exact hp j b' e' rfl
    · rintro p q hf
      obtain ⟨j, p', q', rfl⟩ := exists_of_erase_eq_mul hf
      exact hm j p' q' rfl
  | case9 i f ih =>
    rw [erase, Expr.simplify?]
    exact makes_bind ih fun f' => makes_rebuildFunction rfl fun _ => rfl
  | case10 i f ih =>
    rw [erase, Expr.simplify?]
    exact makes_bind ih fun f' => makes_rebuildFunction rfl fun _ => rfl

/-- The expression of a pruned node is the pruned expression of the node. -/
theorem erase_simplify? (u : Node α) (next : Nat) :
    (simplify? u next).map (fun r => r.1.erase) = u.erase.simplify? := by
  rw [← makes_prune u next]
  change ((prune u next).bind fun r => some (r.1.node u, r.2)).map _ = _
  cases prune u next <;> rfl

end Node

end Fluxion
