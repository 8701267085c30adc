import Fluxion.Proofs.Rules
import Fluxion.Proofs.RealValue

/-!
# Shapes of expressions that are pruned again and again

Pruning once need not find all zeros and ones. It takes the logarithm of a power or a product
apart before it prunes the operand, so `log (1 ^ x + 0)` becomes `log (1 ^ x)`, and only the next
pruning makes zero of it. What shows up in the end can be told beforehand, by rules for each node:
that is `Expr.shape`.

## Hidden and shown

Pruning never changes the shape, but a shape that is zero need not be *shown*, in the sense of
`Expr.isZero`. What hides it is a power of one in the operand of a logarithm; where there is none,
a single pruning brings out all zeros, and pruning again finds no others.

Pruning keeps the shape only when the powers are such that their operands show theirs: a hidden
zero in a base is lost to an exponent that is seen to be zero.

## Main definitions

* `LawfulCoefficient` — the laws of coefficients that pruning relies on
* `Shape`, `Expr.shape` — zero, one or neither, after any number of prunings
* `Expr.Everywhere` — a condition on all parts of an expression
* `Expr.OneFree`, `Expr.LogsOneFree`, `Expr.Steady` — where no power of one is hidden
* `Expr.Faithful` — what pruning makes of the shape
* `Expr.Origin` — where the powers and logarithms of a pruned expression come from

## Main results

* `Expr.Steady.faithful` — pruning keeps the shape, and brings it out
* `Expr.everywhere_origin` — all parts of a pruned expression have an origin
* `Expr.LogsOneFree.isZero_iff` — pruning again finds no other zeros
-/

namespace Fluxion

/-- Laws of coefficients, as far as differentiation and pruning rely on them. -/
class LawfulCoefficient (α : Type) [Coefficient α] : Prop where
  zero_beq_zero : ((0 : α) == 0) = true
  one_beq_one : ((1 : α) == 1) = true
  beq_zero_of_beq_one : ∀ {c : α}, (c == 1) = true → (c == 0) = false
  neg_one_beq_zero : ((-1 : α) == 0) = false
  beq_one_of_sub_one : ∀ {c : α}, (c - 1 == 0) = true → (c == 1) = true

instance : LawfulCoefficient ℝ where
  zero_beq_zero := decide_eq_true rfl
  one_beq_one := decide_eq_true rfl
  beq_zero_of_beq_one h := decide_eq_false (of_decide_eq_true h ▸ one_ne_zero)
  neg_one_beq_zero := decide_eq_false (neg_ne_zero.mpr one_ne_zero)
  beq_one_of_sub_one h := decide_eq_true (sub_eq_zero.mp (of_decide_eq_true h))

/-! ### Shapes -/

/-- What is known of an expression by its shape. -/
inductive Shape where
  | zero
  | one
  | other
deriving DecidableEq

namespace Shape

/-- The shape of a sum. -/
def add : Shape → Shape → Shape
  | zero, s => s
  | s, zero => s
  | _, _ => other

/-- The shape of a product. -/
def mul : Shape → Shape → Shape
  | zero, _ => zero
  | _, zero => zero
  | one, s => s
  | s, one => s
  | other, other => other

/-- The shape of a power; anything to the power zero is one. -/
def pow : Shape → Shape → Shape
  | _, zero => one
  | b, _ => b

/-- The shape of a logarithm. -/
def log : Shape → Shape
  | one => zero
  | _ => other

/-- The shape of a sine. -/
def sin : Shape → Shape
  | zero => zero
  | _ => other

variable {a b : Shape}

@[simp] theorem zero_add (a : Shape) : add zero a = a := by cases a <;> rfl
@[simp] theorem add_zero (a : Shape) : add a zero = a := by cases a <;> rfl
@[simp] theorem zero_mul (a : Shape) : mul zero a = zero := by cases a <;> rfl
@[simp] theorem mul_zero (a : Shape) : mul a zero = zero := by cases a <;> rfl
@[simp] theorem one_mul (a : Shape) : mul one a = a := by cases a <;> rfl
@[simp] theorem mul_one (a : Shape) : mul a one = a := by cases a <;> rfl
@[simp] theorem pow_zero (a : Shape) : pow a zero = one := by cases a <;> rfl

theorem pow_of_ne_zero (h : b ≠ zero) : pow a b = a := by
  cases b with
  | zero => exact absurd rfl h
  | one | other => cases a <;> rfl

theorem add_eq_zero : add a b = zero ↔ a = zero ∧ b = zero := by
  cases a <;> cases b <;> decide

theorem add_eq_one : add a b = one ↔ (a = zero ∧ b = one) ∨ (a = one ∧ b = zero) := by
  cases a <;> cases b <;> decide

theorem mul_eq_zero : mul a b = zero ↔ a = zero ∨ b = zero := by
  cases a <;> cases b <;> decide

theorem mul_eq_one : mul a b = one ↔ a = one ∧ b = one := by
  cases a <;> cases b <;> decide

theorem pow_eq_zero : pow a b = zero ↔ a = zero ∧ b ≠ zero := by
  cases a <;> cases b <;> decide

theorem pow_eq_one : pow a b = one ↔ b = zero ∨ a = one := by
  cases a <;> cases b <;> decide

theorem log_eq_zero : log a = zero ↔ a = one := by cases a <;> decide
theorem log_ne_one : log a ≠ one := by cases a <;> decide
theorem sin_eq_zero : sin a = zero ↔ a = zero := by cases a <;> decide
theorem sin_ne_one : sin a ≠ one := by cases a <;> decide

/-- The logarithm of a power has the shape of the product that it is taken apart to. -/
theorem log_pow (a b : Shape) : log (pow a b) = mul b (log a) := by
  cases a <;> cases b <;> rfl

/-- The logarithm of a product has the shape of the sum that it is taken apart to. -/
theorem log_mul (a b : Shape) : log (mul a b) = add (log a) (log b) := by
  cases a <;> cases b <;> rfl

end Shape

namespace Expr

variable {α : Type} [Coefficient α] {b k e f l p s t b' k' l' p' f' : Expr α}

/-- The shape that shows up when an expression is pruned again and again. -/
def shape : Expr α → Shape
  | const c => if c == 0 then .zero else if c == 1 then .one else .other
  | var _ => .other
  | add l p => l.shape.add p.shape
  | mul l p => l.shape.mul p.shape
  | pow b k => b.shape.pow k.shape
  | log f => f.shape.log
  | sin f => f.shape.sin
  | cos _ => .other

/-! ### Shapes of pruned nodes -/

section Nodes

@[simp] theorem isZero_add : (add l p).isZero = (l.isZero && p.isZero) := rfl
@[simp] theorem isZero_mul : (mul l p).isZero = (l.isZero || p.isZero) := rfl
@[simp] theorem isZero_pow : (pow b k).isZero = (b.isZero && !k.isZero) := rfl
@[simp] theorem isOne_add : (add l p).isOne = false := rfl
@[simp] theorem isOne_mul : (mul l p).isOne = false := rfl
@[simp] theorem isOne_pow : (pow b k).isOne = false := rfl

theorem eq_const_of_isOne (h : e.isOne = true) : ∃ c : α, (c == 1) = true ∧ e = const c := by
  cases e with
  | const c => exact ⟨c, h, rfl⟩
  | _ => exact nomatch h

variable [LawfulCoefficient α]

@[simp] theorem isZero_zero : (const 0 : Expr α).isZero = true := LawfulCoefficient.zero_beq_zero

@[simp] theorem isOne_one : (const 1 : Expr α).isOne = true := LawfulCoefficient.one_beq_one

theorem isZero_of_isOne (h : e.isOne = true) : e.isZero = false := by
  obtain ⟨c, hc, rfl⟩ := eq_const_of_isOne h
  exact LawfulCoefficient.beq_zero_of_beq_one hc

theorem isOne_of_isZero (h : e.isZero = true) : e.isOne = false :=
  Bool.eq_false_iff.mpr fun h1 => Bool.false_ne_true ((isZero_of_isOne h1).symm.trans h)

@[simp] theorem isZero_one : (const 1 : Expr α).isZero = false := isZero_of_isOne isOne_one

@[simp] theorem isOne_zero : (const 0 : Expr α).isOne = false := isOne_of_isZero isZero_zero

theorem shape_of_isOne (h : e.isOne = true) : e.shape = .one := by
  obtain ⟨c, hc, rfl⟩ := eq_const_of_isOne h
  rw [shape, if_neg (Bool.eq_false_iff.mp (LawfulCoefficient.beq_zero_of_beq_one hc)), if_pos hc]

@[simp] theorem shape_zero : (const 0 : Expr α).shape = .zero :=
  if_pos LawfulCoefficient.zero_beq_zero

@[simp] theorem shape_one : (const 1 : Expr α).shape = .one := shape_of_isOne isOne_one

theorem isZero_pruneAdd : (pruneAdd l p).isZero = (l.isZero && p.isZero) := by
  rw [pruneAdd]
  split_ifs <;> simp_all

theorem isOne_pruneAdd :
    (pruneAdd l p).isOne = (l.isZero && p.isOne || l.isOne && p.isZero) := by
  rw [pruneAdd]
  split_ifs with hboth hl hp
  · rw [Bool.and_eq_true] at hboth
    simp [isOne_of_isZero hboth.1, isOne_of_isZero hboth.2]
  · simp [hl, isOne_of_isZero hl]
  · simp [hl, hp]
  · simp [hl, hp]

theorem isZero_pruneMul : (pruneMul l p).isZero = (l.isZero || p.isZero) := by
  rw [pruneMul]
  split_ifs <;> simp_all

theorem isOne_pruneMul : (pruneMul l p).isOne = (l.isOne && p.isOne) := by
  rw [pruneMul]
  split_ifs with hzero hl hp
  · rcases (Bool.or_eq_true _ _).mp hzero with h | h <;> simp [isOne_of_isZero h]
  · simp [hl]
  · simp [hl, hp]
  · simp [hl]

theorem isZero_of_prunePow? (h : prunePow? b k = some s) : s.isZero = b.isZero := by
  rw [prunePow?] at h
  split_ifs at h with hboth hk hb hone
  · obtain rfl := Option.some.inj h
    simp_all
  · obtain rfl := Option.some.inj h
    simp [hb]
  · obtain rfl := Option.some.inj h
    rfl
  · obtain rfl := Option.some.inj h
    simp [hb]

omit [LawfulCoefficient α] in
theorem prunePow?_eq_none_iff : prunePow? b k = none ↔ k.isZero = true ∧ b.isZero = true := by
  rw [prunePow?, ← Bool.and_eq_true]
  split_ifs with hboth <;> simp [hboth]

omit [LawfulCoefficient α] in
theorem not_isZero_of_prunePow? (h : prunePow? b k = some s) :
    ¬ (k.isZero = true ∧ b.isZero = true) := fun hboth =>
  nomatch (prunePow?_eq_none_iff.mpr hboth).symm.trans h

theorem isOne_of_prunePow? (h : prunePow? b k = some s) :
    s.isOne = (k.isZero || k.isOne && b.isOne) := by
  rw [prunePow?] at h
  split_ifs at h with hboth hk hb hone
  · obtain rfl := Option.some.inj h
    simp [hk]
  · obtain rfl := Option.some.inj h
    simp [hk, isOne_of_isZero hb]
  · obtain rfl := Option.some.inj h
    simp [hk, hone]
  · obtain rfl := Option.some.inj h
    simp [hk, hone]

theorem shape_pruneAdd (hl : l.isZero = true → l.shape = .zero)
    (hp : p.isZero = true → p.shape = .zero) : (pruneAdd l p).shape = l.shape.add p.shape := by
  rw [pruneAdd]
  split_ifs with hboth hlz hpz
  · rw [Bool.and_eq_true] at hboth
    rw [hl hboth.1, hp hboth.2, shape_zero, Shape.zero_add]
  · rw [hl hlz, Shape.zero_add]
  · rw [hp hpz, Shape.add_zero]
  · rfl

theorem shape_pruneMul (hl : l.isZero = true → l.shape = .zero)
    (hp : p.isZero = true → p.shape = .zero) : (pruneMul l p).shape = l.shape.mul p.shape := by
  rw [pruneMul]
  split_ifs with hzero hlo hpo
  · rw [shape_zero]
    rcases (Bool.or_eq_true _ _).mp hzero with h | h
    · rw [hl h, Shape.zero_mul]
    · rw [hp h, Shape.mul_zero]
  · rw [shape_of_isOne hlo, Shape.one_mul]
  · rw [shape_of_isOne hpo, Shape.mul_one]
  · rfl

/-- Unlike sums and products, a power keeps its shape only when both operands show it: a hidden
zero in the base would stay hidden, and be lost to an exponent that is seen to be zero. -/
theorem shape_of_prunePow? (hb : b.isZero = true ↔ b.shape = .zero)
    (hk : k.isZero = true ↔ k.shape = .zero) (h : prunePow? b k = some s) :
    s.shape = b.shape.pow k.shape := by
  rw [prunePow?] at h
  split_ifs at h with hboth hkz hbz hone
  · obtain rfl := Option.some.inj h
    rw [hk.mp hkz, Shape.pow_zero, shape_one]
  · obtain rfl := Option.some.inj h
    rw [Shape.pow_of_ne_zero (mt hk.mpr hkz), hb.mp hbz, shape_zero]
  · obtain rfl := Option.some.inj h
    rw [Shape.pow_of_ne_zero (mt hk.mpr hkz)]
  · obtain rfl := Option.some.inj h
    rfl

omit [LawfulCoefficient α] in
theorem prunePow?_eq_some (h : prunePow? b k = some s) :
    s = const 0 ∨ s = const 1 ∨ s = b ∨ s = pow b k :=
  prunePow?_cases (motive := fun s => s = const 0 ∨ s = const 1 ∨ s = b ∨ s = pow b k) h
    (.inl rfl) (.inr (.inl rfl)) (.inr (.inr (.inl rfl))) (.inr (.inr (.inr rfl)))

end Nodes

/-! ### Conditions on all parts -/

/-- A condition holds of the expression and of all its parts. -/
def Everywhere (φ : Expr α → Prop) (e : Expr α) : Prop := ∀ g ∈ e.nodes, φ g

section Everywhere

variable {φ : Expr α → Prop}

omit [Coefficient α]

theorem everywhere_add :
    (add l p).Everywhere φ ↔ φ (add l p) ∧ l.Everywhere φ ∧ p.Everywhere φ := by
  simp only [Everywhere, nodes, List.forall_mem_cons, List.forall_mem_append]

theorem everywhere_mul :
    (mul l p).Everywhere φ ↔ φ (mul l p) ∧ l.Everywhere φ ∧ p.Everywhere φ := by
  simp only [Everywhere, nodes, List.forall_mem_cons, List.forall_mem_append]

theorem everywhere_pow :
    (pow b k).Everywhere φ ↔ φ (pow b k) ∧ b.Everywhere φ ∧ k.Everywhere φ := by
  simp only [Everywhere, nodes, List.forall_mem_cons, List.forall_mem_append]

theorem everywhere_log : (log f).Everywhere φ ↔ φ (log f) ∧ f.Everywhere φ := by
  simp only [Everywhere, nodes, List.forall_mem_cons]

theorem everywhere_sin : (sin f).Everywhere φ ↔ φ (sin f) ∧ f.Everywhere φ := by
  simp only [Everywhere, nodes, List.forall_mem_cons]

theorem everywhere_cos : (cos f).Everywhere φ ↔ φ (cos f) ∧ f.Everywhere φ := by
  simp only [Everywhere, nodes, List.forall_mem_cons]

theorem everywhere_const {c : α} : (const c).Everywhere φ ↔ φ (const c) := by
  simp only [Everywhere, nodes, List.forall_mem_singleton]

theorem everywhere_var {y : String} : (var y : Expr α).Everywhere φ ↔ φ (var y) := by
  simp only [Everywhere, nodes, List.forall_mem_singleton]

/-- A condition on the parts of the logarithm of a power, after that is taken apart. -/
theorem Everywhere.mul_log (he : (log (pow b k)).Everywhere φ) (hmul : φ (mul k (log b)))
    (hlog : φ (log b)) : (mul k (log b)).Everywhere φ := by
  obtain ⟨-, hb, hk⟩ := everywhere_pow.mp (everywhere_log.mp he).2
  exact everywhere_mul.mpr ⟨hmul, hk, everywhere_log.mpr ⟨hlog, hb⟩⟩

/-- A condition on the parts of the logarithm of a product, after that is taken apart. -/
theorem Everywhere.add_log (he : (log (mul l p)).Everywhere φ) (hadd : φ (add (log l) (log p)))
    (hl : φ (log l)) (hp : φ (log p)) : (add (log l) (log p)).Everywhere φ := by
  obtain ⟨-, hel, hep⟩ := everywhere_mul.mp (everywhere_log.mp he).2
  exact everywhere_add.mpr ⟨hadd, everywhere_log.mpr ⟨hl, hel⟩, everywhere_log.mpr ⟨hp, hep⟩⟩

theorem Everywhere.mono {ψ : Expr α → Prop} (he : e.Everywhere φ) (h : ∀ g, φ g → ψ g) :
    e.Everywhere ψ := fun g hg => h g (he g hg)

theorem Everywhere.part (he : e.Everywhere φ) (hf : f ∈ e.nodes) : f.Everywhere φ :=
  fun g hg => he g (nodes_subset hf hg)

variable [Coefficient α]

theorem Everywhere.pruneAdd (hl : l.Everywhere φ) (hp : p.Everywhere φ) (hzero : φ (const 0))
    (hadd : φ (add l p)) : (pruneAdd l p).Everywhere φ :=
  pruneAdd_cases (everywhere_const.mpr hzero) hl hp (everywhere_add.mpr ⟨hadd, hl, hp⟩)

theorem Everywhere.pruneMul (hl : l.Everywhere φ) (hp : p.Everywhere φ) (hzero : φ (const 0))
    (hmul : φ (mul l p)) : (pruneMul l p).Everywhere φ :=
  pruneMul_cases (everywhere_const.mpr hzero) hl hp (everywhere_mul.mpr ⟨hmul, hl, hp⟩)

theorem Everywhere.of_prunePow? (hb : b.Everywhere φ) (hk : k.Everywhere φ)
    (h : prunePow? b k = some s) (hzero : φ (const 0)) (hone : φ (const 1))
    (hpow : prunePow? b k = some (pow b k) → φ (pow b k)) : s.Everywhere φ := by
  rcases prunePow?_eq_some h with rfl | rfl | rfl | rfl
  · exact everywhere_const.mpr hzero
  · exact everywhere_const.mpr hone
  · exact hb
  · exact everywhere_pow.mpr ⟨hpow h, hb, hk⟩

end Everywhere

/-- No power in the expression has a base that is pruned to the literal one. -/
def OneFree : Expr α → Prop :=
  Everywhere fun
    | pow b _ => ∀ b', simplify? b = some b' → b'.isOne = false
    | _ => True

/-- No logarithm in the expression is taken of something with a power of one in it. -/
def LogsOneFree : Expr α → Prop :=
  Everywhere fun
    | log f => f.OneFree
    | _ => True

/-- No logarithm inside a power is taken of something with a power of one in it. -/
def Steady : Expr α → Prop :=
  Everywhere fun
    | pow b k => b.LogsOneFree ∧ k.LogsOneFree
    | _ => True

theorem OneFree.logsOneFree (he : e.OneFree) : e.LogsOneFree := by
  intro g hg
  cases g with
  | log f => exact he.part (nodes_subset hg (by simp [nodes]))
  | _ => trivial

theorem LogsOneFree.steady (he : e.LogsOneFree) : e.Steady := by
  intro g hg
  cases g with
  | pow b k =>
    exact ⟨he.part (nodes_subset hg (by simp [nodes])),
      he.part (nodes_subset hg (by simp [nodes]))⟩
  | _ => trivial

/-! ### What pruning makes of the shape -/

/-- The pruned expression `s` has the shape of `e`, and shows it where no power of one is hidden
in `e`. -/
structure Faithful (e s : Expr α) : Prop where
  shape : s.shape = e.shape
  shape_of_isZero : s.isZero = true → s.shape = .zero
  isZero : e.LogsOneFree → e.shape = .zero → s.isZero = true
  isOne : e.OneFree → e.shape = .one → s.isOne = true

section Faithful

theorem Faithful.isZero_iff (h : Faithful e s) (he : e.LogsOneFree) :
    s.isZero = true ↔ s.shape = .zero :=
  ⟨h.shape_of_isZero, fun hs => h.isZero he (h.shape.symm.trans hs)⟩

/-- An expression that is pruned as another one, of the same shape, is. -/
theorem Faithful.of_rewritten (h : Faithful f s) (hshape : e.shape = f.shape)
    (hlogs : e.LogsOneFree → f.LogsOneFree) (hone : e.OneFree → f.OneFree) : Faithful e s where
  shape := h.shape.trans hshape.symm
  shape_of_isZero := h.shape_of_isZero
  isZero he hs := h.isZero (hlogs he) (hshape.symm.trans hs)
  isOne he hs := h.isOne (hone he) (hshape.symm.trans hs)

theorem Faithful.const (c : α) : Faithful (const c) (const c) where
  shape := rfl
  shape_of_isZero h := if_pos h
  isZero _ h := by
    rw [Expr.shape] at h
    split_ifs at h with hc
    exact hc
  isOne _ h := by
    rw [Expr.shape] at h
    split_ifs at h with hc hc
    exact hc

theorem Faithful.var (y : String) : Faithful (var y : Expr α) (var y) where
  shape := rfl
  shape_of_isZero := nofun
  isZero := nofun
  isOne := nofun

theorem Faithful.sin (hf : Faithful f f') : Faithful (sin f) (sin f') where
  shape := congrArg Shape.sin hf.shape
  shape_of_isZero h := Shape.sin_eq_zero.mpr (hf.shape_of_isZero h)
  isZero he h := hf.isZero (everywhere_sin.mp he).2 (Shape.sin_eq_zero.mp h)
  isOne _ h := absurd h Shape.sin_ne_one

theorem Faithful.cos (f f' : Expr α) : Faithful (cos f) (cos f') where
  shape := rfl
  shape_of_isZero := nofun
  isZero := nofun
  isOne := nofun

variable [LawfulCoefficient α]

theorem Faithful.add (hl : Faithful l l') (hp : Faithful p p') :
    Faithful (add l p) (pruneAdd l' p') where
  shape := by
    rw [shape_pruneAdd hl.shape_of_isZero hp.shape_of_isZero, hl.shape, hp.shape, Expr.shape]
  shape_of_isZero h := by
    rw [isZero_pruneAdd, Bool.and_eq_true] at h
    rw [shape_pruneAdd hl.shape_of_isZero hp.shape_of_isZero]
    exact Shape.add_eq_zero.mpr ⟨hl.shape_of_isZero h.1, hp.shape_of_isZero h.2⟩
  isZero he h := by
    obtain ⟨-, hel, hep⟩ := everywhere_add.mp he
    obtain ⟨hlz, hpz⟩ := Shape.add_eq_zero.mp h
    rw [isZero_pruneAdd, hl.isZero hel hlz, hp.isZero hep hpz, Bool.and_true]
  isOne he h := by
    obtain ⟨-, hel, hep⟩ := everywhere_add.mp he
    rw [isOne_pruneAdd, Bool.or_eq_true, Bool.and_eq_true, Bool.and_eq_true]
    rcases Shape.add_eq_one.mp h with ⟨hlz, hpo⟩ | ⟨hlo, hpz⟩
    · exact .inl ⟨hl.isZero (OneFree.logsOneFree hel) hlz, hp.isOne hep hpo⟩
    · exact .inr ⟨hl.isOne hel hlo, hp.isZero (OneFree.logsOneFree hep) hpz⟩

theorem Faithful.mul (hl : Faithful l l') (hp : Faithful p p') :
    Faithful (mul l p) (pruneMul l' p') where
  shape := by
    rw [shape_pruneMul hl.shape_of_isZero hp.shape_of_isZero, hl.shape, hp.shape, Expr.shape]
  shape_of_isZero h := by
    rw [isZero_pruneMul, Bool.or_eq_true] at h
    rw [shape_pruneMul hl.shape_of_isZero hp.shape_of_isZero]
    exact Shape.mul_eq_zero.mpr (h.imp hl.shape_of_isZero hp.shape_of_isZero)
  isZero he h := by
    obtain ⟨-, hel, hep⟩ := everywhere_mul.mp he
    rw [isZero_pruneMul, Bool.or_eq_true]
    exact (Shape.mul_eq_zero.mp h).imp (hl.isZero hel) (hp.isZero hep)
  isOne he h := by
    obtain ⟨-, hel, hep⟩ := everywhere_mul.mp he
    obtain ⟨hlo, hpo⟩ := Shape.mul_eq_one.mp h
    rw [isOne_pruneMul, hl.isOne hel hlo, hp.isOne hep hpo, Bool.and_true]

theorem Faithful.pow (hpruned : simplify? b = some b') (hb : Faithful b b') (hk : Faithful k k')
    (hbl : b.LogsOneFree) (hkl : k.LogsOneFree) (h : prunePow? b' k' = some s) :
    Faithful (pow b k) s := by
  have hshape := shape_of_prunePow? (hb.isZero_iff hbl) (hk.isZero_iff hkl) h
  refine ⟨?shape, ?shape_of_isZero, ?isZero, ?isOne⟩
  case shape => rw [hshape, hb.shape, hk.shape, Expr.shape]
  case shape_of_isZero =>
    intro hz
    have hbz : b'.isZero = true := (isZero_of_prunePow? h).symm.trans hz
    rw [hshape, Shape.pow_eq_zero, ← hb.isZero_iff hbl, Ne, ← hk.isZero_iff hkl]
    exact ⟨hbz, fun hkz => not_isZero_of_prunePow? h ⟨hkz, hbz⟩⟩
  case isZero =>
    intro _ hz
    rw [isZero_of_prunePow? h]
    exact hb.isZero hbl (Shape.pow_eq_zero.mp hz).1
  case isOne =>
    intro he ho
    obtain ⟨hone, heb, -⟩ := everywhere_pow.mp he
    rcases Shape.pow_eq_one.mp ho with hkz | hbo
    · rw [isOne_of_prunePow? h, hk.isZero hkl hkz, Bool.true_or]
    · exact absurd (hb.isOne heb hbo) (Bool.eq_false_iff.mp (hone b' hpruned))

theorem Faithful.log (hf : Faithful f f') : Faithful (log f) (log f') where
  shape := congrArg Shape.log hf.shape
  shape_of_isZero h := Shape.log_eq_zero.mpr (shape_of_isOne h)
  isZero he h := hf.isOne (everywhere_log.mp he).1 (Shape.log_eq_zero.mp h)
  isOne _ h := absurd h Shape.log_ne_one

/-- Pruning keeps the shape, and brings it out where no power of one is hidden. -/
theorem Steady.faithful (he : e.Steady) (h : simplify? e = some s) : Faithful e s := by
  refine simplify_induction (P := fun e s => e.Steady → Faithful e s) ?const ?var ?add ?mul ?pow
    ?logOfPow ?logOfMul ?logOfOther ?sin ?cos h he
  case const => exact fun c _ => Faithful.const c
  case var => exact fun y _ => Faithful.var y
  case add =>
    intro l p l' p' ihl ihp he
    obtain ⟨-, hel, hep⟩ := everywhere_add.mp he
    exact (ihl hel).add (ihp hep)
  case mul =>
    intro l p l' p' ihl ihp he
    obtain ⟨-, hel, hep⟩ := everywhere_mul.mp he
    exact (ihl hel).mul (ihp hep)
  case pow =>
    intro b k b' k' s hb _ ihb ihk hs he
    obtain ⟨⟨hbl, hkl⟩, heb, hek⟩ := everywhere_pow.mp he
    exact .pow hb (ihb heb) (ihk hek) hbl hkl hs
  case logOfPow =>
    intro b k s ih he
    refine (ih (.mul_log he trivial trivial)).of_rewritten (Shape.log_pow _ _)
      (fun he => .mul_log he trivial ?_) fun he => .mul_log he trivial trivial
    exact (everywhere_pow.mp (everywhere_log.mp he).1).2.1
  case logOfMul =>
    intro p q s ih he
    refine (ih (.add_log he trivial trivial trivial)).of_rewritten (Shape.log_mul _ _)
      (fun he => ?_) fun he => .add_log he trivial trivial trivial
    obtain ⟨-, hp, hq⟩ := everywhere_mul.mp (everywhere_log.mp he).1
    exact .add_log he trivial hp hq
  case logOfOther => exact fun f f' _ _ _ ih he => (ih (everywhere_log.mp he).2).log
  case sin => exact fun f f' ih he => (ih (everywhere_sin.mp he).2).sin
  case cos => exact fun f f' _ _ => Faithful.cos f f'

end Faithful

/-! ### Where the parts of a pruned expression come from -/

/-- Where a part of what `e` is pruned to comes from: a power is what a power in `e` was pruned
to, and the operand of a logarithm what some part of the operand of a logarithm in `e` was pruned
to. -/
def Origin (e : Expr α) : Expr α → Prop
  | pow c m => ∃ b k, pow b k ∈ e.nodes ∧ simplify? b = some c ∧ simplify? k = some m ∧
      prunePow? c m = some (pow c m)
  | log g => ∃ f h, log h ∈ e.nodes ∧ f ∈ h.nodes ∧ simplify? f = some g
  | _ => True

theorem Origin.mono {g : Expr α} (h : Origin e g)
    (hpow : ∀ b k, pow b k ∈ e.nodes → pow b k ∈ f.nodes)
    (hlog : ∀ u, log u ∈ e.nodes → ∃ v, log v ∈ f.nodes ∧ u ∈ v.nodes) : Origin f g := by
  cases g with
  | pow c m =>
    obtain ⟨b, k, hmem, hpruned⟩ := h
    exact ⟨b, k, hpow b k hmem, hpruned⟩
  | log g =>
    obtain ⟨w, u, hmem, hw, hpruned⟩ := h
    obtain ⟨v, hv, hu⟩ := hlog u hmem
    exact ⟨w, v, hv, nodes_subset hu hw, hpruned⟩
  | _ => trivial

theorem Origin.of_subset {g : Expr α} (hsub : e.nodes ⊆ f.nodes) (h : Origin e g) :
    Origin f g :=
  h.mono (fun _ _ hmem => hsub hmem) fun u hmem => ⟨u, hsub hmem, mem_nodes_self u⟩

theorem everywhere_origin (h : simplify? e = some s) : s.Everywhere (Origin e) := by
  refine simplify_induction (P := fun e s => s.Everywhere (Origin e)) ?const ?var ?add ?mul ?pow
    ?logOfPow ?logOfMul ?logOfOther ?sin ?cos h
  case const => exact fun c => everywhere_const.mpr trivial
  case var => exact fun y => everywhere_var.mpr trivial
  case add =>
    intro l p l' p' ihl ihp
    exact .pruneAdd (ihl.mono fun g => .of_subset (by simp [nodes]))
      (ihp.mono fun g => .of_subset (by simp [nodes])) trivial trivial
  case mul =>
    intro l p l' p' ihl ihp
    exact .pruneMul (ihl.mono fun g => .of_subset (by simp [nodes]))
      (ihp.mono fun g => .of_subset (by simp [nodes])) trivial trivial
  case pow =>
    intro b k b' k' s hb hk ihb ihk hs
    exact .of_prunePow? (ihb.mono fun g => .of_subset (by simp [nodes]))
      (ihk.mono fun g => .of_subset (by simp [nodes])) hs trivial trivial
      fun hnode => ⟨b, k, mem_nodes_self _, hb, hk, hnode⟩
  case logOfPow =>
    intro b k s ih
    refine ih.mono fun g hg => hg.mono (fun c m hmem => ?_) fun u hu => ?_
    · simp only [nodes, List.mem_cons, List.mem_append, reduceCtorEq, false_or] at hmem ⊢
      exact .inr hmem.symm
    · simp only [nodes, List.mem_cons, List.mem_append, reduceCtorEq, false_or, log.injEq] at hu
      rcases hu with hu | rfl | hu
      · exact ⟨u, by simp [nodes, hu], mem_nodes_self u⟩
      · exact ⟨_, mem_nodes_self _, by simp [nodes]⟩
      · exact ⟨u, by simp [nodes, hu], mem_nodes_self u⟩
  case logOfMul =>
    intro p q s ih
    refine ih.mono fun g hg => hg.mono (fun c m hmem => ?_) fun u hu => ?_
    · simpa only [nodes, List.mem_cons, List.mem_append, reduceCtorEq, false_or] using hmem
    · simp only [nodes, List.mem_cons, List.mem_append, reduceCtorEq, false_or, log.injEq] at hu
      rcases hu with (rfl | hu) | rfl | hu
      · exact ⟨_, mem_nodes_self _, by simp [nodes]⟩
      · exact ⟨u, by simp [nodes, hu], mem_nodes_self u⟩
      · exact ⟨_, mem_nodes_self _, by simp [nodes]⟩
      · exact ⟨u, by simp [nodes, hu], mem_nodes_self u⟩
  case logOfOther =>
    intro f f' _ _ hf ih
    exact everywhere_log.mpr ⟨⟨f, f, mem_nodes_self _, mem_nodes_self f, hf⟩,
      ih.mono fun g => .of_subset (by simp [nodes])⟩
  case sin =>
    exact fun f f' ih =>
      everywhere_sin.mpr ⟨trivial, ih.mono fun g => .of_subset (by simp [nodes])⟩
  case cos =>
    exact fun f f' ih =>
      everywhere_cos.mpr ⟨trivial, ih.mono fun g => .of_subset (by simp [nodes])⟩

section

variable [LawfulCoefficient α]

/-- Pruning hides no power of one: a base that shows a one when it is pruned again has shown it
before. -/
theorem OneFree.of_simplify? (he : e.OneFree) (h : simplify? e = some s) : s.OneFree := by
  refine simplify_induction (P := fun e s => e.OneFree → s.OneFree) ?const ?var ?add ?mul ?pow
    ?logOfPow ?logOfMul ?logOfOther ?sin ?cos h he
  case const => exact fun c _ => everywhere_const.mpr trivial
  case var => exact fun y _ => everywhere_var.mpr trivial
  case add =>
    intro l p l' p' ihl ihp he
    obtain ⟨-, hel, hep⟩ := everywhere_add.mp he
    exact .pruneAdd (ihl hel) (ihp hep) trivial trivial
  case mul =>
    intro l p l' p' ihl ihp he
    obtain ⟨-, hel, hep⟩ := everywhere_mul.mp he
    exact .pruneMul (ihl hel) (ihp hep) trivial trivial
  case pow =>
    intro b k b' k' s hb hk ihb ihk hs he
    obtain ⟨hone, heb, hek⟩ := everywhere_pow.mp he
    refine .of_prunePow? (ihb heb) (ihk hek) hs trivial trivial fun _ b'' hb'' => ?_
    have hfaithful := (OneFree.logsOneFree heb).steady.faithful hb
    have hagain := (ihb heb).logsOneFree.steady.faithful hb''
    by_contra hshown
    have hshape : b.shape = .one := by
      rw [← hfaithful.shape, ← hagain.shape]
      exact shape_of_isOne (Bool.not_eq_false _ ▸ hshown)
    exact absurd (hfaithful.isOne heb hshape) (Bool.eq_false_iff.mp (hone b' hb))
  case logOfPow => exact fun b k s ih he => ih (.mul_log he trivial trivial)
  case logOfMul => exact fun p q s ih he => ih (.add_log he trivial trivial trivial)
  case logOfOther =>
    exact fun f f' _ _ _ ih he => everywhere_log.mpr ⟨trivial, ih (everywhere_log.mp he).2⟩
  case sin => exact fun f f' ih he => everywhere_sin.mpr ⟨trivial, ih (everywhere_sin.mp he).2⟩
  case cos => exact fun f f' ih he => everywhere_cos.mpr ⟨trivial, ih (everywhere_cos.mp he).2⟩

theorem LogsOneFree.of_simplify? (he : e.LogsOneFree) (h : simplify? e = some s) :
    s.LogsOneFree := by
  intro g hg
  have horigin := everywhere_origin h g hg
  cases g with
  | log g =>
    obtain ⟨f, u, hu, hf, hpruned⟩ := horigin
    exact OneFree.of_simplify? (Everywhere.part (he (log u) hu) hf) hpruned
  | _ => trivial

/-- Where no power of one is hidden, pruning again finds no other zeros. -/
theorem LogsOneFree.isZero_iff (he : e.LogsOneFree) (h : simplify? e = some s)
    (hagain : simplify? s = some t) : t.isZero = true ↔ s.isZero = true := by
  have hfaithful := he.steady.faithful h
  have hs := he.of_simplify? h
  have ht := hs.steady.faithful hagain
  rw [ht.isZero_iff hs, hfaithful.isZero_iff he, ht.shape]

end

end Expr

end Fluxion
