import Fluxion.Proofs.Pruning

/-!
# Where derivatives are defined

A derivative may be undefined although the expression is defined: the general rule for a power
takes the logarithm of the base, and the derivative of `b ^ k` for a constant `k` has the base to
the power `k - 1`. Both are fine over positive bases. Pruning must not spoil this either, so the
operands of logarithms are kept so simple that no logarithm is ever taken apart.

## Main definitions

* `Expr.Simple` — no product, power or logarithm occurs
* `Expr.Tame` — bases and operands of logarithms are positive, the latter simple

## Main results

* `Expr.tame_of_nodes` — the same said of all parts of an expression
* `Expr.exists_diff?_of_tame` — the derivative of a tame expression exists and is defined
-/

namespace Fluxion

namespace Expr

variable {x : String} {r : String → ℝ} {b k e f s : Expr ℝ}

/-- No product, power or logarithm occurs in the expression. -/
def Simple : Expr ℝ → Prop
  | const _ | var _ => True
  | add l p => l.Simple ∧ p.Simple
  | sin f | cos f => f.Simple
  | mul _ _ | pow _ _ | log _ => False

/-- All bases of powers and all operands of logarithms are positive, and the operands of
logarithms are simple. -/
def Tame (r : String → ℝ) : Expr ℝ → Prop
  | const _ | var _ => True
  | add l p | mul l p => l.Tame r ∧ p.Tame r
  | pow b k => b.Tame r ∧ k.Tame r ∧ 0 < b.value r
  | log f => f.Simple ∧ 0 < f.value r
  | sin f | cos f => f.Tame r

theorem Simple.tame (h : e.Simple) : e.Tame r := by
  induction e with
  | const c => trivial
  | var x => trivial
  | add l p ihl ihp => exact ⟨ihl h.1, ihp h.2⟩
  | sin f ih | cos f ih => exact ih h
  | mul | pow | log => exact h.elim

theorem Tame.defined (h : e.Tame r) : e.Defined (Set.Ioi 0) r := by
  induction e with
  | const c => trivial
  | var x => trivial
  | add l p ihl ihp | mul l p ihl ihp => exact ⟨ihl h.1, ihp h.2⟩
  | pow b k ihb ihk => exact ⟨ihb h.1, ihk h.2.1, .inl h.2.2⟩
  | log f ih => exact ⟨ih h.1.tame, h.2⟩
  | sin f ih | cos f ih => exact ih h

/-! ### Tameness read off the parts -/

theorem simple_of_nodes
    (h : ∀ g ∈ e.nodes, (∀ p q, g ≠ mul p q) ∧ (∀ b k, g ≠ pow b k) ∧ ∀ u, g ≠ log u) :
    e.Simple := by
  have hpart : ∀ g : Expr ℝ, g ∈ e.nodes → g.Simple := by
    intro g hg
    induction g with
    | const c => trivial
    | var x => trivial
    | add l p ihl ihp =>
      exact ⟨ihl (nodes_subset hg (by simp [nodes])), ihp (nodes_subset hg (by simp [nodes]))⟩
    | mul p q => exact absurd rfl ((h _ hg).1 p q)
    | pow b k => exact absurd rfl ((h _ hg).2.1 b k)
    | log u => exact absurd rfl ((h _ hg).2.2 u)
    | sin f ih | cos f ih => exact ih (nodes_subset hg (by simp [nodes]))
  exact hpart e (mem_nodes_self e)

theorem tame_of_nodes (hlog : ∀ f, log f ∈ e.nodes → f.Simple ∧ 0 < f.value r)
    (hbase : ∀ b k, pow b k ∈ e.nodes → 0 < b.value r) : e.Tame r := by
  have hpart : ∀ g : Expr ℝ, g ∈ e.nodes → g.Tame r := by
    intro g hg
    induction g with
    | const c => trivial
    | var x => trivial
    | add l p ihl ihp | mul l p ihl ihp =>
      exact ⟨ihl (nodes_subset hg (by simp [nodes])), ihp (nodes_subset hg (by simp [nodes]))⟩
    | pow b k ihb ihk =>
      exact ⟨ihb (nodes_subset hg (by simp [nodes])), ihk (nodes_subset hg (by simp [nodes])),
        hbase b k hg⟩
    | log f => exact hlog f hg
    | sin f ih | cos f ih => exact ih (nodes_subset hg (by simp [nodes]))
  exact hpart e (mem_nodes_self e)

/-! ### Pruning tame expressions -/

theorem Simple.simplify? (he : e.Simple) (h : e.simplify? = some s) : s.Simple := by
  refine simplify_induction (P := fun e s => e.Simple → s.Simple) ?const ?var ?add ?mul ?pow
    ?logOfPow ?logOfMul ?logOfOther ?sin ?cos h he
  case const => exact fun c _ => trivial
  case var => exact fun y _ => trivial
  case add =>
    intro l p l' p' ihl ihp he
    have hl := ihl he.1
    have hp := ihp he.2
    exact pruneAdd_cases trivial hl hp ⟨hl, hp⟩
  case sin | cos => exact fun f f' ih he => ih he
  case mul => exact fun l p l' p' _ _ he => he.elim
  case pow => exact fun b k b' k' s _ _ _ _ _ he => he.elim
  case logOfPow => exact fun b k s _ he => he.elim
  case logOfMul => exact fun p q s _ he => he.elim
  case logOfOther => exact fun f f' _ _ _ _ he => he.elim

/-- Pruning keeps an expression tame: it keeps the values of bases and of operands of
logarithms. -/
theorem Tame.of_simplify? (he : e.Tame r) (h : e.simplify? = some s) : s.Tame r := by
  refine simplify_induction (P := fun e s => e.Tame r → s.Tame r) ?const ?var ?add ?mul ?pow
    ?logOfPow ?logOfMul ?logOfOther ?sin ?cos h he
  case const => exact fun c _ => trivial
  case var => exact fun y _ => trivial
  case add =>
    intro l p l' p' ihl ihp he
    have hl := ihl he.1
    have hp := ihp he.2
    exact pruneAdd_cases trivial hl hp ⟨hl, hp⟩
  case mul =>
    intro l p l' p' ihl ihp he
    have hl := ihl he.1
    have hp := ihp he.2
    exact pruneMul_cases trivial hl hp ⟨hl, hp⟩
  case pow =>
    intro b k b' k' s hb _ ihb ihk hs he
    have hb' := ihb he.1
    have hk' := ihk he.2.1
    have hvb := (simplify?_absolute hb he.1.defined.absolute).2
    exact prunePow?_cases hs trivial trivial hb' ⟨hb', hk', hvb ▸ he.2.2⟩
  case logOfPow => exact fun b k s _ he => he.1.elim
  case logOfMul => exact fun p q s _ he => he.1.elim
  case logOfOther =>
    intro f f' _ _ hf _ he
    have hvf := (simplify?_absolute (r := r) hf he.1.tame.defined.absolute).2
    exact ⟨he.1.simplify? hf, hvf ▸ he.2⟩
  case sin | cos => exact fun f f' ih he => ih he

theorem Tame.exists_simplify? (he : e.Tame r) :
    ∃ s, e.simplify? = some s ∧ s.Tame r ∧ s.value r = e.value r := by
  obtain ⟨s, hs, -, hv⟩ := Expr.exists_simplify? (.inl rfl) he.defined.absolute
  exact ⟨s, hs, he.of_simplify? hs, hv⟩

/-! ### Differentiating tame expressions -/

/-- The derivative exists and is defined at the assignment. -/
def HasDefinedDiff (x : String) (r : String → ℝ) (e : Expr ℝ) : Prop :=
  ∃ d, diff? x e = some d ∧ d.Defined (Set.Ioi 0) r

theorem exists_powRule? (hb : b.Tame r) (hk : k.Tame r) (hpos : 0 < b.value r)
    (hdb : HasDefinedDiff x r b) (hlog : HasDefinedDiff x r (log b))
    (hdk : HasDefinedDiff x r k) :
    ∃ d, powRule? x b k = some d ∧ d.Defined (Set.Ioi 0) r := by
  have hlogb : (log b).Defined (Set.Ioi 0) r := ⟨hb.defined, hpos⟩
  have hpow : (pow b k).Defined (Set.Ioi 0) r := ⟨hb.defined, hk.defined, .inl hpos⟩
  obtain ⟨b', hb', hdb'⟩ := hdb
  obtain ⟨l', hl', hdl'⟩ := hlog
  obtain ⟨k', hk', hdk'⟩ := hdk
  rw [powRule?]
  split_ifs with hconst
  · rw [hk', Option.map_some]
    refine ⟨_, rfl, ?_⟩
    split_ifs
    · trivial
    · exact ⟨hlogb, hpow, hdk'⟩
  · cases hn : k.constant? with
    | some n =>
      obtain rfl := eq_const_of_constant? hn
      rw [hb']
      exact ⟨_, rfl, trivial, ⟨hb.defined, trivial, .inl hpos⟩, hdb'⟩
    | none =>
      rw [diff?_mul, hl', Option.bind_some, hk']
      exact ⟨_, rfl, hpow, ⟨hdl', hk.defined⟩, hlogb, hdk'⟩

/-- The derivative of a tame expression exists and is defined, and so is the derivative of its
logarithm where its value is not zero. The logarithm itself need not be defined: the factors of a
positive product may be negative. -/
theorem exists_diff?_of_tame :
    (∀ e : Expr ℝ, e.Tame r → HasDefinedDiff x r e) ∧
      ∀ f : Expr ℝ, f.Tame r → f.value r ≠ 0 → HasDefinedDiff x r (log f) := by
  refine diff_induction ?const ?var ?add ?mul ?pow ?log ?sin ?cos ?logOfPow ?logOfMul
    ?logOfOther
  case const => exact fun c _ => ⟨const 0, by rw [diff?], trivial⟩
  case var => exact fun y _ => ⟨const (if y = x then 1 else 0), by rw [diff?], trivial⟩
  case add =>
    intro l p ihl ihp he
    obtain ⟨l', hl, hdl⟩ := ihl he.1
    obtain ⟨p', hp, hdp⟩ := ihp he.2
    exact ⟨add l' p', by rw [diff?_add, hl, hp]; rfl, hdl, hdp⟩
  case mul =>
    intro l p ihl ihp he
    obtain ⟨l', hl, hdl⟩ := ihl he.1
    obtain ⟨p', hp, hdp⟩ := ihp he.2
    exact ⟨add (mul l' p) (mul l p'), by rw [diff?_mul, hl, hp]; rfl,
      ⟨hdl, he.2.defined⟩, he.1.defined, hdp⟩
  case pow =>
    intro base exponent ihb ihk he
    obtain ⟨b, hb, htb, hvb⟩ := he.1.exists_simplify?
    obtain ⟨k, hk, htk, -⟩ := he.2.1.exists_simplify?
    obtain ⟨ihP, ihQ⟩ := ihb b hb
    have hpos : 0 < b.value r := hvb ▸ he.2.2
    obtain ⟨d, hd, hdd⟩ :=
      exists_powRule? htb htk hpos (ihP htb) (ihQ htb hpos.ne') (ihk k hk htk)
    exact ⟨d, by rw [diff?_pow, hb, hk]; exact hd, hdd⟩
  case log => exact fun f ih he => ih he.1.tame he.2.ne'
  case sin =>
    intro f ih he
    obtain ⟨f', hf, hdf⟩ := ih he
    exact ⟨mul (cos f) f', by rw [diff?_sin, hf]; rfl, Tame.defined he, hdf⟩
  case cos =>
    intro f ih he
    obtain ⟨f', hf, hdf⟩ := ih he
    exact ⟨mul (mul (sin f) (const (-1))) f', by rw [diff?_cos, hf]; rfl,
      ⟨Tame.defined he, trivial⟩, hdf⟩
  case logOfPow =>
    intro b k ihb ihk he _
    obtain ⟨l', hl, hdl⟩ := ihb he.1 he.2.2.ne'
    obtain ⟨k', hk, hdk⟩ := ihk he.2.1
    exact ⟨add (mul k' (log b)) (mul k l'), by rw [diff?_logOfPow, diff?_mul, hk, hl]; rfl,
      ⟨hdk, he.1.defined, he.2.2⟩, he.2.1.defined, hdl⟩
  case logOfMul =>
    intro p q ihp ihq he hne
    obtain ⟨p', hp, hdp⟩ := ihp he.1 (left_ne_zero_of_mul hne)
    obtain ⟨q', hq, hdq⟩ := ihq he.2 (right_ne_zero_of_mul hne)
    exact ⟨add p' q', by rw [diff?_logOfMul, diff?_add, hp, hq]; rfl, hdp, hdq⟩
  case logOfOther =>
    intro f hpow hmul ih he hne
    obtain ⟨f', hf, hdf⟩ := ih he
    exact ⟨mul f' (pow f (const (-1))), by rw [diff?_log hpow hmul, hf]; rfl, hdf,
      he.defined, trivial, powDefined_neg_one.mpr hne⟩

end Expr

end Fluxion
