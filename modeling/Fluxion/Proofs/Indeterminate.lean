import Fluxion.Proofs.FloatLaws

/-!
# When differentiation meets a zero to the power zero

Pruning gives up on a zero to the power zero, and differentiation prunes the operands of powers.
An expression that can be pruned need not have a derivative that can, for two reasons.

* The rule for a constant exponent makes `b ^ (n - 1)` out of `b ^ n`. At `n = 1` over a base such
  as `sin 0`, which has the shape of zero and is no constant, this is a zero to the power zero
  that was not there before.
* Operands that were pruned are pruned again, and a zero may show up that was hidden before.

Both happen in the powers that the rule for powers writes into the derivative, and nothing else goes
wrong: what else is in a derivative was in the expression before. So a derivative can be pruned just
when these powers can.

## Which powers matter

Differentiation goes on in the operands of a power after they were pruned, and in the logarithm of
a base. So the powers that matter are those of the expressions that it is called on, `Expr.Meets`,
and not all powers of the expression itself. In `2 ^ (sin 0 ^ 1)` the inner power is pruned away
before anything is done with it. And a power of a constant is dropped as a whole when its exponent
has a derivative with the shape of zero, with all powers that were written into that.

Where no logarithm hides a power of one, it is enough to look at the powers of the expression
itself, and only at their first pruning: `Expr.Clear`.

## Main definitions

* `Expr.Prunable` — pruning does not give up
* `Expr.PowerStep`, `Expr.Calls` — what differentiation is called on, and the powers that it writes
* `Expr.Meets` — the expressions that differentiation comes to in the end
* `Expr.Firm` — the power that is written can be pruned
* `Expr.HasPrunableDiff` — the derivative exists and can be pruned

## Main results

* `Expr.hasPrunableDiff_iff_calls` — one step of differentiation
* `Expr.hasPrunableDiff_iff_meets` — the derivative can be pruned just when all that is met is firm
* `Expr.Clear.hasPrunableDiff` — a condition on the powers of an expression that are seen at once
* `Expr.exists_prunable_diff?_iff` — both over floats
* `Expr.not_prunable_diff?` — neither part of that condition can be left out
-/

namespace Fluxion

namespace Expr

variable {α : Type} [Coefficient α] {x : String} {b k e f l p s w : Expr α}

/-! ### What can be pruned -/

/-- The expression can be pruned. -/
def Prunable (e : Expr α) : Prop := ∃ s, simplify? e = some s

section Prunable

theorem prunable_const (c : α) : (const c).Prunable := ⟨const c, by rw [simplify?]⟩

theorem prunable_var (y : String) : (var y : Expr α).Prunable := ⟨var y, by rw [simplify?]⟩

theorem prunable_add : (add l p).Prunable ↔ l.Prunable ∧ p.Prunable := by
  rw [Prunable, simplify?]
  constructor
  · rintro ⟨s, h⟩
    obtain ⟨l', hl, h⟩ := Option.bind_eq_some_iff.mp h
    obtain ⟨p', hp, -⟩ := Option.bind_eq_some_iff.mp h
    exact ⟨⟨l', hl⟩, p', hp⟩
  · rintro ⟨⟨l', hl⟩, p', hp⟩
    exact ⟨Expr.pruneAdd l' p', by rw [hl, hp]; rfl⟩

theorem prunable_mul : (mul l p).Prunable ↔ l.Prunable ∧ p.Prunable := by
  rw [Prunable, simplify?]
  constructor
  · rintro ⟨s, h⟩
    obtain ⟨l', hl, h⟩ := Option.bind_eq_some_iff.mp h
    obtain ⟨p', hp, -⟩ := Option.bind_eq_some_iff.mp h
    exact ⟨⟨l', hl⟩, p', hp⟩
  · rintro ⟨⟨l', hl⟩, p', hp⟩
    exact ⟨Expr.pruneMul l' p', by rw [hl, hp]; rfl⟩

theorem prunable_pow : (pow b k).Prunable ↔ ∃ b' k', simplify? b = some b' ∧
    simplify? k = some k' ∧ ¬ (k'.isZero = true ∧ b'.isZero = true) := by
  rw [Prunable, simplify?]
  constructor
  · rintro ⟨s, h⟩
    obtain ⟨b', hb, h⟩ := Option.bind_eq_some_iff.mp h
    obtain ⟨k', hk, h⟩ := Option.bind_eq_some_iff.mp h
    exact ⟨b', k', hb, hk, not_isZero_of_prunePow? h⟩
  · rintro ⟨b', k', hb, hk, hzero⟩
    obtain ⟨s, hs⟩ := Option.ne_none_iff_exists'.mp (mt prunePow?_eq_none_iff.mp hzero)
    exact ⟨s, by rw [hb, hk]; exact hs⟩

theorem prunable_sin : (sin f).Prunable ↔ f.Prunable := by
  rw [Prunable, simplify?]
  constructor
  · rintro ⟨s, h⟩
    obtain ⟨f', hf, -⟩ := Option.bind_eq_some_iff.mp h
    exact ⟨f', hf⟩
  · rintro ⟨f', hf⟩
    exact ⟨sin f', by rw [hf]; rfl⟩

theorem prunable_cos : (cos f).Prunable ↔ f.Prunable := by
  rw [Prunable, simplify?]
  constructor
  · rintro ⟨s, h⟩
    obtain ⟨f', hf, -⟩ := Option.bind_eq_some_iff.mp h
    exact ⟨f', hf⟩
  · rintro ⟨f', hf⟩
    exact ⟨cos f', by rw [hf]; rfl⟩

theorem prunable_logOfPow : (log (pow b k)).Prunable ↔ k.Prunable ∧ (log b).Prunable := by
  rw [← prunable_mul, Prunable, simplify?, Prunable]

theorem prunable_logOfMul :
    (log (mul l p)).Prunable ↔ (log l).Prunable ∧ (log p).Prunable := by
  rw [← prunable_add, Prunable, simplify?, Prunable]

theorem prunable_log (hpow : ∀ b k, f ≠ pow b k) (hmul : ∀ l p, f ≠ mul l p) :
    (log f).Prunable ↔ f.Prunable := by
  rw [Prunable, simplify?_log hpow hmul]
  constructor
  · rintro ⟨s, h⟩
    obtain ⟨f', hf, -⟩ := Option.map_eq_some_iff.mp h
    exact ⟨f', hf⟩
  · rintro ⟨f', hf⟩
    exact ⟨log f', by rw [hf]; rfl⟩

/-- The logarithm of what can be pruned can be pruned. The converse fails: `log (0 ^ 0)` is
pruned as `0 * log 0`. -/
theorem Prunable.log (hf : f.Prunable) : (log f).Prunable := by
  induction f with
  | pow b k ihb ihk =>
    obtain ⟨b', k', hb, hk, -⟩ := prunable_pow.mp hf
    exact prunable_logOfPow.mpr ⟨⟨k', hk⟩, ihb ⟨b', hb⟩⟩
  | mul l p ihl ihp =>
    obtain ⟨hl, hp⟩ := prunable_mul.mp hf
    exact prunable_logOfMul.mpr ⟨ihl hl, ihp hp⟩
  | _ => exact (prunable_log (by simp) (by simp)).mpr hf

/-- An expression in which no power is pruned to a zero to the power zero can be pruned. -/
theorem prunable_of_powers (h : e.Everywhere fun
    | pow b k => ∀ b' k', simplify? b = some b' → simplify? k = some k' →
        ¬ (k'.isZero = true ∧ b'.isZero = true)
    | _ => True) : e.Prunable := by
  induction e using simplify?.induct with
  | case1 c => exact prunable_const c
  | case2 y => exact prunable_var y
  | case3 l p ihl ihp =>
    obtain ⟨-, hl, hp⟩ := everywhere_add.mp h
    exact prunable_add.mpr ⟨ihl hl, ihp hp⟩
  | case4 l p ihl ihp =>
    obtain ⟨-, hl, hp⟩ := everywhere_mul.mp h
    exact prunable_mul.mpr ⟨ihl hl, ihp hp⟩
  | case5 b k ihb ihk =>
    obtain ⟨hzero, hb, hk⟩ := everywhere_pow.mp h
    obtain ⟨b', hb'⟩ := ihb hb
    obtain ⟨k', hk'⟩ := ihk hk
    exact prunable_pow.mpr ⟨b', k', hb', hk', hzero b' k' hb' hk'⟩
  | case6 b k ih =>
    obtain ⟨hk, hb⟩ := prunable_mul.mp (ih (h.mul_log trivial trivial))
    exact prunable_logOfPow.mpr ⟨hk, hb⟩
  | case7 p q ih =>
    obtain ⟨hp, hq⟩ := prunable_add.mp (ih (h.add_log trivial trivial trivial))
    exact prunable_logOfMul.mpr ⟨hp, hq⟩
  | case8 f hpow hmul ih => exact (ih (everywhere_log.mp h).2).log
  | case9 f ih => exact prunable_sin.mpr (ih (everywhere_sin.mp h).2)
  | case10 f ih => exact prunable_cos.mpr (ih (everywhere_cos.mp h).2)

end Prunable

/-! ### The calls of differentiation -/

/-- The rule for the power `b ^ k` of pruned operands is called on an expression and writes a power
into the derivative. Nothing is written, and nothing depends on the call, where a constant is raised
to something whose derivative has the shape of zero. -/
inductive PowerStep (x : String) (b k : Expr α) : Expr α → Expr α → Prop
  | constantBase (hconst : b.constant?.isSome = true)
      (hmoves : ∀ k', diff? x k = some k' → k'.isZero = false) : PowerStep x b k k (pow b k)
  | constantExponent {n : α} (hconst : b.constant? = none) (hn : k.constant? = some n) :
      PowerStep x b k b (pow b (const (n - 1)))
  | general (hconst : b.constant? = none) (hn : k.constant? = none) :
      PowerStep x b k (mul (log b) k) (pow b k)

/-- Differentiation of one expression calls itself on the other. -/
inductive Calls (x : String) : Expr α → Expr α → Prop
  | addLeft (l p : Expr α) : Calls x (add l p) l
  | addRight (l p : Expr α) : Calls x (add l p) p
  | mulLeft (l p : Expr α) : Calls x (mul l p) l
  | mulRight (l p : Expr α) : Calls x (mul l p) p
  | pow {base exponent b k f w : Expr α} (hb : simplify? base = some b)
      (hk : simplify? exponent = some k) (h : PowerStep x b k f w) : Calls x (pow base exponent) f
  | logOfPow (b k : Expr α) : Calls x (log (.pow b k)) (mul k (log b))
  | logOfMul (p q : Expr α) : Calls x (log (mul p q)) (add (log p) (log q))
  | logOfOther {f : Expr α} (hpow : ∀ b k, f ≠ .pow b k) (hmul : ∀ p q, f ≠ mul p q) :
      Calls x (log f) f
  | sin (f : Expr α) : Calls x (sin f) f
  | cos (f : Expr α) : Calls x (cos f) f

/-- Differentiation of one expression comes to the other, by calls. -/
def Meets (x : String) : Expr α → Expr α → Prop := Relation.ReflTransGen (Calls x)

/-- If the expression is a power, then the power that its rule writes into the derivative can be
pruned. -/
def Firm (x : String) : Expr α → Prop
  | pow base exponent => ∀ b k f w, simplify? base = some b → simplify? exponent = some k →
      PowerStep x b k f w → w.Prunable
  | _ => True

section Calls

theorem calls_add : Calls x (add l p) f ↔ f = l ∨ f = p := by
  constructor
  · rintro (_ | _)
    · exact .inl rfl
    · exact .inr rfl
  · rintro (rfl | rfl)
    · exact .addLeft f p
    · exact .addRight l f

theorem calls_mul : Calls x (mul l p) f ↔ f = l ∨ f = p := by
  constructor
  · intro h
    cases h with
    | mulLeft => exact .inl rfl
    | mulRight => exact .inr rfl
  · rintro (rfl | rfl)
    · exact .mulLeft f p
    · exact .mulRight l f

theorem calls_pow {base exponent : Expr α} (hb : simplify? base = some b)
    (hk : simplify? exponent = some k) :
    Calls x (pow base exponent) f ↔ ∃ w, PowerStep x b k f w := by
  constructor
  · rintro (_ | _)
    rename_i hb' hk' h
    obtain rfl := Option.some.inj (hb.symm.trans hb')
    obtain rfl := Option.some.inj (hk.symm.trans hk')
    exact ⟨_, h⟩
  · rintro ⟨w, h⟩
    exact .pow hb hk h

theorem calls_logOfPow : Calls x (log (pow b k)) f ↔ f = mul k (log b) := by
  constructor
  · intro h
    cases h with
    | logOfPow => rfl
    | logOfOther hpow => exact absurd rfl (hpow b k)
  · rintro rfl
    exact .logOfPow b k

theorem calls_logOfMul : Calls x (log (mul l p)) f ↔ f = add (log l) (log p) := by
  constructor
  · intro h
    cases h with
    | logOfMul => rfl
    | logOfOther _ hmul => exact absurd rfl (hmul l p)
  · rintro rfl
    exact .logOfMul l p

theorem calls_log {g : Expr α} (hpow : ∀ b k, f ≠ pow b k) (hmul : ∀ l p, f ≠ mul l p) :
    Calls x (log f) g ↔ g = f := by
  constructor
  · intro h
    cases h with
    | logOfPow b k => exact absurd rfl (hpow b k)
    | logOfMul l p => exact absurd rfl (hmul l p)
    | logOfOther => rfl
  · rintro rfl
    exact .logOfOther hpow hmul

theorem calls_sin {g : Expr α} : Calls x (sin f) g ↔ g = f := by
  constructor
  · intro h
    cases h
    rfl
  · rintro rfl
    exact .sin g

theorem calls_cos {g : Expr α} : Calls x (cos f) g ↔ g = f := by
  constructor
  · intro h
    cases h
    rfl
  · rintro rfl
    exact .cos g

theorem firm_pow {base exponent : Expr α} (hb : simplify? base = some b)
    (hk : simplify? exponent = some k) :
    Firm x (pow base exponent) ↔ ∀ f w, PowerStep x b k f w → w.Prunable := by
  constructor
  · exact fun h f w => h b k f w hb hk
  · intro h b' k' f w hb' hk' hstep
    obtain rfl := Option.some.inj (hb.symm.trans hb')
    obtain rfl := Option.some.inj (hk.symm.trans hk')
    exact h f w hstep

theorem PowerStep.weight_le (h : PowerStep x b k f w) : f.weight < 2 * b.weight + k.weight + 2 := by
  cases h with
  | constantBase => omega
  | constantExponent => omega
  | general => simp only [weight]; omega

/-- Differentiation calls itself on lighter expressions. -/
theorem Calls.weight_lt (h : Calls x e f) : f.weight < e.weight := by
  cases h with
  | addLeft | addRight | mulLeft | mulRight | sin | cos => simp only [weight]; omega
  | logOfPow => exact weight_logOfPow_lt _ _
  | logOfMul => exact weight_logOfMul_lt _ _
  | logOfOther => exact weight_lt_log _
  | pow hb hk h =>
    have := weight_le_of_simplify? hb
    have := weight_le_of_simplify? hk
    have := h.weight_le
    simp only [weight]
    omega

/-- What the rule for powers is called on can be pruned if the power that it writes can. -/
theorem PowerStep.prunable (h : PowerStep x b k f w) (hw : w.Prunable) : f.Prunable := by
  cases h with
  | constantBase =>
    obtain ⟨_, k', _, hk, _⟩ := prunable_pow.mp hw
    exact ⟨k', hk⟩
  | constantExponent =>
    obtain ⟨b', _, hb, _, _⟩ := prunable_pow.mp hw
    exact ⟨b', hb⟩
  | general =>
    obtain ⟨b', k', hb, hk, _⟩ := prunable_pow.mp hw
    exact prunable_mul.mpr ⟨Prunable.log ⟨b', hb⟩, k', hk⟩

/-- An expression that can be pruned and is firm makes calls on such as can be pruned. -/
theorem Calls.prunable (h : Calls x e f) (he : e.Prunable) (hfirm : Firm x e) : f.Prunable := by
  cases h with
  | addLeft l p => exact (prunable_add.mp he).1
  | addRight l p => exact (prunable_add.mp he).2
  | mulLeft l p => exact (prunable_mul.mp he).1
  | mulRight l p => exact (prunable_mul.mp he).2
  | pow hb hk h => exact h.prunable (hfirm _ _ _ _ hb hk h)
  | logOfPow b k => exact prunable_mul.mpr (prunable_logOfPow.mp he)
  | logOfMul p q => exact prunable_add.mpr (prunable_logOfMul.mp he)
  | logOfOther hpow hmul => exact (prunable_log hpow hmul).mp he
  | sin f => exact prunable_sin.mp he
  | cos f => exact prunable_cos.mp he

end Calls

/-! ### One step of differentiation -/

/-- The derivative exists and can be pruned. -/
def HasPrunableDiff (x : String) (e : Expr α) : Prop := ∃ d, diff? x e = some d ∧ d.Prunable

/-- What is made of the result of one call, and the conditions for that to be pruned. -/
theorem exists_prunable_map_iff {o : Option (Expr α)} {g : Expr α → Expr α} {P : Prop}
    (hg : ∀ d, (g d).Prunable ↔ P ∧ d.Prunable) :
    (∃ d, o.map g = some d ∧ d.Prunable) ↔ P ∧ ∃ d, o = some d ∧ d.Prunable := by
  cases o with
  | none => exact iff_of_false nofun nofun
  | some d => simp only [Option.map_some, Option.some.injEq, exists_eq_left', hg]

/-- What is made of the results of two calls. -/
theorem exists_prunable_bind_iff {o o' : Option (Expr α)} {g : Expr α → Expr α → Expr α}
    (hg : ∀ d d', (g d d').Prunable ↔ d.Prunable ∧ d'.Prunable) :
    (∃ d, (o.bind fun d => o'.map (g d)) = some d ∧ d.Prunable) ↔
      (∃ d, o = some d ∧ d.Prunable) ∧ ∃ d, o' = some d ∧ d.Prunable := by
  cases o with
  | none => exact iff_of_false nofun nofun
  | some d =>
    rw [Option.bind_some, exists_prunable_map_iff (hg d)]
    simp only [Option.some.injEq, exists_eq_left']

theorem hasPrunableDiff_const (c : α) : HasPrunableDiff x (const c) :=
  ⟨const 0, by rw [diff?], prunable_const 0⟩

theorem hasPrunableDiff_var (y : String) : HasPrunableDiff x (var y : Expr α) :=
  ⟨_, by rw [diff?], prunable_const _⟩

theorem hasPrunableDiff_add :
    HasPrunableDiff x (add l p) ↔ HasPrunableDiff x l ∧ HasPrunableDiff x p := by
  rw [HasPrunableDiff, diff?_add]
  exact exists_prunable_bind_iff fun _ _ => prunable_add

theorem hasPrunableDiff_mul (hl : l.Prunable) (hp : p.Prunable) :
    HasPrunableDiff x (mul l p) ↔ HasPrunableDiff x l ∧ HasPrunableDiff x p := by
  rw [HasPrunableDiff, diff?_mul]
  exact exists_prunable_bind_iff fun _ _ => by
    rw [prunable_add, prunable_mul, prunable_mul, and_iff_left hp, and_iff_right hl]

theorem hasPrunableDiff_sin (hf : f.Prunable) :
    HasPrunableDiff x (sin f) ↔ HasPrunableDiff x f := by
  rw [HasPrunableDiff, diff?_sin, exists_prunable_map_iff fun _ => prunable_mul]
  exact and_iff_right (prunable_cos.mpr hf)

theorem hasPrunableDiff_cos (hf : f.Prunable) :
    HasPrunableDiff x (cos f) ↔ HasPrunableDiff x f := by
  rw [HasPrunableDiff, diff?_cos, exists_prunable_map_iff fun _ => prunable_mul]
  exact and_iff_right (prunable_mul.mpr ⟨prunable_sin.mpr hf, prunable_const (-1)⟩)

/-- Where the rule for powers makes a step, it multiplies the power that it writes by what the call
gives it, and by factors that can be pruned anyway. -/
theorem PowerStep.exists_prunable_iff (h : PowerStep x b k f w) :
    (∃ d, powRule? x b k = some d ∧ d.Prunable) ↔ w.Prunable ∧ HasPrunableDiff x f := by
  cases h with
  | constantBase hconst hmoves =>
    obtain ⟨c, hc⟩ := Option.isSome_iff_exists.mp hconst
    have hlog : (log b).Prunable := eq_const_of_constant? hc ▸ (prunable_const c).log
    have hrule : powRule? x b k = (diff? x k).map fun k' => mul (log b) (mul (pow b k) k') := by
      rw [powRule?, if_pos hconst]
      exact Option.map_congr fun k' hk => if_neg (Bool.eq_false_iff.mp (hmoves k' hk))
    rw [hrule]
    exact exists_prunable_map_iff fun _ => by rw [prunable_mul, prunable_mul, and_iff_right hlog]
  | constantExponent hconst hn =>
    rename_i n
    obtain rfl := eq_const_of_constant? hn
    rw [powRule?, hconst, if_neg (by simp)]
    refine exists_prunable_map_iff fun _ => ?_
    rw [prunable_mul, prunable_mul, and_iff_right (prunable_const n)]
  | general hconst hn =>
    rw [powRule?, hconst, hn, if_neg (by simp)]
    exact exists_prunable_map_iff fun _ => prunable_mul

/-- The rule for powers makes a step, or its derivative is zero. -/
theorem exists_powerStep_or (x : String) (b k : Expr α) :
    (∃ f w, PowerStep x b k f w) ∨ powRule? x b k = some (const 0) := by
  cases hb : b.constant? with
  | none =>
    cases hn : k.constant? with
    | none => exact .inl ⟨_, _, .general hb hn⟩
    | some n => exact .inl ⟨_, _, .constantExponent hb hn⟩
  | some c =>
    have hconst : b.constant?.isSome = true := hb ▸ rfl
    by_cases hmoves : ∀ k', diff? x k = some k' → k'.isZero = false
    · exact .inl ⟨_, _, .constantBase hconst hmoves⟩
    · simp only [not_forall, Bool.not_eq_false] at hmoves
      obtain ⟨k', hk, hzero⟩ := hmoves
      right
      rw [powRule?, if_pos hconst, hk, Option.map_some, if_pos hzero]

theorem hasPrunableDiff_pow {base exponent : Expr α} (hb : simplify? base = some b)
    (hk : simplify? exponent = some k) : HasPrunableDiff x (pow base exponent) ↔
      ∀ f w, PowerStep x b k f w → w.Prunable ∧ HasPrunableDiff x f := by
  rw [HasPrunableDiff, diff?_pow, hb, hk, Option.bind_some, Option.bind_some]
  constructor
  · exact fun h f w hstep => hstep.exists_prunable_iff.mp h
  · intro h
    rcases exists_powerStep_or x b k with ⟨f, w, hstep⟩ | hzero
    · exact hstep.exists_prunable_iff.mpr (h f w hstep)
    · exact ⟨const 0, hzero, prunable_const 0⟩

/-- There is no such derivative where the rule writes a zero to the power zero. -/
theorem PowerStep.not_hasPrunableDiff {base exponent c m c' m' : Expr α}
    (h : PowerStep x b k f (pow c m)) (hb : simplify? base = some b)
    (hk : simplify? exponent = some k) (hc : simplify? c = some c') (hm : simplify? m = some m')
    (hcz : c'.isZero = true) (hmz : m'.isZero = true) :
    ¬HasPrunableDiff x (pow base exponent) := by
  intro hd
  obtain ⟨c'', m'', hc', hm', hnot⟩ :=
    prunable_pow.mp ((hasPrunableDiff_pow hb hk).mp hd _ _ h).1
  obtain rfl := Option.some.inj (hc.symm.trans hc')
  obtain rfl := Option.some.inj (hm.symm.trans hm')
  exact hnot ⟨hmz, hcz⟩

section

variable [LawfulCoefficient α]

/-- A reciprocal can be pruned whatever it is taken of. -/
theorem Prunable.reciprocal (hf : f.Prunable) : (pow f (const (-1))).Prunable := by
  obtain ⟨f', hf'⟩ := hf
  refine prunable_pow.mpr ⟨f', const (-1), hf', by rw [simplify?], fun hzero => ?_⟩
  exact Bool.eq_false_iff.mp LawfulCoefficient.neg_one_beq_zero hzero.1

theorem hasPrunableDiff_log (hpow : ∀ b k, f ≠ pow b k) (hmul : ∀ l p, f ≠ mul l p)
    (hf : f.Prunable) : HasPrunableDiff x (log f) ↔ HasPrunableDiff x f := by
  rw [HasPrunableDiff, diff?_log hpow hmul,
    exists_prunable_map_iff fun _ => prunable_mul.trans and_comm]
  exact and_iff_right hf.reciprocal

theorem hasPrunableDiff_log_iff_calls (hpow : ∀ b k, f ≠ pow b k) (hmul : ∀ l p, f ≠ mul l p)
    (he : (log f).Prunable) : HasPrunableDiff x (log f) ↔
      Firm x (log f) ∧ ∀ g, Calls x (log f) g → HasPrunableDiff x g := by
  rw [hasPrunableDiff_log hpow hmul ((prunable_log hpow hmul).mp he)]
  simp only [Firm, true_and, calls_log hpow hmul, forall_eq]

/-- **One step of differentiation.** The derivative can be pruned when the power that is written
can, and so can the derivatives that the calls give. -/
theorem hasPrunableDiff_iff_calls (he : e.Prunable) :
    HasPrunableDiff x e ↔ Firm x e ∧ ∀ f, Calls x e f → HasPrunableDiff x f := by
  cases e with
  | const c => exact iff_of_true (hasPrunableDiff_const c) ⟨trivial, nofun⟩
  | var y => exact iff_of_true (hasPrunableDiff_var y) ⟨trivial, nofun⟩
  | add l p =>
    rw [hasPrunableDiff_add]
    simp only [Firm, true_and, calls_add, forall_eq_or_imp, forall_eq]
  | mul l p =>
    obtain ⟨hl, hp⟩ := prunable_mul.mp he
    rw [hasPrunableDiff_mul hl hp]
    simp only [Firm, true_and, calls_mul, forall_eq_or_imp, forall_eq]
  | pow base exponent =>
    obtain ⟨b, k, hb, hk, -⟩ := prunable_pow.mp he
    rw [hasPrunableDiff_pow hb hk, firm_pow hb hk]
    simp only [calls_pow hb hk, forall_exists_index, ← forall_and]
  | log f =>
    cases f with
    | pow b k =>
      rw [HasPrunableDiff, diff?_logOfPow]
      simp only [Firm, true_and, calls_logOfPow, forall_eq, HasPrunableDiff]
    | mul l p =>
      rw [HasPrunableDiff, diff?_logOfMul]
      simp only [Firm, true_and, calls_logOfMul, forall_eq, HasPrunableDiff]
    | _ => exact hasPrunableDiff_log_iff_calls (by simp) (by simp) he
  | sin f =>
    rw [hasPrunableDiff_sin (prunable_sin.mp he)]
    simp only [Firm, true_and, calls_sin, forall_eq]
  | cos f =>
    rw [hasPrunableDiff_cos (prunable_cos.mp he)]
    simp only [Firm, true_and, calls_cos, forall_eq]

/-- **The derivative of an expression that can be pruned exists and can be pruned just when all
that differentiation comes to is firm.** By induction on the weight, along the calls. -/
theorem hasPrunableDiff_iff_meets (he : e.Prunable) :
    HasPrunableDiff x e ↔ ∀ f, Meets x e f → Firm x f := by
  induction hn : e.weight using Nat.strongRecOn generalizing e with
  | _ n ih =>
    rw [hasPrunableDiff_iff_calls he]
    constructor
    · rintro ⟨hfirm, hcalls⟩ f hf
      rcases hf.cases_head with rfl | ⟨g, hg, hgf⟩
      · exact hfirm
      · have hgp := hg.prunable he hfirm
        exact (ih _ (hn ▸ hg.weight_lt) hgp rfl).mp (hcalls g hg) f hgf
    · intro hmet
      have hfirm : Firm x e := hmet e .refl
      refine ⟨hfirm, fun g hg => ?_⟩
      have hgp := hg.prunable he hfirm
      exact (ih _ (hn ▸ hg.weight_lt) hgp rfl).mpr fun f hf => hmet f (.head hg hf)

/-! ### Where no power of one is hidden -/

/-- The power `b ^ k` is no first power of a vanishing base, as far as one pruning tells. -/
def NoVanishingFirst (b k : Expr α) : Prop :=
  ∀ b' k', simplify? b = some b' → simplify? k = some k' → k'.isOne = true → b'.isZero = true →
    b'.constant?.isSome = true

/-- No power in the expression is a first power of a vanishing base, and none contains a logarithm
that hides a power of one. -/
def Clear : Expr α → Prop :=
  Everywhere fun
    | pow b k => b.LogsOneFree ∧ k.LogsOneFree ∧ NoVanishingFirst b k
    | _ => True

section Clear

omit [LawfulCoefficient α] in
/-- A power that is left by pruning shows no zero. -/
theorem isZero_of_prunePow?_eq_pow (h : prunePow? b k = some (pow b k)) :
    b.isZero = false ∧ k.isZero = false := by
  cases hk : k.isZero with
  | true => cases hb : b.isZero <;> simp [prunePow?, hk, hb] at h
  | false =>
    cases hb : b.isZero with
    | true => simp [prunePow?, hk, hb] at h
    | false => exact ⟨rfl, rfl⟩

/-- Bases of powers that are left by pruning are not pruned to zero later. -/
theorem LogsOneFree.isZero_base {b' : Expr α} (he : e.LogsOneFree) (h : simplify? e = some s)
    (hmem : pow b k ∈ s.nodes) (hb : simplify? b = some b') : b'.isZero = false := by
  obtain ⟨c, m, hsource, hc, -, hnode⟩ := everywhere_origin h _ hmem
  have hcl : c.LogsOneFree := he.part (nodes_subset hsource (by simp [nodes]))
  rw [Bool.eq_iff_iff, hcl.isZero_iff hc hb, (isZero_of_prunePow?_eq_pow hnode).1]

/-- What was pruned can be pruned again. -/
theorem LogsOneFree.prunable (he : e.LogsOneFree) (h : simplify? e = some s) : s.Prunable := by
  refine prunable_of_powers fun g hg => ?_
  cases g with
  | pow b k =>
    intro b' k' hb _ hzero
    exact Bool.false_ne_true ((he.isZero_base h hg hb).symm.trans hzero.2)
  | _ => trivial

/-- The powers in what an expression is pruned to have lost what could vanish. -/
theorem LogsOneFree.clear (he : e.LogsOneFree) (h : simplify? e = some s) : s.Clear := by
  intro g hg
  cases g with
  | pow b k =>
    obtain ⟨hb, hk⟩ := (he.of_simplify? h).steady _ hg
    exact ⟨hb, hk, fun b' _ hb' _ _ hzero =>
      absurd hzero (Bool.eq_false_iff.mp (he.isZero_base h hg hb'))⟩
  | _ => trivial

/-- Being clear is passed on along the calls. -/
theorem Calls.clear (h : Calls x e f) (he : e.Clear) : f.Clear := by
  cases h with
  | addLeft l p => exact (everywhere_add.mp he).2.1
  | addRight l p => exact (everywhere_add.mp he).2.2
  | mulLeft l p => exact (everywhere_mul.mp he).2.1
  | mulRight l p => exact (everywhere_mul.mp he).2.2
  | pow hb hk h =>
    obtain ⟨⟨hbase, hexponent, -⟩, -⟩ := everywhere_pow.mp he
    cases h with
    | constantBase => exact hexponent.clear hk
    | constantExponent => exact hbase.clear hb
    | general =>
      exact everywhere_mul.mpr ⟨trivial, everywhere_log.mpr ⟨trivial, hbase.clear hb⟩,
        hexponent.clear hk⟩
  | logOfPow b k => exact Everywhere.mul_log he trivial trivial
  | logOfMul p q => exact Everywhere.add_log he trivial trivial trivial
  | logOfOther => exact (everywhere_log.mp he).2
  | sin f => exact (everywhere_sin.mp he).2
  | cos f => exact (everywhere_cos.mp he).2

/-- A clear power is written such that it can be pruned: another pruning of its operands finds the
zeros that the first one found. -/
theorem Clear.firm (he : e.Clear) (hs : e.Prunable) : Firm x e := by
  cases e with
  | pow base exponent =>
    obtain ⟨⟨hbase, hexponent, hfirst⟩, -⟩ := everywhere_pow.mp he
    obtain ⟨b, k, hb, hk, hzero⟩ := prunable_pow.mp hs
    obtain ⟨b', hb'⟩ := hbase.prunable hb
    obtain ⟨k', hk'⟩ := hexponent.prunable hk
    have hbz := hbase.isZero_iff hb hb'
    have hkz := hexponent.isZero_iff hk hk'
    have hsame : (pow b k).Prunable :=
      prunable_pow.mpr ⟨b', k', hb', hk', fun h => hzero ⟨hkz.mp h.1, hbz.mp h.2⟩⟩
    rw [firm_pow hb hk]
    intro f w hstep
    cases hstep with
    | constantBase => exact hsame
    | general => exact hsame
    | constantExponent hconst hn =>
      rename_i n
      obtain rfl := eq_const_of_constant? hn
      -- one less is zero only if the exponent was one
      refine prunable_pow.mpr ⟨b', const (n - 1), hb', by rw [simplify?], fun h => ?_⟩
      have hsome := hfirst b (const n) hb hk (LawfulCoefficient.beq_one_of_sub_one h.1)
        (hbz.mp h.2)
      rw [hconst] at hsome
      exact Bool.false_ne_true hsome
  | _ => trivial

/-- Where no power of one is hidden, only first powers of vanishing bases stand in the way of the
derivative, and these are seen at once. -/
theorem Clear.hasPrunableDiff (he : e.Clear) (hs : e.Prunable) : HasPrunableDiff x e := by
  have hmet : ∀ f, Meets x e f → f.Clear ∧ f.Prunable := by
    intro f hf
    induction hf with
    | refl => exact ⟨he, hs⟩
    | tail _ hcall ih => exact ⟨hcall.clear ih.1, hcall.prunable ih.2 (ih.1.firm ih.2)⟩
  exact (hasPrunableDiff_iff_meets hs).mpr fun f hf => (hmet f hf).1.firm (hmet f hf).2

end Clear

/-- A power is dropped when both of its operands are pruned to constants, whatever was in them
before. -/
theorem firm_of_meets_constants {base exponent : Expr α} {c n : α}
    (hb : simplify? base = some (const c)) (hk : simplify? exponent = some (const n))
    (h : Meets x (pow base exponent) f) : Firm x f := by
  have hdropped : ∀ f w, ¬PowerStep x (const c) (const n) f w := by
    intro f w hstep
    cases hstep with
    | constantBase _ hmoves =>
      exact Bool.false_ne_true ((hmoves (const 0) (by rw [diff?])).symm.trans isZero_zero)
    | constantExponent hconst => cases hconst
    | general hconst => cases hconst
  rcases h.cases_head with rfl | ⟨g, hg, -⟩
  · exact (firm_pow hb hk).mpr fun f w hstep => absurd hstep (hdropped f w)
  · obtain ⟨w, hstep⟩ := (calls_pow hb hk).mp hg
    exact absurd hstep (hdropped g w)

end

/-! ### Over floats -/

/-- **All that can go wrong with the derivative of an expression that can be pruned is a power that
the rule for powers writes into it.** The derivative exists and can be pruned just when, for all
expressions that differentiation comes to, that power can be pruned. It is so if all powers of the
expression itself are clear. -/
theorem exists_prunable_diff?_iff (x : String) {e : Expr Float} (hs : e.Prunable) :
    ((∃ d, diff? x e = some d ∧ d.Prunable) ↔ ∀ f, Meets x e f → Firm x f) ∧
      (e.Clear → ∃ d, diff? x e = some d ∧ d.Prunable) :=
  ⟨hasPrunableDiff_iff_meets hs, fun he => he.hasPrunableDiff hs⟩

/-- A first power of something that does not vanish is clear, and so is a power of variables. A
first power of `sin 0` is not, and does no harm in an exponent or in the base of a square: it is
pruned away, and what is left does not move. -/
theorem exists_prunable_diff?_iff_powers :
    let first : Expr Float := pow (sin (const 0)) (const 1)
    let e : Expr Float := mul (pow (var "x") (const 1)) (pow (var "x") (var "x"))
    (e.Prunable ∧ e.Clear ∧ ∃ d, diff? "x" e = some d ∧ d.Prunable) ∧
      ∀ u ∈ [pow (const 2) first, pow first (const 2)], u.Prunable ∧ ¬u.Clear ∧
        (∀ f, Meets "x" u f → Firm "x" f) ∧ ∃ d, diff? "x" u = some d ∧ d.Prunable := by
  intro first e
  have hvar : simplify? (var "x" : Expr Float) = some (var "x") := by rw [simplify?]
  have hconst (c : Float) : simplify? (const c) = some (const c) := by rw [simplify?]
  have hsin : simplify? (sin (const 0) : Expr Float) = some (sin (const 0)) := by simp [simplify?]
  have hzero : (sin (const 0) : Expr Float).isZero = true := isZero_zero
  have htwo : (const 2 : Expr Float).isZero = false := by decide
  have hfirst : simplify? first = some (const 0) := by
    simp [first, simplify?, prunePow?, hzero]
  have he : e.Prunable := prunable_mul.mpr
    ⟨prunable_pow.mpr ⟨_, _, hvar, hconst 1, by simp⟩,
      prunable_pow.mpr ⟨_, _, hvar, hvar, by simp [isZero]⟩⟩
  have hclear : e.Clear := by
    have hvarl : (var "x" : Expr Float).LogsOneFree := everywhere_var.mpr trivial
    have hvarc : (var "x" : Expr Float).Clear := everywhere_var.mpr trivial
    have hmoves (k : Expr Float) : NoVanishingFirst (var "x") k := by
      intro b' k' hb _ _ hbz
      obtain rfl := Option.some.inj (hvar.symm.trans hb)
      exact absurd hbz Bool.false_ne_true
    exact everywhere_mul.mpr ⟨trivial,
      everywhere_pow.mpr ⟨⟨hvarl, everywhere_const.mpr trivial, hmoves _⟩, hvarc,
        everywhere_const.mpr trivial⟩,
      everywhere_pow.mpr ⟨⟨hvarl, hvarl, hmoves _⟩, hvarc, hvarc⟩⟩
  have hnot (u : Expr Float) (hmem : first ∈ u.nodes) : ¬u.Clear := by
    intro hu
    have hsome := (hu _ hmem).2.2 _ _ hsin (hconst 1) isOne_one hzero
    exact Bool.false_ne_true hsome
  refine ⟨⟨he, hclear, (exists_prunable_diff?_iff "x" he).2 hclear⟩, ?_⟩
  rw [List.forall_mem_cons, List.forall_mem_singleton]
  have hbase : (pow (const 2) first).Prunable :=
    prunable_pow.mpr ⟨_, _, hconst 2, hfirst, by simp [htwo]⟩
  have hexponent : (pow first (const 2)).Prunable :=
    prunable_pow.mpr ⟨_, _, hfirst, hconst 2, by simp [htwo]⟩
  have hfirm (f : Expr Float) (h : Meets "x" (pow (const 2) first) f) : Firm "x" f :=
    firm_of_meets_constants (hconst 2) hfirst h
  have hfirm' (f : Expr Float) (h : Meets "x" (pow first (const 2)) f) : Firm "x" f :=
    firm_of_meets_constants hfirst (hconst 2) h
  exact ⟨⟨hbase, hnot _ (by simp [nodes]), hfirm,
      (exists_prunable_diff?_iff "x" hbase).1.mpr hfirm⟩,
    hexponent, hnot _ (by simp [nodes]), hfirm',
    (exists_prunable_diff?_iff "x" hexponent).1.mpr hfirm'⟩

/-- Three expressions that can be pruned while their derivatives cannot: the first powers
`sin 0 ^ 1` and `u ^ 1` for `u = log (1 ^ x + 0)`, which is pruned to `log (1 ^ x)` and from there
to zero, and `sin 0 ^ u`, of which only the next pruning makes zero to the power zero. -/
theorem not_prunable_diff? :
    let u : Expr Float := log (add (pow (const 1) (var "x")) (const 0))
    ∀ e ∈ [pow (sin (const 0)) (const 1), pow u (const 1), pow (sin (const 0)) u],
      e.Prunable ∧ ¬∃ d, diff? "x" e = some d ∧ d.Prunable := by
  intro u
  have hconst (c : Float) : simplify? (const c) = some (const c) := by rw [simplify?]
  have hless : (const (1 - 1) : Expr Float).isZero = true := by decide
  have hsin : simplify? (sin (const 0) : Expr Float) = some (sin (const 0)) := by simp [simplify?]
  have hzero : (sin (const 0) : Expr Float).isZero = true := isZero_zero
  have hvar : (var "x" : Expr Float).isZero = false ∧ (var "x" : Expr Float).isOne = false :=
    ⟨rfl, rfl⟩
  have hu : simplify? u = some (log (pow (const 1) (var "x"))) := by
    simp [u, simplify?, prunePow?, pruneAdd, hvar]
  have hagain : simplify? (log (pow (const 1) (var "x")) : Expr Float) = some (const 0) := by
    simp [simplify?, pruneMul, isZero]
  have hpruned {b k b' k' : Expr Float} (hb : simplify? b = some b') (hk : simplify? k = some k')
      (hk' : k'.isZero = false) : (pow b k).Prunable :=
    prunable_pow.mpr ⟨b', k', hb, hk, fun h => Bool.false_ne_true (hk'.symm.trans h.1)⟩
  rw [List.forall_mem_cons, List.forall_mem_cons, List.forall_mem_singleton]
  exact ⟨⟨hpruned hsin (hconst 1) isZero_one,
      PowerStep.not_hasPrunableDiff (.constantExponent rfl rfl) hsin (hconst 1) hsin (hconst _)
        hzero hless⟩,
    ⟨hpruned hu (hconst 1) isZero_one,
      PowerStep.not_hasPrunableDiff (.constantExponent rfl rfl) hu (hconst 1) hagain (hconst _)
        isZero_zero hless⟩,
    hpruned hsin hu rfl,
    PowerStep.not_hasPrunableDiff (.general rfl rfl) hsin hu hsin hagain hzero isZero_zero⟩

end Expr

end Fluxion
