import Fluxion.Proofs.Lines
import Fluxion.Proofs.Rules

/-!
# Variables of expressions

Evaluation looks up the variables of an expression and nothing else, and neither pruning nor
differentiation brings in a variable. A workspace relies on this: it decides by the expression of
a line whether values can be read, and then evaluates other expressions, the derivative or its
pruned form.

## What a failure tells

The value of an expression depends on the values of its variables alone, and so does the failure
when there is none, except for one thing. A failure that names a variable without a value also
lists the names that have one, and these need not occur in the expression.
`Failure.withAvailable` is the same failure with another list.

## Main results

* `Expr.vars_subset_of_simplify?`, `Expr.vars_subset_of_diff?` — no variable is brought in
* `Expr.eval_congr`, `Expr.evalBatch_congr` — evaluation depends on the variables only
* `Expr.unbound_of_eval`, `Expr.unbound_of_evalBatch` — a variable that is found to have no value
  is one of the expression's and has none
* `Workspace.run_reads_bound` — a line that is not an assignment never fails for want of a value
-/

namespace Fluxion

namespace Expr

variable {α : Type}

/-! ### Pruning and differentiation -/

section Coefficient

variable [Coefficient α] {x : String} {e l p b k s d : Expr α}

theorem vars_pruneAdd_subset (l p : Expr α) : (pruneAdd l p).vars ⊆ l.vars ++ p.vars :=
  pruneAdd_cases (motive := fun s => s.vars ⊆ l.vars ++ p.vars) (List.nil_subset _)
    (List.subset_append_left _ _) (List.subset_append_right _ _) (List.Subset.refl _)

theorem vars_pruneMul_subset (l p : Expr α) : (pruneMul l p).vars ⊆ l.vars ++ p.vars :=
  pruneMul_cases (motive := fun s => s.vars ⊆ l.vars ++ p.vars) (List.nil_subset _)
    (List.subset_append_left _ _) (List.subset_append_right _ _) (List.Subset.refl _)

theorem vars_subset_of_prunePow? (h : prunePow? b k = some s) : s.vars ⊆ b.vars ++ k.vars :=
  prunePow?_cases (motive := fun s => s.vars ⊆ b.vars ++ k.vars) h (List.nil_subset _)
    (List.nil_subset _) (List.subset_append_left _ _) (List.Subset.refl _)

omit [Coefficient α] in
/-- Variables of two operands, each among those of what it was made from. -/
theorem vars_append_subset {l' p' : Expr α} (hl : l'.vars ⊆ l.vars) (hp : p'.vars ⊆ p.vars) :
    l'.vars ++ p'.vars ⊆ l.vars ++ p.vars :=
  List.append_subset.mpr ⟨List.Subset.trans hl (List.subset_append_left _ _),
    List.Subset.trans hp (List.subset_append_right _ _)⟩

omit [Coefficient α] in
theorem vars_append_subset_comm (l p : Expr α) : l.vars ++ p.vars ⊆ p.vars ++ l.vars :=
  List.append_subset.mpr ⟨List.subset_append_right _ _, List.subset_append_left _ _⟩

/-- Pruning brings in no variable. -/
theorem vars_subset_of_simplify? (h : e.simplify? = some s) : s.vars ⊆ e.vars := by
  refine simplify_induction (P := fun e s => s.vars ⊆ e.vars) ?const ?var ?add ?mul ?pow
    ?logOfPow ?logOfMul ?logOfOther ?sin ?cos h
  case const => exact fun c => List.Subset.refl _
  case var => exact fun y => List.Subset.refl _
  case add =>
    exact fun l p l' p' ihl ihp =>
      List.Subset.trans (vars_pruneAdd_subset l' p') (vars_append_subset ihl ihp)
  case mul =>
    exact fun l p l' p' ihl ihp =>
      List.Subset.trans (vars_pruneMul_subset l' p') (vars_append_subset ihl ihp)
  case pow =>
    exact fun b k b' k' s _ _ ihb ihk hs =>
      List.Subset.trans (vars_subset_of_prunePow? hs) (vars_append_subset ihb ihk)
  case logOfPow => exact fun b k s ih => List.Subset.trans ih (vars_append_subset_comm k b)
  case logOfMul => exact fun p q s ih => ih
  case logOfOther => exact fun f f' _ _ _ ih => ih
  case sin => exact fun f f' ih => ih
  case cos => exact fun f f' ih => ih

/-- The rules for powers bring in no variable. -/
theorem vars_subset_of_powRule (hrule : PowRule x b k d)
    (hb : ∀ d, diff? x b = some d → d.vars ⊆ b.vars)
    (hlog : ∀ d, diff? x (log b) = some d → d.vars ⊆ b.vars)
    (hk : ∀ d, diff? x k = some d → d.vars ⊆ k.vars) : d.vars ⊆ b.vars ++ k.vars := by
  have hleft : b.vars ⊆ b.vars ++ k.vars := List.subset_append_left _ _
  have hright : k.vars ⊆ b.vars ++ k.vars := List.subset_append_right _ _
  cases hrule with
  | still => exact List.nil_subset _
  | constantBase _ hk' _ =>
    have hk' := List.Subset.trans (hk _ hk') hright
    simp only [vars, List.append_subset]
    exact ⟨hleft, ⟨hleft, hright⟩, hk'⟩
  | constantExponent _ _ hb' =>
    have hb' := List.Subset.trans (hb _ hb') hleft
    simp only [vars, List.append_subset]
    exact ⟨hright, ⟨hleft, List.nil_subset _⟩, hb'⟩
  | general _ _ hl' hk' =>
    have hl' := List.Subset.trans (hlog _ hl') hleft
    have hk' := List.Subset.trans (hk _ hk') hright
    simp only [vars, List.append_subset]
    exact ⟨⟨hleft, hright⟩, ⟨hl', hright⟩, hleft, hk'⟩

/-- Differentiation brings in no variable; the second half is about the operand of a
logarithm. -/
theorem vars_subset_of_diff?_and_log (x : String) :
    (∀ e d : Expr α, diff? x e = some d → d.vars ⊆ e.vars) ∧
      ∀ f d : Expr α, diff? x (log f) = some d → d.vars ⊆ f.vars := by
  refine diff_induction ?const ?var ?add ?mul ?pow ?log ?sin ?cos ?logOfPow ?logOfMul
    ?logOfOther
  case const =>
    intro c d h
    rw [diff?] at h
    obtain rfl := Option.some.inj h
    exact List.nil_subset _
  case var =>
    intro y d h
    rw [diff?] at h
    obtain rfl := Option.some.inj h
    exact List.nil_subset _
  case add =>
    intro l p ihl ihp d h
    obtain ⟨l', p', hl, hp, rfl⟩ := diff?_add_eq_some h
    exact vars_append_subset (ihl l' hl) (ihp p' hp)
  case mul =>
    intro l p ihl ihp d h
    obtain ⟨l', p', hl, hp, rfl⟩ := diff?_mul_eq_some h
    exact List.append_subset.mpr ⟨vars_append_subset (ihl l' hl) (List.Subset.refl _),
      vars_append_subset (List.Subset.refl _) (ihp p' hp)⟩
  case pow =>
    intro base exponent ihb ihk d h
    obtain ⟨b, k, hb, hk, hrule⟩ := diff?_pow_eq_some h
    obtain ⟨ihP, ihQ⟩ := ihb b hb
    have hd := vars_subset_of_powRule (powRule?_cases hrule) ihP ihQ (ihk k hk)
    exact List.Subset.trans hd
      (vars_append_subset (vars_subset_of_simplify? hb) (vars_subset_of_simplify? hk))
  case log => exact fun f ih d h => ih d h
  case sin =>
    intro f ih d h
    rw [diff?_sin] at h
    obtain ⟨f', hf, rfl⟩ := Option.map_eq_some_iff.mp h
    exact List.append_subset.mpr ⟨List.Subset.refl _, ih f' hf⟩
  case cos =>
    intro f ih d h
    rw [diff?_cos] at h
    obtain ⟨f', hf, rfl⟩ := Option.map_eq_some_iff.mp h
    simp only [vars, List.append_subset]
    exact ⟨⟨List.Subset.refl _, List.nil_subset _⟩, ih f' hf⟩
  case logOfPow =>
    intro b k ihb ihk d h
    rw [diff?_logOfPow] at h
    obtain ⟨k', l', hk, hl, rfl⟩ := diff?_mul_eq_some h
    have hb := List.subset_append_left b.vars k.vars
    have hk' := List.subset_append_right b.vars k.vars
    simp only [vars, List.append_subset]
    exact ⟨⟨List.Subset.trans (ihk k' hk) hk', hb⟩, hk', List.Subset.trans (ihb l' hl) hb⟩
  case logOfMul =>
    intro p q ihp ihq d h
    rw [diff?_logOfMul] at h
    obtain ⟨p', q', hp, hq, rfl⟩ := diff?_add_eq_some h
    exact vars_append_subset (ihp p' hp) (ihq q' hq)
  case logOfOther =>
    intro f hpow hmul ih d h
    rw [diff?_log hpow hmul] at h
    obtain ⟨f', hf, rfl⟩ := Option.map_eq_some_iff.mp h
    simp only [vars, List.append_subset]
    exact ⟨ih f' hf, List.Subset.refl _, List.nil_subset _⟩

/-- Differentiation brings in no variable. -/
theorem vars_subset_of_diff? (h : e.diff? x = some d) : d.vars ⊆ e.vars :=
  (vars_subset_of_diff?_and_log x).1 e d h

end Coefficient

/-! ### Evaluation -/

/-- How the operations of an expression are carried out on values of type `β`. -/
structure Operations (α ε β : Type) where
  const : α → β
  add : β → β → Except ε β
  mul : β → β → Except ε β
  pow : β → β → Except ε β
  log : β → Except ε β
  sin : β → β
  cos : β → β

section Operations

variable {ε β : Type} {ops : Operations α ε β} {lookup lookup' : String → Except ε β} {e : Expr α}

/-- Evaluation with given operations; a variable is looked up. -/
def evalWith (ops : Operations α ε β) (lookup : String → Except ε β) : Expr α → Except ε β
  | const c => .ok (ops.const c)
  | var x => lookup x
  | add l r => do ops.add (← evalWith ops lookup l) (← evalWith ops lookup r)
  | mul l r => do ops.mul (← evalWith ops lookup l) (← evalWith ops lookup r)
  | pow b k => do ops.pow (← evalWith ops lookup b) (← evalWith ops lookup k)
  | log f => do ops.log (← evalWith ops lookup f)
  | sin f => do return ops.sin (← evalWith ops lookup f)
  | cos f => do return ops.cos (← evalWith ops lookup f)

/-- Nothing but the variables of an expression is looked up. -/
theorem evalWith_congr (h : ∀ x ∈ e.vars, lookup x = lookup' x) :
    e.evalWith ops lookup = e.evalWith ops lookup' := by
  induction e with
  | const c => rfl
  | var x => exact h x (List.mem_singleton.mpr rfl)
  | add l p ihl ihp | mul l p ihl ihp | pow l p ihl ihp =>
    rw [evalWith, evalWith, ihl fun x hx => h x (List.mem_append_left _ hx),
      ihp fun x hx => h x (List.mem_append_right _ hx)]
  | log f ih | sin f ih | cos f ih => rw [evalWith, evalWith, ih h]

/-- The errors of the operations. -/
inductive Operations.Fails (ops : Operations α ε β) (err : ε) : Prop where
  | add {u v : β} (h : ops.add u v = .error err) : Fails ops err
  | mul {u v : β} (h : ops.mul u v = .error err) : Fails ops err
  | pow {u v : β} (h : ops.pow u v = .error err) : Fails ops err
  | log {u : β} (h : ops.log u = .error err) : Fails ops err

/-- What two operands and an operation on them fail at. -/
theorem error_of_operands {err : ε} {xs ys : List String} {r r' : Except ε β}
    {op : β → β → Except ε β} (hop : ∀ u v, op u v = .error err → ops.Fails err)
    (hr : r = .error err → (∃ x ∈ xs, lookup x = .error err) ∨ ops.Fails err)
    (hr' : r' = .error err → (∃ x ∈ ys, lookup x = .error err) ∨ ops.Fails err)
    (h : (do op (← r) (← r')) = .error err) :
    (∃ x ∈ xs ++ ys, lookup x = .error err) ∨ ops.Fails err := by
  rcases error_of_bind h with hleft | ⟨u, -, h⟩
  · exact (hr hleft).imp_left fun ⟨x, hx, hlookup⟩ => ⟨x, List.mem_append_left _ hx, hlookup⟩
  · rcases error_of_bind h with hright | ⟨v, -, h⟩
    · exact (hr' hright).imp_left fun ⟨x, hx, hlookup⟩ => ⟨x, List.mem_append_right _ hx, hlookup⟩
    · exact .inr (hop u v h)

/-- An evaluation fails at a variable of the expression or at an operation. -/
theorem error_of_evalWith {err : ε} (h : e.evalWith ops lookup = .error err) :
    (∃ x ∈ e.vars, lookup x = .error err) ∨ ops.Fails err := by
  induction e with
  | const c => cases h
  | var x => exact .inl ⟨x, List.mem_singleton.mpr rfl, h⟩
  | add l p ihl ihp => exact error_of_operands (fun _ _ => .add) ihl ihp h
  | mul l p ihl ihp => exact error_of_operands (fun _ _ => .mul) ihl ihp h
  | pow l p ihl ihp => exact error_of_operands (fun _ _ => .pow) ihl ihp h
  | log f ih =>
    rcases error_of_bind h with hf | ⟨u, -, hu⟩
    · exact ih hf
    · exact .inr (.log hu)
  | sin f ih | cos f ih =>
    rcases error_of_bind h with hf | ⟨u, -, h⟩
    · exact ih hf
    · cases h

end Operations

section Lookup

variable {β : Type} {values values' : String → Option β} {x y : String}

/-- The value of a variable. -/
def lookUp (values : String → Option β) (x : String) : Except (EvalError α) β :=
  match values x with
  | some b => .ok b
  | none => .error (.unbound x)

theorem lookUp_congr {e : Expr α} (h : ∀ x ∈ e.vars, values x = values' x) :
    ∀ x ∈ e.vars, lookUp (α := α) values x = lookUp values' x := fun x hx => by
  rw [lookUp, lookUp, h x hx]

theorem lookUp_eq_unbound (h : lookUp values y = .error (.unbound x : EvalError α)) :
    y = x ∧ values x = none := by
  rw [lookUp] at h
  cases hy : values y with
  | none =>
    rw [hy] at h
    cases h
    exact ⟨rfl, hy⟩
  | some b =>
    rw [hy] at h
    cases h

end Lookup

section Arithmetic

variable [Arithmetic α] {e : Expr α} {x : String}

/-- Operations on numbers. -/
def Operations.scalar : Operations α (EvalError α) α where
  const c := c
  add a b := .ok (a + b)
  mul a b := .ok (a * b)
  pow a b := .ok (Arithmetic.pow a b)
  log := evalLog
  sin := Arithmetic.sin
  cos := Arithmetic.cos

/-- Operations on batches. -/
def Operations.batch : Operations α (EvalError α) (Batch α) where
  const := .single
  add := Batch.zipWith (· + ·)
  mul := Batch.zipWith (· * ·)
  pow := Batch.zipWith Arithmetic.pow
  log := evalLogBatch
  sin := Batch.map Arithmetic.sin
  cos := Batch.map Arithmetic.cos

theorem eval_eq_evalWith (values : String → Option α) (e : Expr α) :
    e.eval values = e.evalWith .scalar (lookUp values) := by
  induction e with
  | const c => rfl
  | var x => rfl
  | add l p ihl ihp | mul l p ihl ihp | pow l p ihl ihp =>
    rw [eval, evalWith, ihl, ihp]
    rfl
  | log f ih | sin f ih | cos f ih =>
    rw [eval, evalWith, ih]
    rfl

theorem evalBatch_eq_evalWith (values : String → Option (Batch α)) (e : Expr α) :
    e.evalBatch values = e.evalWith .batch (lookUp values) := by
  induction e with
  | const c => rfl
  | var x => cases h : values x <;> simp [evalBatch, evalWith, lookUp, h]
  | add l p ihl ihp | mul l p ihl ihp | pow l p ihl ihp =>
    rw [evalBatch, evalWith, ihl, ihp]
    rfl
  | log f ih | sin f ih | cos f ih =>
    rw [evalBatch, evalWith, ih]
    rfl

/-- The value of an expression depends on its variables only. -/
theorem eval_congr {values values' : String → Option α}
    (h : ∀ x ∈ e.vars, values x = values' x) : e.eval values = e.eval values' := by
  rw [eval_eq_evalWith, eval_eq_evalWith, evalWith_congr (lookUp_congr h)]

/-- The value of an expression in batches depends on its variables only. -/
theorem evalBatch_congr {values values' : String → Option (Batch α)}
    (h : ∀ x ∈ e.vars, values x = values' x) : e.evalBatch values = e.evalBatch values' := by
  rw [evalBatch_eq_evalWith, evalBatch_eq_evalWith, evalWith_congr (lookUp_congr h)]

theorem evalLog_ne_unbound (u : α) : evalLog u ≠ .error (.unbound x) := by
  rw [evalLog]
  split <;> nofun

/-- No operation on numbers misses a value. -/
theorem Operations.not_fails_scalar :
    ¬ (Operations.scalar : Operations α (EvalError α) α).Fails (.unbound x) := by
  intro h
  cases h with
  | add h | mul h | pow h => cases h
  | log h => exact evalLog_ne_unbound _ h

omit [Arithmetic α] in
theorem zipWith_ne_unbound (f : α → α → α) (u v : Batch α) :
    u.zipWith f v ≠ .error (.unbound x) := by
  rw [Batch.zipWith.eq_def]
  split
  case h_6 => split <;> nofun
  all_goals nofun

theorem evalLogBatch_ne_unbound (u : Batch α) : evalLogBatch u ≠ .error (.unbound x) := by
  rw [evalLogBatch]
  split
  · nofun
  · split <;> nofun

/-- No operation on batches misses a value. -/
theorem Operations.not_fails_batch :
    ¬ (Operations.batch : Operations α (EvalError α) (Batch α)).Fails (.unbound x) := by
  intro h
  cases h with
  | add h | mul h | pow h => exact zipWith_ne_unbound _ _ _ h
  | log h => exact evalLogBatch_ne_unbound _ h

/-- A variable that is found to have no value is one of the expression's, and has none. -/
theorem unbound_of_eval {values : String → Option α} (h : e.eval values = .error (.unbound x)) :
    x ∈ e.vars ∧ values x = none := by
  rw [eval_eq_evalWith] at h
  rcases error_of_evalWith h with ⟨y, hy, hlookup⟩ | hfails
  · obtain ⟨rfl, hnone⟩ := lookUp_eq_unbound hlookup
    exact ⟨hy, hnone⟩
  · exact absurd hfails Operations.not_fails_scalar

/-- The same for batches. -/
theorem unbound_of_evalBatch {values : String → Option (Batch α)}
    (h : e.evalBatch values = .error (.unbound x)) : x ∈ e.vars ∧ values x = none := by
  rw [evalBatch_eq_evalWith] at h
  rcases error_of_evalWith h with ⟨y, hy, hlookup⟩ | hfails
  · obtain ⟨rfl, hnone⟩ := lookUp_eq_unbound hlookup
    exact ⟨hy, hnone⟩
  · exact absurd hfails Operations.not_fails_batch

end Arithmetic

end Expr

/-! ### Bindings -/

namespace Failure

variable {α : Type}

/-- The same failure where other names have values. -/
def withAvailable (names : List String) : Failure α → Failure α
  | unbound name _ => unbound name names
  | failure => failure

theorem withAvailable_ofEvalError (names names' : List String) (err : EvalError α) :
    (ofEvalError names' err).withAvailable names = ofEvalError names err := by
  cases err <;> rfl

theorem mapError_withAvailable {β : Type} (names names' : List String)
    (x : Except (EvalError α) β) :
    (x.mapError (ofEvalError names')).mapError (withAvailable names) =
      x.mapError (ofEvalError names) := by
  cases x with
  | error err => exact congrArg Except.error (withAvailable_ofEvalError names names' err)
  | ok b => rfl

theorem unbound_of_mapError {β : Type} {names names' : List String} {x : String}
    {r : Except (EvalError α) β} (h : r.mapError (ofEvalError names) = .error (.unbound x names')) :
    r = .error (.unbound x) := by
  cases r with
  | ok b => cases h
  | error err =>
    cases err with
    | unbound y =>
      cases h
      rfl
    | logDomain u => cases h
    | mismatch n m => cases h

end Failure

namespace Bindings

variable {α : Type} [Arithmetic α] {e : Expr α}

/-- Bindings that agree on the variables of an expression give it the same value, or the same
failure but for the names that it lists. -/
theorem evaluate_congr {bindings bindings' : Bindings α}
    (h : ∀ x ∈ e.vars, bindings[x]? = bindings'[x]?) :
    bindings.evaluate e =
      (bindings'.evaluate e).mapError (Failure.withAvailable bindings.keys) := by
  rw [evaluate, evaluate, Failure.mapError_withAvailable, Expr.eval_congr h]

omit e in
theorem evaluate_var {bindings : Bindings α} {x : String} (h : bindings[x]? = none) :
    bindings.evaluate (.var x) = .error (.unbound x bindings.keys) := by
  rw [evaluate, Expr.eval, h]
  rfl

/-- The names that a failure lists need not occur in the expression. -/
theorem evaluate_ne_of_agree :
    let bindings : Bindings Float := (∅ : Bindings Float).insert "y" 1
    (∀ x ∈ (Expr.var "x" : Expr Float).vars, (∅ : Bindings Float)[x]? = bindings[x]?) ∧
      (∅ : Bindings Float).evaluate (.var "x") ≠ bindings.evaluate (.var "x") := by
  intro bindings
  have hempty : (∅ : Bindings Float)["x"]? = none := Std.TreeMap.getElem?_emptyc
  have hinsert : bindings["x"]? = none := by
    rw [Std.TreeMap.getElem?_insert, if_neg (by decide), hempty]
  refine ⟨fun x hx => ?_, fun h => ?_⟩
  · obtain rfl := List.mem_singleton.mp hx
    rw [hempty, hinsert]
  · rw [evaluate_var hempty, evaluate_var hinsert] at h
    have hkeys : (∅ : Bindings Float).keys = bindings.keys := by
      injection h with h
      injection h
    have hy : "y" ∈ bindings.keys := Std.TreeMap.mem_keys.mpr Std.TreeMap.mem_insert_self
    rw [← hkeys, Std.TreeMap.mem_keys] at hy
    exact Std.TreeMap.not_mem_emptyc hy

theorem evaluateBatch_congr {bindings bindings' : Bindings (Batch α)}
    (h : ∀ x ∈ e.vars, bindings[x]? = bindings'[x]?) :
    bindings.evaluateBatch e =
      (bindings'.evaluateBatch e).mapError (Failure.withAvailable bindings.keys) := by
  rw [evaluateBatch, evaluateBatch, Failure.mapError_withAvailable, Expr.evalBatch_congr h]

omit [Arithmetic α] in
theorem getElem?_ne_none {β : Type} {bindings : Bindings β} {x : String} (h : x ∈ bindings) :
    bindings[x]? ≠ none :=
  Option.ne_none_iff_isSome.mpr (Std.TreeMap.isSome_getElem?_iff_mem.mpr h)

/-- With values for all variables of an expression, evaluation does not miss one. -/
theorem evaluate_ne_unbound {bindings : Bindings α} (h : ∀ x ∈ e.vars, x ∈ bindings) (y : String)
    (names : List String) : bindings.evaluate e ≠ .error (.unbound y names) := by
  intro herr
  obtain ⟨hy, hnone⟩ := Expr.unbound_of_eval (Failure.unbound_of_mapError herr)
  exact getElem?_ne_none (h y hy) hnone

theorem evaluateBatch_ne_unbound {bindings : Bindings (Batch α)} (h : ∀ x ∈ e.vars, x ∈ bindings)
    (y : String) (names : List String) :
    bindings.evaluateBatch e ≠ .error (.unbound y names) := by
  intro herr
  obtain ⟨hy, hnone⟩ := Expr.unbound_of_evalBatch (Failure.unbound_of_mapError herr)
  exact getElem?_ne_none (h y hy) hnone

omit [Arithmetic α] in
/-- Two outcomes that differ at most in the names that a failure lists are equal when no value is
missed. -/
theorem eq_of_mapError_withAvailable {β : Type} {names : List String}
    {r r' : Except (Failure α) β} (h : r = r'.mapError (Failure.withAvailable names))
    (hne : ∀ y names, r' ≠ .error (.unbound y names)) : r = r' := by
  cases r' with
  | ok b => exact h
  | error failure =>
    cases failure with
    | unbound y names => exact absurd rfl (hne y names)
    | _ => exact h

omit [Arithmetic α] in
theorem covers_iff {β : Type} {bindings : Bindings β} :
    bindings.covers e ↔ ∀ x ∈ e.vars, x ∈ bindings := by
  simp only [covers, List.all_eq_true, Std.TreeMap.contains_iff_mem]

end Bindings

/-! ### Lines that are not assignments -/

namespace Workspace

variable {α : Type} [Arithmetic α] {w : Workspace α} {e d : Expr α}

/-- An expression is read together with one that has no other variables. -/
theorem read_ne_unbound (hd : d.vars ⊆ e.vars) (y : String) (names : List String) :
    w.read e d ≠ .error (.unbound y names) := by
  intro h
  rw [read] at h
  split at h
  · rename_i hcovers
    have hbound := Bindings.covers_iff.mp hcovers
    rcases error_of_bind h with h | ⟨value, -, h⟩
    · exact Bindings.evaluate_ne_unbound hbound y names h
    · rcases error_of_bind h with h | ⟨slope, -, h⟩
      · exact Bindings.evaluate_ne_unbound (fun x hx => hbound x (hd hx)) y names h
      · cases h
  · cases h

/-- An expression is read just when its variables have values. -/
theorem isSome_of_read {reading : Option (Reading α)} (h : w.read e d = .ok reading) :
    reading.isSome ↔ ∀ x ∈ e.vars, x ∈ w.bindings := by
  rw [← Bindings.covers_iff]
  rw [read] at h
  split at h
  · rename_i hcovers
    obtain ⟨value, -, h⟩ := ok_of_bind h
    obtain ⟨slope, -, h⟩ := ok_of_bind h
    obtain rfl := Except.ok.inj h
    exact iff_of_true rfl hcovers
  · rename_i hcovers
    obtain rfl := Except.ok.inj h
    exact iff_of_false nofun hcovers

/-- The expression that a derivative is read from has no variables of its own. -/
theorem vars_derivative_subset {x : String} {prune : Bool} {pruned : Option (Expr α)}
    (hd : e.diff? x = some d) (hpruned : pruned = if prune then d.simplify? else none) :
    (pruned.getD d).vars ⊆ e.vars := by
  have hvars : d.vars ⊆ e.vars := Expr.vars_subset_of_diff? hd
  cases pruned with
  | none => exact hvars
  | some p =>
    cases prune with
    | false => cases hpruned
    | true => exact List.Subset.trans (Expr.vars_subset_of_simplify? hpruned.symm) hvars

theorem derive_ne_unbound (y : String) (names : List String) :
    w.derive e ≠ .error (.unbound y names) := by
  have hderives := w.derives e
  generalize w.derive e = r at hderives ⊢
  cases hderives with
  | indeterminate => nofun
  | read hd hpruned =>
    intro h
    exact read_ne_unbound (vars_derivative_subset hd hpruned) y names (error_of_map h)

theorem reading_of_derive {o : Outcome α} (h : w.derive e = .ok o) :
    ∃ d pruned reading, o = .derived d pruned reading ∧
      (reading.isSome ↔ ∀ x ∈ e.vars, x ∈ w.bindings) := by
  have hderives := w.derives e
  generalize w.derive e = r at h hderives
  cases hderives with
  | indeterminate => cases h
  | read hd hpruned =>
    obtain ⟨reading, hread, rfl⟩ := ok_of_map h
    exact ⟨_, _, reading, rfl, isSome_of_read hread⟩

theorem run_ne_unbound {line : String} {f : Formula} (hparse : Statement.parse line = .ok ⟨none, f⟩)
    (y : String) (names : List String) : w.run line ≠ .error (.unbound y names) := by
  have hruns := w.runs line
  generalize w.run line = r at hruns ⊢
  cases hruns with
  | rejected h => nofun
  | tooDeep h => nofun
  | unassigned h =>
    rw [hparse] at h
    cases h
  | assigned h => nofun
  | underived h _ hderive =>
    intro herr
    cases herr
    exact derive_ne_unbound y names hderive
  | derived h => nofun

theorem reading_of_run {line : String} {f : Formula} {step : Step α} {w' : Workspace α}
    (hparse : Statement.parse line = .ok ⟨none, f⟩) (h : w.run line = .ok (step, w')) :
    ∃ d pruned reading, step.outcome = .derived d pruned reading ∧
      (reading.isSome ↔ ∀ x ∈ (f.lower : Expr α).vars, x ∈ w.bindings) := by
  have hruns := w.runs line
  generalize w.run line = r at h hruns
  cases hruns with
  | rejected h' => cases h
  | tooDeep h' => cases h
  | unassigned h' => cases h
  | assigned h' =>
    rw [hparse] at h'
    cases h'
  | underived h' => cases h
  | derived h' _ hderive =>
    cases h
    rw [hparse] at h'
    cases h'
    exact reading_of_derive hderive

/-- **A line that is not an assignment never fails for want of a value.** Neither differentiation
nor pruning brings in a variable, and evaluation depends on the variables of an expression alone,
but for the names that a failure lists. So a formula which is not assigned is read, together with
its derivative, just when all its variables have values, and misses none of them. -/
theorem run_reads_bound :
    (∀ (x : String) (e d : Expr α), e.diff? x = some d → d.vars ⊆ e.vars) ∧
    (∀ e s : Expr α, e.simplify? = some s → s.vars ⊆ e.vars) ∧
    (∀ (e : Expr α) (bindings bindings' : Bindings α),
      (∀ x ∈ e.vars, bindings[x]? = bindings'[x]?) →
        bindings.evaluate e =
          (bindings'.evaluate e).mapError (Failure.withAvailable bindings.keys)) ∧
    (∀ (e : Expr α) (bindings : Bindings α), (∀ x ∈ e.vars, x ∈ bindings) →
      (∀ y names, bindings.evaluate e ≠ .error (.unbound y names)) ∧
      ∀ bindings' : Bindings α, (∀ x ∈ e.vars, bindings[x]? = bindings'[x]?) →
        bindings'.evaluate e = bindings.evaluate e) ∧
    (∀ (e : Expr α) (bindings bindings' : Bindings (Batch α)),
      (∀ x ∈ e.vars, bindings[x]? = bindings'[x]?) →
        bindings.evaluateBatch e =
          (bindings'.evaluateBatch e).mapError (Failure.withAvailable bindings.keys)) ∧
    (∀ (e : Expr α) (bindings : Bindings (Batch α)), (∀ x ∈ e.vars, x ∈ bindings) →
      (∀ y names, bindings.evaluateBatch e ≠ .error (.unbound y names)) ∧
      ∀ bindings' : Bindings (Batch α), (∀ x ∈ e.vars, bindings[x]? = bindings'[x]?) →
        bindings'.evaluateBatch e = bindings.evaluateBatch e) ∧
    ∀ (w : Workspace α) (line : String) (f : Formula), Statement.parse line = .ok ⟨none, f⟩ →
      (∀ y names, w.run line ≠ .error (.unbound y names)) ∧
      ∀ step w', w.run line = .ok (step, w') →
        ∃ d pruned reading, step.outcome = .derived d pruned reading ∧
          (reading.isSome ↔ ∀ x ∈ (f.lower : Expr α).vars, x ∈ w.bindings) := by
  refine ⟨fun x e d h => Expr.vars_subset_of_diff? h, fun e s h => Expr.vars_subset_of_simplify? h,
    fun e B B' h => Bindings.evaluate_congr h, fun e B h => ⟨?_, fun B' hagree => ?_⟩,
    fun e B B' h => Bindings.evaluateBatch_congr h, fun e B h => ⟨?_, fun B' hagree => ?_⟩,
    fun w line f h => ⟨run_ne_unbound h, fun step w' hrun => reading_of_run h hrun⟩⟩
  · exact Bindings.evaluate_ne_unbound h
  · exact Bindings.eq_of_mapError_withAvailable
      (Bindings.evaluate_congr fun x hx => (hagree x hx).symm) (Bindings.evaluate_ne_unbound h)
  · exact Bindings.evaluateBatch_ne_unbound h
  · exact Bindings.eq_of_mapError_withAvailable
      (Bindings.evaluateBatch_congr fun x hx => (hagree x hx).symm)
      (Bindings.evaluateBatch_ne_unbound h)

/-- A product of two variables with a value for one of them only, and that one under bindings that
differ elsewhere. -/
theorem run_reads_bound_product :
    let w : Workspace Float := { prune := false, bindings := (∅ : Bindings Float).insert "x" 2 }
    let product : Expr Float := .mul (.var "y") (.var "x")
    (∀ y names, w.run "y*x" ≠ .error (.unbound y names)) ∧
      (∃ step w', w.run "y*x" = .ok (step, w') ∧
        ∃ d pruned, step.outcome = .derived d pruned none) ∧
      (∃ d, product.diff? "x" = some d ∧ d.vars ⊆ product.vars) ∧
      Bindings.evaluate (w.bindings.insert "y" 3) (.var "x") = w.bindings.evaluate (.var "x") := by
  intro w product
  obtain ⟨hdiff, -, -, heval, -, -, hrun⟩ := run_reads_bound (α := Float)
  let d : Expr Float := .add (.mul (.const 0) (.var "x")) (.mul (.var "y") (.const 1))
  have htokens : Lexer.tokenize "y*x" =
      [⟨.name, "y", 0⟩, ⟨.times, "*", 1⟩, ⟨.name, "x", 2⟩] := by decide +kernel
  have hparse : Statement.parse "y*x" = .ok ⟨none, .mul (.var "y") (.var "x")⟩ := by
    rw [Statement.parse, htokens]
    rfl
  have hd : product.diff? "x" = some d := by
    rw [Expr.diff?_mul]
    simp [Expr.diff?, d]
  have hx : "x" ∈ w.bindings := Std.TreeMap.mem_insert_self
  have hy : "y" ∉ w.bindings := by simp [w, Std.TreeMap.mem_insert]
  have hread : w.read product d = .ok none :=
    if_neg fun h => hy (Bindings.covers_iff.mp h "y" List.mem_cons_self)
  have hderive : w.derive product = .ok (.derived d none none) := by
    rw [derive_eq, show product.diff? w.wrt = some d from hd]
    show Outcome.derived d none <$> w.read product d = _
    rw [hread]
    rfl
  have hline : w.run "y*x" = .ok (⟨product, "x", .derived d none none⟩, w) := by
    rw [run_eq, hparse]
    show (w.derive product >>= fun o => pure ((⟨product, "x", o⟩ : Step Float), w)) = _
    rw [hderive]
    rfl
  obtain ⟨hne, hreading⟩ := hrun w "y*x" _ hparse
  refine ⟨hne, ⟨_, w, hline, ?_⟩, ⟨d, hd, hdiff "x" product d hd⟩, ?_⟩
  · obtain ⟨d, pruned, reading, hout, hiff⟩ := hreading _ _ hline
    cases reading with
    | none => exact ⟨d, pruned, hout⟩
    | some r => exact absurd (hiff.mp rfl "y" List.mem_cons_self) hy
  · refine (heval (.var "x") w.bindings fun x hmem => ?_).2 _ fun x hmem => ?_
    · rwa [List.mem_singleton.mp hmem]
    · obtain rfl := List.mem_singleton.mp hmem
      exact (Std.TreeMap.getElem?_insert.trans (if_neg (by decide))).symm

end Workspace

end Fluxion
