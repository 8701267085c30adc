import Fluxion.Proofs.Rules

/-!
# Rewriting terminates

Pruning and differentiation call themselves on expressions that are no parts of the one they were
given: on the pieces of a logarithm that was taken apart, on the operands of a power after these
were pruned, and on `log b * k` for a power `b ^ k`. Some of these have more nodes than the
expression itself. What each of them has less of is weight: pruning never adds any, and every call
is made on something lighter.

## The calls as data

A function does not show the calls that were made on the way to its value. So the two rewrites are
written down once more as scripts, in which a call to either of them is a step of its own, with the
expression it is made on. There are two ways to run a script. One answers each call by the rewrite
itself, and gives the rewrite back. The other answers it by a run of the script that is called, with
one level of depth less, and gives up when no depth is left. With the weight of an expression as its
depth it never does, so that both agree.

## Main definitions

* `Rewrite`, `Rewrite.apply` — pruning, or differentiation with respect to a variable
* `Script`, `Rewrite.script` — what a rewrite does with an expression, call by call
* `Script.Every` — a property of all calls that a script makes
* `Rewrite.within` — a rewrite with a bound on the depth of its calls

## Main results

* `Rewrite.run_script` — the scripts are those of the rewrites
* `Rewrite.every_script` — every call is made on a lighter expression
* `Rewrite.terminates` — the depth of the calls is at most the weight
-/

namespace Fluxion

open Fluxion.Expr (simplify? diff? pruneAdd pruneMul prunePow?)

variable {α : Type}

/-! ### Scripts -/

/-- A rewrite of expressions. -/
inductive Rewrite where
  | prune
  /-- Differentiation with respect to a variable. -/
  | diff (x : String)

/-- What a rewrite does with an expression: it ends, with a result or without, or it has an
expression rewritten and goes on with what comes out. If nothing comes out, it ends without a
result. -/
inductive Script (α : Type) where
  | done (result : Option (Expr α))
  | call (f : Rewrite) (e : Expr α) (next : Expr α → Script α)

section

variable [Coefficient α]

/-- The expression that a rewrite makes of another, unless a zero to the power zero is met. -/
def Rewrite.apply : Rewrite → Expr α → Option (Expr α)
  | prune => simplify?
  | diff x => diff? x

/-- Which calls are made for the derivative of a power whose operands are pruned depends on them. -/
def Script.ofPowRule (x : String) (b k : Expr α) : Script α :=
  if b.constant?.isSome then
    .call (.diff x) k fun k' =>
      .done (some (if k'.isZero then .const 0 else .mul (.log b) (.mul (.pow b k) k')))
  else match k.constant? with
    | some n =>
      .call (.diff x) b fun b' => .done (some (.mul k (.mul (.pow b (.const (n - 1))) b')))
    | none => .call (.diff x) (.mul (.log b) k) fun d => .done (some (.mul (.pow b k) d))

/-- The calls of a rewrite, and what is made of their results. -/
def Rewrite.script : Rewrite → Expr α → Script α
  | prune, .const c => .done (some (.const c))
  | prune, .var y => .done (some (.var y))
  | prune, .add l r =>
    .call prune l fun l' => .call prune r fun r' => .done (some (pruneAdd l' r'))
  | prune, .mul l r =>
    .call prune l fun l' => .call prune r fun r' => .done (some (pruneMul l' r'))
  | prune, .pow b k => .call prune b fun b' => .call prune k fun k' => .done (prunePow? b' k')
  | prune, .log (.pow b k) => .call prune (.mul k (.log b)) fun s => .done (some s)
  | prune, .log (.mul p q) => .call prune (.add (.log p) (.log q)) fun s => .done (some s)
  | prune, .log f => .call prune f fun f' => .done (some (.log f'))
  | prune, .sin f => .call prune f fun f' => .done (some (.sin f'))
  | prune, .cos f => .call prune f fun f' => .done (some (.cos f'))
  | diff _, .const _ => .done (some (.const 0))
  | diff x, .var y => .done (some (.const (if y = x then 1 else 0)))
  | diff x, .add l r =>
    .call (diff x) l fun l' => .call (diff x) r fun r' => .done (some (.add l' r'))
  | diff x, .mul l r =>
    .call (diff x) l fun l' => .call (diff x) r fun r' =>
      .done (some (.add (.mul l' r) (.mul l r')))
  | diff x, .pow base exponent =>
    .call prune base fun b => .call prune exponent fun k => .ofPowRule x b k
  | diff x, .log (.pow b k) => .call (diff x) (.mul k (.log b)) fun d => .done (some d)
  | diff x, .log (.mul p q) => .call (diff x) (.add (.log p) (.log q)) fun d => .done (some d)
  | diff x, .log f =>
    .call (diff x) f fun f' => .done (some (.mul f' (.pow f (.const (-1)))))
  | diff x, .sin f => .call (diff x) f fun f' => .done (some (.mul (.cos f) f'))
  | diff x, .cos f =>
    .call (diff x) f fun f' => .done (some (.mul (.mul (.sin f) (.const (-1))) f'))

namespace Script

/-- The result of a script whose calls are answered by the rewrites themselves. -/
def run : Script α → Option (Expr α)
  | done result => result
  | call f e next => (f.apply e).bind fun s => (next s).run

/-- A property of all calls that a script makes. -/
def Every (P : Rewrite → Expr α → Prop) : Script α → Prop
  | done _ => True
  | call f e next => P f e ∧ ∀ s, f.apply e = some s → (next s).Every P

theorem Every.imp {P Q : Rewrite → Expr α → Prop} {t : Script α} (h : t.Every P)
    (hPQ : ∀ f e, P f e → Q f e) : t.Every Q := by
  induction t with
  | done result => trivial
  | call f e next ih => exact ⟨hPQ f e h.1, fun s hs => ih s (h.2 s hs)⟩

end Script

end

/-- The result of a script whose calls are answered by `answer?`, which may also give up. -/
def Script.runWith (answer? : Rewrite → Expr α → Option (Option (Expr α))) :
    Script α → Option (Option (Expr α))
  | done result => some result
  | call f e next =>
    match answer? f e with
    | some (some s) => (next s).runWith answer?
    | some none => some none
    | none => none

variable [Coefficient α]

/-- A rewrite whose calls are nested at most `depth` deep, itself included; `none` if they would
have to be nested deeper. -/
def Rewrite.within : Nat → Rewrite → Expr α → Option (Option (Expr α))
  | 0, _, _ => none
  | depth + 1, f, e => (f.script e).runWith (within depth)

/-! ### The scripts are those of the rewrites -/

namespace Rewrite

variable {f : Rewrite} {e : Expr α}

theorem run_script_prune (e : Expr α) : (script prune e).run = simplify? e := by
  cases e with
  | const | var => simp only [script, Script.run, simplify?]
  | add l r | mul l r | pow l r => rw [simplify?]; rfl
  | log f =>
    cases f with
    | pow b k => rw [simplify?]; exact Option.bind_fun_some _
    | mul p q => rw [simplify?]; exact Option.bind_fun_some _
    | _ => rw [Expr.simplify?_log (by simp) (by simp)]; exact Option.map_eq_bind.symm
  | sin f | cos f => rw [simplify?]; rfl

theorem run_ofPowRule (x : String) (b k : Expr α) :
    (Script.ofPowRule x b k).run = Expr.powRule? x b k := by
  rw [Script.ofPowRule, Expr.powRule?]
  cases b.constant? with
  | some c => exact Option.map_eq_bind.symm
  | none => cases k.constant? <;> exact Option.map_eq_bind.symm

theorem run_script_diff (x : String) (e : Expr α) : (script (diff x) e).run = diff? x e := by
  cases e with
  | const | var => simp only [script, Script.run, diff?]
  | add l r | mul l r | sin f | cos f => rw [diff?]; rfl
  | pow base exponent =>
    rw [Expr.diff?_pow]
    exact congrArg _ (funext fun b => congrArg _ (funext fun k => run_ofPowRule x b k))
  | log f =>
    cases f with
    | pow b k => rw [diff?]; exact Option.bind_fun_some _
    | mul p q => rw [diff?]; exact Option.bind_fun_some _
    | _ => rw [Expr.diff?_log (by simp) (by simp)]; exact Option.map_eq_bind.symm

/-- **The scripts are those of the rewrites.** -/
theorem run_script (f : Rewrite) (e : Expr α) : (f.script e).run = f.apply e := by
  cases f with
  | prune => exact run_script_prune e
  | diff x => exact run_script_diff x e

/-! ### Calls on lighter expressions -/

section

variable {P : Rewrite → Expr α → Prop} {c c' : Expr α}

theorem every_call {result : Expr α → Option (Expr α)} (h : P f c) :
    (Script.call f c fun s => .done (result s)).Every P :=
  ⟨h, fun _ _ => trivial⟩

theorem every_call_call {g : Rewrite} {result : Expr α → Expr α → Option (Expr α)} (h : P f c)
    (h' : P g c') : (Script.call f c fun s => .call g c' fun s' => .done (result s s')).Every P :=
  ⟨h, fun _ _ => every_call h'⟩

end

theorem every_script_prune (e : Expr α) :
    (script prune e).Every fun _ c => c.weight < e.weight := by
  cases e with
  | const | var => trivial
  | add l r | mul l r | pow l r =>
    refine every_call_call ?_ ?_ <;> simp only [Expr.weight] <;> omega
  | log g =>
    cases g with
    | pow b k => exact every_call (Expr.weight_logOfPow_lt b k)
    | mul p q => exact every_call (Expr.weight_logOfMul_lt p q)
    | _ => exact every_call (Expr.weight_lt_log _)
  | sin g | cos g => exact every_call (Nat.lt_succ_self _)

/-- The general rule calls itself on `log b * k`. That is lighter than a power of the operands from
before they were pruned, because pruning added no weight to them. -/
theorem every_ofPowRule (x : String) {n : Nat} {b k : Expr α}
    (h : (Expr.mul (.log b) k).weight < n) :
    (Script.ofPowRule x b k).Every fun _ c => c.weight < n := by
  have hlight := h
  simp only [Expr.weight] at hlight
  rw [Script.ofPowRule]
  split
  · exact every_call (by omega)
  · split
    · exact every_call (by omega)
    · exact every_call h

theorem every_script_diff (x : String) (e : Expr α) :
    (script (diff x) e).Every fun _ c => c.weight < e.weight := by
  cases e with
  | const | var => trivial
  | add l r | mul l r => refine every_call_call ?_ ?_ <;> simp only [Expr.weight] <;> omega
  | pow base exponent =>
    simp only [Expr.weight]
    refine ⟨by omega, fun b hb => ⟨by omega, fun k hk => every_ofPowRule x ?_⟩⟩
    have hbase := Expr.weight_le_of_simplify? hb
    have hexponent := Expr.weight_le_of_simplify? hk
    simp only [Expr.weight]
    omega
  | log g =>
    cases g with
    | pow b k => exact every_call (Expr.weight_logOfPow_lt b k)
    | mul p q => exact every_call (Expr.weight_logOfMul_lt p q)
    | _ => exact every_call (Expr.weight_lt_log _)
  | sin g | cos g => exact every_call (Nat.lt_succ_self _)

/-- **Every call is made on a lighter expression.** -/
theorem every_script (f : Rewrite) (e : Expr α) :
    (f.script e).Every fun _ c => c.weight < e.weight := by
  cases f with
  | prune => exact every_script_prune e
  | diff x => exact every_script_diff x e

/-! ### The depth of the calls -/

/-- The two ways to run a script agree when they agree on its calls. -/
theorem runWith_eq_run {answer? : Rewrite → Expr α → Option (Option (Expr α))} {t : Script α}
    (h : t.Every fun f e => answer? f e = some (f.apply e)) : t.runWith answer? = some t.run := by
  induction t with
  | done result => rfl
  | call f e next ih =>
    obtain ⟨hcall, hnext⟩ := h
    rw [Script.runWith, hcall, Script.run]
    cases hs : f.apply e with
    | none => rfl
    | some s => exact ih s (hnext s hs)

/-- By induction on the depth: a call is made on something lighter, so that one level less is enough
for it. -/
theorem within_eq_apply {depth : Nat} (h : e.weight ≤ depth) :
    f.within depth e = some (f.apply e) := by
  induction depth generalizing f e with
  | zero => exact absurd h (Nat.not_le.mpr e.weight_pos)
  | succ depth ih =>
    have hcalls : (f.script e).Every fun g c => within depth g c = some (g.apply c) :=
      (every_script f e).imp fun g c hc => ih (Nat.le_of_lt_succ (Nat.lt_of_lt_of_le hc h))
    rw [within, runWith_eq_run hcalls, run_script]

/-- **Rewriting terminates.** Pruning never adds weight to an expression. Each of the two rewrites
does what its script says, and all calls in it, to itself or to the other, are made on lighter
expressions. So the calls are nested no deeper than the weight of the expression, and with that much
depth a rewrite ends as it should. -/
theorem terminates :
    (∀ e s : Expr α, simplify? e = some s → s.weight ≤ e.weight) ∧
    ∀ (f : Rewrite) (e : Expr α),
      (f.script e).run = f.apply e ∧
      ((f.script e).Every fun _ c => c.weight < e.weight) ∧
      ∀ depth, e.weight ≤ depth → f.within depth e = some (f.apply e) :=
  ⟨fun _ _ => Expr.weight_le_of_simplify?, fun f e =>
    ⟨run_script f e, every_script f e, fun _ => within_eq_apply⟩⟩

/-- The logarithm of a power of a product becomes an expression with more nodes and less weight. -/
theorem terminates_log :
    let e : Expr Float := .log (.pow (.mul (.var "x") (.var "y")) (.const 2))
    let s : Expr Float := .mul (.const 2) (.add (.log (.var "x")) (.log (.var "y")))
    simplify? e = some s ∧ s.weight ≤ e.weight ∧ e.weight = 18 ∧
      (diff "x").within 18 e = some (some (.add
        (.mul (.const 0) (.log (.mul (.var "x") (.var "y"))))
        (.mul (.const 2) (.add (.mul (.const 1) (.pow (.var "x") (.const (-1))))
          (.mul (.const 0) (.pow (.var "y") (.const (-1)))))))) := by
  intro e s
  have hs : simplify? e = some s := by
    have h2 : ((2 : Float) == 0) = false ∧ ((2 : Float) == 1) = false := by decide
    simp [e, s, simplify?, pruneMul, pruneAdd, Expr.isZero, Expr.isOne, h2]
  have hd : diff? "x" e = some (.add (.mul (.const 0) (.log (.mul (.var "x") (.var "y"))))
      (.mul (.const 2) (.add (.mul (.const 1) (.pow (.var "x") (.const (-1))))
        (.mul (.const 0) (.pow (.var "y") (.const (-1))))))) := by
    simp [e, diff?]
  obtain ⟨hpruned, hrewrite⟩ := terminates (α := Float)
  refine ⟨hs, hpruned e s hs, rfl, ?_⟩
  rw [← hd]
  exact (hrewrite (diff "x") e).2.2 18 (Nat.le_refl 18)

end Rewrite

end Fluxion
