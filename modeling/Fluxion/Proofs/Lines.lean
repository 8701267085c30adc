import Fluxion.Workspace.Basic

/-!
# What becomes of a line

The outcomes of running a line in a workspace, said once, so that proofs about sessions need not
open `Workspace.run`.

There are two kinds of lines that are accepted. An assignment gives a value to a name; it does so
at the very end, after its formula has been read and evaluated. Any other formula leaves the
workspace as it is.

## What a line that fails leaves behind

Nothing that was done to a workspace is undone by a failure, so that a line could fail half way and
leave a workspace behind that is neither the old one nor a new one. No line does: whatever can fail
only reads the workspace, and the one change comes after all that (`Workspace.Atomic`).

## Main definitions

* `Workspace.ReadOnly`, `Workspace.Atomic` — actions that change nothing, or nothing when they fail
* `Workspace.Runs` — the outcomes of a line, one constructor each
* `Workspace.Derives` — the outcomes of a formula that is not assigned

## Main results

* `Workspace.atomic_perform` — a line that fails leaves the workspace as it was
* `Workspace.runs`, `Workspace.derives` — running a line has one of these outcomes
* `Workspace.run_expression`, `Workspace.assigned_of_run` — what the two kinds of lines do
-/

namespace Fluxion

/-- A sequence fails because its first part does, or else because of what comes after it. -/
theorem error_of_bind {ε β γ : Type} {x : Except ε β} {f : β → Except ε γ} {err : ε}
    (h : x >>= f = .error err) : x = .error err ∨ ∃ b, x = .ok b ∧ f b = .error err := by
  cases x with
  | error err' =>
    obtain rfl := Except.error.inj h
    exact .inl rfl
  | ok b => exact .inr ⟨b, rfl, h⟩

/-- A sequence succeeds when both of its parts do. -/
theorem ok_of_bind {ε β γ : Type} {x : Except ε β} {f : β → Except ε γ} {c : γ}
    (h : x >>= f = .ok c) : ∃ b, x = .ok b ∧ f b = .ok c := by
  cases x with
  | error err => cases h
  | ok b => exact ⟨b, rfl, h⟩

theorem error_of_map {ε β γ : Type} {x : Except ε β} {f : β → γ} {err : ε}
    (h : f <$> x = .error err) : x = .error err := by
  cases x with
  | error err' =>
    obtain rfl := Except.error.inj h
    rfl
  | ok b => cases h

theorem ok_of_map {ε β γ : Type} {x : Except ε β} {f : β → γ} {c : γ} (h : f <$> x = .ok c) :
    ∃ b, x = .ok b ∧ f b = c := by
  cases x with
  | error err => cases h
  | ok b => exact ⟨b, rfl, Except.ok.inj h⟩

namespace Workspace

variable {α : Type}

/-! ### What an action leaves behind -/

section Action

variable {β γ : Type} {w w' : Workspace α} {x : Action α β} {f : β → Action α γ}
  {failure : Failure α} {b : β}

/-- The action changes no workspace. -/
def ReadOnly (x : Action α β) : Prop :=
  ∀ w, (∃ b, x.run w = .ok b w) ∨ ∃ failure, x.run w = .error failure w

/-- The action changes no workspace in which it fails. -/
def Atomic (x : Action α β) : Prop :=
  ∀ w failure w', x.run w = .error failure w' → w' = w

theorem readOnly_pure (b : β) : ReadOnly (pure b : Action α β) := fun _ => .inl ⟨b, rfl⟩

theorem readOnly_get : ReadOnly (get : Action α (Workspace α)) := fun w => .inl ⟨w, rfl⟩

theorem readOnly_attempt (r : Except (Failure α) β) : ReadOnly (attempt r) := by
  cases r with
  | error failure => exact fun _ => .inr ⟨failure, rfl⟩
  | ok b => exact fun _ => .inl ⟨b, rfl⟩

theorem ReadOnly.bind (hx : ReadOnly x) (hf : ∀ b, ReadOnly (f b)) : ReadOnly (x >>= f) := by
  intro w
  rw [EStateM.run_bind]
  rcases hx w with ⟨b, hrun⟩ | ⟨failure, hrun⟩
  · rw [hrun]
    exact hf b w
  · rw [hrun]
    exact .inr ⟨failure, rfl⟩

theorem ReadOnly.atomic (hx : ReadOnly x) : Atomic x := by
  intro w failure w' h
  rcases hx w with ⟨b, hrun⟩ | ⟨failure', hrun⟩
  · rw [hrun] at h
    cases h
  · rw [hrun] at h
    cases h
    rfl

/-- What comes before the first change may fail. -/
theorem ReadOnly.bind_atomic (hx : ReadOnly x) (hf : ∀ b, Atomic (f b)) : Atomic (x >>= f) := by
  intro w failure w' h
  rw [EStateM.run_bind] at h
  rcases hx w with ⟨b, hrun⟩ | ⟨failure', hrun⟩
  · rw [hrun] at h
    exact hf b w failure w' h
  · rw [hrun] at h
    cases h
    rfl

/-- What comes after the last failure may change. -/
theorem Atomic.bind_pure (hx : Atomic x) (g : β → γ) : Atomic (x >>= fun b => pure (g b)) := by
  intro w failure w' h
  rw [EStateM.run_bind] at h
  cases hrun : x.run w with
  | ok b w₁ =>
    rw [hrun] at h
    cases h
  | error failure' w₁ =>
    rw [hrun] at h
    cases h
    exact hx w failure w' hrun

theorem atomic_of_forall_ok (hx : ∀ w, ∃ b w', x.run w = .ok b w') : Atomic x := by
  intro w failure w' h
  obtain ⟨b, w₁, hrun⟩ := hx w
  rw [hrun] at h
  cases h

theorem outcome_eq_ok : w.outcome x = .ok (b, w') ↔ x.run w = .ok b w' := by
  rw [outcome]
  cases x.run w with
  | ok b' w₁ => simp
  | error failure w₁ => simp

theorem outcome_eq_error : w.outcome x = .error failure ↔ ∃ w', x.run w = .error failure w' := by
  rw [outcome]
  cases x.run w with
  | ok b' w₁ => simp
  | error failure' w₁ => simp

theorem outcome_attempt_bind (r : Except (Failure α) β) :
    w.outcome (attempt r >>= f) = r >>= fun b => w.outcome (f b) := by
  cases r <;> rfl

theorem outcome_bind_pure (g : β → γ) :
    w.outcome (x >>= fun b => pure (g b)) = (w.outcome x).map fun (b, w') => (g b, w') := by
  rw [outcome, outcome, EStateM.run_bind]
  cases x.run w <;> rfl

end Action

variable [Arithmetic α]

/-- What becomes of an expression that is not assigned. The derivative, pruned if the workspace
asks for it, is read together with the expression. -/
inductive Derives (w : Workspace α) (e : Expr α) : Except (Failure α) (Outcome α) → Prop
  /-- Differentiation or pruning met a zero to the power zero. -/
  | indeterminate (h : e.diff? w.wrt = none ∨
      w.prune = true ∧ ∃ d, e.diff? w.wrt = some d ∧ d.simplify? = none) :
      Derives w e (.error .indeterminate)
  | read {d : Expr α} {pruned : Option (Expr α)} (hd : e.diff? w.wrt = some d)
      (hpruned : pruned = if w.prune then d.simplify? else none)
      (hsome : pruned.isSome = w.prune) :
      Derives w e (.derived d pruned <$> w.read e (pruned.getD d))

theorem derive_eq (w : Workspace α) (e : Expr α) : w.derive e =
    determinate (e.diff? w.wrt) >>= fun d =>
      (if w.prune then some <$> determinate d.simplify? else pure none) >>= fun pruned =>
        .derived d pruned <$> w.read e (pruned.getD d) := by
  rw [derive]
  refine bind_congr fun d => ?_
  split <;> rfl

theorem derives (w : Workspace α) (e : Expr α) : w.Derives e (w.derive e) := by
  rw [derive_eq]
  cases hd : e.diff? w.wrt with
  | none => exact .indeterminate (.inl hd)
  | some d =>
    cases hprune : w.prune with
    | false => exact .read hd (by rw [hprune]; rfl) hprune.symm
    | true =>
      show w.Derives e ((some <$> determinate d.simplify?) >>= _)
      cases hp : d.simplify? with
      | none => exact .indeterminate (.inr ⟨hprune, d, hd, hp⟩)
      | some p =>
        have hpruned : some p = if w.prune then d.simplify? else none := by
          rw [hprune]
          exact hp.symm
        exact .read hd hpruned hprune.symm

theorem derived_of_derive {w : Workspace α} {e : Expr α} {o : Outcome α}
    (h : w.derive e = .ok o) : ∃ d pruned reading, o = .derived d pruned reading := by
  have hderives := w.derives e
  generalize w.derive e = r at h hderives
  cases hderives with
  | indeterminate => cases h
  | read =>
    obtain ⟨reading, -, rfl⟩ := ok_of_map h
    exact ⟨_, _, reading, rfl⟩

/-- The outcomes of a line. -/
inductive Runs (w : Workspace α) (line : String) :
    Except (Failure α) (Step α × Workspace α) → Prop
  /-- The line is no formula. -/
  | rejected {err : ParseError} (hparse : Statement.parse line = .error err) :
      Runs w line (.error (.parse err))
  | tooDeep {name : Option String} {f : Formula} (hparse : Statement.parse line = .ok ⟨name, f⟩)
      (hdepth : depthLimit < (f.lower : Expr α).depth) : Runs w line (.error .tooDeep)
  /-- The formula of an assignment has no value. -/
  | unassigned {name : String} {f : Formula} {failure : Failure α}
      (hparse : Statement.parse line = .ok ⟨some name, f⟩)
      (hdepth : (f.lower : Expr α).depth ≤ depthLimit)
      (hvalue : w.bindings.evaluate f.lower = .error failure) : Runs w line (.error failure)
  | assigned {name : String} {f : Formula} {value : α}
      (hparse : Statement.parse line = .ok ⟨some name, f⟩)
      (hdepth : (f.lower : Expr α).depth ≤ depthLimit)
      (hvalue : w.bindings.evaluate f.lower = .ok value) :
      Runs w line (.ok (⟨f.lower, w.wrt, .assigned name value⟩, w.save name value))
  | underived {f : Formula} {failure : Failure α} (hparse : Statement.parse line = .ok ⟨none, f⟩)
      (hdepth : (f.lower : Expr α).depth ≤ depthLimit)
      (hderive : w.derive f.lower = .error failure) : Runs w line (.error failure)
  | derived {f : Formula} {o : Outcome α} (hparse : Statement.parse line = .ok ⟨none, f⟩)
      (hdepth : (f.lower : Expr α).depth ≤ depthLimit)
      (hderive : w.derive f.lower = .ok o) : Runs w line (.ok (⟨f.lower, w.wrt, o⟩, w))

omit [Arithmetic α] in
theorem checkDepth_cases (e : Expr α) :
    (e.depth ≤ depthLimit ∧ checkDepth e = .ok e) ∨
      (depthLimit < e.depth ∧ checkDepth e = .error .tooDeep) := by
  rw [checkDepth]
  split
  · rename_i hdeep
    exact .inr ⟨hdeep, rfl⟩
  · rename_i hdeep
    exact .inl ⟨Nat.not_lt.mp hdeep, rfl⟩

/-- **A line that fails leaves the workspace as it was.** -/
theorem atomic_perform (line : String) : Atomic (perform line : Action α (Step α)) := by
  refine (readOnly_attempt _).bind_atomic fun statement => ?_
  refine (readOnly_attempt _).bind_atomic fun e => ?_
  obtain ⟨name, f⟩ := statement
  cases name with
  | some name =>
    exact readOnly_get.bind_atomic fun w => (readOnly_attempt _).bind_atomic fun value =>
      atomic_of_forall_ok fun w => ⟨_, _, rfl⟩
  | none =>
    exact (readOnly_get.bind fun w => (readOnly_attempt _).bind fun o => readOnly_pure _).atomic

/-- Running a line, with the workspace passed along. -/
theorem run_eq (w : Workspace α) (line : String) : w.run line =
    (Statement.parse line).mapError Failure.parse >>= fun statement =>
      checkDepth statement.formula.lower >>= fun e =>
        match statement.name with
        | some name => w.bindings.evaluate e >>= fun value =>
            .ok (⟨e, w.wrt, .assigned name value⟩, w.save name value)
        | none => w.derive e >>= fun o => .ok (⟨e, w.wrt, o⟩, w) := by
  rw [run, perform, outcome_attempt_bind]
  refine bind_congr fun statement => ?_
  rw [outcome_attempt_bind]
  refine bind_congr fun e => ?_
  obtain ⟨name, f⟩ := statement
  cases name with
  | some name => exact outcome_attempt_bind _
  | none => exact outcome_attempt_bind _

theorem runs (w : Workspace α) (line : String) : w.Runs line (w.run line) := by
  rw [run_eq]
  cases hparse : Statement.parse line with
  | error err => exact .rejected hparse
  | ok statement =>
    obtain ⟨name, f⟩ := statement
    show w.Runs line (checkDepth f.lower >>= _)
    rcases checkDepth_cases (f.lower : Expr α) with ⟨hle, hcheck⟩ | ⟨hdeep, hcheck⟩
    · rw [hcheck]
      cases name with
      | some name =>
        show w.Runs line (w.bindings.evaluate f.lower >>= _)
        cases hvalue : w.bindings.evaluate (f.lower : Expr α) with
        | error failure => exact .unassigned hparse hle hvalue
        | ok value => exact .assigned hparse hle hvalue
      | none =>
        show w.Runs line (w.derive f.lower >>= _)
        cases hderive : w.derive (f.lower : Expr α) with
        | error failure => exact .underived hparse hle hderive
        | ok o => exact .derived hparse hle hderive
    · rw [hcheck]
      exact .tooDeep hparse hdeep

/-! ### Expressions and assignments -/

section

variable {w w' : Workspace α} {line : String} {step : Step α}

/-- A formula that is not assigned leaves the workspace as it is. -/
theorem run_expression (w : Workspace α) {f : Formula}
    (hparse : Statement.parse line = .ok ⟨none, f⟩) :
    (∃ failure, w.run line = .error failure) ∨ ∃ step, w.run line = .ok (step, w) := by
  have hruns := w.runs line
  generalize w.run line = r at hruns ⊢
  cases hruns with
  | rejected | tooDeep | unassigned | underived => exact .inl ⟨_, rfl⟩
  | assigned h =>
    rw [hparse] at h
    cases h
  | derived => exact .inr ⟨_, rfl⟩

/-- A line that runs is an expression or an assignment. -/
theorem run_ok (hrun : w.run line = .ok (step, w')) :
    (∃ f, Statement.parse line = .ok ⟨none, f⟩) ∨
      ∃ name value, step.outcome = .assigned name value := by
  have hruns := w.runs line
  generalize w.run line = r at hrun hruns
  cases hruns with
  | rejected | tooDeep | unassigned | underived => cases hrun
  | assigned =>
    cases hrun
    exact .inr ⟨_, _, rfl⟩
  | derived hparse => exact .inl ⟨_, hparse⟩

/-- What an assignment that runs has done. -/
theorem assigned_of_run {name : String} {value : α} (hrun : w.run line = .ok (step, w'))
    (hout : step.outcome = .assigned name value) :
    ∃ f, Statement.parse line = .ok ⟨some name, f⟩ ∧ step.expression = f.lower ∧
      w.bindings.evaluate f.lower = .ok value ∧ w' = w.save name value := by
  have hruns := w.runs line
  generalize w.run line = r at hrun hruns
  cases hruns with
  | rejected | tooDeep | unassigned | underived => cases hrun
  | assigned hparse _ hvalue =>
    cases hrun
    cases hout
    exact ⟨_, hparse, rfl, hvalue, rfl⟩
  | derived _ _ hderive =>
    cases hrun
    obtain ⟨_, _, _, rfl⟩ := derived_of_derive hderive
    cases hout

end

end Workspace

end Fluxion
