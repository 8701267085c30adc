import Fluxion.Proofs.Parsing

/-!
# The parser does not look at positions

A parser decides by the kinds of tokens and keeps the texts of some of them. Where a token stands is
carried along for the sake of errors and never looked at. So when tokens are given other positions,
the parser answers as before: with the same formula, or with the same fault in front of the same
tokens, which have their new positions.

That is stated as an equation for each rule, for any map of tokens that keeps kinds and texts. The
answer of a rule is a value with the tokens behind it, and both halves of it are mapped
(`Formula.relabel`). The lemma about `>>=` is the only place where a value meets a fault.

## Main definitions

* `Token.Keeps` — a map of tokens that keeps their kinds and texts
* `Fault.map`, `Formula.relabel` — a fault, and an answer, with other tokens
* `Formula.Blind` — a parser that does not notice the map

## Main results

* `Formula.blind_joined`, `Formula.blind_atom`, `Formula.blind_powerOf`, `Formula.blind_unary` — no
  rule looks at positions
* `Formula.complete_map`, `Statement.splitName_map` — nor does the parser, nor what it does first
  with a statement
-/

namespace Fluxion

/-- A map of tokens that keeps their kinds and texts. -/
def Token.Keeps (f : Token → Token) : Prop :=
  ∀ t, (f t).kind = t.kind ∧ (f t).literal = t.literal

/-- A fault in front of other tokens. -/
def Fault.map (f : Token → Token) : Fault → Fault
  | unexpected expected rest => unexpected expected (rest.map f)
  | tooDeep => tooDeep

namespace Formula

variable {β γ : Type} {f : Token → Token}

/-- An answer with other tokens behind its value, or behind its fault. -/
def relabel (f : Token → Token) : Except Fault (β × List Token) → Except Fault (β × List Token)
  | .ok (b, rest) => .ok (b, rest.map f)
  | .error e => .error (e.map f)

/-- What is done with an answer is done with the other answer as well. -/
theorem relabel_bind {x : Except Fault (β × List Token)}
    {g : β × List Token → Except Fault (γ × List Token)}
    (h : ∀ b rest, g (b, rest.map f) = relabel f (g (b, rest))) :
    relabel f x >>= g = relabel f (x >>= g) := by
  cases x with
  | error e => rfl
  | ok out => exact h out.1 out.2

/-- The parser does not notice when tokens are mapped. -/
def Blind (f : Token → Token) (P : Parser β) : Prop := ∀ ts, P (ts.map f) = relabel f (P ts)

variable {P base exponent inner : Parser Formula}

theorem blind_chain (hf : Token.Keeps f) (hP : Blind f P) (operator? : Token.Kind → Option Join)
    (turns : Nat) (left : Formula) : Blind f (chain P operator? turns left) := by
  intro ts
  induction turns generalizing left ts with
  | zero => cases ts <;> rfl
  | succ turns ih =>
    cases ts with
    | nil => rfl
    | cons t ts =>
      rw [List.map_cons, chain, chain, (hf t).1]
      cases operator? t.kind with
      | none => rfl
      | some join =>
        show P (ts.map f) >>= _ = _
        rw [hP ts]
        exact relabel_bind fun right rest => ih (join left right) rest

theorem blind_joined (hf : Token.Keeps f) (hP : Blind f P)
    (operator? : Token.Kind → Option Join) : Blind f (joined P operator?) := by
  intro ts
  rw [joined, joined, hP ts]
  refine relabel_bind fun left rest => ?_
  show chain P operator? (rest.map f).length left (rest.map f) = _
  rw [List.length_map]
  exact blind_chain hf hP operator? rest.length left rest

theorem blind_sumOf (hf : Token.Keeps f) (hP : Blind f P) : Blind f (sumOf P) :=
  blind_joined hf (blind_joined hf hP multiplicative?) additive?

/-- The token that has to come next is the same one. -/
theorem expect_bind (hf : Token.Keeps f) {g : List Token → Except Fault (γ × List Token)}
    (h : ∀ rest, g (rest.map f) = relabel f (g rest)) (kind : Token.Kind) (expected : Expected)
    (ts : List Token) :
    expect kind expected (ts.map f) >>= g = relabel f (expect kind expected ts >>= g) := by
  cases ts with
  | nil => rfl
  | cons t ts =>
    rw [List.map_cons, expect, expect, (hf t).1]
    by_cases ht : t.kind = kind
    · rw [if_pos ht, if_pos ht]
      exact h ts
    · rw [if_neg ht, if_neg ht]
      rfl

theorem blind_closed (hf : Token.Keeps f) (hP : Blind f P) (wrap : Formula → Formula) :
    Blind f (closed P wrap) := by
  intro ts
  rw [closed, closed, hP ts]
  exact relabel_bind fun g rest => expect_bind hf (fun _ => rfl) .rparen .closing rest

theorem blind_atom (hf : Token.Keeps f) (hP : Blind f P) : Blind f (atom P) := by
  intro ts
  cases ts with
  | nil => rfl
  | cons t ts =>
    rw [List.map_cons]
    cases ht : t.kind with
    | lparen =>
      rw [atom_lparen ht, atom_lparen ((hf t).1.trans ht)]
      exact blind_closed hf hP group ts
    | apply g =>
      rw [atom, atom, (hf t).1, ht]
      exact expect_bind hf (blind_closed hf hP (call g)) .lparen .opening ts
    | _ =>
      rw [atom, atom, (hf t).1, (hf t).2, ht]
      rfl

theorem blind_raised (hf : Token.Keeps f) (hP : Blind f P) (b : Formula) :
    Blind f (raised P b) := by
  intro ts
  cases ts with
  | nil => rfl
  | cons t ts =>
    rw [List.map_cons]
    by_cases ht : t.kind = .power
    · rw [raised_power ht, raised_power ((hf t).1.trans ht), hP ts]
      exact relabel_bind fun _ _ => rfl
    · rw [raised, raised, if_neg ht, if_neg (by rwa [(hf t).1])]
      rfl

theorem blind_powerOf (hf : Token.Keeps f) (hbase : Blind f base) (hexponent : Blind f exponent) :
    Blind f (powerOf base exponent) := by
  intro ts
  rw [powerOf_eq, powerOf_eq, hbase ts]
  exact relabel_bind fun b rest => blind_raised hf hexponent b rest

/-- **Unary formulas are read without a look at positions**, by induction on the budget. -/
theorem blind_unary (hf : Token.Keeps f) : ∀ n, Blind f (unary n)
  | 0 => fun _ => rfl
  | n + 1 => by
    have ih := blind_unary hf n
    intro ts
    cases ts with
    | nil => rfl
    | cons t ts =>
      rw [List.map_cons]
      by_cases ht : t.kind = .minus
      · rw [unary_minus ht, unary_minus ((hf t).1.trans ht), ih ts]
        exact relabel_bind fun _ _ => rfl
      · rw [unary_of_ne ht, unary_of_ne (by rwa [(hf t).1])]
        exact blind_powerOf hf (blind_atom hf (blind_sumOf hf ih)) ih (t :: ts)

/-- **The parser does not look at positions.** -/
theorem complete_map (hf : Token.Keeps f) (n : Nat) (ts : List Token) :
    complete n (ts.map f) = (complete n ts).mapError (Fault.map f) := by
  rw [complete, complete, sum, blind_sumOf hf (blind_unary hf n) ts]
  cases sumOf (unary n) ts with
  | error e => rfl
  | ok out =>
    obtain ⟨g, rest⟩ := out
    cases rest <;> rfl

end Formula

namespace Statement

variable {t u : Token} {ts : List Token}

theorem splitName_singleton : splitName [t] = (none, [t]) := by
  rw [splitName.eq_def]
  split
  · rename_i heq
    cases heq
  · rfl

theorem splitName_assign (ht : t.kind = .name) (hu : u.kind = .assign) :
    splitName (t :: u :: ts) = (some t.literal, ts) := by
  obtain ⟨_, _, _⟩ := t
  obtain ⟨_, _, _⟩ := u
  cases ht
  cases hu
  rfl

theorem splitName_of_not (h : ¬(t.kind = .name ∧ u.kind = .assign)) :
    splitName (t :: u :: ts) = (none, t :: u :: ts) := by
  rw [splitName.eq_def]
  split
  · rename_i heq
    cases heq
    exact absurd ⟨rfl, rfl⟩ h
  · rfl

/-- The formula of a statement is what the tokens end with. -/
theorem splitName_suffix : ∀ ts, (splitName ts).2 <:+ ts
  | [] => List.suffix_refl _
  | [t] => by simp [splitName_singleton]
  | t :: u :: ts => by
    by_cases h : t.kind = .name ∧ u.kind = .assign
    · rw [splitName_assign h.1 h.2]
      exact List.suffix_append [t, u] ts
    · simp [splitName_of_not h]

/-- The name that a statement is about is found without a look at positions. -/
theorem splitName_map {f : Token → Token} (hf : Token.Keeps f) :
    ∀ ts, splitName (ts.map f) = ((splitName ts).1, (splitName ts).2.map f)
  | [] => rfl
  | [t] => by rw [List.map_singleton, splitName_singleton, splitName_singleton, List.map_singleton]
  | t :: u :: ts => by
    rw [List.map_cons, List.map_cons]
    by_cases h : t.kind = .name ∧ u.kind = .assign
    · rw [splitName_assign h.1 h.2, splitName_assign ((hf t).1.trans h.1) ((hf u).1.trans h.2),
        (hf t).2]
    · rw [splitName_of_not h, splitName_of_not (by rwa [(hf t).1, (hf u).1])]
      rfl

end Statement

end Fluxion
