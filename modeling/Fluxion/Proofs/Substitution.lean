import Fluxion.Proofs.Parsing
import Fluxion.Proofs.Pieces
import Fluxion.Proofs.RealValue
import Fluxion.Proofs.Variables

/-!
# Assignment as substitution

An assignment gives a name the value that its formula has at the time. From then on the name
stands for the formula, in parentheses, as it was read then: a text means after the assignment
what it meant before it with the name replaced.

## Three layers

* Texts: the tokens after a replacement are those before it, with each of the tokens that are the
  name replaced. That is `Lexer.words_replaceName`.
* Derivations: a name is an atom of the grammar and so is a sum in parentheses, so a derivation
  stays one when the atom is exchanged, and it derives the replaced tokens.
* Values: the two texts need not stand for similar expressions, because the negative of a constant
  is a constant and the negative of a variable is a product. They have the same value where minus
  one times a number is its negative.

## Main definitions

* `Grammar.Derivation.subst` — a derivation in which the names are exchanged
* `Statement.formulaText` — the formula of an assignment, as it is written
* `replaceText` — a text in which a name is replaced

## Main results

* `Grammar.Derivation.tokens_subst`, `Grammar.Derivation.eval_subst` — the tokens and the value of
  such a derivation
* `Workspace.run_assigned_replaceText` — assignment is substitution
-/

namespace Fluxion

open Grammar (Derivation Level Op Symbol lowering)

/-! ### Derivations -/

namespace Grammar.Derivation

variable {s : Symbol} {f : String → Derivation .atom}

/-- The derivation in which an atom is put in the place of each name. -/
def subst (f : String → Derivation .atom) : {s : Symbol} → Derivation s → Derivation s
  | _, single d => single (d.subst f)
  | _, join l o r => join (l.subst f) o (r.subst f)
  | _, neg d => neg (d.subst f)
  | _, plain d => plain (d.subst f)
  | _, base d => base (d.subst f)
  | _, raise b e => raise (b.subst f) (e.subst f)
  | _, number literal => number literal
  | _, name x => f x
  | _, euler => euler
  | _, group d => group (d.subst f)
  | _, call g d => call g (d.subst f)

/-- The tokens that are put in the place of a token. -/
def exchanged (f : String → Derivation .atom) (word : Token.Kind × String) :
    List (Token.Kind × String) :=
  if word.1 = .name then (f word.2).tokens else [word]

theorem tokens_subst (f : String → Derivation .atom) (d : Derivation s) :
    (d.subst f).tokens = d.tokens.flatMap (exchanged f) := by
  induction d with
  | single d ih | plain d ih | base d ih => exact ih
  | join l o r ihl ihr =>
    rw [subst, tokens_join, tokens_join, List.flatMap_append, List.flatMap_cons, ihl, ihr]
    cases o <;> rfl
  | neg d ih => rw [subst, tokens_neg, tokens_neg, List.flatMap_cons, ih]; rfl
  | raise b e ihb ihe =>
    rw [subst, tokens_raise, tokens_raise, List.flatMap_append, List.flatMap_cons, ihb, ihe]; rfl
  | number literal => rfl
  | name x => exact (List.append_nil _).symm
  | euler => rfl
  | group d ih =>
    rw [subst, tokens_group, tokens_group, List.flatMap_cons, List.flatMap_append, ih]; rfl
  | call g d ih =>
    rw [subst, tokens_call, tokens_call, List.flatMap_cons, List.flatMap_cons,
      List.flatMap_append, ih]; rfl

theorem nesting_subst_le {n : Nat} (h : ∀ x, (f x).nesting ≤ n) (d : Derivation s) :
    (d.subst f).nesting ≤ d.nesting + n := by
  induction d with
  | single d ih | plain d ih | base d ih => exact ih
  | join l o r ihl ihr =>
    simp only [subst, nesting]
    omega
  | raise b e ihb ihe =>
    simp only [subst, nesting]
    omega
  | neg d ih | group d ih | call g d ih =>
    simp only [subst, nesting]
    omega
  | number | euler => exact Nat.zero_le _
  | name x => exact (h x).trans (Nat.le_add_left _ _)

end Grammar.Derivation

/-! ### Values -/

namespace Expr

variable {α : Type} [Arithmetic α] {values values' : String → Option α}

theorem eval_negate (hneg : ∀ c : α, -1 * c = -c) (e : Expr α) :
    e.negate.eval values = (fun u => -u) <$> e.eval values := by
  have hproduct : (mul (const (-1)) e).eval values = (fun u => -u) <$> e.eval values := by
    rw [eval, eval]
    cases e.eval values with
    | error err => rfl
    | ok u => exact congrArg Except.ok (hneg u)
  cases e with
  | const c => rfl
  | _ => exact hproduct

variable {a b a' b' : Expr α}

/-- What operators make of operands that have the same values has the same value. -/
theorem eval_join_congr (hneg : ∀ c : α, -1 * c = -c) {l : Level} (o : Op l)
    (ha : a.eval values = a'.eval values') (hb : b.eval values = b'.eval values') :
    (lowering.join o a b).eval values = (lowering.join o a' b').eval values' := by
  cases o with
  | plus =>
    show (add a b).eval values = (add a' b').eval values'
    rw [eval, eval, ha, hb]
  | minus =>
    show (add a b.negate).eval values = (add a' b'.negate).eval values'
    rw [eval, eval, eval_negate hneg, eval_negate hneg, ha, hb]
  | times =>
    show (mul a b).eval values = (mul a' b').eval values'
    rw [eval, eval, ha, hb]
  | slash =>
    show (mul a (pow b (const (-1)))).eval values = (mul a' (pow b' (const (-1)))).eval values'
    simp only [eval, ha, hb]

theorem eval_call_congr (g : FunctionName) (ha : a.eval values = a'.eval values') :
    (lowering.call g a).eval values = (lowering.call g a').eval values' := by
  cases g with
  | sin =>
    show (sin a).eval values = (sin a').eval values'
    rw [eval, eval, ha]
  | cos =>
    show (cos a).eval values = (cos a').eval values'
    rw [eval, eval, ha]
  | tan =>
    show (mul (sin a) (pow (cos a) (const (-1)))).eval values =
      (mul (sin a') (pow (cos a') (const (-1)))).eval values'
    simp only [eval, ha]
  | sec =>
    show (pow (cos a) (const (-1))).eval values = (pow (cos a') (const (-1))).eval values'
    simp only [eval, ha]
  | log | ln =>
    show (log a).eval values = (log a').eval values'
    rw [eval, eval, ha]
  | root =>
    show (pow a (const Coefficient.half)).eval values = (pow a' (const Coefficient.half)).eval values'
    simp only [eval, ha]

end Expr

/-- The value of a derivation in which atoms are put in the place of names, where these atoms have
the values that the names have. -/
theorem Grammar.Derivation.eval_subst {α : Type} [Arithmetic α] {s : Symbol}
    {values values' : String → Option α} {f : String → Derivation .atom}
    (hneg : ∀ c : α, -1 * c = -c)
    (hf : ∀ x, ((f x).read lowering : Expr α).eval values = (Expr.var x).eval values')
    (d : Derivation s) :
    ((d.subst f).read lowering : Expr α).eval values = (d.read lowering : Expr α).eval values' := by
  induction d with
  | single d ih | plain d ih | base d ih => exact ih
  | join l o r ihl ihr => exact Expr.eval_join_congr hneg o ihl ihr
  | neg d ih =>
    show (Expr.negate _).eval values = (Expr.negate _).eval values'
    rw [Expr.eval_negate hneg, Expr.eval_negate hneg, ih]
  | raise b e ihb ihe =>
    show (Expr.pow _ _).eval values = (Expr.pow _ _).eval values'
    rw [Expr.eval, Expr.eval, ihb, ihe]
  | number | euler => rfl
  | name x => exact hf x
  | group d ih => exact ih
  | call g d ih => exact Expr.eval_call_congr g ih

/-! ### Texts -/

/-- A text in which a name is replaced by another text in parentheses. -/
def replaceText (name inner text : String) : String :=
  String.ofList (Lexer.replaceName name inner.toList (Lexer.ofText text))

/-- What a line says after its first two tokens: the formula of an assignment. -/
def Statement.formulaText (line : String) : String :=
  String.ofList (Lexer.ofText line).next.2.next.2.rest

/-- A derivation in parentheses in the place of a name. -/
def Grammar.Derivation.inPlaceOf (name : String) (d : Derivation .sum) (x : String) :
    Derivation .atom :=
  if x = name then .group d else .name x

section

variable {name line text inner : String} {d d₁ d₂ : Derivation .sum} {f : Formula}

theorem derives_iff : d.Derives text ↔ Lexer.words text.toList = d.tokens := by
  rw [Derivation.Derives, Lexer.tokenize, Lexer.map_tokens]
  rfl

/-- The derivation of a text in which a name is replaced. -/
theorem derives_replaceText (h₁ : d₁.Derives inner) (h₂ : d₂.Derives text) :
    (d₂.subst (d₁.inPlaceOf name)).Derives (replaceText name inner text) := by
  have hwords := Lexer.words_replaceName name inner.toList (Lexer.ofText text)
  rw [derives_iff] at h₁ h₂ ⊢
  rw [replaceText, String.toList_ofList, hwords, Derivation.tokens_subst, ← h₂]
  refine congrArg (List.flatMap · (Lexer.words text.toList)) (funext fun (kind, x) => ?_)
  rw [Derivation.exchanged]
  by_cases hkind : kind = .name
  · subst hkind
    by_cases hx : x = name
    · subst hx
      rw [if_pos rfl, if_pos rfl, Derivation.inPlaceOf, if_pos rfl, Derivation.tokens_group, h₁]
      rfl
    · rw [if_neg fun h => hx (Prod.mk.inj h).2, if_pos rfl, Derivation.inPlaceOf, if_neg hx]
      rfl
  · rw [if_neg fun h => hkind (Prod.mk.inj h).1, if_neg hkind]

theorem Lexer.tokens_of_cons {l : Lexer} {t : Token} {ts : List Token}
    (h : l.tokens.1 = t :: ts) : l.next.2.tokens.1 = ts := by
  rw [Lexer.tokens] at h
  split at h
  · cases h
  · exact (List.cons.inj h).2

/-- The tokens of a statement are those of its formula, behind a name and a sign if it is an
assignment. -/
theorem Statement.complete_of_parse {s : Statement} (h : Statement.parse line = .ok s) :
    ∃ ts, splitName (Lexer.tokenize line) = (s.name, ts) ∧
      Formula.complete Formula.nestingLimit ts = .ok s.formula := by
  rw [parse_eq] at h
  cases hformula : Formula.complete Formula.nestingLimit (splitName (Lexer.tokenize line)).2 with
  | error fault =>
    rw [hformula] at h
    cases h
  | ok g =>
    rw [hformula] at h
    cases h
    exact ⟨_, rfl, hformula⟩

theorem Statement.eq_of_splitName {ts us : List Token} (h : splitName ts = (some name, us)) :
    ∃ t u, ts = t :: u :: us := by
  rw [splitName.eq_def] at h
  split at h
  · cases h
    exact ⟨_, _, rfl⟩
  · cases h

/-- The formula of an assignment is derived from its text. -/
theorem Statement.exists_derivation (h : Statement.parse line = .ok ⟨some name, f⟩) :
    ∃ d : Derivation .sum, d.Derives (formulaText line) ∧ d.formula = f ∧
      d.nesting < Formula.nestingLimit := by
  obtain ⟨ts, hsplit, hformula⟩ := complete_of_parse h
  obtain ⟨t, u, htokens⟩ := eq_of_splitName hsplit
  have hanswer := Formula.answers_complete Formula.nestingLimit ts
  rw [hformula] at hanswer
  obtain ⟨d, hd, hformula, hn⟩ := hanswer
  refine ⟨d, ?_, hformula, hn⟩
  have hrest := Lexer.tokens_of_cons (Lexer.tokens_of_cons htokens)
  have hwritten := Lexer.map_written line
  rw [htokens] at hwritten
  have hts := (List.cons.inj (List.cons.inj hwritten).2).2
  rw [derives_iff, formulaText, String.toList_ofList, ← Lexer.map_tokens, hrest, ← hts, hd]

end

namespace Workspace

variable {α : Type} [Arithmetic α] {w w' : Workspace α} {line name : String} {step : Step α}
  {value : α}

theorem eval_of_evaluate {e : Expr α} (h : w.bindings.evaluate e = .ok value) :
    e.eval (fun x => w.bindings[x]?) = .ok value := by
  rw [Bindings.evaluate] at h
  cases heval : e.eval fun x => w.bindings[x]? with
  | error err =>
    rw [heval] at h
    cases h
  | ok u =>
    rw [heval] at h
    cases h
    rfl

/-- **Assignment is substitution.** After an assignment that runs, a text has the value that it
had before with the name replaced by the formula of the assignment, in parentheses. If it has none
then neither has the other, for the same reason; only the names that have values differ, which a
failure may list. The replaced text is a formula again, nested no deeper than the two together and
the parentheses. -/
theorem run_assigned_replaceText (hneg : ∀ c : α, -1 * c = -c)
    (hrun : w.run line = .ok (step, w')) (hout : step.outcome = .assigned name value)
    {text : String} {f : Formula} (hparse : Formula.parse text = .ok f) :
    ∃ d d₁ d₂ : Derivation .sum,
      (d₁.Derives (Statement.formulaText line) ∧ step.expression = d₁.formula.lower) ∧
      (d₂.Derives text ∧ f = d₂.formula) ∧
      d.Derives (replaceText name (Statement.formulaText line) text) ∧
      d.nesting ≤ d₂.nesting + (d₁.nesting + 1) ∧
      (∀ n, d.nesting < n → Formula.complete n
        (Lexer.tokenize (replaceText name (Statement.formulaText line) text)) = .ok d.formula) ∧
      (d.nesting < Formula.nestingLimit →
        Formula.parse (replaceText name (Statement.formulaText line) text) = .ok d.formula) ∧
      w'.bindings.evaluate f.lower =
        (w.bindings.evaluate d.formula.lower).mapError
          (Failure.withAvailable w'.bindings.keys) := by
  obtain ⟨g, hline, hexpression, hvalue, rfl⟩ := assigned_of_run hrun hout
  obtain ⟨d₁, hd₁, rfl, -⟩ := Statement.exists_derivation hline
  obtain ⟨d₂, hd₂, -, rfl⟩ := Formula.exists_derivation hparse
  have hd : (d₂.subst (d₁.inPlaceOf name)).Derives
      (replaceText name (Statement.formulaText line) text) := derives_replaceText hd₁ hd₂
  refine ⟨d₂.subst (d₁.inPlaceOf name), d₁, d₂, ⟨hd₁, hexpression⟩, ⟨hd₂, rfl⟩, hd, ?nesting,
    fun n hn => ?complete, Formula.parse_eq_ok _ hd, ?value⟩
  case nesting =>
    refine Derivation.nesting_subst_le (fun x => ?_) d₂
    rw [Derivation.inPlaceOf]
    split
    · exact Nat.le_refl _
    · exact Nat.zero_le _
  case complete =>
    rw [Formula.complete_eq n _ ((Lexer.map_written _).trans hd), Formula.verdict_of_lt hn]
  case value =>
    rw [Bindings.evaluate, Bindings.evaluate, Failure.mapError_withAvailable,
      Derivation.lower_formula, Derivation.lower_formula]
    refine congrArg (Except.mapError _) (Derivation.eval_subst hneg (fun x => ?_) d₂).symm
    rw [Derivation.inPlaceOf]
    by_cases hx : x = name
    · subst hx
      rw [if_pos rfl, Expr.eval, save, Std.TreeMap.getElem?_insert_self]
      rw [Derivation.lower_formula] at hvalue
      exact eval_of_evaluate hvalue
    · have hsame : (w.bindings.insert name value)[x]? = w.bindings[x]? :=
        Std.TreeMap.getElem?_insert.trans (if_neg fun h => hx (Std.LawfulEqOrd.eq_of_compare h).symm)
      rw [if_neg hx]
      show (Expr.var x).eval _ = _
      rw [Expr.eval, Expr.eval, save, hsame]

/-- A name with the value of a constant, and its negative: a product before the replacement, a
constant after it. -/
theorem run_assigned_replaceText_neg :
    let w : Workspace ℝ := {}
    let two : ℝ := Coefficient.ofNumeral (.ofLiteral "2")
    w.run "a=2" = .ok (⟨.const two, "x", .assigned "a" two⟩, w.save "a" two) ∧
      Formula.parse "-a" = .ok (.neg (.var "a")) ∧
      replaceText "a" (Statement.formulaText "a=2") "-a" = "-(2)" ∧
      ∃ f, Formula.parse "-(2)" = .ok f ∧
        (w.save "a" two).bindings.evaluate (.mul (.const (-1)) (.var "a")) =
          (w.bindings.evaluate f.lower).mapError
            (Failure.withAvailable (w.save "a" two).bindings.keys) := by
  intro w two
  have hline : Lexer.tokenize "a=2" = [⟨.name, "a", 0⟩, ⟨.assign, "=", 1⟩, ⟨.number, "2", 2⟩] := by
    decide +kernel
  have hstatement : Statement.parse "a=2" = .ok ⟨some "a", .num "2"⟩ := by
    rw [Statement.parse, hline]
    rfl
  have hrun : w.run "a=2" = .ok (⟨.const two, "x", .assigned "a" two⟩, w.save "a" two) := by
    rw [run_eq, hstatement]
    rfl
  have htokens : Lexer.tokenize "-a" = [⟨.minus, "-", 0⟩, ⟨.name, "a", 1⟩] := by decide +kernel
  have hparse : Formula.parse "-a" = .ok (.neg (.var "a")) := by
    rw [Formula.parse, htokens]
    rfl
  have hreplace : replaceText "a" (Statement.formulaText "a=2") "-a" = "-(2)" := by
    decide +kernel
  obtain ⟨d, -, -, -, -, hd, -, -, hparsed, hvalue⟩ :=
    run_assigned_replaceText (fun c : ℝ => neg_one_mul c) hrun rfl hparse
  rw [hreplace] at hd hparsed
  let d' : Derivation .sum := .single (.single (.neg (.plain (.base (.group (.single (.single
    (.plain (.base (.number "2"))))))))))
  have hd' : d'.Derives "-(2)" := by
    rw [Derivation.Derives]
    decide +kernel
  have hnesting : d.nesting < Formula.nestingLimit := by
    rw [Derivation.eq_of_derives hd hd']
    decide
  exact ⟨hrun, hparse, hreplace, d.formula, hparsed hnesting, hvalue⟩

end Workspace

end Fluxion
