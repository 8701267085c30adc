import Fluxion.Formula.Parser

/-!
# The grammar of formulas

The grammar is stated apart from the parser, as a family of derivation trees, one type for each
of its symbols. A derivation knows the tokens that it derives; what it means is a fold over it,
for any choice of a meaning for each rule.

The repetitions in the rules of sums and products are unrolled from the left: a chain is one
operand, or a shorter chain, an operator and one more operand. Sums and products are the same
rule at two levels, with different operators.

## Main definitions

* `Grammar.Derivation` — the derivation trees of each symbol
* `Grammar.Interpretation`, `Grammar.Derivation.read` — a meaning for each rule, and the meaning
  of a derivation
* `Grammar.Derivation.formula`, `Grammar.Derivation.tokens` — the formula and the tokens that are
  derived
* `Grammar.Derivation.nesting` — how deeply the parts of a derivation are nested
* `Grammar.lowering` — the meaning of a derivation as an expression

## Main results

* `Grammar.Interpretation.Hom.read` — a map that respects each rule respects derivations
* `Grammar.Derivation.lower_formula` — the formula stands for the expression that is meant
* `Grammar.Derivation.eq_of_formula_eq` — a formula has one derivation
-/

namespace Fluxion

namespace Grammar

/-! ### Symbols and derivations -/

/-- The levels at which operators join operands. -/
inductive Level where
  | additive
  | multiplicative

/-- The operators of a level. -/
inductive Op : Level → Type where
  | plus : Op .additive
  | minus : Op .additive
  | times : Op .multiplicative
  | slash : Op .multiplicative

/-- The symbols that the rules are about. -/
inductive Symbol where
  /-- A sum or a product. -/
  | chain (l : Level)
  | unary
  | power
  | atom

/-- What the operators of a level join: those of a sum join products, those of a product join
powers with or without minus signs. -/
def Level.operand : Level → Symbol
  | additive => .chain .multiplicative
  | multiplicative => .unary

/-- The symbol that the grammar starts from. -/
abbrev Symbol.sum : Symbol := .chain .additive

/-- The derivations from a symbol. -/
inductive Derivation : Symbol → Type where
  | single {l : Level} (operand : Derivation l.operand) : Derivation (.chain l)
  | join {l : Level} (left : Derivation (.chain l)) (o : Op l)
      (right : Derivation l.operand) : Derivation (.chain l)
  | neg (operand : Derivation .unary) : Derivation .unary
  | plain (operand : Derivation .power) : Derivation .unary
  | base (operand : Derivation .atom) : Derivation .power
  | raise (base : Derivation .atom) (exponent : Derivation .unary) : Derivation .power
  | number (literal : String) : Derivation .atom
  | name (x : String) : Derivation .atom
  | euler : Derivation .atom
  | group (inner : Derivation .sum) : Derivation .atom
  | call (g : FunctionName) (argument : Derivation .sum) : Derivation .atom

/-! ### Meanings -/

/-- A meaning for each rule of the grammar. -/
structure Interpretation (β : Type) where
  number : String → β
  name : String → β
  euler : β
  join : {l : Level} → Op l → β → β → β
  neg : β → β
  raise : β → β → β
  group : β → β
  call : FunctionName → β → β

/-- The meaning of a derivation. -/
def Derivation.read {β : Type} (I : Interpretation β) : {s : Symbol} → Derivation s → β
  | _, single d | _, plain d | _, base d => d.read I
  | _, join l o r => I.join o (l.read I) (r.read I)
  | _, neg d => I.neg (d.read I)
  | _, raise b e => I.raise (b.read I) (e.read I)
  | _, number literal => I.number literal
  | _, name x => I.name x
  | _, euler => I.euler
  | _, group d => I.group (d.read I)
  | _, call g d => I.call g (d.read I)

/-- A map between the values of two interpretations that respects the meaning of each rule. -/
structure Interpretation.Hom {β γ : Type} (I : Interpretation β) (J : Interpretation γ)
    (h : β → γ) : Prop where
  number : ∀ literal, h (I.number literal) = J.number literal
  name : ∀ x, h (I.name x) = J.name x
  euler : h I.euler = J.euler
  join : ∀ {l : Level} (o : Op l) a b, h (I.join o a b) = J.join o (h a) (h b)
  neg : ∀ a, h (I.neg a) = J.neg (h a)
  raise : ∀ a b, h (I.raise a b) = J.raise (h a) (h b)
  group : ∀ a, h (I.group a) = J.group (h a)
  call : ∀ g a, h (I.call g a) = J.call g (h a)

theorem Interpretation.Hom.read {β γ : Type} {I : Interpretation β} {J : Interpretation γ}
    {h : β → γ} (hom : I.Hom J h) {s : Symbol} (d : Derivation s) :
    h (d.read I) = d.read J := by
  induction d with
  | single d ih => exact ih
  | plain d ih => exact ih
  | base d ih => exact ih
  | join l o r ihl ihr => rw [Derivation.read, Derivation.read, hom.join, ihl, ihr]
  | neg d ih => rw [Derivation.read, Derivation.read, hom.neg, ih]
  | raise b e ihb ihe => rw [Derivation.read, Derivation.read, hom.raise, ihb, ihe]
  | number literal => exact hom.number literal
  | name x => exact hom.name x
  | euler => exact hom.euler
  | group d ih => rw [Derivation.read, Derivation.read, hom.group, ih]
  | call g d ih => rw [Derivation.read, Derivation.read, hom.call, ih]

/-! ### Formulas and tokens -/

/-- The kind of an operator's token. -/
def Op.kind : {l : Level} → Op l → Token.Kind
  | _, plus => .plus
  | _, minus => .minus
  | _, times => .times
  | _, slash => .slash

/-- The formula that an operator makes of two. -/
def Op.combine : {l : Level} → Op l → Formula.Join
  | _, plus => .add
  | _, minus => .sub
  | _, times => .mul
  | _, slash => .div

/-- Formulas as meanings. -/
def formulas : Interpretation Formula where
  number := .num
  name := .var
  euler := .euler
  join := Op.combine
  neg := .neg
  raise := .pow
  group := .group
  call := .call

namespace Derivation

variable {s : Symbol} {l : Level}

/-- The formula that is derived. -/
def formula (d : Derivation s) : Formula := d.read formulas

/-- The kinds and texts of the tokens that are derived. -/
def tokens (d : Derivation s) : List (Token.Kind × String) := d.formula.tokens

theorem tokens_join (d : Derivation (.chain l)) (o : Op l)
    (d' : Derivation l.operand) :
    (join d o d').tokens = d.tokens ++ (o.kind, o.kind.spelling) :: d'.tokens := by
  cases o <;> rfl

theorem tokens_neg (d : Derivation .unary) :
    (neg d).tokens = (.minus, Token.Kind.minus.spelling) :: d.tokens := rfl

theorem tokens_raise (d : Derivation .atom) (e : Derivation .unary) :
    (raise d e).tokens = d.tokens ++ (.power, Token.Kind.power.spelling) :: e.tokens := rfl

theorem tokens_group (d : Derivation .sum) :
    (group d).tokens = (.lparen, Token.Kind.lparen.spelling) ::
      (d.tokens ++ [(.rparen, Token.Kind.rparen.spelling)]) := rfl

theorem tokens_call (g : FunctionName) (d : Derivation .sum) :
    (call g d).tokens = (.apply g, (Token.Kind.apply g).spelling) ::
      (.lparen, Token.Kind.lparen.spelling) ::
      (d.tokens ++ [(.rparen, Token.Kind.rparen.spelling)]) := rfl

/-- Induction along the operands of a sum or a product, from the left. -/
@[elab_as_elim]
theorem chain_induction {motive : Derivation (.chain l) → Prop}
    (single : ∀ d, motive (.single d))
    (join : ∀ d o d', motive d → motive (.join d o d')) : ∀ d, motive d
  | .single d => single d
  | .join d o d' => join d o d' (chain_induction single join d)

/-- How deeply the parts of a derivation are nested: a minus sign, an exponent, a pair of
parentheses and an argument are each one level. -/
def nesting : {s : Symbol} → Derivation s → Nat
  | _, single d | _, plain d | _, base d => d.nesting
  | _, join l _ r => max l.nesting r.nesting
  | _, raise b e => max b.nesting (e.nesting + 1)
  | _, number _ | _, name _ | _, euler => 0
  | _, neg d => d.nesting + 1
  | _, group d | _, call _ d => d.nesting + 1

end Derivation

/-! ### The expression that is meant -/

variable {α : Type} [Coefficient α]

/-- Expressions as meanings: a difference adds the negative, a quotient multiplies by a power of
minus one, the tangent is a quotient of sine and cosine, the secant a power of the cosine, and
the root a power. -/
def lowering : Interpretation (Expr α) where
  number literal := .const (Coefficient.ofNumeral (.ofLiteral literal))
  name := .var
  euler := .const Coefficient.euler
  join
    | .plus, a, b => .add a b
    | .minus, a, b => .add a b.negate
    | .times, a, b => .mul a b
    | .slash, a, b => .mul a (.pow b (.const (-1)))
  neg := Expr.negate
  raise := .pow
  group a := a
  call
    | .sin, u => .sin u
    | .cos, u => .cos u
    | .tan, u => .mul (.sin u) (.pow (.cos u) (.const (-1)))
    | .sec, u => .pow (.cos u) (.const (-1))
    | .log, u | .ln, u => .log u
    | .root, u => .pow u (.const Coefficient.half)

theorem hom_lower : formulas.Hom (lowering (α := α)) Formula.lower where
  number _ := rfl
  name _ := rfl
  euler := rfl
  join o a b := by cases o <;> rfl
  neg _ := rfl
  raise _ _ := rfl
  group _ := rfl
  call g _ := by cases g <;> rfl

theorem Derivation.lower_formula {s : Symbol} (d : Derivation s) :
    d.formula.lower = d.read (lowering (α := α)) :=
  hom_lower.read d

/-! ### A formula has one derivation -/

/-- How tightly a symbol binds. -/
def Symbol.rank : Symbol → Nat
  | chain .additive => 0
  | chain .multiplicative => 1
  | unary => 2
  | power => 3
  | atom => 4

/-- How tightly the outermost rule of a formula binds. -/
def rank : Formula → Nat
  | .add _ _ | .sub _ _ => 0
  | .mul _ _ | .div _ _ => 1
  | .neg _ => 2
  | .pow _ _ => 3
  | _ => 4

theorem rank_combine {l : Level} (o : Op l) (f g : Formula) :
    rank (o.combine f g) = (Symbol.chain l).rank := by
  cases o <;> rfl

theorem Level.rank_lt_operand (l : Level) : (Symbol.chain l).rank < l.operand.rank := by
  cases l <;> decide

/-- What is derived from a symbol binds at least as tightly as the symbol. -/
theorem Derivation.rank_le {s : Symbol} (d : Derivation s) : s.rank ≤ rank d.formula := by
  induction d with
  | @single l d ih => exact Nat.le_of_lt (Nat.lt_of_lt_of_le l.rank_lt_operand ih)
  | join l o r => exact Nat.le_of_eq (rank_combine o _ _).symm
  | plain d ih => exact Nat.le_of_succ_le ih
  | base d ih => exact Nat.le_of_succ_le ih
  | neg => exact Nat.le_refl 2
  | raise => exact Nat.le_refl 3
  | number | name | euler | group | call => exact Nat.le_refl 4

theorem Op.combine_inj {l : Level} {o o' : Op l} {f g f' g' : Formula}
    (h : o.combine f g = o'.combine f' g') : o = o' ∧ f = f' ∧ g = g' := by
  cases o <;> cases o' <;> cases h <;> exact ⟨rfl, rfl, rfl⟩

theorem Derivation.formula_ne {s : Symbol} (d : Derivation s) {f : Formula}
    (h : rank f < s.rank) : d.formula ≠ f := by
  rintro rfl
  exact absurd h (Nat.not_lt.mpr d.rank_le)

theorem Derivation.formula_ne_combine {l : Level} (d : Derivation l.operand) (o : Op l)
    (f g : Formula) : d.formula ≠ o.combine f g := by
  refine d.formula_ne ?_
  rw [rank_combine]
  exact l.rank_lt_operand

/-- **A formula has one derivation** from each symbol. -/
theorem Derivation.eq_of_formula_eq {s : Symbol} {d d' : Derivation s}
    (h : d.formula = d'.formula) : d = d' := by
  induction d with
  | single d ih =>
    cases d' with
    | single d' => rw [ih h]
    | join l o r => exact absurd h (d.formula_ne_combine o _ _)
  | join l o r ihl ihr =>
    cases d' with
    | single d' => exact absurd h.symm (d'.formula_ne_combine o _ _)
    | join l' o' r' =>
      obtain ⟨rfl, hl, hr⟩ := Op.combine_inj h
      rw [ihl hl, ihr hr]
  | neg d ih =>
    cases d' with
    | neg d' => rw [ih (Formula.neg.inj h)]
    | plain d' => exact absurd h.symm (d'.formula_ne (Nat.lt_succ_self _))
  | plain d ih =>
    cases d' with
    | neg d' => exact absurd h (d.formula_ne (Nat.lt_succ_self _))
    | plain d' => rw [ih h]
  | base d ih =>
    cases d' with
    | base d' => rw [ih h]
    | raise b e => exact absurd h (d.formula_ne (Nat.lt_succ_self _))
  | raise b e ihb ihe =>
    cases d' with
    | base d' => exact absurd h.symm (d'.formula_ne (Nat.lt_succ_self _))
    | raise b' e' =>
      obtain ⟨hb, he⟩ := Formula.pow.inj h
      rw [ihb hb, ihe he]
  | number | name | euler =>
    cases d' <;> cases h
    rfl
  | group d ih =>
    cases d' with
    | group d' => rw [ih (Formula.group.inj h)]
    | _ => cases h
  | call g d ih =>
    cases d' with
    | call g' d' =>
      obtain ⟨rfl, hd⟩ := Formula.call.inj h
      rw [ih hd]
    | _ => cases h

end Grammar

end Fluxion
