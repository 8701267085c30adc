import Fluxion.Expr.Text
import Fluxion.Proofs.Equality
import Fluxion.Proofs.Parsing

/-!
# Reading the text of an expression

The text of an expression has parentheses around sums, products, exponents and operands, but none
around the base of a power. A base that is written as one atom is read back. The others are not:
powers are read from the right, so that a power in the base gives its own exponent away, and a minus
sign is applied after the power, so that a constant in the base loses it. The text is a formula all
the same, and is read as some other expression.

## Exponents behind a text

What is written behind a text as an exponent goes to the last atom of the text. So the derivation
of a text (`Expr.derivation`) is given the exponent behind it, if there is one, and a power gives
its own exponent to its base, raised in its turn to what comes behind the power.

Two expressions are compared by their number of nodes. A reading never has fewer nodes than what was
written, and the exponent that a power in the base takes in has more.

## Main definitions

* `Expr.derivation` — the derivation of a text with an exponent behind it
* `Expr.reread` — what the text of an expression is read as
* `Expr.Legible` — constants and names that are read back by themselves
* `Expr.Atomic`, `Expr.AtomicBases` — expressions that are written as one atom, and expressions with
  no other bases

## Main results

* `Expr.Legible.tokens_derivation` — the text has the tokens of its derivation
* `Expr.AtomicBases.reread_eq` — what is read back
* `Expr.atomicBases_of_beq` — nothing else is read back
* `Expr.parse_text` — every text is read, and which are read back
-/

namespace Fluxion

open Grammar (Derivation lowering)

/-! ### Tokens of texts that are put together -/

namespace Lexer

variable {c : Char} {k : Token.Kind}

/-- The tokens of a text in two parts, the second of which starts with a sign or a blank. -/
theorem words_append_cons (hc : isWordChar c = false ∧ isNumeralChar c = false)
    (cs ds : List Char) : words (cs ++ c :: ds) = words cs ++ words (c :: ds) := by
  refine words_append (fun d hd => ?_) cs
  obtain rfl : c = d := by simpa using hd
  exact hc

/-- A blank before a text. -/
theorem words_blank (cs : List Char) : words (' ' :: cs) = words cs := by
  have hblank : ∀ b ∈ [' '], Unicode.isBlank b = true := by
    intro b hb
    obtain rfl := List.mem_singleton.mp hb
    decide
  exact words_blank_append hblank

/-- A text in parentheses. -/
theorem words_parens (cs : List Char) :
    words ('(' :: (cs ++ [')'])) = (.lparen, "(") :: (words cs ++ [(.rparen, ")")]) := by
  rw [words_sign (k := .lparen) rfl (by decide), words_append_cons (by decide),
    words_sign (k := .rparen) rfl (by decide), words_nil]

/-- A sign between two texts, with a blank on each side. -/
theorem words_between (hsign : Token.Kind.ofSign? c = some k) (hc : Unicode.isBlank c = false)
    (cs ds : List Char) :
    words (cs ++ ' ' :: c :: ' ' :: ds) = words cs ++ (k, String.ofList [c]) :: words ds := by
  rw [words_append_cons (by decide), words_blank, words_sign hsign hc, words_blank]

/-- An exponent in parentheses behind a text. -/
theorem words_exponent (cs ds : List Char) : words (cs ++ '^' :: '(' :: (ds ++ [')'])) =
    words cs ++ (.power, "^") :: (.lparen, "(") :: (words ds ++ [(.rparen, ")")]) := by
  rw [words_append_cons (by decide), words_sign (k := .power) rfl (by decide), words_parens]

/-- A word before a text in parentheses. -/
theorem words_application (cs ds : List Char) : words (cs ++ ' ' :: '(' :: (ds ++ [')'])) =
    words cs ++ (.lparen, "(") :: (words ds ++ [(.rparen, ")")]) := by
  rw [words_append_cons (by decide), words_blank, words_parens]

end Lexer

/-! ### Atoms with an exponent behind them -/

namespace Grammar.Derivation

/-- An atom, to the power of what is behind it if there is something. -/
def raised (a : Derivation .atom) : Option (Derivation .unary) → Derivation .power
  | none => base a
  | some k => raise a k

/-- A power, with a minus sign or without. -/
def signed (negative : Bool) (d : Derivation .power) : Derivation .unary :=
  if negative then neg (plain d) else plain d

/-- A single operand as a sum. -/
def alone (d : Derivation .unary) : Derivation .sum := single (single d)

/-- A sum of two operands. -/
def plus (d d' : Derivation .unary) : Derivation .sum := join (alone d) .plus (single d')

/-- A product of two operands as a sum. -/
def times (d d' : Derivation .unary) : Derivation .sum := single (join (single d) .times d')

/-- The tokens of an exponent behind a text, if there is one. -/
def tokensBehind : Option (Derivation .unary) → List (Token.Kind × String)
  | none => []
  | some k => (.power, "^") :: k.tokens

/-- The expression that a derivation means. -/
def expr {s : Grammar.Symbol} (d : Derivation s) : Expr Float := d.read lowering

variable {d d' : Derivation .unary}

theorem tokens_alone : d.alone.tokens = d.tokens := rfl

theorem tokens_plus : (plus d d').tokens = d.tokens ++ (.plus, "+") :: d'.tokens := rfl

theorem tokens_times : (times d d').tokens = d.tokens ++ (.times, "*") :: d'.tokens := rfl

theorem tokens_raised (a : Derivation .atom) (k : Option (Derivation .unary)) :
    (plain (raised a k)).tokens = a.tokens ++ tokensBehind k := by
  cases k with
  | none => exact (List.append_nil _).symm
  | some k => rfl

theorem tokens_signed (negative : Bool) (d : Derivation .power) :
    (signed negative d).tokens =
      (if negative then [(.minus, "-")] else []) ++ (plain d).tokens := by
  cases negative <;> rfl

end Grammar.Derivation

namespace Expr

open Grammar.Derivation (raised signed plus times tokensBehind)
open Decimal (takeSign fixed readFloat?)

/-- The derivation of the text of an expression with an exponent behind it, if there is one. -/
def derivation : Expr Float → Option (Derivation .unary) → Derivation .unary
  | const c, k => signed (takeSign (fixed 6 c).toList).1
      (raised (.number (String.ofList (takeSign (fixed 6 c).toList).2)) k)
  | var x, k => .plain (raised (.name x) k)
  | add l r, k => .plain (raised (.group (plus (l.derivation none) (r.derivation none))) k)
  | mul l r, k => .plain (raised (.group (times (l.derivation none) (r.derivation none))) k)
  | pow b e, k => b.derivation (some (.plain (raised (.group (e.derivation none).alone) k)))
  | log f, k => .plain (raised (.call .log (f.derivation none).alone) k)
  | sin f, k => .plain (raised (.call .sin (f.derivation none).alone) k)
  | cos f, k => .plain (raised (.call .cos (f.derivation none).alone) k)

variable {e b f l r : Expr Float} {c : Float}

/-! ### The tokens of a text -/

/-- The text of each constant is read back, and each name is a token by itself. -/
def Legible : Expr Float → Prop :=
  Everywhere fun
    | const c => c.isFinite = true ∧ readFloat? (fixed 6 c) = some c
    | var x => Lexer.tokenize x = [⟨.name, x, 0⟩]
    | _ => True

theorem tokens_call_alone (g : FunctionName)
    (hf : (f.derivation none).tokens = Lexer.words f.text.toList)
    (k : Option (Derivation .unary)) :
    (Derivation.plain (raised (.call g (f.derivation none).alone) k)).tokens =
      Lexer.words (g.word.toList ++ ' ' :: '(' :: (f.text.toList ++ [')'])) ++ tokensBehind k := by
  have hword : Lexer.words g.word.toList = [(.apply g, g.word)] := by
    cases g <;> decide +kernel
  rw [Derivation.tokens_raised, Derivation.tokens_call, Derivation.tokens_alone, hf,
    Lexer.words_application, hword]
  rfl

/-- **The text has the tokens of its derivation.** -/
theorem Legible.tokens_derivation (he : e.Legible) (k : Option (Derivation .unary)) :
    (e.derivation k).tokens = Lexer.words e.text.toList ++ tokensBehind k := by
  induction e generalizing k with
  | const c =>
    have hfinite : c.isFinite = true := (everywhere_const.mp he).1
    obtain ⟨negative, cs, htext, -⟩ := Decimal.exists_signedNumeral hfinite
    rw [derivation, Derivation.tokens_signed, Derivation.tokens_raised, htext.takeSign_eq, text,
      htext.words_eq, List.append_assoc]
    rfl
  | var x =>
    have htokens : (Lexer.ofText x).tokens.1 = [⟨.name, x, 0⟩] := everywhere_var.mp he
    have hword := Lexer.map_tokens (Lexer.ofText x)
    rw [htokens] at hword
    rw [derivation, Derivation.tokens_raised, text, show Lexer.words x.toList = _ from hword.symm]
    rfl
  | add l r ihl ihr =>
    obtain ⟨-, hl, hr⟩ := everywhere_add.mp he
    have htext : (add l r).text.toList =
        '(' :: ((l.text.toList ++ ' ' :: '+' :: ' ' :: r.text.toList) ++ [')']) := by
      simp [text]
    rw [derivation, Derivation.tokens_raised, Derivation.tokens_group, Derivation.tokens_plus,
      ihl hl, ihr hr, htext, Lexer.words_parens, Lexer.words_between (k := .plus) rfl (by decide),
      tokensBehind, List.append_nil, List.append_nil]
    rfl
  | mul l r ihl ihr =>
    obtain ⟨-, hl, hr⟩ := everywhere_mul.mp he
    have htext : (mul l r).text.toList =
        '(' :: ((l.text.toList ++ ' ' :: '*' :: ' ' :: r.text.toList) ++ [')']) := by
      simp [text]
    rw [derivation, Derivation.tokens_raised, Derivation.tokens_group, Derivation.tokens_times,
      ihl hl, ihr hr, htext, Lexer.words_parens, Lexer.words_between (k := .times) rfl (by decide),
      tokensBehind, List.append_nil, List.append_nil]
    rfl
  | pow b e ihb ihe =>
    obtain ⟨-, hb, he⟩ := everywhere_pow.mp he
    have htext : (pow b e).text.toList =
        b.text.toList ++ '^' :: '(' :: (e.text.toList ++ [')']) := by
      simp [text]
    have hexponent := ihe he none
    rw [tokensBehind, List.append_nil] at hexponent
    rw [derivation, ihb hb, tokensBehind, Derivation.tokens_raised, Derivation.tokens_group,
      Derivation.tokens_alone, hexponent, htext, Lexer.words_exponent, List.append_assoc]
    rfl
  | log f ih =>
    have hoperand := (ih (everywhere_log.mp he).2 none).trans (List.append_nil _)
    have htext : (log f).text.toList =
        FunctionName.log.word.toList ++ ' ' :: '(' :: (f.text.toList ++ [')']) := by
      simp [text, FunctionName.word]
    rw [derivation, tokens_call_alone .log hoperand, htext]
  | sin f ih =>
    have hoperand := (ih (everywhere_sin.mp he).2 none).trans (List.append_nil _)
    have htext : (sin f).text.toList =
        FunctionName.sin.word.toList ++ ' ' :: '(' :: (f.text.toList ++ [')']) := by
      simp [text, FunctionName.word]
    rw [derivation, tokens_call_alone .sin hoperand, htext]
  | cos f ih =>
    have hoperand := (ih (everywhere_cos.mp he).2 none).trans (List.append_nil _)
    have htext : (cos f).text.toList =
        FunctionName.cos.word.toList ++ ' ' :: '(' :: (f.text.toList ++ [')']) := by
      simp [text, FunctionName.word]
    rw [derivation, tokens_call_alone .cos hoperand, htext]

/-! ### What is read back -/

/-- The expression that the text is read as. -/
def reread (e : Expr Float) : Expr Float := (e.derivation none).expr

/-- The expression is written as one atom: it is no power, and no constant with a minus sign. -/
def Atomic : Expr Float → Prop
  | const c => (fixed 6 c).toList.head? ≠ some '-'
  | pow _ _ => False
  | _ => True

/-- The bases of all powers are written as one atom. -/
def AtomicBases : Expr Float → Prop :=
  Everywhere fun
    | pow b _ => b.Atomic
    | _ => True

theorem reread_const (hc : (const c).Legible) : reread (const c) = const c := by
  obtain ⟨hfinite, hread⟩ := everywhere_const.mp hc
  obtain ⟨negative, cs, htext, hvalue⟩ := Decimal.exists_signedNumeral hfinite
  have hc := hvalue hread
  rw [reread, derivation, htext.takeSign_eq]
  cases negative with
  | true =>
    rw [if_pos rfl] at hc
    exact congrArg const hc
  | false =>
    rw [if_neg Bool.false_ne_true] at hc
    exact congrArg const hc

/-- What is behind an atom becomes its exponent. -/
theorem Atomic.expr_derivation (hb : b.Atomic) (hlegible : b.Legible) (k : Derivation .unary) :
    (b.derivation (some k)).expr = pow b.reread k.expr := by
  cases b with
  | const c =>
    have hfinite : c.isFinite = true := (everywhere_const.mp hlegible).1
    obtain ⟨negative, cs, htext, -⟩ := Decimal.exists_signedNumeral hfinite
    obtain rfl : negative = false := by
      rw [← Bool.not_eq_true, ← htext.head?_eq_iff]
      exact hb
    rw [reread, derivation, derivation, htext.takeSign_eq]
    rfl
  | pow b k => exact hb.elim
  | var | add | mul | log | sin | cos => rfl

/-- **Expressions with atoms for bases are read back.** -/
theorem AtomicBases.reread_eq (hbases : e.AtomicBases) (he : e.Legible) : e.reread = e := by
  induction e with
  | const c => exact reread_const he
  | var x => rfl
  | add l r ihl ihr =>
    obtain ⟨-, hl, hr⟩ := everywhere_add.mp he
    obtain ⟨-, hbl, hbr⟩ := everywhere_add.mp hbases
    exact congrArg₂ add (ihl hbl hl) (ihr hbr hr)
  | mul l r ihl ihr =>
    obtain ⟨-, hl, hr⟩ := everywhere_mul.mp he
    obtain ⟨-, hbl, hbr⟩ := everywhere_mul.mp hbases
    exact congrArg₂ mul (ihl hbl hl) (ihr hbr hr)
  | pow b e ihb ihe =>
    obtain ⟨-, hb, he⟩ := everywhere_pow.mp he
    obtain ⟨hatomic, hbb, hbe⟩ := everywhere_pow.mp hbases
    rw [reread, derivation, Atomic.expr_derivation hatomic hb]
    exact congrArg₂ pow (ihb hbb hb) (ihe hbe he)
  | log f ih => exact congrArg log (ih (everywhere_log.mp hbases).2 (everywhere_log.mp he).2)
  | sin f ih => exact congrArg sin (ih (everywhere_sin.mp hbases).2 (everywhere_sin.mp he).2)
  | cos f ih => exact congrArg cos (ih (everywhere_cos.mp hbases).2 (everywhere_cos.mp he).2)

/-! ### Counting nodes -/

/-- The number of nodes. -/
def size : Expr Float → Nat
  | const _ | var _ => 1
  | add l r | mul l r | pow l r => l.size + r.size + 1
  | log f | sin f | cos f => f.size + 1

/-- The nodes that an exponent behind a text adds, if there is one: its own, and the power. -/
def sizeBehind : Option (Derivation .unary) → Nat
  | none => 0
  | some k => k.expr.size + 1

theorem size_raised (a : Derivation .atom) (k : Option (Derivation .unary)) :
    (raised a k).expr.size = a.expr.size + sizeBehind k := by
  cases k <;> rfl

theorem size_le_raised {n : Nat} {a : Derivation .atom} (h : n ≤ a.expr.size)
    (k : Option (Derivation .unary)) :
    n + sizeBehind k ≤ (Derivation.plain (raised a k)).expr.size :=
  Nat.le_trans (Nat.add_le_add_right h _) (Nat.le_of_eq (size_raised a k).symm)

theorem size_le_negate (e : Expr Float) : e.size ≤ e.negate.size := by
  cases e with
  | const c => exact Nat.le_refl 1
  | _ => exact Nat.le_succ_of_le (Nat.le_add_left _ 1)

theorem size_le_signed (negative : Bool) (d : Derivation .power) :
    d.expr.size ≤ (signed negative d).expr.size := by
  cases negative with
  | true => exact size_le_negate d.expr
  | false => exact Nat.le_refl _

/-- **Nothing is lost**: what is read of a text has at least the nodes that were written. -/
theorem size_le_derivation (e : Expr Float) (k : Option (Derivation .unary)) :
    e.size + sizeBehind k ≤ (e.derivation k).expr.size := by
  induction e generalizing k with
  | const c =>
    have hnumber : ∀ literal, (Derivation.number literal).expr.size = 1 := fun _ => rfl
    rw [derivation, size, ← hnumber, ← size_raised]
    exact size_le_signed _ _
  | var x =>
    rw [derivation]
    exact size_le_raised (Nat.le_refl 1) k
  | add l r ihl ihr | mul l r ihl ihr =>
    have hl : l.size ≤ l.reread.size := ihl none
    have hr : r.size ≤ r.reread.size := ihr none
    have hsize : l.size + r.size + 1 ≤ l.reread.size + r.reread.size + 1 := by omega
    rw [derivation]
    exact size_le_raised hsize k
  | pow b e ihb ihe =>
    have he : e.size ≤ e.reread.size := ihe none
    have hexponent : (raised (.group (e.derivation none).alone) k).expr.size =
        e.reread.size + sizeBehind k := size_raised _ k
    have hb : b.size + ((raised (.group (e.derivation none).alone) k).expr.size + 1) ≤
        ((pow b e).derivation k).expr.size :=
      ihb (some (.plain (raised (.group (e.derivation none).alone) k)))
    rw [size]
    omega
  | log f ih | sin f ih | cos f ih =>
    have hsize : f.size + 1 ≤ f.reread.size + 1 := Nat.succ_le_succ (ih none)
    rw [derivation]
    exact size_le_raised hsize k

/-- An exponent behind a text stays in the exponent of what is read, if that is a power at all. -/
theorem expr_derivation_some (e : Expr Float) (k : Derivation .unary) :
    (∃ l r, (e.derivation (some k)).expr = mul l r) ∨
      ∃ b d, (e.derivation (some k)).expr = pow b d ∧ k.expr.size ≤ d.size := by
  induction e generalizing k with
  | const c =>
    rw [derivation]
    cases (takeSign (fixed 6 c).toList).1 with
    | true => exact .inl ⟨_, _, rfl⟩
    | false => exact .inr ⟨_, _, rfl, Nat.le_refl _⟩
  | pow b e ihb =>
    rcases ihb (.plain (raised (.group (e.derivation none).alone) (some k))) with
      hmul | ⟨b', d, hpow, hle⟩
    · exact .inl hmul
    · -- the base has taken in the exponent of the power, and with it what was behind the power
      refine .inr ⟨b', d, hpow, ?_⟩
      have hexponent : (pow e.reread k.expr).size ≤ d.size := hle
      rw [size] at hexponent
      omega
  | var | add | mul | log | sin | cos => exact .inr ⟨_, _, rfl, Nat.le_refl _⟩

/-! ### Levels of nesting -/

/-- The nesting of an exponent behind a text, if there is one. -/
def nestingBehind : Option (Derivation .unary) → Nat
  | none => 0
  | some k => k.nesting

theorem nesting_raised_le (a : Derivation .atom) (k : Option (Derivation .unary)) :
    (raised a k).nesting ≤ max a.nesting (nestingBehind k + 1) := by
  cases k with
  | none => exact Nat.le_max_left _ _
  | some k => exact Nat.le_refl _

theorem nesting_signed_le (negative : Bool) (d : Derivation .power) :
    (signed negative d).nesting ≤ d.nesting + 1 := by
  cases negative with
  | true => exact Nat.le_refl _
  | false => exact Nat.le_succ _

/-- A node opens two levels at most: for an exponent that has parentheses of its own, and for a
constant with a minus sign and an exponent behind it. -/
theorem nesting_derivation_le (e : Expr Float) (k : Option (Derivation .unary)) :
    (e.derivation k).nesting ≤ 2 * e.size + nestingBehind k := by
  induction e generalizing k with
  | const c =>
    rw [derivation, size]
    refine Nat.le_trans (nesting_signed_le _ _) ?_
    have hraised := nesting_raised_le
      (.number (String.ofList (takeSign (fixed 6 c).toList).2)) k
    rw [Derivation.nesting] at hraised
    omega
  | var x =>
    have hraised : ((var x).derivation k).nesting ≤ max 0 (nestingBehind k + 1) :=
      nesting_raised_le (.name x) k
    rw [size]
    omega
  | add l r ihl ihr | mul l r ihl ihr =>
    have hl : (l.derivation none).nesting ≤ 2 * l.size := ihl none
    have hr : (r.derivation none).nesting ≤ 2 * r.size := ihr none
    rw [derivation, size]
    refine Nat.le_trans (nesting_raised_le _ k) ?_
    show max (max (l.derivation none).nesting (r.derivation none).nesting + 1) _ ≤ _
    omega
  | pow b e ihb ihe =>
    have he : (e.derivation none).nesting ≤ 2 * e.size := ihe none
    have hexponent : (raised (.group (e.derivation none).alone) k).nesting ≤
        max ((e.derivation none).nesting + 1) (nestingBehind k + 1) := nesting_raised_le _ k
    have hb : ((pow b e).derivation k).nesting ≤
        2 * b.size + (raised (.group (e.derivation none).alone) k).nesting :=
      ihb (some (.plain (raised (.group (e.derivation none).alone) k)))
    rw [size]
    omega
  | log f ih | sin f ih | cos f ih =>
    have hf : (f.derivation none).nesting ≤ 2 * f.size := ih none
    rw [derivation, size]
    refine Nat.le_trans (nesting_raised_le _ k) ?_
    show max ((f.derivation none).nesting + 1) _ ≤ _
    omega

/-! ### Nothing else is read back -/

theorem Equal.size_eq (h : e.Equal f) : e.size = f.size := by
  induction h with
  | const h => rfl
  | var x => rfl
  | add _ _ ihl ihr | mul _ _ ihl ihr | pow _ _ ihl ihr => rw [size, size, ihl, ihr]
  | log _ ih | sin _ ih | cos _ ih => rw [size, size, ih]

theorem Legible.beq_self (he : e.Legible) : (e == e) = true := by
  refine (equal_self (he.mono fun g hg c hc => ?_)).beq
  subst hc
  exact Decimal.beq_self_of_isFinite hg.1

/-- If a power is read back, its base is written as one atom. -/
theorem atomic_of_beq (h : ((pow b e).reread == pow b e) = true) : b.Atomic := by
  cases b with
  | const c =>
    intro hminus
    obtain ⟨cs, hcs⟩ := List.head?_eq_some_iff.mp hminus
    rw [reread, derivation, derivation, hcs, takeSign] at h
    cases h
  | pow b k =>
    exfalso
    -- the exponent of what is read holds a power to the exponent that was written
    rcases expr_derivation_some b (.plain (raised (.group (k.derivation none).alone)
      (some (.plain (raised (.group (e.derivation none).alone) none))))) with
      ⟨l, r, hmul⟩ | ⟨b', d, hpow, hle⟩
    · rw [show (pow (pow b k) e).reread = _ from hmul] at h
      cases h
    · rw [show (pow (pow b k) e).reread = _ from hpow] at h
      have hsize := (equal_of_beq (Bool.and_eq_true_iff.mp h).2).size_eq
      have hexponent : (pow k.reread e.reread).size ≤ d.size := hle
      have he : e.size ≤ e.reread.size := size_le_derivation e none
      rw [size] at hexponent
      omega
  | var | add | mul | log | sin | cos => trivial

/-- **No other expression is read back.** -/
theorem atomicBases_of_beq (he : e.Legible) (h : (e.reread == e) = true) : e.AtomicBases := by
  induction e with
  | const c => exact everywhere_const.mpr trivial
  | var x => exact everywhere_var.mpr trivial
  | add l r ihl ihr =>
    obtain ⟨-, hl, hr⟩ := everywhere_add.mp he
    obtain ⟨hbl, hbr⟩ := Bool.and_eq_true_iff.mp h
    exact everywhere_add.mpr ⟨trivial, ihl hl hbl, ihr hr hbr⟩
  | mul l r ihl ihr =>
    obtain ⟨-, hl, hr⟩ := everywhere_mul.mp he
    obtain ⟨hbl, hbr⟩ := Bool.and_eq_true_iff.mp h
    exact everywhere_mul.mpr ⟨trivial, ihl hl hbl, ihr hr hbr⟩
  | pow b e ihb ihe =>
    obtain ⟨-, hb, he⟩ := everywhere_pow.mp he
    have hatomic := atomic_of_beq h
    rw [reread, derivation, hatomic.expr_derivation hb] at h
    obtain ⟨hbb, hbe⟩ := Bool.and_eq_true_iff.mp h
    exact everywhere_pow.mpr ⟨hatomic, ihb hb hbb, ihe he hbe⟩
  | log f ih => exact everywhere_log.mpr ⟨trivial, ih (everywhere_log.mp he).2 h⟩
  | sin f ih => exact everywhere_sin.mpr ⟨trivial, ih (everywhere_sin.mp he).2 h⟩
  | cos f ih => exact everywhere_cos.mpr ⟨trivial, ih (everywhere_cos.mp he).2 h⟩

/-! ### Every text is read -/

open Formula (parse nestingLimit)

/-- **The text of an expression is read**, as the expression itself or as some other one. Suppose
that the constants are finite and read back from their own texts, and that the names are tokens by
themselves. Then the text has a derivation, which has at most two levels of nesting for each node,
and is refused only if there are too many. What is read is the expression itself just when no power
in it has a power or a constant with a minus sign for its base. -/
theorem parse_text (he : e.Legible) : ∃ d : Derivation .sum, d.Derives e.text ∧
    d.nesting ≤ 2 * e.size ∧
    (d.nesting < nestingLimit → parse e.text = .ok d.formula) ∧
    (nestingLimit ≤ d.nesting → parse e.text = .error .tooDeep) ∧
    (d.formula.lower = e ↔ e.AtomicBases) ∧
    ((d.formula.lower == e) = true ↔ e.AtomicBases) := by
  have hderives : (e.derivation none).alone.Derives e.text := by
    have hwords := Lexer.map_tokens (Lexer.ofText e.text)
    rw [Derivation.Derives, Derivation.tokens_alone, he.tokens_derivation, tokensBehind,
      List.append_nil]
    exact hwords
  have hread : (e.derivation none).alone.formula.lower = e.reread :=
    Derivation.lower_formula _
  refine ⟨_, hderives, nesting_derivation_le e none, Formula.parse_eq_ok _ hderives,
    Formula.parse_eq_tooDeep _ hderives, ?_, ?_⟩
  · rw [hread]
    refine ⟨fun h => atomicBases_of_beq he ?_, fun h => h.reread_eq he⟩
    rw [h]
    exact he.beq_self
  · rw [hread]
    refine ⟨atomicBases_of_beq he, fun h => ?_⟩
    rw [h.reread_eq he]
    exact he.beq_self

/-- A negative constant in a base that is a product, and a power in an exponent. -/
theorem parse_text_product : ∃ f, parse "(x * -2.500000)^(2.000000^(y))" = .ok f ∧
    f.lower = pow (mul (var "x") (const (-2.5))) (pow (const 2) (var "y")) := by
  have htext : (pow (mul (var "x") (const (-2.5))) (pow (const 2) (var "y"))).text =
      "(x * -2.500000)^(2.000000^(y))" := by
    decide +kernel
  have hread : ∀ c ∈ [(-2.5 : Float), 2], c.isFinite = true ∧ readFloat? (fixed 6 c) = some c := by
    decide +kernel
  have hname : ∀ x ∈ ["x", "y"], Lexer.tokenize x = [⟨.name, x, 0⟩] := by
    decide +kernel
  have hplus : (fixed 6 2).toList.head? ≠ some '-' := by
    decide +kernel
  obtain ⟨d, -, hsize, hok, -, hback, -⟩ := parse_text
    (e := pow (mul (var "x") (const (-2.5))) (pow (const 2) (var "y")))
    (everywhere_pow.mpr ⟨trivial,
      everywhere_mul.mpr ⟨trivial, everywhere_var.mpr (hname "x" (by simp)),
        everywhere_const.mpr (hread (-2.5) (by simp))⟩,
      everywhere_pow.mpr ⟨trivial, everywhere_const.mpr (hread 2 (by simp)),
        everywhere_var.mpr (hname "y" (by simp))⟩⟩)
  have hn : d.nesting < nestingLimit := Nat.lt_of_le_of_lt hsize (by decide)
  refine ⟨d.formula, htext ▸ hok hn, hback.mpr (everywhere_pow.mpr ⟨trivial, ?_, ?_⟩)⟩
  · exact everywhere_mul.mpr ⟨trivial, everywhere_var.mpr trivial, everywhere_const.mpr trivial⟩
  · exact everywhere_pow.mpr ⟨hplus, everywhere_const.mpr trivial, everywhere_var.mpr trivial⟩

end Expr

end Fluxion
