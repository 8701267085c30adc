import Fluxion.Proofs.Grammar
import Fluxion.Proofs.TokenText

/-!
# The parser reads its grammar

Every rule of the parser keeps one contract, `Formula.Reads`, with respect to its symbol and its
budget. A derivation in front of tokens which cannot continue it is read in full, unless it is
nested too deeply for the budget. And whatever the parser answers is justified: a formula by a
derivation of the tokens that were taken, a fault by the tokens that are there.

The first part needs one token of lookahead and no more: which tokens can continue a symbol
(`Grammar.Symbol.continues`) is known from the symbol alone. It also makes the parser the witness
that the grammar is unambiguous, because a formula has one derivation.

## Tokens that are compared

A token of a text is compared with a derivation by its kind and its text. The rules of the parser
look at kinds only, so inside this file a sign counts as written the way its kind is spelled
(`Token.written`). For the tokens of a text that is no difference.

## Main definitions

* `Grammar.Symbol.Stops` — tokens that cannot continue a symbol
* `Fault.Within`, `Formula.Answers` — faults and answers that the tokens give cause to
* `Formula.verdict` — what is answered to a derivation, given how deeply it is nested
* `Formula.Reads` — the contract of a parser
* `Grammar.Derivation.Derives` — a derivation of the tokens of a text
* `ParseError.About` — errors that a text gives cause to

## Main results

* `Formula.reads_joined`, `Formula.reads_atom`, `Formula.reads_powerOf`, `Formula.reads_unary`,
  `Formula.reads_sum` — each rule keeps the contract
* `Grammar.Derivation.eq_of_tokens` — derivations of the same tokens are equal
* `Formula.parse_exact` — a text is parsed just when it has a derivation, as what the derivation
  means
-/

namespace Fluxion

open Grammar (Derivation Level Op Symbol)

/-! ### Tokens as they are written -/

/-- The kind and the text of a token, the text of a sign being its spelling. -/
def Token.written (t : Token) : Token.Kind × String :=
  (t.kind, if t.kind.isSign then t.kind.spelling else t.literal)

namespace Token

variable {t : Token} {ts : List Token} {k : Kind} {text : String}

theorem written_eq (h : t.kind = k) (hk : k.isSign) : t.written = (k, k.spelling) := by
  rw [written, h, if_pos hk]

/-- Tokens that are written as one number or name. -/
theorem of_written_literal (h : ts.map written = [(k, text)]) (hk : k.isSign = false) :
    ∃ position, ts = [⟨k, text, position⟩] := by
  obtain ⟨⟨kind, literal, position⟩, rfl, ht⟩ := List.map_eq_singleton_iff.mp h
  obtain ⟨rfl, htext⟩ := Prod.mk.inj ht
  refine ⟨position, ?_⟩
  rw [← htext, if_neg (by simpa using hk)]

/-- Tokens that are written with a certain first one. -/
theorem of_written_cons {ws : List (Kind × String)} (h : ts.map written = (k, text) :: ws) :
    ∃ t us, ts = t :: us ∧ t.kind = k ∧ us.map written = ws := by
  obtain ⟨t, us, rfl, ht, hus⟩ := List.map_eq_cons_iff.mp h
  exact ⟨t, us, rfl, congrArg Prod.fst ht, hus⟩

/-- Tokens that are written with a certain one between others. -/
theorem of_written_append {vs ws : List (Kind × String)}
    (h : ts.map written = vs ++ (k, text) :: ws) :
    ∃ us t us', ts = us ++ t :: us' ∧ us.map written = vs ∧ t.kind = k ∧ us'.map written = ws := by
  obtain ⟨us, rest, rfl, hus, hrest⟩ := List.map_eq_append_iff.mp h
  obtain ⟨t, us', rfl, ht, hus'⟩ := of_written_cons hrest
  exact ⟨us, t, us', rfl, hus, ht, hus'⟩

end Token

/-! ### Lookahead -/

namespace Grammar

variable {s : Symbol} {l : Level} {k : Token.Kind} {t : Token} {rest : List Token}

/-- The kinds of tokens that can continue what was derived from a symbol. -/
def Symbol.continues : Symbol → Token.Kind → Bool
  | atom, _ => false
  | power, k | unary, k => k = .power
  | chain .multiplicative, k => k = .power || k = .times || k = .slash
  | chain .additive, k => k = .power || k = .times || k = .slash || k = .plus || k = .minus

/-- The tokens do not continue what was derived from a symbol. -/
def Symbol.Stops (s : Symbol) (rest : List Token) : Prop :=
  ∀ t ∈ rest.head?, s.continues t.kind = false

theorem Symbol.stops_nil (s : Symbol) : s.Stops [] := by simp [Stops]

theorem Symbol.stops_cons (h : s.continues t.kind = false) : s.Stops (t :: rest) := by
  simpa [Stops] using h

/-- The operators of a level as the parser knows them. -/
def Level.operator? : Level → Token.Kind → Option Formula.Join
  | additive => Formula.additive?
  | multiplicative => Formula.multiplicative?

theorem Op.operator?_kind (o : Op l) : l.operator? o.kind = some o.combine := by
  cases o <;> rfl

theorem Level.exists_operator {join : Formula.Join} (h : l.operator? k = some join) :
    ∃ o : Op l, o.kind = k ∧ o.combine = join := by
  cases l with
  | additive =>
    cases k with
    | plus => exact ⟨.plus, rfl, Option.some.inj h⟩
    | minus => exact ⟨.minus, rfl, Option.some.inj h⟩
    | _ => cases h
  | multiplicative =>
    cases k with
    | times => exact ⟨.times, rfl, Option.some.inj h⟩
    | slash => exact ⟨.slash, rfl, Option.some.inj h⟩
    | _ => cases h

theorem Op.isSign (o : Op l) : o.kind.isSign := by
  cases o <;> rfl

/-- An operator ends the operand before it. -/
theorem Op.stops (o : Op l) (h : t.kind = o.kind) : l.operand.Stops (t :: rest) := by
  refine Symbol.stops_cons ?_
  rw [h]
  cases o <;> rfl

/-- What ends a chain is no operator of its level. -/
theorem Symbol.Stops.operator? (h : (Symbol.chain l).Stops (t :: rest)) :
    l.operator? t.kind = none := by
  have hk : (Symbol.chain l).continues t.kind = false := h t rfl
  generalize t.kind = k at hk ⊢
  cases l <;> cases k <;> first | rfl | cases hk

/-- What ends a chain ends its last operand. -/
theorem Symbol.Stops.operand (h : (Symbol.chain l).Stops rest) : l.operand.Stops rest := by
  intro t ht
  have hk : (Symbol.chain l).continues t.kind = false := h t ht
  generalize t.kind = k at hk ⊢
  cases l <;> cases k <;> first | rfl | cases hk

end Grammar

/-! ### The contract of a parser -/

/-- Whether a token opens a level of nesting. -/
def Token.opens (t : Token) : Bool := t.kind = .minus || t.kind = .power || t.kind = .lparen

/-- A fault that is justified by the tokens that were to be read with a budget: the rejected
tokens are the last of them, and they open as many levels as the budget allows. -/
def Fault.Within (n : Nat) (ts : List Token) : Fault → Prop
  | .unexpected _ rest => rest <:+ ts
  | .tooDeep => n ≤ ts.countP Token.opens

/-- A fault in the last tokens is a fault in all of them; each level that is opened before adds
to the budget. -/
theorem Fault.Within.mono {n n' : Nat} {ts ts' : List Token} {e : Fault} (h : e.Within n ts)
    (hts : ts <:+ ts') (hn : n' + ts.countP Token.opens ≤ n + ts'.countP Token.opens) :
    e.Within n' ts' := by
  cases e with
  | unexpected expected rest => exact List.IsSuffix.trans h hts
  | tooDeep =>
    have hle : n ≤ ts.countP Token.opens := h
    exact show n' ≤ ts'.countP Token.opens by omega

namespace Formula

variable {n : Nat} {ts ts' : List Token}

/-- An answer to tokens that were to be read with a budget: a value of which `post` holds, or a
fault that is justified. -/
def Answers {β : Type} (n : Nat) (ts : List Token) (post : β → Prop) : Except Fault β → Prop
  | .ok b => post b
  | .error e => e.Within n ts

theorem Answers.bind {β γ : Type} {post : β → Prop} {post' : γ → Prop} {x : Except Fault β}
    {g : β → Except Fault γ} (hx : Answers n ts post x)
    (hg : ∀ b, post b → Answers n ts post' (g b)) : Answers n ts post' (x >>= g) := by
  cases x with
  | error e => exact hx
  | ok b => exact hg b hx

theorem Answers.imp {β : Type} {post post' : β → Prop} {x : Except Fault β}
    (hx : Answers n ts post x) (h : ∀ b, post b → post' b) : Answers n ts post' x := by
  cases x with
  | error e => exact hx
  | ok b => exact h b hx

/-- What is answered to the last tokens is an answer to all of them. -/
theorem Answers.of_suffix {β : Type} {post : β → Prop} {x : Except Fault β}
    (hx : Answers n ts post x) (hts : ts <:+ ts') : Answers n ts' post x := by
  cases x with
  | error e => exact hx.mono hts (Nat.add_le_add_left hts.sublist.countP_le n)
  | ok b => exact hx

/-- A token that opens a level before the tokens adds one to the budget. -/
theorem Answers.cons {β : Type} {post : β → Prop} {x : Except Fault β} {t : Token}
    (hx : Answers n ts post x) (ht : t.opens) : Answers (n + 1) (t :: ts) post x := by
  cases x with
  | error e =>
    refine hx.mono (List.suffix_cons t ts) ?_
    rw [List.countP_cons_of_pos ht]
    omega
  | ok b => exact hx

/-- The answer to what is nested `k` deep: its value, or that it is too deep for the budget. -/
def verdict {β : Type} (n k : Nat) (b : β) : Except Fault β :=
  if k < n then .ok b else .error .tooDeep

theorem verdict_of_lt {β : Type} {k : Nat} {b : β} (h : k < n) : verdict n k b = .ok b := if_pos h

theorem verdict_of_le {β : Type} {k : Nat} {b : β} (h : n ≤ k) :
    verdict n k b = .error .tooDeep := if_neg (Nat.not_lt.mpr h)

theorem verdict_succ {β : Type} (n k : Nat) (b : β) :
    verdict (n + 1) (k + 1) b = verdict n k b := by
  simp only [verdict, Nat.add_lt_add_iff_right]

theorem verdict_bind_congr {β γ δ : Type} {k : Nat} {b : β} {c : γ} {g : β → Except Fault δ}
    {g' : γ → Except Fault δ} (h : g b = g' c) : verdict n k b >>= g = verdict n k c >>= g' := by
  by_cases hk : k < n
  · rw [verdict_of_lt hk, verdict_of_lt hk]
    exact h
  · rw [verdict_of_le (Nat.not_lt.mp hk), verdict_of_le (Nat.not_lt.mp hk)]
    rfl

theorem verdict_bind_ok {β γ : Type} {k : Nat} {b : β} {c : γ} {g : β → Except Fault γ}
    (h : g b = .ok c) : verdict n k b >>= g = verdict n k c := by
  have hpure : g b = pure c := h
  rw [verdict_bind_congr hpure, bind_pure]

/-- Of two parts that are read one after the other, the deeper one decides. -/
theorem verdict_bind {β γ δ : Type} {k k' : Nat} {b : β} {c : γ} {g : β → Except Fault δ}
    {g' : γ → Except Fault δ} (h : g b = verdict n k' c >>= g') :
    verdict n k b >>= g = verdict n (max k k') c >>= g' := by
  by_cases hk : k < n
  · have hmax : verdict n (max k k') c = verdict n k' c := by
      by_cases hk' : k' < n
      · rw [verdict_of_lt hk', verdict_of_lt (Nat.max_lt.mpr ⟨hk, hk'⟩)]
      · rw [verdict_of_le (Nat.not_lt.mp hk'), verdict_of_le (by omega)]
    rw [verdict_of_lt hk, hmax]
    exact h
  · rw [verdict_of_le (Nat.not_lt.mp hk), verdict_of_le (by omega)]
    rfl

/-- A formula, with the tokens after it, that is derived from a symbol within a budget. -/
def Derived (n : Nat) (s : Symbol) (ts : List Token) (out : Formula × List Token) : Prop :=
  ∃ (d : Derivation s) (used : List Token), ts = used ++ out.2 ∧
    used.map Token.written = d.tokens ∧ d.formula = out.1 ∧ d.nesting < n

/-- The contract of a parser for a symbol with a budget. -/
structure Reads (n : Nat) (s : Symbol) (P : Parser Formula) : Prop where
  /-- A derivation in front of tokens that do not continue it is read in full, unless it is
  nested too deeply. -/
  complete : ∀ (d : Derivation s) {used rest : List Token}, used.map Token.written = d.tokens →
    s.Stops rest → P (used ++ rest) = verdict n d.nesting (d.formula, rest)
  /-- Every answer is justified. -/
  answers : ∀ ts, Answers n ts (Derived n s ts) (P ts)

variable {s : Symbol} {l : Level} {P base exponent inner : Parser Formula}
  {rest : List Token} {f : Formula}

/-! ### Sums and products -/

@[simp] theorem chain_zero (operator? : Token.Kind → Option Join) :
    chain P operator? 0 f ts = .ok (f, ts) := by
  cases ts <;> rfl

@[simp] theorem chain_nil (operator? : Token.Kind → Option Join) (turns : Nat) :
    chain P operator? turns f [] = .ok (f, []) := by
  cases turns <;> rfl

theorem chain_stop {operator? : Token.Kind → Option Join} {t : Token} (turns : Nat)
    (h : operator? t.kind = none) : chain P operator? turns f (t :: ts) = .ok (f, t :: ts) := by
  cases turns with
  | zero => rfl
  | succ turns => rw [chain, h]

theorem chain_step (o : Op l) {t : Token} (ht : t.kind = o.kind) (turns : Nat) :
    chain P l.operator? (turns + 1) f (t :: ts) =
      P ts >>= fun (g, rest) => chain P l.operator? turns (o.combine f g) rest := by
  rw [chain, ht, o.operator?_kind]

/-- **A loop step by step.** A chain is read up to the end of its last operand; from there the
loop goes on, with enough turns for all tokens that are left. -/
theorem joined_eq (hP : Reads n l.operand P) (d : Derivation (.chain l)) {used rest : List Token}
    (hused : used.map Token.written = d.tokens) (hstop : l.operand.Stops rest) :
    ∃ turns, rest.length ≤ turns ∧ joined P l.operator? (used ++ rest) =
      verdict n d.nesting (d.formula, rest) >>=
        fun (f, rest) => chain P l.operator? turns f rest := by
  induction d using Derivation.chain_induction generalizing used rest with
  | single d =>
    refine ⟨rest.length, Nat.le_refl _, ?_⟩
    rw [joined, hP.complete d hused hstop]
    exact verdict_bind_congr rfl
  | join d o d' ih =>
    rw [Derivation.tokens_join] at hused
    obtain ⟨us, t, us', rfl, hus, ht, hus'⟩ := Token.of_written_append hused
    have hstop' : l.operand.Stops (t :: (us' ++ rest)) := o.stops ht
    obtain ⟨turns, hturns, hread⟩ := ih hus hstop'
    rw [List.length_cons, List.length_append] at hturns
    obtain ⟨turns, rfl⟩ : ∃ m, turns = m + 1 := ⟨turns - 1, by omega⟩
    refine ⟨turns, by omega, ?_⟩
    rw [List.append_assoc, List.cons_append, hread]
    refine verdict_bind ((chain_step o ht turns).trans ?_)
    rw [hP.complete d' hus' hstop]
    exact verdict_bind_congr rfl

/-- **What a turn of the loop keeps.** Whatever was read so far is a derivation, and the loop
extends it or reports a fault in the tokens after it. -/
theorem answers_chain (hP : Reads n l.operand P) (turns : Nat) (d : Derivation (.chain l))
    {used ts : List Token} (hused : used.map Token.written = d.tokens) (hn : d.nesting < n) :
    Answers n (used ++ ts) (Derived n (.chain l) (used ++ ts))
      (chain P l.operator? turns d.formula ts) := by
  induction turns generalizing d used ts with
  | zero =>
    rw [chain_zero]
    exact ⟨d, used, rfl, hused, rfl, hn⟩
  | succ turns ih =>
    cases ts with
    | nil =>
      rw [chain_nil]
      exact ⟨d, used, rfl, hused, rfl, hn⟩
    | cons t ts =>
      cases ho : l.operator? t.kind with
      | none =>
        rw [chain_stop _ ho]
        exact ⟨d, used, rfl, hused, rfl, hn⟩
      | some join =>
        obtain ⟨o, ht, rfl⟩ := Level.exists_operator ho
        have hts : ts <:+ used ++ t :: ts := (List.suffix_cons t ts).trans (List.suffix_append _ _)
        rw [chain_step o ht.symm]
        refine ((hP.answers ts).of_suffix hts).bind ?_
        rintro ⟨_, rest⟩ ⟨d', us', rfl, hus', rfl, hn'⟩
        have hused' : (used ++ t :: us').map Token.written = (d.join o d').tokens := by
          rw [List.map_append, List.map_cons, hused, hus', Token.written_eq ht.symm o.isSign,
            Derivation.tokens_join]
        have hmore := @ih (d.join o d') (used ++ t :: us') rest hused' (Nat.max_lt.mpr ⟨hn, hn'⟩)
        rwa [List.append_assoc] at hmore

/-- **Sums and products are read.** -/
theorem reads_joined (hP : Reads n l.operand P) :
    Reads n (.chain l) (joined P l.operator?) where
  complete d used rest hused hstop := by
    obtain ⟨turns, -, hread⟩ := joined_eq hP d hused hstop.operand
    rw [hread]
    refine verdict_bind_ok ?_
    cases rest with
    | nil => exact chain_nil _ turns
    | cons t rest => exact chain_stop turns hstop.operator?
  answers ts := by
    refine (hP.answers ts).bind ?_
    rintro ⟨_, rest⟩ ⟨d, used, rfl, hused, rfl, hn⟩
    exact answers_chain hP _ (.single d) hused hn

/-! ### Atoms -/

theorem expect_ok {kind : Token.Kind} {expected : Expected} {t : Token} (h : t.kind = kind) :
    expect kind expected (t :: ts) = .ok ts := if_pos h

theorem answers_expect (kind : Token.Kind) (expected : Expected) (ts : List Token) :
    Answers n ts (fun rest => ∃ t, ts = t :: rest ∧ t.kind = kind) (expect kind expected ts) := by
  cases ts with
  | nil => exact List.suffix_refl _
  | cons t ts =>
    by_cases ht : t.kind = kind
    · rw [expect_ok ht]
      exact ⟨t, rfl, ht⟩
    · rw [expect, if_neg ht]
      exact List.suffix_refl _

/-- What `inner` reads, up to the closing parenthesis after it. -/
def closed (inner : Parser Formula) (wrap : Formula → Formula) : Parser Formula := fun ts => do
  let (f, ts) ← inner ts
  return (wrap f, ← expect .rparen .closing ts)

theorem closed_eq (h : Reads n .sum inner) (wrap : Formula → Formula) (d : Derivation .sum)
    {used : List Token} {t : Token} (hused : used.map Token.written = d.tokens)
    (ht : t.kind = .rparen) :
    closed inner wrap (used ++ t :: rest) = verdict n d.nesting (wrap d.formula, rest) := by
  have hstop : Symbol.sum.Stops (t :: rest) := Symbol.stops_cons (by rw [ht]; rfl)
  rw [closed, h.complete d hused hstop]
  refine verdict_bind_ok ?_
  exact congrArg (· >>= fun ts => pure (wrap d.formula, ts)) (expect_ok ht)

theorem answers_closed (h : Reads n .sum inner) (wrap : Formula → Formula) (ts : List Token) :
    Answers n ts (fun out => ∃ (d : Derivation .sum) (used : List Token) (t : Token),
        ts = used ++ t :: out.2 ∧ used.map Token.written = d.tokens ∧ t.kind = .rparen ∧
        wrap d.formula = out.1 ∧ d.nesting < n) (closed inner wrap ts) := by
  refine (h.answers ts).bind ?_
  rintro ⟨_, ts'⟩ ⟨d, used, rfl, hused, rfl, hn⟩
  refine ((answers_expect .rparen .closing ts').of_suffix (List.suffix_append used ts')).bind ?_
  rintro rest ⟨t, rfl, ht⟩
  exact ⟨d, used, t, rfl, hused, ht, rfl, hn⟩

theorem atom_lparen {t : Token} (ht : t.kind = .lparen) :
    atom inner (t :: ts) = closed inner group ts := by
  rw [atom, ht]
  rfl

theorem atom_apply {t t' : Token} {g : FunctionName} (ht : t.kind = .apply g)
    (ht' : t'.kind = .lparen) : atom inner (t :: t' :: ts) = closed inner (call g) ts := by
  rw [atom, ht]
  show (expect .lparen .opening (t' :: ts) >>= closed inner (call g)) = _
  rw [expect_ok ht']
  rfl

theorem written_closed {d : Derivation .sum} {us : List Token} {t t' : Token} {k : Token.Kind}
    (ht : t.kind = k) (hk : k.isSign) (hus : us.map Token.written = d.tokens)
    (ht' : t'.kind = .rparen) : (t :: (us ++ [t'])).map Token.written =
      (k, k.spelling) :: (d.tokens ++ [(.rparen, Token.Kind.rparen.spelling)]) := by
  rw [List.map_cons, List.map_append, List.map_singleton, hus, Token.written_eq ht hk,
    Token.written_eq ht' rfl]

theorem of_written_closed {d : Derivation .sum} {used : List Token} {k : Token.Kind}
    {text : String} (h : used.map Token.written =
      (k, text) :: (d.tokens ++ [(.rparen, Token.Kind.rparen.spelling)])) :
    ∃ t us t', used = t :: (us ++ [t']) ∧ t.kind = k ∧ us.map Token.written = d.tokens ∧
      t'.kind = .rparen := by
  obtain ⟨t, us, rfl, ht, hus⟩ := Token.of_written_cons h
  obtain ⟨us, t', us', rfl, hd, ht', hus'⟩ := Token.of_written_append hus
  obtain rfl := List.map_eq_nil_iff.mp hus'
  exact ⟨t, us, t', rfl, ht, hd, ht'⟩

/-- **Atoms are read**: what they enclose is read with one level less. -/
theorem reads_atom (h : Reads n .sum inner) : Reads (n + 1) .atom (atom inner) where
  complete d used rest hused _ := by
    cases d with
    | number literal =>
      obtain ⟨position, rfl⟩ := Token.of_written_literal hused rfl
      rfl
    | name x =>
      obtain ⟨position, rfl⟩ := Token.of_written_literal hused rfl
      rfl
    | euler =>
      obtain ⟨⟨kind, literal, position⟩, us, rfl, rfl, hus⟩ := Token.of_written_cons hused
      obtain rfl := List.map_eq_nil_iff.mp hus
      rfl
    | group d =>
      obtain ⟨t, us, t', rfl, ht, hus, ht'⟩ := of_written_closed hused
      rw [List.cons_append, atom_lparen ht, List.append_assoc, Derivation.nesting, verdict_succ]
      exact closed_eq h group d hus ht'
    | call g d =>
      obtain ⟨t, us, rfl, ht, hus⟩ := Token.of_written_cons hused
      obtain ⟨t', us, t'', rfl, ht', hus, ht''⟩ := of_written_closed hus
      rw [List.cons_append, List.cons_append, atom_apply ht ht', List.append_assoc,
        Derivation.nesting, verdict_succ]
      exact closed_eq h (call g) d hus ht''
  answers ts := by
    cases ts with
    | nil => exact List.suffix_refl _
    | cons t ts =>
      obtain ⟨kind, literal, position⟩ := t
      cases kind with
      | number => exact ⟨.number literal, [_], rfl, rfl, rfl, Nat.succ_pos n⟩
      | name => exact ⟨.name literal, [_], rfl, rfl, rfl, Nat.succ_pos n⟩
      | euler => exact ⟨.euler, [_], rfl, rfl, rfl, Nat.succ_pos n⟩
      | lparen =>
        rw [atom_lparen rfl]
        refine ((answers_closed h group ts).cons rfl).imp ?_
        rintro ⟨_, rest⟩ ⟨d, us, t', rfl, hus, ht', rfl, hn⟩
        refine ⟨.group d, ⟨.lparen, literal, position⟩ :: (us ++ [t']), ?_, ?_, rfl,
          Nat.succ_lt_succ hn⟩
        · rw [List.cons_append, List.append_assoc]
          rfl
        · rw [written_closed rfl rfl hus ht', Derivation.tokens_group]
      | apply g =>
        refine ((answers_expect .lparen .opening ts).of_suffix (List.suffix_cons _ ts)).bind ?_
        rintro ts ⟨t', rfl, ht'⟩
        refine (((answers_closed h (call g) ts).cons (by simp [Token.opens, ht'])).of_suffix
          (List.suffix_cons _ _)).imp ?_
        rintro ⟨_, rest⟩ ⟨d, us, t'', rfl, hus, ht'', rfl, hn⟩
        refine ⟨.call g d, ⟨.apply g, literal, position⟩ :: t' :: (us ++ [t'']), ?_, ?_, rfl,
          Nat.succ_lt_succ hn⟩
        · rw [List.cons_append, List.cons_append, List.append_assoc]
          rfl
        · rw [List.map_cons, written_closed ht' rfl hus ht'', Derivation.tokens_call]
          rfl
      | _ => exact List.suffix_refl _

/-! ### Powers and minus signs -/

/-- What is read after the base of a power. -/
def raised (exponent : Parser Formula) (b : Formula) : Parser Formula
  | [] => .ok (b, [])
  | t :: ts =>
    if t.kind = .power then exponent ts >>= fun (e, rest) => pure (pow b e, rest)
    else .ok (b, t :: ts)

theorem powerOf_eq (base exponent : Parser Formula) (ts : List Token) :
    powerOf base exponent ts = base ts >>= fun (b, rest) => raised exponent b rest := by
  rw [powerOf]
  cases base ts with
  | error e => rfl
  | ok out =>
    obtain ⟨b, rest⟩ := out
    cases rest <;> rfl

theorem raised_power {t : Token} (ht : t.kind = .power) :
    raised exponent f (t :: ts) = exponent ts >>= fun (e, rest) => pure (pow f e, rest) := if_pos ht

theorem raised_stop (h : ∀ t ∈ rest.head?, t.kind ≠ .power) :
    raised exponent f rest = .ok (f, rest) := by
  cases rest with
  | nil => rfl
  | cons t rest => exact if_neg (h t rfl)

/-- **Powers are read**: their exponents are read with one level less. -/
theorem reads_powerOf (hb : Reads (n + 1) .atom base) (he : Reads n .unary exponent) :
    Reads (n + 1) .power (powerOf base exponent) where
  complete d used rest hused hstop := by
    have hatom (ts : List Token) : Symbol.atom.Stops ts := fun _ _ => rfl
    rw [powerOf_eq]
    cases d with
    | base d =>
      rw [hb.complete d hused (hatom rest)]
      refine verdict_bind_ok (raised_stop fun t ht => ?_)
      exact of_decide_eq_false (hstop t ht)
    | raise b e =>
      rw [Derivation.tokens_raise] at hused
      obtain ⟨us, t, us', rfl, hus, ht, hus'⟩ := Token.of_written_append hused
      rw [List.append_assoc, hb.complete b hus (hatom _), Derivation.nesting]
      have hraised : raised exponent b.formula (t :: (us' ++ rest)) =
          verdict (n + 1) (e.nesting + 1) (e.formula, rest) >>=
            fun (g, rest) => pure (pow b.formula g, rest) := by
        rw [raised_power ht, he.complete e hus' hstop, verdict_succ]
      calc verdict (n + 1) b.nesting (b.formula, t :: (us' ++ rest)) >>=
              (fun (f, rest) => raised exponent f rest)
          = verdict (n + 1) (max b.nesting (e.nesting + 1)) (e.formula, rest) >>=
              fun (g, rest) => pure (pow b.formula g, rest) := verdict_bind hraised
        _ = verdict (n + 1) (max b.nesting (e.nesting + 1)) (pow b.formula e.formula, rest) :=
              verdict_bind_ok rfl
  answers ts := by
    rw [powerOf_eq]
    refine (hb.answers ts).bind ?_
    rintro ⟨_, ts'⟩ ⟨d, used, rfl, hused, rfl, hn⟩
    cases ts' with
    | nil => exact ⟨.base d, used, rfl, hused, rfl, hn⟩
    | cons t ts' =>
      show Answers _ _ _ (raised exponent d.formula (t :: ts'))
      by_cases ht : t.kind = .power
      · rw [raised_power ht]
        refine (((he.answers ts').cons (by simp [Token.opens, ht])).of_suffix
          (List.suffix_append used _)).bind ?_
        rintro ⟨_, rest⟩ ⟨e, us, rfl, hus, rfl, hn'⟩
        refine ⟨.raise d e, used ++ t :: us, ?_, ?_, rfl, ?_⟩
        · rw [List.append_assoc, List.cons_append]
        · rw [List.map_append, List.map_cons, hused, hus, Token.written_eq ht rfl,
            Derivation.tokens_raise]
        · exact Nat.max_lt.mpr ⟨hn, Nat.succ_lt_succ hn'⟩
      · rw [raised_stop (by simpa using ht)]
        exact ⟨.base d, used, rfl, hused, rfl, hn⟩

/-- Sums of products are read when their operands are. -/
theorem reads_sumOf (h : Reads n .unary P) : Reads n .sum (sumOf P) := by
  have hproduct : Reads n (.chain .multiplicative) (joined P multiplicative?) :=
    reads_joined (l := .multiplicative) h
  exact reads_joined (l := .additive) hproduct

/-- What is derived from a power does not start with a minus sign. -/
theorem kind_ne_minus (d : Derivation .power) {used : List Token}
    (hused : used.map Token.written = d.tokens) :
    ∃ t us, used = t :: us ∧ t.kind ≠ .minus := by
  have hatom : ∀ d : Derivation .atom, ∃ w ws, d.tokens = w :: ws ∧ w.1 ≠ .minus := by
    intro d
    cases d <;> exact ⟨_, _, rfl, nofun⟩
  obtain ⟨w, ws, hws, hne⟩ : ∃ w ws, d.tokens = w :: ws ∧ w.1 ≠ .minus := by
    cases d with
    | base d => exact hatom d
    | raise b e =>
      obtain ⟨w, ws, hws, hne⟩ := hatom b
      exact ⟨w, ws ++ _, by rw [Derivation.tokens_raise, hws, List.cons_append], hne⟩
  obtain ⟨t, us, rfl, ht, -⟩ := Token.of_written_cons (hused.trans hws)
  exact ⟨t, us, rfl, ht ▸ hne⟩

theorem unary_minus {t : Token} (ht : t.kind = .minus) :
    unary (n + 1) (t :: ts) = unary n ts >>= fun (f, rest) => pure (neg f, rest) :=
  if_pos ht

theorem unary_of_ne {t : Token} (ht : t.kind ≠ .minus) :
    unary (n + 1) (t :: ts) = powerOf (atom (sumOf (unary n))) (unary n) (t :: ts) :=
  if_neg ht

/-- **Unary formulas are read**, by induction on the budget. -/
theorem reads_unary : ∀ n, Reads n .unary (unary n)
  | 0 => ⟨fun _ _ _ _ _ => (verdict_of_le (Nat.zero_le _)).symm, fun _ => Nat.zero_le _⟩
  | n + 1 => by
    have ih := reads_unary n
    have hpower := reads_powerOf (reads_atom (reads_sumOf ih)) ih
    refine ⟨fun d used rest hused hstop => ?_, fun ts => ?_⟩
    · cases d with
      | neg d =>
        rw [Derivation.tokens_neg] at hused
        obtain ⟨t, us, rfl, ht, hus⟩ := Token.of_written_cons hused
        rw [List.cons_append, unary_minus ht, ih.complete d hus hstop, Derivation.nesting,
          verdict_succ]
        exact verdict_bind_ok rfl
      | plain d =>
        have hread := hpower.complete d hused hstop
        obtain ⟨t, us, rfl, ht⟩ := kind_ne_minus d hused
        exact (unary_of_ne ht).trans hread
    · cases ts with
      | nil => exact List.suffix_refl _
      | cons t ts =>
        by_cases ht : t.kind = .minus
        · rw [unary_minus ht]
          refine ((ih.answers ts).cons (by simp [Token.opens, ht])).bind ?_
          rintro ⟨_, rest⟩ ⟨d, us, rfl, hus, rfl, hn⟩
          refine ⟨.neg d, t :: us, rfl, ?_, rfl, Nat.succ_lt_succ hn⟩
          rw [List.map_cons, hus, Token.written_eq ht rfl, Derivation.tokens_neg]
        · rw [unary_of_ne ht]
          refine (hpower.answers _).imp ?_
          rintro ⟨_, rest⟩ ⟨d, used, hts, hused, rfl, hn⟩
          exact ⟨.plain d, used, hts, hused, rfl, hn⟩

/-- **The parser reads its grammar.** -/
theorem reads_sum (n : Nat) : Reads n .sum (sum n) := reads_sumOf (reads_unary n)

/-! ### All tokens of a text -/

theorem complete_eq (n : Nat) (d : Derivation .sum) (hts : ts.map Token.written = d.tokens) :
    complete n ts = verdict n d.nesting d.formula := by
  have hread := (reads_sum n).complete d hts (Symbol.stops_nil _)
  rw [List.append_nil] at hread
  rw [complete, hread]
  exact verdict_bind_ok rfl

theorem answers_complete (n : Nat) (ts : List Token) :
    Answers n ts (fun f => ∃ d : Derivation .sum, ts.map Token.written = d.tokens ∧
      d.formula = f ∧ d.nesting < n) (complete n ts) := by
  refine ((reads_sum n).answers ts).bind ?_
  rintro ⟨_, rest⟩ ⟨d, used, rfl, hused, rfl, hn⟩
  cases rest with
  | nil => exact ⟨d, by rwa [List.append_nil], rfl, hn⟩
  | cons t rest => exact List.suffix_append used _

end Formula

/-- **The grammar is unambiguous**: the parser reads every derivation of some tokens as one
formula, whatever the budget. -/
theorem Grammar.Derivation.eq_of_tokens {ts : List Token} {d d' : Derivation .sum}
    (h : ts.map Token.written = d.tokens) (h' : ts.map Token.written = d'.tokens) : d = d' := by
  have hn : d.nesting < max d.nesting d'.nesting + 1 := by omega
  have hn' : d'.nesting < max d.nesting d'.nesting + 1 := by omega
  have hread := Formula.complete_eq (max d.nesting d'.nesting + 1) d h
  rw [Formula.complete_eq _ d' h', Formula.verdict_of_lt hn, Formula.verdict_of_lt hn'] at hread
  exact Derivation.eq_of_formula_eq (Except.ok.inj hread.symm)

/-! ### Texts -/

/-- The derivation derives the tokens of a text, kind by kind and literal by literal. -/
def Grammar.Derivation.Derives (d : Derivation .sum) (text : String) : Prop :=
  (Lexer.tokenize text).map (fun t => (t.kind, t.literal)) = d.tokens

theorem Lexer.map_written (text : String) :
    (tokenize text).map Token.written = (tokenize text).map fun t => (t.kind, t.literal) := by
  refine List.map_congr_left fun t ht => ?_
  rw [Token.written]
  split
  · rename_i h
    rw [(spelled_of_mem ht).sign h]
  · rfl

theorem Grammar.Derivation.eq_of_derives {d d' : Derivation .sum} {text : String}
    (h : d.Derives text) (h' : d'.Derives text) : d = d' :=
  eq_of_tokens ((Lexer.map_written text).trans h) ((Lexer.map_written text).trans h')

/-- An error that a text gives cause to: it tells of a token of the text, of its end, or of a text
that opens as many levels as are allowed. -/
def ParseError.About (text : String) : ParseError → Prop
  | illegal literal position => ⟨.illegal, literal, position⟩ ∈ Lexer.tokenize text
  | unexpected _ (some literal) position =>
      ∃ kind ≠ .illegal, ⟨kind, literal, position⟩ ∈ Lexer.tokenize text
  | unexpected _ none position => position = text.length
  | tooDeep => Formula.nestingLimit ≤ (Lexer.tokenize text).countP Token.opens

theorem Fault.Within.about {text : String} {e : Fault}
    (h : e.Within Formula.nestingLimit (Lexer.tokenize text)) :
    (e.toParseError text.length).About text := by
  cases e with
  | tooDeep => exact h
  | unexpected expected rest =>
    cases rest with
    | nil => rfl
    | cons t rest =>
      have ht : t ∈ Lexer.tokenize text := List.IsSuffix.subset h List.mem_cons_self
      rw [toParseError]
      by_cases hk : t.kind = .illegal
      · rw [if_pos hk]
        show ⟨.illegal, t.literal, t.position⟩ ∈ Lexer.tokenize text
        rwa [← hk]
      · rw [if_neg hk]
        exact ⟨t.kind, hk, ht⟩

theorem Statement.parse_eq (text : String) : parse text =
    ((Formula.complete Formula.nestingLimit (splitName (Lexer.tokenize text)).2).mapError
      (Fault.toParseError text.length)).map (Statement.mk (splitName (Lexer.tokenize text)).1) := by
  rw [parse]
  obtain ⟨name, ts⟩ := splitName (Lexer.tokenize text)
  dsimp only
  cases Formula.complete Formula.nestingLimit ts <;> rfl

namespace Formula

variable {α : Type} [Coefficient α] {text : String}

theorem parse_eq_ok (d : Derivation .sum) (h : d.Derives text) (hn : d.nesting < nestingLimit) :
    parse text = .ok d.formula := by
  rw [parse, complete_eq _ d ((Lexer.map_written text).trans h), verdict_of_lt hn]
  rfl

theorem parse_eq_tooDeep (d : Derivation .sum) (h : d.Derives text)
    (hn : nestingLimit ≤ d.nesting) : parse text = .error .tooDeep := by
  rw [parse, complete_eq _ d ((Lexer.map_written text).trans h), verdict_of_le hn]
  rfl

/-- What a text is parsed as is derived. -/
theorem exists_derivation (h : parse text = .ok f) :
    ∃ d : Derivation .sum, d.Derives text ∧ d.nesting < nestingLimit ∧ d.formula = f := by
  have hanswer := answers_complete nestingLimit (Lexer.tokenize text)
  rw [parse] at h
  cases hc : complete nestingLimit (Lexer.tokenize text) with
  | error e =>
    rw [hc] at h
    cases h
  | ok g =>
    rw [hc] at h hanswer
    obtain rfl := Except.ok.inj h
    obtain ⟨d, hd, rfl, hn⟩ := hanswer
    exact ⟨d, (Lexer.map_written text).symm.trans hd, hn, rfl⟩

theorem about_of_parse {e : ParseError} (h : parse text = .error e) : e.About text := by
  have hanswer := answers_complete nestingLimit (Lexer.tokenize text)
  rw [parse] at h
  cases hc : complete nestingLimit (Lexer.tokenize text) with
  | error fault =>
    rw [hc] at h hanswer
    obtain rfl := Except.error.inj h
    exact Fault.Within.about hanswer
  | ok g =>
    rw [hc] at h
    cases h

/-- **The parser accepts exactly its grammar.** A text gives an expression just when its tokens
have a derivation that is not nested too deeply, and then the expression is what the derivation
means; no other derivation has the same tokens. A derivation that is nested too deeply is refused
as such. A text without a derivation gives an error, every error tells of a token of the text or
of its end, and every number in a text can be read. -/
theorem parse_exact (text : String) :
    (∀ e : Expr α, (parse text).map lower = .ok e ↔
      ∃ d : Derivation .sum, d.Derives text ∧ d.nesting < nestingLimit ∧
        d.read Grammar.lowering = e) ∧
    (∀ d d' : Derivation .sum, d.Derives text → d'.Derives text → d = d') ∧
    (∀ d : Derivation .sum, d.Derives text → nestingLimit ≤ d.nesting →
      parse text = .error .tooDeep) ∧
    ((¬∃ d : Derivation .sum, d.Derives text) → ∃ e, parse text = .error e) ∧
    (∀ e, parse text = .error e → e.About text) ∧
    ∀ t ∈ Lexer.tokenize text, t.kind = .number → (Decimal.readFloat? t.literal).isSome := by
  refine ⟨fun e => ⟨fun h => ?_, ?_⟩, fun d d' h h' => Derivation.eq_of_derives h h',
    fun d h hn => parse_eq_tooDeep d h hn, fun h => ?_, fun e he => about_of_parse he,
    fun t ht hk => ?_⟩
  · cases hp : parse text with
    | error e =>
      rw [hp] at h
      cases h
    | ok f =>
      rw [hp] at h
      obtain rfl := Except.ok.inj h
      obtain ⟨d, hd, hn, rfl⟩ := exists_derivation hp
      exact ⟨d, hd, hn, d.lower_formula.symm⟩
  · rintro ⟨d, hd, hn, rfl⟩
    rw [parse_eq_ok d hd hn, ← d.lower_formula]
    rfl
  · cases hp : parse text with
    | error e => exact ⟨e, rfl⟩
    | ok f =>
      obtain ⟨d, hd, -⟩ := exists_derivation hp
      exact absurd ⟨d, hd⟩ h
  · exact Decimal.readFloat?_isSome ((Lexer.spelled_of_mem ht).number hk)

/-- Two differences, and a minus sign in an exponent. -/
theorem parse_exact_differences : (parse "a-b-2^-x").map lower = .ok (.add
    (.add (.var "a") (.mul (.const (-1)) (.var "b"))) (.mul (.const (-1))
      (.pow (.const (Coefficient.ofNumeral (.ofLiteral "2"))) (.mul (.const (-1)) (.var "x"))))
    : Expr Float) := by
  let d : Derivation .sum :=
    .join (.join (.single (.single (.plain (.base (.name "a"))))) .minus
      (.single (.plain (.base (.name "b"))))) .minus
      (.single (.plain (.raise (.number "2") (.neg (.plain (.base (.name "x")))))))
  have hd : d.Derives "a-b-2^-x" := by
    rw [Derivation.Derives]
    decide +kernel
  exact ((parse_exact "a-b-2^-x").1 _).mpr ⟨d, hd, by decide, rfl⟩

end Formula

end Fluxion
