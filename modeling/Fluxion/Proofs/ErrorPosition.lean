import Fluxion.Proofs.Lookahead
import Fluxion.Proofs.Spacing

/-!
# Errors point at the first impossible token

When a text is refused, the error has the position of one of its tokens, or of its end. That token
is the first one that cannot stand where it does: the tokens before it are those of a text that can
be continued to a formula, and with the token itself they are not.

The two halves have different reasons. That the tokens before a fault can be completed is told by
the rule that meets the fault, which knows what is missing: an operand, or a parenthesis. A rule
around it completes what it has opened itself (`Formula.Viable.within`). That they cannot be
completed with the token is a matter of lookahead, and is known from `Lookahead`.

## Texts and tokens

Completing tokens by other tokens would say little if no text had these tokens. So a completion is
required to consist of tokens which are read from their own texts (`Token.Alone`), and what is
completed in the end is a text: the tokens are written one after the other with blanks between them.

## Main definitions

* `Formula.Viable` — the tokens before a fault can be completed
* `Grammar.IsFormula`, `Grammar.IsStatement` — the texts that are derived
* `Lexer.FirstImpossible` — the number of the first token that cannot stand where it does

## Main results

* `Formula.viable_joined`, `Formula.viable_atom`, `Formula.viable_powerOf`, `Formula.viable_unary` —
  no rule reports a fault too late
* `Lexer.FirstImpossible.unique`, `Lexer.startOf_injective` — there is one such token, and no other
  one starts where it does
* `ParseError.position_of_parse` — errors point at it
-/

namespace Fluxion

open Grammar (Derivation Level Op Symbol)

/-! ### Tokens that are written alone -/

/-- The token is read from its text, when nothing comes behind. -/
def Token.Alone (t : Token) : Prop := Lexer.Lexeme t.kind t.literal.toList []

theorem Token.alone_name : (⟨.name, "x", 0⟩ : Token).Alone := by
  have hword : Lexer.Lexeme (.ofWord (String.ofList ['x'])) ['x'] [] :=
    .word (by decide) (by simp) (by simp)
  exact hword

theorem Token.alone_lparen : (⟨.lparen, "(", 0⟩ : Token).Alone := Lexer.Lexeme.sign rfl

theorem Token.alone_rparen : (⟨.rparen, ")", 0⟩ : Token).Alone := Lexer.Lexeme.sign rfl

namespace Lexer

variable {text : String} {ts : List Token}

theorem alone_of_mem {t : Token} (ht : t ∈ tokenize text) : t.Alone :=
  ((partition_of_cuts (cuts_tokens (ofText text))).longest t ht).detach (by simp [Detached])

/-- Tokens with blanks between them are read one by one. -/
theorem cuts_spaced (hts : ∀ t ∈ ts, t.Alone) (n : Nat) :
    ∃ us, Cuts n (weave (fun _ => [' ']) ts) us ∧ us.map Token.word = ts.map Token.word := by
  have hblank : ∀ b ∈ [' '], Unicode.isBlank b = true := by
    rw [List.forall_mem_singleton]
    decide
  induction ts generalizing n with
  | nil => exact ⟨[], .nil hblank, rfl⟩
  | cons t ts ih =>
    obtain ⟨ht, hts⟩ := List.forall_mem_cons.mp hts
    obtain ⟨us, hus, hwords⟩ := ih hts (n + 1 + t.literal.toList.length)
    have hdetached : Detached [] (weave (fun _ => [' ']) ts) := by
      intro c hc
      have hspace : ' ' = c := by cases ts <;> exact Option.some.inj hc
      exact .inr (ends_of_isBlank (hblank c (by rw [hspace]; exact List.mem_singleton.mpr rfl)))
    refine ⟨⟨t.kind, String.ofList t.literal.toList, n + 1⟩ :: us,
      .cons hblank (ht.detach hdetached) hus, ?_⟩
    rw [List.map_cons, List.map_cons, hwords, String.ofList_toList]
    rfl

/-- Tokens that are read from their own texts are those of some text. -/
theorem exists_text (hts : ∀ t ∈ ts, t.Alone) :
    ∃ text, (tokenize text).map Token.word = ts.map Token.word := by
  obtain ⟨us, hcuts, hwords⟩ := cuts_spaced hts 0
  refine ⟨String.ofList (weave (fun _ => [' ']) ts), ?_⟩
  rw [tokenize, ofText, String.toList_ofList, tokens_of_cuts hcuts, hwords]

end Lexer

/-! ### What comes before a fault -/

namespace Formula

variable {n : Nat} {s s' : Symbol} {l : Level} {ts rest : List Token} {t : Token} {f : Formula}
  {expected : Expected} {P base exponent inner : Parser Formula}

/-- The tokens before `rest` can be completed to a derivation. -/
def Viable (s : Symbol) (ts rest : List Token) : Prop :=
  ∃ (d : Derivation s) (used more : List Token), ts = used ++ rest ∧
    (used ++ more).map Token.written = d.tokens ∧ ∀ t ∈ more, t.Alone

/-- What stands between other tokens is completed by those behind it. -/
theorem Viable.within (h : Viable s ts rest) (before behind : List Token)
    (wrap : Derivation s → Derivation s') (hwrap : ∀ d, (wrap d).tokens =
      before.map Token.written ++ (d.tokens ++ behind.map Token.written))
    (hbehind : ∀ t ∈ behind, t.Alone) : Viable s' (before ++ ts) rest := by
  obtain ⟨d, used, more, rfl, hd, hmore⟩ := h
  refine ⟨wrap d, before ++ used, more ++ behind, (List.append_assoc _ _ _).symm, ?_,
    List.forall_mem_append.mpr ⟨hmore, hbehind⟩⟩
  rw [hwrap, ← hd]
  simp only [List.map_append, List.append_assoc]

/-- Whatever fault a parser meets, the tokens before it can be completed. -/
def Foresees (s : Symbol) (P : Parser Formula) : Prop :=
  ∀ ⦃ts expected rest⦄, P ts = .error (.unexpected expected rest) → Viable s ts rest

/-- A fault is met by a parser itself, or by what comes after a derivation that it has read. -/
theorem fault_of_bind {β : Type} {g : Formula × List Token → Except Fault β} (hP : Reads n s P)
    (hV : Foresees s P) (h : P ts >>= g = .error (.unexpected expected rest)) :
    Viable s ts rest ∨ ∃ (d : Derivation s) (used us : List Token), ts = used ++ us ∧
      used.map Token.written = d.tokens ∧ g (d.formula, us) = .error (.unexpected expected rest) := by
  have hanswer := hP.answers ts
  cases hread : P ts with
  | error e =>
    rw [hread] at h
    cases h
    exact .inl (hV hread)
  | ok out =>
    rw [hread] at h hanswer
    obtain ⟨d, used, hts, hused, hd, -⟩ := hanswer
    refine .inr ⟨d, used, out.2, hts, hused, ?_⟩
    rw [hd]
    exact h

/-- A fault is met at the token that has to come next, or else behind it. -/
theorem fault_of_expect {β : Type} {g : List Token → Except Fault β} {kind : Token.Kind}
    {wanted : Expected}
    (h : expect kind wanted ts >>= g = .error (.unexpected expected rest)) :
    rest = ts ∨ ∃ t us, ts = t :: us ∧ t.kind = kind ∧
      g us = .error (.unexpected expected rest) := by
  cases ts with
  | nil => cases h; exact .inl rfl
  | cons t us =>
    by_cases ht : t.kind = kind
    · rw [expect_ok ht] at h
      exact .inr ⟨t, us, rfl, ht, h⟩
    · rw [expect, if_neg ht] at h
      cases h
      exact .inl rfl

/-! ### The rules -/

/-- **The loop over the operands of a chain**, by induction on the turns: the chain that was read so
far is completed by an operand. -/
theorem viable_chain (hP : Reads n l.operand P) (hV : Foresees l.operand P) (turns : Nat)
    (d : Derivation (.chain l)) {used : List Token} (hused : used.map Token.written = d.tokens)
    (h : chain P l.operator? turns d.formula ts = .error (.unexpected expected rest)) :
    Viable (.chain l) (used ++ ts) rest := by
  induction turns generalizing d used ts with
  | zero => rw [chain_zero] at h; cases h
  | succ turns ih =>
    cases ts with
    | nil => rw [chain_nil] at h; cases h
    | cons t ts =>
      cases ho : l.operator? t.kind with
      | none => rw [chain_stop _ ho] at h; cases h
      | some join =>
        obtain ⟨o, ht, rfl⟩ := Level.exists_operator ho
        have hopen : (used ++ [t]).map Token.written = d.tokens ++ [(o.kind, o.kind.spelling)] := by
          rw [List.map_append, List.map_singleton, hused, Token.written_eq ht.symm o.isSign]
        rw [chain_step o ht.symm] at h
        rw [List.append_cons]
        rcases fault_of_bind hP hV h with hfault | ⟨d', us, us', rfl, hus, hmore⟩
        · refine hfault.within _ [] (.join d o) (fun d' => ?_) (by simp)
          rw [hopen, Derivation.tokens_join, List.map_nil, List.append_nil, List.append_assoc]
          rfl
        · rw [← List.append_assoc]
          refine ih (.join d o d') ?_ hmore
          rw [List.map_append, hopen, hus, Derivation.tokens_join, List.append_assoc]
          rfl

theorem viable_joined (hP : Reads n l.operand P) (hV : Foresees l.operand P) :
    Foresees (.chain l) (joined P l.operator?) := by
  intro ts expected rest h
  rcases fault_of_bind hP hV h with hfault | ⟨d, used, us, rfl, hused, hmore⟩
  · exact hfault.within [] [] .single
      (fun d => (List.append_nil _).symm) (by simp)
  · exact viable_chain hP hV us.length (.single d) hused hmore

theorem viable_sumOf (hP : Reads n .unary P) (hV : Foresees .unary P) :
    Foresees .sum (sumOf P) := by
  have hproduct : Reads n (.chain .multiplicative) (joined P multiplicative?) :=
    reads_joined (l := .multiplicative) hP
  exact viable_joined (l := .additive) hproduct (viable_joined (l := .multiplicative) hP hV)

/-- Up to its parenthesis a formula is read, or can be completed. -/
theorem viable_closed (hP : Reads n .sum inner) (hV : Foresees .sum inner)
    (wrap : Formula → Formula) (h : closed inner wrap ts = .error (.unexpected expected rest)) :
    Viable .sum ts rest := by
  rcases fault_of_bind hP hV h with hfault | ⟨d, used, us, rfl, hused, hmore⟩
  · exact hfault
  · rcases fault_of_expect hmore with rfl | ⟨t, us', -, -, hpure⟩
    · exact ⟨d, used, [], rfl, by rwa [List.append_nil], by simp⟩
    · cases hpure

/-- Where an operand is expected, a name will do. -/
theorem viable_operand (ts : List Token) : Viable .atom ts ts :=
  ⟨.name "x", [], [⟨.name, "x", 0⟩], rfl, rfl, List.forall_mem_singleton.mpr Token.alone_name⟩

theorem viable_atom (hP : Reads n .sum inner) (hV : Foresees .sum inner) :
    Foresees .atom (atom inner) := by
  have hclose : ∀ t ∈ [(⟨.rparen, ")", 0⟩ : Token)], t.Alone :=
    List.forall_mem_singleton.mpr Token.alone_rparen
  intro ts expected rest h
  cases ts with
  | nil => cases h; exact viable_operand []
  | cons t ts =>
    cases ht : t.kind with
    | number | euler | name => rw [atom, ht] at h; cases h
    | lparen =>
      rw [atom_lparen ht] at h
      refine (viable_closed hP hV group h).within [t] _ .group (fun d => ?_) hclose
      rw [Derivation.tokens_group, List.map_singleton, Token.written_eq ht rfl]
      rfl
    | apply g =>
      have hatom : atom inner (t :: ts) = expect .lparen .opening ts >>= closed inner (call g) := by
        rw [atom, ht]
        rfl
      rw [hatom] at h
      rcases fault_of_expect h with rfl | ⟨t', us, rfl, ht', hargument⟩
      · refine ⟨.call g (.single (.single (.plain (.base (.name "x"))))), [t],
          [⟨.lparen, "(", 0⟩, ⟨.name, "x", 0⟩, ⟨.rparen, ")", 0⟩], rfl, ?_,
          List.forall_mem_cons.mpr ⟨Token.alone_lparen,
            List.forall_mem_cons.mpr ⟨Token.alone_name, hclose⟩⟩⟩
        rw [Derivation.tokens_call, List.map_append, List.map_singleton, Token.written_eq ht rfl]
        rfl
      · refine (viable_closed hP hV (call g) hargument).within [t, t'] _ (.call g)
          (fun d => ?_) hclose
        rw [Derivation.tokens_call, List.map_cons, List.map_singleton, Token.written_eq ht rfl,
          Token.written_eq ht' rfl]
        rfl
    | _ => rw [atom, ht] at h; cases h; exact viable_operand _

theorem viable_powerOf (hb : Reads (n + 1) .atom base) (hVb : Foresees .atom base)
    (he : Reads n .unary exponent) (hVe : Foresees .unary exponent) :
    Foresees .power (powerOf base exponent) := by
  intro ts expected rest h
  rw [powerOf_eq] at h
  rcases fault_of_bind hb hVb h with hfault | ⟨d, used, us, rfl, hused, hmore⟩
  · exact hfault.within [] [] .base
      (fun d => (List.append_nil _).symm) (by simp)
  · have hraised : raised exponent d.formula us = .error (.unexpected expected rest) := hmore
    cases us with
    | nil => cases hraised
    | cons t us =>
      by_cases ht : t.kind = .power
      · rw [raised_power ht] at hraised
        rcases fault_of_bind he hVe hraised with hfault | ⟨e, us', rest', -, -, hpure⟩
        · rw [List.append_cons]
          refine hfault.within _ [] (.raise d) (fun e => ?_) (by simp)
          rw [Derivation.tokens_raise, List.map_append, List.map_singleton, hused,
            Token.written_eq ht rfl, List.map_nil, List.append_nil, List.append_assoc]
          rfl
        · cases hpure
      · rw [raised_stop (by simpa using ht)] at hraised
        cases hraised

/-- **No rule reports a fault too late**, by induction on the budget. -/
theorem viable_unary : ∀ n, Foresees .unary (unary n)
  | 0 => fun _ _ _ h => by cases h
  | n + 1 => by
    have ih := viable_unary n
    have hatom := viable_atom (reads_sumOf (reads_unary n)) (viable_sumOf (reads_unary n) ih)
    intro ts expected rest h
    cases ts with
    | nil =>
      cases h
      exact (viable_operand []).within [] [] (.plain <| .base ·)
        (fun d => (List.append_nil _).symm) (by simp)
    | cons t ts =>
      by_cases ht : t.kind = .minus
      · rw [unary_minus ht] at h
        rcases fault_of_bind (reads_unary n) ih h with hfault | ⟨d, us, us', -, -, hpure⟩
        · refine hfault.within [t] [] .neg (fun d => ?_) (by simp)
          rw [Derivation.tokens_neg, List.map_singleton, Token.written_eq ht rfl, List.map_nil,
            List.append_nil]
          rfl
        · cases hpure
      · rw [unary_of_ne ht] at h
        exact (viable_powerOf (reads_atom (reads_sumOf (reads_unary n))) hatom (reads_unary n) ih
          h).within [] [] .plain (fun d => (List.append_nil _).symm) (by simp)

/-- The tokens before a fault can be completed to a formula. -/
theorem viable_complete (h : complete n ts = .error (.unexpected expected rest)) :
    Viable .sum ts rest := by
  rcases fault_of_bind (reads_sum n) (viable_sumOf (reads_unary n) (viable_unary n)) h with
    hfault | ⟨d, used, us, rfl, hused, hmore⟩
  · exact hfault
  · cases us with
    | nil => cases hmore
    | cons t us =>
      cases hmore
      exact ⟨d, used, [], rfl, by rwa [List.append_nil], by simp⟩

end Formula

/-! ### Texts -/

/-- The kinds of tokens that no formula has. -/
def Token.Kind.isForeign : Token.Kind → Bool
  | illegal | finish | assign => true
  | _ => false

namespace Grammar

/-- A text that is derived. -/
def IsFormula (text : String) : Prop := ∃ d : Derivation .sum, d.Derives text

/-- A text that is derived, or a name and an equals sign in front of what is derived. -/
def IsStatement (text : String) : Prop :=
  IsFormula text ∨ ∃ (x : String) (d : Derivation .sum), (Lexer.tokenize text).map Token.word =
    (.name, x) :: (.assign, Token.Kind.assign.spelling) :: d.tokens

/-- What is derived holds no token of another kind than those of formulas. -/
theorem Derivation.isForeign_of_mem {s : Symbol} (d : Derivation s) :
    ∀ w ∈ d.tokens, w.1.isForeign = false := by
  induction d with
  | single d ih => exact ih
  | plain d ih => exact ih
  | base d ih => exact ih
  | @join l d o d' ih ih' =>
    rw [tokens_join]
    have ho : o.kind.isForeign = false := by cases o <;> rfl
    exact List.forall_mem_append.mpr ⟨ih, List.forall_mem_cons.mpr ⟨ho, ih'⟩⟩
  | neg d ih => exact List.forall_mem_cons.mpr ⟨rfl, ih⟩
  | raise b e ihb ihe =>
    exact List.forall_mem_append.mpr ⟨ihb, List.forall_mem_cons.mpr ⟨rfl, ihe⟩⟩
  | number | name | euler => exact List.forall_mem_singleton.mpr rfl
  | group d ih =>
    exact List.forall_mem_cons.mpr ⟨rfl,
      List.forall_mem_append.mpr ⟨ih, List.forall_mem_singleton.mpr rfl⟩⟩
  | call g d ih =>
    exact List.forall_mem_cons.mpr ⟨rfl, List.forall_mem_cons.mpr ⟨rfl,
      List.forall_mem_append.mpr ⟨ih, List.forall_mem_singleton.mpr rfl⟩⟩⟩

theorem Derivation.ne_assign {s : Symbol} (d : Derivation s) : ∀ w ∈ d.tokens, w.1 ≠ .assign :=
  fun w hw h => absurd (d.isForeign_of_mem w hw) (by rw [h]; decide)

end Grammar

namespace Lexer

open Grammar (IsFormula IsStatement)

variable {L : String → Prop} {text : String} {k k' : Nat}

/-- Token `k` of a text is the first one that cannot stand where it does, in the texts of a language
`L`; the end of the text counts as its last token. -/
structure FirstImpossible (L : String → Prop) (text : String) (k : Nat) : Prop where
  le : k ≤ (tokenize text).length
  /-- A text of the language starts with the tokens before. -/
  before : ∃ s, L s ∧ ((tokenize text).map Token.word).take k <+: (tokenize s).map Token.word
  /-- None starts with the tokens up to this one. -/
  token : k < (tokenize text).length →
    ¬∃ s, L s ∧ ((tokenize text).map Token.word).take (k + 1) <+: (tokenize s).map Token.word
  /-- At the end, the tokens alone are none. -/
  finish : k = (tokenize text).length → ¬L text

/-- There is one first token that cannot stand where it does. -/
theorem FirstImpossible.unique (h : FirstImpossible L text k) (h' : FirstImpossible L text k') :
    k' = k := by
  have hnot : ∀ {i j}, FirstImpossible L text i → FirstImpossible L text j → ¬i < j := by
    intro i j hi hj hlt
    obtain ⟨s, hs, hprefix⟩ := hj.before
    exact hi.token (Nat.lt_of_lt_of_le hlt hj.le)
      ⟨s, hs, (List.take_prefix_take_left hlt).trans hprefix⟩
  exact Nat.le_antisymm (Nat.not_lt.mp (hnot h h')) (Nat.not_lt.mp (hnot h' h))

/-- Tokens start one behind the other, and the text ends behind them. -/
theorem startOf_lt (hlt : k < k') (hle : k' ≤ (tokenize text).length) :
    startOf text k < startOf text k' := by
  have hpartition := partition_of_cuts (cuts_tokens (ofText text))
  have hk : k < (tokenize text).length := Nat.lt_of_lt_of_le hlt hle
  have hstart : startOf text k = (tokenize text)[k].position := by
    rw [startOf, List.getElem?_eq_getElem hk]
    rfl
  rw [hstart]
  rcases Nat.lt_or_eq_of_le hle with hk' | rfl
  · rw [startOf, List.getElem?_eq_getElem hk']
    exact List.pairwise_iff_getElem.mp hpartition.increasing k k' hk hk' hlt
  · rw [startOf, List.getElem?_eq_none (Nat.le_refl _)]
    have ht := List.getElem_mem hk
    have hne := (hpartition.longest _ ht).ne_nil
    rw [hpartition.literal _ ht] at hne
    refine Nat.not_le.mp fun hbehind => hne ?_
    rw [List.drop_eq_nil_of_le (by rwa [String.length_toList]), List.take_nil]

theorem startOf_injective (hk : k ≤ (tokenize text).length) (hk' : k' ≤ (tokenize text).length)
    (h : startOf text k' = startOf text k) : k' = k := by
  rcases Nat.lt_trichotomy k k' with hlt | heq | hlt
  · exact absurd h (Nat.ne_of_gt (startOf_lt hlt hk'))
  · exact heq.symm
  · exact absurd h (Nat.ne_of_lt (startOf_lt hlt hk))

/-- The first impossible token, when the text is divided in front of it. -/
theorem FirstImpossible.of_append {used rest : List Token} (htext : tokenize text = used ++ rest)
    (before : ∃ s, L s ∧ used.map Token.word <+: (tokenize s).map Token.word)
    (token : ∀ t us, rest = t :: us →
      ¬∃ s, L s ∧ (used ++ [t]).map Token.word <+: (tokenize s).map Token.word)
    (finish : rest = [] → ¬L text) :
    FirstImpossible L text ((tokenize text).length - rest.length) := by
  have hlength : (tokenize text).length - rest.length = used.length := by
    rw [htext, List.length_append, Nat.add_sub_cancel]
  rw [hlength]
  refine ⟨?_, ?_, fun hlt => ?_, fun heq => finish ?_⟩
  · rw [htext, List.length_append]
    exact Nat.le_add_right _ _
  · rwa [htext, ← List.map_take, List.take_left]
  · cases rest with
    | nil => rw [htext, List.append_nil] at hlt; exact absurd hlt (Nat.lt_irrefl _)
    | cons t us =>
      have htake : (used ++ t :: us).take (used.length + 1) = used ++ [t] := by
        rw [List.append_cons, ← List.length_singleton, ← List.length_append, List.take_left]
      rw [htext, ← List.map_take, htake]
      exact token t us rfl
  · rw [htext, List.length_append] at heq
    exact List.length_eq_zero_iff.mp (by omega)

end Lexer

open Lexer (tokenize startOf FirstImpossible)

/-- How a token is written depends on its kind and text. -/
theorem Token.map_written_congr {ts us : List Token} (h : ts.map word = us.map word) :
    ts.map written = us.map written := by
  have hword : ∀ vs : List Token, vs.map written =
      (vs.map word).map fun w => (w.1, if w.1.isSign then w.1.spelling else w.2) :=
    fun vs => by rw [List.map_map]; rfl
  rw [hword, hword, h]

namespace Formula

open Grammar (IsFormula IsStatement)

variable {n : Nat} {text : String} {expected : Expected} {ts us used rest before : List Token}
  {t : Token}

/-- The tokens before a fault are completed to a text, together with tokens in front of them. -/
theorem exists_completion (before : List Token)
    (h : complete n ts = .error (.unexpected expected rest)) (htext : tokenize text = before ++ ts) :
    ∃ (used : List Token) (d : Derivation .sum) (s : String), ts = used ++ rest ∧
      used.map Token.word <+: d.tokens ∧
      (tokenize s).map Token.word = before.map Token.word ++ d.tokens := by
  obtain ⟨d, used, more, rfl, hd, hmore⟩ := viable_complete h
  have halone : ∀ t ∈ before ++ (used ++ more), t.Alone := by
    have hused : ∀ t ∈ before ++ (used ++ rest), t.Alone := fun t ht =>
      Lexer.alone_of_mem (htext ▸ ht)
    simp only [List.forall_mem_append] at hused ⊢
    exact ⟨hused.1, hused.2.1, hmore⟩
  obtain ⟨s, hs⟩ := Lexer.exists_text halone
  -- in the text that is found, tokens are written the way they are read
  have hwritten : before.map Token.word ++ (used ++ more).map Token.word =
      before.map Token.written ++ (used ++ more).map Token.written := by
    rw [← List.map_append, ← List.map_append, ← Token.map_written_congr hs, ← hs]
    exact (Lexer.map_written s).symm
  have htokens := (List.append_inj hwritten (by simp only [List.length_map])).2
  rw [hd] at htokens
  refine ⟨used, d, s, rfl, ?_, ?_⟩
  · rw [← htokens, List.map_append]
    exact List.prefix_append _ _
  · rw [hs, List.map_append, htokens]

/-- No derivation starts with the tokens up to the one that is refused. -/
theorem not_prefix_of_complete
    (h : complete n (used ++ t :: rest) = .error (.unexpected expected (t :: rest)))
    {d : Derivation .sum} (hd : us.map Token.written = d.tokens) :
    ¬(used ++ [t]).map Token.word <+: us.map Token.word := by
  rintro ⟨ws, hws⟩
  obtain ⟨before, more, rfl, hbefore, -⟩ := List.map_eq_append_iff.mp hws.symm
  obtain ⟨used', hused', hno⟩ := not_derived_of_complete h
  obtain rfl := List.append_cancel_right hused'
  refine hno (t :: more) rfl d ?_
  rw [← hd, List.append_cons]
  exact Token.map_written_congr (by rw [List.map_append, ← hbefore, ← List.map_append])

/-- Tokens that are refused at their end are not derived. -/
theorem not_derived_of_finish (h : complete n ts = .error (.unexpected expected []))
    (d : Derivation .sum) : ts.map Token.written ≠ d.tokens := by
  obtain ⟨used, rfl, hno⟩ := not_derived_of_complete h
  exact hno [] rfl d

theorem firstImpossible_formula
    (h : complete n (tokenize text) = .error (.unexpected expected rest)) :
    FirstImpossible IsFormula text ((tokenize text).length - rest.length) := by
  obtain ⟨used, d, s, htext, hprefix, hs⟩ := exists_completion [] h (List.nil_append _).symm
  refine .of_append htext ⟨s, ⟨d, hs⟩, hs ▸ hprefix⟩ ?token ?finish
  case token =>
    rintro t us rfl ⟨s, ⟨d, hd⟩, hprefix⟩
    rw [htext] at h
    exact not_prefix_of_complete h ((Lexer.map_written s).trans hd) hprefix
  case finish =>
    rintro rfl ⟨d, hd⟩
    exact not_derived_of_finish h d ((Lexer.map_written text).trans hd)

/-! ### Statements -/

/-- A statement with an equals sign behind its first token is derived from there on. -/
theorem derived_of_isStatement {s : String} {a b : Token} (hs : IsStatement s)
    (htext : tokenize s = a :: b :: us) (hb : b.kind = .assign) :
    ∃ d : Derivation .sum, us.map Token.written = d.tokens := by
  have hwritten := Lexer.map_written s
  rcases hs with ⟨d, hd⟩ | ⟨x, d, hd⟩
  · have hmem : b.word ∈ d.tokens := by
      rw [← hd, htext]
      exact List.mem_cons_of_mem _ List.mem_cons_self
    exact absurd hb (d.ne_assign _ hmem)
  · rw [htext] at hwritten hd
    exact ⟨d, (List.cons.inj (List.cons.inj hwritten).2).2.trans
      (List.cons.inj (List.cons.inj hd).2).2⟩

/-- Behind a name and an equals sign, the first impossible token is that of the formula. -/
theorem firstImpossible_assigned {a b : Token} (htext : tokenize text = a :: b :: ts)
    (ha : a.kind = .name) (hb : b.kind = .assign)
    (h : complete n ts = .error (.unexpected expected rest)) :
    FirstImpossible IsStatement text ((tokenize text).length - rest.length) := by
  obtain ⟨used, d, s, rfl, hprefix, hs⟩ := exists_completion [a, b] h htext
  have hassign : b.word = (.assign, Token.Kind.assign.spelling) := by
    have hmem : b ∈ tokenize text := htext ▸ List.mem_cons_of_mem _ List.mem_cons_self
    rw [Token.word, (Lexer.spelled_of_mem hmem).sign (by rw [hb]; rfl), hb]
  refine .of_append (show tokenize text = (a :: b :: used) ++ rest from htext)
    ⟨s, .inr ⟨a.literal, d, ?name⟩, ?before⟩ ?token ?finish
  case name =>
    rw [hs, ← ha, ← hassign]
    rfl
  case before =>
    rw [hs]
    exact (List.prefix_append_right_inj [a.word, b.word]).mpr hprefix
  case token =>
    rintro t us rfl ⟨s, hs, ws, hws⟩
    obtain ⟨a', us', htext', -, hus'⟩ := List.map_eq_cons_iff.mp hws.symm
    obtain ⟨b', us', rfl, hb', hus'⟩ := List.map_eq_cons_iff.mp hus'
    obtain ⟨d, hd⟩ := derived_of_isStatement hs htext' ((congrArg Prod.fst hb').trans hb)
    exact not_prefix_of_complete h hd ⟨ws, hus'.symm⟩
  case finish =>
    rintro rfl hs
    obtain ⟨d, hd⟩ := derived_of_isStatement hs htext hb
    exact not_derived_of_finish h d hd

/-- Where no name and equals sign come first, the first impossible token is that of a formula. -/
theorem firstImpossible_bare {k : Nat} (h : FirstImpossible IsFormula text k)
    (hno : ∀ x, ¬[(.name, x), (.assign, Token.Kind.assign.spelling)] <+:
      (tokenize text).map Token.word) :
    FirstImpossible IsStatement text k where
  le := h.le
  before := by
    obtain ⟨s, hs, hprefix⟩ := h.before
    exact ⟨s, .inl hs, hprefix⟩
  token := by
    rintro hlt ⟨s, hs | ⟨x, d, hd⟩, hprefix⟩
    · exact h.token hlt ⟨s, hs, hprefix⟩
    · rw [hd] at hprefix
      cases k with
      | zero =>
        -- a name alone is a formula
        obtain ⟨t, us, htext⟩ := List.exists_cons_of_length_pos hlt
        rw [htext, List.map_cons] at hprefix
        have ht : t.word = (.name, x) := (List.cons_prefix_cons.mp hprefix).1
        have halone : ∀ u ∈ [t], u.Alone :=
          List.forall_mem_singleton.mpr (Lexer.alone_of_mem (htext ▸ List.mem_cons_self))
        obtain ⟨s, hs⟩ := Lexer.exists_text halone
        refine h.token hlt ⟨s, ⟨.single (.single (.plain (.base (.name x)))), ?_⟩, ?_⟩
        · exact hs.trans (by rw [List.map_singleton, ht]; rfl)
        · rw [hs, htext]
          exact List.prefix_refl _
      | succ k =>
        have hlength : 2 ≤ (((tokenize text).map Token.word).take (k + 1 + 1)).length := by
          rw [List.length_take, List.length_map]
          omega
        have hpair : [(.name, x), (.assign, Token.Kind.assign.spelling)] <+:
            (.name, x) :: (.assign, Token.Kind.assign.spelling) :: d.tokens := ⟨d.tokens, rfl⟩
        exact hno x ((List.prefix_of_prefix_length_le hpair hprefix hlength).trans
          (List.take_prefix _ _))
  finish := by
    rintro heq (hs | ⟨x, d, hd⟩)
    · exact h.finish heq hs
    · exact hno x (hd ▸ ⟨d.tokens, rfl⟩)

end Formula

namespace Statement

variable {n : Nat} {text : String} {expected : Expected} {rest : List Token}

open Grammar (IsStatement)

theorem firstImpossible
    (h : Formula.complete n (splitName (tokenize text)).2 = .error (.unexpected expected rest)) :
    FirstImpossible IsStatement text ((tokenize text).length - rest.length) := by
  by_cases hassign : ∃ a b ts, tokenize text = a :: b :: ts ∧ a.kind = .name ∧ b.kind = .assign
  · obtain ⟨a, b, ts, htext, ha, hb⟩ := hassign
    rw [htext, splitName_assign ha hb] at h
    exact Formula.firstImpossible_assigned htext ha hb h
  · have hsplit : (splitName (tokenize text)).2 = tokenize text := by
      cases htext : tokenize text with
      | nil => rfl
      | cons a us =>
        cases us with
        | nil => rw [splitName_singleton]
        | cons b ts => rw [splitName_of_not fun hkinds => hassign ⟨a, b, ts, htext, hkinds⟩]
    rw [hsplit] at h
    refine Formula.firstImpossible_bare (Formula.firstImpossible_formula h) ?_
    rintro x ⟨ws, hws⟩
    obtain ⟨a, us, htext, ha, hus⟩ := List.map_eq_cons_iff.mp hws.symm
    obtain ⟨b, ts, rfl, hb, -⟩ := List.map_eq_cons_iff.mp hus
    exact hassign ⟨a, b, ts, htext, congrArg Prod.fst ha, congrArg Prod.fst hb⟩

end Statement

namespace ParseError

open Grammar (IsFormula IsStatement)

variable {L : String → Prop} {text : String} {e : ParseError} {fault : Fault}

/-- The error has the position of the first token that cannot stand where it does. There is one such
token, and no other one starts at that position. -/
def PointsAtFirst (L : String → Prop) (text : String) (e : ParseError) : Prop :=
  ∃ k, e.position? = some (startOf text k) ∧ FirstImpossible L text k ∧
    (∀ k', FirstImpossible L text k' → k' = k) ∧
    ∀ k' ≤ (tokenize text).length, startOf text k' = startOf text k → k' = k

/-- An error points at the token in front of which the last tokens of a text are refused. -/
theorem pointsAtFirst_of_complete {ts : List Token} (hts : ts <:+ tokenize text)
    (hdeep : e ≠ .tooDeep)
    (h : (Formula.complete Formula.nestingLimit ts).mapError (Fault.toParseError text.length) =
      .error e)
    (hfirst : ∀ expected rest,
      Formula.complete Formula.nestingLimit ts = .error (.unexpected expected rest) →
        FirstImpossible L text ((tokenize text).length - rest.length)) :
    PointsAtFirst L text e := by
  have hanswer := (Formula.answers_complete Formula.nestingLimit ts).of_suffix hts
  cases hread : Formula.complete Formula.nestingLimit ts with
  | ok f => rw [hread] at h; cases h
  | error fault =>
    rw [hread] at h hanswer
    obtain rfl := Except.error.inj h
    cases fault with
    | tooDeep => exact absurd rfl hdeep
    | unexpected expected rest =>
      have hk := hfirst expected rest hread
      refine ⟨_, ?_, hk, fun k' => hk.unique, fun k' hk' => Lexer.startOf_injective hk.le hk'⟩
      rw [Lexer.startOf_of_suffix hanswer]
      cases rest with
      | nil => rfl
      | cons t rest => rw [Fault.toParseError]; split <;> rfl

/-- **Errors point at the first impossible token.** Suppose that a text is refused, as a formula or
as a statement, and not for being nested too deeply. Then the error has the position of one of its
tokens, or of its end: of the only token such that some text which is accepted starts with the
tokens before it, but none with these and the token itself. If it is the end, the tokens alone are
not accepted. -/
theorem position_of_parse (hdeep : e ≠ .tooDeep) :
    (Formula.parse text = .error e → PointsAtFirst IsFormula text e) ∧
      (Statement.parse text = .error e → PointsAtFirst IsStatement text e) := by
  constructor
  · intro h
    exact pointsAtFirst_of_complete (List.suffix_refl _) hdeep h fun expected rest =>
      Formula.firstImpossible_formula
  · intro h
    rw [Statement.parse_eq] at h
    refine pointsAtFirst_of_complete (Statement.splitName_suffix _) hdeep ?_ fun expected rest =>
      Statement.firstImpossible
    cases hread : (Formula.complete Formula.nestingLimit
        (Statement.splitName (tokenize text)).2).mapError (Fault.toParseError text.length) with
    | ok f => rw [hread] at h; cases h
    | error e' => rw [hread] at h; cases h; rfl

/-- An operand is missing in front of a parenthesis. -/
theorem position_of_parse_operand :
    Statement.parse "a = 2*(b+)" = .error (.unexpected .operand (some ")") 9) ∧
      PointsAtFirst IsStatement "a = 2*(b+)" (.unexpected .operand (some ")") 9) := by
  have htokens : tokenize "a = 2*(b+)" = [⟨.name, "a", 0⟩, ⟨.assign, "=", 2⟩, ⟨.number, "2", 4⟩,
      ⟨.times, "*", 5⟩, ⟨.lparen, "(", 6⟩, ⟨.name, "b", 7⟩, ⟨.plus, "+", 8⟩, ⟨.rparen, ")", 9⟩] := by
    decide +kernel
  have hparse : Statement.parse "a = 2*(b+)" = .error (.unexpected .operand (some ")") 9) := by
    rw [Statement.parse, htokens]
    rfl
  exact ⟨hparse, (position_of_parse (by decide)).2 hparse⟩

end ParseError

end Fluxion
