import Fluxion.Proofs.Parsing

/-!
# One token of lookahead

A parser reads its tokens from the left and stops in front of the first one that it does not take.
It has looked at that token and at none behind it. So it stops there again, with the same value or
the same expectation, when other tokens come behind.

A larger budget makes no difference either, once a parser has stopped for another reason than its
budget. Both are said at once, of a parser and of another one with a larger budget
(`Formula.Ahead`). This is what rules out that a text which is refused could still be continued to a
formula: the parser would read the formula in full, and it would stop where it stopped before.

## Main definitions

* `Formula.answer` — a value or an expectation, with the tokens that are left
* `Formula.Again` — a parser gives an answer, whatever comes behind the first token that is left
* `Formula.Ahead` — where one parser stops, another one stops again

## Main results

* `Formula.Ahead.bind` — parsers one after the other
* `Formula.ahead_joined`, `Formula.ahead_atom`, `Formula.ahead_powerOf`, `Formula.ahead_unary` — all
  rules look at one token
* `Formula.not_derived_of_complete` — tokens that are refused are not the first ones of a formula
-/

namespace Fluxion

open Grammar (Derivation)

namespace Formula

variable {β γ : Type} {ts us rest rest' : List Token} {t : Token} {n m : Nat}

/-- What a parser answers other than that its budget is exhausted: a value or what was expected
instead, and the tokens that are left. -/
def answer (rest : List Token) : Except Expected β → Except Fault (β × List Token)
  | .ok b => .ok (b, rest)
  | .error expected => .error (.unexpected expected rest)

/-- The parser leaves the tokens `rest` with the answer `x`, and it gives the same answer whatever
comes behind the first of them. -/
def Again (P : Parser β) (ts rest : List Token) (x : Except Expected β) : Prop :=
  ∃ used, ts = used ++ rest ∧
    ∀ rest', rest'.head? = rest.head? → P (used ++ rest') = answer rest' x

/-- Where `P` stops, `Q` stops again. -/
def Ahead (P Q : Parser β) : Prop := ∀ ⦃ts rest x⦄, P ts = answer rest x → Again Q ts rest x

theorem head?_append_congr (h : rest'.head? = rest.head?) (us : List Token) :
    (us ++ rest').head? = (us ++ rest).head? := by
  rw [List.head?_append, List.head?_append, h]

theorem exists_of_head? (h : us.head? = (t :: ts).head?) : ∃ us', us = t :: us' := by
  cases us with
  | nil => cases h
  | cons u us => exact ⟨us, by rw [Option.some.inj h]⟩

theorem answer_ne_tooDeep {x : Except Expected β} : .error .tooDeep ≠ answer rest x := by
  cases x <;> nofun

/-- A parser that is followed by another one stops where the first of them fails, or else where the
second one stops. -/
theorem bind_eq_answer {x : Except Fault (β × List Token)} {y : Except Expected γ}
    {g : β × List Token → Except Fault (γ × List Token)} (h : x >>= g = answer rest y) :
    (∃ expected, y = .error expected ∧ x = answer rest (.error expected)) ∨
      ∃ b mid, x = answer mid (.ok b) ∧ g (b, mid) = answer rest y := by
  cases x with
  | ok out => exact .inr ⟨out.1, out.2, rfl, h⟩
  | error e =>
    cases e with
    | tooDeep => exact absurd h answer_ne_tooDeep
    | unexpected expected us =>
      cases y with
      | ok c => cases h
      | error expected' =>
        cases h
        exact .inl ⟨expected, rfl, rfl⟩

/-! ### Where a parser stops -/

/-- A parser that stops at the end of the tokens looks no further. -/
theorem again_nil {P : Parser β} {x : Except Expected β} (h : P [] = answer rest x)
    (hrest : rest = []) : Again P [] rest x := by
  subst hrest
  refine ⟨[], rfl, fun rest' hhead => ?_⟩
  rw [List.head?_eq_none_iff.mp hhead]
  exact h

/-- A parser that stops at a token looks no further. -/
theorem again_stop {P : Parser β} {x : Except Expected β}
    (h : ∀ us, P (t :: us) = answer (t :: us) x) : Again P (t :: ts) (t :: ts) x := by
  refine ⟨[], rfl, fun rest' hhead => ?_⟩
  obtain ⟨us, rfl⟩ := exists_of_head? hhead
  exact h us

/-- A parser that takes a token goes on with what is behind it. -/
theorem Again.cons {P : Parser β} {Q : Parser γ} {x : Except Expected β} {y : Except Expected γ}
    (hP : Again P ts rest x)
    (h : ∀ us rest, P us = answer rest x → Q (t :: us) = answer rest y) :
    Again Q (t :: ts) rest y := by
  obtain ⟨used, rfl, hagain⟩ := hP
  exact ⟨t :: used, rfl, fun rest' hhead => h _ _ (hagain rest' hhead)⟩

/-- A parser that does what another one does at the first token stops where that one stops. -/
theorem Again.congr {P Q : Parser β} {x : Except Expected β} (hP : Again P (t :: ts) rest x)
    (h : ∀ us, Q (t :: us) = P (t :: us)) : Again Q (t :: ts) rest x := by
  obtain ⟨used, hts, hagain⟩ := hP
  refine ⟨used, hts, fun rest' hhead => ?_⟩
  obtain ⟨us, hus⟩ := exists_of_head? (hts ▸ head?_append_congr hhead used)
  rw [← hagain rest' hhead, hus]
  exact h us

/-! ### Parsers one after the other -/

theorem ahead_pure (b : β) : Ahead (fun ts => .ok (b, ts)) fun ts => .ok (b, ts) := by
  intro ts rest x h
  cases x with
  | error expected => cases h
  | ok c =>
    cases h
    exact ⟨[], rfl, fun _ _ => rfl⟩

theorem Ahead.bind {P Q : Parser β} (hP : Ahead P Q) (g g' : β → Parser γ)
    (hg : ∀ b, Ahead (g b) (g' b)) :
    Ahead (fun ts => P ts >>= fun out => g out.1 out.2)
      fun ts => Q ts >>= fun out => g' out.1 out.2 := by
  intro ts rest y h
  rcases bind_eq_answer h with ⟨expected, rfl, hstop⟩ | ⟨b, mid, hfirst, hsecond⟩
  · obtain ⟨used, rfl, hagain⟩ := hP hstop
    refine ⟨used, rfl, fun rest' hhead => ?_⟩
    show Q (used ++ rest') >>= _ = _
    rw [hagain rest' hhead]
    rfl
  · obtain ⟨us, rfl, hQ⟩ := hP hfirst
    obtain ⟨us', rfl, hg'⟩ := hg b hsecond
    refine ⟨us ++ us', (List.append_assoc us us' rest).symm, fun rest' hhead => ?_⟩
    show Q (us ++ us' ++ rest') >>= _ = _
    rw [List.append_assoc, hQ _ (head?_append_congr hhead us')]
    exact hg' rest' hhead

/-- The token that has to come next is the one that is looked at. -/
theorem Ahead.expect {P Q : Parser β} (h : Ahead P Q) (kind : Token.Kind) (expected : Expected) :
    Ahead (fun ts => Formula.expect kind expected ts >>= P)
      fun ts => Formula.expect kind expected ts >>= Q := by
  intro ts rest x hstop
  cases ts with
  | nil => cases x <;> cases hstop; exact again_nil rfl rfl
  | cons t ts =>
    have hexpect : ∀ {R : Parser β} us, (Formula.expect kind expected (t :: us) >>= R) =
        if t.kind = kind then R us else .error (.unexpected expected (t :: us)) := by
      intro R us
      rw [Formula.expect]
      split <;> rfl
    by_cases ht : t.kind = kind
    · simp only [hexpect, if_pos ht] at hstop
      exact (h hstop).cons fun us rest hus => (hexpect us).trans ((if_pos ht).trans hus)
    · simp only [hexpect, if_neg ht] at hstop
      cases x <;> cases hstop
      exact again_stop fun us => (hexpect us).trans (if_neg ht)

/-! ### The rules -/

variable {P Q base base' exponent exponent' : Parser Formula}

theorem chain_turn {operator? : Token.Kind → Option Join} {join : Join}
    (h : operator? t.kind = some join) (turns : Nat) (left : Formula) (ts : List Token) :
    chain P operator? (turns + 1) left (t :: ts) =
      P ts >>= fun out => chain P operator? turns (join left out.1) out.2 := by
  rw [chain, h]

/-- **The loop over the operands of a chain stops again**, given enough turns for all tokens: by
induction on the turns, each of which takes an operator and an operand. -/
theorem ahead_chain (hP : Ahead P Q) (operator? : Token.Kind → Option Join) (turns : Nat)
    (left : Formula) {x : Except Expected Formula} (hturns : ts.length ≤ turns)
    (h : chain P operator? turns left ts = answer rest x) (spare : Nat) :
    Again (fun ts => chain Q operator? (ts.length + spare) left ts) ts rest x := by
  induction turns generalizing left ts spare with
  | zero =>
    obtain rfl := List.length_eq_zero_iff.mp (Nat.le_zero.mp hturns)
    rw [chain_nil] at h
    cases x <;> cases h
    exact again_nil (chain_nil _ _) rfl
  | succ turns ih =>
    cases ts with
    | nil =>
      rw [chain_nil] at h
      cases x <;> cases h
      exact again_nil (chain_nil _ _) rfl
    | cons t ts =>
      cases ho : operator? t.kind with
      | none =>
        rw [chain_stop _ ho] at h
        cases x <;> cases h
        exact again_stop fun us => chain_stop _ ho
      | some join =>
        have hturn : ∀ us, chain Q operator? ((t :: us).length + spare) left (t :: us) =
            Q us >>= fun out => chain Q operator? (us.length + spare) (join left out.1) out.2 := by
          intro us
          rw [List.length_cons, Nat.succ_add, chain_turn ho]
        rw [chain_turn ho] at h
        rw [List.length_cons, Nat.add_le_add_iff_right] at hturns
        rcases bind_eq_answer h with ⟨expected, rfl, hstop⟩ | ⟨right, mid, hoperand, hmore⟩
        · refine (hP hstop).cons fun us rest hus => ?_
          rw [hturn, hus]
          rfl
        · obtain ⟨us, rfl, hQ⟩ := hP hoperand
          have hmid : mid.length ≤ turns := by rw [List.length_append] at hturns; omega
          -- the turns for the tokens of the operand are to spare
          obtain ⟨us', rfl, hloop⟩ := ih (join left right) hmid hmore (us.length + spare)
          refine ⟨t :: (us ++ us'), by rw [List.cons_append, List.append_assoc],
            fun rest' hhead => ?_⟩
          have hspare : (us ++ (us' ++ rest')).length + spare =
              (us' ++ rest').length + (us.length + spare) := by
            rw [List.length_append]
            omega
          show chain Q operator? ((t :: (us ++ us' ++ rest')).length + spare) left
            (t :: (us ++ us' ++ rest')) = _
          rw [hturn, List.append_assoc, hQ _ (head?_append_congr hhead us'), hspare]
          exact hloop rest' hhead

theorem ahead_joined (hP : Ahead P Q) (operator? : Token.Kind → Option Join) :
    Ahead (joined P operator?) (joined Q operator?) :=
  hP.bind (fun left rest => chain P operator? rest.length left rest)
    (fun left rest => chain Q operator? rest.length left rest) fun left ts _ _ h =>
      ahead_chain hP operator? ts.length left (Nat.le_refl _) h 0

theorem ahead_sumOf (hP : Ahead P Q) : Ahead (sumOf P) (sumOf Q) :=
  ahead_joined (ahead_joined hP multiplicative?) additive?

theorem ahead_closed (hP : Ahead P Q) (wrap : Formula → Formula) :
    Ahead (closed P wrap) (closed Q wrap) :=
  hP.bind (fun f ts => expect .rparen .closing ts >>= fun ts => .ok (wrap f, ts)) _
    fun f => (ahead_pure (wrap f)).expect .rparen .closing

theorem ahead_atom (hP : Ahead P Q) : Ahead (atom P) (atom Q) := by
  intro ts rest x h
  cases ts with
  | nil => cases x <;> cases h; exact again_nil rfl rfl
  | cons t ts =>
    cases ht : t.kind with
    | number | euler | name =>
      rw [atom, ht] at h
      cases x <;> cases h
      refine ⟨[t], rfl, fun rest' _ => ?_⟩
      rw [List.singleton_append, atom, ht]
      rfl
    | lparen =>
      rw [atom_lparen ht] at h
      exact (ahead_closed hP group h).cons fun us rest hus => (atom_lparen ht).trans hus
    | apply g =>
      have hatom : ∀ {R : Parser Formula} us, atom R (t :: us) =
          expect .lparen .opening us >>= closed R (call g) := by
        intro R us
        rw [atom, ht]
        rfl
      rw [hatom] at h
      exact ((ahead_closed hP (call g)).expect .lparen .opening h).cons
        fun us rest hus => (hatom us).trans hus
    | _ =>
      rw [atom, ht] at h
      cases x <;> cases h
      refine again_stop fun us => ?_
      rw [atom, ht]
      rfl

theorem ahead_raised (he : Ahead exponent exponent') (b : Formula) :
    Ahead (raised exponent b) (raised exponent' b) := by
  intro ts rest x h
  cases ts with
  | nil => cases x <;> cases h; exact again_nil rfl rfl
  | cons t ts =>
    by_cases ht : t.kind = .power
    · have hraised := he.bind (fun e rest => .ok (pow b e, rest)) _ fun e => ahead_pure (pow b e)
      rw [raised_power ht] at h
      exact (hraised h).cons fun us rest hus => (raised_power ht).trans hus
    · rw [raised, if_neg ht] at h
      cases x <;> cases h
      exact again_stop fun us => if_neg ht

theorem ahead_powerOf (hb : Ahead base base') (he : Ahead exponent exponent') :
    Ahead (powerOf base exponent) (powerOf base' exponent') := by
  intro ts rest x h
  rw [powerOf_eq] at h
  have hpower := hb.bind _ _ (fun b => ahead_raised he b) h
  simpa only [Again, powerOf_eq] using hpower

/-- **Unary formulas stop again** with any larger budget, by induction on the budget. -/
theorem ahead_unary : ∀ {n m : Nat}, n ≤ m → Ahead (unary n) (unary m)
  | 0, _, _ => fun _ _ _ h => absurd h answer_ne_tooDeep
  | n + 1, m, hle => by
    obtain ⟨m, rfl⟩ := Nat.exists_eq_add_of_le' (Nat.le_trans (Nat.succ_pos n) hle)
    have ih : Ahead (unary n) (unary m) := ahead_unary (Nat.le_of_succ_le_succ hle)
    intro ts rest x h
    cases ts with
    | nil => cases x <;> cases h; exact again_nil rfl rfl
    | cons t ts =>
      by_cases ht : t.kind = .minus
      · have hneg := ih.bind (fun f rest => .ok (neg f, rest)) _ fun f => ahead_pure (neg f)
        rw [unary_minus ht] at h
        exact (hneg h).cons fun us rest hus => (unary_minus ht).trans hus
      · rw [unary_of_ne ht] at h
        exact (ahead_powerOf (ahead_atom (ahead_sumOf ih)) ih h).congr fun us => unary_of_ne ht

/-! ### Tokens that are refused -/

/-- Tokens that are refused are refused at the same one, whatever comes behind it. -/
theorem complete_again {expected : Expected} (hnm : n ≤ m)
    (h : complete n ts = .error (.unexpected expected rest)) :
    ∃ used, ts = used ++ rest ∧ ∀ rest', rest'.head? = rest.head? →
      complete m (used ++ rest') = .error (.unexpected expected rest') := by
  have hsum : Ahead (sum n) (sum m) := ahead_sumOf (ahead_unary hnm)
  rw [complete] at h
  cases hread : sum n ts with
  | error e =>
    rw [hread] at h
    cases h
    obtain ⟨used, hts, hagain⟩ := hsum (x := .error expected) hread
    refine ⟨used, hts, fun rest' hhead => ?_⟩
    rw [complete, hagain rest' hhead]
    rfl
  | ok out =>
    obtain ⟨f, us⟩ := out
    rw [hread] at h
    cases us with
    | nil => cases h
    | cons t us =>
      cases h
      obtain ⟨used, hts, hagain⟩ := hsum (x := .ok f) hread
      refine ⟨used, hts, fun rest' hhead => ?_⟩
      obtain ⟨us', rfl⟩ := exists_of_head? hhead
      rw [complete, hagain _ hhead]
      rfl

/-- **Tokens that are refused cannot be continued to a formula**, neither behind the token at which
they are refused nor, if that is their end, at all. -/
theorem not_derived_of_complete {expected : Expected}
    (h : complete n ts = .error (.unexpected expected rest)) :
    ∃ used, ts = used ++ rest ∧ ∀ rest', rest'.head? = rest.head? →
      ∀ d : Derivation .sum, (used ++ rest').map Token.written ≠ d.tokens := by
  obtain ⟨used, hts, -⟩ := complete_again (Nat.le_refl n) h
  refine ⟨used, hts, fun rest' hhead d hd => ?_⟩
  have hlt : d.nesting < max n (d.nesting + 1) := by omega
  obtain ⟨used', hts', hagain⟩ := complete_again (Nat.le_max_left n (d.nesting + 1)) h
  obtain rfl := List.append_cancel_right (hts.symm.trans hts')
  have hread := complete_eq (max n (d.nesting + 1)) d hd
  rw [hagain rest' hhead, verdict_of_lt hlt] at hread
  cases hread

end Formula

end Fluxion
