import Fluxion.Formula.Cursor
import Fluxion.Proofs.Cuts
import Fluxion.Proofs.Relabelling

/-!
# A cursor reads what the parser reads

A rule of the parser takes the tokens that are left and returns those after what it has read. A
cursor has all tokens of its text, and a place among them. The two are related by what is left: the
tokens behind the place of the cursor, up to the end (`Cursor.At`). Every rule for cursors keeps one
contract with respect to the rule of the parser that it stands for (`Cursor.Follows`): where the
parser returns a value and the tokens after it, the cursor has the same value and has come to these
tokens, and where the parser has a fault, the cursor has the error of that fault.

## What errors leave behind

The contract says nothing about the cursor after an error. For the answers there is no need to know:
the next text puts the cursor at its own first token. That is why the answer to a text does not
depend on the ones that were given before, whatever became of them. It is known all the same that
the cursor is at one of its tokens (`Cursor.Stays`): each rule keeps it there, also where the rule
ends in an error, so that there is a token wherever one is looked at.

## Main definitions

* `Cursor.At` — the tokens in front of a cursor
* `Cursor.Performs`, `Cursor.Follows` — the contract, for one answer and for a rule
* `Cursor.Among`, `Cursor.Stays` — a cursor at one of its tokens, and rules that keep it there

## Main results

* `Cursor.follows_joined`, `Cursor.follows_atom`, `Cursor.follows_powerOf`, `Cursor.follows_unary` —
  each rule keeps the contract
* `Cursor.answer_parse`, `Cursor.answer_parseStatement` — a text is read as by the parser
* `Cursor.answers_eq` — and so are texts that are given one after another
* `Cursor.Among.getElem?_index`, `Cursor.index_lt_of_given` — a cursor never looks past its tokens
-/

namespace Fluxion

namespace Cursor

variable {finish : Nat} {ts rest : List Token} {t u : Token} {c c' : Cursor}

/-! ### The tokens in front of a cursor -/

/-- The tokens `ts` are in front of the cursor, and the text ends at `finish`. -/
structure At (finish : Nat) (ts : List Token) (c : Cursor) : Prop where
  drop_tokens : c.tokens.drop c.index = ts ++ [Lexer.finish finish]
  /-- The end is none of them. -/
  ne_finish : ∀ t ∈ ts, t.kind ≠ .finish

theorem current_eq (c : Cursor) :
    c.current = (c.tokens.drop c.index).head?.getD ⟨.finish, "", 0⟩ := by
  rw [current, List.getD_eq_getElem?_getD, List.head?_drop]

theorem At.current_nil (h : At finish [] c) : c.current = Lexer.finish finish := by
  rw [current_eq, h.drop_tokens]
  rfl

theorem At.current_cons (h : At finish (t :: ts) c) : c.current = t := by
  rw [current_eq, h.drop_tokens]
  rfl

theorem At.kind_ne (h : At finish (t :: ts) c) : c.current.kind ≠ .finish := by
  rw [h.current_cons]
  exact h.ne_finish t List.mem_cons_self

/-- One token further, one token less is in front of the cursor. -/
theorem At.forward (h : At finish (t :: ts) c) : At finish ts c.forward where
  drop_tokens := by
    rw [Cursor.forward, if_neg h.kind_ne, ← List.tail_drop, h.drop_tokens]
    rfl
  ne_finish u hu := h.ne_finish u (List.mem_cons_of_mem t hu)

theorem At.length_tokens (h : At finish ts c) : c.tokens.length = c.index + (ts.length + 1) := by
  have hlength := congrArg List.length h.drop_tokens
  rw [List.length_drop, List.length_append, List.length_singleton] at hlength
  omega

theorem At.left (h : At finish ts c) : c.left = ts.length := by
  rw [Cursor.left, h.length_tokens]
  omega

/-- The token after the one that the cursor has come to; there is none after the last one. -/
theorem At.following (h : At finish ts c) :
    c.following = (ts.tail.head?).getD (Lexer.finish finish) := by
  have hlength := h.length_tokens
  have hget (i : Nat) : c.tokens[c.index + i]? = (ts ++ [Lexer.finish finish])[i]? := by
    rw [← h.drop_tokens, List.getElem?_drop]
  rw [Cursor.following, List.getD_eq_getElem?_getD]
  cases ts with
  | nil =>
    have hmin : min (c.index + 1) (c.tokens.length - 1) = c.index + 0 := by
      rw [hlength]
      exact Nat.min_eq_right (Nat.le_add_right _ _)
    rw [hmin, hget]
    rfl
  | cons t ts =>
    have hmin : min (c.index + 1) (c.tokens.length - 1) = c.index + 1 := by
      rw [hlength, List.length_cons]
      omega
    rw [hmin, hget]
    cases ts <;> rfl

/-! ### The contract -/

variable {β γ : Type}

/-- The cursor's answer is the parser's. -/
inductive Performs (finish : Nat) :
    Except Fault (β × List Token) → EStateM.Result ParseError Cursor β → Prop
  /-- The same value, and the cursor has come to the tokens that are left. -/
  | ok {b : β} {rest : List Token} {c : Cursor} (h : At finish rest c) :
      Performs finish (.ok (b, rest)) (.ok b c)
  /-- The error of the fault. -/
  | error {e : Fault} {c : Cursor} :
      Performs finish (.error e) (.error (e.toParseError finish) c)

/-- The action follows the parser, wherever the cursor is. -/
def Follows (A : Action β) (P : Parser β) : Prop :=
  ∀ finish ts c, At finish ts c → Performs finish (P ts) (A.run c)

/-- What follows the parser and goes on alike follows it as a whole. -/
theorem Performs.bind {A : Action β} {G : β → Action γ} {x : Except Fault (β × List Token)}
    {g : β × List Token → Except Fault (γ × List Token)} (h : Performs finish x (A.run c))
    (hg : ∀ b rest c', At finish rest c' → Performs finish (g (b, rest)) ((G b).run c')) :
    Performs finish (x >>= g) ((A >>= G).run c) := by
  rw [EStateM.run_bind]
  generalize A.run c = r at h ⊢
  cases h with
  | ok h => exact hg _ _ _ h
  | error => exact .error

/-- An action that looks at the cursor first. -/
theorem run_get_bind (G : Cursor → Action β) (c : Cursor) :
    ((get : Action Cursor) >>= G).run c = (G c).run c := rfl

/-- An action that goes on to the next token first. -/
theorem run_advance_bind (G : Unit → Action β) (c : Cursor) :
    (advance >>= G).run c = (G ()).run c.forward := rfl

theorem toParseError_cons (finish : Nat) (expected : Expected) (ts : List Token)
    (h : t.kind ≠ .finish) :
    (Fault.unexpected expected (t :: ts)).toParseError finish = t.refusal expected := by
  rw [Fault.toParseError, Token.refusal]
  split
  · rename_i hk
    rw [hk]
  · split
    · contradiction
    · contradiction
    · rfl

/-- A token is refused for the same reason. -/
theorem performs_reject (h : At finish ts c) (expected : Expected) :
    Performs (β := β) finish (.error (.unexpected expected ts)) ((reject expected).run c) := by
  have herror : c.current.refusal expected =
      (Fault.unexpected expected ts).toParseError finish := by
    cases ts with
    | nil =>
      rw [h.current_nil]
      rfl
    | cons t ts =>
      rw [toParseError_cons finish expected ts (h.current_cons ▸ h.kind_ne), h.current_cons]
  have hreject : (reject expected : Action β).run c =
      .error ((Fault.unexpected expected ts).toParseError finish) c := by
    rw [← herror]
    rfl
  rw [hreject]
  exact .error

/-- The token that has to come next is the same one. -/
theorem performs_expect {G : Unit → Action γ} {g : List Token → Except Fault (γ × List Token)}
    {kind : Token.Kind} (expected : Expected) (hkind : kind ≠ .finish) (h : At finish ts c)
    (hg : ∀ rest c', At finish rest c' → Performs finish (g rest) ((G ()).run c')) :
    Performs finish (Formula.expect kind expected ts >>= g)
      ((expect kind expected >>= G).run c) := by
  rw [expect, bind_assoc, run_get_bind]
  by_cases hk : c.current.kind = kind
  · rw [if_pos hk, run_advance_bind]
    cases ts with
    | nil =>
      rw [h.current_nil] at hk
      exact absurd hk.symm hkind
    | cons t ts =>
      rw [h.current_cons] at hk
      rw [Formula.expect, if_pos hk]
      exact hg ts c.forward h.forward
  · rw [if_neg hk]
    have hfault : Formula.expect kind expected ts = .error (.unexpected expected ts) := by
      cases ts with
      | nil => rfl
      | cons t ts =>
        rw [h.current_cons] at hk
        exact if_neg hk
    rw [hfault]
    exact performs_reject h expected

/-! ### The grammar -/

variable {A base exponent inner : Action Formula} {P Pbase Pexponent Pinner : Parser Formula}
  {operator? : Token.Kind → Option Formula.Join}

/-- **Turns of a loop**, by induction on their number. -/
theorem follows_chain (hA : Follows A P) (hend : operator? .finish = none) (turns : Nat)
    (first : Formula) :
    Follows (chain A operator? turns first) (Formula.chain P operator? turns first) := by
  intro finish ts c h
  induction turns generalizing first ts c with
  | zero =>
    rw [Formula.chain_zero]
    exact .ok h
  | succ turns ih =>
    rw [chain, run_get_bind]
    cases ts with
    | nil =>
      rw [Formula.chain_nil, h.current_nil, Lexer.finish, hend]
      exact .ok h
    | cons t ts =>
      rw [Formula.chain, h.current_cons]
      cases operator? t.kind with
      | none => exact .ok h
      | some join =>
        exact (hA _ _ _ h.forward).bind fun right rest c' h' => ih (join first right) _ _ h'

theorem follows_joined (hA : Follows A P) (hend : operator? .finish = none) :
    Follows (joined A operator?) (Formula.joined P operator?) := by
  intro finish ts c h
  refine (hA _ _ _ h).bind fun first rest c' h' => ?_
  rw [run_get_bind, h'.left]
  exact follows_chain hA hend rest.length first _ _ _ h'

theorem follows_sumOf (hA : Follows A P) : Follows (sumOf A) (Formula.sumOf P) :=
  follows_joined (follows_joined hA rfl) rfl

theorem follows_closed (hinner : Follows inner Pinner) (wrap : Formula → Formula) :
    Follows (closed inner wrap) (Formula.closed Pinner wrap) := by
  intro finish ts c h
  refine (hinner _ _ _ h).bind fun f rest c' h' => ?_
  exact performs_expect .closing (by decide) h' fun _ _ h'' => .ok h''

/-- **Atoms** are read by the kind of their first token. -/
theorem follows_atom (hinner : Follows inner Pinner) :
    Follows (atom inner) (Formula.atom Pinner) := by
  intro finish ts c h
  have hreject := performs_reject (β := Formula) h .operand
  rw [atom, run_get_bind]
  dsimp only
  cases ts with
  | nil =>
    rw [h.current_nil]
    exact hreject
  | cons t ts =>
    rw [h.current_cons]
    cases ht : t.kind with
    | number =>
      rw [Formula.atom, ht]
      exact .ok h.forward
    | name =>
      rw [Formula.atom, ht]
      exact .ok h.forward
    | euler =>
      rw [Formula.atom, ht]
      exact .ok h.forward
    | lparen =>
      rw [Formula.atom_lparen ht]
      exact follows_closed hinner .group _ _ _ h.forward
    | apply g =>
      rw [Formula.atom, ht]
      exact performs_expect .opening (by decide) h.forward fun _ _ h' =>
        follows_closed hinner (.call g) _ _ _ h'
    | _ =>
      rw [Formula.atom, ht]
      exact hreject

/-- What is read after the base of a power. -/
theorem performs_raised (hexponent : Follows exponent Pexponent) (b : Formula)
    (h : At finish ts c) : Performs finish (Formula.raised Pexponent b ts)
      ((do
        if (← get).current.kind = .power then
          advance
          let e ← exponent
          return .pow b e
        else return b : Action Formula).run c) := by
  rw [run_get_bind]
  by_cases hk : c.current.kind = .power
  · rw [if_pos hk, run_advance_bind]
    cases ts with
    | nil =>
      rw [h.current_nil] at hk
      cases hk
    | cons t ts =>
      rw [h.current_cons] at hk
      rw [Formula.raised_power hk]
      exact (hexponent _ _ _ h.forward).bind fun _ _ _ h' => .ok h'
  · rw [if_neg hk, Formula.raised_stop]
    · exact .ok h
    · intro t ht
      cases ts with
      | nil => cases ht
      | cons u ts => rwa [← Option.some.inj ht, ← h.current_cons]

theorem follows_powerOf (hbase : Follows base Pbase) (hexponent : Follows exponent Pexponent) :
    Follows (powerOf base exponent) (Formula.powerOf Pbase Pexponent) := by
  intro finish ts c h
  rw [Formula.powerOf_eq]
  exact (hbase _ _ _ h).bind fun b rest c' h' => performs_raised hexponent b h'

/-- **Minus signs**, by induction on the budget. -/
theorem follows_unary : ∀ n, Follows (unary n) (Formula.unary n)
  | 0 => fun _ _ _ _ => .error
  | n + 1 => by
    have ih := follows_unary n
    have hpower := follows_powerOf (follows_atom (follows_sumOf ih)) ih
    intro finish ts c h
    rw [unary, run_get_bind]
    cases ts with
    | nil =>
      rw [h.current_nil, if_neg nofun]
      exact hpower _ _ _ h
    | cons t ts =>
      by_cases hk : t.kind = .minus
      · rw [h.current_cons, if_pos hk, run_advance_bind, Formula.unary_minus hk]
        exact (ih _ _ _ h.forward).bind fun _ _ _ h' => .ok h'
      · rw [h.current_cons, if_neg hk, Formula.unary_of_ne hk]
        exact hpower _ _ _ h

/-! ### Whole texts -/

/-- The name in front of a statement is split off, unless there is none. -/
theorem follows_splitName : Follows splitName fun ts => .ok (Statement.splitName ts) := by
  intro finish ts c h
  have hfollowing := h.following
  dsimp only
  rw [splitName, run_get_bind]
  match ts, h with
  | [], h =>
    rw [h.current_nil, if_neg fun hk => nomatch hk.1]
    exact .ok h
  | [t], h =>
    have hfinish : c.following = Lexer.finish finish := hfollowing
    rw [hfinish, if_neg fun hk => nomatch hk.2]
    have hsingle : Statement.splitName [t] = (none, [t]) := Statement.splitName_singleton
    rw [hsingle]
    exact Performs.ok h
  | t :: u :: ts, h =>
    have hnext : c.following = u := hfollowing
    rw [h.current_cons, hnext]
    by_cases hk : t.kind = .name ∧ u.kind = .assign
    · rw [if_pos hk, Statement.splitName_assign hk.1 hk.2]
      exact .ok h.forward.forward
    · rw [if_neg hk, Statement.splitName_of_not hk]
      exact .ok h

/-- The value, provided that there is no token left. -/
def ended (b : β) : Parser β
  | [] => .ok (b, [])
  | t :: ts => .error (.unexpected .finish (t :: ts))

/-- A formula that takes all tokens, as a parser. -/
def whole : Parser Formula := fun ts =>
  Formula.sum Formula.nestingLimit ts >>= fun out => ended out.1 out.2

/-- A statement that takes all tokens, as a parser. -/
def wholeStatement : Parser Statement := fun ts =>
  whole (Statement.splitName ts).2 >>= fun out =>
    .ok (⟨(Statement.splitName ts).1, out.1⟩, out.2)

theorem complete_eq (ts : List Token) :
    Formula.complete Formula.nestingLimit ts = (whole ts).map Prod.fst := by
  rw [whole, Formula.complete]
  cases Formula.sum Formula.nestingLimit ts with
  | error => rfl
  | ok out =>
    obtain ⟨f, rest⟩ := out
    cases rest <;> rfl

/-- The token that is left has to be the end. -/
theorem follows_ended (b : β) : Follows (do expectEnd; return b) (ended b) := by
  intro finish ts c h
  rw [expectEnd, bind_assoc, run_get_bind]
  cases ts with
  | nil =>
    rw [h.current_nil, if_neg fun hk => hk rfl]
    exact .ok h
  | cons t ts =>
    rw [if_pos h.kind_ne]
    exact performs_reject h .finish

theorem follows_complete : Follows complete whole := by
  intro finish ts c h
  have hsum := follows_sumOf (follows_unary Formula.nestingLimit) _ _ _ h
  exact hsum.bind fun f rest c' h' => follows_ended f _ _ _ h'

theorem follows_statement : Follows
    (do
      let name ← splitName
      let formula ← complete
      return ⟨name, formula⟩) wholeStatement := by
  intro finish ts c h
  have hrest (name : Option String) (rest : List Token) (c' : Cursor) (h' : At finish rest c') :
      Performs finish (whole rest >>= fun out => .ok (⟨name, out.1⟩, out.2))
        ((do let formula ← complete; return (⟨name, formula⟩ : Statement)).run c') :=
    (follows_complete _ _ _ h').bind fun f rest c'' h'' => .ok h''
  have hname : Performs finish (.ok (Statement.splitName ts)) (splitName.run c) :=
    follows_splitName _ _ _ h
  rw [EStateM.run_bind, wholeStatement]
  generalize splitName.run c = r at hname ⊢
  generalize Statement.splitName ts = out at hname ⊢
  cases hname with
  | ok h' => exact hrest _ _ _ h'

/-- The answer of a cursor that follows the parser. -/
theorem Performs.answer_eq {A : Action β} {x : Except Fault (β × List Token)}
    (h : Performs finish x (A.run c)) :
    answer A c = (x.map Prod.fst).mapError (Fault.toParseError finish) := by
  rw [answer]
  generalize A.run c = r at h ⊢
  cases h <;> rfl

/-- A cursor starts in front of all tokens of its text. -/
theorem at_ofText (text : String) : At text.length (Lexer.tokenize text) (ofText text) where
  drop_tokens := by
    have htokens : (Lexer.ofText text).tokens = (Lexer.tokenize text, ⟨[], text.length⟩) := by
      rw [← String.length_toList, ← Nat.zero_add text.toList.length]
      exact Lexer.tokens_of_cuts (Lexer.cuts_tokenize text)
    have hfinish : Lexer.next ⟨[], text.length⟩ =
        (Lexer.finish text.length, ⟨[], text.length⟩) := Lexer.next_blank (by simp)
    rw [ofText, List.drop_zero, Lexer.tokensAndFinish, htokens]
    dsimp only
    rw [hfinish]
  ne_finish := (Lexer.partition_of_cuts (Lexer.cuts_tokenize text)).ne_finish

/-- **A formula is read as by the parser**, wherever the cursor was left. -/
theorem answer_parse (text : String) (c : Cursor) :
    answer (parse text) c = Formula.parse text := by
  rw [Formula.parse, complete_eq]
  exact (follows_complete _ _ _ (at_ofText text)).answer_eq

/-- **A statement is read as by the parser**, wherever the cursor was left. -/
theorem answer_parseStatement (text : String) (c : Cursor) :
    answer (parseStatement text) c = Statement.parse text := by
  have hread := (follows_statement _ _ _ (at_ofText text)).answer_eq
  refine Eq.trans hread ?_
  rw [Statement.parse_eq, complete_eq, wholeStatement]
  cases whole (Statement.splitName (Lexer.tokenize text)).2 <;> rfl

/-! ### One text after another -/

/-- What the parser makes of a text. -/
def Call.outcome : Call → Except ParseError Statement
  | formula text => (Formula.parse text).map (Statement.mk none)
  | statement text => Statement.parse text

theorem answer_call (call : Call) (c : Cursor) : answer call.action c = call.outcome := by
  cases call with
  | formula text =>
    rw [Call.outcome, ← answer_parse text c, answer, answer, Call.action, EStateM.run_bind]
    cases (parse text).run c <;> rfl
  | statement text => exact answer_parseStatement text c

/-- **Texts that are given one after another**, to any cursor, are read as by the parser: an error
before does not matter. -/
theorem answers_eq (c : Cursor) (calls : List Call) : answers c calls = calls.map Call.outcome := by
  induction calls generalizing c with
  | nil => rfl
  | cons call calls ih => rw [answers, answer_call, ih, List.map_cons]

/-- The last answer is what the cursor says that the texts before have left. -/
theorem answers_concat (c : Cursor) (calls : List Call) (call : Call) :
    answers c (calls ++ [call]) = answers c calls ++ [answer call.action (c.given calls)] := by
  induction calls generalizing c with
  | nil => rfl
  | cons call' calls ih => rw [List.cons_append, answers, ih, answers, List.cons_append]; rfl

/-! ### The cursor stays among its tokens

A cursor that looks behind its last token would find one that is not there. None does: the first
token of a text is there, and no rule goes past the end. -/

/-- The cursor has come to one of its tokens, and the last of them is the end. -/
def Among (c : Cursor) : Prop := ∃ finish ts, At finish ts c

theorem Among.index_lt (h : Among c) : c.index < c.tokens.length := by
  obtain ⟨finish, ts, h⟩ := h
  rw [h.length_tokens]
  omega

/-- The token that the cursor looks at is one of its own. -/
theorem Among.getElem?_index (h : Among c) : c.tokens[c.index]? = some c.current := by
  rw [current, List.getD_eq_getElem?_getD, List.getElem?_eq_getElem h.index_lt, Option.getD_some]

/-- So is the one after it. -/
theorem Among.getElem?_following (h : Among c) :
    c.tokens[min (c.index + 1) (c.tokens.length - 1)]? = some c.following := by
  have hlt : min (c.index + 1) (c.tokens.length - 1) < c.tokens.length := by
    have := h.index_lt
    omega
  rw [following, List.getD_eq_getElem?_getD, List.getElem?_eq_getElem hlt, Option.getD_some]

theorem Among.forward (h : Among c) : Among c.forward := by
  obtain ⟨finish, ts, h⟩ := h
  cases ts with
  | nil =>
    have hend : c.forward = c := by
      rw [Cursor.forward, h.current_nil]
      exact if_pos rfl
    rw [hend]
    exact ⟨finish, [], h⟩
  | cons t ts => exact ⟨finish, ts, h.forward⟩

theorem among_ofText (text : String) : Among (ofText text) := ⟨_, _, at_ofText text⟩

/-- The action keeps a cursor among its tokens, be there a value or an error. -/
def Stays (A : Action β) : Prop := ∀ c, Among c → Among (after A c)

theorem stays_pure (b : β) : Stays (pure b) := fun _ h => h

theorem stays_get : Stays get := fun _ h => h

theorem stays_throw (e : ParseError) : Stays (throw e : Action β) := fun _ h => h

theorem stays_advance : Stays advance := fun _ h => h.forward

theorem after_bind (A : Action β) (G : β → Action γ) (c : Cursor) :
    after (A >>= G) c = match A.run c with
      | .ok b c' => after (G b) c'
      | .error _ c' => c' := by
  rw [after, EStateM.run_bind]
  cases A.run c <;> rfl

theorem Stays.bind {A : Action β} {G : β → Action γ} (hA : Stays A) (hG : ∀ b, Stays (G b)) :
    Stays (A >>= G) := by
  intro c h
  have hafter := hA c h
  rw [after_bind]
  rw [after] at hafter
  split
  · rename_i b c' hrun
    rw [hrun] at hafter
    exact hG b c' hafter
  · rename_i e c' hrun
    rwa [hrun] at hafter

theorem stays_reject (expected : Expected) : Stays (reject expected : Action β) :=
  stays_get.bind fun _ => stays_throw _

theorem stays_expect (kind : Token.Kind) (expected : Expected) : Stays (expect kind expected) :=
  stays_get.bind fun c => by
    split
    · exact stays_advance
    · exact stays_reject expected

theorem stays_expectEnd : Stays expectEnd :=
  stays_get.bind fun c => by
    split
    · exact stays_reject .finish
    · exact stays_pure ()

theorem stays_chain (hA : Stays A) (turns : Nat) (first : Formula) :
    Stays (chain A operator? turns first) := by
  induction turns generalizing first with
  | zero => exact stays_pure first
  | succ turns ih =>
    refine stays_get.bind fun c => ?_
    cases operator? c.current.kind with
    | none => exact stays_pure first
    | some join => exact stays_advance.bind fun _ => hA.bind fun right => ih (join first right)

theorem stays_joined (hA : Stays A) : Stays (joined A operator?) :=
  hA.bind fun first => stays_get.bind fun _ => stays_chain hA _ first

theorem stays_sumOf (hA : Stays A) : Stays (sumOf A) := stays_joined (stays_joined hA)

theorem stays_closed (hinner : Stays inner) (wrap : Formula → Formula) :
    Stays (closed inner wrap) :=
  hinner.bind fun f => (stays_expect .rparen .closing).bind fun _ => stays_pure (wrap f)

theorem stays_atom (hinner : Stays inner) : Stays (atom inner) := by
  refine stays_get.bind fun c => ?_
  dsimp only
  split
  case h_1 | h_2 | h_3 => exact stays_advance.bind fun _ => stays_pure _
  case h_4 => exact stays_advance.bind fun _ => stays_closed hinner .group
  case h_5 g _ =>
    exact stays_advance.bind fun _ => (stays_expect .lparen .opening).bind fun _ =>
      stays_closed hinner (.call g)
  case h_6 => exact stays_reject .operand

theorem stays_powerOf (hbase : Stays base) (hexponent : Stays exponent) :
    Stays (powerOf base exponent) := by
  refine hbase.bind fun b => stays_get.bind fun c => ?_
  split
  · exact stays_advance.bind fun _ => hexponent.bind fun e =>
      stays_pure (Formula.pow b e)
  · exact stays_pure b

theorem stays_unary : ∀ n, Stays (unary n)
  | 0 => stays_throw .tooDeep
  | n + 1 => by
    have ih := stays_unary n
    refine stays_get.bind fun c => ?_
    split
    · exact stays_advance.bind fun _ => ih.bind fun f => stays_pure f.neg
    · exact stays_powerOf (stays_atom (stays_sumOf ih)) ih

theorem stays_complete : Stays complete :=
  (stays_sumOf (stays_unary Formula.nestingLimit)).bind fun f =>
    stays_expectEnd.bind fun _ => stays_pure f

theorem stays_splitName : Stays splitName := by
  refine stays_get.bind fun c => ?_
  split
  · exact stays_advance.bind fun _ => stays_advance.bind fun _ => stays_pure _
  · exact stays_pure none

/-- **A text leaves the cursor at one of its tokens**, wherever the cursor was before. -/
theorem among_after_call (call : Call) (c : Cursor) : Among (after call.action c) := by
  have hstatement : Stays (do
      let name ← splitName
      let formula ← complete
      return (⟨name, formula⟩ : Statement)) :=
    stays_splitName.bind fun name => stays_complete.bind fun f =>
      stays_pure (Statement.mk name f)
  have hformula : Stays (do return (⟨none, ← complete⟩ : Statement)) :=
    stays_complete.bind fun f => stays_pure (Statement.mk none f)
  cases call with
  | formula text => exact hformula _ (among_ofText text)
  | statement text => exact hstatement _ (among_ofText text)

/-- **No run of a cursor leaves its tokens**: after any texts, one at least, the number of the token
that it has come to is below the number of its tokens. -/
theorem index_lt_of_given (c : Cursor) (calls : List Call) (hcalls : calls ≠ []) :
    (c.given calls).index < (c.given calls).tokens.length := by
  obtain h | ⟨earlier, last, rfl⟩ := List.eq_nil_or_concat calls
  · exact absurd h hcalls
  · rw [given, List.concat_eq_append, List.foldl_append]
    exact (among_after_call last _).index_lt

end Cursor

end Fluxion
