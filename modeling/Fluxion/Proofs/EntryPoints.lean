import Fluxion.Proofs.Cursor

/-!
# A text as a formula and as a statement

A text can be read as a formula or as a statement. The two readings differ only in what they do
when the first tokens are a name and an equals sign. A statement is then the name, and whatever
formula the text behind the equals sign is, and as a formula the text is refused at the equals sign.
In front of anything else there is nothing that a statement would do otherwise.

## Two texts

The text behind the equals sign can be read on its own. It is cut into the same tokens as before,
because a token is as long as it can be in front of what follows it, whatever stands before it. Only
the positions are others, all of them by the same number. The parser does not look at positions,
and each error has one, that of a token or of the end; so what is said of the shorter text is said
of the longer one, with the position moved by that number.

## Main definitions

* `Token.shift`, `ParseError.shift` — tokens and errors in a text with more text before it
* `Lexer.behind` — the text behind a position

## Main results

* `Lexer.Cuts.shift`, `Lexer.tokenize_behind` — tokens behind a token are read on their own
* `Statement.parse_assigned`, `Formula.parse_assigned` — a text that starts with a name and an
  equals sign
* `Cursor.entryPoints_agree` — formulas and statements, whatever was read before
-/

namespace Fluxion

/-- The token in a text with `m` more characters before it. -/
def Token.shift (m : Nat) (t : Token) : Token := { t with position := m + t.position }

theorem Token.keeps_shift (m : Nat) : Token.Keeps (Token.shift m) := fun _ => ⟨rfl, rfl⟩

/-- The error in a text with `m` more characters before it. -/
def ParseError.shift (m : Nat) : ParseError → ParseError
  | illegal literal position => illegal literal (m + position)
  | unexpected expected found position => unexpected expected found (m + position)
  | tooDeep => tooDeep

/-- An error is moved with the tokens that it tells of, and with the end of the text. -/
theorem Fault.toParseError_shift (m finish : Nat) (e : Fault) :
    (e.map (Token.shift m)).toParseError (m + finish) = (e.toParseError finish).shift m := by
  cases e with
  | tooDeep => rfl
  | unexpected expected rest =>
    cases rest with
    | nil => rfl
    | cons t rest =>
      rw [map, List.map_cons, toParseError, toParseError]
      by_cases ht : t.kind = .illegal
      · rw [if_pos ht, if_pos (show (t.shift m).kind = .illegal from ht)]
        rfl
      · rw [if_neg ht, if_neg (show ¬(t.shift m).kind = .illegal from ht)]
        rfl

namespace Lexer

variable {n : Nat} {cs : List Char} {t : Token} {ts before : List Token} {text : String}

theorem Cuts.shift (h : Cuts n cs ts) (m : Nat) : Cuts (m + n) cs (ts.map (Token.shift m)) := by
  induction h with
  | nil hcs => exact .nil hcs
  | cons hblanks htext hrest ih =>
    rw [List.map_cons, Token.shift]
    simp only [← Nat.add_assoc] at ih ⊢
    exact .cons hblanks htext ih

/-- The text behind a token is cut as before. -/
theorem Cuts.behind (h : Cuts n cs (before ++ t :: ts)) :
    n ≤ t.stop ∧ t.stop ≤ n + cs.length ∧ Cuts t.stop (cs.drop (t.stop - n)) ts := by
  induction before generalizing n cs with
  | nil =>
    cases h with
    | @cons _ blanks text rest k _ hblanks htext hrest =>
      have hstop : (⟨k, String.ofList text, n + blanks.length⟩ : Token).stop =
          n + (blanks ++ text).length := by
        rw [Token.stop, String.length_ofList, List.length_append, Nat.add_assoc]
      rw [hstop, ← List.append_assoc, Nat.add_sub_cancel_left, List.drop_left]
      refine ⟨Nat.le_add_right _ _, ?_, ?_⟩
      · simp only [List.length_append]
        omega
      · rwa [List.length_append, ← Nat.add_assoc]
  | cons u before ih =>
    cases h with
    | @cons _ blanks text rest k _ hblanks htext hrest =>
      obtain ⟨hle, hle', hcuts⟩ := ih hrest
      have hdrop : (blanks ++ (text ++ rest)).drop (t.stop - n) =
          rest.drop (t.stop - (n + blanks.length + text.length)) := by
        have hlength : t.stop - n =
            (blanks ++ text).length + (t.stop - (n + blanks.length + text.length)) := by
          rw [List.length_append]
          omega
        rw [hlength, ← List.append_assoc, ← List.drop_drop, List.drop_left]
      refine ⟨by omega, ?_, hdrop ▸ hcuts⟩
      simp only [List.length_append]
      omega

/-- The text from a position on. -/
def behind (text : String) (position : Nat) : String :=
  String.ofList (text.toList.drop position)

/-- **What stands behind a token is read on its own**: the same tokens, but for their positions. -/
theorem tokenize_behind (h : tokenize text = before ++ t :: ts) :
    ts = (tokenize (behind text t.stop)).map (Token.shift t.stop) ∧
      text.length = t.stop + (behind text t.stop).length := by
  have hcuts : Cuts 0 text.toList (before ++ t :: ts) := h ▸ cuts_tokenize text
  obtain ⟨-, hle, hbehind⟩ := hcuts.behind
  rw [Nat.sub_zero] at hbehind
  rw [Nat.zero_add, String.length_toList] at hle
  have hown : Cuts 0 (text.toList.drop t.stop) (tokenize (behind text t.stop)) := by
    have hread := cuts_tokenize (behind text t.stop)
    rwa [behind, String.toList_ofList] at hread
  constructor
  · have htokens := tokens_of_cuts (hown.shift t.stop)
    rw [Nat.add_zero, tokens_of_cuts hbehind] at htokens
    exact congrArg Prod.fst htokens
  · rw [behind, String.length_ofList, List.length_drop, String.length_toList]
    omega

end Lexer

open Lexer (tokenize behind)

variable {text : String} {name sign : Token} {ts : List Token}

/-- An equals sign has one character. -/
theorem Lexer.stop_assign (h : sign ∈ tokenize text) (hsign : sign.kind = .assign) :
    sign.literal = "=" ∧ sign.stop = sign.position + 1 := by
  have hliteral : sign.literal = "=" := by
    rw [(spelled_of_mem h).sign (by rw [hsign]; rfl), hsign]
    rfl
  refine ⟨hliteral, ?_⟩
  rw [Token.stop, hliteral]
  rfl

/-- **The formula behind a name and an equals sign** is that of the text behind the sign. -/
theorem Statement.parse_assigned (htext : tokenize text = name :: sign :: ts)
    (hname : name.kind = .name) (hsign : sign.kind = .assign) :
    parse text = ((Formula.parse (behind text (sign.position + 1))).map
      (Statement.mk (some name.literal))).mapError (ParseError.shift (sign.position + 1)) := by
  have hmem : sign ∈ tokenize text := htext ▸ .tail _ (.head _)
  have hsplit : tokenize text = [name] ++ sign :: ts := htext
  obtain ⟨hts, hlength⟩ := Lexer.tokenize_behind hsplit
  rw [(Lexer.stop_assign hmem hsign).2] at hts hlength
  rw [parse_eq, htext, splitName_assign hname hsign, Formula.parse, hlength]
  dsimp only
  rw [hts, Formula.complete_map (Token.keeps_shift _)]
  cases Formula.complete Formula.nestingLimit (tokenize (behind text (sign.position + 1))) with
  | ok f => rfl
  | error e => exact congrArg Except.error (Fault.toParseError_shift _ _ e)

/-- A formula cannot go on with an equals sign. -/
theorem Formula.parse_assigned (htext : tokenize text = name :: sign :: ts)
    (hname : name.kind = .name) (hsign : sign.kind = .assign) :
    parse text = .error (.unexpected .finish (some "=") sign.position) := by
  have hmem : sign ∈ tokenize text := htext ▸ .tail _ (.head _)
  let d : Grammar.Derivation .sum :=
    .single (.single (.plain (.base (.name name.literal))))
  have hused : [name].map Token.written = d.tokens := by
    rw [List.map_singleton, Token.written, hname]
    rfl
  have hstop : Grammar.Symbol.sum.Stops (sign :: ts) :=
    Grammar.Symbol.stops_cons (by rw [hsign]; rfl)
  have hnesting : d.nesting < nestingLimit := show 0 < nestingLimit by decide
  have hread : sum nestingLimit (name :: sign :: ts) = .ok (d.formula, sign :: ts) :=
    ((reads_sum nestingLimit).complete d hused hstop).trans (verdict_of_lt hnesting)
  rw [parse, htext, complete, hread]
  show Except.error ((Fault.unexpected .finish (sign :: ts)).toParseError text.length) = _
  rw [Fault.toParseError, if_neg (by rw [hsign]; decide), (Lexer.stop_assign hmem hsign).1]

namespace Cursor

/-- **Formulas and statements.** Let a cursor have read any texts, with or without errors, and let
it be given one more. If the first tokens of the text are a name and an equals sign, then as a
statement it is the name with the formula that the text behind the sign is; an error there is an
error here, with its position counted from the start of the whole text. As a formula the text is
refused at the equals sign. Every other text is a statement without a name just when it is a
formula, and otherwise gives the same error. -/
theorem entryPoints_agree (c : Cursor) (earlier : List Call) (text : String) :
    (∀ name sign ts, tokenize text = name :: sign :: ts → name.kind = .name →
      sign.kind = .assign →
      answer (parseStatement text) (c.given earlier) =
        ((answer (parse (behind text (sign.position + 1))) (c.given earlier)).map
          (Statement.mk (some name.literal))).mapError (ParseError.shift (sign.position + 1)) ∧
      answer (parse text) (c.given earlier) =
        .error (.unexpected .finish (some "=") sign.position)) ∧
    ((∀ name sign ts, tokenize text = name :: sign :: ts →
        ¬(name.kind = .name ∧ sign.kind = .assign)) →
      answer (parseStatement text) (c.given earlier) =
        (answer (parse text) (c.given earlier)).map (Statement.mk none)) := by
  rw [answer_parseStatement, answer_parse]
  refine ⟨fun name sign ts htext hname hsign => ?_, fun hnot => ?_⟩
  · rw [answer_parse]
    exact ⟨Statement.parse_assigned htext hname hsign, Formula.parse_assigned htext hname hsign⟩
  · have hsplit : Statement.splitName (tokenize text) = (none, tokenize text) := by
      match htokens : tokenize text with
      | [] => rfl
      | [t] => exact Statement.splitName_singleton
      | t :: u :: ts => exact Statement.splitName_of_not (hnot t u ts htokens)
    rw [Statement.parse_eq, hsplit, Formula.parse]

/-- A text that starts with a name and an equals sign, and one that does not, after two errors. -/
theorem entryPoints_agree_after_errors :
    answer (parseStatement "x = 2 +") (given {} [.formula "(", .statement "y ="]) =
        .error (.unexpected .operand none 7) ∧
      answer (parse "x = 2 +") (given {} [.formula "(", .statement "y ="]) =
        .error (.unexpected .finish (some "=") 2) ∧
      answer (parseStatement "x") (given {} [.formula "(", .statement "y ="]) =
        (answer (parse "x") (given {} [.formula "(", .statement "y ="])).map
          (Statement.mk none) := by
  have htokens : tokenize "x = 2 +" =
      [⟨.name, "x", 0⟩, ⟨.assign, "=", 2⟩, ⟨.number, "2", 4⟩, ⟨.plus, "+", 6⟩] := by
    decide +kernel
  have hbehind : tokenize (behind "x = 2 +" 3) = [⟨.number, "2", 1⟩, ⟨.plus, "+", 3⟩] := by
    decide +kernel
  have hname : tokenize "x" = [⟨.name, "x", 0⟩] := by decide +kernel
  have hparse : Formula.parse (behind "x = 2 +" 3) = .error (.unexpected .operand none 4) := by
    rw [Formula.parse, hbehind]
    rfl
  obtain ⟨hstatement, hformula⟩ :=
    (entryPoints_agree {} [.formula "(", .statement "y ="] "x = 2 +").1 _ _ _ htokens rfl rfl
  have hbare := (entryPoints_agree {} [.formula "(", .statement "y ="] "x").2
  refine ⟨?_, hformula, hbare fun name sign ts htext => ?_⟩
  · rw [hstatement, answer_parse, hparse]
    rfl
  · rw [hname] at htext
    cases htext

end Cursor

end Fluxion
