import Fluxion.Proofs.ErrorPosition
import Fluxion.Proofs.Session

/-!
# Names

A name is a text that is read as one token, and that token is a name: a letter and then letters,
numbers and low lines, and no keyword. Read within a longer text or on its own, it is the same, as
what stands around a token decides only how far the token goes.

As a line, a name is a formula that cannot fail. It is no command and has no blanks to trim, it is
differentiated without a rule, and if it has a value, then that is what is read.

## Main definitions

* `Lexer.IsWord`, `Lexer.IsName` — a text that is one word, and one that is one name

## Main results

* `Lexer.isName_iff`, `Lexer.isName_of_mem` — what names are, and that tokens contain them
* `Statement.parse_name` — a name is a formula
* `Workspace.run_name`, `Shell.handle_name` — the value of a name is read by typing it
-/

namespace Fluxion

namespace Lexer

open Unicode (isBlank isLetter trim trimChars)

variable {c : Char} {cs rest text : List Char} {k : Token.Kind} {s line : String} {t : Token}

/-! ### Texts that are one name -/

/-- A letter, and letters, numbers and low lines after it. -/
def IsWord (cs : List Char) : Prop :=
  ∃ c ds, cs = c :: ds ∧ isLetter c = true ∧ ∀ d ∈ ds, isWordChar d = true

/-- The text is read as one token, which is a name. -/
def IsName (s : String) : Prop := tokenize s = [⟨.name, s, 0⟩]

theorem isWordChar_of_isLetter (h : isLetter c = true) : isWordChar c = true := by
  rw [isWordChar, h]
  rfl

theorem IsWord.isWordChar (h : IsWord cs) : ∀ d ∈ cs, isWordChar d = true := by
  obtain ⟨c, ds, rfl, hc, hds⟩ := h
  exact List.forall_mem_cons.mpr ⟨isWordChar_of_isLetter hc, hds⟩

/-- A text that is cut into one token without a blank is read as this token. -/
theorem tokenize_lexeme (h : Lexeme k s.toList []) : tokenize s = [⟨k, s, 0⟩] := by
  have hcuts : Cuts 0 ([] ++ (s.toList ++ [])) [⟨k, String.ofList s.toList, 0⟩] :=
    .cons (by simp) h (.nil (by simp))
  rw [List.nil_append, List.append_nil, String.ofList_toList] at hcuts
  exact congrArg Prod.fst (tokens_of_cuts hcuts)

theorem tokenize_word (h : IsWord s.toList) : tokenize s = [⟨.ofWord s, s, 0⟩] := by
  obtain ⟨c, ds, hs, hc, hds⟩ := h
  have hlexeme : Lexeme (.ofWord (String.ofList (c :: ds))) (c :: ds) [] := .word hc hds (by simp)
  rw [← hs, String.ofList_toList] at hlexeme
  exact tokenize_lexeme hlexeme

theorem Lexeme.isWord (h : Lexeme k text rest) (hk : k = .name) : IsWord text := by
  cases h with
  | @sign c k rest hc =>
    rw [Token.Kind.ofSign?.eq_def] at hc
    split at hc <;> cases hc <;> cases hk
  | word hc hcs => exact ⟨_, _, rfl, hc, hcs⟩
  | number | malformed | other => cases hk

/-- A name within a text is one on its own. -/
theorem isName_of_mem (ht : t ∈ tokenize line) (hk : t.kind = .name) : IsName t.literal := by
  have hlexeme : Lexeme .name t.literal.toList [] := hk ▸ alone_of_mem ht
  exact tokenize_lexeme hlexeme

/-- **Names** are words that are no keywords. -/
theorem isName_iff : IsName s ↔ IsWord s.toList ∧ Token.Kind.ofWord s = .name := by
  constructor
  · intro h
    have hmem : (⟨.name, s, 0⟩ : Token) ∈ tokenize s := h ▸ List.mem_singleton.mpr rfl
    have hword : IsWord s.toList := (alone_of_mem hmem).isWord rfl
    have htokens := tokenize_word hword
    rw [h] at htokens
    refine ⟨hword, ?_⟩
    exact (congrArg Token.kind (List.cons.inj htokens).1).symm
  · rintro ⟨hword, hk⟩
    rw [IsName, tokenize_word hword, hk]

theorem IsName.isWord (h : IsName s) : IsWord s.toList := (isName_iff.mp h).1

/-! ### Names and blanks -/

theorem IsWord.trim (h : IsWord s.toList) : trim s = s := by
  have hblank : ∀ c ∈ s.toList, isBlank c = false := by
    intro c hc
    refine Bool.eq_false_iff.mpr fun hblank => ?_
    exact Bool.eq_false_iff.mp (ends_of_isBlank hblank).1 (h.isWordChar c hc)
  rw [Unicode.trim, Decimal.trimChars_eq_self hblank, String.ofList_toList]

end Lexer

open Lexer (IsName)

variable {s : String}

/-! ### Names as formulas -/

theorem Formula.parse_name (h : IsName s) : parse s = .ok (.var s) := by
  rw [parse, h]
  rfl

theorem Statement.parse_name (h : IsName s) : parse s = .ok ⟨none, .var s⟩ := by
  rw [parse, h]
  rfl

namespace Workspace

variable {α : Type} [Arithmetic α] {line : String} {w : Workspace α} {v slope : α}

/-- An expression with a value is read together with a constant. -/
theorem read_const {e : Expr α} (hcovers : w.bindings.covers e = true)
    (hvalue : w.bindings.evaluate e = .ok v) :
    w.read e (.const slope) = .ok (some ⟨v, slope⟩) := by
  rw [read, if_pos hcovers, hvalue]
  rfl

/-- A formula that has a constant derivative and a value. -/
theorem run_of_diff?_const {f : Formula} (hparse : Statement.parse line = .ok ⟨none, f⟩)
    (hdepth : (f.lower : Expr α).depth ≤ depthLimit)
    (hdiff : (f.lower : Expr α).diff? w.wrt = some (.const slope))
    (hcovers : w.bindings.covers (f.lower : Expr α) = true)
    (hvalue : w.bindings.evaluate f.lower = .ok v) :
    w.run line = .ok (⟨f.lower, w.wrt, .derived (.const slope)
      (if w.prune then some (.const slope) else none) (some ⟨v, slope⟩)⟩, w) := by
  have hderive : w.derive f.lower = .ok (.derived (.const slope)
      (if w.prune then some (.const slope) else none) (some ⟨v, slope⟩)) := by
    have hsimplify : (Expr.const slope).simplify? = some (.const slope) := by rw [Expr.simplify?]
    rw [derive_eq, hdiff]
    cases hprune : w.prune with
    | false =>
      show Outcome.derived (.const slope) none <$> w.read f.lower (.const slope) = _
      rw [read_const hcovers hvalue]
      rfl
    | true =>
      show (some <$> determinate (Expr.const slope).simplify?) >>= _ = _
      rw [hsimplify]
      show Outcome.derived (.const slope) (some (.const slope)) <$>
        w.read f.lower (.const slope) = _
      rw [read_const hcovers hvalue]
      rfl
  rw [run_eq, hparse]
  show (checkDepth f.lower >>= _) = _
  rw [checkDepth, if_neg (Nat.not_lt.mpr hdepth)]
  show (w.derive f.lower >>= _) = _
  rw [hderive]
  rfl

/-- The line is an expression which has the value, and which leaves the workspace as it is. -/
def Reads (w : Workspace α) (line : String) (v : α) : Prop :=
  ∃ step : Step α, w.run line = .ok (step, w) ∧
    ∃ derivative pruned slope, step.outcome = .derived derivative pruned (some ⟨v, slope⟩)

/-- **The value of a name** is read when the name is typed. -/
theorem run_name (h : IsName s) (hv : w.bindings[s]? = some v) :
    ∃ slope : α, w.run s = .ok (⟨.var s, w.wrt, .derived (.const slope)
      (if w.prune then some (.const slope) else none) (some ⟨v, slope⟩)⟩, w) := by
  have hcovers : w.bindings.covers (.var s : Expr α) = true := by
    rw [Bindings.covers, Expr.vars, List.all_cons, Std.TreeMap.contains_eq_isSome_getElem?, hv]
    rfl
  have hvalue : w.bindings.evaluate (.var s) = .ok v := by
    rw [Bindings.evaluate, Expr.eval, hv]
    rfl
  refine ⟨if s = w.wrt then 1 else 0, ?_⟩
  exact run_of_diff?_const (Statement.parse_name h) (show 1 ≤ depthLimit by decide)
    (by rw [Formula.lower, Expr.diff?]) hcovers hvalue

theorem reads_name (h : IsName s) (hv : w.bindings[s]? = some v) : w.Reads s v := by
  obtain ⟨slope, hrun⟩ := run_name h hv
  exact ⟨_, hrun, _, _, slope, rfl⟩

theorem Reads.eq {u : α} (h : w.Reads line v) (h' : w.Reads line u) : v = u := by
  obtain ⟨step, hrun, _, _, _, hout⟩ := h
  obtain ⟨step', hrun', _, _, _, hout'⟩ := h'
  rw [hrun] at hrun'
  cases hrun'
  rw [hout] at hout'
  cases hout'
  rfl

end Workspace

namespace Shell

variable {w : Workspace Float} {v : Float}

/-- A name is no command. -/
theorem command?_of_isWord (h : Lexer.IsWord s.toList) : command? s = none := by
  have htrim := h.trim
  obtain ⟨c, ds, hs, hc, -⟩ := h
  have hcolon : c ≠ ':' := by
    rintro rfl
    exact absurd hc (by decide)
  rw [command?, htrim, hs]
  split
  · rename_i heq
    exact absurd (List.cons.inj heq).1 hcolon
  · rfl

/-- **Typing a name that has a value** is answered with a report on this value. -/
theorem handle_name (h : IsName s) (hv : w.bindings[s]? = some v) :
    ∃ slope : Float,
      w.run s = .ok (⟨.var s, w.wrt, .derived (.const slope)
        (if w.prune then some (.const slope) else none) (some ⟨v, slope⟩)⟩, w) ∧
      handle w s = .ok (.text (Step.report ⟨.var s, w.wrt, .derived (.const slope)
        (if w.prune then some (.const slope) else none) (some ⟨v, slope⟩)⟩), w) := by
  obtain ⟨slope, hrun⟩ := Workspace.run_name h hv
  have htrim := h.isWord.trim
  have hblank : Unicode.trim s ≠ "" := by
    obtain ⟨c, ds, hs, -⟩ := h.isWord
    rw [htrim]
    rintro rfl
    cases hs
  refine ⟨slope, hrun, ?_⟩
  rw [handle_statement (command?_of_isWord h.isWord) hblank, htrim, hrun]
  rfl

end Shell

end Fluxion
