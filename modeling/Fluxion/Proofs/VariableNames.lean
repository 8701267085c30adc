import Fluxion.Proofs.Names

/-!
# Names that the shell accepts

The command `:wrt` takes the variable that derivatives are taken with respect to. What it accepts
is an identifier that starts with a letter and is no keyword. What a formula can have as a variable
is a word that is no keyword. These are two notions of a name.

## Where they part

Both ask for a letter first and for no keyword, so they part over the characters after the first
one, and over letters that do not start an identifier. The classes are those of Unicode identifiers
on one side and letters, numbers and the low line on the other. A superscript two is a number, but
it stands in no identifier; a middle dot may stand in an identifier, but not in a word. On ASCII the
classes are the same.

## Main definitions

* `Lexer.ReadAsName` — the text is read as one token, a name
* `Shell.Accepts` — the shell takes derivatives with respect to the text from now on

## Main results

* `Unicode.trimChars_eq_iff` — texts without blanks at their ends
* `Unicode.isIdentifier_ascii` — the two classes are the same on ASCII
* `Lexer.readAsName_iff` — a text without such blanks is one name
* `Shell.accepts_iff_isVariableName` — what is accepted
* `Shell.accepts_iff` — the two notions, and that they agree on ASCII
-/

namespace Fluxion

namespace Unicode

variable {p : Char → Bool} {c : Char} {cs : List Char}

theorem dropWhile_eq_self_iff : cs.dropWhile p = cs ↔ ∀ c ∈ cs.head?, p c = false := by
  cases cs with
  | nil => simp
  | cons c cs =>
    cases hc : p c with
    | false => simp [hc]
    | true =>
      rw [List.dropWhile_cons_of_pos hc]
      refine iff_of_false (fun h => ?_) (by simp [hc])
      have hle := (List.dropWhile_sublist p (l := cs)).length_le
      rw [h, List.length_cons] at hle
      omega

/-- **Texts without blanks at their ends** are those that start and end otherwise. -/
theorem trimChars_eq_iff : trimChars p cs = cs ↔
    (∀ c ∈ cs.head?, p c = false) ∧ ∀ c ∈ cs.getLast?, p c = false := by
  rw [← List.head?_reverse, ← dropWhile_eq_self_iff, ← dropWhile_eq_self_iff]
  constructor
  · intro h
    have hle := (List.dropWhile_sublist p (l := (cs.dropWhile p).reverse)).length_le
    have hlength := congrArg List.length h
    rw [trimChars, List.length_reverse] at hlength
    rw [List.length_reverse, hlength] at hle
    have hfirst : cs.dropWhile p = cs := (List.dropWhile_sublist p).eq_of_length_le hle
    rw [trimChars, hfirst] at h
    refine ⟨hfirst, ?_⟩
    rw [← List.reverse_reverse ((cs.reverse).dropWhile p), h]
  · rintro ⟨hfirst, hlast⟩
    rw [trimChars, hfirst, hlast, List.reverse_reverse]

theorem trim_eq_iff {s : String} : trim s = s ↔
    (∀ c ∈ s.toList.head?, isBlank c = false) ∧ ∀ c ∈ s.toList.getLast?, isBlank c = false := by
  rw [← trimChars_eq_iff, trim]
  exact ⟨fun h => by rw [← String.toList_ofList (l := trimChars isBlank s.toList), h],
    fun h => by rw [h, String.ofList_toList]⟩

/-- Below a bound, the ranges that start there decide on a class. -/
theorem Ranges.contains_of_lt {n m : Nat} (ranges : Ranges) (h : n < m) :
    ranges.contains n = Ranges.contains (ranges.filter fun r => r.1 < m) n := by
  rw [contains, contains, List.any_filter]
  refine congrArg (List.any ranges) (funext fun r => ?_)
  by_cases hr : r.1 < m
  · rw [decide_eq_true hr, Bool.true_and]
  · have hn : ¬r.1 ≤ n := by omega
    rw [decide_eq_false hr, decide_eq_false hn, Bool.false_and, Bool.false_and]

theorem Ranges.contains_nil (n : Nat) : Ranges.contains [] n = false := rfl

/-- The low line alone. -/
theorem Ranges.contains_line (c : Char) :
    Ranges.contains [(0x5F, 0x5F)] c.toNat = (c == '_') := by
  rw [Bool.eq_iff_iff, contains_iff, beq_iff_eq, ← Char.toNat_inj]
  refine ⟨fun ⟨r, hr, hle⟩ => ?_, fun h => ⟨_, List.mem_cons_self, h.ge, h.le⟩⟩
  obtain rfl := List.mem_singleton.mp hr
  exact Nat.le_antisymm hle.2 hle.1

/-- On ASCII, identifiers start with a letter or the low line, and are made of letters, digits and
the low line. -/
theorem isIdentifier_ascii (h : c.toNat < 128) :
    isIdentifierStart c = (isLetter c || c == '_') ∧
      isIdentifierContinue c = Lexer.isWordChar c := by
  have hletters : letterNumbers.filter (fun r => r.1 < 128) = [] := rfl
  have hexceptions : startExceptions.filter (fun r => r.1 < 128) = [] := rfl
  have hextras : startExtras.filter (fun r => r.1 < 128) = [(0x5F, 0x5F)] := rfl
  have hmarks : marks.filter (fun r => r.1 < 128) = [] := by decide
  have hdigits : decimalDigits.filter (fun r => r.1 < 128) = [(0x30, 0x39)] := rfl
  have hextras' : continueExtras.filter (fun r => r.1 < 128) = [(0x5F, 0x5F)] := rfl
  have hstart : isIdentifierStart c = (isLetter c || c == '_') := by
    rw [isIdentifierStart, letterNumbers.contains_of_lt h, startExtras.contains_of_lt h,
      startExceptions.contains_of_lt h, hletters, hexceptions, hextras, Ranges.contains_line,
      Ranges.contains_nil, Bool.or_false, Bool.not_false, Bool.and_true]
  have hdigit : Ranges.contains [(0x30, 0x39)] c.toNat = isNumber c := by
    rw [isNumber, if_pos h]
    exact Bool.or_false _
  refine ⟨hstart, ?_⟩
  rw [isIdentifierContinue, hstart, isMark, marks.contains_of_lt h, decimalDigits.contains_of_lt h,
    continueExtras.contains_of_lt h, hmarks, hdigits, hextras', Ranges.contains_line, hdigit,
    Ranges.contains_nil, Bool.or_false, Lexer.isWordChar]
  cases isLetter c <;> cases isNumber c <;> cases c == '_' <;> rfl

end Unicode

namespace Lexer

open Unicode (trim isBlank isLetter)

variable {s : String}

/-- The text is read as one token, which is a name. -/
def ReadAsName (s : String) : Prop := (tokenize s).map Token.kind = [.name]

/-- What is read as one token with no blanks around it is that token. -/
theorem readAsName_iff (htrim : trim s = s) : ReadAsName s ↔ IsName s := by
  constructor
  · intro h
    obtain ⟨t, htokens, hk⟩ := List.map_eq_singleton_iff.mp h
    obtain ⟨hhead, hlast⟩ := Unicode.trim_eq_iff.mp htrim
    have hfirst : ∃ c ∈ s.toList.head?, isBlank c = false := by
      cases hs : s.toList with
      | nil =>
        have hnone : tokenize s = [] := by
          rw [tokenize, ofText, hs]
          exact congrArg Prod.fst (tokens_of_cuts (.nil (by simp)))
        rw [hnone] at htokens
        cases htokens
      | cons c cs => exact ⟨c, rfl, hhead c (by rw [hs]; rfl)⟩
    obtain ⟨k, text, rest, ts, htext, hone, -, hrest⟩ := (cuts_tokenize s).of_head? hfirst
    rw [htokens] at hone
    obtain ⟨rfl, rfl⟩ := List.cons.inj hone
    -- what is behind the only token is blank, so there is nothing behind it
    cases hrest with
    | nil hblanks =>
      have hnone : rest = [] := by
        rcases List.eq_nil_or_concat rest with rfl | ⟨ds, d, rfl⟩
        · rfl
        · refine absurd (hblanks d (by simp)) (Bool.eq_false_iff.mp (hlast d ?_))
          rw [htext, List.concat_eq_append, ← List.append_assoc]
          exact List.getLast?_concat
      rw [hnone, List.append_nil] at htext
      rw [IsName, htokens, ← htext, String.ofList_toList]
      exact congrArg (fun k => [(⟨k, s, 0⟩ : Token)]) hk
  · intro h
    rw [ReadAsName, h]
    rfl

end Lexer

namespace Shell

open Lexer (IsName IsWord ReadAsName isWordChar)
open Unicode (trim isLetter isIdentifier isIdentifierStart isIdentifierContinue)

variable {w : Workspace Float} {s : String}

/-- The command `:wrt` accepts the text: derivatives are taken with respect to it from now on. -/
def Accepts (w : Workspace Float) (s : String) : Prop :=
  handle w (":wrt " ++ s) =
    .ok (.text ("differentiating with respect to " ++ s), { w with wrt := s })

theorem command?_wrt (htrim : trim s = s) : command? (":wrt " ++ s) = some ("wrt", s) := by
  rcases List.eq_nil_or_concat s.toList with hs | ⟨ds, d, hs⟩
  · obtain rfl : s = "" := String.toList_inj.mp hs
    rfl
  · have hline : (":wrt " ++ s).toList = ':' :: 'w' :: 'r' :: 't' :: ' ' :: s.toList := by
      rw [String.toList_append]
      rfl
    have htrim' : trim (":wrt " ++ s) = ":wrt " ++ s := by
      refine Unicode.trim_eq_iff.mpr ⟨?_, ?_⟩
      · rw [hline]
        rintro c hc
        obtain rfl := Option.some.inj hc
        decide
      · have hlast := (Unicode.trim_eq_iff.mp htrim).2
        rw [hs, List.concat_eq_append, List.getLast?_concat] at hlast
        rwa [String.toList_append, hs, List.concat_eq_append, ← List.append_assoc,
          List.getLast?_concat]
    rw [command?, htrim', hline]
    show some (_, trim (String.ofList s.toList)) = _
    rw [String.ofList_toList, htrim]
    rfl

/-- What is accepted, and the answer to anything else. -/
theorem accepts_iff_isVariableName (w : Workspace Float) (htrim : trim s = s) :
    (Accepts w s ↔ isVariableName s = true) ∧
      (isVariableName s = false →
        handle w (":wrt " ++ s) = .ok (.text "error: usage :wrt NAME", w)) := by
  have hhandle : handle w (":wrt " ++ s) = w.outcome (obey s .wrt) :=
    handle_named (command?_wrt htrim) (List.mem_singleton.mpr rfl)
  cases h : isVariableName s with
  | true =>
    rw [obey, h] at hhandle
    exact ⟨iff_of_true hhandle rfl, fun hfalse => absurd hfalse.symm Bool.false_ne_true⟩
  | false =>
    rw [obey, h] at hhandle
    refine ⟨iff_of_false (fun haccepts => ?_) Bool.false_ne_true, fun _ => hhandle⟩
    rw [Accepts, hhandle] at haccepts
    have htext := congrArg String.toList (Reply.text.inj (Prod.mk.inj (Except.ok.inj haccepts)).1)
    rw [String.toList_append] at htext
    have hfirst : some 'e' = some 'd' := congrArg List.head? htext
    exact absurd (Option.some.inj hfirst) (by decide)

theorem isVariableName_iff : isVariableName s = true ↔
    (∃ c ∈ s.toList.head?, isLetter c = true) ∧ isIdentifier s = true ∧
      Token.Kind.ofWord s = .name := by
  rw [isVariableName, Bool.and_eq_true, Bool.and_eq_true, Option.any_eq_true, beq_iff_eq, and_assoc]
  rfl

/-- A text is a name when it starts with a letter and all of it belongs to one word. -/
theorem readAsName_iff_forall (htrim : trim s = s) : ReadAsName s ↔
    (∃ c ∈ s.toList.head?, isLetter c = true) ∧ (∀ c ∈ s.toList, isWordChar c = true) ∧
      Token.Kind.ofWord s = .name := by
  rw [Lexer.readAsName_iff htrim, Lexer.isName_iff, ← and_assoc]
  refine and_congr_left fun _ => ⟨fun hword => ⟨?_, hword.isWordChar⟩, ?_⟩
  · obtain ⟨c, ds, hs, hc, -⟩ := hword
    exact ⟨c, by rw [hs]; rfl, hc⟩
  · rintro ⟨⟨c, hhead, hc⟩, hall⟩
    obtain ⟨ds, hs⟩ := List.head?_eq_some_iff.mp hhead
    exact ⟨c, ds, hs, hc, fun d hd => hall d (by rw [hs]; exact .tail _ hd)⟩

/-- Where the classes of characters are the same, so are identifiers and words. -/
theorem isIdentifier_iff_forall (hstart : ∃ c ∈ s.toList.head?, isLetter c = true)
    (hfirst : ∀ c ∈ s.toList.head?, isLetter c = true → isIdentifierStart c = true)
    (hrest : ∀ c ∈ s.toList.tail, isIdentifierContinue c = isWordChar c) :
    isIdentifier s = true ↔ ∀ c ∈ s.toList, isWordChar c = true := by
  obtain ⟨c, hhead, hc⟩ := hstart
  obtain ⟨cs, hs⟩ := List.head?_eq_some_iff.mp hhead
  rw [hs] at hfirst hrest ⊢
  rw [isIdentifier, hs, List.forall_mem_cons]
  dsimp only
  rw [Bool.and_eq_true, List.all_eq_true]
  refine and_congr (iff_of_true (hfirst c rfl hc) (Lexer.isWordChar_of_isLetter hc)) ?_
  exact forall₂_congr fun d hd => by rw [hrest d hd]

/-- **The two notions of a name.** For a text without blanks around it, the shell accepts it when
it starts with a letter, is an identifier and is no keyword; otherwise the answer says how to use
the command, and the workspace stays as it is. A formula can have it as a variable when it starts
with a letter, goes on with letters, numbers and low lines, and is no keyword. The two agree when
the first character may start an identifier if it is a letter, and each of the others belongs to
both classes or to none. For all of ASCII that is so. -/
theorem accepts_iff (w : Workspace Float) (htrim : trim s = s) :
    ((Accepts w s ↔ (∃ c ∈ s.toList.head?, isLetter c = true) ∧ isIdentifier s = true ∧
        Token.Kind.ofWord s = .name) ∧
      (¬Accepts w s → handle w (":wrt " ++ s) = .ok (.text "error: usage :wrt NAME", w))) ∧
    ((ReadAsName s ↔ (∃ c ∈ s.toList.head?, isLetter c = true) ∧
        (∀ c ∈ s.toList, isWordChar c = true) ∧ Token.Kind.ofWord s = .name) ∧
      (ReadAsName s → Formula.parse s = .ok (.var s))) ∧
    ((∀ c ∈ s.toList.head?, isLetter c = true → isIdentifierStart c = true) →
      (∀ c ∈ s.toList.tail, isIdentifierContinue c = isWordChar c) →
      (Accepts w s ↔ ReadAsName s)) ∧
    ((∀ c ∈ s.toList, c.toNat < 128) → (Accepts w s ↔ ReadAsName s)) := by
  obtain ⟨haccepts, hrejects⟩ := accepts_iff_isVariableName w htrim
  have hagree (hfirst : ∀ c ∈ s.toList.head?, isLetter c = true → isIdentifierStart c = true)
      (hrest : ∀ c ∈ s.toList.tail, isIdentifierContinue c = isWordChar c) :
      Accepts w s ↔ ReadAsName s := by
    rw [haccepts, isVariableName_iff, readAsName_iff_forall htrim]
    exact and_congr_right fun hstart =>
      and_congr_left fun _ => isIdentifier_iff_forall hstart hfirst hrest
  refine ⟨⟨haccepts.trans isVariableName_iff, fun hnot => hrejects ?_⟩,
    ⟨readAsName_iff_forall htrim, fun h => Formula.parse_name ((Lexer.readAsName_iff htrim).mp h)⟩,
    hagree, fun hascii => hagree ?_ ?_⟩
  · exact Bool.eq_false_iff.mpr fun h => hnot (haccepts.mpr h)
  · intro c hc hletter
    rw [(Unicode.isIdentifier_ascii (hascii c (List.mem_of_mem_head? hc))).1, hletter]
    rfl
  · exact fun c hc => (Unicode.isIdentifier_ascii (hascii c (List.mem_of_mem_tail hc))).2

/-- A name of ASCII characters that is accepted and read. -/
theorem accepts_iff_theta : trim "theta_1" = "theta_1" ∧ Accepts {} "theta_1" ∧
    Formula.parse "theta_1" = .ok (.var "theta_1") := by
  have hrest : ∀ c ∈ "heta_1".toList, isWordChar c = true := List.all_eq_true.mp (by decide)
  have hall : ∀ c ∈ "theta_1".toList, decide (c.toNat < 128) = true :=
    List.all_eq_true.mp (by decide)
  have hname : Lexer.IsName "theta_1" :=
    Lexer.isName_iff.mpr ⟨⟨'t', "heta_1".toList, rfl, by decide, hrest⟩, by decide⟩
  have htrim : trim "theta_1" = "theta_1" := hname.isWord.trim
  have hread : ReadAsName "theta_1" := (Lexer.readAsName_iff htrim).mpr hname
  obtain ⟨-, ⟨-, hparse⟩, -, hascii⟩ := accepts_iff {} htrim
  exact ⟨htrim, (hascii fun c hc => of_decide_eq_true (hall c hc)).mpr hread, hparse hread⟩

/-- A name with a superscript is refused, and a text with a middle dot is accepted though it is not
read as a name: neither notion is part of the other. -/
theorem not_accepts_iff_readAsName :
    (trim "x²" = "x²" ∧ ReadAsName "x²" ∧ ¬Accepts {} "x²") ∧
      trim "x·" = "x·" ∧ ¬ReadAsName "x·" ∧ Accepts {} "x·" := by
  have htrim : trim "x²" = "x²" ∧ trim "x·" = "x·" := by decide +kernel
  have hread : (Lexer.tokenize "x²").map Token.kind = [.name] ∧
      (Lexer.tokenize "x·").map Token.kind ≠ [.name] := by
    decide +kernel
  have hvariable : isVariableName "x²" = false ∧ isVariableName "x·" = true := by decide +kernel
  refine ⟨⟨htrim.1, hread.1, fun haccepts => ?_⟩, htrim.2, hread.2, ?_⟩
  · rw [(accepts_iff_isVariableName {} htrim.1).1, hvariable.1] at haccepts
    cases haccepts
  · exact (accepts_iff_isVariableName {} htrim.2).1.mpr hvariable.2

end Shell

end Fluxion
