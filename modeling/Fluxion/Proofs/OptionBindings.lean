import Fluxion.CommandLine
import Fluxion.Proofs.Substitution
import Fluxion.Proofs.VariableNames

/-!
# Values that are given on the command line

An option `--at NAME=VALUE` gives a value to a name before any expression is read. The name has to
be an identifier, and that is all that is asked of it. So the option takes identifiers that no
formula has as a variable: the word that is the base of the natural logarithm, the words for
functions, and identifiers with characters that are in no word. A value that is given to one of
these is kept, and nothing can read it.

## Three kinds of identifiers

* A name in the sense of formulas reads the value that was given to it last.
* The word `e` reads as the base of the natural logarithm, whatever was given to it.
* Any other identifier is no formula. It is a word for a function without an argument, or else one
  of its characters is in no token of a formula, and this character is met first or right behind a
  word. So it is an illegal token, and illegal tokens are in no derivation.

## Main definitions

* `Arguments.bindingTexts` — the values for names on a command line, as they are written
* `Arguments.Adds` — the values for names that were read from some texts

## Main results

* `Argument.ofText_shortened` — an option is known by the beginning of its name
* `Arguments.adds_consume`, `Arguments.bindings_of_parse` — the values for names are read in order
* `Bindings.getElem?_ofList_iff` — of two values for a name the later one holds
* `Lexer.isWord_of_isIdentifier` — an identifier is a word, or has an illegal token
* `Arguments.run_binding` — what is read of a value that is given on the command line
-/

namespace Fluxion

/-- What is made of a list by a function that can fail is made of one of its elements. -/
theorem exists_of_mapM {ε β γ : Type} {f : β → Except ε γ} {bs : List β} {cs : List γ}
    (h : bs.mapM f = .ok cs) : ∀ c ∈ cs, ∃ b ∈ bs, f b = .ok c := by
  induction bs generalizing cs with
  | nil =>
    obtain rfl := Except.ok.inj h
    simp
  | cons b bs ih =>
    rw [List.mapM_cons] at h
    obtain ⟨c, hc, h⟩ := ok_of_bind h
    obtain ⟨cs', hcs, h⟩ := ok_of_bind h
    obtain rfl := Except.ok.inj h
    refine List.forall_mem_cons.mpr ⟨⟨b, List.mem_cons_self, hc⟩, fun c' hc' => ?_⟩
    obtain ⟨b', hb', hf⟩ := ih hcs c' hc'
    exact ⟨b', List.mem_cons_of_mem b hb', hf⟩

/-! ### The options of a command line -/

/-- The name of an option may be shortened, as long as a letter of it is left. -/
theorem Flag.startingWith_take (flag : Flag) {n : Nat} (hn : 3 ≤ n) :
    startingWith (String.ofList (flag.name.toList.take n)) = [flag] := by
  have hshort : ∀ flag ∈ all, ∀ m ≤ 11, 3 ≤ m →
      startingWith (String.ofList (flag.name.toList.take m)) = [flag] := by
    decide +kernel
  have hall : flag ∈ all ∧ flag.name.toList.length ≤ 11 := by
    cases flag <;> decide
  rcases Nat.le_total n 11 with h | h
  · exact hshort flag hall.1 n h hn
  · rw [List.take_of_length_le (Nat.le_trans hall.2 h), ← List.take_of_length_le hall.2]
    exact hshort flag hall.1 11 (Nat.le_refl 11) (by decide)

theorem Argument.splitAtEquals_ofList {name value : List Char} (h : '=' ∉ name) :
    splitAtEquals (String.ofList (name ++ '=' :: value)) =
      (String.ofList name, some (String.ofList value)) := by
  have hname : ∀ c ∈ name, (c != '=') = true := fun c hc =>
    bne_iff_ne.mpr fun heq => h (heq ▸ hc)
  rw [splitAtEquals, String.toList_ofList, List.takeWhile_append_of_pos hname,
    List.dropWhile_append_of_pos hname]
  rw [List.takeWhile_cons_of_neg (by decide), List.dropWhile_cons_of_neg (by decide),
    List.append_nil]

/-- **An option with its name shortened** and a value behind an equals sign is that option. -/
theorem Argument.ofText_shortened (flag : Flag) {n : Nat} (hn : 3 ≤ n) (value : String) :
    ofText (String.ofList (flag.name.toList.take n ++ '=' :: value.toList)) =
      .option flag (some value) := by
  have hequals : '=' ∉ flag.name.toList.take n := fun h => by
    have hname : '=' ∉ flag.name.toList := by cases flag <;> decide
    exact hname (List.mem_of_mem_take h)
  obtain ⟨cs, hcs⟩ : ∃ cs, flag.name.toList.take n = '-' :: '-' :: cs := by
    obtain ⟨m, rfl⟩ := Nat.exists_eq_add_of_le' hn
    cases flag <;> exact ⟨_, rfl⟩
  have hsplit : splitAtEquals (String.ofList (flag.name.toList.take n ++ '=' :: value.toList)) =
      (String.ofList (flag.name.toList.take n), some value) := by
    rw [splitAtEquals_ofList hequals, String.ofList_toList]
  rw [ofText, String.toList_ofList, hsplit]
  dsimp only
  rw [Flag.startingWith_take flag hn, hcs]
  rfl

/-- The text of a value for a name, if an option gives one. -/
def Flag.bindingText (value : String) : Flag → List String
  | binding => [value]
  | _ => []

namespace Arguments

/-- The texts of all values for names on a command line, in order. -/
def bindingTexts : List String → List String
  | [] => []
  | s :: rest =>
    if s = "--" then []
    else match Argument.ofText s with
      | .option flag (some value) => flag.bindingText value ++ bindingTexts rest
      | .option flag none =>
        if flag.takesValue then
          match rest with
          | value :: rest => flag.bindingText value ++ bindingTexts rest
          | [] => []
        else bindingTexts rest
      | .ambiguous | .unknown | .plain => bindingTexts rest

theorem bindingTexts_stop (rest : List String) : bindingTexts ("--" :: rest) = [] :=
  if_pos (show "--" = "--" from rfl)

variable {a a' : Arguments} {flag : Flag} {value : String} {arguments texts : List String}

/-- The arguments have, in addition, the values that the texts are read as. -/
def Adds (texts : List String) (a a' : Arguments) : Prop :=
  ∃ bindings, texts.mapM Argument.readBinding = .ok bindings ∧
    a'.bindings = a.bindings ++ bindings

theorem adds_nil (h : a'.bindings = a.bindings) : Adds [] a a' :=
  ⟨[], rfl, h.trans (List.append_nil _).symm⟩

theorem Adds.append {texts texts' : List String} {a'' : Arguments} (h : Adds texts a a')
    (h' : Adds texts' a' a'') : Adds (texts ++ texts') a a'' := by
  obtain ⟨bindings, hread, hadds⟩ := h
  obtain ⟨bindings', hread', hadds'⟩ := h'
  refine ⟨bindings ++ bindings', ?_, by rw [hadds', hadds, List.append_assoc]⟩
  rw [List.mapM_append, hread, hread']
  rfl

theorem adds_setValue (h : a.setValue flag value = .ok a') :
    Adds (flag.bindingText value) a a' := by
  cases flag with
  | wrt | logLevel =>
    obtain rfl := Except.ok.inj h
    exact adds_nil rfl
  | help | noPrune | dot => cases h
  | binding =>
    dsimp only [setValue] at h
    split at h
    · rename_i b hread
      obtain rfl := Except.ok.inj h
      refine ⟨[b], ?_, rfl⟩
      rw [Flag.bindingText, List.mapM_cons, hread]
      rfl
    · cases h

theorem bindings_of_switchOn (h : a.switchOn flag = .ok a') : a'.bindings = a.bindings := by
  cases flag with
  | help => cases h
  | noPrune | dot | wrt | binding | logLevel =>
    obtain rfl := Except.ok.inj h
    rfl

theorem bindings_takePlain (a : Arguments) (rest : List String) :
    (a.takePlain rest).1.bindings = a.bindings := by
  rw [takePlain.eq_def]
  split <;> rfl

/-- **Options are read from the left**, and each value for a name is added behind those before. -/
theorem adds_consume {surplus surplus' : List String}
    (h : consume a surplus arguments = .ok (a', surplus')) :
    Adds (bindingTexts arguments) a a' := by
  fun_induction consume a surplus arguments with
  | case1 a surplus =>
    cases h
    exact adds_nil rfl
  | case2 a surplus rest a₁ more hplain =>
    cases h
    rw [bindingTexts_stop]
    exact adds_nil (by rw [← bindings_takePlain a rest, hplain])
  | case3 => cases h
  | case4 a surplus s rest hs hlooks ih =>
    rw [bindingTexts, if_neg hs, hlooks]
    exact ih h
  | case5 a surplus s hs hlooks expression rest hexpression ih =>
    rw [bindingTexts, if_neg hs, hlooks]
    exact ih h
  | case6 a surplus s hs hlooks rest hexpression =>
    cases h
    rw [bindingTexts, if_neg hs, hlooks]
    dsimp only
    rw [bindingTexts_stop]
    exact adds_nil rfl
  | case7 a surplus s hs hlooks rest hrest hexpression ih =>
    rw [bindingTexts, if_neg hs, hlooks]
    exact ih h
  | case8 a surplus s rest hs flag value hlooks ih =>
    obtain ⟨a₁, hset, hrest⟩ := ok_of_bind h
    rw [bindingTexts, if_neg hs, hlooks]
    exact (adds_setValue hset).append (ih a₁ hrest)
  | case9 a surplus s hs flag hlooks htakes value rest hvalue ih =>
    obtain ⟨a₁, hset, hrest⟩ := ok_of_bind h
    rw [bindingTexts, if_neg hs, hlooks]
    dsimp only
    rw [if_pos htakes]
    exact (adds_setValue hset).append (ih a₁ hrest)
  | case10 | case11 => cases h
  | case12 a surplus s rest hs flag hlooks htakes ih =>
    obtain ⟨a₁, hset, hrest⟩ := ok_of_bind h
    rw [bindingTexts, if_neg hs, hlooks]
    dsimp only
    rw [if_neg htakes]
    obtain ⟨bindings, hread, hadds⟩ := ih a₁ hrest
    exact ⟨bindings, hread, bindings_of_switchOn hset ▸ hadds⟩

/-- Accepted arguments leave none that belongs nowhere. -/
theorem consume_of_parse (h : parse arguments = .ok a) :
    consume {} [] arguments = .ok (a, []) := by
  rw [parse] at h
  cases hambiguous : ambiguous? arguments with
  | some s =>
    rw [hambiguous] at h
    cases h
  | none =>
    rw [hambiguous] at h
    obtain ⟨⟨a₁, surplus⟩, hconsume, hsurplus⟩ := ok_of_bind h
    dsimp only at hsurplus
    split at hsurplus
    · rename_i hempty
      rw [hconsume, Except.ok.inj hsurplus, List.isEmpty_iff.mp hempty]
    · cases hsurplus

/-- **All values for names** on a command line are read, in order. -/
theorem bindings_of_parse (h : parse arguments = .ok a) :
    (bindingTexts arguments).mapM Argument.readBinding = .ok a.bindings := by
  obtain ⟨bindings, hread, hadds⟩ := adds_consume (consume_of_parse h)
  rw [hread, hadds]
  rfl

end Arguments

/-- A value for a name is given to an identifier. -/
theorem Argument.isIdentifier_of_readBinding {text name : String} {x : Float}
    (h : readBinding text = .ok (name, x)) : Unicode.isIdentifier name = true := by
  rw [readBinding] at h
  dsimp only at h
  split at h
  · cases h
  · split at h
    · rename_i hname
      split at h
      · obtain ⟨rfl, -⟩ := Prod.mk.inj (Except.ok.inj h)
        exact hname
      · cases h
    · cases h

/-! ### Which value holds -/

namespace Bindings

variable {β : Type} {l : List (String × β)} {b : String × β} {name : String} {v : β}

/-- The value is given to the name, and none after it. -/
def LastIn (l : List (String × β)) (name : String) (v : β) : Prop :=
  ∃ before behind, l = before ++ (name, v) :: behind ∧ ∀ b ∈ behind, b.1 ≠ name

theorem lastIn_concat :
    LastIn (l ++ [b]) name v ↔ b = (name, v) ∨ b.1 ≠ name ∧ LastIn l name v := by
  constructor
  · rintro ⟨before, behind, hl, hbehind⟩
    rcases List.eq_nil_or_concat behind with rfl | ⟨behind, last, rfl⟩
    · exact .inl (List.cons.inj (List.append_inj' hl rfl).2).1
    · rw [List.concat_eq_append] at hl hbehind
      rw [← List.cons_append, ← List.append_assoc] at hl
      obtain ⟨rfl, hlast⟩ := List.append_inj' hl rfl
      obtain rfl := (List.cons.inj hlast).1
      refine .inr ⟨hbehind b (by simp), before, behind, rfl, fun b' hb' => ?_⟩
      exact hbehind b' (List.mem_append_left _ hb')
  · rintro (rfl | ⟨hb, before, behind, rfl, hbehind⟩)
    · exact ⟨l, [], rfl, by simp⟩
    · refine ⟨before, behind ++ [b], by simp, fun b' hb' => ?_⟩
      rcases List.mem_append.mp hb' with hb' | hb'
      · exact hbehind b' hb'
      · rwa [List.mem_singleton.mp hb']

/-- **Of two values for a name the later one holds**, by induction on the values from the last one
on. -/
theorem getElem?_ofList_iff :
    (Std.TreeMap.ofList l : Bindings β)[name]? = some v ↔ LastIn l name v := by
  induction l using List.reverseRecOn with
  | nil =>
    refine iff_of_false ?_ ?_
    · rw [Std.TreeMap.ofList_nil, Std.TreeMap.getElem?_emptyc]
      nofun
    · rintro ⟨before, behind, hl, -⟩
      exact List.append_ne_nil_of_right_ne_nil before (List.cons_ne_nil _ behind) hl.symm
  | append_singleton l b ih =>
    obtain ⟨name', v'⟩ := b
    have hinsert : (Std.TreeMap.ofList (l ++ [(name', v')]) : Bindings β) =
        (Std.TreeMap.ofList l : Bindings β).insert name' v' := by
      rw [Std.TreeMap.ofList_eq_insertMany_empty, Std.TreeMap.insertMany_append,
        Std.TreeMap.insertMany_list_singleton, ← Std.TreeMap.ofList_eq_insertMany_empty]
    rw [hinsert, lastIn_concat, Std.TreeMap.getElem?_insert, ← ih]
    by_cases hname : name' = name
    · rw [if_pos (Std.LawfulEqOrd.compare_eq_iff_eq.mpr hname)]
      simp [hname]
    · rw [if_neg fun h => hname (Std.LawfulEqOrd.eq_of_compare h)]
      simp [hname]

end Bindings

/-! ### Identifiers and words -/

namespace Unicode

variable {c : Char}

theorem isIdentifierContinue_of_start (h : isIdentifierStart c = true) :
    isIdentifierContinue c = true := by
  rw [isIdentifierContinue, h]
  rfl

/-- No blank stands in an identifier. -/
theorem isBlank_of_isIdentifierContinue (h : isIdentifierContinue c = true) :
    isBlank c = false := by
  refine Bool.eq_false_iff.mpr fun hblank => ?_
  have hapart : ∀ ranges ∈ [letterNumbers, startExtras, marks, decimalDigits, continueExtras],
      ∀ r ∈ blanks, ∀ r' ∈ ranges, r.2 < r'.1 ∨ r'.2 < r.1 := by
    decide +kernel
  have hclass (ranges : Ranges)
      (hranges : ranges ∈ [letterNumbers, startExtras, marks, decimalDigits, continueExtras]) :
      ranges.contains c.toNat = false :=
    Ranges.contains_eq_false (hapart ranges hranges) hblank
  rw [isIdentifierContinue, isIdentifierStart, isMark, isLetter_of_isBlank hblank,
    hclass letterNumbers (by simp), hclass startExtras (by simp), hclass marks (by simp),
    hclass decimalDigits (by simp), hclass continueExtras (by simp)] at h
  cases h

/-- No sign stands in an identifier. -/
theorem ofSign?_of_isIdentifierContinue (h : isIdentifierContinue c = true) :
    Token.Kind.ofSign? c = none := by
  rw [Token.Kind.ofSign?.eq_def]
  split
  case h_9 => rfl
  all_goals
    rw [(isIdentifier_ascii (by decide)).2] at h
    exact absurd h (by decide)

end Unicode

namespace Lexer

open Unicode (isBlank isLetter isIdentifier isIdentifierStart isIdentifierContinue)

variable {c : Char} {text rest : List Char} {k : Token.Kind} {n : Nat} {ts : List Token}
  {s : String}

/-- A character of a number starts no identifier, and if it stands in one it belongs to words. -/
theorem isIdentifier_of_isNumeralChar (h : isNumeralChar c = true) :
    isIdentifierStart c = false ∧ (isIdentifierContinue c = true → isWordChar c = true) := by
  have hascii : c.toNat < 128 := by
    rcases Bool.or_eq_true_iff.mp h with hdigit | hpoint
    · have hle : 48 ≤ c.toNat ∧ c.toNat ≤ 57 := by
        simpa [Char.isDigit, UInt32.le_iff_toNat_le] using hdigit
      omega
    · rw [beq_iff_eq.mp hpoint]
      decide
  have hline : (c == '_') = false := by
    refine beq_eq_false_iff_ne.mpr ?_
    rintro rfl
    exact absurd h (by decide)
  obtain ⟨hstart, hcontinue⟩ := Unicode.isIdentifier_ascii hascii
  rw [hstart, (starts_numeral h).2.1, hline, hcontinue]
  exact ⟨rfl, id⟩

/-- A token within an identifier is illegal, or it starts like a word. -/
theorem Lexeme.isWordChar_head? (h : Lexeme k text rest)
    (htext : ∀ c ∈ text, isIdentifierContinue c = true) (hk : k ≠ .illegal) :
    ∀ c ∈ text.head?, isWordChar c = true := by
  intro c hc
  have hmem : c ∈ text := List.mem_of_mem_head? hc
  cases h with
  | sign hsign =>
    obtain rfl := Option.some.inj hc
    rw [Unicode.ofSign?_of_isIdentifierContinue (htext _ hmem)] at hsign
    cases hsign
  | word hletter => exact Option.some.inj hc ▸ isWordChar_of_isLetter hletter
  | number _ hcs => exact (isIdentifier_of_isNumeralChar (hcs c hmem)).2 (htext c hmem)
  | malformed | other => exact absurd rfl hk

/-- The first token of an identifier, and of what is left of one, has no blanks in front. -/
theorem Cuts.of_isIdentifierContinue {cs : List Char} (h : Cuts n cs ts)
    (hcs : ∀ c ∈ cs, isIdentifierContinue c = true) (hne : cs ≠ []) :
    ∃ k text rest ts', cs = text ++ rest ∧ ts = ⟨k, String.ofList text, n⟩ :: ts' ∧
      Lexeme k text rest ∧ Cuts (n + text.length) rest ts' := by
  obtain ⟨c, cs, rfl⟩ := List.exists_cons_of_ne_nil hne
  exact h.of_head? ⟨c, rfl, Unicode.isBlank_of_isIdentifierContinue (hcs c List.mem_cons_self)⟩

/-- **An identifier is a word, or it has an illegal token**: the first one, or the one right behind
a word. -/
theorem isWord_of_isIdentifier (h : isIdentifier s = true)
    (hlegal : ∀ t ∈ tokenize s, t.kind ≠ .illegal) : IsWord s.toList := by
  have hcuts := cuts_tokenize s
  rw [isIdentifier] at h
  split at h
  · cases h
  · rename_i c cs hs
    obtain ⟨hstart, hcs⟩ := Bool.and_eq_true_iff.mp h
    have hall : ∀ d ∈ s.toList, isIdentifierContinue d = true := by
      rw [hs]
      exact List.forall_mem_cons.mpr
        ⟨Unicode.isIdentifierContinue_of_start hstart, List.all_eq_true.mp hcs⟩
    obtain ⟨k, text, rest, ts, htext, htokens, hlexeme, hrest⟩ :=
      hcuts.of_isIdentifierContinue hall (by simp [hs])
    rw [htokens] at hlegal
    obtain ⟨hk, hlater⟩ := List.forall_mem_cons.mp hlegal
    have hfirst : text.head? = some c := by
      obtain ⟨d, ds, rfl⟩ := List.exists_cons_of_ne_nil hlexeme.ne_nil
      rw [hs] at htext
      rw [(List.cons.inj htext).1]
      rfl
    cases hlexeme with
    | sign hsign =>
      obtain rfl := Option.some.inj hfirst
      rw [Unicode.ofSign?_of_isIdentifierContinue
        (Unicode.isIdentifierContinue_of_start hstart)] at hsign
      cases hsign
    | @word d ds rest hd hds hend =>
      by_cases hne : rest = []
      · exact ⟨d, ds, by rw [htext, hne, List.append_nil], hd, hds⟩
      · have hmore : ∀ d ∈ rest, isIdentifierContinue d = true := fun d hd =>
          hall d (htext ▸ List.mem_append_right _ hd)
        obtain ⟨k', text', rest', ts', rfl, rfl, hlexeme', -⟩ :=
          hrest.of_isIdentifierContinue hmore hne
        -- what is right behind a word does not start like one
        obtain ⟨d', ds', rfl⟩ := List.exists_cons_of_ne_nil hlexeme'.ne_nil
        have hword := hlexeme'.isWordChar_head? (fun d hd => hmore d (List.mem_append_left _ hd))
          (List.forall_mem_cons.mp hlater).1 d' rfl
        rw [hend d' rfl] at hword
        cases hword
    | number _ hnumeral =>
      have hc := (isIdentifier_of_isNumeralChar (hnumeral c (List.mem_of_mem_head? hfirst))).1
      rw [hstart] at hc
      cases hc
    | malformed | other => exact absurd rfl hk

end Lexer

/-! ### Identifiers that are no formulas -/

/-- A token that is no formula's is left when a name is split off, unless it is the sign behind
the name. -/
theorem Statement.mem_splitName {t : Token} {ts : List Token} (ht : t ∈ ts)
    (hk : t.kind = .illegal) : t ∈ (splitName ts).2 := by
  rw [splitName.eq_def]
  split
  · rcases List.mem_cons.mp ht with rfl | ht
    · cases hk
    · rcases List.mem_cons.mp ht with rfl | ht
      · cases hk
      · exact ht
  · exact ht

/-- A text with an illegal token is no statement. -/
theorem Statement.error_of_illegal {t : Token} {line : String} (ht : t ∈ Lexer.tokenize line)
    (hk : t.kind = .illegal) : ∃ err, parse line = .error err := by
  cases hparse : parse line with
  | error err => exact ⟨err, rfl⟩
  | ok statement =>
    obtain ⟨ts, hsplit, hcomplete⟩ := complete_of_parse hparse
    have hmem := mem_splitName ht hk
    rw [hsplit] at hmem
    have hanswers := Formula.answers_complete Formula.nestingLimit ts
    rw [hcomplete] at hanswers
    obtain ⟨d, hd, -⟩ := hanswers
    have hforeign := d.isForeign_of_mem t.written (hd ▸ List.mem_map_of_mem hmem)
    rw [Token.written, hk] at hforeign
    cases hforeign

theorem Token.Kind.ofWord_cases (s : String) :
    s = "e" ∨ (∃ g, ofWord s = .apply g) ∨ ofWord s = .name := by
  rw [ofWord]
  split
  · exact .inl ‹_›
  · split
    · exact .inr (.inl ⟨_, rfl⟩)
    · exact .inr (.inr rfl)

/-- **Identifiers as statements**: a variable, the base of the natural logarithm, or nothing. -/
theorem Statement.parse_identifier {s : String} (h : Unicode.isIdentifier s = true) :
    Lexer.IsName s ∨ s = "e" ∨ ∃ err, parse s = .error err := by
  by_cases hlegal : ∀ t ∈ Lexer.tokenize s, t.kind ≠ .illegal
  · have hword := Lexer.isWord_of_isIdentifier h hlegal
    rcases Token.Kind.ofWord_cases s with he | ⟨g, hg⟩ | hname
    · exact .inr (.inl he)
    · have htokens := Lexer.tokenize_word hword
      rw [hg] at htokens
      refine .inr (.inr ?_)
      rw [parse, htokens]
      exact ⟨_, rfl⟩
    · exact .inl (Lexer.isName_iff.mpr ⟨hword, hname⟩)
  · simp only [not_forall, not_not] at hlegal
    obtain ⟨t, ht, hk⟩ := hlegal
    exact .inr (.inr (error_of_illegal ht hk))

/-! ### Values from the command line -/

namespace Workspace

variable {α : Type} [Arithmetic α] {w : Workspace α}

/-- The base of the natural logarithm is read as such, whatever has a value. -/
theorem reads_euler (w : Workspace α) : w.Reads "e" Coefficient.euler := by
  have hparse : Statement.parse "e" = .ok ⟨none, .euler⟩ := by
    have hword : Lexer.IsWord "e".toList := ⟨'e', [], rfl, by decide, by simp⟩
    rw [Statement.parse, Lexer.tokenize_word hword]
    rfl
  exact ⟨_, run_of_diff?_const hparse (show 1 ≤ depthLimit by decide)
    (by rw [Formula.lower, Expr.diff?]) rfl rfl, _, _, _, rfl⟩

theorem run_of_parse_error {line : String} {err : ParseError}
    (h : Statement.parse line = .error err) : w.run line = .error (.parse err) := by
  rw [run_eq, h]
  rfl

end Workspace

namespace Arguments

variable {a : Arguments} {arguments : List String} {name : String} {value : Float}

/-- **Values from the command line.** Let the arguments of a command line be accepted, and let a
name have a value in the workspace that they ask for. This is the value that was given to it last,
of all that are given on the command line. As an expression the name has this value if it is a
name in formulas as well: a letter, then letters, numbers and low lines, and no keyword. If it is
the word for the base of the natural logarithm, then it has the value of that. Otherwise it is no
expression. -/
theorem run_binding (h : parse arguments = .ok a) (settings : Settings)
    (hname : name ∈ (a.workspace settings).bindings) :
    (bindingTexts arguments).mapM Argument.readBinding = .ok a.bindings ∧
      ∃ value, (Bindings.LastIn a.bindings name value ∧
          ∀ v, Bindings.LastIn a.bindings name v → v = value) ∧
        (Lexer.IsName name ∧ (a.workspace settings).Reads name value ∨
          name = "e" ∧ (a.workspace settings).Reads name Coefficient.euler ∨
          ¬Lexer.IsName name ∧
            ∃ err, (a.workspace settings).run name = .error (.parse err)) := by
  obtain ⟨value, hvalue⟩ :=
    Option.isSome_iff_exists.mp (Std.TreeMap.isSome_getElem?_iff_mem.mpr hname)
  have hlast : Bindings.LastIn a.bindings name value := Bindings.getElem?_ofList_iff.mp hvalue
  have hidentifier : Unicode.isIdentifier name = true := by
    obtain ⟨before, behind, hbindings, -⟩ := hlast
    have hmem : (name, value) ∈ a.bindings := hbindings ▸ List.mem_append_cons_self
    obtain ⟨text, -, htext⟩ := exists_of_mapM (bindings_of_parse h) _ hmem
    exact Argument.isIdentifier_of_readBinding htext
  refine ⟨bindings_of_parse h, value, ⟨hlast, fun v hv => ?_⟩, ?_⟩
  · exact Option.some.inj ((Bindings.getElem?_ofList_iff.mpr hv).symm.trans hvalue)
  · by_cases hisName : Lexer.IsName name
    · exact .inl ⟨hisName, Workspace.reads_name hisName hvalue⟩
    · rcases Statement.parse_identifier hidentifier with hisName' | rfl | ⟨err, herr⟩
      · exact absurd hisName' hisName
      · exact .inr (.inl ⟨rfl, Workspace.reads_euler _⟩)
      · exact .inr (.inr ⟨hisName, err, Workspace.run_of_parse_error herr⟩)

/-- Two values for one name, given in the two ways in which an option can be written. -/
theorem run_binding_twice :
    let arguments := ["x^2", "--at", "x=1", "--at=x=2"]
    ∃ a, parse arguments = .ok a ∧ "x" ∈ (a.workspace {}).bindings ∧
      (bindingTexts arguments).mapM Argument.readBinding = .ok a.bindings ∧
      (a.workspace {}).Reads "x" 2.0 := by
  intro arguments
  let a : Arguments := { expression := some "x^2", bindings := [("x", 1.0), ("x", 2.0)] }
  have hparse : parse arguments = .ok a := by rfl
  have hbound : "x" ∈ (a.workspace {}).bindings :=
    Std.TreeMap.isSome_getElem?_iff_mem.mp (by rfl)
  have hname : Lexer.IsName "x" :=
    Lexer.isName_iff.mpr ⟨⟨'x', [], rfl, by decide, by simp⟩, by decide⟩
  have hlast : Bindings.LastIn a.bindings "x" 2.0 := ⟨[("x", 1.0)], [], rfl, by simp⟩
  obtain ⟨htexts, value, ⟨-, hunique⟩, hread⟩ := run_binding hparse {} hbound
  obtain rfl := hunique _ hlast
  refine ⟨a, hparse, hbound, htexts, ?_⟩
  rcases hread with ⟨-, hread⟩ | ⟨he, -⟩ | ⟨hno, -⟩
  · exact hread
  · exact absurd he (by decide)
  · exact absurd hname hno

/-- A value for the base of the natural logarithm is accepted, and the other one is read; a value
for an identifier that starts with a low line is accepted, and it cannot be read at all. -/
theorem not_reads_last :
    (∃ a, parse ["e", "--at", "e=3"] = .ok a ∧ Bindings.LastIn a.bindings "e" 3.0 ∧
      ∀ settings, ¬(a.workspace settings).Reads "e" 3.0) ∧
    ∃ a, parse ["_a", "--at", "_a=3"] = .ok a ∧ Bindings.LastIn a.bindings "_a" 3.0 ∧
      ∀ settings, ∃ err, (a.workspace settings).run "_a" = .error (.parse err) := by
  refine ⟨⟨{ expression := some "e", bindings := [("e", 3.0)] }, by rfl, ⟨[], [], rfl, by simp⟩,
    fun settings h => ?_⟩, ⟨{ expression := some "_a", bindings := [("_a", 3.0)] }, by rfl,
    ⟨[], [], rfl, by simp⟩, fun settings => ?_⟩⟩
  · have hne : (Coefficient.euler : Float) ≠ 3.0 := by decide +kernel
    exact hne ((Workspace.reads_euler _).eq h)
  · have hnot : ¬Lexer.IsName "_a" := by
      intro h
      obtain ⟨c, ds, hs, hc, -⟩ := h.isWord
      obtain rfl := (List.cons.inj hs).1
      exact absurd hc (by decide)
    rcases Statement.parse_identifier (s := "_a") (by decide) with h | h | ⟨err, herr⟩
    · exact absurd h hnot
    · exact absurd h (by decide)
    · exact ⟨err, Workspace.run_of_parse_error herr⟩

end Arguments

end Fluxion
