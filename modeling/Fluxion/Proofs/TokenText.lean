import Fluxion.Decimal.Reader
import Fluxion.Lexer
import Mathlib.Data.List.TakeWhile

/-!
# The texts of tokens

What a lexer guarantees of the text of each token it delivers. A sign or a keyword has the text
that its kind is spelled with. A number is a run of digits with at most one point and at least
one digit; such a text is read as a float without fail, so that a formula which parses has a
value for each of its numbers.

## Main definitions

* `Token.Kind.isSign` — the kinds whose tokens all have the same text
* `Lexer.IsNumeral` — the texts of numbers
* `Token.Spelled` — a token whose text is as its kind says

## Main results

* `Lexer.spelled_of_mem` — every token of a text is spelled
* `Decimal.readFloat?_isSome` — the text of a number is read as a float
-/

namespace Fluxion

/-- Whether all tokens of a kind have the same text. -/
def Token.Kind.isSign : Token.Kind → Bool
  | illegal | finish | name | number => false
  | _ => true

/-- A run of digits and points with a digit and at most one point. -/
structure Lexer.IsNumeral (cs : List Char) : Prop where
  isNumeralChar : ∀ c ∈ cs, Lexer.isNumeralChar c
  count_le : cs.count '.' ≤ 1
  ne_nil : cs ≠ []
  ne_point : cs ≠ ['.']

/-- The text of a token is as its kind says. -/
structure Token.Spelled (t : Token) : Prop where
  sign : t.kind.isSign → t.literal = t.kind.spelling
  number : t.kind = .number → Lexer.IsNumeral t.literal.toList

/-! ### What a lexer delivers -/

namespace Lexer

open Unicode (isBlank isLetter)

theorem spelling_of_ofSign? {c : Char} {k : Token.Kind} (h : Token.Kind.ofSign? c = some k) :
    k.spelling = String.ofList [c] ∧ k ≠ .number := by
  rw [Token.Kind.ofSign?.eq_def] at h
  split at h <;> cases h <;> exact ⟨rfl, nofun⟩

theorem spelling_ofWord {word : String} (h : (Token.Kind.ofWord word).isSign) :
    word = (Token.Kind.ofWord word).spelling := by
  rw [Token.Kind.ofWord] at h ⊢
  split
  · assumption
  · split
    · rename_i f hf
      have hword := List.find?_some hf
      exact (beq_iff_eq.mp hword).symm
    · simp_all [Token.Kind.isSign]

theorem ofWord_ne_number (word : String) : Token.Kind.ofWord word ≠ .number := by
  rw [Token.Kind.ofWord]
  split
  · nofun
  · split <;> nofun

/-- The text of a longest run of characters. -/
theorem take_run (p : Char → Bool) (c : Char) (cs : List Char) :
    (c :: cs).take (c :: cs.takeWhile p).length = c :: cs.takeWhile p := by
  have hprefix : c :: cs.takeWhile p <+: c :: cs :=
    (List.prefix_cons_inj c).mpr (List.takeWhile_prefix p)
  exact (List.prefix_iff_eq_take.mp hprefix).symm

theorem isSign_numeralKind (literal : List Char) : ¬(numeralKind literal).isSign := by
  rw [numeralKind]
  split <;> nofun

theorem isNumeral_run {c : Char} {cs : List Char} (hc : isNumeralChar c)
    (h : numeralKind (c :: cs.takeWhile isNumeralChar) = .number) :
    IsNumeral (c :: cs.takeWhile isNumeralChar) := by
  rw [numeralKind] at h
  split at h
  · cases h
  · rename_i hnot
    obtain ⟨hcount, hpoint⟩ := not_or.mp hnot
    refine ⟨?_, Nat.not_lt.mp hcount, nofun, hpoint⟩
    intro d hd
    rcases List.mem_cons.mp hd with rfl | hd
    · exact hc
    · exact List.mem_takeWhile_imp hd

theorem spelled_scan (c : Char) (cs : List Char) (position : Nat) :
    Token.Spelled ⟨(scan c cs).1, String.ofList ((c :: cs).take (scan c cs).2), position⟩ := by
  rw [scan]
  split
  · rename_i k hk
    obtain ⟨hspell, hne⟩ := spelling_of_ofSign? hk
    exact ⟨fun _ => hspell.symm, fun h => absurd h hne⟩
  · split
    · refine ⟨fun h => ?_, fun h => absurd h (ofWord_ne_number _)⟩
      rw [take_run]
      exact spelling_ofWord h
    · split
      · rename_i hc
        refine ⟨fun h => ?_, fun h => ?_⟩
        · exact absurd h (isSign_numeralKind _)
        · rw [take_run, String.toList_ofList]
          exact isNumeral_run hc h
      · exact ⟨nofun, nofun⟩

theorem spelled_next (l : Lexer) : l.next.1.Spelled := by
  rw [next]
  split
  · exact ⟨nofun, nofun⟩
  · exact spelled_scan _ _ _

/-- **Every token of a text is spelled as its kind says.** -/
theorem spelled_of_mem {l : Lexer} {t : Token} (h : t ∈ l.tokens.1) : t.Spelled := by
  fun_induction tokens l with
  | case1 l hfinish => cases h
  | case2 l hne ts last hrest ih =>
    rcases List.mem_cons.mp h with rfl | h
    · exact l.spelled_next
    · exact ih (hrest ▸ h)

end Lexer

/-! ### Reading a numeral -/

namespace Decimal

open Lexer (IsNumeral)
open Unicode (trimChars)

/-- A character of a numeral is a digit or a point, and so is none of the characters that are
treated in a special way around a number. -/
theorem plain_of_isNumeralChar {c : Char} (h : Lexer.isNumeralChar c) :
    plainChar c = c ∧ isSpace c = false ∧ c ≠ '_' ∧ c ≠ '-' ∧ c ≠ '+' := by
  rcases Bool.or_eq_true_iff.mp h with h | h
  · have hle : 48 ≤ c.toNat ∧ c.toNat ≤ 57 := by
      simpa [Char.isDigit, UInt32.le_iff_toNat_le] using h
    refine ⟨if_pos (by omega), ?_, ?_, ?_, ?_⟩
    · have hc : c ≠ ' ' := by
        rintro rfl
        exact absurd hle.1 (by decide)
      simpa [isSpace, hc] using fun _ => show 13 < c.toNat by omega
    all_goals
      rintro rfl
      exact absurd hle (by decide)
  · obtain rfl := beq_iff_eq.mp h
    exact ⟨rfl, rfl, by decide, by decide, by decide⟩

theorem trimChars_eq_self {p : Char → Bool} {cs : List Char} (h : ∀ c ∈ cs, p c = false) :
    trimChars p cs = cs := by
  have hdrop : ∀ {ds : List Char}, (∀ c ∈ ds, p c = false) → ds.dropWhile p = ds := by
    intro ds hds
    cases ds with
    | nil => rfl
    | cons d ds => rw [List.dropWhile_cons_of_neg (by simp [hds d])]
  rw [trimChars, hdrop h, hdrop (by simpa using h), List.reverse_reverse]

theorem joinDigits?_eq_some {cs : List Char} {before : Char} (hbefore : before ≠ '_')
    (h : ∀ c ∈ cs, c ≠ '_') : joinDigits? before cs = some cs := by
  induction cs generalizing before with
  | nil => simp [joinDigits?, hbefore]
  | cons c cs ih =>
    have hc : c ≠ '_' := h c List.mem_cons_self
    simp [joinDigits?, hbefore, hc, ih hc fun d hd => h d (List.mem_cons_of_mem c hd)]

theorem takeSign_eq {c : Char} {cs : List Char} (h : c ≠ '-') (h' : c ≠ '+') :
    takeSign (c :: cs) = (false, c :: cs) := by
  rw [takeSign.eq_def]
  split
  · simp_all
  · simp_all
  · rfl

/-- The digits of a numeral after those before the point, if there is a point. -/
theorem dropWhile_isDigit {cs : List Char} (h : IsNumeral cs) :
    cs.dropWhile Char.isDigit = [] ∨ ∃ fraction, cs.dropWhile Char.isDigit = '.' :: fraction ∧
      ∀ c ∈ fraction, c.isDigit := by
  cases hrest : cs.dropWhile Char.isDigit with
  | nil => exact .inl rfl
  | cons c fraction =>
    have hsplit := List.takeWhile_append_dropWhile (p := Char.isDigit) (l := cs)
    rw [hrest] at hsplit
    have hc : c.isDigit = false := by
      simpa [hrest] using List.head_dropWhile_not Char.isDigit (l := cs) (by simp [hrest])
    have hpoint : c = '.' := by
      simpa [Lexer.isNumeralChar, hc] using h.isNumeralChar c (hsplit ▸ by simp)
    subst hpoint
    refine .inr ⟨fraction, rfl, fun d hd => ?_⟩
    -- the point that was found is the only one
    have hcount := h.count_le
    rw [← hsplit, List.count_append, List.count_cons_self] at hcount
    have hno : '.' ∉ fraction := List.count_eq_zero.mp (by omega)
    have hd' := h.isNumeralChar d (hsplit ▸ by simp [hd])
    rcases Bool.or_eq_true_iff.mp hd' with hd' | hd'
    · exact hd'
    · exact absurd (beq_iff_eq.mp hd' ▸ hd) hno

theorem readDecimal?_isSome {cs : List Char} (h : IsNumeral cs) : (readDecimal? cs).isSome := by
  have hsplit := List.takeWhile_append_dropWhile (p := Char.isDigit) (l := cs)
  rcases dropWhile_isDigit h with hrest | ⟨fraction, hrest, hdigits⟩
  · have hwhole : (cs.takeWhile Char.isDigit).isEmpty = false := by
      rw [hrest, List.append_nil] at hsplit
      simpa [hsplit] using h.ne_nil
    simp [readDecimal?, hrest, hwhole, readExponent?]
  · have htake : fraction.takeWhile Char.isDigit = fraction :=
      List.takeWhile_eq_self_iff.mpr hdigits
    have hdrop : fraction.dropWhile Char.isDigit = [] := List.dropWhile_eq_nil_iff.mpr hdigits
    have hsome : ((cs.takeWhile Char.isDigit).isEmpty && fraction.isEmpty) = false := by
      refine Bool.eq_false_iff.mpr fun hboth => h.ne_point ?_
      obtain ⟨hwhole, hfraction⟩ := Bool.and_eq_true_iff.mp hboth
      rw [← hsplit, hrest, List.isEmpty_iff.mp hwhole, List.isEmpty_iff.mp hfraction,
        List.nil_append]
    simp [readDecimal?, hrest, htake, hdrop, hsome, readExponent?]

theorem readUnsigned?_isSome {cs : List Char} (h : IsNumeral cs) :
    (readUnsigned? cs).isSome := by
  simp only [readUnsigned?]
  split
  · rfl
  · split
    · rfl
    · exact readDecimal?_isSome h

/-- **The text of a number is read as a float.** -/
theorem readFloat?_isSome {text : String} (h : IsNumeral text.toList) :
    (readFloat? text).isSome := by
  have hchar := fun c hc => plain_of_isNumeralChar (h.isNumeralChar c hc)
  have hplain : text.toList.map plainChar = text.toList :=
    (List.map_congr_left fun c hc => (hchar c hc).1).trans (List.map_id _)
  have htrim : trimChars isSpace text.toList = text.toList :=
    trimChars_eq_self fun c hc => (hchar c hc).2.1
  have hjoin : joinDigits? ' ' text.toList = some text.toList :=
    joinDigits?_eq_some (by decide) fun c hc => (hchar c hc).2.2.1
  obtain ⟨x, hx⟩ := Option.isSome_iff_exists.mp (readUnsigned?_isSome h)
  have hsign : takeSign text.toList = (false, text.toList) := by
    cases hcs : text.toList with
    | nil => exact absurd hcs h.ne_nil
    | cons c cs =>
      have hc := (hchar c (hcs ▸ List.mem_cons_self)).2.2.2
      exact takeSign_eq hc.1 hc.2
  simp [readFloat?, hplain, htrim, hjoin, hsign, hx]

end Decimal

end Fluxion
