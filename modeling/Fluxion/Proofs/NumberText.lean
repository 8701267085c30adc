import Fluxion.Decimal.Layout
import Fluxion.Decimal.Numeral
import Fluxion.Proofs.Pieces
import Mathlib.Tactic.IntervalCases

/-!
# The texts of constants

A finite float is written with decimal places as a minus sign, if it has one, and a numeral: digits,
a point, and as many digits as there are places. A formula has no negative numbers. There the
numeral is one token and the minus sign another, and the numeral is read by itself. So two readers
meet here. One takes the whole text as a float, the other negates what the numeral stands for, and
they agree on finite floats.

## Main definitions

* `Decimal.Positional` — digits around a point
* `Decimal.SignedNumeral` — a numeral with a minus sign or without

## Main results

* `Lexer.words_numeral` — a numeral is one token
* `Decimal.fixedChars_eq` — the text of a magnitude is a numeral
* `Decimal.exists_of_isFinite` — a finite float has a magnitude
* `Decimal.exists_signedNumeral` — the text of a finite float, and what is read
-/

namespace Fluxion

/-! ### Numerals as tokens -/

namespace Lexer

open Unicode (isBlank isLetter)

variable {c : Char} {cs : List Char}

theorem mem_of_isNumeralChar (h : isNumeralChar c = true) :
    c ∈ ['.', '0', '1', '2', '3', '4', '5', '6', '7', '8', '9'] := by
  rcases Bool.or_eq_true_iff.mp h with h | h
  · have hle : 48 ≤ c.toNat ∧ c.toNat ≤ 57 := by
      simpa [Char.isDigit, UInt32.le_iff_toNat_le] using h
    obtain ⟨hlow, hhigh⟩ := hle
    rw [← Char.ofNat_toNat c]
    interval_cases c.toNat <;> decide
  · obtain rfl := beq_iff_eq.mp h
    decide

/-- A character of a numeral starts neither a word nor a sign, and is no blank. -/
theorem starts_numeral (h : isNumeralChar c = true) :
    isBlank c = false ∧ isLetter c = false ∧ Token.Kind.ofSign? c = none ∧ c.toLower = c := by
  have hmem := mem_of_isNumeralChar h
  simp only [List.mem_cons, List.not_mem_nil, or_false] at hmem
  rcases hmem with rfl | rfl | rfl | rfl | rfl | rfl | rfl | rfl | rfl | rfl | rfl <;> decide

@[simp] theorem words_nil : words [] = [] := words_of_none (piece?_eq_none.mpr rfl)

/-- **A numeral is one token.** -/
theorem words_numeral (h : IsNumeral cs) : words cs = [(.number, String.ofList cs)] := by
  obtain ⟨c, ds, rfl⟩ := List.exists_cons_of_ne_nil h.ne_nil
  have hc := h.isNumeralChar c List.mem_cons_self
  obtain ⟨hblank, hletter, hsign, -⟩ := starts_numeral hc
  have hrun : ds.takeWhile isNumeralChar = ds :=
    List.takeWhile_eq_self_iff.mpr fun d hd => h.isNumeralChar d (List.mem_cons_of_mem c hd)
  have hkind : numeralKind (c :: ds) = .number :=
    if_neg (not_or.mpr ⟨Nat.not_lt.mpr h.count_le, h.ne_point⟩)
  have hscan : scan c ds = (.number, (c :: ds).length) := by
    rw [scan_numeral hsign hletter hc, hrun, hkind]
  have hblanks : ∀ b ∈ ([] : List Char), isBlank b = true := by simp
  have hpiece := piece?_blanks hblanks hblank ds
  rw [hscan, List.take_length, List.drop_length] at hpiece
  rw [← List.nil_append (c :: ds), words_of_some hpiece, words_nil]
  rfl

end Lexer

namespace Decimal

open Lexer (IsNumeral)

variable {whole fraction cs : List Char} {x : Float}

/-! ### Digits around a point -/

/-- Digits before a point, at least one, and digits after it. -/
structure Positional (whole fraction : List Char) : Prop where
  ne_nil : whole ≠ []
  isDigit_whole : ∀ c ∈ whole, c.isDigit = true
  isDigit_fraction : ∀ c ∈ fraction, c.isDigit = true

theorem ne_point_of_isDigit {c : Char} (h : c.isDigit = true) : c ≠ '.' := by
  rintro rfl
  cases h

theorem Positional.isNumeral (h : Positional whole fraction) :
    IsNumeral (whole ++ '.' :: fraction) where
  isNumeralChar c hc := by
    rw [Lexer.isNumeralChar, Bool.or_eq_true]
    rcases List.mem_append.mp hc with hc | hc
    · exact .inl (h.isDigit_whole c hc)
    · rcases List.mem_cons.mp hc with rfl | hc
      · exact .inr rfl
      · exact .inl (h.isDigit_fraction c hc)
  count_le := by
    have hwhole : whole.count '.' = 0 :=
      List.count_eq_zero.mpr fun hc => ne_point_of_isDigit (h.isDigit_whole _ hc) rfl
    have hfraction : fraction.count '.' = 0 :=
      List.count_eq_zero.mpr fun hc => ne_point_of_isDigit (h.isDigit_fraction _ hc) rfl
    rw [List.count_append, List.count_cons_self, hwhole, hfraction]
  ne_nil := by simp
  ne_point heq := by
    obtain ⟨c, cs, rfl⟩ := List.exists_cons_of_ne_nil h.ne_nil
    simp at heq

theorem Positional.takeWhile (h : Positional whole fraction) {p : Char → Bool}
    (hp : ∀ c, c.isDigit = true → p c = true) (hpoint : p '.' = false) :
    (whole ++ '.' :: fraction).takeWhile p = whole := by
  rw [List.takeWhile_append_of_pos fun c hc => hp c (h.isDigit_whole c hc),
    List.takeWhile_cons_of_neg (by simp [hpoint]), List.append_nil]

theorem Positional.dropWhile (h : Positional whole fraction) {p : Char → Bool}
    (hp : ∀ c, c.isDigit = true → p c = true) (hpoint : p '.' = false) :
    (whole ++ '.' :: fraction).dropWhile p = '.' :: fraction := by
  rw [List.dropWhile_append_of_pos fun c hc => hp c (h.isDigit_whole c hc),
    List.dropWhile_cons_of_neg (by simp [hpoint])]

/-- The numeral that a formula reads. -/
theorem Positional.ofLiteral (h : Positional whole fraction) :
    Numeral.ofLiteral (String.ofList (whole ++ '.' :: fraction)) =
      ⟨Nat.ofDigitChars 10 (whole ++ fraction) 0, fraction.length⟩ := by
  have hp : ∀ c : Char, c.isDigit = true → (c != '.') = true := fun c hc =>
    bne_iff_ne.mpr (ne_point_of_isDigit hc)
  simp only [Numeral.ofLiteral, String.toList_ofList, h.takeWhile hp rfl, h.dropWhile hp rfl,
    List.drop_one, List.tail_cons]

/-- The float that is read. -/
theorem Positional.readDecimal? (h : Positional whole fraction) :
    readDecimal? (whole ++ '.' :: fraction) =
      some (scaled (Nat.ofDigitChars 10 (whole ++ fraction) 0) (0 - fraction.length)) := by
  have hp : ∀ c : Char, c.isDigit = true → c.isDigit = true := fun c hc => hc
  have htake : fraction.takeWhile Char.isDigit = fraction :=
    List.takeWhile_eq_self_iff.mpr h.isDigit_fraction
  have hdrop : fraction.dropWhile Char.isDigit = [] :=
    List.dropWhile_eq_nil_iff.mpr h.isDigit_fraction
  have hwhole : whole.isEmpty = false := by simpa using h.ne_nil
  simp only [Decimal.readDecimal?, h.takeWhile hp rfl, h.dropWhile hp rfl, htake, hdrop, hwhole,
    Bool.false_and, readExponent?]
  rfl

/-! ### Texts with a sign -/

/-- A number is read by its sign and what comes after it, when its text has nothing in it that is
treated in a special way. -/
theorem readFloat?_eq {text : String}
    (h : ∀ c ∈ text.toList, plainChar c = c ∧ isSpace c = false ∧ c ≠ '_') :
    readFloat? text = (readUnsigned? (takeSign text.toList).2).map fun x =>
      if (takeSign text.toList).1 then -x else x := by
  have hplain : text.toList.map plainChar = text.toList :=
    (List.map_congr_left fun c hc => (h c hc).1).trans (List.map_id _)
  have htrim : Unicode.trimChars isSpace text.toList = text.toList :=
    trimChars_eq_self fun c hc => (h c hc).2.1
  have hjoin : joinDigits? ' ' text.toList = some text.toList :=
    joinDigits?_eq_some (by decide) fun c hc => (h c hc).2.2
  rw [readFloat?, hplain, htrim, hjoin]
  show (do
    let x ← readUnsigned? (takeSign text.toList).2
    some (if (takeSign text.toList).1 then -x else x)) = _
  cases readUnsigned? (takeSign text.toList).2 <;> rfl

/-- A numeral is none of the words for special floats. -/
theorem readUnsigned?_eq (h : IsNumeral cs) : readUnsigned? cs = readDecimal? cs := by
  have hlower : cs.map Char.toLower = cs :=
    (List.map_congr_left fun c hc => (Lexer.starts_numeral (h.isNumeralChar c hc)).2.2.2).trans
      (List.map_id _)
  have hne : ∀ {word : String}, 'n' ∈ word.toList → (String.ofList cs == word) = false := by
    intro word hn
    refine beq_eq_false_iff_ne.mpr ?_
    rintro rfl
    rw [String.toList_ofList] at hn
    exact Bool.false_ne_true (h.isNumeralChar 'n' hn)
  simp only [readUnsigned?, hlower, @hne "inf" (by decide), @hne "infinity" (by decide),
    @hne "nan" (by decide), Bool.or_false, Bool.false_eq_true, if_false]

/-- A text is a minus sign, if it is negative, and a numeral. -/
structure SignedNumeral (text : String) (negative : Bool) (cs : List Char) : Prop where
  toList_eq : text.toList = (if negative then ['-'] else []) ++ cs
  isNumeral : IsNumeral cs

namespace SignedNumeral

variable {text : String} {negative : Bool}

theorem takeSign_eq (h : SignedNumeral text negative cs) :
    takeSign text.toList = (negative, cs) := by
  rw [h.toList_eq]
  cases negative with
  | true => rfl
  | false =>
    obtain ⟨c, ds, rfl⟩ := List.exists_cons_of_ne_nil h.isNumeral.ne_nil
    have hc := (plain_of_isNumeralChar (h.isNumeral.isNumeralChar c List.mem_cons_self)).2.2.2
    exact Decimal.takeSign_eq hc.1 hc.2

/-- The minus sign is seen from the first character. -/
theorem head?_eq_iff (h : SignedNumeral text negative cs) :
    text.toList.head? = some '-' ↔ negative = true := by
  rw [h.toList_eq]
  cases negative with
  | true => exact iff_of_true rfl rfl
  | false =>
    obtain ⟨c, ds, rfl⟩ := List.exists_cons_of_ne_nil h.isNumeral.ne_nil
    have hc := plain_of_isNumeralChar (h.isNumeral.isNumeralChar c List.mem_cons_self)
    exact iff_of_false (fun hminus => hc.2.2.2.1 (Option.some.inj hminus)) Bool.false_ne_true

/-- The minus sign is a token of its own. -/
theorem words_eq (h : SignedNumeral text negative cs) : Lexer.words text.toList =
    (if negative then [(.minus, "-")] else []) ++ [(.number, String.ofList cs)] := by
  rw [h.toList_eq]
  cases negative with
  | true =>
    have hwords := Lexer.words_sign (c := '-') rfl (by decide) cs
    rw [Lexer.words_numeral h.isNumeral] at hwords
    exact hwords
  | false => exact Lexer.words_numeral h.isNumeral

/-- What is read is what the digits say, or the negative of that. -/
theorem readFloat?_eq (h : SignedNumeral text negative cs) :
    readFloat? text = (readDecimal? cs).map fun x => if negative then -x else x := by
  have hchar : ∀ c ∈ text.toList, plainChar c = c ∧ isSpace c = false ∧ c ≠ '_' := by
    intro c hc
    rw [h.toList_eq] at hc
    rcases List.mem_append.mp hc with hc | hc
    · obtain rfl : c = '-' := by
        cases negative with
        | true => exact List.mem_singleton.mp hc
        | false => cases hc
      decide
    · obtain ⟨hplain, hspace, hline, -⟩ := plain_of_isNumeralChar (h.isNumeral.isNumeralChar c hc)
      exact ⟨hplain, hspace, hline⟩
  rw [Decimal.readFloat?_eq hchar, h.takeSign_eq, readUnsigned?_eq h.isNumeral]

end SignedNumeral

/-- With six places, digits are scaled to what a numeral stands for, or else to an infinity. -/
theorem scaled_eq (n : Nat) :
    scaled n (0 - (6 : Nat)) = 1 / 0 ∨ scaled n (0 - (6 : Nat)) = Numeral.toFloat ⟨n, 6⟩ := by
  rw [scaled]
  by_cases hn : n = 0
  · subst hn
    exact .inr (by decide +kernel)
  · have hlead : ¬(n = 0 ∨ (0 - (6 : Nat) : Int) + digitCount n < -400) := by omega
    rw [if_neg hlead]
    split
    · exact .inl rfl
    · exact .inr rfl

theorem ne_inf_of_isFinite (h : x.isFinite = true) : x ≠ 1 / 0 ∧ x ≠ -(1 / 0) := by
  constructor
  · rintro rfl
    exact absurd h (by decide)
  · rintro rfl
    exact absurd h (by decide)

/-- A finite float that is read from a text is, up to the sign, what the numeral stands for. -/
theorem Positional.eq_of_readFloat? {text : String} {negative : Bool}
    (h : Positional whole fraction) (hplaces : fraction.length = 6)
    (htext : SignedNumeral text negative (whole ++ '.' :: fraction)) (hx : x.isFinite = true)
    (hread : readFloat? text = some x) :
    (if negative then -(Numeral.ofLiteral (String.ofList (whole ++ '.' :: fraction))).toFloat
      else (Numeral.ofLiteral (String.ofList (whole ++ '.' :: fraction))).toFloat) = x := by
  obtain ⟨hne, hne'⟩ := ne_inf_of_isFinite hx
  rw [htext.readFloat?_eq, h.readDecimal?, hplaces, Option.map_some] at hread
  have hscaled := Option.some.inj hread
  rw [h.ofLiteral, hplaces]
  rcases scaled_eq (Nat.ofDigitChars 10 (whole ++ fraction) 0) with hinf | hnumeral
  · -- no bound on the digits is needed: what is read is finite
    rw [hinf] at hscaled
    cases negative with
    | true => exact absurd hscaled.symm hne'
    | false => exact absurd hscaled.symm hne
  · rwa [hnumeral] at hscaled

/-! ### Texts of finite floats -/

theorem isDigit_digitsOf {n : Nat} {c : Char} (h : c ∈ digitsOf n) : c.isDigit = true :=
  Nat.isDigit_of_mem_toDigits (by decide) (by decide) h

/-- The text of a magnitude is a numeral with as many digits after the point as there are
places. -/
theorem fixedChars_eq {places : Nat} (hplaces : 0 < places) (v : Magnitude) :
    ∃ whole fraction, Positional whole fraction ∧ fraction.length = places ∧
      fixedChars places v = whole ++ '.' :: fraction := by
  refine ⟨_, _, ⟨Nat.toDigits_ne_nil, fun c hc => isDigit_digitsOf hc, fun c hc => ?_⟩, ?_, rfl⟩
  · rcases List.mem_append.mp hc with hc | hc
    · rw [List.eq_of_mem_replicate hc]
      rfl
    · exact isDigit_digitsOf hc
  · have hlength : (digitsOf (roundDiv (v.num * Nat.pow 10 places) v.den %
        Nat.pow 10 places)).length ≤ places :=
      (Nat.length_toDigits_le_iff (by decide) hplaces).mpr
        (Nat.mod_lt _ (Nat.pow_pos (by decide)))
    rw [List.length_append, List.length_replicate]
    omega

section Model

open Float.Model (UnpackedFloat)

theorem compare_self {u : UnpackedFloat} (h : u.isFinite = true) : u.compare u = some .eq := by
  cases u with
  | notANumber => cases h
  | infinity => cases h
  | zero => rfl
  | finite sign m e =>
    have hsame : (compare e e).then (compare m m) = .eq := by
      rw [Std.ReflOrd.compare_self, Std.ReflOrd.compare_self]
      rfl
    cases sign with
    | positive => exact congrArg some hsame
    | negative => exact congrArg (fun o => some o.swap) hsame

theorem beq_self_of_isFinite (h : x.isFinite = true) : (x == x) = true := by
  show (x.toModel.unpack.compare x.toModel.unpack == some .eq) = true
  rw [compare_self h]
  rfl

/-- A finite float has a magnitude. -/
theorem exists_of_isFinite (h : x.isFinite = true) :
    ∃ negative v, Value.ofFloat x = .finite negative v := by
  by_cases hexponent : x.toBits.toNat / 2 ^ 52 % 2 ^ 11 = 2047
  · have hones : @UnpackedFloat.unpackExponent .binary64 x.toModel.toBits.toBitVec = -1#11 := by
      apply BitVec.eq_of_toNat_eq
      simp only [UnpackedFloat.unpackExponent, BitVec.toNat_cast, BitVec.extractLsb_toNat,
        Nat.shiftRight_eq_div_pow]
      exact hexponent
    have hunpack : x.toModel.unpack = _ := if_pos hones
    have hinfinite : x.toModel.unpack.isFinite = false := by
      rw [hunpack]
      split <;> rfl
    exact absurd (hinfinite.symm.trans h) Bool.false_ne_true
  · rw [Value.ofFloat, Value.ofBits]
    simp only [Nat.pow_eq]
    rw [if_neg hexponent]
    split
    · exact ⟨_, _, rfl⟩
    · exact ⟨_, _, rfl⟩

end Model

/-- **The text of a finite float** is a numeral, with a minus sign or without. If the float is read
back, it is what the numeral stands for, or the negative of that. -/
theorem exists_signedNumeral (h : x.isFinite = true) :
    ∃ negative cs, SignedNumeral (fixed 6 x) negative cs ∧
      (readFloat? (fixed 6 x) = some x →
        (if negative then -(Numeral.ofLiteral (String.ofList cs)).toFloat
          else (Numeral.ofLiteral (String.ofList cs)).toFloat) = x) := by
  obtain ⟨negative, v, hv⟩ := exists_of_isFinite h
  obtain ⟨whole, fraction, hpositional, hlength, hchars⟩ := fixedChars_eq (by decide : 0 < 6) v
  have htext : SignedNumeral (fixed 6 x) negative (whole ++ '.' :: fraction) := by
    refine ⟨?_, hpositional.isNumeral⟩
    rw [fixed, hv, Value.render, String.toList_ofList, hchars]
  exact ⟨negative, _, htext, fun hread => hpositional.eq_of_readFloat? hlength htext h hread⟩

end Decimal

end Fluxion
