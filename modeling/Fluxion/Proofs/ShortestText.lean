import Fluxion.Proofs.NumberText
import Fluxion.Proofs.ShortestDigits

/-!
# The shortest text determines a float

The text of a float is a sign and then either a word, for what is infinite or no number, or the
shortest digits of a magnitude, laid out with a point or with an exponent. Texts of different
floats are different, so nothing is lost when a constant is written in as many digits as it needs.

## The number of a text

A layout moves the point, strips zeros off the end, fills up with zeros at either side and moves
a power of ten into an exponent. None of this changes the number that the text stands for.
`numberOf` reads that number off a text exactly, and `Written` is what all layouts have in common.
So the text tells the number of the shortest digits, which is in the interval of one magnitude
only.

## What is no number

There are many patterns of bits for what is no number, but a float has one of them only. So the
words determine a float as well.

## Main definitions

* `digitsValue`, `numberOf` — the number of digits, and of a text
* `Written` — digits, possibly with a point between them, and an exponent part

## Main results

* `exists_written_render` — the text of chosen digits stands for their number
* `ofFloat_injective` — a float is determined by its value
* `shortest_injective` — the shortest text determines the float
* `newline_not_mem_shortest` — it is on one line
-/

namespace Fluxion

namespace Decimal

variable {cs ds es whole fraction : List Char} {k lead : Int}

/-! ### The number that digits stand for -/

/-- The number that digits stand for when the first one counts units of `10 ^ lead`. -/
def digitsValue (ds : List Char) (lead : Int) : ℚ :=
  Nat.ofDigitChars 10 ds 0 * 10 ^ (lead + 1 - ds.length)

theorem digitsValue_append_zeros (ds : List Char) (n : Nat) (lead : Int) :
    digitsValue (ds ++ List.replicate n '0') lead = digitsValue ds lead := by
  have hlength : lead + 1 - ((ds.length + n : Nat) : Int) = -n + (lead + 1 - ds.length) := by
    push_cast
    ring
  rw [digitsValue, Nat.ofDigitChars_append, Nat.ofDigitChars_replicate_zero, List.length_append,
    List.length_replicate, hlength, zpow_add₀ (by norm_num), zpow_neg, zpow_natCast, digitsValue]
  push_cast
  field_simp

theorem digitsValue_zeros_append (n : Nat) (ds : List Char) (lead : Int) :
    digitsValue (List.replicate n '0' ++ ds) lead = digitsValue ds (lead - n) := by
  have hlength : lead + 1 - ((n + ds.length : Nat) : Int) = lead - n + 1 - ds.length := by
    push_cast
    ring
  rw [digitsValue, Nat.ofDigitChars_append, Nat.ofDigitChars_replicate_zero, Nat.mul_zero,
    List.length_append, List.length_replicate, hlength, digitsValue]

/-- What is stripped off are zeros. -/
theorem exists_stripZeros (hne : ds ≠ []) :
    stripZeros ds ≠ [] ∧ ∃ n, ds = stripZeros ds ++ List.replicate n '0' := by
  have hzeros : ds.reverse.takeWhile (· == '0') =
      List.replicate (ds.reverse.takeWhile (· == '0')).length '0' :=
    List.eq_replicate_iff.mpr ⟨rfl, fun c hc => by
      simpa using List.mem_takeWhile_imp hc⟩
  have hds : ds = (ds.reverse.dropWhile (· == '0')).reverse ++
      List.replicate (ds.reverse.takeWhile (· == '0')).length '0' := by
    rw [← List.reverse_replicate, ← hzeros, ← List.reverse_append,
      List.takeWhile_append_dropWhile, List.reverse_reverse]
  rw [stripZeros]
  split
  · rename_i hnil
    rw [hnil, List.nil_append] at hds
    -- all digits are zeros, and one of them is left
    cases hcount : (ds.reverse.takeWhile (· == '0')).length with
    | zero =>
      rw [hcount] at hds
      exact absurd hds hne
    | succ n =>
      rw [hcount] at hds
      exact ⟨List.cons_ne_nil _ _, n, hds⟩
  · rename_i hcons
    exact ⟨hcons, _, hds⟩

theorem digitsValue_stripZeros (hne : ds ≠ []) (lead : Int) :
    digitsValue (stripZeros ds) lead = digitsValue ds lead := by
  obtain ⟨-, n, hn⟩ := exists_stripZeros hne
  conv_rhs => rw [hn]
  exact (digitsValue_append_zeros _ n lead).symm

theorem isDigit_stripZeros (hne : ds ≠ []) (h : ∀ c ∈ ds, c.isDigit = true) :
    ∀ c ∈ stripZeros ds, c.isDigit = true := by
  obtain ⟨-, n, hn⟩ := exists_stripZeros hne
  exact fun c hc => h c (hn ▸ List.mem_append_left _ hc)

theorem digitsValue_digitsOf (s : Scientific) :
    digitsValue (digitsOf s.digits) (s.exponent + (digitsOf s.digits).length - 1) = s.value := by
  rw [digitsValue, digitsOf, Nat.ofDigitChars_ten_toDigits, Scientific.value]
  congr 2
  ring

/-! ### Reading a text as a number -/

/-- The number of an unsigned text, with nothing rounded. -/
def numberOf (cs : List Char) : ℚ :=
  let numeral := Numeral.ofLiteral (String.ofList (cs.takeWhile (· != 'e')))
  numeral.digits / 10 ^ numeral.places * 10 ^ (readExponent? (cs.dropWhile (· != 'e'))).getD 0

/-- What may stand behind the digits: nothing, or an exponent. -/
inductive ExponentPart : List Char → Int → Prop
  | none : ExponentPart [] 0
  | text (k : Int) : ExponentPart ('e' :: exponentText k) k

theorem readExponent?_digits (hne : ds ≠ []) (h : ∀ c ∈ ds, c.isDigit = true) (negative : Bool) :
    readExponent? ('e' :: (if negative then '-' else '+') :: ds) =
      some (if negative then -(Nat.ofDigitChars 10 ds 0 : Int) else Nat.ofDigitChars 10 ds 0) := by
  have hds : (!ds.isEmpty && ds.all Char.isDigit) = true := by
    simpa [hne] using h
  have hsign : takeSign ((if negative then '-' else '+') :: ds) = (negative, ds) := by
    cases negative <;> rfl
  rw [readExponent?, hsign]
  exact if_pos hds

theorem readExponent?_exponentText (k : Int) : readExponent? ('e' :: exponentText k) = some k := by
  have hne : List.replicate (2 - (digitsOf k.natAbs).length) '0' ++ digitsOf k.natAbs ≠ [] :=
    List.append_ne_nil_of_right_ne_nil _ Nat.toDigits_ne_nil
  have hdigits : ∀ c ∈ List.replicate (2 - (digitsOf k.natAbs).length) '0' ++ digitsOf k.natAbs,
      c.isDigit = true :=
    List.forall_mem_append.mpr
      ⟨fun c hc => List.eq_of_mem_replicate hc ▸ rfl, fun c hc => isDigit_digitsOf hc⟩
  have hread := readExponent?_digits hne hdigits (decide (k < 0))
  rw [Nat.ofDigitChars_append, Nat.ofDigitChars_replicate_zero, Nat.mul_zero, digitsOf,
    Nat.ofDigitChars_ten_toDigits] at hread
  simp only [decide_eq_true_eq] at hread
  rw [exponentText, digitsOf, hread]
  split <;> congr 1 <;> omega

theorem ExponentPart.takeWhile (h : ExponentPart es k) (hcs : ∀ c ∈ cs, c ≠ 'e') :
    (cs ++ es).takeWhile (· != 'e') = cs ∧ (cs ++ es).dropWhile (· != 'e') = es ∧
      readExponent? es = some k := by
  have hp : ∀ c ∈ cs, (c != 'e') = true := fun c hc => bne_iff_ne.mpr (hcs c hc)
  rw [List.takeWhile_append_of_pos hp, List.dropWhile_append_of_pos hp]
  cases h with
  | none => exact ⟨List.append_nil cs, rfl, rfl⟩
  | text => exact ⟨List.append_nil cs, rfl, readExponent?_exponentText k⟩

/-- A text of digits, with a point between them or without, and an exponent part. -/
structure Written (cs whole fraction : List Char) (k : Int) : Prop where
  ne_nil : whole ≠ []
  isDigit_whole : ∀ c ∈ whole, c.isDigit = true
  isDigit_fraction : ∀ c ∈ fraction, c.isDigit = true
  eq_append : ∃ es, ExponentPart es k ∧
    (cs = whole ++ '.' :: fraction ++ es ∨ fraction = [] ∧ cs = whole ++ es)

theorem ne_of_isDigit {c d : Char} (h : c.isDigit = true) (hd : d.isDigit = false) : c ≠ d := by
  rintro rfl
  exact Bool.false_ne_true (hd.symm.trans h)

/-- The number of a text is that of all its digits. -/
theorem Written.numberOf_eq (h : Written cs whole fraction k) :
    numberOf cs = digitsValue (whole ++ fraction) (whole.length - 1 + k) := by
  have hvalue : digitsValue (whole ++ fraction) (whole.length - 1 + k) =
      Nat.ofDigitChars 10 (whole ++ fraction) 0 / 10 ^ fraction.length * 10 ^ k := by
    have hlength : (whole.length : Int) - 1 + k + 1 - (whole ++ fraction).length =
        -fraction.length + k := by
      rw [List.length_append]
      push_cast
      ring
    rw [digitsValue, hlength, zpow_add₀ (by norm_num), zpow_neg, zpow_natCast, ← mul_assoc,
      div_eq_mul_inv]
  have hwhole : ∀ c ∈ whole, c ≠ 'e' := fun c hc => ne_of_isDigit (h.isDigit_whole c hc) rfl
  obtain ⟨es, hes, rfl | ⟨rfl, rfl⟩⟩ := h.eq_append
  · have hpositional : Positional whole fraction := ⟨h.ne_nil, h.isDigit_whole, h.isDigit_fraction⟩
    have hmantissa : ∀ c ∈ whole ++ '.' :: fraction, c ≠ 'e' := by
      intro c hc
      rcases List.mem_append.mp hc with hc | hc
      · exact hwhole c hc
      · rcases List.mem_cons.mp hc with rfl | hc
        · decide
        · exact ne_of_isDigit (h.isDigit_fraction c hc) rfl
    obtain ⟨htake, hdrop, hread⟩ := hes.takeWhile hmantissa
    rw [numberOf, htake, hdrop, hread, hpositional.ofLiteral, hvalue]
    rfl
  · obtain ⟨htake, hdrop, hread⟩ := hes.takeWhile hwhole
    have hpoint : ∀ c ∈ whole, (c != '.') = true := fun c hc =>
      bne_iff_ne.mpr (ne_point_of_isDigit (h.isDigit_whole c hc))
    have hliteral : Numeral.ofLiteral (String.ofList whole) =
        ⟨Nat.ofDigitChars 10 (whole ++ []) 0, ([] : List Char).length⟩ := by
      simp only [Numeral.ofLiteral, String.toList_ofList, List.takeWhile_eq_self_iff.mpr hpoint,
        List.dropWhile_eq_nil_iff.mpr hpoint, List.drop_nil]
    rw [numberOf, htake, hdrop, hread, hliteral, hvalue]
    rfl

/-! ### Layouts -/

/-- Positional notation. -/
theorem exists_written_positional (wholePoint : Bool) (hne : ds ≠ [])
    (h : ∀ c ∈ ds, c.isDigit = true) (lead : Int) :
    ∃ whole fraction, Written (positional wholePoint ds lead) whole fraction 0 ∧
      digitsValue (whole ++ fraction) (whole.length - 1 + 0) = digitsValue ds lead := by
  have hzeros : ∀ n, ∀ c ∈ List.replicate n '0', c.isDigit = true := fun n c hc =>
    List.eq_of_mem_replicate hc ▸ rfl
  rw [positional]
  split
  · rename_i hneg
    refine ⟨['0'], List.replicate (-lead - 1).toNat '0' ++ ds, ⟨List.cons_ne_nil _ _, ?_, ?_,
      [], .none, .inl (List.append_nil _).symm⟩, ?_⟩
    · exact hzeros 1
    · exact List.forall_mem_append.mpr ⟨hzeros _, h⟩
    · have hlead := digitsValue_zeros_append ((-lead - 1).toNat + 1) ds 0
      rw [show (0 : Int) - (((-lead - 1).toNat + 1 : Nat) : Int) = lead by omega] at hlead
      exact hlead
  · rename_i hnonneg
    have hlead : ((lead.toNat + 1 : Nat) : Int) - 1 + 0 = lead := by omega
    by_cases hfraction : ds.drop (lead.toNat + 1) = []
    · -- a whole number, with zeros up to the point
      have hshort := List.drop_eq_nil_iff.mp hfraction
      have hlength : (ds ++ List.replicate (lead.toNat + 1 - ds.length) '0').length =
          lead.toNat + 1 := by
        rw [List.length_append, List.length_replicate]
        omega
      have hwhole : ds ++ List.replicate (lead.toNat + 1 - ds.length) '0' ≠ [] :=
        List.append_ne_nil_of_left_ne_nil hne _
      have hdigits := List.forall_mem_append.mpr ⟨h, hzeros (lead.toNat + 1 - ds.length)⟩
      simp only [hfraction, List.isEmpty_nil, List.take_of_length_le hshort, Bool.not_true,
        Bool.false_or, if_true]
      cases wholePoint with
      | true =>
        refine ⟨_, ['0'], ⟨hwhole, hdigits, hzeros 1, [], .none, .inl (List.append_nil _).symm⟩, ?_⟩
        rw [hlength, hlead]
        exact (digitsValue_append_zeros _ 1 lead).trans (digitsValue_append_zeros ds _ lead)
      | false =>
        refine ⟨_, [], ⟨hwhole, hdigits, nofun, [], .none, .inr ⟨rfl, rfl⟩⟩, ?_⟩
        rw [hlength, hlead, List.append_nil]
        exact digitsValue_append_zeros ds _ lead
    · have hlong : lead.toNat + 1 < ds.length := by simpa using hfraction
      have hlength : (ds.take (lead.toNat + 1)).length = lead.toNat + 1 := by
        rw [List.length_take]
        omega
      have hempty : (ds.drop (lead.toNat + 1)).isEmpty = false := by simpa using hfraction
      simp only [hempty, Nat.sub_eq_zero_of_le hlong.le, List.replicate_zero, List.append_nil,
        Bool.not_false, Bool.true_or, if_true, Bool.false_eq_true, if_false]
      refine ⟨_, _, ⟨List.ne_nil_of_length_eq_add_one hlength,
        fun c hc => h c (List.mem_of_mem_take hc), fun c hc => h c (List.mem_of_mem_drop hc),
        [], .none, .inl (List.append_nil _).symm⟩, ?_⟩
      rw [hlength, hlead, List.take_append_drop]

/-- Scientific notation. -/
theorem exists_written_scientific (hne : ds ≠ []) (h : ∀ c ∈ ds, c.isDigit = true) (lead : Int) :
    ∃ whole fraction, Written (scientific ds lead) whole fraction lead ∧
      digitsValue (whole ++ fraction) (whole.length - 1 + lead) = digitsValue ds lead := by
  obtain ⟨c, cs, rfl⟩ := List.exists_cons_of_ne_nil hne
  have hc : ∀ d ∈ [c], d.isDigit = true := fun d hd =>
    h d (List.mem_singleton.mp hd ▸ List.mem_cons_self)
  have hcs : ∀ d ∈ cs, d.isDigit = true := fun d hd => h d (List.mem_cons_of_mem c hd)
  refine ⟨[c], cs, ⟨List.cons_ne_nil _ _, hc, hcs, _, .text lead, ?_⟩, ?_⟩
  · cases cs with
    | nil => exact .inr ⟨rfl, rfl⟩
    | cons d ds => exact .inl rfl
  · rw [List.length_singleton, Nat.cast_one, Int.sub_self, Int.zero_add]
    rfl

/-- **The text of chosen digits stands for their number**, whatever the layout. -/
theorem exists_written_render (layout : Layout) (s : Scientific) :
    ∃ whole fraction k, Written (layout.render s) whole fraction k ∧
      digitsValue (whole ++ fraction) (whole.length - 1 + k) = s.value := by
  have hne : digitsOf s.digits ≠ [] := Nat.toDigits_ne_nil
  have hstripped := (exists_stripZeros hne).1
  have hdigits := isDigit_stripZeros hne fun c hc => isDigit_digitsOf hc
  rw [← digitsValue_digitsOf, ← digitsValue_stripZeros hne, Layout.render]
  split
  · obtain ⟨whole, fraction, hwritten, hvalue⟩ :=
      exists_written_positional layout.wholePoint hstripped hdigits
        (s.exponent + (digitsOf s.digits).length - 1)
    exact ⟨whole, fraction, 0, hwritten, hvalue⟩
  · obtain ⟨whole, fraction, hwritten, hvalue⟩ :=
      exists_written_scientific hstripped hdigits (s.exponent + (digitsOf s.digits).length - 1)
    exact ⟨whole, fraction, _, hwritten, hvalue⟩

/-! ### Floats and their values -/

/-- The fields of a value, read off its bits. -/
theorem ofBits_cases (bits : Nat) :
    (bits / 2 ^ 52 % 2 ^ 11 = 2047 ∧ bits % 2 ^ 52 = 0 ∧
      Value.ofBits bits = .infinite (bits / 2 ^ 63 % 2 == 1)) ∨
    (bits / 2 ^ 52 % 2 ^ 11 = 2047 ∧ bits % 2 ^ 52 ≠ 0 ∧ Value.ofBits bits = .nan) ∨
    (bits / 2 ^ 52 % 2 ^ 11 = 0 ∧
      Value.ofBits bits = .finite (bits / 2 ^ 63 % 2 == 1) ⟨bits % 2 ^ 52, -1074⟩) ∨
    (0 < bits / 2 ^ 52 % 2 ^ 11 ∧ bits / 2 ^ 52 % 2 ^ 11 < 2047 ∧
      Value.ofBits bits = .finite (bits / 2 ^ 63 % 2 == 1)
        ⟨2 ^ 52 + bits % 2 ^ 52, (bits / 2 ^ 52 % 2 ^ 11 : Nat) - 1075⟩) := by
  rw [Value.ofBits]
  simp only [Nat.pow_eq]
  split
  · rename_i hones
    split
    · rename_i hzero
      exact .inl ⟨hones, hzero, rfl⟩
    · rename_i hzero
      exact .inr (.inl ⟨hones, hzero, rfl⟩)
  · rename_i hones
    split
    · rename_i hzero
      exact .inr (.inr (.inl ⟨hzero, rfl⟩))
    · rename_i hzero
      refine .inr (.inr (.inr ⟨Nat.pos_of_ne_zero hzero, ?_, rfl⟩))
      omega

theorem canonical_of_ofBits {bits : Nat} {negative : Bool} {v : Magnitude}
    (h : Value.ofBits bits = .finite negative v) : v.Canonical := by
  have hfraction : bits % 2 ^ 52 < 2 ^ 52 := Nat.mod_lt _ (by decide)
  rcases ofBits_cases bits with ⟨-, -, heq⟩ | ⟨-, -, heq⟩ | ⟨-, heq⟩ | ⟨hpos, -, heq⟩
  · cases heq.symm.trans h
  · cases heq.symm.trans h
  · obtain ⟨-, rfl⟩ := Value.finite.inj (heq.symm.trans h)
    exact ⟨Nat.lt_trans hfraction (by decide), Int.le_refl _, .inr rfl⟩
  · obtain ⟨-, rfl⟩ := Value.finite.inj (heq.symm.trans h)
    refine ⟨show 2 ^ 52 + bits % 2 ^ 52 < 2 ^ 53 by omega, ?_, .inl (Nat.le_add_right _ _)⟩
    show -1074 ≤ ((bits / 2 ^ 52 % 2 ^ 11 : Nat) : Int) - 1075
    omega

/-- Sign, exponent and fraction make up the bits. -/
theorem eq_of_fields {b b' : Nat} (hb : b < 2 ^ 64) (hb' : b' < 2 ^ 64)
    (hsign : (b / 2 ^ 63 % 2 == 1) = (b' / 2 ^ 63 % 2 == 1))
    (hexponent : b / 2 ^ 52 % 2 ^ 11 = b' / 2 ^ 52 % 2 ^ 11)
    (hfraction : b % 2 ^ 52 = b' % 2 ^ 52) : b = b' := by
  have hsign' : b / 2 ^ 63 % 2 = b' / 2 ^ 63 % 2 := by
    rw [Bool.eq_iff_iff, beq_iff_eq, beq_iff_eq] at hsign
    omega
  omega

theorem fields_of_infinite {bits : Nat} {negative : Bool}
    (h : Value.ofBits bits = .infinite negative) :
    (bits / 2 ^ 63 % 2 == 1) = negative ∧ bits / 2 ^ 52 % 2 ^ 11 = 2047 ∧ bits % 2 ^ 52 = 0 := by
  rcases ofBits_cases bits with ⟨he, hf, heq⟩ | ⟨-, -, heq⟩ | ⟨-, heq⟩ | ⟨-, -, heq⟩
  · exact ⟨Value.infinite.inj (heq.symm.trans h), he, hf⟩
  · cases heq.symm.trans h
  · cases heq.symm.trans h
  · cases heq.symm.trans h

/-- The fields of a finite value; the leading bit tells which exponents are not stored as zero. -/
theorem fields_of_finite {bits : Nat} {negative : Bool} {v : Magnitude}
    (h : Value.ofBits bits = .finite negative v) :
    (bits / 2 ^ 63 % 2 == 1) = negative ∧
      bits / 2 ^ 52 % 2 ^ 11 = (if v.mantissa < 2 ^ 52 then 0 else (v.exponent + 1075).toNat) ∧
      bits % 2 ^ 52 = v.mantissa % 2 ^ 52 := by
  have hfraction : bits % 2 ^ 52 < 2 ^ 52 := Nat.mod_lt _ (by decide)
  rcases ofBits_cases bits with ⟨-, -, heq⟩ | ⟨-, -, heq⟩ | ⟨he, heq⟩ | ⟨-, -, heq⟩
  · cases heq.symm.trans h
  · cases heq.symm.trans h
  · obtain ⟨hsign, rfl⟩ := Value.finite.inj (heq.symm.trans h)
    exact ⟨hsign, he.trans (if_pos hfraction).symm, (Nat.mod_mod _ _).symm⟩
  · obtain ⟨hsign, rfl⟩ := Value.finite.inj (heq.symm.trans h)
    refine ⟨hsign, ?_, ?_⟩
    · rw [if_neg (Nat.not_lt.mpr (Nat.le_add_right _ _))]
      show _ = (((bits / 2 ^ 52 % 2 ^ 11 : Nat) : Int) - 1075 + 1075).toNat
      omega
    · rw [Nat.add_mod_left, Nat.mod_mod]

/-- Values other than NaN determine the bits. -/
theorem ofBits_inj {b b' : Nat} (hb : b < 2 ^ 64) (hb' : b' < 2 ^ 64)
    (h : Value.ofBits b = Value.ofBits b') (hnan : Value.ofBits b ≠ .nan) : b = b' := by
  cases hvalue : Value.ofBits b with
  | nan => exact absurd hvalue hnan
  | infinite negative =>
    obtain ⟨hs, he, hf⟩ := fields_of_infinite hvalue
    obtain ⟨hs', he', hf'⟩ := fields_of_infinite (h.symm.trans hvalue)
    exact eq_of_fields hb hb' (hs.trans hs'.symm) (he.trans he'.symm) (hf.trans hf'.symm)
  | finite negative v =>
    obtain ⟨hs, he, hf⟩ := fields_of_finite hvalue
    obtain ⟨hs', he', hf'⟩ := fields_of_finite (h.symm.trans hvalue)
    exact eq_of_fields hb hb' (hs.trans hs'.symm) (he.trans he'.symm) (hf.trans hf'.symm)

section Model

open Float.Model (Format UnpackedFloat)

/-- All bits of what is no number are known. -/
theorem toBits_of_nan {x : Float} (h : Value.ofFloat x = .nan) :
    x.toBits.toBitVec = UnpackedFloat.packedNaN .binary64 := by
  rcases ofBits_cases x.toBits.toNat with ⟨-, -, heq⟩ | ⟨he, hf, -⟩ | ⟨-, heq⟩ | ⟨-, -, heq⟩
  · cases heq.symm.trans h
  · refine x.toModel.valid.eq_packedNaN ?_ ?_
    · apply BitVec.eq_of_toNat_eq
      simp only [UnpackedFloat.unpackExponent, BitVec.toNat_cast, BitVec.extractLsb_toNat,
        Nat.shiftRight_eq_div_pow]
      exact he
    · intro hzero
      have hmantissa := congrArg BitVec.toNat hzero
      simp only [UnpackedFloat.unpackMantissa, BitVec.toNat_cast, BitVec.extractLsb_toNat,
        Nat.shiftRight_eq_div_pow, Nat.pow_zero, Nat.div_one] at hmantissa
      exact hf hmantissa
  · cases heq.symm.trans h
  · cases heq.symm.trans h

/-- **A float is determined by its value**, also what is no number. -/
theorem ofFloat_injective : Function.Injective Value.ofFloat := by
  intro x y h
  have hbits : x.toBits = y.toBits := by
    by_cases hnan : Value.ofFloat x = .nan
    · have hx := toBits_of_nan hnan
      have hy := toBits_of_nan (h ▸ hnan)
      exact UInt64.toBitVec_inj.mp (hx.trans hy.symm)
    · exact UInt64.toNat_inj.mp (ofBits_inj x.toBits.toNat_lt y.toBits.toNat_lt h hnan)
  obtain ⟨⟨bits, hx⟩⟩ := x
  obtain ⟨⟨bits', hy⟩⟩ := y
  obtain rfl : bits = bits' := hbits
  rfl

end Model

/-! ### Texts of floats -/

/-- Digits, and four other characters. -/
theorem Written.mem {c : Char} (h : Written cs whole fraction k) (hc : c ∈ cs) :
    c.isDigit = true ∨ c ∈ ['.', 'e', '+', '-'] := by
  have hexponent : ∀ {es}, ExponentPart es k → c ∈ es →
      c.isDigit = true ∨ c ∈ ['.', 'e', '+', '-'] := by
    intro es hes hc
    cases hes with
    | none => cases hc
    | text =>
      rw [exponentText, List.mem_cons, List.mem_cons, List.mem_append] at hc
      rcases hc with rfl | rfl | hc | hc
      · exact .inr (by decide)
      · split <;> exact .inr (by decide)
      · rw [List.eq_of_mem_replicate hc]
        exact .inl rfl
      · exact .inl (isDigit_digitsOf hc)
  obtain ⟨es, hes, rfl | ⟨-, rfl⟩⟩ := h.eq_append
  · rw [List.mem_append, List.mem_append, List.mem_cons] at hc
    rcases hc with (hc | rfl | hc) | hc
    · exact .inl (h.isDigit_whole c hc)
    · exact .inr (by decide)
    · exact .inl (h.isDigit_fraction c hc)
    · exact hexponent hes hc
  · rcases List.mem_append.mp hc with hc | hc
    · exact .inl (h.isDigit_whole c hc)
    · exact hexponent hes hc

theorem Written.exists_head (h : Written cs whole fraction k) :
    ∃ c ds, cs = c :: ds ∧ c.isDigit = true := by
  obtain ⟨c, ds, rfl⟩ := List.exists_cons_of_ne_nil h.ne_nil
  have hc := h.isDigit_whole c List.mem_cons_self
  obtain ⟨es, -, rfl | ⟨-, rfl⟩⟩ := h.eq_append
  · exact ⟨c, _, rfl, hc⟩
  · exact ⟨c, _, rfl, hc⟩

/-- The sign of a value; what is no number has none. -/
def Value.negative : Value → Bool
  | .nan => false
  | .infinite negative | .finite negative _ => negative

/-- The text of a value without its sign. -/
def Value.unsigned (magnitude : Magnitude → List Char) : Value → List Char
  | .nan => "nan".toList
  | .infinite _ => "inf".toList
  | .finite _ v => magnitude v

/-- The text of a magnitude in the fewest digits. -/
def shortestChars (v : Magnitude) : List Char := Layout.render ⟨-4, 16, true⟩ v.shortest

theorem exists_written_shortestChars (v : Magnitude) : ∃ whole fraction k,
    Written (shortestChars v) whole fraction k ∧ numberOf (shortestChars v) = v.shortest.value := by
  obtain ⟨whole, fraction, k, hwritten, hvalue⟩ := exists_written_render ⟨-4, 16, true⟩ v.shortest
  exact ⟨whole, fraction, k, hwritten, hwritten.numberOf_eq.trans hvalue⟩

theorem exists_head_shortestChars (v : Magnitude) :
    ∃ c ds, shortestChars v = c :: ds ∧ c.isDigit = true := by
  obtain ⟨whole, fraction, k, hwritten, -⟩ := exists_written_shortestChars v
  exact hwritten.exists_head

/-- **The text of a magnitude determines it**, since it stands for a number that reads back. -/
theorem eq_of_shortestChars {v w : Magnitude} (hv : v.Canonical) (hw : w.Canonical)
    (h : shortestChars v = shortestChars w) : v = w := by
  obtain ⟨-, -, -, -, hnumber⟩ := exists_written_shortestChars v
  obtain ⟨-, -, -, -, hnumber'⟩ := exists_written_shortestChars w
  have hvw : v.shortest.value = w.shortest.value := by
    rw [← hnumber, ← hnumber', h]
  exact Magnitude.eq_of_mem_interval hv hw (Magnitude.shortest_mem hv)
    (hvw ▸ Magnitude.shortest_mem hw)

theorem toList_shortest (x : Float) : (shortest x).toList =
    (if (Value.ofFloat x).negative then ['-'] else []) ++
      (Value.ofFloat x).unsigned shortestChars := by
  rw [shortest]
  cases Value.ofFloat x with
  | nan => rfl
  | infinite negative => cases negative <;> rfl
  | finite negative v => rw [Value.render, String.toList_ofList]; rfl

theorem exists_head_unsigned (u : Value) :
    ∃ c ds, u.unsigned shortestChars = c :: ds ∧ c ≠ '-' ∧ c ≠ '+' := by
  cases u with
  | nan => exact ⟨'n', _, rfl, by decide, by decide⟩
  | infinite => exact ⟨'i', _, rfl, by decide, by decide⟩
  | finite _ v =>
    obtain ⟨c, ds, hcs, hc⟩ := exists_head_shortestChars v
    exact ⟨c, ds, hcs, ne_of_isDigit hc rfl, ne_of_isDigit hc rfl⟩

theorem takeSign_shortest (x : Float) : takeSign (shortest x).toList =
    ((Value.ofFloat x).negative, (Value.ofFloat x).unsigned shortestChars) := by
  obtain ⟨c, ds, hcs, hminus, hplus⟩ := exists_head_unsigned (Value.ofFloat x)
  rw [toList_shortest, hcs]
  cases (Value.ofFloat x).negative with
  | true => rfl
  | false => exact takeSign_eq hminus hplus

theorem shortestChars_ne {c : Char} (hc : c.isDigit = false) (v : Magnitude) (ds : List Char) :
    shortestChars v ≠ c :: ds := by
  obtain ⟨d, es, hes, hd⟩ := exists_head_shortestChars v
  rw [hes]
  exact fun h => ne_of_isDigit hd hc (List.cons.inj h).1

theorem eq_of_unsigned {u u' : Value} (hu : ∀ negative v, u = .finite negative v → v.Canonical)
    (hu' : ∀ negative v, u' = .finite negative v → v.Canonical)
    (hnegative : u.negative = u'.negative)
    (h : u.unsigned shortestChars = u'.unsigned shortestChars) : u = u' := by
  cases u with
  | nan =>
    cases u' with
    | nan => rfl
    | infinite => exact absurd (show "nan".toList = "inf".toList from h) (by decide)
    | finite _ v => exact absurd h.symm (shortestChars_ne rfl v _)
  | infinite =>
    cases u' with
    | nan => exact absurd (show "inf".toList = "nan".toList from h) (by decide)
    | infinite => exact congrArg Value.infinite hnegative
    | finite _ v => exact absurd h.symm (shortestChars_ne rfl v _)
  | finite _ v =>
    cases u' with
    | nan => exact absurd h (shortestChars_ne rfl v _)
    | infinite => exact absurd h (shortestChars_ne rfl v _)
    | finite _ w =>
      exact congrArg₂ Value.finite hnegative
        (eq_of_shortestChars (hu _ v rfl) (hu' _ w rfl) h)

/-- **The shortest text determines the float.** -/
theorem shortest_injective : Function.Injective shortest := by
  intro x y h
  have hsigned := takeSign_shortest x
  rw [h, takeSign_shortest y] at hsigned
  obtain ⟨hnegative, hunsigned⟩ := Prod.mk.inj hsigned
  exact ofFloat_injective (eq_of_unsigned (fun _ _ => canonical_of_ofBits)
    (fun _ _ => canonical_of_ofBits) hnegative.symm hunsigned.symm)

theorem newline_not_mem_shortestChars (v : Magnitude) : '\n' ∉ shortestChars v := by
  obtain ⟨whole, fraction, k, hwritten, -⟩ := exists_written_shortestChars v
  intro hmem
  rcases hwritten.mem hmem with h | h
  · cases h
  · exact absurd h (by decide)

/-- The text of a float is on one line. -/
theorem newline_not_mem_shortest (x : Float) : '\n' ∉ (shortest x).toList := by
  rw [toList_shortest, List.mem_append, not_or]
  constructor
  · split <;> decide
  · cases Value.ofFloat x with
    | nan => exact (by decide : '\n' ∉ "nan".toList)
    | infinite => exact (by decide : '\n' ∉ "inf".toList)
    | finite _ v => exact newline_not_mem_shortestChars v

end Decimal
end Fluxion
