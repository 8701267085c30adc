import Fluxion.Proofs.NumberText

/-!
# Texts cut into tokens

A text is blanks and tokens in turn, and there is one way to see it so, if each token is to be as
long as it can be. Both halves of that are about one token in front of the rest of a text. What is
scanned is the longest token of its class (`Lexer.lexeme_scan`), and the longest token is scanned
(`Lexer.scan_of_lexeme`), because the classes have no first character in common and blanks belong to
none of them.

A lexer is read in three ways, which may be mixed. For each of them it is enough to know which
tokens are still in front of the lexer: a reading takes some of them from the front, and the end of
the text is read when there are none, then and ever after.

## Main definitions

* `Lexer.Lexeme` — a text is the longest token of its class in front of what follows
* `Lexer.Cuts` — a text is blanks and such tokens
* `Lexer.Partition` — a text is divided into tokens, by their positions
* `Lexer.Holds`, `Lexer.Reading.split` — the tokens in front of a lexer, and what a reading takes
* `Lexer.delivered` — what a sequence of readings delivers

## Main results

* `Lexer.tokens_of_cuts`, `Lexer.cuts_tokens` — a text is cut in one way, which is how it is read
* `Lexer.partition_of_cuts` — it is divided by its tokens
* `Lexer.Holds.read`, `Lexer.Holds.delivers` — what one reading and what all of them do
* `Lexer.delivered_partition` — all readings of a text deliver the tokens which divide it, in order
-/

namespace Fluxion

/-! ### Blanks -/

namespace Unicode

/-- Two sets of code points whose ranges lie apart have no code point in common. -/
theorem Ranges.contains_eq_false {ranges ranges' : Ranges} {n : Nat}
    (hapart : ∀ r ∈ ranges, ∀ r' ∈ ranges', r.2 < r'.1 ∨ r'.2 < r.1)
    (hn : ranges.contains n = true) : ranges'.contains n = false := by
  obtain ⟨r, hr, hle, hge⟩ := Ranges.contains_iff.mp hn
  refine Bool.eq_false_iff.mpr fun hn' => ?_
  obtain ⟨r', hr', hle', hge'⟩ := Ranges.contains_iff.mp hn'
  have := hapart r hr r' hr'
  omega

variable {c : Char}

theorem toNat_le_of_isBlank (h : isBlank c = true) (hc : c.toNat < 128) : c.toNat ≤ 32 := by
  obtain ⟨r, hr, hle, hge⟩ := Ranges.contains_iff.mp h
  have hbound : ∀ r ∈ blanks, r.2 ≤ 32 ∨ 128 ≤ r.1 := by decide
  have := hbound r hr
  omega

theorem isLetter_of_isBlank (h : isBlank c = true) : isLetter c = false := by
  rw [isLetter]
  split
  · have hsmall : ∀ n ≤ 32, (Char.ofNat n).isAlpha = false := by decide
    rw [← Char.ofNat_toNat c]
    exact hsmall _ (toNat_le_of_isBlank h ‹_›)
  · exact Ranges.contains_eq_false (by decide +kernel) h

theorem isNumber_of_isBlank (h : isBlank c = true) : isNumber c = false := by
  rw [isNumber]
  split
  · have hsmall : ∀ n ≤ 32, (Char.ofNat n).isDigit = false := by decide
    rw [← Char.ofNat_toNat c]
    exact hsmall _ (toNat_le_of_isBlank h ‹_›)
  · rw [Bool.or_eq_false_iff, Bool.or_eq_false_iff]
    exact ⟨⟨Ranges.contains_eq_false (by decide +kernel) h,
      Ranges.contains_eq_false (by decide +kernel) h⟩,
      Ranges.contains_eq_false (by decide +kernel) h⟩

end Unicode

/-- The position behind a token. -/
def Token.stop (t : Token) : Nat := t.position + t.literal.length

namespace Lexer

open Unicode (isBlank isLetter)

section

variable {c : Char} {k : Token.Kind}

/-- A blank goes on with no token. -/
theorem ends_of_isBlank (h : isBlank c = true) :
    isWordChar c = false ∧ isNumeralChar c = false := by
  constructor
  · have hline : (c == '_') = false := by
      refine beq_eq_false_iff_ne.mpr ?_
      rintro rfl
      exact absurd h (by decide)
    rw [isWordChar, Unicode.isLetter_of_isBlank h, Unicode.isNumber_of_isBlank h, hline]
    rfl
  · refine Bool.eq_false_iff.mpr fun hc => ?_
    rw [(starts_numeral hc).1] at h
    cases h

/-- A sign is neither a blank nor a letter. -/
theorem starts_sign (h : Token.Kind.ofSign? c = some k) :
    isBlank c = false ∧ isLetter c = false := by
  rw [Token.Kind.ofSign?.eq_def] at h
  split at h <;> cases h <;> decide

theorem starts_letter (h : isLetter c = true) :
    isBlank c = false ∧ Token.Kind.ofSign? c = none := by
  constructor
  · refine Bool.eq_false_iff.mpr fun hblank => ?_
    rw [Unicode.isLetter_of_isBlank hblank] at h
    cases h
  · cases hsign : Token.Kind.ofSign? c with
    | none => rfl
    | some k =>
      rw [(starts_sign hsign).2] at h
      cases h

end

/-! ### Tokens that are as long as possible -/

/-- A digit and at most one point: what a run of digits and points needs to be a number. -/
def IsDecimal (cs : List Char) : Prop := (∃ c ∈ cs, c.isDigit = true) ∧ cs.count '.' ≤ 1

/-- `Lexeme k text rest`: in front of `rest`, the text is the longest token of its class, and `k` is
the kind of that token. -/
inductive Lexeme : Token.Kind → List Char → List Char → Prop
  /-- An operator or a parenthesis alone. -/
  | sign {c : Char} {k : Token.Kind} {rest : List Char} (hc : Token.Kind.ofSign? c = some k) :
      Lexeme k [c] rest
  /-- A letter and all letters, numbers and low lines after it. -/
  | word {c : Char} {cs rest : List Char} (hc : isLetter c = true)
      (hcs : ∀ d ∈ cs, isWordChar d = true) (hrest : ∀ d ∈ rest.head?, isWordChar d = false) :
      Lexeme (.ofWord (String.ofList (c :: cs))) (c :: cs) rest
  /-- All digits and points in a row, if they make a number. -/
  | number {cs rest : List Char} (hne : cs ≠ []) (hcs : ∀ d ∈ cs, isNumeralChar d = true)
      (hrest : ∀ d ∈ rest.head?, isNumeralChar d = false) (h : IsDecimal cs) :
      Lexeme .number cs rest
  /-- All digits and points in a row, if they make none. -/
  | malformed {cs rest : List Char} (hne : cs ≠ []) (hcs : ∀ d ∈ cs, isNumeralChar d = true)
      (hrest : ∀ d ∈ rest.head?, isNumeralChar d = false) (h : ¬IsDecimal cs) :
      Lexeme .illegal cs rest
  /-- Any other character alone. -/
  | other {c : Char} {rest : List Char} (hblank : isBlank c = false)
      (hsign : Token.Kind.ofSign? c = none) (hletter : isLetter c = false)
      (hnumeral : isNumeralChar c = false) : Lexeme .illegal [c] rest

/-- `Cuts n cs ts`: the text `cs`, which starts at position `n`, is blanks and the tokens `ts`, each
of them as long as possible. -/
inductive Cuts : Nat → List Char → List Token → Prop
  | nil {n : Nat} {cs : List Char} (hcs : ∀ b ∈ cs, isBlank b = true) : Cuts n cs []
  | cons {n : Nat} {blanks text rest : List Char} {k : Token.Kind} {ts : List Token}
      (hblanks : ∀ b ∈ blanks, isBlank b = true) (htext : Lexeme k text rest)
      (hrest : Cuts (n + blanks.length + text.length) rest ts) :
      Cuts n (blanks ++ (text ++ rest)) (⟨k, String.ofList text, n + blanks.length⟩ :: ts)

variable {c : Char} {cs text rest : List Char} {k : Token.Kind} {ts : List Token} {n : Nat}
  {l : Lexer}

/-- What makes a run of digits and points a number. -/
theorem isDecimal_iff (hne : cs ≠ []) (hcs : ∀ d ∈ cs, isNumeralChar d = true) :
    IsDecimal cs ↔ ¬(1 < cs.count '.' ∨ cs = ['.']) := by
  constructor
  · rintro ⟨⟨d, hd, hdigit⟩, hcount⟩ (hmany | rfl)
    · omega
    · rw [List.mem_singleton.mp hd] at hdigit
      cases hdigit
  · intro hnot
    obtain ⟨hcount, hpoint⟩ := not_or.mp hnot
    refine ⟨by_contra fun hnone => hpoint ?_, Nat.not_lt.mp hcount⟩
    -- without a digit there are points only, and one point at most
    have hpoints : ∀ d ∈ cs, d = '.' := fun d hd => by
      have hd' := hcs d hd
      rw [isNumeralChar, Bool.or_eq_true, beq_iff_eq] at hd'
      exact hd'.resolve_left fun hdigit => hnone ⟨d, hd, hdigit⟩
    have hlength : cs.count '.' = cs.length :=
      List.count_eq_length.mpr fun d hd => (hpoints d hd).symm
    have hone : cs.length = 1 := by
      have := List.length_pos_iff.mpr hne
      omega
    obtain ⟨d, rfl⟩ := List.length_eq_one_iff.mp hone
    rw [hpoints d (List.mem_singleton.mpr rfl)]

theorem numeralKind_eq (hne : cs ≠ []) (hcs : ∀ d ∈ cs, isNumeralChar d = true) :
    (IsDecimal cs → numeralKind cs = .number) ∧ (¬IsDecimal cs → numeralKind cs = .illegal) := by
  rw [isDecimal_iff hne hcs, not_not]
  exact ⟨fun h => if_neg h, fun h => if_pos h⟩

theorem takeWhile_run {p : Char → Bool} (hcs : ∀ d ∈ cs, p d = true)
    (hrest : ∀ d ∈ rest.head?, p d = false) : (cs ++ rest).takeWhile p = cs := by
  rw [List.takeWhile_append_of_pos hcs]
  cases rest with
  | nil => simp
  | cons d rest => rw [List.takeWhile_cons_of_neg (by simp [hrest d rfl]), List.append_nil]

theorem not_of_mem_head?_dropWhile {p : Char → Bool} {d : Char}
    (hd : d ∈ (cs.dropWhile p).head?) : p d = false := by
  have hnot := List.head?_dropWhile_not p cs
  rwa [Option.mem_def.mp hd] at hnot

/-- **What is scanned is the longest token.** -/
theorem lexeme_scan (hblank : isBlank c = false) (cs : List Char) :
    Lexeme (scan c cs).1 ((c :: cs).take (scan c cs).2) ((c :: cs).drop (scan c cs).2) := by
  cases hsign : Token.Kind.ofSign? c with
  | some k => rw [scan_sign hsign]; exact .sign hsign
  | none =>
    cases hletter : isLetter c with
    | true =>
      rw [scan_letter hsign hletter, take_run, drop_run]
      exact .word hletter (fun d hd => List.mem_takeWhile_imp hd) fun d hd =>
        not_of_mem_head?_dropWhile hd
    | false =>
      cases hnumeral : isNumeralChar c with
      | true =>
        have hne : c :: cs.takeWhile isNumeralChar ≠ [] := List.cons_ne_nil _ _
        have hrun : ∀ d ∈ c :: cs.takeWhile isNumeralChar, isNumeralChar d = true := fun d hd =>
          (List.mem_cons.mp hd).elim (fun h => h ▸ hnumeral) fun h => List.mem_takeWhile_imp h
        have hrest : ∀ d ∈ (cs.dropWhile isNumeralChar).head?, isNumeralChar d = false :=
          fun d hd => not_of_mem_head?_dropWhile hd
        obtain ⟨hnumber, hillegal⟩ := numeralKind_eq hne hrun
        rw [scan_numeral hsign hletter hnumeral, take_run, drop_run]
        by_cases h : IsDecimal (c :: cs.takeWhile isNumeralChar)
        · rw [hnumber h]; exact .number hne hrun hrest h
        · rw [hillegal h]; exact .malformed hne hrun hrest h
      | false =>
        rw [scan_other hsign hletter hnumeral]
        exact .other hblank hsign hletter hnumeral

theorem scan_run (hne : cs ≠ []) (hcs : ∀ d ∈ cs, isNumeralChar d = true)
    (hrest : ∀ d ∈ rest.head?, isNumeralChar d = false) :
    ∃ c ds, cs = c :: ds ∧ isBlank c = false ∧
      scan c (ds ++ rest) = (numeralKind cs, cs.length) := by
  obtain ⟨c, ds, rfl⟩ := List.exists_cons_of_ne_nil hne
  obtain ⟨hc, hds⟩ := List.forall_mem_cons.mp hcs
  obtain ⟨hblank, hletter, hsign, -⟩ := starts_numeral hc
  exact ⟨c, ds, rfl, hblank, by rw [scan_numeral hsign hletter hc, takeWhile_run hds hrest]⟩

/-- **The longest token is scanned.** The classes have no character in common to start with. -/
theorem scan_of_lexeme (h : Lexeme k text rest) :
    ∃ c cs, text = c :: cs ∧ isBlank c = false ∧ scan c (cs ++ rest) = (k, text.length) := by
  cases h with
  | @sign c k rest hc => exact ⟨c, [], rfl, (starts_sign hc).1, scan_sign hc _⟩
  | @word c cs rest hc hcs hrest =>
    obtain ⟨hblank, hsign⟩ := starts_letter hc
    exact ⟨c, cs, rfl, hblank, by rw [scan_letter hsign hc, takeWhile_run hcs hrest]⟩
  | number hne hcs hrest h =>
    obtain ⟨c, ds, htext, hblank, hscan⟩ := scan_run hne hcs hrest
    exact ⟨c, ds, htext, hblank, by rw [hscan, (numeralKind_eq hne hcs).1 h]⟩
  | malformed hne hcs hrest h =>
    obtain ⟨c, ds, htext, hblank, hscan⟩ := scan_run hne hcs hrest
    exact ⟨c, ds, htext, hblank, by rw [hscan, (numeralKind_eq hne hcs).2 h]⟩
  | @other c rest hblank hsign hletter hnumeral =>
    exact ⟨c, [], rfl, hblank, scan_other hsign hletter hnumeral _⟩

theorem Lexeme.ne_nil (h : Lexeme k text rest) : text ≠ [] := by
  obtain ⟨c, cs, rfl, -⟩ := scan_of_lexeme h
  exact List.cons_ne_nil c cs

theorem Lexeme.ne_finish (h : Lexeme k text rest) : k ≠ .finish := by
  obtain ⟨c, cs, -, -, hscan⟩ := scan_of_lexeme h
  have hne := scan_ne_finish c (cs ++ rest)
  rwa [hscan] at hne

/-! ### Whole texts -/

/-- The token that is read at the end of a text. -/
def finish (position : Nat) : Token := ⟨.finish, "", position⟩

/-- The position behind the text of a lexer. -/
def stop (l : Lexer) : Nat := l.position + l.rest.length

theorem next_blank (h : ∀ b ∈ l.rest, isBlank b = true) :
    l.next = (finish l.stop, ⟨[], l.stop⟩) := by
  have hdrop : l.rest.dropWhile isBlank = [] := List.dropWhile_eq_nil_iff.mpr h
  have htake : l.rest.takeWhile isBlank = l.rest := List.takeWhile_eq_self_iff.mpr h
  rw [next, hdrop, htake]
  rfl

theorem next_lexeme {blanks : List Char} (hblanks : ∀ b ∈ blanks, isBlank b = true)
    (htext : Lexeme k text rest) :
    next ⟨blanks ++ (text ++ rest), n⟩ = (⟨k, String.ofList text, n + blanks.length⟩,
      ⟨rest, n + blanks.length + text.length⟩) := by
  obtain ⟨c, cs, rfl, hc, hscan⟩ := scan_of_lexeme htext
  have htake : (blanks ++ c :: (cs ++ rest)).takeWhile isBlank = blanks :=
    takeWhile_run hblanks fun d hd => Option.some.inj hd ▸ hc
  have hdrop : (blanks ++ c :: (cs ++ rest)).dropWhile isBlank = c :: (cs ++ rest) := by
    rw [List.dropWhile_append_of_pos hblanks, List.dropWhile_cons_of_neg (by simp [hc])]
  rw [List.cons_append, next, htake, hdrop]
  simp only [hscan]
  rw [← List.cons_append, List.take_left, List.drop_left]

/-- **A text is cut in one way**, which is how it is read. -/
theorem tokens_of_cuts (h : Cuts n cs ts) :
    tokens ⟨cs, n⟩ = (ts, ⟨[], n + cs.length⟩) := by
  induction h with
  | nil hcs => rw [tokens, next_blank hcs]; exact if_pos rfl
  | cons hblanks htext hrest ih =>
    rw [tokens, next_lexeme hblanks htext, if_neg htext.ne_finish, ih]
    simp only [List.length_append, Nat.add_assoc]

/-- By induction on the length: the first token takes at least one character. -/
theorem exists_cuts (cs : List Char) (n : Nat) : ∃ ts, Cuts n cs ts := by
  induction hlength : cs.length using Nat.strongRecOn generalizing cs n with
  | _ m ih =>
    cases hp : piece? cs with
    | none => exact ⟨[], .nil (List.dropWhile_eq_nil_iff.mp (piece?_eq_none.mp hp))⟩
    | some p =>
      obtain ⟨ts, hts⟩ := ih _ (hlength ▸ length_rest_lt hp) p.rest
        (n + p.blanks.length + p.text.length) rfl
      have htext : Lexeme p.kind p.text p.rest := by
        obtain ⟨c, ds, hcs, rfl⟩ := exists_of_piece? hp
        have hc : c ∈ (cs.dropWhile isBlank).head? := by rw [hcs]; rfl
        exact lexeme_scan (not_of_mem_head?_dropWhile hc) ds
      rw [eq_of_piece? hp]
      exact ⟨_, .cons (isBlank_of_mem_blanks hp) htext hts⟩

/-- **What is read of a text is how it is cut.** -/
theorem cuts_tokens (l : Lexer) : Cuts l.position l.rest l.tokens.1 := by
  obtain ⟨ts, hts⟩ := exists_cuts l.rest l.position
  have htokens : l.tokens = (ts, ⟨[], l.stop⟩) := tokens_of_cuts hts
  rwa [htokens]

theorem cuts_tokenize (text : String) : Cuts 0 text.toList (tokenize text) :=
  cuts_tokens (ofText text)

/-- A text that starts with no blank starts with its first token. -/
theorem Cuts.of_head? (h : Cuts n cs ts) (hhead : ∃ c ∈ cs.head?, isBlank c = false) :
    ∃ k text rest ts', cs = text ++ rest ∧ ts = ⟨k, String.ofList text, n⟩ :: ts' ∧
      Lexeme k text rest ∧ Cuts (n + text.length) rest ts' := by
  obtain ⟨c, hc, hblank⟩ := hhead
  cases h with
  | nil hcs =>
    rw [hcs c (List.mem_of_mem_head? hc)] at hblank
    cases hblank
  | @cons _ blanks text rest k ts hblanks htext hrest =>
    cases blanks with
    | nil => exact ⟨k, text, rest, ts, rfl, rfl, htext, hrest⟩
    | cons b blanks =>
      obtain rfl := Option.some.inj hc
      rw [hblanks b List.mem_cons_self] at hblank
      cases hblank

/-! ### The parts of a text -/

/-- The tokens, in order, divide a text into themselves and the blanks between them. -/
structure Partition (text : String) (ts : List Token) : Prop where
  /-- The end of the text is none of them. -/
  ne_finish : ∀ t ∈ ts, t.kind ≠ .finish
  /-- The literal of a token is what the text has at its position. -/
  literal : ∀ t ∈ ts, t.literal.toList = (text.toList.drop t.position).take t.literal.length
  increasing : ts.Pairwise fun t u => t.position < u.position
  /-- A token starts where the one before it stops, or later. -/
  apart : ts.Pairwise fun t u => t.stop ≤ u.position
  /-- What is in no token is blank. -/
  gaps : ∀ i c, text.toList[i]? = some c → (∀ t ∈ ts, i < t.position ∨ t.stop ≤ i) →
    isBlank c = true
  /-- A token is as long as it can be in front of what comes after it. -/
  longest : ∀ t ∈ ts, Lexeme t.kind t.literal.toList (text.toList.drop t.stop)

theorem le_position_of_cuts (h : Cuts n cs ts) : ∀ t ∈ ts, n ≤ t.position := by
  induction h with
  | nil => simp
  | cons hblanks htext hrest ih =>
    refine List.forall_mem_cons.mpr ⟨Nat.le_add_right _ _, fun t ht => ?_⟩
    have := ih t ht
    omega

theorem pairwise_of_cuts (h : Cuts n cs ts) :
    ts.Pairwise fun t u => t.position < u.position ∧ t.stop ≤ u.position := by
  induction h with
  | nil => exact .nil
  | @cons n blanks text rest k ts hblanks htext hrest ih =>
    refine .cons (fun u hu => ?_) ih
    have hle := le_position_of_cuts hrest u hu
    have hpos := List.length_pos_iff.mpr htext.ne_nil
    simp only [Token.stop, String.length_ofList]
    omega

/-- The text from the position of a token on. -/
theorem drop_of_cuts (h : Cuts n cs ts) (before : List Char) (hn : before.length = n) :
    ∀ t ∈ ts, (before ++ cs).drop t.position = t.literal.toList ++ (before ++ cs).drop t.stop ∧
      Lexeme t.kind t.literal.toList ((before ++ cs).drop t.stop) := by
  induction h generalizing before with
  | nil => simp
  | @cons n blanks text rest k ts hblanks htext hrest ih =>
    subst hn
    have hmore := ih (before ++ (blanks ++ text)) (by simp only [List.length_append, Nat.add_assoc])
    rw [List.append_assoc, List.append_assoc] at hmore
    refine List.forall_mem_cons.mpr ⟨?_, hmore⟩
    have hposition : (before ++ (blanks ++ (text ++ rest))).drop (before.length + blanks.length) =
        text ++ rest := by
      rw [← List.append_assoc, ← List.length_append, List.drop_left]
    have hstop : (before ++ (blanks ++ (text ++ rest))).drop
        (before.length + blanks.length + text.length) = rest := by
      rw [← List.drop_drop, hposition, List.drop_left]
    simp only [Token.stop, String.length_ofList, String.toList_ofList, hposition, hstop, true_and]
    exact htext

theorem isBlank_of_cuts (h : Cuts n cs ts) :
    ∀ i c, cs[i]? = some c → (∀ t ∈ ts, n + i < t.position ∨ t.stop ≤ n + i) →
      isBlank c = true := by
  induction h with
  | nil hcs => exact fun i c hc _ => hcs c (List.mem_of_getElem? hc)
  | @cons n blanks text rest k ts hblanks htext hrest ih =>
    intro i c hc hout
    obtain ⟨hfirst, hothers⟩ := List.forall_mem_cons.mp hout
    simp only [Token.stop, String.length_ofList] at hfirst
    rcases hfirst with hbefore | hbehind
    · rw [List.getElem?_append_left (by omega)] at hc
      exact hblanks c (List.mem_of_getElem? hc)
    · rw [List.getElem?_append_right (by omega), List.getElem?_append_right (by omega)] at hc
      refine ih _ c hc fun t ht => ?_
      have := hothers t ht
      omega

/-- **A text that is cut into tokens is divided by them.** -/
theorem partition_of_cuts {text : String} (h : Cuts 0 text.toList ts) : Partition text ts where
  ne_finish t ht := (drop_of_cuts h [] rfl t ht).2.ne_finish
  literal t ht := by
    rw [← List.nil_append text.toList, (drop_of_cuts h [] rfl t ht).1, ← String.length_toList,
      List.take_left]
  increasing := (pairwise_of_cuts h).imp And.left
  apart := (pairwise_of_cuts h).imp And.right
  gaps i c hc hout := isBlank_of_cuts h i c hc (by simpa only [Nat.zero_add] using hout)
  longest t ht := (drop_of_cuts h [] rfl t ht).2

/-! ### Readings -/

/-- What is delivered of tokens that are still to be read from a text which stops at a position, and
which of them then are still to be read. -/
def Reading.split (stop : Nat) : Reading → List Token → List Token × List Token
  | .next, [] => ([finish stop], [])
  | .next, t :: ts => ([t], ts)
  | .withFinish, ts => (ts ++ [finish stop], [])
  | .beforeFinish, ts => (ts, [])

/-- A lexer in front of the tokens `ts`, the text of which stops at a position. -/
def Holds (l : Lexer) (stop : Nat) (ts : List Token) : Prop :=
  Cuts l.position l.rest ts ∧ l.stop = stop

theorem holds_nil (stop : Nat) : Holds ⟨[], stop⟩ stop [] := ⟨.nil (by simp), rfl⟩

theorem holds_next (h : Cuts n cs ts) :
    [(next ⟨cs, n⟩).1] = (Reading.next.split (n + cs.length) ts).1 ∧
      (next ⟨cs, n⟩).2.Holds (n + cs.length) (Reading.next.split (n + cs.length) ts).2 := by
  cases h with
  | nil hcs =>
    rw [next_blank hcs]
    exact ⟨rfl, holds_nil _⟩
  | cons hblanks htext hrest =>
    rw [next_lexeme hblanks htext]
    refine ⟨rfl, hrest, ?_⟩
    simp only [stop, List.length_append, Nat.add_assoc]

/-- **What one reading does.** It delivers tokens from the front, and the lexer is in front of the
others afterwards. -/
theorem Holds.read {stop : Nat} (h : l.Holds stop ts) (r : Reading) :
    (l.read r).1 = (r.split stop ts).1 ∧ (l.read r).2.Holds stop (r.split stop ts).2 := by
  obtain ⟨hcuts, rfl⟩ := h
  have htokens : l.tokens = (ts, ⟨[], l.stop⟩) := tokens_of_cuts hcuts
  cases r with
  | next => exact holds_next hcuts
  | withFinish =>
    have hfinish : next ⟨[], l.stop⟩ = (finish l.stop, ⟨[], l.stop⟩) := next_blank (by simp)
    have hread : l.tokensAndFinish = (ts ++ [finish l.stop], ⟨[], l.stop⟩) := by
      simp only [tokensAndFinish, htokens, hfinish]
    rw [Lexer.read, hread]
    exact ⟨rfl, holds_nil _⟩
  | beforeFinish =>
    rw [Lexer.read, htokens]
    exact ⟨rfl, holds_nil _⟩

/-- `Delivers stop ts ds rest`: of the tokens `ts` all but `rest` were delivered as `ds`, and the
end of the text, any number of times, after the last of them only. -/
def Delivers (stop : Nat) (ts ds rest : List Token) : Prop :=
  ∃ given m, ds = given ++ List.replicate m (finish stop) ∧ ts = given ++ rest ∧ (0 < m → rest = [])

theorem delivers_nil (stop : Nat) (ts : List Token) : Delivers stop ts [] ts :=
  ⟨[], 0, rfl, rfl, nofun⟩

/-- Once the end was delivered there is nothing left to deliver but the end. -/
theorem Delivers.append {stop : Nat} {ds ds' ts' ts'' : List Token} (h : Delivers stop ts ds ts')
    (h' : Delivers stop ts' ds' ts'') : Delivers stop ts (ds ++ ds') ts'' := by
  obtain ⟨given, m, rfl, rfl, hend⟩ := h
  obtain ⟨given', m', rfl, rfl, hend'⟩ := h'
  cases m with
  | zero =>
    refine ⟨given ++ given', m', ?_, (List.append_assoc ..).symm, hend'⟩
    rw [List.replicate_zero, List.append_nil, List.append_assoc]
  | succ m =>
    obtain ⟨rfl, rfl⟩ := List.append_eq_nil_iff.mp (hend m.succ_pos)
    refine ⟨given, m + 1 + m', ?_, rfl, fun _ => rfl⟩
    rw [List.nil_append, List.append_assoc, List.replicate_append_replicate]

theorem delivers_split (stop : Nat) (r : Reading) (ts : List Token) :
    Delivers stop ts (r.split stop ts).1 (r.split stop ts).2 := by
  cases r with
  | next =>
    cases ts with
    | nil => exact ⟨[], 1, rfl, rfl, fun _ => rfl⟩
    | cons t ts => exact ⟨[t], 0, rfl, rfl, nofun⟩
  | withFinish => exact ⟨ts, 1, rfl, (List.append_nil ts).symm, fun _ => rfl⟩
  | beforeFinish => exact ⟨ts, 0, (List.append_nil ts).symm, (List.append_nil ts).symm, nofun⟩

/-- All that a lexer delivers in a sequence of readings. -/
def delivered (l : Lexer) (rs : List Reading) : List Token := (l.readAll rs).flatMap Prod.fst

theorem delivered_cons (l : Lexer) (r : Reading) (rs : List Reading) :
    l.delivered (r :: rs) = (l.read r).1 ++ (l.read r).2.delivered rs := rfl

/-- **What all readings do.** What is still to be read after some of them decides what the next one
delivers. -/
theorem Holds.delivers {stop : Nat} (h : l.Holds stop ts) (rs : List Reading) :
    ∃ rest, Delivers stop ts (l.delivered rs) rest ∧
      ∀ r, l.delivered (rs ++ [r]) = l.delivered rs ++ (r.split stop rest).1 := by
  induction rs generalizing l ts with
  | nil =>
    refine ⟨ts, delivers_nil stop ts, fun r => ?_⟩
    rw [List.nil_append, delivered_cons, (h.read r).1]
    exact List.append_nil _
  | cons r rs ih =>
    obtain ⟨hread, hrest⟩ := h.read r
    obtain ⟨rest, hdelivers, hnext⟩ := ih hrest
    refine ⟨rest, ?_, fun r' => ?_⟩
    · rw [delivered_cons, hread]
      exact (delivers_split stop r ts).append hdelivers
    · rw [List.cons_append, delivered_cons, delivered_cons, hnext, List.append_assoc]

/-- **A text is divided into the tokens that are read of it.** Whatever sequence of readings is
made, it delivers these tokens from the first one on, none of them twice and none left out, and the
end of the text only after the last of them; the next reading goes on where the others stopped. -/
theorem delivered_partition (text : String) :
    Partition text (tokenize text) ∧
    ∀ rs, ∃ given ends rest,
      (ofText text).delivered rs = given ++ List.replicate ends (finish text.length) ∧
      tokenize text = given ++ rest ∧ (0 < ends → rest = []) ∧
      ∀ r, (ofText text).delivered (rs ++ [r]) =
        (ofText text).delivered rs ++ (r.split text.length rest).1 := by
  have hcuts := cuts_tokenize text
  have hholds : (ofText text).Holds text.length (tokenize text) := by
    refine ⟨hcuts, ?_⟩
    rw [stop, ← String.length_toList]
    exact Nat.zero_add _
  refine ⟨partition_of_cuts hcuts, fun rs => ?_⟩
  obtain ⟨rest, ⟨given, ends, hgiven, htokens, hends⟩, hnext⟩ := hholds.delivers rs
  exact ⟨given, ends, rest, hgiven, htokens, hends, hnext⟩

example : (ofText "a 1.2.3").delivered [.next, .next, .withFinish, .next] =
    [⟨.name, "a", 0⟩, ⟨.illegal, "1.2.3", 2⟩, finish 7, finish 7] := by
  decide +kernel

end Lexer

end Fluxion
