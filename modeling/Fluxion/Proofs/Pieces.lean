import Fluxion.Proofs.TokenText

/-!
# Texts in pieces

A text is a sequence of pieces, each of them a token with the blanks before it. What a lexer reads
of a piece does not depend on where the text starts, and hardly on what comes after the piece: the
only thing that matters is whether the next character would go on with the token.

So texts can be cut and put together again between pieces, as long as no two tokens grow into one.
Parentheses never let that happen. This is used to replace a name in a text by another text in
parentheses: token by token, that is a replacement in the list of tokens.

## Main definitions

* `Lexer.Piece`, `Lexer.piece?` — the first piece of a text
* `Lexer.words` — the kinds and texts of the tokens of a text
* `Lexer.Detached` — a text that does not go on with the token before it
* `Lexer.replaceName` — a text in which a name is replaced

## Main results

* `Lexer.map_tokens` — the tokens that a lexer delivers, but for their positions
* `Lexer.words_append` — the tokens of a text in two parts
* `Lexer.words_replaceName` — the tokens after a name is replaced
-/

namespace Fluxion

namespace Lexer

open Unicode (isBlank isLetter)

variable {cs ds xs : List Char} {c : Char} {k : Token.Kind}

/-! ### Pieces -/

/-- A token of a text, the blanks before it, and the text after it. -/
structure Piece where
  blanks : List Char
  kind : Token.Kind
  text : List Char
  rest : List Char

/-- The first piece of a text, unless only blanks are left. -/
def piece? (cs : List Char) : Option Piece :=
  match cs.dropWhile isBlank with
  | [] => none
  | c :: ds =>
    some ⟨cs.takeWhile isBlank, (scan c ds).1, (c :: ds).take (scan c ds).2,
      (c :: ds).drop (scan c ds).2⟩

variable {p : Piece}

theorem piece?_eq_none : piece? cs = none ↔ cs.dropWhile isBlank = [] := by
  rw [piece?]
  split <;> simp_all

theorem piece?_cons (h : cs.dropWhile isBlank = c :: ds) :
    piece? cs = some ⟨cs.takeWhile isBlank, (scan c ds).1, (c :: ds).take (scan c ds).2,
      (c :: ds).drop (scan c ds).2⟩ := by
  rw [piece?, h]

theorem exists_of_piece? (h : piece? cs = some p) :
    ∃ c ds, cs.dropWhile isBlank = c :: ds ∧ p = ⟨cs.takeWhile isBlank, (scan c ds).1,
      (c :: ds).take (scan c ds).2, (c :: ds).drop (scan c ds).2⟩ := by
  cases hcs : cs.dropWhile isBlank with
  | nil => rw [piece?_eq_none.mpr hcs] at h; cases h
  | cons c ds => exact ⟨c, ds, rfl, Option.some.inj (h.symm.trans (piece?_cons hcs))⟩

/-- A text is its first piece and what comes after it. -/
theorem eq_of_piece? (h : piece? cs = some p) : cs = p.blanks ++ (p.text ++ p.rest) := by
  obtain ⟨c, ds, hcs, rfl⟩ := exists_of_piece? h
  simp only [List.take_append_drop]
  rw [← hcs, List.takeWhile_append_dropWhile]

theorem isBlank_of_mem_blanks (h : piece? cs = some p) : ∀ b ∈ p.blanks, isBlank b = true := by
  obtain ⟨c, ds, -, rfl⟩ := exists_of_piece? h
  exact fun b hb => List.mem_takeWhile_imp (l := cs) (p := isBlank) hb

theorem text_ne_nil (h : piece? cs = some p) : p.text ≠ [] := by
  obtain ⟨c, ds, -, rfl⟩ := exists_of_piece? h
  have hpos := scan_length_pos c ds
  exact fun hnil => absurd (List.take_eq_nil_iff.mp hnil) (by simp [hpos.ne'])

theorem length_rest_lt (h : piece? cs = some p) : p.rest.length < cs.length := by
  obtain ⟨c, ds, hcs, rfl⟩ := exists_of_piece? h
  have hpos := scan_length_pos c ds
  have hle := (List.dropWhile_sublist isBlank (l := cs)).length_le
  rw [hcs] at hle
  simp only [List.length_drop, List.length_cons] at hle ⊢
  omega

/-! ### What a lexer delivers -/

/-- The kinds and texts of the tokens of a text. -/
def words (cs : List Char) : List (Token.Kind × String) :=
  match _h : piece? cs with
  | none => []
  | some p => (p.kind, String.ofList p.text) :: words p.rest
termination_by cs.length
decreasing_by exact length_rest_lt ‹_›

theorem words_of_none (h : piece? cs = none) : words cs = [] := by
  rw [words]
  split <;> simp_all

theorem words_of_some (h : piece? cs = some p) :
    words cs = (p.kind, String.ofList p.text) :: words p.rest := by
  rw [words]
  split <;> simp_all

theorem ofWord_ne_finish (word : String) : Token.Kind.ofWord word ≠ .finish := by
  rw [Token.Kind.ofWord]
  split
  · decide
  · split <;> simp

theorem numeralKind_ne_finish (literal : List Char) : numeralKind literal ≠ .finish := by
  rw [numeralKind]
  split <;> decide

/-- The end is not read from any character. -/
theorem scan_ne_finish (c : Char) (cs : List Char) : (scan c cs).1 ≠ .finish := by
  rw [scan]
  split
  · rename_i k hk
    rw [Token.Kind.ofSign?.eq_def] at hk
    split at hk <;> cases hk <;> decide
  · split
    · exact ofWord_ne_finish _
    · split
      · exact numeralKind_ne_finish _
      · decide

theorem next_of_none {l : Lexer} (h : piece? l.rest = none) : l.next.1.kind = .finish := by
  rw [next, piece?_eq_none.mp h]

theorem next_of_some {l : Lexer} (h : piece? l.rest = some p) :
    l.next.1.kind = p.kind ∧ l.next.1.literal = String.ofList p.text ∧ l.next.2.rest = p.rest ∧
      p.kind ≠ .finish := by
  obtain ⟨c, ds, hcs, rfl⟩ := exists_of_piece? h
  rw [next, hcs]
  exact ⟨rfl, rfl, rfl, scan_ne_finish c ds⟩

/-- The tokens that a lexer delivers, but for their positions. -/
theorem map_tokens (l : Lexer) :
    l.tokens.1.map (fun t => (t.kind, t.literal)) = words l.rest := by
  fun_induction tokens l with
  | case1 l hfinish =>
    cases hp : piece? l.rest with
    | none => rw [words_of_none hp]; rfl
    | some p =>
      obtain ⟨hkind, -, -, hne⟩ := next_of_some hp
      exact absurd (hkind.symm.trans hfinish) hne
  | case2 l hne ts last hrest ih =>
    cases hp : piece? l.rest with
    | none => exact absurd (next_of_none hp) hne
    | some p =>
      obtain ⟨hkind, hliteral, hnext, -⟩ := next_of_some hp
      rw [hrest, hnext] at ih
      rw [List.map_cons, ih, words_of_some hp, hkind, hliteral]

/-! ### Pieces that are moved -/

/-- A text that may stand in the place of `rest`, behind a token: it starts with the same
character, or with one that goes on with no token. -/
def Detached (rest ds : List Char) : Prop :=
  ∀ c ∈ ds.head?, c ∈ rest.head? ∨ (isWordChar c = false ∧ isNumeralChar c = false)

theorem takeWhile_detached {q : Char → Bool}
    (hq : ∀ c, isWordChar c = false ∧ isNumeralChar c = false → q c = false)
    (h : Detached (cs.dropWhile q) ds) : (cs.takeWhile q ++ ds).takeWhile q = cs.takeWhile q := by
  rw [List.takeWhile_append_of_pos fun d hd => List.mem_takeWhile_imp hd]
  cases ds with
  | nil => simp
  | cons d ds =>
    have hd : q d = false := by
      rcases h d rfl with hd | hd
      · have hnot := List.head?_dropWhile_not q cs
        rwa [Option.mem_def.mp hd] at hnot
      · exact hq d hd
    rw [List.takeWhile_cons_of_neg (by simp [hd]), List.append_nil]

/-- What is left behind a longest run of characters. -/
theorem drop_run (q : Char → Bool) (c : Char) (cs : List Char) :
    (c :: cs).drop (c :: cs.takeWhile q).length = cs.dropWhile q := by
  have hsplit := List.takeWhile_append_dropWhile (p := q) (l := cs)
  rw [List.length_cons, List.drop_succ_cons]
  exact (congrArg (List.drop _) hsplit.symm).trans List.drop_left

theorem scan_sign (hsign : Token.Kind.ofSign? c = some k) (cs : List Char) :
    scan c cs = (k, 1) := by
  rw [scan, hsign]

theorem scan_letter (hsign : Token.Kind.ofSign? c = none) (hletter : isLetter c = true)
    (cs : List Char) : scan c cs = (.ofWord (String.ofList (c :: cs.takeWhile isWordChar)),
      (c :: cs.takeWhile isWordChar).length) := by
  rw [scan, hsign]
  exact if_pos hletter

theorem scan_numeral (hsign : Token.Kind.ofSign? c = none) (hletter : isLetter c = false)
    (hnumeral : isNumeralChar c = true) (cs : List Char) :
    scan c cs = (numeralKind (c :: cs.takeWhile isNumeralChar),
      (c :: cs.takeWhile isNumeralChar).length) := by
  rw [scan, hsign]
  exact (if_neg (Bool.eq_false_iff.mp hletter)).trans (if_pos hnumeral)

theorem scan_other (hsign : Token.Kind.ofSign? c = none) (hletter : isLetter c = false)
    (hnumeral : isNumeralChar c = false) (cs : List Char) : scan c cs = (.illegal, 1) := by
  rw [scan, hsign]
  exact (if_neg (Bool.eq_false_iff.mp hletter)).trans (if_neg (Bool.eq_false_iff.mp hnumeral))

/-- A token is read alike before any text that does not go on with it. -/
theorem scan_detached (h : Detached ((c :: cs).drop (scan c cs).2) ds) :
    ∃ xs, (c :: cs).take (scan c cs).2 = c :: xs ∧ (scan c cs).2 = (c :: xs).length ∧
      scan c (xs ++ ds) = scan c cs := by
  cases hsign : Token.Kind.ofSign? c with
  | some k =>
    have hscan := scan_sign hsign
    exact ⟨[], by rw [hscan]; rfl, by rw [hscan]; rfl, by rw [hscan, hscan]⟩
  | none =>
    cases hletter : isLetter c with
    | true =>
      have hscan := scan_letter hsign hletter
      rw [hscan, drop_run] at h
      refine ⟨cs.takeWhile isWordChar, by rw [hscan, take_run], by rw [hscan], ?_⟩
      rw [hscan, hscan, takeWhile_detached (fun c hc => hc.1) h]
    | false =>
      cases hnumeral : isNumeralChar c with
      | true =>
        have hscan := scan_numeral hsign hletter hnumeral
        rw [hscan, drop_run] at h
        refine ⟨cs.takeWhile isNumeralChar, by rw [hscan, take_run], by rw [hscan], ?_⟩
        rw [hscan, hscan, takeWhile_detached (fun c hc => hc.2) h]
      | false =>
        have hscan := scan_other hsign hletter hnumeral
        exact ⟨[], by rw [hscan]; rfl, by rw [hscan]; rfl, by rw [hscan, hscan]⟩

/-- A text that starts with blanks and a character that is none. -/
theorem piece?_blanks (hxs : ∀ b ∈ xs, isBlank b = true) (hc : isBlank c = false)
    (cs : List Char) : piece? (xs ++ c :: cs) =
      some ⟨xs, (scan c cs).1, (c :: cs).take (scan c cs).2, (c :: cs).drop (scan c cs).2⟩ := by
  have hdrop : (xs ++ c :: cs).dropWhile isBlank = c :: cs := by
    rw [List.dropWhile_append_of_pos hxs, List.dropWhile_cons_of_neg (by simp [hc])]
  have htake : (xs ++ c :: cs).takeWhile isBlank = xs := by
    rw [List.takeWhile_append_of_pos hxs, List.takeWhile_cons_of_neg (by simp [hc]),
      List.append_nil]
  rw [piece?_cons hdrop, htake]

theorem piece?_detached (h : piece? cs = some p) (hds : Detached p.rest ds) :
    piece? (p.blanks ++ (p.text ++ ds)) = some { p with rest := ds } := by
  obtain ⟨c, rest, hcs, rfl⟩ := exists_of_piece? h
  obtain ⟨xs, htext, hlength, hscan⟩ := scan_detached hds
  have hc : isBlank c = false := by
    have hnot := List.head?_dropWhile_not isBlank cs
    rwa [hcs] at hnot
  have hpiece := piece?_blanks (fun b hb => List.mem_takeWhile_imp (l := cs) (p := isBlank) hb) hc
    (xs ++ ds)
  simp only [htext]
  rw [List.cons_append, hpiece, hscan, hlength, ← List.cons_append, List.take_left, List.drop_left]

/-! ### Texts in two parts -/

/-- Blanks before a text belong to none of its tokens. -/
theorem words_blank_append (hxs : ∀ b ∈ xs, isBlank b = true) : words (xs ++ cs) = words cs := by
  have hdrop : (xs ++ cs).dropWhile isBlank = cs.dropWhile isBlank :=
    List.dropWhile_append_of_pos hxs
  cases hcs : cs.dropWhile isBlank with
  | nil =>
    rw [words_of_none (piece?_eq_none.mpr hcs),
      words_of_none (piece?_eq_none.mpr (hdrop.trans hcs))]
  | cons c ds => rw [words_of_some (piece?_cons hcs), words_of_some (piece?_cons (hdrop.trans hcs))]

/-- A sign is a token by itself, whatever comes after it. -/
theorem words_sign (hsign : Token.Kind.ofSign? c = some k) (hc : isBlank c = false)
    (cs : List Char) : words (c :: cs) = (k, String.ofList [c]) :: words cs := by
  have hblanks : ∀ b ∈ ([] : List Char), isBlank b = true := by simp
  have hpiece := piece?_blanks hblanks hc cs
  rw [scan_sign hsign] at hpiece
  exact words_of_some hpiece

/-- The tokens of a text in two parts, the second of which starts with a character that goes on
with no token. -/
theorem words_append
    (hds : ∀ c ∈ ds.head?, isWordChar c = false ∧ isNumeralChar c = false) (cs : List Char) :
    words (cs ++ ds) = words cs ++ words ds := by
  induction hn : cs.length using Nat.strongRecOn generalizing cs with
  | _ n ih =>
    cases hp : piece? cs with
    | none =>
      rw [words_of_none hp, List.nil_append]
      exact words_blank_append (by simpa using piece?_eq_none.mp hp)
    | some p =>
      have hdetached : Detached p.rest (p.rest ++ ds) := by
        intro c hc
        cases hrest : p.rest with
        | nil => exact .inr (hds c (by simpa [hrest] using hc))
        | cons d rest => exact .inl (by simpa [hrest] using hc)
      have hpiece := piece?_detached hp hdetached
      have hrest := ih _ (hn ▸ length_rest_lt hp) p.rest rfl
      rw [words_of_some hp, List.cons_append, ← hrest]
      conv => lhs; rw [eq_of_piece? hp, List.append_assoc, List.append_assoc]
      rw [words_of_some hpiece]

/-! ### Replacing a name -/

/-- A text in which every token that is the name `a` is replaced by `inner` in parentheses. -/
def replaceName (a : String) (inner : List Char) (l : Lexer) : List Char :=
  if l.next.1.kind = .finish then l.rest
  else
    l.rest.takeWhile isBlank
      ++ (if l.next.1.kind = .name ∧ l.next.1.literal = a then '(' :: (inner ++ [')'])
        else l.next.1.literal.toList)
      ++ replaceName a inner l.next.2
termination_by l.rest.length
decreasing_by exact length_rest_next_lt ‹_›

variable {a : String} {inner : List Char} {l : Lexer}

theorem replaceName_of_none (h : piece? l.rest = none) : replaceName a inner l = l.rest := by
  rw [replaceName, if_pos (next_of_none h)]

theorem replaceName_of_some (h : piece? l.rest = some p) :
    replaceName a inner l = p.blanks ++
      ((if p.kind = .name ∧ String.ofList p.text = a then '(' :: (inner ++ [')']) else p.text)
        ++ replaceName a inner l.next.2) := by
  obtain ⟨hkind, hliteral, -, hne⟩ := next_of_some h
  have hblanks : p.blanks = l.rest.takeWhile isBlank := by
    obtain ⟨c, ds, -, rfl⟩ := exists_of_piece? h
    rfl
  rw [replaceName, if_neg (hkind ▸ hne), hkind, hliteral, hblanks, String.toList_ofList,
    List.append_assoc]

/-- A text may be replaced by what its names are replaced by, behind any token. -/
theorem detached_replaceName (a : String) (inner : List Char) (l : Lexer) :
    Detached l.rest (replaceName a inner l) := by
  intro c hc
  cases hp : piece? l.rest with
  | none =>
    rw [replaceName_of_none hp] at hc
    exact .inl hc
  | some p =>
    rw [replaceName_of_some hp] at hc
    rw [eq_of_piece? hp]
    cases hblanks : p.blanks with
    | cons b blanks => exact .inl (by simpa [hblanks] using hc)
    | nil =>
      rw [hblanks, List.nil_append] at hc
      split at hc
      · obtain rfl : c = '(' := by simpa using hc.symm
        exact .inr (by decide)
      · obtain ⟨d, text, htext⟩ := List.exists_cons_of_ne_nil (text_ne_nil hp)
        exact .inl (by simpa [htext] using hc)

/-- **The tokens of a text in which a name is replaced**: each of those that are the name is
replaced, and the others stay. -/
theorem words_replaceName (a : String) (inner : List Char) (l : Lexer) :
    words (replaceName a inner l) = (words l.rest).flatMap fun word =>
      if word = (.name, a) then
        (.lparen, "(") :: (words inner ++ [(.rparen, ")")])
      else [word] := by
  induction hn : l.rest.length using Nat.strongRecOn generalizing l with
  | _ n ih =>
    cases hp : piece? l.rest with
    | none => rw [replaceName_of_none hp, words_of_none hp, List.flatMap_nil]
    | some p =>
      obtain ⟨-, -, hnext, -⟩ := next_of_some hp
      have hrest := ih _ (hn ▸ hnext ▸ length_rest_lt hp) l.next.2 rfl
      rw [hnext] at hrest
      rw [replaceName_of_some hp, words_of_some hp, List.flatMap_cons, ← hrest]
      by_cases hname : p.kind = .name ∧ String.ofList p.text = a
      · have hclose : ∀ c ∈ ([')'] ++ replaceName a inner l.next.2).head?,
            isWordChar c = false ∧ isNumeralChar c = false := by
          intro c hc
          obtain rfl : c = ')' := by simpa using hc.symm
          decide
        rw [if_pos hname, if_pos (Prod.ext hname.1 hname.2),
          words_blank_append (isBlank_of_mem_blanks hp), List.cons_append,
          words_sign (k := .lparen) rfl (by decide), List.append_assoc, words_append hclose,
          List.singleton_append, words_sign (k := .rparen) rfl (by decide), List.cons_append,
          List.append_assoc, List.singleton_append]
      · have hdetached := detached_replaceName a inner l.next.2
        rw [hnext] at hdetached
        rw [if_neg hname, if_neg fun h => hname ⟨congrArg Prod.fst h, congrArg Prod.snd h⟩,
          words_of_some (piece?_detached hp hdetached)]
        rfl

example : String.ofList (replaceName "a" "b+1".toList (ofText "2*a ^aa")) = "2*(b+1) ^aa" := by
  decide +kernel

end Lexer

end Fluxion
