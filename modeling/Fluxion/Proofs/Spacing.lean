import Fluxion.Proofs.Cuts
import Fluxion.Proofs.Relabelling

/-!
# Blanks between tokens

Blanks part tokens and mean nothing else. The tokens of a text may be written again with other
blanks around them, as long as two tokens that were parted are parted again.

For the tokens it is enough to look at what comes right behind each of them. That is a blank, which
goes on with no token, or the first character of the token which came there before. So each token
is still as long as it can be, and a text is cut into tokens in one way only (`Lexer.Cuts`).

The parser does not look at positions, so it gives the same answer to the new tokens, or stops with
the same fault in front of as many of them. Which token that is can be told from their number alone,
and the position of an error is where that token starts.

## Main definitions

* `Lexer.weave`, `Lexer.Spacing` — tokens with other blanks around them
* `Lexer.startOf` — where the token with a certain number starts
* `Alike` — the same result, or the same error at the token with the same number

## Main results

* `Lexer.cuts_weave` — tokens remain when blanks change
* `Fault.Within.alike`, `Formula.Answers.alike` — faults and answers that differ in positions only
  are met at the same token
* `Formula.parse_weave` — formulas and statements do not depend on blanks
-/

namespace Fluxion

/-- What a token is read as: its kind and its text. -/
def Token.word (t : Token) : Token.Kind × String := (t.kind, t.literal)

/-- A token that is nowhere. -/
def Token.bare (t : Token) : Token := { t with position := 0 }

theorem Token.keeps_bare : Token.Keeps Token.bare := fun _ => ⟨rfl, rfl⟩

theorem Token.map_bare {ts us : List Token} (h : us.map word = ts.map word) :
    us.map bare = ts.map bare := by
  have hbare : ∀ vs : List Token, vs.map bare = (vs.map word).map fun w => ⟨w.1, w.2, 0⟩ :=
    fun vs => by rw [List.map_map]; rfl
  rw [hbare, hbare, h]

namespace Lexer

open Unicode (isBlank)

variable {n : Nat} {cs text rest rest' : List Char} {k : Token.Kind} {ts : List Token}
  {gap : Nat → List Char}

/-- The texts of tokens in order, with `gap i` in front of token `i` and the last gap behind all of
them. -/
def weave (gap : Nat → List Char) : List Token → List Char
  | [] => gap 0
  | t :: ts => gap 0 ++ (t.literal.toList ++ weave (fun i => gap (i + 1)) ts)

/-- Blanks for the gaps between tokens, with at least one of them where the tokens are not side by
side. -/
structure Spacing (ts : List Token) (gap : Nat → List Char) : Prop where
  blank : ∀ i, ∀ b ∈ gap i, isBlank b = true
  parted : ∀ i t u, ts[i]? = some t → ts[i + 1]? = some u → t.stop < u.position → gap (i + 1) ≠ []

theorem Spacing.tail {t : Token} (h : Spacing (t :: ts) gap) : Spacing ts fun i => gap (i + 1) where
  blank i := h.blank (i + 1)
  parted i := h.parted (i + 1)

/-- The longest token remains the longest before any text that does not go on with it. -/
theorem Lexeme.detach (h : Lexeme k text rest) (hd : Detached rest rest') :
    Lexeme k text rest' := by
  cases h with
  | sign hc => exact .sign hc
  | word hc hcs hrest =>
    exact .word hc hcs fun d hd' => (hd d hd').elim (hrest d) And.left
  | number hne hcs hrest h =>
    exact .number hne hcs (fun d hd' => (hd d hd').elim (hrest d) And.right) h
  | malformed hne hcs hrest h =>
    exact .malformed hne hcs (fun d hd' => (hd d hd').elim (hrest d) And.right) h
  | other hblank hsign hletter hnumeral => exact .other hblank hsign hletter hnumeral

/-- Behind a token, other blanks may stand before the next one. If there are none, there were none
before, and the next token starts with the same character. -/
theorem detached_weave (h : Cuts n cs ts) (hblank : ∀ b ∈ gap 0, isBlank b = true)
    (hparted : ∀ t ∈ ts.head?, n < t.position → gap 0 ≠ []) : Detached cs (weave gap ts) := by
  intro c hc
  cases hgap : gap 0 with
  | cons b bs =>
    have hb : b = c := by cases h <;> simpa [weave, hgap] using hc
    exact .inr (ends_of_isBlank (hblank c (by rw [hgap, hb]; exact List.mem_cons_self)))
  | nil =>
    cases h with
    | nil => simp [weave, hgap] at hc
    | @cons n blanks text rest k ts hblanks htext hrest =>
      have hblanks : blanks = [] := by
        by_contra hne
        exact hparted _ rfl (Nat.lt_add_of_pos_right (List.length_pos_iff.mpr hne)) hgap
      obtain ⟨d, ds, rfl⟩ := List.exists_cons_of_ne_nil htext.ne_nil
      rw [weave, hgap, String.toList_ofList] at hc
      rw [hblanks]
      exact .inl hc

/-- **Tokens remain when blanks change**, by induction on the cuts of the text. -/
theorem cuts_weave (h : Cuts n cs ts) (hgap : Spacing ts gap) (m : Nat) :
    ∃ us, Cuts m (weave gap ts) us ∧ us.map Token.word = ts.map Token.word := by
  induction h generalizing gap m with
  | nil => exact ⟨[], .nil (hgap.blank 0), rfl⟩
  | @cons n blanks text rest k ts hblanks htext hrest ih =>
    obtain ⟨us, hus, hwords⟩ := ih hgap.tail (m + (gap 0).length + text.length)
    have hdetached : Detached rest (weave (fun i => gap (i + 1)) ts) := by
      refine detached_weave hrest (hgap.blank 1) fun u hu => ?_
      have hparted := hgap.parted 0 _ u rfl (by rwa [List.head?_eq_getElem?] at hu)
      rwa [Token.stop, String.length_ofList] at hparted
    refine ⟨⟨k, String.ofList text, m + (gap 0).length⟩ :: us, ?_, ?_⟩
    · rw [weave, String.toList_ofList]
      exact .cons (hgap.blank 0) (htext.detach hdetached) hus
    · rw [List.map_cons, hwords]
      rfl

/-- Where a token of a text starts, the end being the last one. -/
def startOf (text : String) (i : Nat) : Nat :=
  ((tokenize text)[i]?.map Token.position).getD text.length

end Lexer

/-- The same error at another position. -/
def ParseError.placed (position : Nat) : ParseError → ParseError
  | illegal literal _ => illegal literal position
  | unexpected expected found _ => unexpected expected found position
  | tooDeep => tooDeep

/-- `Alike s t x y`: the text `s` has the answer `x` and the text `t` the answer `y`, which is the
same result, or the same error at the token with the same number. -/
inductive Alike {β : Type} (s t : String) : Except ParseError β → Except ParseError β → Prop
  | ok (b : β) : Alike s t (.ok b) (.ok b)
  | error (e : ParseError) (i : Nat) (hi : i ≤ (Lexer.tokenize s).length) :
      Alike s t (.error (e.placed (Lexer.startOf s i))) (.error (e.placed (Lexer.startOf t i)))

theorem Alike.map {β γ : Type} {s t : String} {x y : Except ParseError β} (g : β → γ)
    (h : Alike s t x y) : Alike s t (x.map g) (y.map g) := by
  cases h with
  | ok b => exact .ok (g b)
  | error e i hi => exact .error e i hi

/-- The reason for an error without its position, and its position. -/
theorem Fault.toParseError_unexpected (finish : Nat) (expected : Expected) (rest : List Token) :
    (Fault.unexpected expected rest).toParseError finish =
      (((Fault.unexpected expected rest).map Token.bare).toParseError 0).placed
        ((rest.head?.map Token.position).getD finish) := by
  cases rest with
  | nil => rfl
  | cons t rest =>
    rw [map, List.map_cons, toParseError, toParseError]
    by_cases ht : t.kind = .illegal
    · rw [if_pos ht, if_pos (show t.bare.kind = .illegal from ht)]
      rfl
    · rw [if_neg ht, if_neg (show ¬t.bare.kind = .illegal from ht)]
      rfl

namespace Lexer

variable {text : String} {rest : List Token}

/-- Where the text of the tokens at the end of a text starts. -/
theorem startOf_of_suffix (h : rest <:+ tokenize text) :
    startOf text ((tokenize text).length - rest.length) =
      (rest.head?.map Token.position).getD text.length := by
  obtain ⟨before, h⟩ := h
  have hlength : (before ++ rest).length - rest.length = before.length := by
    rw [List.length_append, Nat.add_sub_cancel]
  rw [startOf, ← h, hlength, List.getElem?_append_right (Nat.le_refl _), Nat.sub_self,
    List.head?_eq_getElem?]

end Lexer

/-- Faults that are the same but for the positions of tokens are met at the same token, if the texts
have as many: what is left of the tokens tells at which of them a fault was met. -/
theorem Fault.Within.alike {β : Type} {s t : String} {n n' : Nat} {e e' : Fault}
    (he : e.Within n (Lexer.tokenize s)) (he' : e'.Within n' (Lexer.tokenize t))
    (hlength : (Lexer.tokenize t).length = (Lexer.tokenize s).length)
    (h : e'.map Token.bare = e.map Token.bare) :
    Alike (β := β) s t (.error (e.toParseError s.length)) (.error (e'.toParseError t.length)) := by
  cases e with
  | tooDeep =>
    cases e' with
    | tooDeep => exact .error .tooDeep 0 (Nat.zero_le _)
    | unexpected expected' rest' => cases h
  | unexpected expected rest =>
    cases e' with
    | tooDeep => cases h
    | unexpected expected' rest' =>
      have hrest : rest'.length = rest.length := by
        have hmap := congrArg List.length (Fault.unexpected.inj h).2
        rwa [List.length_map, List.length_map] at hmap
      have halike : Alike (β := β) s t _ _ :=
        .error (((Fault.unexpected expected rest).map Token.bare).toParseError 0)
          ((Lexer.tokenize s).length - rest.length) (Nat.sub_le _ _)
      rw [Lexer.startOf_of_suffix he, ← hlength, ← hrest, Lexer.startOf_of_suffix he',
        ← Fault.toParseError_unexpected, ← h, ← Fault.toParseError_unexpected] at halike
      exact halike

namespace Formula

open Lexer (tokenize weave Spacing)

/-- The same of answers. -/
theorem Answers.alike {β : Type} {s t : String} {n n' : Nat} {x y : Except Fault β}
    {post post' : β → Prop} (hx : Answers n (tokenize s) post x)
    (hy : Answers n' (tokenize t) post' y)
    (hlength : (tokenize t).length = (tokenize s).length)
    (h : y.mapError (Fault.map Token.bare) = x.mapError (Fault.map Token.bare)) :
    Alike s t (x.mapError (Fault.toParseError s.length))
      (y.mapError (Fault.toParseError t.length)) := by
  cases x with
  | ok b =>
    cases y with
    | ok c => obtain rfl := Except.ok.inj h; exact .ok c
    | error e' => cases h
  | error e =>
    cases y with
    | ok c => cases h
    | error e' => exact Fault.Within.alike hx hy hlength (Except.error.inj h)

/-- Tokens at the end of two texts are parsed alike if they differ in positions only. -/
theorem alike_complete {s t : String} {ts us : List Token} (hts : ts <:+ tokenize s)
    (hus : us <:+ tokenize t) (hlength : (tokenize t).length = (tokenize s).length)
    (h : us.map Token.bare = ts.map Token.bare) (n : Nat) :
    Alike s t ((complete n ts).mapError (Fault.toParseError s.length))
      ((complete n us).mapError (Fault.toParseError t.length)) := by
  refine ((answers_complete n ts).of_suffix hts).alike ((answers_complete n us).of_suffix hus)
    hlength ?_
  rw [← complete_map Token.keeps_bare, ← complete_map Token.keeps_bare, h]

/-- **Blanks do not matter.** When the tokens of a text are written again in order, with any blanks
before, between and after them, and with at least one blank where there was one, the new text has
the same tokens but for their positions. It is the same formula and the same statement as before,
or it has the same error at the token with the same number. -/
theorem parse_weave {s t : String} {gap : Nat → List Char} (hgap : Spacing (tokenize s) gap)
    (ht : t.toList = weave gap (tokenize s)) :
    (tokenize t).map Token.word = (tokenize s).map Token.word ∧
      Alike s t (Formula.parse s) (Formula.parse t) ∧
      Alike s t (Statement.parse s) (Statement.parse t) := by
  obtain ⟨us, hcuts, hwords⟩ := Lexer.cuts_weave (Lexer.cuts_tokens (Lexer.ofText s)) hgap 0
  have htokens : us = tokenize t := by
    rw [tokenize, Lexer.ofText, ht]
    exact (congrArg Prod.fst (Lexer.tokens_of_cuts hcuts)).symm
  subst htokens
  have hlength : (tokenize t).length = (tokenize s).length := by
    have hmap := congrArg List.length hwords
    rwa [List.length_map, List.length_map] at hmap
  have hbare : (tokenize t).map Token.bare = (tokenize s).map Token.bare := Token.map_bare hwords
  refine ⟨hwords, alike_complete (List.suffix_refl _) (List.suffix_refl _) hlength hbare _, ?_⟩
  -- a statement has the same name, and what is behind it differs in positions only
  have hsplit := Statement.splitName_map Token.keeps_bare (tokenize t)
  rw [hbare, Statement.splitName_map Token.keeps_bare] at hsplit
  obtain ⟨hname, hrest⟩ := Prod.mk.inj hsplit
  rw [Statement.parse_eq, Statement.parse_eq, hname]
  exact (alike_complete (Statement.splitName_suffix _) (Statement.splitName_suffix _) hlength
    hrest.symm _).map _

/-- Two numbers that would be one if they were not parted. -/
theorem parse_weave_tabs : Spacing (tokenize "1 .5") (List.replicate · '\t') ∧
    "1\t.5\t\t".toList = weave (List.replicate · '\t') (tokenize "1 .5") ∧
    (tokenize "1\t.5\t\t").map Token.word = (tokenize "1 .5").map Token.word ∧
    Alike "1 .5" "1\t.5\t\t" (Formula.parse "1 .5") (Formula.parse "1\t.5\t\t") ∧
    Alike "1 .5" "1\t.5\t\t" (Statement.parse "1 .5") (Statement.parse "1\t.5\t\t") := by
  have hgap : Spacing (tokenize "1 .5") (List.replicate · '\t') :=
    ⟨fun i b hb => by rw [List.eq_of_mem_replicate hb]; decide,
      fun i _ _ _ _ _ => List.cons_ne_nil _ _⟩
  have ht : "1\t.5\t\t".toList = weave (List.replicate · '\t') (tokenize "1 .5") := by
    decide +kernel
  exact ⟨hgap, ht, parse_weave hgap ht⟩

end Formula

end Fluxion
