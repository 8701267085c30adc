import Fluxion.Expr.Text
import Fluxion.Proofs.Equality
import Fluxion.Proofs.ShortestText

/-!
# An outline determines its expression

An outline has one line for every node and a closing line behind the operands. The lines can be
taken apart again: what stands first tells the kind of the node, and with it how many outlines
of operands follow. So no lines are the outlines of two expressions, and nothing but the lines
is needed to see where an outline ends.

## The first letter

The kinds of nodes have different words, and even the first letters of these words are different.
That is why the text of a constant and the name of a variable do no harm, whatever they look like:
a line starts with the kind, behind the indentation, and the name of a variable ends one character
before the end of the line.

## One text

The lines are joined with newlines, and can be told apart in the text only if there is no newline
within a line. Texts of constants have none. Names of variables in formulas have none either, but an
expression may be made with any name, so here this is a condition.

## Main definitions

* `linesOf` — the lines of a text
* `Expr.Delimited` — the outline can be cut off from whatever stands behind it

## Main results

* `Expr.delimited` — all outlines can be cut off, and determine their expression
* `Expr.outline_succ` — one level more is two blanks more in every line
* `Expr.linesOf_outlineText` — the lines of the text are the lines of the outline
* `Expr.outlineText_determines` — the text determines the expression, at any level
-/

namespace Fluxion

/-- The lines of a text. -/
def linesOf (text : String) : List String := (text.split '\n').toList.map (·.copy)

theorem linesOf_intercalate {lines : List String} (hne : lines ≠ [])
    (h : ∀ line ∈ lines, '\n' ∉ line.toList) : linesOf ("\n".intercalate lines) = lines :=
  (String.toList_split_intercalate h).trans (if_neg hne)

namespace Expr

variable {a b l r l' r' f f' : Expr Float} {k : Int} {xs ys : List String}
  {content content' : String}

/-! ### One line -/

theorem toList_outlineLine (k : Int) (content : String) :
    (outlineLine k content).toList = List.replicate (2 * k).toNat ' ' ++ content.toList := by
  rw [outlineLine, String.toList_append, String.toList_ofList]

theorem outlineLine_inj (h : outlineLine k content = outlineLine k content') :
    content = content' := by
  have hlist := congrArg String.toList h
  rw [toList_outlineLine, toList_outlineLine] at hlist
  exact String.toList_inj.mp (List.append_cancel_left hlist)

/-- One level more is two blanks more, from level zero on. -/
theorem outlineLine_succ (hk : 0 ≤ k) (content : String) :
    outlineLine (k + 1) content = "  " ++ outlineLine k content := by
  have hblanks : (2 * (k + 1)).toNat = 2 + (2 * k).toNat := by omega
  apply String.toList_inj.mp
  rw [toList_outlineLine, hblanks, List.replicate_add, List.append_assoc, String.toList_append,
    toList_outlineLine]
  rfl

theorem newline_not_mem_outlineLine (h : '\n' ∉ content.toList) :
    '\n' ∉ (outlineLine k content).toList := by
  rw [toList_outlineLine, List.mem_append, not_or]
  exact ⟨fun hblank => absurd (List.eq_of_mem_replicate hblank) (by decide), h⟩

/-! ### First lines -/

/-- What the first line of the outline says. -/
def heading : Expr Float → String
  | const c => "Const(" ++ Decimal.shortest c ++ ")"
  | var x => "Var(" ++ x ++ ")"
  | add _ _ => "Add" ++ "("
  | mul _ _ => "Mul" ++ "("
  | pow _ _ => "Pow" ++ "("
  | log _ => "log" ++ "("
  | sin _ => "sin" ++ "("
  | cos _ => "cos" ++ "("

/-- The first letter of the outline, which is different for each kind of node. -/
def initial : Expr Float → Char
  | const _ => 'C'
  | var _ => 'V'
  | add _ _ => 'A'
  | mul _ _ => 'M'
  | pow _ _ => 'P'
  | log _ => 'l'
  | sin _ => 's'
  | cos _ => 'c'

theorem head?_heading (e : Expr Float) : e.heading.toList.head? = some e.initial := by
  cases e with
  | const | var => rw [heading, String.toList_append, String.toList_append]; rfl
  | _ => rw [heading, String.toList_append]; rfl

theorem head?_outline (e : Expr Float) (k : Int) :
    (e.outline k).head? = some (outlineLine k e.heading) := by
  cases e <;> rfl

theorem outline_ne_nil (e : Expr Float) (k : Int) : e.outline k ≠ [] := by
  cases e <;> exact List.cons_ne_nil _ _

theorem heading_eq (h : a.outline k ++ xs = b.outline k ++ ys) : a.heading = b.heading := by
  have hhead := congrArg List.head? h
  rw [List.head?_append, List.head?_append, head?_outline, head?_outline] at hhead
  exact outlineLine_inj (Option.some.inj hhead)

theorem initial_eq (h : a.outline k ++ xs = b.outline k ++ ys) : a.initial = b.initial := by
  have hhead := congrArg (fun s : String => s.toList.head?) (heading_eq h)
  rw [head?_heading, head?_heading] at hhead
  exact Option.some.inj hhead

/-- What stands between the parentheses of a leaf. -/
theorem eq_of_enclosed {left right : String}
    (h : left ++ content ++ right = left ++ content' ++ right) : content = content' := by
  have hlist := congrArg String.toList h
  simp only [String.toList_append, List.append_assoc] at hlist
  exact String.toList_inj.mp (List.append_cancel_right (List.append_cancel_left hlist))

/-! ### Where an outline ends -/

/-- The outline can be cut off from the lines behind it, and then tells the expression. -/
def Delimited (a : Expr Float) : Prop := ∀ (k : Int) (b : Expr Float) (xs ys : List String),
  a.outline k ++ xs = b.outline k ++ ys → a = b ∧ xs = ys

theorem Delimited.operands (hl : l.Delimited) (hr : r.Delimited) {close : String}
    (h : l.outline k ++ r.outline k ++ [close] ++ xs =
      l'.outline k ++ r'.outline k ++ [close] ++ ys) : l = l' ∧ r = r' ∧ xs = ys := by
  simp only [List.append_assoc, List.singleton_append] at h
  obtain ⟨heq, hrest⟩ := hl _ _ _ _ h
  obtain ⟨heq', hclose⟩ := hr _ _ _ _ hrest
  exact ⟨heq, heq', (List.cons.inj hclose).2⟩

theorem Delimited.operand (hf : f.Delimited) {close : String}
    (h : f.outline k ++ [close] ++ xs = f'.outline k ++ [close] ++ ys) : f = f' ∧ xs = ys := by
  simp only [List.append_assoc, List.singleton_append] at h
  obtain ⟨heq, hclose⟩ := hf _ _ _ _ h
  exact ⟨heq, (List.cons.inj hclose).2⟩

/-- **Every outline can be cut off from what stands behind it.** The first letter leaves one kind
of node, and the operands are cut off one after the other. -/
theorem delimited (a : Expr Float) : a.Delimited := by
  induction a with
  | const c =>
    intro k b xs ys h
    have hinitial := initial_eq h
    cases b <;> simp [initial] at hinitial
    obtain rfl := Decimal.shortest_injective (eq_of_enclosed (heading_eq h))
    exact ⟨rfl, (List.cons.inj h).2⟩
  | var x =>
    intro k b xs ys h
    have hinitial := initial_eq h
    cases b <;> simp [initial] at hinitial
    obtain rfl := eq_of_enclosed (heading_eq h)
    exact ⟨rfl, (List.cons.inj h).2⟩
  | add l r ihl ihr | mul l r ihl ihr | pow l r ihl ihr =>
    intro k b xs ys h
    have hinitial := initial_eq h
    cases b <;> simp [initial] at hinitial
    obtain ⟨rfl, rfl, rfl⟩ := ihl.operands ihr (List.cons.inj h).2
    exact ⟨rfl, rfl⟩
  | log f ih | sin f ih | cos f ih =>
    intro k b xs ys h
    have hinitial := initial_eq h
    cases b <;> simp [initial] at hinitial
    obtain ⟨rfl, rfl⟩ := ih.operand (List.cons.inj h).2
    exact ⟨rfl, rfl⟩

theorem outline_injective (k : Int) : Function.Injective (outline k) := fun a b h =>
  (delimited a k b [] [] (congrArg (· ++ []) h)).1

/-! ### Levels -/

theorem outlineBlock_succ (hk : 0 ≤ k) (head : String) (operands : List String) :
    outline.outlineBlock (k + 1) head (operands.map ("  " ++ ·)) =
      (outline.outlineBlock k head operands).map ("  " ++ ·) := by
  simp only [outline.outlineBlock, outlineLine_succ hk, List.map_cons, List.map_append,
    List.map_nil]

/-- **One level more is two blanks more in every line.** -/
theorem outline_succ (hk : 0 ≤ k) (e : Expr Float) :
    e.outline (k + 1) = (e.outline k).map ("  " ++ ·) := by
  induction e generalizing k with
  | const | var => simp only [outline, outlineLine_succ hk, List.map_cons, List.map_nil]
  | add l r ihl ihr | mul l r ihl ihr | pow l r ihl ihr =>
    simp only [outline, ihl (show 0 ≤ k + 1 by omega), ihr (show 0 ≤ k + 1 by omega),
      ← List.map_append, outlineBlock_succ hk]
  | log f ih | sin f ih | cos f ih =>
    simp only [outline, ih (show 0 ≤ k + 1 by omega), outlineBlock_succ hk]

/-! ### The text -/

theorem newline_not_mem_heading {e : Expr Float} (h : ∀ x ∈ e.vars, '\n' ∉ x.toList) :
    '\n' ∉ e.heading.toList := by
  cases e with
  | const c =>
    simp only [heading, String.toList_append, List.mem_append, not_or]
    exact ⟨⟨by decide, Decimal.newline_not_mem_shortest c⟩, by decide⟩
  | var x =>
    simp only [heading, String.toList_append, List.mem_append, not_or]
    exact ⟨⟨by decide, h x (List.mem_singleton.mpr rfl)⟩, by decide⟩
  | _ =>
    rw [heading]
    decide

theorem newline_not_mem_block (hcontent : '\n' ∉ content.toList)
    (h : ∀ line ∈ xs, '\n' ∉ line.toList) :
    ∀ line ∈ outlineLine k content :: (xs ++ [outlineLine k ")"]), '\n' ∉ line.toList :=
  List.forall_mem_cons.mpr ⟨newline_not_mem_outlineLine hcontent, List.forall_mem_append.mpr
    ⟨h, List.forall_mem_singleton.mpr (newline_not_mem_outlineLine (by decide))⟩⟩

/-- No line of an outline has a newline in it, if no variable has one in its name. -/
theorem newline_not_mem_outline {e : Expr Float} (h : ∀ x ∈ e.vars, '\n' ∉ x.toList) (k : Int) :
    ∀ line ∈ e.outline k, '\n' ∉ line.toList := by
  have hheading := newline_not_mem_heading h
  induction e generalizing k with
  | const | var => exact List.forall_mem_singleton.mpr (newline_not_mem_outlineLine hheading)
  | add l r ihl ihr | mul l r ihl ihr | pow l r ihl ihr =>
    obtain ⟨hl, hr⟩ := List.forall_mem_append.mp h
    exact newline_not_mem_block hheading (List.forall_mem_append.mpr
      ⟨ihl hl (k + 1) (newline_not_mem_heading hl), ihr hr (k + 1) (newline_not_mem_heading hr)⟩)
  | log f ih | sin f ih | cos f ih =>
    exact newline_not_mem_block hheading (ih h (k + 1) (newline_not_mem_heading h))

theorem linesOf_outlineText {e : Expr Float} (h : ∀ x ∈ e.vars, '\n' ∉ x.toList) (k : Int) :
    linesOf (e.outlineText k) = e.outline k :=
  linesOf_intercalate (outline_ne_nil e k) (newline_not_mem_outline h k)

theorem outlineText_inj (ha : ∀ x ∈ a.vars, '\n' ∉ x.toList) (hb : ∀ x ∈ b.vars, '\n' ∉ x.toList)
    (h : a.outlineText k = b.outlineText k) : a = b := by
  apply outline_injective k
  rw [← linesOf_outlineText ha, h, linesOf_outlineText hb]

theorem linesOf_outlineText_succ (ha : ∀ x ∈ a.vars, '\n' ∉ x.toList) (hk : 0 ≤ k) :
    linesOf (a.outlineText (k + 1)) = (linesOf (a.outlineText k)).map ("  " ++ ·) := by
  rw [linesOf_outlineText ha, linesOf_outlineText ha, outline_succ hk]

/-- **The text of an outline determines the expression**, and at one level more every line has two
blanks more. Expressions with one text are the same, and so they pass the test for structural
equality if their constants are equal to themselves. -/
theorem outlineText_determines (a b : Expr Float) (ha : ∀ x ∈ a.vars, '\n' ∉ x.toList)
    (hb : ∀ x ∈ b.vars, '\n' ∉ x.toList) (k : Int) :
    (a.outlineText k = b.outlineText k →
      a = b ∧ ((∀ c, const c ∈ a.nodes → (c == c) = true) → (a == b) = true)) ∧
    (0 ≤ k → linesOf (a.outlineText (k + 1)) = (linesOf (a.outlineText k)).map ("  " ++ ·)) := by
  refine ⟨fun h => ?_, linesOf_outlineText_succ ha⟩
  obtain rfl := outlineText_inj ha hb h
  exact ⟨rfl, fun hnan => (equal_self fun g hg c hc => hnan c (hc ▸ hg)).beq⟩

/-- The outlines of a sum and of a product of one and a variable with a parenthesis for a name. -/
theorem outlineText_determines_sum :
    let sum : Expr Float := add (const 1) (var ")")
    let product : Expr Float := mul (const 1) (var ")")
    sum.outlineText 0 ≠ product.outlineText 0 ∧ (sum == sum) = true ∧
      linesOf (sum.outlineText 0) = ["Add(", "  Const(1.0)", "  Var())", ")"] ∧
      linesOf (sum.outlineText 1) = ["  Add(", "    Const(1.0)", "    Var())", "  )"] := by
  intro sum product
  have hsum : ∀ x ∈ sum.vars, '\n' ∉ x.toList := List.forall_mem_singleton.mpr (by decide)
  have hproduct : ∀ x ∈ product.vars, '\n' ∉ x.toList := List.forall_mem_singleton.mpr (by decide)
  have hne : sum ≠ product := by simp [sum, product]
  have hnan : ∀ c, const c ∈ sum.nodes → (c == c) = true := by
    intro c hc
    obtain rfl : c = 1 := by simpa [sum, nodes] using hc
    decide
  have hzero : linesOf (sum.outlineText 0) = ["Add(", "  Const(1.0)", "  Var())", ")"] := by
    rw [linesOf_outlineText hsum]
    decide +kernel
  obtain ⟨hdifferent, -⟩ := outlineText_determines sum product hsum hproduct 0
  obtain ⟨hsame, hlines⟩ := outlineText_determines sum sum hsum hsum 0
  refine ⟨fun h => ?_, (hsame rfl).2 hnan, hzero, ?_⟩
  · exact hne (hdifferent h).1
  · exact (hlines (Int.le_refl 0)).trans (congrArg (List.map ("  " ++ ·)) hzero)

end Expr

end Fluxion
