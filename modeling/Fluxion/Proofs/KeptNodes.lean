import Fluxion.Node.Simplify
import Fluxion.Proofs.Equality
import Fluxion.Proofs.Sharing

/-!
# Nodes that pruning keeps

Pruning returns the node itself just when it has nothing to change: the result has the identity of
the source if and only if it has its structure.

## Two ways to a copy

A rule that fires gives a node of less weight than the source, and structurally equal expressions
are equally heavy. So the results that could be copies are those of a node that is made anew over
its pruned operands, and this is done only when an operand has changed. That a changed operand is
no copy of the old one is the induction hypothesis; so is not the new node.

## Identities

Two identities that are equal must come from one node. What pruning puts in the place of a node
comes from below its operands, or its identity comes from the counter. The first has another
identity because identities are coherent, and the second because the counter is past those in use.

## Main definitions

* `Node.Replaces` — a node in the place of another one
* `Node.Settles` — what pruning a node comes to
* `Node.Combines` — what becomes of a node over two pruned operands

## Main results

* `Node.settles_prune` — what pruning comes to, whatever the node is
* `Node.simplify?_keeps` — a node is kept just when it is structurally unchanged
-/

namespace Fluxion

namespace Node

variable {α : Type} [Coefficient α] {u v w l r s : Node α} {next next' n n' : Nat}
  {l' r' p' : Pruned α}

omit [Coefficient α] in
theorem weight_slot_lt {role : String} (hs : (role, v) ∈ u.slots) :
    v.erase.weight < u.erase.weight := by
  cases u with
  | const | var => cases hs
  | add i l r | mul i l r | pow i l r =>
    obtain ⟨-, rfl⟩ | ⟨-, rfl⟩ : (role = _ ∧ v = l) ∨ role = _ ∧ v = r := by
      simpa [slots] using hs
    all_goals simp only [erase, Expr.weight]; omega
  | log i f | sin i f | cos i f =>
    obtain ⟨-, rfl⟩ : role = _ ∧ v = f := by simpa [slots] using hs
    have hpos := v.erase.weight_pos
    simp only [erase, Expr.weight]
    omega

/-! ### Computations that take identities -/

omit [Coefficient α] in
theorem bind_eq_some {β γ : Type} {m : Mint? β} {k : β → Mint? γ} {c : γ}
    (h : (m >>= k) next = some (c, n')) : ∃ b n, m next = some (b, n) ∧ k b n = some (c, n') := by
  change ((m next).bind fun x => k x.1 x.2) = _ at h
  obtain ⟨⟨b, n⟩, hm, hk⟩ := Option.bind_eq_some_iff.mp h
  exact ⟨b, n, hm, hk⟩

omit [Coefficient α] in
/-- A node is pruned to the node of what pruning makes of it. -/
theorem simplify?_eq_some [Coefficient α] (h : u.simplify? next = some (s, n)) :
    ∃ p, prune u next = some (p, n) ∧ s = p.node u := by
  obtain ⟨p, n, hp, h⟩ := bind_eq_some h
  cases h
  exact ⟨p, hp, rfl⟩

/-- Pruning never makes a node heavier. -/
theorem weight_node_le (h : prune u next = some (p', n)) :
    (p'.node u).erase.weight ≤ u.erase.weight := by
  refine Expr.weight_le_of_simplify? ?_
  rw [← makes_prune u next, h]
  rfl

/-! ### What pruning comes to -/

/-- A node in the place of another one, where new identities are taken from `next` on. It is not
structurally equal to the other one, and it comes from below the operands of the other one or is
new. -/
structure Replaces (next : Nat) (u v : Node α) : Prop where
  changed : ¬ v.erase.Equal u.erase
  origin : (∃ s ∈ u.slots, v ∈ s.2.nodes) ∨ next ≤ v.key

/-- What pruning a node comes to: it takes identities from the counter, and if it gives another
node, then one that replaces the first. -/
structure Settles (u : Node α) (next : Nat) (p : Pruned α) (next' : Nat) : Prop where
  le : next ≤ next'
  replaces : ∀ v, p = .other v → Replaces next u v

theorem Settles.same (u : Node α) (hle : next ≤ next') : Settles u next .same next' :=
  ⟨hle, nofun⟩

theorem Settles.other (hle : next ≤ next') (h : Replaces next u v) :
    Settles u next (.other v) next' :=
  ⟨hle, fun _ hv => Pruned.other.inj hv ▸ h⟩

/-- A lighter node is not structurally equal. -/
theorem Replaces.of_weight_lt (hlt : v.erase.weight < u.erase.weight)
    (horigin : (∃ s ∈ u.slots, v ∈ s.2.nodes) ∨ next ≤ v.key) : Replaces next u v :=
  ⟨fun h => Nat.ne_of_lt hlt h.weight_eq, horigin⟩

/-- What an operand is pruned to comes from below the operands, or is new. -/
theorem Settles.origin {role : String} (h : Settles l next l' next') (hl : (role, l) ∈ u.slots) :
    (∃ s ∈ u.slots, l'.node l ∈ s.2.nodes) ∨ next ≤ (l'.node l).key := by
  cases l' with
  | same => exact .inl ⟨_, hl, l.mem_nodes_self⟩
  | other v =>
    refine (h.replaces v rfl).origin.imp_left fun ⟨s, hs, hv⟩ => ?_
    exact ⟨_, hl, nodes_subset_of_slot hs hv⟩

/-- An operand that was made anew is not structurally equal to the old one. -/
theorem Settles.eq_same (h : Settles l next l' next') (hequal : (l'.node l).erase.Equal l.erase) :
    l' = .same := by
  cases l' with
  | same => rfl
  | other v => exact absurd hequal (h.replaces v rfl).changed

/-! ### One node -/

/-- What becomes of a node over operands that are pruned to `p` and `q`. -/
inductive Combines (make : Nat → Node α) (p q : Node α) (l' r' : Pruned α) (next : Nat) :
    Pruned α → Nat → Prop where
  | constant (c : α) : Combines make p q l' r' next (.other (const next c)) (next + 1)
  | left : Combines make p q l' r' next (.other p) next
  | right : Combines make p q l' r' next (.other q) next
  | kept (hl : l' = .same) (hr : r' = .same) : Combines make p q l' r' next .same next
  | remade (h : ¬ (l' = .same ∧ r' = .same)) :
    Combines make p q l' r' next (.other (make next)) (next + 1)

section Rules

variable {make : Nat → Node α} {p q : Node α}

omit [Coefficient α] in
theorem combines_rebuild (h : rebuild make l' r' n = some (p', n')) :
    Combines make p q l' r' n p' n' := by
  cases l' with
  | same =>
    cases r' with
    | same =>
      cases h
      exact .kept rfl rfl
    | other w =>
      cases h
      exact .remade fun h => nomatch h.2
  | other w =>
    cases h
    exact .remade fun h => nomatch h.1

theorem combines_pruneAdd (h : pruneAdd p q l' r' n = some (p', n')) :
    Combines (add · p q) p q l' r' n p' n' := by
  unfold pruneAdd at h
  split_ifs at h
  · cases h
    exact .constant 0
  · cases h
    exact .right
  · cases h
    exact .left
  · exact combines_rebuild h

theorem combines_pruneMul (h : pruneMul p q l' r' n = some (p', n')) :
    Combines (mul · p q) p q l' r' n p' n' := by
  unfold pruneMul at h
  split_ifs at h
  · cases h
    exact .constant 0
  · cases h
    exact .right
  · cases h
    exact .left
  · exact combines_rebuild h

theorem combines_prunePow (h : prunePow p q l' r' n = some (p', n')) :
    Combines (pow · p q) p q l' r' n p' n' := by
  unfold prunePow at h
  split_ifs at h
  · cases h
  · cases h
    exact .constant 1
  · cases h
    exact .constant 0
  · cases h
    exact .left
  · exact combines_rebuild h

end Rules

/-- What a computation makes of a node settles the node. -/
def Settling (u : Node α) (m : Mint? (Pruned α)) : Prop :=
  ∀ next p' next', m next = some (p', next') → Settles u next p' next'

/-- Two operands are pruned and then combined by a rule. A node made anew over what they are pruned
to is structurally equal to the old one only if they are to the operands. -/
theorem settling_operands (make : Nat → Node α → Node α → Node α) {a b : String}
    {rule : Node α → Node α → Pruned α → Pruned α → Mint? (Pruned α)}
    (hrule : ∀ {p q l' r' n p' n'}, rule p q l' r' n = some (p', n') →
      Combines (make · p q) p q l' r' n p' n')
    (hl : (a, l) ∈ u.slots) (hr : (b, r) ∈ u.slots) (hkey : ∀ i p q, (make i p q).key = i)
    (hequal : ∀ i p q, (make i p q).erase.Equal u.erase →
      p.erase.Equal l.erase ∧ q.erase.Equal r.erase)
    (ihl : Settling l (prune l)) (ihr : Settling r (prune r)) :
    Settling u (prune l >>= fun l' => prune r >>= fun r' => rule (l'.node l) (r'.node r) l' r') := by
  intro next p' next' h
  obtain ⟨l', n, hprune, h⟩ := bind_eq_some h
  obtain ⟨r', n', hprune', h⟩ := bind_eq_some h
  have hsettles := ihl next l' n hprune
  have hsettles' := ihr n r' n' hprune'
  have hle : next ≤ n' := Nat.le_trans hsettles.le hsettles'.le
  have hlight := weight_slot_lt hl
  cases hrule h with
  | constant c =>
    have hpos := l.erase.weight_pos
    refine .other (Nat.le_succ_of_le hle) (.of_weight_lt ?_ (.inr hle))
    simp only [erase, Expr.weight]
    omega
  | left =>
    have hlt := Nat.lt_of_le_of_lt (weight_node_le hprune) hlight
    exact .other hle (.of_weight_lt hlt (hsettles.origin hl))
  | right =>
    have hlt := Nat.lt_of_le_of_lt (weight_node_le hprune') (weight_slot_lt hr)
    refine .other hle (.of_weight_lt hlt ?_)
    exact (hsettles'.origin hr).imp_right (Nat.le_trans hsettles.le)
  | kept => exact .same u hle
  | remade hchanged =>
    -- a copy of the old node would have copies of its operands, and these were kept
    refine .other (Nat.le_succ_of_le hle) ⟨fun hnode => hchanged ?_, ?_⟩
    · obtain ⟨hl, hr⟩ := hequal n' _ _ hnode
      exact ⟨hsettles.eq_same hl, hsettles'.eq_same hr⟩
    · exact .inr ((hkey n' _ _).symm ▸ hle)

/-- The same for one operand. -/
theorem settling_operand (make : Nat → Node α → Node α) (hkey : ∀ i p, (make i p).key = i)
    (hequal : ∀ i p, (make i p).erase.Equal u.erase → p.erase.Equal l.erase)
    (ih : Settling l (prune l)) :
    Settling u (prune l >>= fun l' => rebuildFunction (make · (l'.node l)) l') := by
  intro next p' next' h
  obtain ⟨l', n, hprune, h⟩ := bind_eq_some h
  have hsettles := ih next l' n hprune
  cases l' with
  | same =>
    cases h
    exact .same u hsettles.le
  | other w =>
    cases h
    refine .other (Nat.le_succ_of_le hsettles.le) ⟨fun hnode => ?_, ?_⟩
    · cases hsettles.eq_same (hequal n _ hnode)
    · exact .inr ((hkey n _).symm ▸ hsettles.le)

/-- A node that is taken apart settles as what it is taken apart into, if that is lighter and its
nodes come from below the operands or are new. -/
theorem Settles.rewrite (hle : next ≤ n) (hlt : w.erase.weight < u.erase.weight)
    (hnodes : ∀ v ∈ w.nodes, (∃ s ∈ u.slots, v ∈ s.2.nodes) ∨ next ≤ v.key)
    (ih : Settling w (prune w)) (hprune : prune w n = some (p', n')) :
    Settles u next (.other (p'.node w)) n' := by
  have h := ih n p' n' hprune
  refine .other (Nat.le_trans hle h.le)
    (.of_weight_lt (Nat.lt_of_le_of_lt (weight_node_le hprune) hlt) ?_)
  cases p' with
  | same => exact hnodes w w.mem_nodes_self
  | other v =>
    rcases (h.replaces v rfl).origin with ⟨s, hs, hv⟩ | hnew
    · exact hnodes v (nodes_subset_of_slot hs hv)
    · exact .inr (Nat.le_trans hle hnew)

/-! ### Whole nodes -/

omit [Coefficient α] in
theorem nodes_logOfPow {i j : Nat} {b e : Node α} (hv : v ∈ (logOfPow next b e).nodes) :
    (∃ s ∈ (log i (pow j b e)).slots, v ∈ s.2.nodes) ∨ next ≤ v.key := by
  simp only [logOfPow, nodes, List.mem_cons, List.mem_append] at hv
  obtain rfl | he | rfl | hb := hv
  · exact .inr (Nat.le_succ next)
  · exact .inl ⟨_, List.mem_cons_self, by simp [nodes, he]⟩
  · exact .inr (Nat.le_refl next)
  · exact .inl ⟨_, List.mem_cons_self, by simp [nodes, hb]⟩

omit [Coefficient α] in
theorem nodes_logOfMul {i j : Nat} {p q : Node α} (hv : v ∈ (logOfMul next p q).nodes) :
    (∃ s ∈ (log i (mul j p q)).slots, v ∈ s.2.nodes) ∨ next ≤ v.key := by
  simp only [logOfMul, nodes, List.mem_cons, List.mem_append] at hv
  obtain rfl | (rfl | hp) | rfl | hq := hv
  · exact .inr (Nat.le_add_right next 2)
  · exact .inr (Nat.le_refl next)
  · exact .inl ⟨_, List.mem_cons_self, by simp [nodes, hp]⟩
  · exact .inr (Nat.le_succ next)
  · exact .inl ⟨_, List.mem_cons_self, by simp [nodes, hq]⟩

/-- What pruning comes to, whatever the node is. -/
theorem settles_prune (u : Node α) : Settling u (prune u) := by
  fun_induction prune u with
  | case1 i c =>
    rintro next p' next' ⟨⟩
    exact .same _ (Nat.le_refl _)
  | case2 i x =>
    rintro next p' next' ⟨⟩
    exact .same _ (Nat.le_refl _)
  | case3 i l r ihl ihr =>
    refine settling_operands add combines_pruneAdd (a := "L") (b := "R") (by simp [slots])
      (by simp [slots]) (fun _ _ _ => rfl) (fun i p q h => ?_) ihl ihr
    cases h with
    | add hl hr => exact ⟨hl, hr⟩
  | case4 i l r ihl ihr =>
    refine settling_operands mul combines_pruneMul (a := "L") (b := "R") (by simp [slots])
      (by simp [slots]) (fun _ _ _ => rfl) (fun i p q h => ?_) ihl ihr
    cases h with
    | mul hl hr => exact ⟨hl, hr⟩
  | case5 i b e ihb ihe =>
    refine settling_operands pow combines_prunePow (a := "base") (b := "exp") (by simp [slots])
      (by simp [slots]) (fun _ _ _ => rfl) (fun i p q h => ?_) ihb ihe
    cases h with
    | pow hb he => exact ⟨hb, he⟩
  | case6 i j b e ih =>
    intro next p' next' h
    obtain ⟨⟨q', n⟩, hq, h⟩ := Option.map_eq_some_iff.mp h
    cases h
    exact .rewrite (Nat.le_add_right _ _) (Expr.weight_logOfPow_lt b.erase e.erase)
      (fun v hv => nodes_logOfPow hv) (ih next) hq
  | case7 i j p q ih =>
    intro next p' next' h
    obtain ⟨⟨q', n⟩, hq, h⟩ := Option.map_eq_some_iff.mp h
    cases h
    exact .rewrite (Nat.le_add_right _ _) (Expr.weight_logOfMul_lt p.erase q.erase)
      (fun v hv => nodes_logOfMul hv) (ih next) hq
  | case8 i f hpow hmul ih =>
    refine settling_operand log (fun _ _ => rfl) (fun i p h => ?_) ih
    cases h with
    | log hf => exact hf
  | case9 i f ih =>
    refine settling_operand sin (fun _ _ => rfl) (fun i p h => ?_) ih
    cases h with
    | sin hf => exact hf
  | case10 i f ih =>
    refine settling_operand cos (fun _ _ => rfl) (fun i p h => ?_) ih
    cases h with
    | cos hf => exact hf

omit [Coefficient α] in
theorem nodes_erase (u : Node α) : u.erase.nodes = u.nodes.map erase := by
  induction u with
  | const i c | var i x => rfl
  | add i l r ihl ihr | mul i l r ihl ihr | pow i l r ihl ihr =>
    rw [erase, Expr.nodes, ihl, ihr, nodes, List.map_cons, List.map_append, erase]
  | log i f ih | sin i f ih | cos i f ih =>
    rw [erase, Expr.nodes, ih, nodes, List.map_cons, erase]

/-- A node without NaN is structurally equal to itself. -/
theorem equal_self (h : ∀ i c, const i c ∈ u.nodes → (c == c) = true) : u.erase.Equal u.erase := by
  refine Expr.equal_self fun g hg c hc => ?_
  subst hc
  rw [nodes_erase] at hg
  obtain ⟨v, hv, hconst⟩ := List.mem_map.mp hg
  cases v with
  | const i c' =>
    cases hconst
    exact h i c hv
  | _ => cases hconst

/-- What replaces a node has another identity. -/
theorem Replaces.key_ne (h : Replaces next u v) (hu : u.Coherent) (hnew : u.key < next) :
    v.key ≠ u.key := by
  rcases h.origin with ⟨s, hs, hv⟩ | hle
  · exact hu.key_ne hs hv
  · exact (Nat.lt_of_lt_of_le hnew hle).ne'

/-- A node is pruned if its expression is, whatever the counter says. -/
theorem exists_simplify?_of_erase {e : Expr α} (h : u.erase.simplify? = some e) (next : Nat) :
    ∃ s next', u.simplify? next = some (s, next') ∧ s.erase = e := by
  rw [← erase_simplify? u next] at h
  obtain ⟨⟨s, next'⟩, hs, he⟩ := Option.map_eq_some_iff.mp h
  exact ⟨s, next', hs, he⟩

/-- **Pruning keeps a node just when nothing changes.** Let the identities below a node be coherent,
its own not one that the counter will give, and none of its constants NaN. Then pruning, if it
comes to a result, returns the node itself if and only if the result is structurally equal to the
node; an equal identity means that it is the node. And what it returns depends on the structure of
the node alone: a node with the same expression, whatever it shares, is pruned to one with the same
expression, and a structurally equal node to a structurally equal one. -/
theorem simplify?_keeps [LawfulEquality α] (hu : u.Coherent) (hnew : u.key < next)
    (hnan : ∀ i c, const i c ∈ u.nodes → (c == c) = true)
    (h : u.simplify? next = some (s, next')) :
    (s.key = u.key ↔ (s.erase == u.erase) = true) ∧ (s.key = u.key → s = u) ∧
      (∀ (v : Node α) (n : Nat), v.erase = u.erase →
        ∃ t n', v.simplify? n = some (t, n') ∧ t.erase = s.erase) ∧
      ∀ (v : Node α) (n : Nat), (v.erase == u.erase) = true →
        ∃ t n', v.simplify? n = some (t, n') ∧ (t.erase == s.erase) = true := by
  have hs : u.erase.simplify? = some s.erase := by
    rw [← erase_simplify? u next, h]
    rfl
  obtain ⟨p, hp, rfl⟩ := simplify?_eq_some h
  have hsettles := settles_prune u _ _ _ hp
  have hkept : (p.node u).key = u.key ↔ p = .same := by
    refine ⟨fun hkey => ?_, fun hsame => hsame ▸ rfl⟩
    cases p with
    | same => rfl
    | other w => exact absurd hkey ((hsettles.replaces w rfl).key_ne hu hnew)
  have hequal : (p.node u).erase.Equal u.erase ↔ p = .same :=
    ⟨hsettles.eq_same, fun hsame => hsame ▸ equal_self hnan⟩
  refine ⟨hkept.trans (hequal.symm.trans Expr.equal_iff_beq), fun hkey => ?_, fun v n hv => ?_,
    fun v n hv => ?_⟩
  · rw [hkept.mp hkey]
    rfl
  · exact exists_simplify?_of_erase (hv ▸ hs) n
  · obtain ⟨e, he, hequal⟩ := (Expr.equal_of_beq hv).symm.simplify? hs
    obtain ⟨t, n', ht, rfl⟩ := exists_simplify?_of_erase he n
    exact ⟨t, n', ht, hequal.symm.beq⟩

/-- The square of one variable plus one is kept, and a node that has the square of two different
variables of the same name is pruned to the same expression. -/
theorem simplify?_keeps_square :
    let x : Node Float := .var 2 "x"
    let u : Node Float := .add 0 (.mul 1 x x) (.const 3 1)
    let v : Node Float := .add 4 (.mul 5 x (.var 6 "x")) (.const 7 1)
    u.Coherent ∧ u.simplify? 4 = some (u, 4) ∧ (u.erase == u.erase) = true ∧
      ∃ t n, v.simplify? 8 = some (t, n) ∧ t.erase = u.erase := by
  intro x u v
  have hcoherent : u.Coherent := by simp [Coherent, u, x, nodes, key]
  have hnan : ∀ i c, const i c ∈ u.nodes → (c == c) = true := by
    intro i c hc
    obtain ⟨-, rfl⟩ : i = 3 ∧ c = 1 := by simpa [u, x, nodes] using hc
    exact LawfulEquality.one_beq_one
  have hone : ((1 : Float) == 0) = false := by decide
  have hprune : prune u = pure .same := by
    simp only [u, x, prune, pure_bind, pruneMul, pruneAdd, Pruned.node, erase, Expr.isZero,
      Expr.isOne, hone]
    rfl
  have hsimplify : u.simplify? 4 = some (u, 4) := by
    rw [simplify?, hprune]
    rfl
  obtain ⟨hiff, -, hshared, -⟩ := simplify?_keeps hcoherent (by decide) hnan hsimplify
  exact ⟨hcoherent, hsimplify, hiff.mp rfl, hshared v 8 rfl⟩

end Node

end Fluxion
