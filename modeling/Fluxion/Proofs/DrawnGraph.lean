import Fluxion.Node.Drawing
import Fluxion.Proofs.Sharing
import Mathlib.Data.List.Nodup
import Std.Data.String.ToNat

/-!
# The graph of a drawing

The lines of a drawing are those of a graph: one box for each node, numbered in the order in which
a walk from the left first meets them, and one arrow for each operand of each node.

## The walk and the lines

A line is written once and never changed, but the number in it is looked up among the identities
met so far. An identity keeps its number when more are met after it, so all lines can be read with
the numbers that the finished drawing has. `Drawing.Extends` is stated for every later order for
this reason, and the lines are given by their meaning, a list of marks.

## Nodes that are entered but not finished

When the walk meets a node again it draws nothing, and this is right only if all below that node
was drawn before. It need not be so for the nodes that the walk is inside of: these are met, and
their later operands are not. None of them is met again, for no node is below its own operands.
`Closed` says of the nodes still to come that those among them that were met are finished.

## Main definitions

* `Node.fresh`, `Node.boxes` — the different nodes of a list, and below a node, as first met
* `Node.number` — the number of a node in its drawing
* `Mark` — what a line says
* `Node.DrawnBy` — marks that draw the graph of a node

## Main results

* `Node.draw_eq` — the walk over the operands, whatever the node is
* `Node.draws_draw` — what the walk adds to a drawing
* `Node.nodup_lines` — no two lines are the same
* `Node.dot_graph` — the text of a drawing is that of the graph
-/

namespace Fluxion

namespace Node

variable {α : Type} {u v w : Node α} {vs ws : List (Node α)} {seen : List Nat}

/-! ### Nodes as they are first met -/

/-- The nodes of a list whose identities were not seen, each where it is first met. -/
def fresh : List Nat → List (Node α) → List (Node α)
  | _, [] => []
  | seen, v :: vs => if v.key ∈ seen then fresh seen vs else v :: fresh (seen ++ [v.key]) vs

theorem fresh_cons_of_mem (h : v.key ∈ seen) : fresh seen (v :: vs) = fresh seen vs := if_pos h

theorem fresh_cons_of_not_mem (h : v.key ∉ seen) :
    fresh seen (v :: vs) = v :: fresh (seen ++ [v.key]) vs := if_neg h

theorem fresh_sublist (seen : List Nat) (vs : List (Node α)) : (fresh seen vs).Sublist vs := by
  fun_induction fresh seen vs with
  | case1 seen => exact List.Sublist.refl _
  | case2 seen v vs h ih => exact ih.cons v
  | case3 seen v vs h ih => exact ih.cons_cons v

theorem fresh_append (seen : List Nat) (vs ws : List (Node α)) :
    fresh seen (vs ++ ws) = fresh seen vs ++ fresh (seen ++ (fresh seen vs).map key) ws := by
  fun_induction fresh seen vs with
  | case1 seen => simp
  | case2 seen v vs h ih => rw [List.cons_append, fresh_cons_of_mem h, ih]
  | case3 seen v vs h ih => simp [fresh_cons_of_not_mem h, ih]

/-- The identity of every node is one that was seen or one that is met. -/
theorem key_mem_of_mem (hv : v ∈ vs) (seen : List Nat) :
    v.key ∈ seen ++ (fresh seen vs).map key := by
  fun_induction fresh seen vs with
  | case1 seen => cases hv
  | case2 seen w vs h ih =>
    rcases List.mem_cons.mp hv with rfl | hv
    · exact List.mem_append_left _ h
    · exact ih hv
  | case3 seen w vs h ih =>
    rcases List.mem_cons.mp hv with rfl | hv
    · simp
    · simpa using ih hv

theorem fresh_eq_nil (h : ∀ v ∈ vs, v.key ∈ seen) : fresh seen vs = [] := by
  induction vs with
  | nil => rfl
  | cons v vs ih =>
    obtain ⟨hv, hvs⟩ := List.forall_mem_cons.mp h
    exact (fresh_cons_of_mem hv).trans (ih hvs)

theorem nodup_fresh (h : seen.Nodup) : (seen ++ (fresh seen vs).map key).Nodup := by
  fun_induction fresh seen vs with
  | case1 seen => simpa using h
  | case2 seen v vs hv ih => exact ih h
  | case3 seen v vs hv ih =>
    have hseen : (seen ++ [v.key]).Nodup := by
      simpa [List.nodup_append] using ⟨h, fun a ha hav => hv (hav ▸ ha)⟩
    simpa using ih hseen

/-- Two identities are met in the order in which they first occur. -/
theorem idxOf_fresh_lt_iff {i j : Nat} (hi : i ∉ seen) (hj : j ∉ seen) :
    ((fresh seen vs).map key).idxOf i < ((fresh seen vs).map key).idxOf j ↔
      (vs.map key).idxOf i < (vs.map key).idxOf j := by
  fun_induction fresh seen vs with
  | case1 seen => exact Iff.rfl
  | case2 seen v vs h ih =>
    have hvi : v.key ≠ i := fun hv => hi (hv ▸ h)
    have hvj : v.key ≠ j := fun hv => hj (hv ▸ h)
    rw [List.map_cons, List.idxOf_cons_ne _ hvi, List.idxOf_cons_ne _ hvj, Nat.succ_lt_succ_iff]
    exact ih hi hj
  | case3 seen v vs h ih =>
    rw [List.map_cons, List.map_cons]
    by_cases hvi : v.key = i
    · subst hvi
      by_cases hvj : v.key = j
      · simp [hvj]
      · simp [List.idxOf_cons_ne _ hvj]
    · by_cases hvj : v.key = j
      · simp [hvj]
      · rw [List.idxOf_cons_ne _ hvi, List.idxOf_cons_ne _ hvj, List.idxOf_cons_ne _ hvi,
          List.idxOf_cons_ne _ hvj, Nat.succ_lt_succ_iff, Nat.succ_lt_succ_iff]
        exact ih (by simp [hi, Ne.symm hvi]) (by simp [hj, Ne.symm hvj])

/-- The different nodes below a node, as a walk from the left first meets them. -/
def boxes (u : Node α) : List (Node α) := fresh [] u.nodes

/-- The number of a node in the drawing of `u`. -/
def number (u v : Node α) : Nat := (u.boxes.map key).idxOf v.key

theorem nodup_boxes (u : Node α) : (u.boxes.map key).Nodup := nodup_fresh List.nodup_nil

theorem mem_boxes_iff (h : u.Coherent) : v ∈ u.boxes ↔ v ∈ u.nodes := by
  refine ⟨fun hv => (fresh_sublist [] u.nodes).subset hv, fun hv => ?_⟩
  obtain ⟨w, hw, hkey⟩ := List.mem_map.mp (key_mem_of_mem hv [])
  obtain rfl := h w ((fresh_sublist [] u.nodes).subset hw) v hv hkey
  exact hw

/-- The number of a node is its place among the boxes. -/
theorem getElem?_boxes_iff (h : u.Coherent) {i : Nat} :
    u.boxes[i]? = some v ↔ v ∈ u.nodes ∧ u.number v = i := by
  constructor
  · intro hv
    obtain ⟨hi, rfl⟩ := List.getElem?_eq_some_iff.mp hv
    refine ⟨(mem_boxes_iff h).mp (List.getElem_mem hi), ?_⟩
    rw [number, ← List.getElem_map key (h := by simpa using hi)]
    exact u.nodup_boxes.idxOf_getElem i _
  · rintro ⟨hv, rfl⟩
    have hkey := List.getElem?_idxOf (List.mem_map_of_mem (f := key) ((mem_boxes_iff h).mpr hv))
    rw [List.getElem?_map, Option.map_eq_some_iff] at hkey
    obtain ⟨w, hw, hkey⟩ := hkey
    obtain rfl := h w ((mem_boxes_iff h).mp (List.mem_of_getElem? hw)) v hv hkey
    exact hw

/-- Different nodes have different numbers. -/
theorem number_inj (h : u.Coherent) (hv : v ∈ u.nodes) :
    u.number v = u.number w ↔ v.key = w.key :=
  List.idxOf_inj (List.mem_map_of_mem ((mem_boxes_iff h).mpr hv))

end Node

/-! ### What lines say -/

/-- What a line of a drawing says: that a node has a box, or that a node has an operand. -/
inductive Mark where
  | box (u : Node Float)
  | arrow (u : Node Float) (role : String) (operand : Node Float)

namespace Mark

/-- The node that a line declares. -/
def box? : Mark → Option (Node Float)
  | box u => some u
  | arrow .. => none

/-- The line for a box or an arrow, with the numbers of nodes. -/
def line (number : Node Float → Nat) : Mark → String
  | box u => "  " ++ ("n" ++ toString (number u)) ++
      " [label=\"" ++ u.label ++ "\", fillcolor=" ++ u.colour ++ "];"
  | arrow u role operand => "  " ++ ("n" ++ toString (number u)) ++
      " -> " ++ ("n" ++ toString (number operand)) ++ " [label=\"" ++ role ++ "\"];"

/-- The box of a node and the arrows to its operands. -/
def ofNode (u : Node Float) : List Mark := .box u :: u.slots.map fun s => .arrow u s.1 s.2

end Mark

/-! ### Different lines -/

/-- A list is split in one way at the first place of an entry. -/
theorem append_cons_inj {β : Type} {b : β} {xs ys s t : List β} (hx : b ∉ xs) (hy : b ∉ ys)
    (h : xs ++ b :: s = ys ++ b :: t) : xs = ys ∧ s = t := by
  rcases List.append_eq_append_iff.mp h with ⟨as, rfl, hs⟩ | ⟨as, rfl, ht⟩
  · cases as with
    | nil => simpa using hs
    | cons c as =>
      cases hs
      simp at hy
  · cases as with
    | nil => simpa [eq_comm] using ht
    | cons c as =>
      cases ht
      simp at hx

theorem toString_space_inj {m n : Nat} {s t : String}
    (h : toString m ++ (" " ++ s) = toString n ++ (" " ++ t)) : m = n ∧ s = t := by
  have hspace (k : Nat) : ' ' ∉ (toString k).toList := fun hmem => by
    have hdigit := Nat.isDigit_of_mem_toDigits (by decide) (by decide) (Nat.toList_repr ▸ hmem)
    revert hdigit
    decide
  have hlist := congrArg String.toList h
  simp only [String.toList_append] at hlist
  obtain ⟨hm, hs⟩ := append_cons_inj (hspace m) (hspace n) hlist
  exact ⟨Nat.repr_inj.mp (String.toList_inj.mp hm), String.toList_inj.mp hs⟩

namespace Mark

variable {number : Node Float → Nat} {u v p q : Node Float} {role role' : String}

theorem line_box : (box u).line number = "  n" ++ (toString (number u) ++ (" " ++
    ("[label=\"" ++ (u.label ++ ("\", fillcolor=" ++ (u.colour ++ "];")))))) := by
  have hspace : " [label=\"" = " " ++ "[label=\"" := by decide
  have hn : ("  n" : String) = "  " ++ "n" := by decide
  rw [line, hspace, hn]
  simp only [String.append_assoc]

theorem line_arrow : (arrow u role p).line number = "  n" ++ (toString (number u) ++ (" " ++
    ("-> n" ++ (toString (number p) ++ (" " ++ ("[label=\"" ++ (role ++ "\"];"))))))) := by
  have hspace : " [label=\"" = " " ++ "[label=\"" := by decide
  have harrow : " -> " = " " ++ "-> " := by decide
  have hto : ("-> n" : String) = "-> " ++ "n" := by decide
  have hn : ("  n" : String) = "  " ++ "n" := by decide
  rw [line, hspace, harrow, hto, hn]
  simp only [String.append_assoc]

theorem line_box_inj (h : (box u).line number = (box v).line number) : number u = number v := by
  rw [line_box, line_box, String.append_right_inj] at h
  exact (toString_space_inj h).1

theorem line_arrow_inj (h : (arrow u role p).line number = (arrow v role' q).line number) :
    number u = number v ∧ role = role' ∧ number p = number q := by
  rw [line_arrow, line_arrow, String.append_right_inj] at h
  obtain ⟨hu, h⟩ := toString_space_inj h
  obtain ⟨hp, h⟩ := toString_space_inj (String.append_right_inj _ |>.mp h)
  rw [String.append_right_inj, String.append_left_inj] at h
  exact ⟨hu, h, hp⟩

theorem line_box_ne_line_arrow : (box u).line number ≠ (arrow v role q).line number := by
  intro h
  rw [line_box, line_arrow, String.append_right_inj] at h
  obtain ⟨-, h⟩ := toString_space_inj h
  have hchars := congrArg String.toList h
  simp at hchars

/-- The node whose box a line declares, or whose operand it names. -/
def node : Mark → Node Float
  | box u => u
  | arrow u _ _ => u

theorem node_of_mem {mark : Mark} (h : mark ∈ ofNode u) : mark.node = u := by
  rcases List.mem_cons.mp h with rfl | h
  · rfl
  · obtain ⟨s, -, rfl⟩ := List.mem_map.mp h
    rfl

theorem nodup_ofNode (u : Node Float) : (ofNode u).Nodup := by
  cases u <;> simp [ofNode, Node.slots]

end Mark

namespace Drawing

variable {d d' d'' : Drawing} {u v : Node Float} {new new' : List (Node Float)}
  {marks marks' : List Mark}

/-- From one drawing to another, some nodes were met and some lines were written. The lines are
the same with the numbers of any later drawing. -/
structure Extends (d d' : Drawing) (new : List (Node Float)) (marks : List Mark) : Prop where
  seen : d'.seen = d.seen ++ new.map Node.key
  lines : ∀ order, d'.seen <+: order →
    d'.lines.toList = d.lines.toList ++ marks.map (Mark.line fun v => order.idxOf v.key)

theorem Extends.refl (d : Drawing) : d.Extends d [] [] := ⟨by simp, by simp⟩

theorem Extends.prefix_seen (h : d.Extends d' new marks) : d.seen <+: d'.seen :=
  ⟨_, h.seen.symm⟩

theorem Extends.trans (h : d.Extends d' new marks) (h' : d'.Extends d'' new' marks') :
    d.Extends d'' (new ++ new') (marks ++ marks') where
  seen := by rw [h'.seen, h.seen, List.map_append, List.append_assoc]
  lines order horder := by
    rw [h'.lines order horder, h.lines order (h'.prefix_seen.trans horder), List.map_append,
      List.append_assoc]

theorem idxOf_of_prefix {seen order : List Nat} {i : Nat} (h : seen <+: order) (hi : i ∈ seen) :
    order.idxOf i = seen.idxOf i := by
  obtain ⟨later, rfl⟩ := h
  exact List.idxOf_append_of_mem hi

theorem extends_declare (d : Drawing) (u : Node Float) :
    d.Extends (d.declare u) [u] [.box u] where
  seen := rfl
  lines order horder := by
    have hu : u.key ∈ d.seen ++ [u.key] := by simp
    simp only [declare, write, boxName, Array.toList_push, List.map_cons, List.map_nil, Mark.line,
      idxOf_of_prefix horder hu]

theorem extends_arrow (hu : u.key ∈ d.seen) (hv : v.key ∈ d.seen) (role : String) :
    d.Extends (d.arrow u v role) [] [.arrow u role v] where
  seen := by simp [arrow, write]
  lines order horder := by
    simp only [arrow, write, boxName, Array.toList_push, List.map_cons, List.map_nil, Mark.line,
      idxOf_of_prefix horder hu, idxOf_of_prefix horder hv]

/-- From one drawing to another the nodes `vs` were met: every new one among them has its box, in
order, and its arrows, and there are the arrows from a node that was met before. -/
def Draws (d d' : Drawing) (vs : List (Node Float)) (arrows : List Mark) : Prop :=
  ∃ marks, d.Extends d' (Node.fresh d.seen vs) marks ∧
    marks.filterMap Mark.box? = Node.fresh d.seen vs ∧
    marks.Perm ((Node.fresh d.seen vs).flatMap Mark.ofNode ++ arrows)

theorem Draws.seen {vs : List (Node Float)} (h : d.Draws d' vs marks) :
    d'.seen = d.seen ++ (Node.fresh d.seen vs).map Node.key := by
  obtain ⟨marks, hextends, -⟩ := h
  exact hextends.seen

theorem Draws.append {vs vs' : List (Node Float)} (h : d.Draws d' vs marks)
    (h' : d'.Draws d'' vs' marks') : d.Draws d'' (vs ++ vs') (marks ++ marks') := by
  have hfresh : Node.fresh d.seen (vs ++ vs') = Node.fresh d.seen vs ++ Node.fresh d'.seen vs' := by
    rw [Node.fresh_append, h.seen]
  obtain ⟨ms, hextends, hboxes, hperm⟩ := h
  obtain ⟨ms', hextends', hboxes', hperm'⟩ := h'
  refine ⟨ms ++ ms', ?_, ?_, ?_⟩
  · exact hfresh ▸ hextends.trans hextends'
  · rw [hfresh, List.filterMap_append, hboxes, hboxes']
  · rw [hfresh, List.flatMap_append]
    refine (hperm.append hperm').trans ?_
    rw [List.append_assoc, List.append_assoc]
    exact (List.perm_append_comm_assoc _ _ _).append_left _

theorem draws_arrow (hu : u.key ∈ d.seen) (hv : v.key ∈ d.seen) (role : String) :
    d.Draws (d.arrow u v role) [] [.arrow u role v] :=
  ⟨_, extends_arrow hu hv role, rfl, .refl _⟩

end Drawing

/-! ### The walk -/

namespace Node

/-- The nodes of a list that were met are finished: all below them was met. -/
def Closed {α : Type} (seen : List Nat) (vs : List (Node α)) : Prop :=
  ∀ v ∈ vs, v.key ∈ seen → ∀ w ∈ v.nodes, w.key ∈ seen

variable {u : Node Float} {d : Drawing} {seen : List Nat}

/-- The walk over the operands, whatever the node is. -/
theorem draw_eq (u : Node Float) (d : Drawing) : u.draw d =
    if u.key ∈ d.seen then d
    else u.slots.foldl (fun d s => (s.2.draw d).arrow u s.2 s.1) (d.declare u) := by
  cases u <;> rw [draw] <;> rfl

/-- A node that was met for the first time leaves what is still to come below its operands as it
was, for it is not below them. -/
theorem Closed.enter {α : Type} {u : Node α} (hu : u.Coherent) (h : Closed seen u.nodes) :
    Closed (seen ++ [u.key]) (u.slots.flatMap fun s => s.2.nodes) := by
  intro v hv hkey w hw
  obtain ⟨s, hs, hvs⟩ := List.mem_flatMap.mp hv
  have hmem : v.key ∈ seen := by
    rcases List.mem_append.mp hkey with hseen | hself
    · exact hseen
    · exact absurd (List.mem_singleton.mp hself) (hu.key_ne hs hvs)
  exact List.mem_append_left _ (h v (nodes_subset_of_slot hs hvs) hmem w hw)

/-- An operand that was drawn is finished, also where it is met again. -/
theorem Closed.after {α : Type} {u : Node α} {s : String × Node α} {vs : List (Node α)}
    (hu : u.Coherent) (hs : s ∈ u.slots) (hvs : vs ⊆ u.nodes) (h : Closed seen vs) :
    Closed (seen ++ (fresh seen s.2.nodes).map key) vs := by
  intro v hv hkey w hw
  rcases List.mem_append.mp hkey with hseen | hnew
  · exact List.mem_append_left _ (h v hv hseen w hw)
  · obtain ⟨v', hv', hkey'⟩ := List.mem_map.mp hnew
    have hbelow := (fresh_sublist seen s.2.nodes).subset hv'
    obtain rfl := hu v' (nodes_subset_of_slot hs hbelow) v (hvs hv) hkey'
    exact key_mem_of_mem ((nodes_sublist hbelow).subset hw) seen

/-- The operands of a node are drawn one after the other, each with its arrow behind it. -/
theorem draws_slots (hu : u.Coherent) (ss : List (String × Node Float))
    (hss : ∀ s ∈ ss, s ∈ u.slots)
    (ih : ∀ s ∈ ss, ∀ d : Drawing, Closed d.seen s.2.nodes → d.Draws (s.2.draw d) s.2.nodes [])
    (hkey : u.key ∈ d.seen) (hclosed : Closed d.seen (ss.flatMap fun s => s.2.nodes)) :
    d.Draws (ss.foldl (fun d s => (s.2.draw d).arrow u s.2 s.1) d)
      (ss.flatMap fun s => s.2.nodes) (ss.map fun s => .arrow u s.1 s.2) := by
  induction ss generalizing d with
  | nil => exact ⟨[], .refl d, rfl, .refl _⟩
  | cons s ss ihss =>
    obtain ⟨hs, hss⟩ := List.forall_mem_cons.mp hss
    obtain ⟨ihs, ih⟩ := List.forall_mem_cons.mp ih
    have hdraw := ihs d fun v hv => hclosed v (List.mem_append_left _ hv)
    have hrest : (ss.flatMap fun s => s.2.nodes) ⊆ u.nodes := fun v hv => by
      obtain ⟨s', hs', hv⟩ := List.mem_flatMap.mp hv
      exact nodes_subset_of_slot (hss s' hs') hv
    have hparent : u.key ∈ (s.2.draw d).seen := hdraw.seen ▸ List.mem_append_left _ hkey
    have hoperand : s.2.key ∈ (s.2.draw d).seen :=
      hdraw.seen ▸ key_mem_of_mem s.2.mem_nodes_self d.seen
    have hclosed' : Closed (s.2.draw d).seen (ss.flatMap fun s => s.2.nodes) :=
      hdraw.seen ▸ Closed.after hu hs hrest fun v hv => hclosed v (List.mem_append_right _ hv)
    -- the arrow is written when both ends are met, whether or not the operand was new
    have hwritten := hdraw.append (Drawing.draws_arrow hparent hoperand s.1)
    rw [List.append_nil, List.nil_append] at hwritten
    exact hwritten.append (ihss hss ih hparent hclosed')

/-- The walk draws all that is below a node and was not met before. -/
theorem draws_draw (hu : u.Coherent) (hclosed : Closed d.seen u.nodes) :
    d.Draws (u.draw d) u.nodes [] := by
  induction u using induction_slots generalizing d with
  | step u ih =>
    rw [draw_eq]
    by_cases hkey : u.key ∈ d.seen
    · -- met before, hence finished: nothing below it is new
      rw [if_pos hkey]
      have hfresh : fresh d.seen u.nodes = [] := fresh_eq_nil (hclosed u u.mem_nodes_self hkey)
      exact ⟨[], hfresh ▸ .refl d, hfresh ▸ rfl, hfresh ▸ .refl _⟩
    · rw [if_neg hkey]
      have hfresh : fresh d.seen u.nodes =
          u :: fresh (d.declare u).seen (u.slots.flatMap fun s => s.2.nodes) := by
        rw [nodes_eq, fresh_cons_of_not_mem hkey]
        rfl
      obtain ⟨marks, hextends, hboxes, hperm⟩ := draws_slots hu u.slots (fun s hs => hs)
        (fun s hs d => ih s hs (hu.slot hs)) (d := d.declare u)
        (List.mem_append_right _ (List.mem_singleton.mpr rfl)) (hclosed.enter hu)
      refine ⟨.box u :: marks, ?_, ?_, ?_⟩
      · exact hfresh ▸ (Drawing.extends_declare d u).trans hextends
      · rw [hfresh, ← hboxes]
        rfl
      · rw [hfresh, List.append_nil, List.flatMap_cons, Mark.ofNode]
        exact (hperm.trans List.perm_append_comm).cons _

/-! ### The graph -/

theorem name_inj {m n : Nat} : "n" ++ toString m = "n" ++ toString n ↔ m = n := by
  rw [String.append_right_inj]
  exact Nat.repr_inj

theorem mem_of_once {marks : List Mark} (hu : u.Coherent)
    (h : marks.Perm (u.boxes.flatMap Mark.ofNode)) {mark : Mark} :
    mark ∈ marks ↔ ∃ v ∈ u.nodes, mark = .box v ∨ ∃ s ∈ v.slots, mark = .arrow v s.1 s.2 := by
  simp only [h.mem_iff, List.mem_flatMap, mem_boxes_iff hu, Mark.ofNode, List.mem_cons,
    List.mem_map, eq_comm]

theorem nodup_marks (u : Node Float) : (u.boxes.flatMap Mark.ofNode).Nodup := by
  refine List.nodup_flatMap.mpr ⟨fun v _ => Mark.nodup_ofNode v, ?_⟩
  refine (List.Nodup.of_map key u.nodup_boxes).imp fun hne => ?_
  intro mark hv hw
  exact hne ((Mark.node_of_mem hv).symm.trans (Mark.node_of_mem hw))

/-- No two lines of a drawing are the same. -/
theorem nodup_lines {marks : List Mark} (hu : u.Coherent)
    (h : marks.Perm (u.boxes.flatMap Mark.ofNode)) : (marks.map (Mark.line u.number)).Nodup := by
  have hnode {v w : Node Float} (hv : v ∈ u.nodes) (hw : w ∈ u.nodes)
      (hvw : u.number v = u.number w) : v = w := hu v hv w hw ((number_inj hu hv).mp hvw)
  refine List.Nodup.map_on (fun m hm m' hm' hline => ?_) (h.nodup_iff.mpr u.nodup_marks)
  obtain ⟨v, hv, rfl | ⟨s, hs, rfl⟩⟩ := (mem_of_once hu h).mp hm
  · obtain ⟨w, hw, rfl | ⟨t, ht, rfl⟩⟩ := (mem_of_once hu h).mp hm'
    · rw [hnode hv hw (Mark.line_box_inj hline)]
    · exact absurd hline Mark.line_box_ne_line_arrow
  · obtain ⟨w, hw, rfl | ⟨t, ht, rfl⟩⟩ := (mem_of_once hu h).mp hm'
    · exact absurd hline.symm Mark.line_box_ne_line_arrow
    · obtain ⟨hvw, hrole, hst⟩ := Mark.line_arrow_inj hline
      rw [hnode hv hw hvw, hrole, hnode (mem_nodes_of_slot hv hs) (mem_nodes_of_slot hw ht) hst]

/-- Marks that draw the graph of a node. -/
structure DrawnBy (u : Node Float) (marks : List Mark) : Prop where
  /-- Every node below `u` has one box and one arrow to each of its operands, and there is nothing
  else. -/
  once : marks.Perm (u.boxes.flatMap Mark.ofNode)
  /-- No two lines are the same. -/
  different : (marks.map (Mark.line u.number)).Nodup
  /-- The boxes stand in the order of their numbers. -/
  ordered : marks.filterMap Mark.box? = u.boxes
  /-- The nodes that have a box are those below `u`. -/
  below : ∀ v, v ∈ u.boxes ↔ v ∈ u.nodes
  /-- The number of a node is its place among the boxes, so that no two nodes have one number. -/
  number : ∀ i v, u.boxes[i]? = some v ↔ v ∈ u.nodes ∧ u.number v = i
  /-- Different identities have different names, also where the nodes look alike. -/
  distinct : ∀ v ∈ u.nodes, ∀ w ∈ u.nodes,
    "n" ++ toString (u.number v) = "n" ++ toString (u.number w) ↔ v.key = w.key
  /-- The numbers are given in the order in which a walk from the left first meets the nodes. -/
  firstMet : ∀ v w, u.number v < u.number w ↔
    (u.nodes.map key).idxOf v.key < (u.nodes.map key).idxOf w.key
  /-- Both ends of an arrow have boxes. -/
  ends : ∀ v role w, .arrow v role w ∈ marks → .box v ∈ marks ∧ .box w ∈ marks

/-- **A drawing is the graph of its node.** Between three lines that open the graph and one that
closes it, the text of a drawing of a node whose identities are coherent has exactly the lines of
the graph: for each node below it, however often it is used, one box with its label, and one arrow
for each of its operands, from its own box to that of the operand. -/
theorem dot_graph (hu : u.Coherent) (name : String) :
    ∃ marks : List Mark, u.DrawnBy marks ∧
      u.dot name = "\n".intercalate
        (["digraph " ++ name ++ " \x7b", "  rankdir=TB;",
            "  node [shape=box, style=filled, fillcolor=lightblue];"] ++
          marks.map (Mark.line u.number) ++ ["\x7d"]) := by
  obtain ⟨marks, hextends, hboxes, hperm⟩ :=
    draws_draw (d := ⟨[], #[]⟩) hu (fun _ _ hkey => nomatch hkey)
  have honce : marks.Perm (u.boxes.flatMap Mark.ofNode) := by
    rwa [List.append_nil] at hperm
  refine ⟨marks, ?_, ?_⟩
  · refine ⟨honce, nodup_lines hu honce, hboxes, fun v => mem_boxes_iff hu,
      fun i v => getElem?_boxes_iff hu, fun v hv w _ => name_inj.trans (number_inj hu hv),
      fun v w => idxOf_fresh_lt_iff nofun nofun, fun v role w harrow => ?_⟩
    obtain ⟨x, hx, heq | ⟨s, hs, heq⟩⟩ := (mem_of_once hu honce).mp harrow
    · cases heq
    · cases heq
      exact ⟨(mem_of_once hu honce).mpr ⟨v, hx, .inl rfl⟩,
        (mem_of_once hu honce).mpr ⟨s.2, mem_nodes_of_slot hx hs, .inl rfl⟩⟩
  · have horder : (u.draw ⟨[], #[]⟩).seen = u.boxes.map key := hextends.seen
    have hlines := hextends.lines (u.boxes.map key) (horder ▸ List.prefix_rfl)
    rw [dot, dotLines, hlines]
    rfl

/-- A variable that is used three times, and another one of the same name. -/
theorem dot_graph_shared :
    let x : Node Float := .var 2 "x"
    let y : Node Float := .var 4 "x"
    let square : Node Float := .mul 1 x x
    let product : Node Float := .mul 3 x y
    let u : Node Float := .add 0 square product
    u.Coherent ∧ ∃ marks : List Mark,
      marks.Perm [.box u, .arrow u "L" square, .arrow u "R" product,
        .box square, .arrow square "L" x, .arrow square "R" x, .box x,
        .box product, .arrow product "L" x, .arrow product "R" y, .box y] ∧
      marks.filterMap Mark.box? = [u, square, x, product, y] ∧
      u.dot "graph" = "\n".intercalate
        (["digraph graph \x7b", "  rankdir=TB;",
            "  node [shape=box, style=filled, fillcolor=lightblue];"] ++
          marks.map (Mark.line u.number) ++ ["\x7d"]) := by
  intro x y square product u
  have hcoherent : u.Coherent := by simp [Coherent, u, square, product, x, y, nodes, key]
  obtain ⟨marks, hdrawn, hdot⟩ := dot_graph hcoherent "graph"
  exact ⟨hcoherent, marks, hdrawn.once, hdrawn.ordered, hdot⟩

end Node

end Fluxion
