import Fluxion.Node.Basic

/-!
# Sharing

The nodes below a node, each as often as a walk along the operands meets it. A node that is used
in several places is met several times, and is the same node every time: equal identities belong
to equal nodes. This is what `Node.Coherent` says; it forbids neither that a node is shared nor
that different nodes look alike.

## Main definitions

* `Node.slots` — the operands of a node and their roles
* `Node.nodes` — the nodes below a node, itself first, from left to right
* `Node.Coherent` — equal identities belong to equal nodes

## Main results

* `Node.induction_slots` — induction over the operands, whatever the node is
* `Node.Coherent.key_ne` — no node below an operand has the identity of the node itself
-/

namespace Fluxion

namespace Node

variable {α : Type} {u v w : Node α} {s : String × Node α}

/-- The operands of a node, each with its role. -/
def slots : Node α → List (String × Node α)
  | const .. | var .. => []
  | add _ l r | mul _ l r => [("L", l), ("R", r)]
  | pow _ b e => [("base", b), ("exp", e)]
  | log _ f | sin _ f | cos _ f => [("arg", f)]

/-- The nodes below a node, itself first, in the order of a walk from the left, each as often as
the walk meets it. -/
def nodes : Node α → List (Node α)
  | const i c => [const i c]
  | var i x => [var i x]
  | add i l r => add i l r :: (l.nodes ++ r.nodes)
  | mul i l r => mul i l r :: (l.nodes ++ r.nodes)
  | pow i b e => pow i b e :: (b.nodes ++ e.nodes)
  | log i f => log i f :: f.nodes
  | sin i f => sin i f :: f.nodes
  | cos i f => cos i f :: f.nodes

theorem nodes_eq (u : Node α) : u.nodes = u :: u.slots.flatMap fun s => s.2.nodes := by
  cases u <;> simp [nodes, slots]

/-- What holds of a node if it holds of its operands holds of all nodes. -/
theorem induction_slots {P : Node α → Prop} (step : ∀ u, (∀ s ∈ u.slots, P s.2) → P u)
    (u : Node α) : P u := by
  induction u with
  | const i c | var i x => exact step _ nofun
  | add i l r ihl ihr | mul i l r ihl ihr | pow i l r ihl ihr =>
    exact step _ (List.forall_mem_cons.mpr ⟨ihl, List.forall_mem_singleton.mpr ihr⟩)
  | log i f ih | sin i f ih | cos i f ih => exact step _ (List.forall_mem_singleton.mpr ih)

theorem mem_nodes_self (u : Node α) : u ∈ u.nodes := u.nodes_eq ▸ List.mem_cons_self

theorem mem_nodes_iff : v ∈ u.nodes ↔ v = u ∨ ∃ s ∈ u.slots, v ∈ s.2.nodes := by
  rw [nodes_eq, List.mem_cons, List.mem_flatMap]

theorem slot_sublist (hs : s ∈ u.slots) :
    s.2.nodes.Sublist (u.slots.flatMap fun s => s.2.nodes) := by
  rw [List.flatMap_def]
  exact List.sublist_flatten_of_mem (List.mem_map_of_mem (f := fun s => s.2.nodes) hs)

/-- The nodes below a node are met where it is met. -/
theorem nodes_sublist (h : v ∈ u.nodes) : v.nodes.Sublist u.nodes := by
  induction u using induction_slots with
  | step u ih =>
    rcases mem_nodes_iff.mp h with rfl | ⟨s, hs, hv⟩
    · exact List.Sublist.refl _
    · rw [u.nodes_eq]
      exact ((ih s hs hv).trans (slot_sublist hs)).cons u

theorem nodes_subset_of_slot (hs : s ∈ u.slots) : s.2.nodes ⊆ u.nodes := fun _ hv =>
  mem_nodes_iff.mpr (.inr ⟨s, hs, hv⟩)

theorem mem_nodes_of_slot (hv : v ∈ u.nodes) (hs : s ∈ v.slots) : s.2 ∈ u.nodes :=
  (nodes_sublist hv).subset (nodes_subset_of_slot hs s.2.mem_nodes_self)

/-- A node is not below its own operands. -/
theorem not_mem_nodes_of_slot (hs : s ∈ u.slots) : u ∉ s.2.nodes := fun hu => by
  have hlength := ((nodes_sublist hu).trans (slot_sublist hs)).length_le
  rw [nodes_eq, List.length_cons] at hlength
  exact Nat.not_succ_le_self _ hlength

/-- Equal identities belong to equal nodes. -/
def Coherent (u : Node α) : Prop := ∀ v ∈ u.nodes, ∀ w ∈ u.nodes, v.key = w.key → v = w

theorem Coherent.part (h : u.Coherent) (hv : v ∈ u.nodes) : v.Coherent := fun w hw x hx =>
  h w ((nodes_sublist hv).subset hw) x ((nodes_sublist hv).subset hx)

theorem Coherent.slot (h : u.Coherent) (hs : s ∈ u.slots) : s.2.Coherent :=
  h.part (nodes_subset_of_slot hs s.2.mem_nodes_self)

/-- No node below an operand has the identity of the node itself. -/
theorem Coherent.key_ne (h : u.Coherent) (hs : s ∈ u.slots) (hv : v ∈ s.2.nodes) :
    v.key ≠ u.key := fun hkey => by
  obtain rfl := h v (nodes_subset_of_slot hs hv) u u.mem_nodes_self hkey
  exact not_mem_nodes_of_slot hs hv

end Node

end Fluxion
