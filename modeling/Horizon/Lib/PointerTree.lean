import Mathlib.Data.List.Infix

/-!
# Trees of pointers

A family of roots, each the root of a tree of fixed depth whose inner nodes
hold an array of pointers.  A place is a root and a path of indices; its value
is the node the path leads to, or a null node.  A forest is proper when no node
is found at two places.
-/

namespace Horizon
namespace PointerTree

open List

variable {root node : Type}

/-- The node at a place: the entries along the path, from the root on. -/
def value (start : root -> node) (entry : node -> Nat -> node)
    (p : root × List Nat) : node :=
  p.2.foldl entry (start p.1)

/-- The places that the depths of the roots and the width of a node allow. -/
structure Legal (depth : root -> Nat) (width : Nat) (p : root × List Nat) :
    Prop where
  length : p.2.length <= depth p.1
  index : forall i, i ∈ p.2 -> i < width

/-- No node other than the null node is found at two places. -/
structure Proper (null : node) (depth : root -> Nat) (width : Nat)
    (start : root -> node) (entry : node -> Nat -> node) : Prop where
  entry_null : forall i, entry null i = null
  inj : forall p q, Legal depth width p -> Legal depth width q ->
    value start entry p ≠ null -> value start entry p = value start entry q ->
    p = q

theorem value_snoc (start : root -> node) (entry : node -> Nat -> node)
    (r : root) (path : List Nat) (i : Nat) :
    value start entry (r, path ++ [i]) =
      entry (value start entry (r, path)) i := by
  unfold value
  rw [foldl_append]
  rfl

namespace Legal

variable {depth : root -> Nat} {width : Nat}

theorem nil (r : root) : Legal depth width (r, []) :=
  ⟨Nat.zero_le _, fun _ hi => absurd hi not_mem_nil⟩

/-- A place one step further is legal only if the place itself is an inner one. -/
theorem of_snoc {r : root} {path : List Nat} {i : Nat}
    (h : Legal depth width (r, path ++ [i])) :
    Legal depth width (r, path) ∧ path.length < depth r ∧ i < width := by
  have hlen : (path ++ [i]).length <= depth r := h.length
  rw [length_append] at hlen
  have hlt : path.length < depth r := hlen
  refine ⟨⟨Nat.le_of_lt hlt, ?_⟩, hlt, ?_⟩
  · intro j hj
    exact h.index j (mem_append_left [i] hj)
  · exact h.index i (mem_append_right path (mem_singleton_self i))

end Legal

variable {null : node} {depth : root -> Nat} {width : Nat}
  {start start' : root -> node} {entry entry' : node -> Nat -> node}

/--
The values of all places of a root depend only on the root and on the entries
of its inner nodes.
-/
theorem value_congr (null : node) {r : root} (hstart : start' r = start r)
    (hnull : forall i, entry' null i = entry null i)
    (hentry : forall path i, Legal depth width (r, path) ->
      path.length < depth r -> i < width ->
      value start entry (r, path) ≠ null ->
      entry' (value start entry (r, path)) i =
        entry (value start entry (r, path)) i) :
    forall path, Legal depth width (r, path) ->
      value start' entry' (r, path) = value start entry (r, path) := by
  classical
  intro path
  -- the path is extended at its end, as the fold does
  induction path using List.reverseRecOn with
  | nil =>
    intro _
    exact hstart
  | append_singleton path i ih =>
    intro hlegal
    rcases hlegal.of_snoc with ⟨hpath, hlen, hi⟩
    rw [value_snoc, value_snoc, ih hpath]
    by_cases hnil : value start entry (r, path) = null
    · rw [hnil]
      exact hnull i
    · exact hentry path i hpath hlen hi hnil

/-- The value of one place depends on the nodes on the way to it. -/
theorem value_congr_path (r : root) (path : List Nat)
    (h : forall pre, pre <+: path -> entry' (value start entry (r, pre)) =
      entry (value start entry (r, pre))) :
    value start entry' (r, path) = value start entry (r, path) := by
  induction path using List.reverseRecOn with
  | nil => rfl
  | append_singleton path i ih =>
    rw [value_snoc, value_snoc, ih fun pre hpre =>
      h pre (hpre.trans (prefix_append path [i])), h path (prefix_append path [i])]

namespace Proper

theorem leaf_ne_inner (h : Proper null depth width start entry)
    {p : root × List Nat} (hp : Legal depth width p)
    (hleaf : p.2.length = depth p.1) {q : root × List Nat}
    (hq : Legal depth width q) (hinner : q.2.length < depth q.1)
    (hnull : value start entry q ≠ null) :
    value start entry q ≠ value start entry p := by
  intro heq
  have hplace := h.inj q p hq hp hnull heq
  rw [hplace, hleaf] at hinner
  exact Nat.lt_irrefl _ hinner

end Proper

end PointerTree
end Horizon
