import Mathlib.Data.Fintype.Card

/-!
# Holders of pointers

Nodes that may each point to one node, and the number of nodes in a list that
point to a given one.
-/

namespace Horizon
namespace Holders

open Function List

variable {node : Type} [DecidableEq node]

def holders (l : List node) (ptr : node -> Option node) (p : node) : Nat :=
  l.countP fun q => ptr q = some p

variable {l : List node} {ptr : node -> Option node} {a : node}

theorem holders_congr {ptr' : node -> Option node}
    (h : forall q, q ∈ l -> ptr' q = ptr q) (p : node) :
    holders l ptr' p = holders l ptr p := by
  apply countP_congr
  intro q hq
  rw [h q hq]

theorem holders_cons_of_none (h : ptr a = none) (p : node) :
    holders (a :: l) ptr p = holders l ptr p := by
  unfold holders
  rw [countP_cons, h]
  simp

theorem holders_eq_erase (ptr : node -> Option node) (h : a ∈ l) (p : node) :
    holders l ptr p =
      holders (l.erase a) ptr p + if ptr a = some p then 1 else 0 := by
  have hperm : l.Perm (a :: l.erase a) := perm_cons_erase h
  unfold holders
  rw [hperm.countP_eq, countP_cons]
  simp

theorem holders_erase_of_none (hmem : a ∈ l) (h : ptr a = none) (p : node) :
    holders (l.erase a) ptr p = holders l ptr p := by
  rw [holders_eq_erase ptr hmem, h]
  simp

theorem holders_update (hnodup : l.Nodup) (hmem : a ∈ l) (h : ptr a = none)
    (t p : node) :
    holders l (update ptr a (some t)) p =
      holders l ptr p + if t = p then 1 else 0 := by
  have hrest : holders (l.erase a) (update ptr a (some t)) p =
      holders (l.erase a) ptr p := by
    apply holders_congr
    intro q hq
    have hne : q ≠ a := by
      rintro rfl
      exact hnodup.not_mem_erase hq
    exact update_of_ne hne _ _
  rw [holders_eq_erase _ hmem, hrest, holders_erase_of_none hmem h, update_self]
  simp only [Option.some.injEq]

theorem holders_le_card [Fintype node] (hnodup : l.Nodup)
    (ptr : node -> Option node) (p : node) :
    holders l ptr p <= Fintype.card node := by
  calc
    holders l ptr p <= l.length := countP_le_length
    _ <= Fintype.card node := hnodup.length_le_card

end Holders
end Horizon
