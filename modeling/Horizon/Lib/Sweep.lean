import Mathlib.Data.List.Basic

/-!
# Sweeps over an array

A loop that visits the cells of an array in some order, rewrites each from what
stands in it and collects something on the way.  A cell that is visited once ends
up as one visit leaves it.
-/

namespace Horizon
namespace Sweep

open Function List

variable {index cell acc : Type} [DecidableEq index]

def sweep (visit : index -> acc -> cell -> acc × cell) :
    List index -> acc × (index -> cell) -> acc × (index -> cell)
  | [], s => s
  | i :: is, (a, cells) =>
      match visit i a (cells i) with
      | (a, c) => sweep visit is (a, update cells i c)

/-- A visit that rewrites a cell in the same way whatever was collected. -/
def Rewrites (visit : index -> acc -> cell -> acc × cell)
    (f : index -> cell -> cell) : Prop :=
  forall i a c, (visit i a c).2 = f i c

section Cells

variable {visit : index -> acc -> cell -> acc × cell} {f : index -> cell -> cell}

theorem sweep_of_not_mem {is : List index} {i : index} (h : i ∉ is)
    (s : acc × (index -> cell)) : (sweep visit is s).2 i = s.2 i := by
  induction is generalizing s with
  | nil => rfl
  | cons j is ih =>
    have hne : i ≠ j := fun heq => h (mem_cons.mpr (Or.inl heq))
    have hrest : i ∉ is := fun hi => h (mem_cons_of_mem j hi)
    show (sweep visit is _).2 i = s.2 i
    rw [ih hrest]
    exact update_of_ne hne _ _

theorem sweep_cell (hrewrites : Rewrites visit f) {is : List index}
    (hnodup : is.Nodup) {i : index} (hi : i ∈ is) (s : acc × (index -> cell)) :
    (sweep visit is s).2 i = f i (s.2 i) := by
  induction is generalizing s with
  | nil => cases hi
  | cons j is ih =>
    rcases nodup_cons.mp hnodup with ⟨hj, hrest⟩
    show (sweep visit is _).2 i = f i (s.2 i)
    by_cases heq : i = j
    · rw [heq, sweep_of_not_mem hj]
      show update s.2 j _ j = f j (s.2 j)
      rw [update_self]
      exact hrewrites j s.1 (s.2 j)
    · rw [ih hrest ((mem_cons.mp hi).resolve_left heq)]
      show f i (update s.2 j _ i) = f i (s.2 i)
      rw [update_of_ne heq]

theorem sweep_flag (flag : acc -> Bool) {raises : index -> cell -> Bool}
    (hflag : forall i a c, flag (visit i a c).1 = (flag a || raises i c))
    {is : List index} (hnodup : is.Nodup) (s : acc × (index -> cell)) :
    flag (sweep visit is s).1 =
      (flag s.1 || is.any fun i => raises i (s.2 i)) := by
  induction is generalizing s with
  | nil => exact (Bool.or_false _).symm
  | cons j is ih =>
    rcases nodup_cons.mp hnodup with ⟨hj, hrest⟩
    have hsame : forall c, (is.any fun i =>
        raises i (update s.2 j c i)) =
        is.any fun i => raises i (s.2 i) := by
      intro c
      rw [Bool.eq_iff_iff, any_eq_true, any_eq_true]
      apply exists_congr
      intro i
      apply and_congr_right
      intro hi
      have hne : i ≠ j := by
        intro heq
        rw [heq] at hi
        exact hj hi
      rw [update_of_ne hne]
    show flag (sweep visit is _).1 = _
    rw [ih hrest, hflag, hsame, any_cons, Bool.or_assoc]

end Cells

end Sweep
end Horizon
