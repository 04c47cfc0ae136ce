import Mathlib.Data.List.Basic
import Mathlib.Order.Compare
import Mathlib.Order.Lattice

/-!
# Binary search

The loop that halves a closed window of positions, given how the element at each
position compares with the one that is looked for.  It may leave the window on a
hit.  In a strictly increasing list both ways of leaving it give the number of
smaller elements.
-/

namespace Horizon
namespace BinarySearch

/-- The position, and whether the element was found there; there is no result if
the rounds do not suffice. -/
def search (side : Nat -> Ordering) : Nat -> Int -> Int -> Option (Bool × Int)
  | 0, _, _ => none
  | rounds + 1, low, high =>
      if low <= high then
        let mid := (low + high) / 2
        match side mid.toNat with
        | .lt => search side rounds (mid + 1) high
        | .gt => search side rounds low (mid - 1)
        | .eq => some (true, mid)
      else some (false, low)

variable {α : Type} [LinearOrder α] {l : List α} {k : α} {i : Nat}

def rank (l : List α) (k : α) : Nat := l.countP (· < k)

section

variable (h : l.Pairwise (· < ·))
include h

theorem getElem_lt_iff (hi : i < l.length) : l[i] < k <-> i < rank l k := by
  unfold rank
  induction l generalizing i with
  | nil => cases hi
  | cons a l ih =>
    rcases List.pairwise_cons.mp h with ⟨hfirst, hrest⟩
    by_cases ha : a < k
    · rw [List.countP_cons_of_pos (by simpa using ha)]
      cases i with
      | zero => exact iff_of_true ha (Nat.succ_pos _)
      | succ i => simpa using ih hrest (Nat.lt_of_succ_lt_succ hi)
    · have hnone : forall b, b ∈ a :: l -> ¬ b < k := by
        intro b hb hlt
        rcases List.mem_cons.mp hb with rfl | hb
        · exact ha hlt
        · exact ha ((hfirst b hb).trans hlt)
      rw [List.countP_eq_zero.mpr (by simpa using hnone)]
      exact iff_of_false (hnone _ (List.getElem_mem hi)) (Nat.not_lt_zero i)

theorem rank_eq (hi : i < l.length) (hget : l[i] = k) : rank l k = i := by
  have hle : rank l k <= i := by
    rw [← Nat.not_lt, ← getElem_lt_iff h hi, hget]
    exact lt_irrefl k
  rcases Nat.lt_or_eq_of_le hle with hlt | heq
  · have hless := List.pairwise_iff_getElem.mp h _ i (by omega) hi hlt
    rw [hget, getElem_lt_iff h] at hless
    omega
  · exact heq

theorem lt_getElem (hi : i < l.length) (hrank : rank l k < i) : k < l[i] := by
  have hlt : rank l k < l.length := by omega
  have hle := not_lt.mp (mt (getElem_lt_iff h hlt).mp (Nat.lt_irrefl _))
  exact hle.trans_lt (List.pairwise_iff_getElem.mp h _ i hlt hi hrank)

theorem getElem_rank (hk : k ∈ l) : l[rank l k]? = some k := by
  obtain ⟨i, hi, hget⟩ := List.getElem_of_mem hk
  rw [rank_eq h hi hget, List.getElem?_eq_getElem hi, hget]

theorem rank_lt (hk : k ∈ l) : rank l k < l.length :=
  (List.getElem?_eq_some_iff.mp (getElem_rank h hk)).1

variable {side : Nat -> Ordering}
  (hside : forall i (hi : i < l.length), side i = cmp l[i] k)
include hside

/-- The window never leaves the place of the element that is looked for. -/
theorem search_window {rounds : Nat} {low high : Int} (hpos : 0 <= low)
    (hlow : low <= rank l k) (hhigh : rank l k <= high + 1)
    (hend : high < l.length) (hmem : k ∈ l -> rank l k <= high)
    (hrounds : high - low + 1 < rounds) :
    search side rounds low high = some (decide (k ∈ l), (rank l k : Int)) := by
  induction rounds generalizing low high with
  | zero => omega
  | succ rounds ih =>
    unfold search
    by_cases hwindow : low <= high
    · obtain ⟨m, hm⟩ : exists m : Nat, (low + high) / 2 = m :=
        ⟨((low + high) / 2).toNat, by omega⟩
      have hlt : m < l.length := by omega
      have hrank := getElem_lt_iff (k := k) h hlt
      simp only [if_pos hwindow, hm, Int.toNat_natCast]
      rw [hside m hlt]
      cases hcmp : cmp l[m] k with
      | lt =>
        have hbelow := hrank.mp ((cmp_eq_lt_iff _ _).mp hcmp)
        exact ih (by omega) (by omega) hhigh hend hmem (by omega)
      | gt =>
        have habove := (cmp_eq_gt_iff _ _).mp hcmp
        have hle := Nat.not_lt.mp (mt hrank.mpr habove.not_gt)
        refine ih hpos hlow (by omega) (by omega) (fun hk => ?_) (by omega)
        obtain ⟨j, hj, hget⟩ := List.getElem_of_mem hk
        have hne : j ≠ m := by
          rintro rfl
          exact habove.ne' hget
        have hj' := rank_eq h hj hget
        omega
      | eq =>
        have hget := (cmp_eq_eq_iff _ _).mp hcmp
        rw [rank_eq h hlt hget, decide_eq_true (hget ▸ List.getElem_mem hlt)]
    · have hk : k ∉ l := fun hk => absurd (hmem hk) (by omega)
      rw [if_neg hwindow, decide_eq_false hk, show low = rank l k by omega]

theorem search_eq : search side (l.length + 1) 0 (l.length - 1) =
    some (decide (k ∈ l), (rank l k : Int)) := by
  have hle : rank l k <= l.length := List.countP_le_length
  refine search_window h hside (Int.le_refl 0) (by omega) (by omega) (by omega)
    (fun hk => ?_) (by omega)
  have hlt := rank_lt h hk
  omega

end

end BinarySearch
end Horizon
