import Mathlib.Algebra.Ring.Nat
import Mathlib.Order.Interval.Finset.Nat

/-!
# Lists of intervals

Ranges of addresses given by a start and a size.  Disjoint ranges below a bound
have at most that many addresses together.
-/

namespace Horizon
namespace Intervals

structure Interval where
  start : Nat
  size : Nat
deriving DecidableEq

namespace Interval

def Has (i : Interval) (b : Nat) : Prop := i.start <= b ∧ b < i.start + i.size

def Apart (i j : Interval) : Prop := forall b, ¬ (i.Has b ∧ j.Has b)

theorem Apart.symm {i j : Interval} (h : i.Apart j) : j.Apart i :=
  fun b hb => h b ⟨hb.right, hb.left⟩

end Interval

def Covered (l : List Interval) (b : Nat) : Prop := exists i, i ∈ l ∧ i.Has b

def total (l : List Interval) : Nat := (l.map Interval.size).sum

theorem covered_append (l l' : List Interval) (b : Nat) :
    Covered (l ++ l') b <-> Covered l b ∨ Covered l' b := by
  unfold Covered
  simp only [List.mem_append, or_and_right, exists_or]

theorem covered_singleton (i : Interval) (b : Nat) :
    Covered [i] b <-> i.Has b := by
  simp [Covered]

theorem total_append (l l' : List Interval) :
    total (l ++ l') = total l + total l' := by
  simp [total]

def addresses : List Interval -> Finset Nat
  | [] => ∅
  | i :: l => Finset.Ico i.start (i.start + i.size) ∪ addresses l

theorem mem_addresses {l : List Interval} {b : Nat} :
    b ∈ addresses l <-> Covered l b := by
  induction l with
  | nil => simp [addresses, Covered]
  | cons i l ih =>
    unfold addresses
    rw [Finset.mem_union, ih, Finset.mem_Ico]
    unfold Covered
    simp [Interval.Has]

theorem card_addresses {l : List Interval} (h : l.Pairwise Interval.Apart) :
    (addresses l).card = total l := by
  induction l with
  | nil => rfl
  | cons i l ih =>
    rcases List.pairwise_cons.mp h with ⟨hfrom, hrest⟩
    have hdisjoint : Disjoint (Finset.Ico i.start (i.start + i.size))
        (addresses l) := by
      rw [Finset.disjoint_left]
      intro b hb hmem
      rcases mem_addresses.mp hmem with ⟨j, hj, hhas⟩
      exact hfrom j hj b ⟨Finset.mem_Ico.mp hb, hhas⟩
    unfold addresses
    rw [Finset.card_union_of_disjoint hdisjoint, ih hrest, Nat.card_Ico,
      Nat.add_sub_cancel_left]
    simp [total]

theorem total_le {l : List Interval} (bound : Nat)
    (h : l.Pairwise Interval.Apart)
    (hbound : forall i, i ∈ l -> i.start + i.size <= bound) :
    total l <= bound := by
  have hsub : addresses l ⊆ Finset.range bound := by
    intro b hb
    rcases mem_addresses.mp hb with ⟨i, hi, hle, hlt⟩
    have hend := hbound i hi
    exact Finset.mem_range.mpr (by omega)
  have hcard := Finset.card_le_card hsub
  rwa [card_addresses h, Finset.card_range] at hcard

end Intervals
end Horizon
