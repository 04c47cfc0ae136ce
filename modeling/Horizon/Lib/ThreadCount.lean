import Mathlib.Algebra.BigOperators.Group.Finset.Piecewise
import Mathlib.Data.Fintype.Card

/-!
# Counting threads

A finite number of threads each stand at a point.  This module counts those
whose point has a property, and says how the count changes when one thread
moves.
-/

namespace Horizon
namespace ThreadCount

open Function

variable {thread point : Type} [Fintype thread]

def count (p : point -> Prop) [DecidablePred p] (f : thread -> point) : Nat :=
  (Finset.univ.filter fun t => p (f t)).card

variable (p : point -> Prop) [DecidablePred p]

variable {f : thread -> point} {t : thread} {a : point}

theorem count_eq_zero_iff : count p f = 0 <-> forall t, ¬ p (f t) := by
  unfold count
  simp

theorem count_congr {q : point -> Prop} [DecidablePred q]
    (h : forall t, p (f t) <-> q (f t)) : count p f = count q f := by
  unfold count
  congr 1
  apply Finset.filter_congr
  exact fun t _ => h t

variable [DecidableEq thread]

theorem count_update (f : thread -> point) (t : thread) (a : point) :
    count p (update f t a) + (if p (f t) then 1 else 0) =
      count p f + (if p a then 1 else 0) := by
  have split (g : thread -> point) : count p g =
      (if p (g t) then 1 else 0) +
        ∑ s ∈ Finset.univ.erase t, (if p (g s) then 1 else 0) := by
    unfold count
    rw [Finset.card_filter]
    exact (Finset.add_sum_erase _ _ (Finset.mem_univ t)).symm
  have others : ∑ s ∈ Finset.univ.erase t,
      (if p (update f t a s) then 1 else 0) =
      ∑ s ∈ Finset.univ.erase t, (if p (f s) then 1 else 0) := by
    apply Finset.sum_congr rfl
    intro s hs
    rw [update_of_ne (Finset.ne_of_mem_erase hs)]
  rw [split (update f t a), split f, others, update_self]
  omega

theorem count_update_same (h : p (f t) <-> p a) :
    count p (update f t a) = count p f := by
  have hmove := count_update p f t a
  by_cases ha : p a
  · rw [if_pos ha, if_pos (h.mpr ha)] at hmove
    omega
  · rw [if_neg ha, if_neg (fun hf => ha (h.mp hf))] at hmove
    omega

theorem count_update_enter (hf : ¬ p (f t)) (ha : p a) :
    count p (update f t a) = count p f + 1 := by
  have hmove := count_update p f t a
  rw [if_neg hf, if_pos ha] at hmove
  exact hmove

theorem count_update_leave (hf : p (f t)) (ha : ¬ p a) :
    count p (update f t a) + 1 = count p f := by
  have hmove := count_update p f t a
  rw [if_pos hf, if_neg ha] at hmove
  exact hmove

end ThreadCount
end Horizon
