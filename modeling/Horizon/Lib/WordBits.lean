import Mathlib.Logic.Function.Basic

/-!
# Bitmaps of 32-bit words

Bit `j` of an array of words is bit `j % 32` of word `j / 32`.
-/

namespace Horizon
namespace WordBits

open Function

/-- The words of a bitmap. -/
abbrev Words := Nat -> BitVec 32

def test (w : Words) (j : Nat) : Bool :=
  (w (j / 32)).getLsbD (j % 32)

def set (w : Words) (j : Nat) : Words :=
  update w (j / 32) (w (j / 32) ||| 1#32 <<< (j % 32))

def clear (w : Words) (j : Nat) : Words :=
  update w (j / 32) (w (j / 32) &&& ~~~(1#32 <<< (j % 32)))

theorem getLsbD_mask {i j : Nat} (hi : i < 32) :
    (1#32 <<< j).getLsbD i = decide (i = j) := by
  rw [← BitVec.twoPow_eq, BitVec.getLsbD_twoPow]
  by_cases hij : i = j
  · subst hij
    simp [hi]
  · simp [hij, Ne.symm hij]

theorem mod_eq_iff {i j : Nat} (h : i / 32 = j / 32) :
    i % 32 = j % 32 <-> i = j := by
  omega

theorem test_set (w : Words) (i j : Nat) :
    test (set w j) i = if i = j then true else test w i := by
  unfold test set
  by_cases hword : i / 32 = j / 32
  · rw [hword, update_self, BitVec.getLsbD_or,
      getLsbD_mask (Nat.mod_lt i (by decide))]
    simp only [mod_eq_iff hword]
    by_cases hij : i = j
    · simp [hij]
    · simp [hij]
  · have hne : i ≠ j := fun heq => hword (congrArg (· / 32) heq)
    rw [update_of_ne hword, if_neg hne]

theorem test_clear (w : Words) (i j : Nat) :
    test (clear w j) i = if i = j then false else test w i := by
  unfold test clear
  by_cases hword : i / 32 = j / 32
  · have hi := Nat.mod_lt i (by decide : 0 < 32)
    rw [hword, update_self, BitVec.getLsbD_and, BitVec.getLsbD_not,
      getLsbD_mask hi]
    simp only [mod_eq_iff hword]
    by_cases hij : i = j
    · simp [hij]
    · simp [hij, hi]
  · have hne : i ≠ j := fun heq => hword (congrArg (· / 32) heq)
    rw [update_of_ne hword, if_neg hne]

end WordBits
end Horizon
