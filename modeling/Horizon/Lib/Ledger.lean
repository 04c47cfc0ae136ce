import Mathlib.Data.List.Basic

/-!
# Heaps with a ledger

A heap of blocks, each marked with what it was allocated for, and the lists of
all allocations and of all releases so far. The books are balanced when each
address was released as often as it was allocated, but for the blocks that are
still held.
-/

namespace Horizon

open Function

structure Ledger (block : Type) where
  held : Nat -> Option block
  allocated : List Nat
  freed : List Nat

namespace Ledger

variable {block : Type}

def empty : Ledger block where
  held := fun _ => none
  allocated := []
  freed := []

def alloc (h : Ledger block) (a : Nat) (b : block) : Ledger block where
  held := update h.held a (some b)
  allocated := h.allocated ++ [a]
  freed := h.freed

/-- The release is recorded whether or not the address is held. -/
def free (h : Ledger block) (a : Nat) : Ledger block where
  held := update h.held a none
  allocated := h.allocated
  freed := h.freed ++ [a]

def Balanced (h : Ledger block) : Prop :=
  forall a, h.allocated.count a = h.freed.count a + (h.held a).toList.length

theorem balanced_empty : (empty : Ledger block).Balanced := by
  intro a
  rfl

theorem Balanced.alloc {h : Ledger block} (hbalanced : h.Balanced) {a : Nat}
    (hfresh : h.held a = none) (b : block) : (h.alloc a b).Balanced := by
  intro k
  have hk := hbalanced k
  unfold Ledger.alloc
  by_cases heq : k = a
  · subst heq
    rw [hfresh] at hk
    simpa using hk
  · simpa [update_of_ne heq, List.count_singleton, Ne.symm heq] using hk

theorem Balanced.free {h : Ledger block} (hbalanced : h.Balanced) {a : Nat}
    {b : block} (hheld : h.held a = some b) : (h.free a).Balanced := by
  intro k
  have hk := hbalanced k
  unfold Ledger.free
  by_cases heq : k = a
  · subst heq
    rw [hheld] at hk
    simpa using hk
  · simpa [update_of_ne heq, List.count_singleton, Ne.symm heq] using hk

end Ledger
end Horizon
