import Horizon.Lib.Bitmap

/-!
# Runs of bits

Allocators of contiguous space take the lowest run of clear bits that is long
enough.  The search is a single pass which remembers where the current run of
clear bits started and how long it is.
-/

namespace Horizon
namespace Bitmaps

open Bytes

/-- The bits from `start` on, `n` of them, are clear. -/
def ClearRun (b : Buffer) (start n : Nat) : Prop :=
  forall k, start <= k -> k < start + n -> bitTest b k = false

def bitSetRange (b : Buffer) (start : Nat) : Nat -> Buffer
  | 0 => b
  | n + 1 => bitSet (bitSetRange b start n) (start + n)

/--
The search for a run of `count` clear bits among the `n` bits from
`i` on; the `found` bits from `start` on are clear already.
-/
def firstRun (b : Buffer) (count : Nat) : Nat -> Nat -> Nat -> Nat -> Option Nat
  | 0, _, _, _ => none
  | n + 1, i, start, found =>
      if bitTest b i then firstRun b count n (i + 1) (i + 1) 0
      else if found + 1 = count then some start
      else firstRun b count n (i + 1) start (found + 1)

/-!
## Setting a range
-/

theorem bitTest_bitSetRange (b : Buffer) (start n i : Nat) :
    bitTest (bitSetRange b start n) i =
      (decide (start <= i ∧ i < start + n) || bitTest b i) := by
  induction n with
  | zero =>
    have hempty : ¬ (start <= i ∧ i < start + 0) := by omega
    rw [decide_eq_false hempty, Bool.false_or]
    rfl
  | succ n ih =>
    have hsplit : decide (start <= i ∧ i < start + (n + 1)) =
        (decide (i = start + n) || decide (start <= i ∧ i < start + n)) := by
      rw [← Bool.decide_or, decide_eq_decide]
      omega
    unfold bitSetRange
    rw [bitTest_bitSet, ih, hsplit, Bool.or_assoc]

variable {b : Buffer} {i s count found start total : Nat}

theorem clearCount_bitSetRange {n : Nat} (hrun : ClearRun b start n)
    (hle : start + n <= total) :
    clearCount (bitSetRange b start n) total + n = clearCount b total := by
  induction n with
  | zero => rfl
  | succ n ih =>
    have hrest := ih (fun k hk hlt => hrun k hk (by omega)) (by omega)
    have hclear : bitTest (bitSetRange b start n) (start + n) = false := by
      have hout : ¬ (start <= start + n ∧ start + n < start + n) := by omega
      rw [bitTest_bitSetRange, decide_eq_false hout, Bool.false_or]
      exact hrun _ (by omega) (by omega)
    have hstep := clearCount_bitSet (show start + n < total by omega) hclear
    unfold bitSetRange
    omega

/-!
## Search
-/

/-- What the pass has established when it arrives at bit `i`. -/
structure Scanned (b : Buffer) (count i start found : Nat) : Prop where
  here : start + found = i
  short : found < count
  clear : ClearRun b start found
  lowest : forall s, ClearRun b s count -> start <= s

namespace Scanned

variable {b : Buffer} {count i start found : Nat}

theorem first (hpos : 0 < count) : Scanned b count 0 0 0 where
  here := rfl
  short := hpos
  clear := fun k _ hlt => absurd hlt (by omega)
  lowest := fun s _ => Nat.zero_le s

section

variable (h : Scanned b count i start found)
include h

theorem used (hbit : bitTest b i = true) :
    Scanned b count (i + 1) (i + 1) 0 where
  here := rfl
  short := Nat.lt_of_le_of_lt (Nat.zero_le _) h.short
  clear := fun k _ hlt => absurd hlt (by omega)
  lowest := by
    intro s hrun
    have hstart := h.lowest s hrun
    have hhere := h.here
    have hshort := h.short
    -- a run that starts no later than this bit would contain it
    rcases Nat.lt_or_ge i s with hlt | hge
    · exact hlt
    · have hclear := hrun i hge (by omega)
      rw [hbit] at hclear
      cases hclear

theorem extend (hbit : bitTest b i = false) : ClearRun b start (found + 1) := by
  have hhere := h.here
  intro k hk hlt
  rcases Nat.lt_or_ge k i with hki | hki
  · exact h.clear k hk (by omega)
  · rw [show k = i by omega]
    exact hbit

theorem next (hbit : bitTest b i = false) (hne : found + 1 ≠ count) :
    Scanned b count (i + 1) start (found + 1) where
  here := by
    have hhere := h.here
    omega
  short := by
    have hshort := h.short
    omega
  clear := h.extend hbit
  lowest := h.lowest

end

end Scanned

theorem firstRun_some {n : Nat} (h : Scanned b count i start found)
    (hres : firstRun b count n i start found = some s) :
    ClearRun b s count ∧ s + count <= i + n ∧
      forall s', ClearRun b s' count -> s <= s' := by
  induction n generalizing i start found with
  | zero => cases hres
  | succ n ih =>
    have hhere := h.here
    unfold firstRun at hres
    cases hbit : bitTest b i with
    | true =>
      rw [if_pos hbit] at hres
      rcases ih (h.used hbit) hres with ⟨hrun, hle, hmin⟩
      exact ⟨hrun, by omega, hmin⟩
    | false =>
      rw [if_neg (by simp [hbit])] at hres
      split at hres
      case isTrue hcount =>
        cases hres
        have hrun := h.extend hbit
        rw [hcount] at hrun
        exact ⟨hrun, by omega, h.lowest⟩
      case isFalse hcount =>
        rcases ih (h.next hbit hcount) hres with ⟨hrun, hle, hmin⟩
        exact ⟨hrun, by omega, hmin⟩

theorem firstRun_none {n : Nat} (h : Scanned b count i start found)
    (hres : firstRun b count n i start found = none) (hrun : ClearRun b s count) :
    i + n < s + count := by
  induction n generalizing i start found with
  | zero =>
    have hle := h.lowest s hrun
    have hhere := h.here
    have hshort := h.short
    omega
  | succ n ih =>
    unfold firstRun at hres
    cases hbit : bitTest b i with
    | true =>
      rw [if_pos hbit] at hres
      have hlt := ih (h.used hbit) hres
      omega
    | false =>
      rw [if_neg (by simp [hbit])] at hres
      split at hres
      case isTrue hcount =>
        cases hres
      case isFalse hcount =>
        have hlt := ih (h.next hbit hcount) hres
        omega

theorem le_clearCount {n : Nat} (hrun : ClearRun b start n)
    (hle : start + n <= total) : n <= clearCount b total := by
  have hcount := clearCount_bitSetRange hrun hle
  omega

end Bitmaps
end Horizon
