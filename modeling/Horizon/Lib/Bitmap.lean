import Horizon.Lib.Bytes

/-!
# Bitmaps

Bit `j` of a buffer is bit `j % 8` of byte `j / 8`.  Allocators
look for the first clear bit, set it, and later clear it again; the number of
clear bits then moves by one.
-/

namespace Horizon
namespace Bitmaps

open Function List Bytes

def bitTest (b : Buffer) (j : Nat) : Bool :=
  (b (j / 8)).toNat &&& (1 <<< (j % 8)) != 0

def bitSet (b : Buffer) (j : Nat) : Buffer :=
  update b (j / 8)
    (UInt8.ofNat ((b (j / 8)).toNat ||| (1 <<< (j % 8))))

/-- The mask is removed by flipping the bits it shares with the byte. -/
def bitClear (b : Buffer) (j : Nat) : Buffer :=
  update b (j / 8)
    (UInt8.ofNat ((b (j / 8)).toNat ^^^
      ((b (j / 8)).toNat &&& (1 <<< (j % 8)))))

/-- The first clear bit among the `n` bits from `j` on. -/
def firstClear (b : Buffer) : Nat -> Nat -> Option Nat
  | 0, _ => none
  | n + 1, j => if bitTest b j then firstClear b n (j + 1) else some j

/-- The number of clear bits among the first `n`. -/
def clearCount (b : Buffer) (n : Nat) : Nat :=
  (List.range n).countP fun j => !bitTest b j

theorem bitTest_eq (b : Buffer) (j : Nat) :
    bitTest b j = (b (j / 8)).toNat.testBit (j % 8) := by
  unfold bitTest
  rw [Nat.shiftLeft_eq, Nat.one_mul, Nat.and_two_pow]
  cases (b (j / 8)).toNat.testBit (j % 8) <;> simp

variable {b c : Buffer} {j k x : Nat}

theorem bitTest_congr (h : b (j / 8) = c (j / 8)) :
    bitTest b j = bitTest c j := by
  unfold bitTest
  rw [h]

theorem or_mask_lt (hx : x < 256) (j : Nat) : x ||| (1 <<< (j % 8)) < 256 := by
  have hmask : 1 <<< (j % 8) < 2 ^ 8 := by
    rw [Nat.shiftLeft_eq, Nat.one_mul]
    exact Nat.pow_lt_pow_right (by omega) (by omega)
  have hor : x ||| (1 <<< (j % 8)) < 2 ^ 8 := Nat.or_lt_two_pow hx hmask
  exact hor

theorem flip_mask_lt (hx : x < 256) (m : Nat) : x ^^^ (x &&& m) < 256 := by
  have hand : x &&& m < 2 ^ 8 := Nat.lt_of_le_of_lt Nat.and_le_left hx
  have hxor : x ^^^ (x &&& m) < 2 ^ 8 := Nat.xor_lt_two_pow hx hand
  exact hxor

theorem testBit_mask (i j : Nat) :
    (1 <<< (j % 8)).testBit (i % 8) = decide (j % 8 = i % 8) := by
  rw [Nat.shiftLeft_eq, Nat.one_mul, Nat.testBit_two_pow]

theorem bitTest_bitSet (b : Buffer) (i j : Nat) :
    bitTest (bitSet b j) i = (decide (i = j) || bitTest b i) := by
  rw [bitTest_eq, bitTest_eq]
  unfold bitSet
  by_cases hbyte : i / 8 = j / 8
  · rw [hbyte, update_self, UInt8.toNat_ofNat',
      Nat.mod_eq_of_lt (or_mask_lt (b (j / 8)).toNat_lt j), Nat.testBit_or,
      testBit_mask, Bool.or_comm]
    congr 1
    rw [decide_eq_decide]
    omega
  · have hne : i ≠ j := fun heq => hbyte (by rw [heq])
    rw [update_of_ne hbyte]
    simp [hne]

theorem bitTest_bitClear (b : Buffer) (i j : Nat) :
    bitTest (bitClear b j) i = (!decide (i = j) && bitTest b i) := by
  rw [bitTest_eq, bitTest_eq]
  unfold bitClear
  by_cases hbyte : i / 8 = j / 8
  · rw [hbyte, update_self, UInt8.toNat_ofNat',
      Nat.mod_eq_of_lt (flip_mask_lt (b (j / 8)).toNat_lt _), Nat.testBit_xor,
      Nat.testBit_and, testBit_mask]
    have hsame : decide (j % 8 = i % 8) = decide (i = j) := by
      rw [decide_eq_decide]
      omega
    rw [hsame]
    cases decide (i = j) <;> simp
  · have hne : i ≠ j := fun heq => hbyte (by rw [heq])
    rw [update_of_ne hbyte]
    simp [hne]

/-!
## Search
-/

theorem firstClear_some {n : Nat} (h : firstClear b n j = some k) :
    k < j + n ∧ bitTest b k = false := by
  induction n generalizing j with
  | zero => cases h
  | succ n ih =>
    unfold firstClear at h
    cases hbit : bitTest b j with
    | true =>
      rw [if_pos hbit] at h
      rcases ih h with ⟨hlt, hk⟩
      exact ⟨by omega, hk⟩
    | false =>
      rw [if_neg (by simp [hbit])] at h
      cases h
      exact ⟨by omega, hbit⟩

theorem firstClear_none {n : Nat} (h : firstClear b n j = none) (hle : j <= k)
    (hlt : k < j + n) : bitTest b k = true := by
  induction n generalizing j with
  | zero => omega
  | succ n ih =>
    unfold firstClear at h
    cases hbit : bitTest b j with
    | true =>
      rw [if_pos hbit] at h
      by_cases hkj : k = j
      · rw [hkj]
        exact hbit
      · exact ih h (by omega) (by omega)
    | false =>
      rw [if_neg (by simp [hbit])] at h
      cases h

/-!
## Counting
-/

theorem clearCount_succ (b : Buffer) (n : Nat) :
    clearCount b (n + 1) =
      clearCount b n + if bitTest b n = false then 1 else 0 := by
  unfold clearCount
  rw [range_succ, countP_append, countP_singleton]
  cases bitTest b n <;> simp

theorem clearCount_congr {n : Nat}
    (h : forall j, j < n -> bitTest b j = bitTest c j) :
    clearCount b n = clearCount c n := by
  apply countP_congr
  intro j hj
  rw [h j (mem_range.mp hj)]

theorem clearCount_le (b : Buffer) (n : Nat) : clearCount b n <= n := by
  have hle := countP_le_length (p := fun j => !bitTest b j)
    (l := List.range n)
  rwa [length_range] at hle

theorem clearCount_pos {n : Nat} (hj : j < n) (hbit : bitTest b j = false) :
    0 < clearCount b n := by
  apply countP_pos_iff.mpr
  exact ⟨j, mem_range.mpr hj, by simp [hbit]⟩

theorem bitTest_bitSet_ite (b : Buffer) (j i : Nat) :
    bitTest (bitSet b j) i = if i = j then true else bitTest b i := by
  rw [bitTest_bitSet]
  by_cases hij : i = j <;> simp [hij]

theorem bitTest_bitClear_ite (b : Buffer) (j i : Nat) :
    bitTest (bitClear b j) i = if i = j then false else bitTest b i := by
  rw [bitTest_bitClear]
  by_cases hij : i = j <;> simp [hij]

theorem clearCount_bitSet {n : Nat} (hj : j < n) (hbit : bitTest b j = false) :
    clearCount (bitSet b j) n + 1 = clearCount b n := by
  induction n with
  | zero => omega
  | succ n ih =>
    rw [clearCount_succ, clearCount_succ, bitTest_bitSet]
    by_cases hjn : j = n
    · subst hjn
      have hsame : clearCount (bitSet b j) j = clearCount b j := by
        apply clearCount_congr
        intro i hi
        rw [bitTest_bitSet]
        simp [Nat.ne_of_lt hi]
      simp [hsame, hbit]
    · have hne : n ≠ j := fun heq => hjn heq.symm
      simp only [hne, decide_false, Bool.false_or]
      omega

theorem clearCount_bitClear {n : Nat} (hj : j < n) (hbit : bitTest b j = true) :
    clearCount (bitClear b j) n = clearCount b n + 1 := by
  have hback : clearCount (bitSet (bitClear b j) j) n = clearCount b n := by
    apply clearCount_congr
    intro i _
    rw [bitTest_bitSet_ite, bitTest_bitClear_ite]
    by_cases hij : i = j <;> simp [hij, hbit]
  rw [← clearCount_bitSet hj (by simp [bitTest_bitClear]), hback]

end Bitmaps
end Horizon
