import Mathlib.Data.Nat.Bitwise
import Mathlib.Tactic.Ring

/-!
# Byte buffers

Memory regions and devices as functions from addresses to bytes, with
little-endian fields, block copies and bitmaps.
-/

namespace Horizon
namespace Bytes

abbrev Buffer := Nat -> UInt8

/-!
## Little-endian fields
-/

/-- The number stored in `n` bytes, least significant byte first. -/
def getLE : Nat -> Buffer -> Nat -> Nat
  | 0, _, _ => 0
  | n + 1, b, off => (b off).toNat + 256 * getLE n b (off + 1)

def putLE (n : Nat) (b : Buffer) (off v : Nat) : Buffer := fun i =>
  if off <= i ∧ i < off + n then UInt8.ofNat (v / 256 ^ (i - off)) else b i

abbrev getU16 : Buffer -> Nat -> Nat := getLE 2

abbrev getU32 : Buffer -> Nat -> Nat := getLE 4

abbrev putU8 : Buffer -> Nat -> Nat -> Buffer := putLE 1

abbrev putU16 : Buffer -> Nat -> Nat -> Buffer := putLE 2

abbrev putU32 : Buffer -> Nat -> Nat -> Buffer := putLE 4

theorem getLE_lt (n : Nat) (b : Buffer) (off : Nat) :
    getLE n b off < 256 ^ n := by
  induction n generalizing off with
  | zero => exact Nat.one_pos
  | succ n ih =>
    have hbyte := (b off).toNat_lt
    have hrest := ih (off + 1)
    unfold getLE
    omega

variable {b dst src : Buffer} {i v off off' srcOff : Nat}

theorem getLE_congr {n : Nat} {c : Buffer}
    (h : forall i, i < n -> b (off + i) = c (off' + i)) :
    getLE n b off = getLE n c off' := by
  induction n generalizing off off' with
  | zero => rfl
  | succ n ih =>
    have hfirst : b off = c off' := h 0 (Nat.succ_pos n)
    have hrest : getLE n b (off + 1) = getLE n c (off' + 1) := by
      apply ih
      intro i hi
      have hnext := h (i + 1) (by omega)
      rw [show off + 1 + i = off + (i + 1) by omega,
        show off' + 1 + i = off' + (i + 1) by omega]
      exact hnext
    unfold getLE
    rw [hfirst, hrest]

theorem ofNat_getLE_div {n : Nat} (b : Buffer) (off : Nat) (h : i < n) :
    UInt8.ofNat (getLE n b off / 256 ^ i) = b (off + i) := by
  induction n generalizing off i with
  | zero => exact absurd h (Nat.not_lt_zero i)
  | succ n ih =>
    have hbyte := (b off).toNat_lt
    unfold getLE
    cases i with
    | zero =>
      apply UInt8.toNat_inj.mp
      rw [UInt8.toNat_ofNat']
      show _ = (b off).toNat
      omega
    | succ i =>
      have hdiv : ((b off).toNat + 256 * getLE n b (off + 1)) / 256 =
          getLE n b (off + 1) := by omega
      rw [Nat.pow_succ', ← Nat.div_div_eq_div_mul, hdiv,
        ih (off + 1) (Nat.lt_of_succ_lt_succ h), Nat.add_assoc,
        Nat.add_comm 1 i]

theorem putLE_apply {n : Nat} {b : Buffer} {off v i : Nat} (h : i < n) :
    putLE n b off v (off + i) = UInt8.ofNat (v / 256 ^ i) := by
  unfold putLE
  rw [if_pos (by omega), Nat.add_sub_cancel_left]

theorem putLE_of_outside {n : Nat} (h : i < off ∨ off + n <= i) :
    putLE n b off v i = b i := by
  unfold putLE
  rw [if_neg (by omega)]

private theorem getLE_digits {n : Nat} {b : Buffer} {off v : Nat}
    (h : forall i, i < n -> b (off + i) = UInt8.ofNat (v / 256 ^ i)) :
    getLE n b off = v % 256 ^ n := by
  induction n generalizing off v with
  | zero => simp [getLE, Nat.mod_one]
  | succ n ih =>
      have hfirst : (b off).toNat = v % 256 := by
        have hzero := h 0 (Nat.succ_pos n)
        rw [Nat.add_zero, Nat.pow_zero, Nat.div_one] at hzero
        rw [hzero]
        simp
      have hrest : getLE n b (off + 1) = v / 256 % 256 ^ n := by
        apply ih
        intro i hi
        have hnext := h (i + 1) (by omega)
        rw [show off + 1 + i = off + (i + 1) by omega, hnext,
          Nat.div_div_eq_div_mul, Nat.pow_succ, Nat.mul_comm (256 ^ i)]
      unfold getLE
      rw [hfirst, hrest, Nat.pow_succ, Nat.mul_comm (256 ^ n), Nat.mod_mul]

theorem getLE_putLE (n : Nat) (b : Buffer) (off v : Nat) :
    getLE n (putLE n b off v) off = v % 256 ^ n := by
  apply getLE_digits
  intro i hi
  exact putLE_apply hi

theorem getLE_putLE_of_lt {n : Nat} (h : v < 256 ^ n) :
    getLE n (putLE n b off v) off = v := by
  rw [getLE_putLE, Nat.mod_eq_of_lt h]

theorem getLE_putLE_of_disjoint {n k : Nat}
    (h : off + n <= off' ∨ off' + k <= off) :
    getLE n (putLE k b off' v) off = getLE n b off := by
  apply getLE_congr
  intro i hi
  apply putLE_of_outside
  omega

/-!
## Copies
-/

def memcpy (dst : Buffer) (off : Nat) (src : Buffer) (srcOff n : Nat) :
    Buffer := fun i =>
  if off <= i ∧ i < off + n then src (srcOff + (i - off)) else dst i

def zeros : Buffer := fun _ => 0

theorem memcpy_apply {n : Nat} (h : i < n) :
    memcpy dst off src srcOff n (off + i) = src (srcOff + i) := by
  unfold memcpy
  rw [if_pos (by omega), Nat.add_sub_cancel_left]

theorem memcpy_of_outside {n : Nat} (h : i < off ∨ off + n <= i) :
    memcpy dst off src srcOff n i = dst i := by
  unfold memcpy
  rw [if_neg (by omega)]

theorem memcpy_zero_apply (dst src : Buffer) (n i : Nat) :
    memcpy dst 0 src 0 n i = if i < n then src i else dst i := by
  by_cases hi : i < n
  · have happly : memcpy dst 0 src 0 n (0 + i) = src (0 + i) := memcpy_apply hi
    rw [Nat.zero_add] at happly
    rw [happly, if_pos hi]
  · rw [memcpy_of_outside (Or.inr (by omega)), if_neg hi]

theorem getLE_zeros (n off : Nat) : getLE n zeros off = 0 := by
  induction n generalizing off with
  | zero => rfl
  | succ n ih =>
    unfold getLE
    rw [ih]
    rfl

def put (mem : Buffer) (p : Nat) (l : List UInt8) : Buffer :=
  memcpy mem p (fun i => l.getD i 0) 0 l.length

section Copies

variable {mem : Buffer} {p : Nat} {l l' : List UInt8}

theorem memcpy_zero (mem src : Buffer) (d s : Nat) :
    memcpy mem d src s 0 = mem :=
  funext fun _ => memcpy_of_outside (by omega)

theorem put_apply (hi : i < l.length) : put mem p l (p + i) = l.getD i 0 := by
  unfold put
  rw [memcpy_apply hi, Nat.zero_add]

theorem put_of_outside {a : Nat} (h : a < p ∨ p + l.length <= a) :
    put mem p l a = mem a :=
  memcpy_of_outside h

theorem put_nil (mem : Buffer) (p : Nat) : put mem p [] = mem :=
  memcpy_zero ..

theorem update_put (b : UInt8) :
    Function.update (put mem (p + 1) l) p b = put mem p (b :: l) := by
  funext i
  unfold put memcpy
  grind

theorem put_append :
    put (put mem (p + l.length) l') p l = put mem p (l ++ l') := by
  funext i
  unfold put memcpy
  grind

end Copies

end Bytes
end Horizon
