import Mathlib.Algebra.BigOperators.Group.List.Basic
import Mathlib.Data.Nat.ModEq

/-!
# The Internet checksum

The checksum of `net/ipv4/ipv4.c` over the bytes of a packet, with the 16-bit
words in the byte order of the machine.
-/

namespace Horizon
namespace Net

def sumLoop : List UInt8 -> Nat -> Nat
  | low :: high :: data, sum =>
      sumLoop data ((sum + (low.toNat + high.toNat * 256)) % 2 ^ 32)
  | [last], sum => (sum + last.toNat) % 2 ^ 32
  | [], sum => sum

def foldLoop (sum : Nat) : Nat :=
  if sum / 2 ^ 16 ≠ 0 then foldLoop (sum % 2 ^ 16 + sum / 2 ^ 16) else sum
termination_by sum
decreasing_by omega

def ipv4Checksum (data : List UInt8) : Nat :=
  (2 ^ 32 - 1 - foldLoop (sumLoop data 0)) % 2 ^ 16

def words : List UInt8 -> List Nat
  | low :: high :: data => (low.toNat + high.toNat * 256) :: words data
  | _ => []

def storeWord (data : List UInt8) (off v : Nat) : List UInt8 :=
  (data.set off (UInt8.ofNat v)).set (off + 1) (UInt8.ofNat (v / 256))

variable {data : List UInt8} {i v w sum : Nat}

theorem words_storeWord (hv : v < 2 ^ 16) :
    words (storeWord data (2 * i) v) = (words data).set i v := by
  induction i generalizing data with
  | zero =>
    match data with
    | [] | [_] => rfl
    | low :: high :: data =>
      simp [storeWord, words]
      omega
  | succ i ih =>
    match data with
    | [] | [_] => rfl
    | low :: high :: data => exact congrArg (_ :: ·) ih

theorem sum_words_le (data : List UInt8) :
    (words data).sum <= 65535 * (data.length / 2) := by
  fun_induction words with
  | case1 low high data ih =>
    have hlow := low.toNat_lt
    have hhigh := high.toNat_lt
    simp only [List.sum_cons, List.length_cons]
    omega
  | case2 => exact Nat.zero_le _

theorem sumLoop_eq (heven : data.length % 2 = 0)
    (hlt : sum + (words data).sum < 2 ^ 32) :
    sumLoop data sum = sum + (words data).sum := by
  fun_induction sumLoop with
  | case1 low high data sum ih =>
    simp only [words, List.sum_cons, List.length_cons] at hlt heven ⊢
    rw [ih (by omega) (by omega)]
    omega
  | case2 => cases heven
  | case3 => rfl

/-- The fold keeps the remainder by 65535 and maps only zero to zero. -/
theorem foldLoop_eq (sum : Nat) :
    foldLoop sum = (sum - 1) % 65535 + min sum 1 := by
  fun_induction foldLoop with
  | case1 sum hlarge ih =>
    rw [ih]
    omega
  | case2 sum hsmall => omega

theorem ipv4Checksum_eq (heven : data.length % 2 = 0)
    (hlen : data.length < 2 ^ 17) :
    ipv4Checksum data =
      65535 - (((words data).sum - 1) % 65535 + min (words data).sum 1) := by
  have hle := sum_words_le data
  unfold ipv4Checksum
  rw [sumLoop_eq heven (by omega), foldLoop_eq]
  omega

theorem storeWord_checksum (heven : data.length % 2 = 0)
    (hlen : data.length < 2 ^ 17) (hi : (words data)[i]? = some w) :
    exists rest, (words data).sum = rest + w ∧ forall v, v < 2 ^ 16 ->
      ipv4Checksum (storeWord data (2 * i) v) =
        65535 - ((rest + v - 1) % 65535 + min (rest + v) 1) := by
  obtain ⟨hlt, hw⟩ := List.getElem?_eq_some_iff.mp hi
  obtain ⟨rest, hset⟩ : exists rest, forall v,
      ((words data).set i v).sum = rest + v := by
    refine ⟨((words data).take i).sum + ((words data).drop (i + 1)).sum, ?_⟩
    intro v
    rw [List.sum_set, if_pos hlt, Nat.add_right_comm]
  refine ⟨rest, ?_, ?_⟩
  · rw [<- hset w, <- hw, List.set_getElem_self]
  · intro v hv
    have hsame : (storeWord data (2 * i) v).length = data.length := by
      simp [storeWord]
    rw [ipv4Checksum_eq (hsame ▸ heven) (hsame ▸ hlen), words_storeWord hv,
      hset]

/-- For bytes of an even length below 2^17 and each of their words: the checksum
with the word cleared makes the checksum of the whole zero when it is stored
there, the order of the words does not matter, and a word that differs modulo
65535 changes the checksum. -/
theorem internet_checksum_laws (data : List UInt8)
    (heven : data.length % 2 = 0) (hlen : data.length < 2 ^ 17) :
    (forall i, i < (words data).length ->
      ipv4Checksum (storeWord data (2 * i)
        (ipv4Checksum (storeWord data (2 * i) 0))) = 0) ∧
    (forall data', data'.length = data.length ->
      (words data').Perm (words data) -> ipv4Checksum data' =
        ipv4Checksum data) ∧
    forall i w v, (words data)[i]? = some w -> v < 2 ^ 16 ->
      ¬ v ≡ w [MOD 65535] ->
      ipv4Checksum (storeWord data (2 * i) v) ≠ ipv4Checksum data := by
  refine ⟨?_, ?_, ?_⟩
  · intro i hi
    obtain ⟨rest, _, hstore⟩ :=
      storeWord_checksum heven hlen (List.getElem?_eq_getElem hi)
    rw [hstore 0 (by decide), hstore _ (by omega)]
    omega
  · intro data' hsame hperm
    rw [ipv4Checksum_eq heven hlen,
      ipv4Checksum_eq (hsame ▸ heven) (hsame ▸ hlen), hperm.sum_eq]
  · intro i w v hi hv hne
    obtain ⟨rest, hsum, hstore⟩ := storeWord_checksum heven hlen hi
    rw [hstore v hv, ipv4Checksum_eq heven hlen, hsum]
    unfold Nat.ModEq at hne
    omega

theorem internet_checksum_laws_two_words :
    ipv4Checksum (storeWord [1, 2, 3, 4] 2
      (ipv4Checksum (storeWord [1, 2, 3, 4] 2 0))) = 0 ∧
    ipv4Checksum [3, 4, 1, 2] = ipv4Checksum [1, 2, 3, 4] ∧
    ipv4Checksum (storeWord [1, 2, 3, 4] 2 5) ≠ ipv4Checksum [1, 2, 3, 4] := by
  obtain ⟨hstore, hperm, hchange⟩ :=
    internet_checksum_laws [1, 2, 3, 4] (by decide) (by decide)
  exact ⟨hstore 1 (by decide), hperm _ rfl (List.Perm.swap ..),
    hchange 1 _ 5 rfl (by decide) (by decide)⟩

end Net
end Horizon
