import Horizon.Strings
import Horizon.Types

/-!
# Paths of dentries

`vfs_d_path` of `fs/open.c`.  The path is written from the end of the buffer
upwards and then moved to the front.
-/

namespace Horizon
namespace Paths

open Function List Bytes Strings
open Errno

/-- A dentry with the chain of its parents up to `root_dentry`. -/
inductive Dentry where
  | root
  | child (parent : Dentry) (name : List UInt8)

def slash : UInt8 := 47

/-- A pointer moved back.  Pointers have 32 bits. -/
def back (p n : Nat) : Nat := (p + (2 ^ 32 - n)) % 2 ^ 32

/-- The walk up to the root, with the pointer if the names fit. -/
def vfsDPathLoop (buf : Nat) : Dentry -> Nat -> Buffer -> Option Nat × Buffer
  | Dentry.root, p, mem => (some p, mem)
  | Dentry.child parent name, p, mem =>
      let p := back p name.length
      if p < buf then (none, mem)
      else
        let mem := put mem p name
        let p := back p 1
        if p < buf then (none, mem)
        else vfsDPathLoop buf parent p (update mem p slash)

def vfsDPath (dentry : Dentry) (mem : Buffer) (buf : Nat) (buflen : Int) :
    Int × Buffer :=
  if buf = 0 ∨ buflen <= 0 then (-einval, mem)
  else
    match dentry with
    | Dentry.root =>
        if buflen < 2 then (-erange, mem)
        else (1, update (update mem buf slash) (buf + 1) 0)
    | dentry =>
        let stop := buf + buflen.toNat
        let p := stop - 1
        match vfsDPathLoop buf dentry p (update mem p 0) with
        | (none, mem) => (-erange, mem)
        | (some p, mem) =>
            let len : Int := stop - p - 1
            if p > buf then (len, memmove mem buf p (len + 1).toNat)
            else (len, mem)

def Dentry.names : Dentry -> List UInt8
  | Dentry.root => []
  | Dentry.child parent name => parent.names ++ slash :: name

def Dentry.path : Dentry -> List UInt8
  | Dentry.root => [slash]
  | Dentry.child parent name => (Dentry.child parent name).names

/-- No name is longer than the memory below the buffer. -/
def Dentry.Below (buf : Nat) : Dentry -> Prop
  | Dentry.root => True
  | Dentry.child parent name => name.length <= buf ∧ parent.Below buf

variable {mem : Buffer} {n p buf : Nat} {d : Dentry}

theorem back_eq (hle : n <= p) (hlt : p < 2 ^ 32) : back p n = p - n := by
  unfold back
  omega

/-- The walk writes the names in front of the pointer, or they do not fit. -/
theorem vfsDPathLoop_cases (hbuf : 0 < buf) (hbelow : d.Below buf)
    (mem : Buffer) (hp : buf <= p) (hlt : p < 2 ^ 32) :
    (exists q, buf <= q ∧ q + d.names.length = p ∧
      vfsDPathLoop buf d p mem = (some q, put mem q d.names)) ∨
    p < buf + d.names.length ∧
      exists mem', vfsDPathLoop buf d p mem = (none, mem') ∧
        forall a, a < buf ∨ p <= a -> mem' a = mem a := by
  induction d generalizing p mem with
  | root => exact Or.inl ⟨p, hp, rfl, by rw [Dentry.names, put_nil]; rfl⟩
  | child parent name ih =>
    have hlen : (Dentry.child parent name).names.length =
        parent.names.length + (name.length + 1) := length_append
    have hname := hbelow.left
    unfold vfsDPathLoop
    dsimp only
    rw [hlen, back_eq (by omega) hlt]
    obtain ⟨q, rfl⟩ : exists q, p = q + name.length :=
      ⟨p - name.length, by omega⟩
    rw [Nat.add_sub_cancel]
    split
    case isTrue hfull =>
      exact Or.inr ⟨by omega, mem, rfl, fun _ _ => rfl⟩
    case isFalse hfits =>
      obtain ⟨r, rfl⟩ : exists r, q = r + 1 := ⟨q - 1, by omega⟩
      rw [back_eq (by omega) (by omega), Nat.add_sub_cancel]
      split
      case isTrue hfull =>
        refine Or.inr ⟨by omega, put mem (r + 1) name, rfl, fun a ha => ?_⟩
        exact put_of_outside (by omega)
      case isFalse hroom =>
        rw [update_put]
        rcases ih hbelow.right (put mem r (slash :: name)) (p := r) (by omega)
          (by omega) with ⟨q, hq, rfl, hrun⟩ | ⟨hfull, mem', hrun, hout⟩
        · rw [put_append] at hrun
          exact Or.inl ⟨q, hq, by omega, hrun⟩
        · refine Or.inr ⟨by omega, mem', hrun, fun a ha => ?_⟩
          rw [hout a (by omega), put_of_outside (by rw [length_cons]; omega)]

theorem vfsDPath_cases (hbuf : 0 < buf) (hbelow : d.Below buf) (mem : Buffer)
    (hlt : buf + n < 2 ^ 32) :
    (exists q, buf <= q ∧ q + d.path.length <= buf + n ∧
      vfsDPath d mem buf (n + 1) = ((d.path.length : Int),
        memmove (put mem q (d.path ++ [0])) buf q (d.path.length + 1))) ∨
    n < d.path.length ∧
      exists mem', vfsDPath d mem buf (n + 1) = (-erange, mem') ∧
        forall a, a < buf ∨ buf + n < a -> mem' a = mem a := by
  unfold vfsDPath
  rw [if_neg (by omega)]
  cases d with
  | root =>
    have hlen : (Dentry.root).path.length = 1 := rfl
    rw [hlen]
    dsimp only
    split
    case isTrue hsmall => exact Or.inr ⟨by omega, mem, rfl, fun _ _ => rfl⟩
    case isFalse hlarge =>
      refine Or.inl ⟨buf, Nat.le_refl buf, by omega, ?_⟩
      rw [memmove_self, Dentry.path, singleton_append, <- update_put,
        <- update_put, put_nil, update_comm (by omega)]
      rfl
  | child parent name =>
    have hput : update mem (buf + n) 0 = put mem (buf + n) [0] := by
      rw [<- update_put, put_nil]
    have hstop : buf + ((n : Int) + 1).toNat = buf + n + 1 := by omega
    dsimp only
    rw [hstop, Nat.add_sub_cancel, hput]
    rcases vfsDPathLoop_cases hbuf hbelow (put mem (buf + n) [0])
      (Nat.le_add_right buf n) hlt with
      ⟨q, hq, hend, hrun⟩ | ⟨hfull, mem', hrun, hout⟩
    · refine Or.inl ⟨q, hq, Nat.le_of_eq hend, ?_⟩
      have hret : ((buf + n + 1 : Nat) : Int) - q - 1 =
          (Dentry.child parent name).path.length := by
        rw [Dentry.path]
        omega
      rw [hrun, <- hend, put_append]
      dsimp only
      rw [hend, hret]
      split
      case isTrue => rfl
      case isFalse hle =>
        obtain rfl : buf = q := by omega
        rw [memmove_self]
        rfl
    · refine Or.inr ⟨Nat.lt_of_add_lt_add_left hfull, mem', ?_, fun a ha => ?_⟩
      · rw [hrun]
      · rw [hout a (by omega), put_of_outside (by rw [length_singleton]; omega)]

/-- A path that fits is written with its NUL, and any other gives `-ERANGE`; no
byte outside the buffer changes. -/
theorem vfs_d_path_writes_path (dentry : Dentry) (mem : Buffer) (buf : Nat)
    (buflen : Int) (hbuf : 0 < buf) (hpos : 0 < buflen)
    (hlt : buf + buflen <= 2 ^ 32) (hbelow : dentry.Below buf) :
    exists mem', vfsDPath dentry mem buf buflen =
        (if dentry.path.length + 1 <= buflen then (dentry.path.length : Int)
          else -erange, mem') ∧
      (dentry.path.length + 1 <= buflen ->
        forall i, i <= dentry.path.length ->
          mem' (buf + i) = (dentry.path ++ [0]).getD i 0) ∧
      forall a : Nat, a < buf ∨ buf + buflen <= a -> mem' a = mem a := by
  obtain ⟨n, rfl⟩ : exists n : Nat, buflen = n + 1 :=
    ⟨(buflen - 1).toNat, by omega⟩
  have hlen : (dentry.path ++ [0]).length = dentry.path.length + 1 :=
    length_append
  rcases vfsDPath_cases (n := n) hbuf hbelow mem (by omega) with
    ⟨q, hq, hend, hrun⟩ | ⟨hfull, mem', hrun, hout⟩
  · rw [hrun, if_pos (by omega), memmove_eq]
    refine ⟨_, rfl, fun _ i hi => ?_, fun a ha => ?_⟩
    · rw [memcpy_apply (by omega), put_apply (by omega)]
    · rw [memcpy_of_outside (by omega), put_of_outside (by omega)]
  · refine ⟨mem', ?_, fun hfits => absurd hfits (by omega), fun a ha => ?_⟩
    · rw [hrun, if_neg (by omega)]
    · exact hout a (by omega)

/-- The path `/a/b` in a buffer of five bytes. -/
theorem vfs_d_path_writes_two_names :
    exists mem', vfsDPath (((Dentry.root).child [97]).child [98])
        (fun _ => 0) 8 5 = (4, mem') ∧
      forall i, i <= 4 -> mem' (8 + i) = [47, 97, 47, 98, 0].getD i 0 := by
  obtain ⟨mem', hrun, hpath, -⟩ := vfs_d_path_writes_path
    (((Dentry.root).child [97]).child [98]) (fun _ => 0) 8 5 (by decide)
    (by decide) (by decide) ⟨by decide, by decide, trivial⟩
  exact ⟨mem', hrun, hpath (by decide)⟩

/-- The path of the root does not fit an empty buffer, but its length is refused
before that is seen. -/
theorem vfs_d_path_empty_buffer :
    (0 : Int) < (Dentry.root).path.length + 1 ∧
      (vfsDPath Dentry.root (fun _ => 0) 8 0).1 ≠ -erange := by
  decide

end Paths
end Horizon
