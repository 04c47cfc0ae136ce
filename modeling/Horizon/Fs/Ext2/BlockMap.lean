import Horizon.Fs.Ext2.InodeTable
import Horizon.Lib.PointerTree

/-!
# The block map of a file

This module follows `ext2_get_block` and `ext2_alloc_block` of `util.c`.  An
inode has twelve direct pointers and three trees of pointer blocks, one, two and
three levels deep.  The lookup walks down a tree; only the direct pointers and
the one-level tree can be extended.
-/

namespace Horizon
namespace Ext2

open Bytes

/-- `blocks_per_indirect`, the number of pointers in a block. -/
def Geometry.pointers (geo : Geometry) : Nat := geo.blockSize / 4

/-!
## Looking a block up
-/

/--
The step that every level repeats: a zero pointer ends the lookup, and so does
a failure to get the buffer or to read the block.
-/
def indirectEntry (m : Mount) (block index : Nat) : Nat × Mount :=
  if block = 0 then (0, m)
  else
    match kmallocFails m with
    | (true, m) => (0, m)
    | (false, m) =>
        match ext2ReadBlock m block with
        | (none, m) => (0, m)
        | (some buffer, m) => (getU32 buffer (4 * index), m)

/-- The physical block of a logical block, zero if there is none. -/
def ext2GetBlock (m : Mount) (inode : Inode) (block : Nat) : Nat × Mount :=
  let n := m.geo.pointers
  let n2 := n * n % 2 ^ 32
  let n3 := n * n2 % 2 ^ 32
  if block < 12 then (inode.data block, m)
  else
    let block := block - 12
    if block < n then indirectEntry m (inode.data 12) block
    else
      let block := block - n
      if block < n2 then
        match indirectEntry m (inode.data 13) (block / n) with
        | (indirect, m) => indirectEntry m indirect (block % n)
      else
        let block := block - n2
        if block < n3 then
          match indirectEntry m (inode.data 14) (block / n2) with
          | (double, m) =>
              match indirectEntry m double (block % n2 / n) with
              | (indirect, m) => indirectEntry m indirect (block % n)
        else (0, m)

/-!
## Extending the map
-/

@[simps] def Inode.setData (inode : Inode) (i b : Nat) : Inode :=
  { inode with data := Function.update inode.data i b }

/-- `ext2_free_block` where the caller ignores its result. -/
def freeQuietly (m : Mount) (block : Nat) : Mount := (ext2FreeBlock m block).2

/--
The one-level pointer block of the inode, allocated and cleared if there is
none.  When that fails, the data block `phys` that was to be entered is
given back.
-/
def ext2IndirectBlock (m : Mount) (inode : Inode) (phys : Nat) :
    Option Nat × Inode × Mount :=
  if inode.data 12 ≠ 0 then (some (inode.data 12), inode, m)
  else
    match ext2NewBlock m with
    | (indirect, m) =>
        if indirect = 0 then (none, inode, freeQuietly m phys)
        else
          let inode := inode.setData 12 indirect
          match kmallocFails m with
          | (true, m) =>
              (none, inode, freeQuietly (freeQuietly m phys) indirect)
          | (false, m) =>
              match ext2WriteBlock m indirect zeros with
              | (false, m) =>
                  (none, inode, freeQuietly (freeQuietly m phys) indirect)
              | (true, m) => (some indirect, inode, m)

def setIndirectEntry (m : Mount) (indirect index phys : Nat) : Nat × Mount :=
  match kmallocFails m with
  | (true, m) => (0, freeQuietly m phys)
  | (false, m) =>
      match ext2ReadBlock m indirect with
      | (none, m) => (0, freeQuietly m phys)
      | (some buffer, m) =>
          match ext2WriteBlock m indirect
              (putU32 buffer (4 * index) phys) with
          | (false, m) => (0, freeQuietly m phys)
          | (true, m) => (phys, m)

def ext2AllocBlock (m : Mount) (inode : Inode) (block : Nat) :
    Nat × Inode × Mount :=
  match ext2NewBlock m with
  | (phys, m) =>
      if phys = 0 then (0, inode, m)
      else if block < 12 then (phys, inode.setData block phys, m)
      else if block - 12 < m.geo.pointers then
        match ext2IndirectBlock m inode phys with
        | (none, inode, m) => (0, inode, m)
        | (some indirect, inode, m) =>
            match setIndirectEntry m indirect (block - 12) phys with
            | (phys, m) => (phys, inode, m)
      else (0, inode, freeQuietly m phys)

/-!
## Places
-/

/-- A pointer of the inode and a path of indices below it. -/
abbrev Place := Fin 15 × List Nat

/-- The levels of pointer blocks below each pointer of the inode. -/
def levels (r : Fin 15) : Nat := r.val - 11

def entryAt (m : Mount) (b i : Nat) : Nat :=
  if b = 0 then 0 else getU32 (m.block b) (4 * i)

def blockAt (m : Mount) (inode : Inode) (p : Place) : Nat :=
  PointerTree.value (fun r : Fin 15 => inode.data r) (entryAt m) p

abbrev LegalPlace (m : Mount) (p : Place) : Prop :=
  PointerTree.Legal levels m.geo.pointers p

def place (n k : Nat) : Option Place :=
  if h : k < 12 then some (⟨k, by omega⟩, [])
  else if k < 12 + n then some (12, [k - 12])
  else if k < 12 + n + n * n then
    some (13, [(k - 12 - n) / n, (k - 12 - n) % n])
  else if k < 12 + n + n * n + n * (n * n) then
    some (14, [(k - 12 - n - n * n) / (n * n),
      (k - 12 - n - n * n) % (n * n) / n, (k - 12 - n - n * n) % n])
  else none

def fileBlock (m : Mount) (inode : Inode) (k : Nat) : Nat :=
  match place m.geo.pointers k with
  | none => 0
  | some p => blockAt m inode p

/-- A byte of the file, with holes read as zeros. -/
def fileByte (m : Mount) (inode : Inode) (o : Nat) : UInt8 :=
  if fileBlock m inode (o / m.geo.blockSize) = 0 then 0
  else m.block (fileBlock m inode (o / m.geo.blockSize)) (o % m.geo.blockSize)

theorem exists_place {m : Mount} {inode : Inode} {k : Nat}
    (hk : fileBlock m inode k ≠ 0) :
    exists p, place m.geo.pointers k = some p ∧
      blockAt m inode p = fileBlock m inode k := by
  unfold fileBlock at hk ⊢
  cases hp : place m.geo.pointers k with
  | none =>
    rw [hp] at hk
    exact absurd rfl hk
  | some p => exact ⟨p, rfl, rfl⟩

theorem fileByte_add {m : Mount} (inode : Inode) (k : Nat) {i : Nat}
    (hi : i < m.geo.blockSize) :
    fileByte m inode (k * m.geo.blockSize + i) =
      if fileBlock m inode k = 0 then 0
      else m.block (fileBlock m inode k) i := by
  unfold fileByte
  rw [Nat.mul_comm k, Nat.mul_add_div (by omega), Nat.div_eq_of_lt hi,
    Nat.add_zero, Nat.mul_add_mod, Nat.mod_eq_of_lt hi]

/-!
## The lookup finds the place
-/

/-- No device call and no `kmalloc` is going to fail. -/
structure Calm (m : Mount) : Prop where
  io : m.io = []
  mem : m.mem = []

variable {m : Mount} {b k : Nat}

theorem Calm.kmalloc (h : Calm m) : kmallocFails m = (false, m) := by
  unfold kmallocFails
  rw [h.mem]

theorem Calm.read (h : Calm m) (hpos : 0 < m.geo.blockSize) (hlow : Low m b) :
    ext2ReadBlock m b = (some (m.block b), m) := by
  rw [ext2ReadBlock_calm h.io, blockOffset_low hpos hlow]
  rfl

theorem Calm.write (h : Calm m) (b : Nat) (buffer : Buffer) :
    ext2WriteBlock m b buffer = (true, writeTo m b buffer) :=
  ext2WriteBlock_calm h.io b buffer

/-- Entry `i` of a pointer block, as `ext2_read_block` delivers it. -/
def readEntry (m : Mount) (b i : Nat) : Nat :=
  if b = 0 then 0 else getU32 (fun j => m.dev (blockOffset m b + j)) (4 * i)

theorem indirectEntry_read (h : Calm m) (b i : Nat) :
    indirectEntry m b i = (readEntry m b i, m) := by
  unfold indirectEntry readEntry
  by_cases hzero : b = 0
  · rw [if_pos hzero, if_pos hzero]
  · rw [if_neg hzero, if_neg hzero, h.kmalloc]
    simp only [ext2ReadBlock_calm h.io]

theorem readEntry_low (hpos : 0 < m.geo.blockSize) (hlow : Low m b) (i : Nat) :
    readEntry m b i = entryAt m b i := by
  unfold readEntry
  rw [blockOffset_low hpos hlow]
  rfl

/-- The reference map: the pointers on the path, in unbounded arithmetic. -/
def mappedBlock (m : Mount) (inode : Inode) (k : Nat) : Nat :=
  match place m.geo.pointers k with
  | none => 0
  | some p => PointerTree.value (fun r : Fin 15 => inode.data r) (readEntry m) p

/-- The 32-bit products that `ext2_get_block` compares with are exact. -/
def ExactMap (n k : Nat) : Prop :=
  k < 12 + n ∨ (n * n < 2 ^ 32 ∧ (k < 12 + n + n * n ∨ n * (n * n) < 2 ^ 32))

/-- The blocks on the way to a logical block, and its own, lie below 4 GiB. -/
def LowPath (m : Mount) (inode : Inode) (k : Nat) : Prop :=
  forall p, place m.geo.pointers k = some p ->
    forall path, path <+: p.2 -> Low m (blockAt m inode (p.1, path))

theorem ext2GetBlock_mapped {inode : Inode} (h : Calm m)
    (hexact : ExactMap m.geo.pointers k) :
    ext2GetBlock m inode k = (mappedBlock m inode k, m) := by
  unfold ext2GetBlock mappedBlock place
  simp only [indirectEntry_read h]
  generalize m.geo.pointers = n at hexact
  by_cases hdirect : k < 12
  · rw [if_pos hdirect, dif_pos hdirect]
    rfl
  rw [if_neg hdirect, dif_neg hdirect]
  by_cases hone : k < 12 + n
  · rw [if_pos (by omega), if_pos hone]
    rfl
  rcases hexact with hlt | ⟨hlt2, hexact⟩
  · exact absurd hlt hone
  rw [if_neg (by omega), if_neg hone, Nat.mod_eq_of_lt hlt2]
  by_cases htwo : k < 12 + n + n * n
  · rw [if_pos (by omega), if_pos htwo]
    rfl
  rcases hexact with hlt | hlt3
  · exact absurd hlt htwo
  rw [if_neg (by omega), if_neg htwo, Nat.mod_eq_of_lt hlt3]
  by_cases hthree : k < 12 + n + n * n + n * (n * n)
  · rw [if_pos (by omega), if_pos hthree]
    rfl
  · rw [if_neg (by omega), if_neg hthree]

theorem ext2GetBlock_eq {inode : Inode} (h : Calm m)
    (hpos : 0 < m.geo.blockSize) (hexact : ExactMap m.geo.pointers k)
    (hlow : LowPath m inode k) :
    ext2GetBlock m inode k = (fileBlock m inode k, m) := by
  rw [ext2GetBlock_mapped h hexact]
  unfold mappedBlock fileBlock
  split
  case h_1 => rfl
  case h_2 p hp =>
    -- every block on the path is read where it is
    have hvalue := PointerTree.value_congr_path p.1 p.2
      fun path hpath => funext (readEntry_low hpos (hlow p hp path hpath))
    exact congrArg (Prod.mk · m) hvalue

theorem Geometry.pointers_pow {geo : Geometry} {j : Nat}
    (h : geo.blockSize = 2 ^ (10 + j)) :
    geo.pointers = 2 ^ (8 + j) ∧ geo.pointers * geo.pointers = 2 ^ (16 + 2 * j) ∧
      geo.pointers * (geo.pointers * geo.pointers) = 2 ^ (24 + 3 * j) := by
  have hn : geo.pointers = 2 ^ (8 + j) := by
    unfold Geometry.pointers
    rw [h, show 10 + j = 8 + j + 2 by omega, Nat.pow_add]
    exact Nat.mul_div_cancel _ (by decide)
  rw [hn, ← Nat.pow_add, ← Nat.pow_add]
  exact ⟨rfl, by congr 1; omega, by congr 1; omega⟩

/-- Files of less than 4 GiB stay within the exact products. -/
theorem exactMap_of_lt
    (hsize : exists j, j < 22 ∧ m.geo.blockSize = 2 ^ (10 + j))
    (hk : k * m.geo.blockSize < 2 ^ 32) : ExactMap m.geo.pointers k := by
  rcases hsize with ⟨j, hj, hbs⟩
  rcases Geometry.pointers_pow hbs with ⟨hn, hsq, hcube⟩
  have hkn : k * 2 ^ (10 + j) < 2 ^ 32 := by
    rw [← hbs]
    exact hk
  have hbound : forall e, 22 - j <= e -> k < 2 ^ e := by
    intro e he
    have hlt : k < 2 ^ (22 - j) := by
      apply Nat.lt_of_mul_lt_mul_right (a := 2 ^ (10 + j))
      rw [← Nat.pow_add, show 22 - j + (10 + j) = 32 by omega]
      exact hkn
    exact Nat.lt_of_lt_of_le hlt (Nat.pow_le_pow_right (by decide) he)
  unfold ExactMap
  rw [hcube, hsq, hn]
  by_cases hsmall : j <= 2
  · right
    exact ⟨Nat.pow_lt_pow_right (by decide) (by omega),
      Or.inr (Nat.pow_lt_pow_right (by decide) (by omega))⟩
  · by_cases hmid : j <= 7
    · right
      have hlt := hbound (16 + 2 * j) (by omega)
      exact ⟨Nat.pow_lt_pow_right (by decide) (by omega), Or.inl (by omega)⟩
    · left
      have hlt := hbound (8 + j) (by omega)
      omega

end Ext2
end Horizon
