import Horizon.Fs.Ext2.Inode
import Mathlib.Data.Nat.Prime.Basic

/-!
# The inode tables

Writing an inode and reading it back, and what the write leaves alone.  The
slots of different inode numbers are disjoint, within a group by their index
and across groups because the tables are.
-/

namespace Horizon
namespace Ext2

open Bytes

/-!
## Calls that do not fail
-/

variable {m : Mount} {i ino count group : Nat} {data : Nat -> Nat}
    {b e2i : Buffer} {base inode : Inode}

theorem ext2ReadBlock_calm (h : m.io = []) (b : Nat) :
    ext2ReadBlock m b = (some fun i => m.dev (blockOffset m b + i), m) := by
  rw [ext2ReadBlock_eq, h]
  have hsame : m.setIo [] = m := by
    rw [← h]
    rfl
  show (some (fun i => m.dev (blockOffset m b + i)), m.setIo []) = _
  rw [hsame]

theorem ext2WriteBlock_calm (h : m.io = []) (b : Nat) (buffer : Buffer) :
    ext2WriteBlock m b buffer = (true, writeTo m b buffer) := by
  rw [ext2WriteBlock_eq, h]
  have hsame : (writeTo m b buffer).setIo [] = writeTo m b buffer := by
    rw [← h]
    rfl
  show (true, (writeTo m b buffer).setIo []) = _
  rw [hsame]

/-!
## The record
-/

theorem getLE_putBlocks_of_disjoint {n off : Nat}
    (h : off + n <= 40 ∨ 40 + 4 * count <= off) :
    getLE n (putBlocks data count b) off = getLE n b off := by
  induction count with
  | zero => rfl
  | succ i ih =>
    unfold putBlocks
    rw [getLE_putLE_of_disjoint (by omega)]
    exact ih (by omega)

theorem getLE_putBlocks (h : i < count) :
    getLE 4 (putBlocks data count b) (40 + 4 * i) = data i % 256 ^ 4 := by
  induction count with
  | zero => omega
  | succ k ih =>
    unfold putBlocks
    by_cases hik : i = k
    · rw [hik]
      exact getLE_putLE 4 _ _ _
    · rw [getLE_putLE_of_disjoint (by omega)]
      exact ih (by omega)

namespace FileType

theorem mode_and_format (t : FileType) : t.mode &&& 0xF000 = t.mode := by
  cases t <;> rfl

theorem mode_and_permissions (t : FileType) : t.mode &&& 0xFFF = 0 := by
  cases t <;> rfl

theorem mode_lt (t : FileType) : t.mode < 2 ^ 16 := by
  cases t <;> decide

theorem ofMode_mode {t : FileType} {w : Nat} (h : w &&& 0xF000 = t.mode) :
    ofMode w = t := by
  unfold ofMode
  rw [h]
  cases t <;> rfl

end FileType

theorem modeWord_format (t : FileType) (p : Nat) :
    (t.mode ||| (p &&& 0xFFF)) &&& 0xF000 = t.mode := by
  rw [Nat.and_or_distrib_right, FileType.mode_and_format, Nat.and_assoc]
  simp

theorem and_permissions {p : Nat} (h : p < 2 ^ 12) : p &&& 0xFFF = p := by
  have hmask : p &&& 2 ^ 12 - 1 = p := by
    rw [Nat.and_two_pow_sub_one_eq_mod, Nat.mod_eq_of_lt h]
  exact hmask

theorem modeWord_permissions (t : FileType) (p : Nat) :
    (t.mode ||| (p &&& 0xFFF)) &&& 0xFFF = p &&& 0xFFF := by
  rw [Nat.and_or_distrib_right, FileType.mode_and_permissions, Nat.and_assoc,
    Nat.and_self, Nat.zero_or]

theorem modeWord_lt (t : FileType) (p : Nat) :
    t.mode ||| (p &&& 0xFFF) < 256 ^ 2 := by
  have hp : p &&& 0xFFF < 2 ^ 16 :=
    Nat.lt_of_le_of_lt Nat.and_le_right (by decide)
  exact Nat.or_lt_two_pow t.mode_lt hp

/-- The fields that the record keeps fit their widths on disk. -/
structure Inode.Widths (inode : Inode) : Prop where
  permissions : inode.permissions < 2 ^ 12
  uid : inode.uid < 2 ^ 16
  gid : inode.gid < 2 ^ 16
  size : inode.size < 2 ^ 32
  links : inode.links < 2 ^ 16
  blocks : inode.blocks < 2 ^ 32
  atime : inode.atime < 2 ^ 32
  mtime : inode.mtime < 2 ^ 32
  ctime : inode.ctime < 2 ^ 32
  data : forall i, i < 15 -> inode.data i < 2 ^ 32

structure Inode.Agree (a b : Inode) : Prop where
  num : a.num = b.num
  type : a.type = b.type
  permissions : a.permissions = b.permissions
  uid : a.uid = b.uid
  gid : a.gid = b.gid
  size : a.size = b.size
  links : a.links = b.links
  blocks : a.blocks = b.blocks
  atime : a.atime = b.atime
  mtime : a.mtime = b.mtime
  ctime : a.ctime = b.ctime
  data : forall i, i < 15 -> a.data i = b.data i

/-- `a` has the fields of `b`, cut to their widths on disk. -/
structure Inode.Cut (a b : Inode) : Prop where
  num : a.num = b.num
  type : a.type = b.type
  permissions : a.permissions = b.permissions &&& 0xFFF
  uid : a.uid = b.uid % 2 ^ 16
  gid : a.gid = b.gid % 2 ^ 16
  size : a.size = b.size % 2 ^ 32
  links : a.links = b.links % 2 ^ 16
  blocks : a.blocks = b.blocks % 2 ^ 32
  atime : a.atime = b.atime % 2 ^ 32
  mtime : a.mtime = b.mtime % 2 ^ 32
  ctime : a.ctime = b.ctime % 2 ^ 32
  data : forall i, i < 15 -> a.data i = b.data i % 2 ^ 32

theorem getLE_store (inode : Inode) :
    getLE 2 inode.store 2 = inode.uid % 2 ^ 16 ∧
    getLE 2 inode.store 24 = inode.gid % 2 ^ 16 ∧
    getLE 4 inode.store 4 = inode.size % 2 ^ 32 ∧
    getLE 2 inode.store 26 = inode.links % 2 ^ 16 ∧
    getLE 4 inode.store 28 = inode.blocks % 2 ^ 32 ∧
    getLE 4 inode.store 8 = inode.atime % 2 ^ 32 ∧
    getLE 4 inode.store 16 = inode.mtime % 2 ^ 32 ∧
    getLE 4 inode.store 12 = inode.ctime % 2 ^ 32 := by
  unfold Inode.store
  refine ⟨?_, ?_, ?_, ?_, ?_, ?_, ?_, ?_⟩ <;>
  · simp (disch := omega) only [getLE_putLE_of_disjoint,
      getLE_putBlocks_of_disjoint]
    exact getLE_putLE _ _ _ _

theorem load_store_cut (hnum : base.num = inode.num)
    (he2i : forall i, i < 128 -> e2i i = inode.store i) :
    (base.load group e2i).Cut inode := by
  have hget : forall n off, off + n <= 128 ->
      getLE n e2i off = getLE n inode.store off := by
    intro n off hle
    apply getLE_congr
    intro i hi
    exact he2i (off + i) (by omega)
  have hmode : getLE 2 inode.store 0 =
      inode.type.mode ||| (inode.permissions &&& 0xFFF) := by
    unfold Inode.store
    simp (disch := omega) only [getLE_putLE_of_disjoint,
      getLE_putBlocks_of_disjoint]
    exact getLE_putLE_of_lt (modeWord_lt _ _)
  rcases getLE_store inode with
    ⟨huid, hgid, hsize, hlinks, hblocks, hatime, hmtime, hctime⟩
  constructor
  · exact hnum
  · show FileType.ofMode (getLE 2 e2i 0) = inode.type
    rw [hget 2 0 (by omega), hmode]
    exact FileType.ofMode_mode (modeWord_format _ _)
  · show getLE 2 e2i 0 &&& 0xFFF = inode.permissions &&& 0xFFF
    rw [hget 2 0 (by omega), hmode]
    exact modeWord_permissions _ _
  · exact (hget 2 2 (by omega)).trans huid
  · exact (hget 2 24 (by omega)).trans hgid
  · exact (hget 4 4 (by omega)).trans hsize
  · exact (hget 2 26 (by omega)).trans hlinks
  · exact (hget 4 28 (by omega)).trans hblocks
  · exact (hget 4 8 (by omega)).trans hatime
  · exact (hget 4 16 (by omega)).trans hmtime
  · exact (hget 4 12 (by omega)).trans hctime
  · intro i hi
    show getLE 4 e2i (40 + 4 * i) = inode.data i % 2 ^ 32
    rw [hget 4 (40 + 4 * i) (by omega)]
    unfold Inode.store
    simp (disch := omega) only [getLE_putLE_of_disjoint]
    exact getLE_putBlocks hi

theorem Inode.Cut.agree {a b : Inode} (h : a.Cut b) (hwidth : b.Widths) :
    a.Agree b where
  num := h.num
  type := h.type
  permissions := by
    rw [h.permissions]
    exact and_permissions hwidth.permissions
  uid := h.uid.trans (Nat.mod_eq_of_lt hwidth.uid)
  gid := h.gid.trans (Nat.mod_eq_of_lt hwidth.gid)
  size := h.size.trans (Nat.mod_eq_of_lt hwidth.size)
  links := h.links.trans (Nat.mod_eq_of_lt hwidth.links)
  blocks := h.blocks.trans (Nat.mod_eq_of_lt hwidth.blocks)
  atime := h.atime.trans (Nat.mod_eq_of_lt hwidth.atime)
  mtime := h.mtime.trans (Nat.mod_eq_of_lt hwidth.mtime)
  ctime := h.ctime.trans (Nat.mod_eq_of_lt hwidth.ctime)
  data i hi := (h.data i hi).trans (Nat.mod_eq_of_lt (hwidth.data i hi))

theorem load_store (hwidth : inode.Widths) (hnum : base.num = inode.num)
    (he2i : forall i, i < 128 -> e2i i = inode.store i) :
    (base.load group e2i).Agree inode :=
  (load_store_cut hnum he2i).agree hwidth

/-!
## Slots
-/

def Geometry.tableBlocks (geo : Geometry) : Nat :=
  (geo.inodesPerGroup * geo.inodeSize + geo.blockSize - 1) / geo.blockSize

/--
The inode tables of a well-formed mount: the inode size divides the block size,
the tables do not overlap, and inode and block numbers fit 32 bits.
-/
structure TableLayout (m : Mount) : Prop where
  size : exists k, k < 22 ∧ m.geo.blockSize = 2 ^ (10 + k)
  divides : m.geo.inodeSize ∣ m.geo.blockSize
  perGroup : 0 < m.geo.inodesPerGroup
  numbers : m.geo.groupsCount * m.geo.inodesPerGroup < 2 ^ 32
  bytes : m.geo.inodesPerGroup * m.geo.inodeSize < 2 ^ 32
  tableEnd : forall g, g < m.geo.groupsCount ->
    (m.groups g).inodeTable + m.geo.tableBlocks <= 2 ^ 32
  disjoint : forall g g', g < m.geo.groupsCount -> g' < m.geo.groupsCount ->
    g ≠ g' ->
    (m.groups g).inodeTable + m.geo.tableBlocks <= (m.groups g').inodeTable ∨
    (m.groups g').inodeTable + m.geo.tableBlocks <= (m.groups g).inodeTable

def ValidInode (m : Mount) (ino : Nat) : Prop :=
  1 <= ino ∧ ino <= m.geo.groupsCount * m.geo.inodesPerGroup

def InTable (m : Mount) (b : Nat) : Prop :=
  exists g, g < m.geo.groupsCount ∧ (m.groups g).inodeTable <= b ∧
    b < (m.groups g).inodeTable + m.geo.tableBlocks

def slot (m : Mount) (ino : Nat) : Nat :=
  (m.groups (inodeGroup m ino)).inodeTable * m.geo.blockSize +
    inodeIndex m ino * m.geo.inodeSize

namespace ValidInode

variable (hvalid : ValidInode m ino)
  (hnumbers : m.geo.groupsCount * m.geo.inodesPerGroup < 2 ^ 32)
include hvalid hnumbers

theorem rel_eq : sub32 ino 1 = ino - 1 := by
  have hle := hvalid.right
  have hpos := hvalid.left
  unfold sub32
  omega

theorem group_lt (hpos : 0 < m.geo.inodesPerGroup) :
    inodeGroup m ino < m.geo.groupsCount := by
  unfold inodeGroup
  rw [hvalid.rel_eq hnumbers]
  apply (Nat.div_lt_iff_lt_mul hpos).mpr
  have hle := hvalid.right
  have hone := hvalid.left
  omega

end ValidInode

namespace TableLayout

variable {m : Mount} {ino : Nat}

section

variable (h : TableLayout m)
include h

theorem size_pos : 0 < m.geo.blockSize := by
  rcases h.size with ⟨k, _, hk⟩
  rw [hk]
  exact Nat.two_pow_pos _

theorem inodeSize_pos : 0 < m.geo.inodeSize :=
  Nat.pos_of_dvd_of_pos h.divides h.size_pos

theorem rel_eq (hvalid : ValidInode m ino) :
    sub32 ino 1 = ino - 1 :=
  hvalid.rel_eq h.numbers

theorem group_lt (hvalid : ValidInode m ino) :
    inodeGroup m ino < m.geo.groupsCount :=
  hvalid.group_lt h.numbers h.perGroup

theorem index_lt (ino : Nat) :
    inodeIndex m ino < m.geo.inodesPerGroup :=
  Nat.mod_lt _ h.perGroup

theorem index_bytes (ino : Nat) :
    inodeIndex m ino * m.geo.inodeSize + m.geo.inodeSize <=
      m.geo.inodesPerGroup * m.geo.inodeSize :=
  mul_add_le (h.index_lt ino) m.geo.inodeSize

theorem tableBytes_le :
    m.geo.inodesPerGroup * m.geo.inodeSize <=
      m.geo.tableBlocks * m.geo.blockSize := by
  have hpos := h.size_pos
  unfold Geometry.tableBlocks
  have hdiv := Nat.div_add_mod'
    (m.geo.inodesPerGroup * m.geo.inodeSize + m.geo.blockSize - 1)
    m.geo.blockSize
  have hmod := Nat.mod_lt
    (m.geo.inodesPerGroup * m.geo.inodeSize + m.geo.blockSize - 1) hpos
  omega

theorem offset_eq (ino : Nat) :
    inodeOffset m ino =
      inodeIndex m ino * m.geo.inodeSize % m.geo.blockSize := by
  have hbytes := h.index_bytes ino
  have hlt := h.bytes
  unfold inodeOffset
  rw [Nat.mod_eq_of_lt (show inodeIndex m ino * m.geo.inodeSize < 2 ^ 32 by
    omega)]

theorem block_lt (ino : Nat) :
    inodeIndex m ino * m.geo.inodeSize / m.geo.blockSize <
      m.geo.tableBlocks := by
  apply (Nat.div_lt_iff_lt_mul h.size_pos).mpr
  have hbytes := h.index_bytes ino
  have hpos := h.inodeSize_pos
  have htable := h.tableBytes_le
  omega

theorem block_eq (hvalid : ValidInode m ino) :
    inodeBlock m ino = (m.groups (inodeGroup m ino)).inodeTable +
      inodeIndex m ino * m.geo.inodeSize / m.geo.blockSize := by
  have hbytes := h.index_bytes ino
  have hlt := h.bytes
  have hend := h.tableEnd _ (h.group_lt hvalid)
  have hblock := h.block_lt ino
  unfold inodeBlock
  rw [Nat.mod_eq_of_lt (show inodeIndex m ino * m.geo.inodeSize < 2 ^ 32 by
    omega), Nat.mod_eq_of_lt (by omega)]

theorem block_inTable (hvalid : ValidInode m ino) :
    InTable m (inodeBlock m ino) := by
  have hblock := h.block_lt ino
  refine ⟨inodeGroup m ino, h.group_lt hvalid, ?_, ?_⟩
  · rw [h.block_eq hvalid]
    exact Nat.le_add_right _ _
  · rw [h.block_eq hvalid]
    omega

theorem slot_eq (hvalid : ValidInode m ino) :
    slot m ino = inodeBlock m ino * m.geo.blockSize + inodeOffset m ino := by
  have hdiv := Nat.div_add_mod' (inodeIndex m ino * m.geo.inodeSize)
    m.geo.blockSize
  rw [h.block_eq hvalid, h.offset_eq, Nat.add_mul]
  unfold slot
  omega

theorem offset_le (ino : Nat) :
    inodeOffset m ino + m.geo.inodeSize <= m.geo.blockSize := by
  have hsize := h.size_pos
  rw [h.offset_eq]
  rcases h.divides with ⟨q, hq⟩
  rw [hq] at hsize ⊢
  have hmod := Nat.mod_lt (inodeIndex m ino) (Nat.pos_of_mul_pos_left hsize)
  rw [Nat.mul_comm (inodeIndex m ino), Nat.mul_mod_mul_left, ← Nat.mul_succ]
  exact Nat.mul_le_mul_left m.geo.inodeSize hmod

theorem slot_disjoint {ino' : Nat} (hvalid : ValidInode m ino)
    (hvalid' : ValidInode m ino')
    (hne : ino ≠ ino') :
    slot m ino + m.geo.inodeSize <= slot m ino' ∨
      slot m ino' + m.geo.inodeSize <= slot m ino := by
  have hbytes := h.index_bytes ino
  have hbytes' := h.index_bytes ino'
  have htable := h.tableBytes_le
  unfold slot
  by_cases hgroup : inodeGroup m ino = inodeGroup m ino'
  · rw [hgroup]
    have hindex : inodeIndex m ino ≠ inodeIndex m ino' := by
      intro heq
      have hrel : sub32 ino 1 = sub32 ino' 1 := by
        rw [← Nat.div_add_mod (sub32 ino 1) m.geo.inodesPerGroup,
          ← Nat.div_add_mod (sub32 ino' 1) m.geo.inodesPerGroup]
        show _ * inodeGroup m ino + inodeIndex m ino =
          _ * inodeGroup m ino' + inodeIndex m ino'
        rw [hgroup, heq]
      rw [h.rel_eq hvalid, h.rel_eq hvalid'] at hrel
      have hpos := hvalid.left
      have hpos' := hvalid'.left
      omega
    rcases Nat.lt_or_gt_of_ne hindex with hlt | hgt
    · have hle := mul_add_le hlt m.geo.inodeSize
      omega
    · have hle := mul_add_le hgt m.geo.inodeSize
      omega
  · rcases h.disjoint _ _ (h.group_lt hvalid) (h.group_lt hvalid') hgroup with
      hle | hle
    all_goals
      have hmul := Nat.mul_le_mul_right m.geo.blockSize hle
      rw [Nat.add_mul] at hmul
      omega

end

end TableLayout

/-!
## The two calls
-/

/-- The byte address at which the code looks for an inode. -/
def inodeAddress (m : Mount) (ino : Nat) : Nat :=
  blockOffset m (inodeBlock m ino) + inodeOffset m ino

/-- The mount after the block of an inode was read, patched and written. -/
def inodeWritten (m : Mount) (inode : Inode) : Mount :=
  writeTo m (inodeBlock m inode.num)
    (memcpy (fun i => m.dev (blockOffset m (inodeBlock m inode.num) + i))
      (inodeOffset m inode.num) inode.store 0 128)

def inodeRecord (m : Mount) (ino : Nat) : Buffer :=
  memcpy zeros 0 (fun i => m.dev (blockOffset m (inodeBlock m ino) + i))
    (inodeOffset m ino) 128

namespace Frame

variable {m m' : Mount} (h : Frame m m') (ino : Nat)

include h

theorem inodeGroup : Ext2.inodeGroup m' ino = Ext2.inodeGroup m ino := by
  unfold Ext2.inodeGroup
  rw [h.geo]

theorem inodeIndex : Ext2.inodeIndex m' ino = Ext2.inodeIndex m ino := by
  unfold Ext2.inodeIndex
  rw [h.geo]

theorem inodeBlock : Ext2.inodeBlock m' ino = Ext2.inodeBlock m ino := by
  unfold Ext2.inodeBlock
  rw [h.inodeGroup, h.inodeIndex, h.table, h.geo]

theorem inodeOffset : Ext2.inodeOffset m' ino = Ext2.inodeOffset m ino := by
  unfold Ext2.inodeOffset
  rw [h.inodeIndex, h.geo]

theorem inodeAddress :
    Ext2.inodeAddress m' ino = Ext2.inodeAddress m ino := by
  unfold Ext2.inodeAddress
  rw [h.blockOffset, h.inodeBlock, h.inodeOffset]

end Frame

theorem frame_inodeWritten (m : Mount) (inode : Inode) :
    Frame m (inodeWritten m inode) :=
  frame_writeTo m _ _

theorem io_inodeWritten (m : Mount) (inode : Inode) :
    (inodeWritten m inode).io = m.io :=
  io_writeTo m _ _

theorem mem_inodeWritten (m : Mount) (inode : Inode) :
    (inodeWritten m inode).mem = m.mem :=
  mem_writeTo m _ _

theorem ext2WriteInode_eq (h : m.io = []) (inode : Inode) :
    ext2WriteInode m inode =
      if m.mem.headD false then
        (.error .enomem, m.setMem m.mem.tail)
      else (.ok (), inodeWritten (m.setMem m.mem.tail) inode) := by
  unfold ext2WriteInode
  rw [kmallocFails_eq]
  cases m.mem.headD false with
  | true => rfl
  | false =>
    have hio : (m.setMem m.mem.tail).io = [] := h
    simp only [ext2ReadBlock_calm hio, ext2WriteBlock_calm hio]
    rfl

theorem ext2ReadInode_eq (h : m.io = []) (inode : Inode) :
    ext2ReadInode m inode =
      if m.mem.headD false then
        (.error .enomem, m.setMem m.mem.tail)
      else if m.mem.tail.headD false then
        (.error .enomem, m.setMem m.mem.tail.tail)
      else (.ok (inode.load (inodeGroup m inode.num)
        (inodeRecord m inode.num)), m.setMem m.mem.tail.tail) := by
  unfold ext2ReadInode
  rw [kmallocFails_eq]
  cases m.mem.headD false with
  | true => rfl
  | false =>
    have hio : (m.setMem m.mem.tail).io = [] := h
    simp only [ext2ReadBlock_calm hio, kmallocFails_eq, Mount.setMem_mem]
    cases m.mem.tail.headD false <;> rfl

theorem dev_inodeWritten (m : Mount) (inode : Inode) (a : Nat) :
    (inodeWritten m inode).dev a =
      if inodeAddress m inode.num <= a ∧
          a < inodeAddress m inode.num + 128 ∧
          a < blockOffset m (inodeBlock m inode.num) + m.geo.blockSize then
        inode.store (a - inodeAddress m inode.num)
      else m.dev a := by
  show memcpy m.dev (blockOffset m (inodeBlock m inode.num)) _ 0
    m.geo.blockSize a = _
  unfold inodeAddress memcpy
  generalize blockOffset m (inodeBlock m inode.num) = base
  generalize inodeOffset m inode.num = off
  split
  case isTrue hblock =>
    by_cases hrec : base + off <= a ∧ a < base + off + 128
    · rw [if_pos (by omega), if_pos (by omega)]
      congr 1
      omega
    · rw [if_neg (by omega), if_neg (by omega)]
      show m.dev (base + (0 + (a - base))) = m.dev a
      rw [show base + (0 + (a - base)) = a by omega]
  case isFalse hblock => rw [if_neg (by omega)]

theorem inodeRecord_apply (hi : i < 128) :
    inodeRecord m ino i = m.dev (inodeAddress m ino + i) := by
  unfold inodeRecord inodeAddress memcpy
  rw [if_pos (by omega), Nat.sub_zero, Nat.add_assoc]

/-!
## Persistence
-/

/--
Writing the inode succeeds, reading its number gives the fields back, and
neither the bytes of another inode nor a block outside the tables change.
-/
structure Persists (m : Mount) (inode : Inode) : Prop where
  written : (ext2WriteInode m inode).1 = Except.ok ()
  readBack : exists inode',
    (ext2ReadInode (ext2WriteInode m inode).2 (blankInode inode.num)).1 =
      Except.ok inode' ∧ inode'.Agree inode
  others : forall ino, ValidInode m ino -> ino ≠ inode.num ->
    forall i, i < m.geo.inodeSize ->
      (ext2ReadInode (ext2WriteInode m inode).2 (blankInode inode.num)).2.dev
        (slot m ino + i) = m.dev (slot m ino + i)
  outside : forall b, ¬ InTable m b -> SameBlock m
    (ext2ReadInode (ext2WriteInode m inode).2 (blankInode inode.num)).2 b

/--
The inode lies below 4 GiB, its slot holds a whole `ext2_inode_t`, and the
three `kmalloc` calls succeed.
-/
structure PersistOk (m : Mount) (ino : Nat) : Prop where
  low : Low m (inodeBlock m ino)
  record : 128 <= m.geo.inodeSize
  memory : forall k, k < 3 -> m.mem.getD k false = false

def Touched (m : Mount) (ino a : Nat) : Prop :=
  inodeAddress m ino <= a ∧ a < inodeAddress m ino + 128 ∧
    a < blockOffset m (inodeBlock m ino) + m.geo.blockSize

/-- What the two calls give when nothing fails, wherever the block is found. -/
structure WriteRead (m : Mount) (inode inode' : Inode) (m' : Mount) :
    Prop where
  write : (ext2WriteInode m inode).1 = Except.ok ()
  read : ext2ReadInode (ext2WriteInode m inode).2 (blankInode inode.num) =
    (Except.ok inode', m')
  geo : m'.geo = m.geo
  touched : forall a, Touched m inode.num a ->
    m'.dev a = inode.store (a - inodeAddress m inode.num)
  untouched : forall a, ¬ Touched m inode.num a -> m'.dev a = m.dev a
  record : exists e2i, inode' =
      (blankInode inode.num).load (inodeGroup m inode.num) e2i ∧
    forall i, i < 128 -> e2i i = m'.dev (inodeAddress m inode.num + i)

theorem memory_iff {mem : List Bool} :
    (forall k, k < 3 -> mem.getD k false = false) <->
      mem.headD false = false ∧ mem.tail.headD false = false ∧
        mem.tail.tail.headD false = false := by
  simp only [← getD_first, getD_tail]
  constructor
  · intro h
    exact ⟨h 0 (by decide), h 1 (by decide), h 2 (by decide)⟩
  · rintro ⟨hmem0, hmem1, hmem2⟩ k hk
    match k with
    | 0 => exact hmem0
    | 1 => exact hmem1
    | 2 => exact hmem2

theorem writeRead_of_memory (hio : m.io = [])
    (hmem : forall k, k < 3 -> m.mem.getD k false = false) (inode : Inode) :
    exists inode' m', WriteRead m inode inode' m' := by
  rcases memory_iff.mp hmem with ⟨hmem0, hmem1, hmem2⟩
  have hwrite := ext2WriteInode_eq hio inode
  rw [hmem0, if_neg Bool.false_ne_true] at hwrite
  have hquiet := quiet_mem m
  have hio1 : (m.setMem m.mem.tail).io = [] := hio
  have htail := Mount.setMem_mem m m.mem.tail
  generalize m.setMem m.mem.tail = m1 at *
  rw [← io_inodeWritten m1 inode] at hio1
  have hread := ext2ReadInode_eq hio1 (blankInode inode.num)
  rw [mem_inodeWritten, htail, hmem1, hmem2, if_neg Bool.false_ne_true,
    if_neg Bool.false_ne_true] at hread
  have hframe := hquiet.toFrame.trans (frame_inodeWritten m1 inode)
  refine ⟨_, _, by rw [hwrite], by rw [hwrite]; exact hread, ?_, ?_, ?_, ?_⟩
  · rw [Mount.setMem_geo, hframe.geo]
  · intro a ha
    unfold Touched at ha
    rw [Mount.setMem_dev, dev_inodeWritten, hquiet.inodeAddress,
      hquiet.blockOffset, hquiet.inodeBlock, hquiet.geo, if_pos ha]
  · intro a ha
    unfold Touched at ha
    rw [Mount.setMem_dev, dev_inodeWritten, hquiet.inodeAddress,
      hquiet.blockOffset, hquiet.inodeBlock, hquiet.geo, if_neg ha, hquiet.dev]
  · refine ⟨inodeRecord (inodeWritten m1 inode) inode.num, ?_, ?_⟩
    · rw [← hframe.inodeGroup]
      rfl
    · intro i hi
      rw [inodeRecord_apply hi, hframe.inodeAddress, Mount.setMem_dev]

section

variable (h : TableLayout m) (hvalid : ValidInode m ino)
  (hlow : Low m (inodeBlock m ino))
include h hvalid hlow

theorem inodeAddress_low : inodeAddress m ino = slot m ino := by
  unfold inodeAddress
  rw [blockOffset_low h.size_pos hlow, h.slot_eq hvalid]

theorem touched_low {a : Nat} :
    Touched m ino a <-> slot m ino <= a ∧ a < slot m ino + 128 ∧
      a + inodeOffset m ino < slot m ino + m.geo.blockSize := by
  unfold Touched
  rw [inodeAddress_low h hvalid hlow, blockOffset_low h.size_pos hlow,
    h.slot_eq hvalid]
  omega

end

theorem persists_of_ok (h : TableLayout m) (hvalid : ValidInode m inode.num)
    (hio : m.io = []) (hwidth : inode.Widths) (hok : PersistOk m inode.num) :
    Persists m inode := by
  rcases writeRead_of_memory hio hok.memory inode with ⟨inode', m', hcalls⟩
  have hle := h.offset_le inode.num
  have hrecord := hok.record
  have htouched : forall a, Touched m inode.num a <->
      slot m inode.num <= a ∧ a < slot m inode.num + 128 := by
    intro a
    rw [touched_low h hvalid hok.low]
    omega
  constructor
  · exact hcalls.write
  · rw [hcalls.read]
    rcases hcalls.record with ⟨e2i, heq, he2i⟩
    refine ⟨inode', rfl, ?_⟩
    rw [heq]
    apply load_store hwidth rfl
    intro i hi
    rw [he2i i hi, inodeAddress_low h hvalid hok.low,
      hcalls.touched _ ((htouched _).mpr (by omega)),
      inodeAddress_low h hvalid hok.low, Nat.add_sub_cancel_left]
  · intro ino hino hne i hi
    rw [hcalls.read]
    have hapart := h.slot_disjoint hvalid hino (Ne.symm hne)
    apply hcalls.untouched
    rw [htouched]
    omega
  · intro b hb i hi
    rw [hcalls.read]
    have hne : b ≠ inodeBlock m inode.num := by
      intro heq
      rw [heq] at hb
      exact hb (h.block_inTable hvalid)
    have hslot := h.slot_eq hvalid
    have hapart := outside_block hne hi
    unfold Mount.block
    rw [hcalls.geo]
    apply hcalls.untouched
    rw [htouched]
    omega

/-!
## Where persistence fails

An inode all of whose bytes are set, written to a device of zeros, shows every
byte that the write touches.
-/

def fullInode (num : Nat) : Inode where
  num := num
  type := FileType.regular
  permissions := 2 ^ 12 - 1
  uid := 2 ^ 16 - 1
  gid := 2 ^ 16 - 1
  size := 2 ^ 32 - 1
  blocks := 2 ^ 32 - 1
  atime := 2 ^ 32 - 1
  mtime := 2 ^ 32 - 1
  ctime := 2 ^ 32 - 1
  links := 2 ^ 16 - 1
  blockGroup := 0
  data _ := 2 ^ 32 - 1
  flags := 2 ^ 32 - 1
  faddr := 2 ^ 32 - 1
  fileAcl := 2 ^ 32 - 1
  dirAcl := 2 ^ 32 - 1
  dtime := 2 ^ 32 - 1
  e2i _ := 255

theorem fullInode_widths (num : Nat) : (fullInode num).Widths := by
  constructor
  all_goals simp [fullInode]

theorem fullInode_store_ne_zero (num : Nat) (hi : i < 128) :
    (fullInode num).store i ≠ 0 := by
  have hall : forall j : Fin 128, (fullInode 0).store j ≠ 0 := by decide +kernel
  exact hall ⟨i, hi⟩

theorem ok_of_if {α : Type} {c : Bool} {e : Errno} {x : α} {m' : Mount}
    {p : Except Errno α × Mount}
    (h : (if c = true then (.error e, m') else p).1 = .ok x) :
    c = false ∧ p.1 = .ok x := by
  cases c with
  | false => exact ⟨rfl, h⟩
  | true => cases h

theorem Persists.memory (hio : m.io = []) (h : Persists m inode) :
    forall k, k < 3 -> m.mem.getD k false = false := by
  have hwrite := ext2WriteInode_eq hio inode
  have hok := h.written
  rw [hwrite] at hok
  have hmem0 := (ok_of_if hok).left
  rw [hmem0, if_neg Bool.false_ne_true] at hwrite
  rcases h.readBack with ⟨inode', hok, _⟩
  have hio1 : (inodeWritten (m.setMem m.mem.tail) inode).io = [] := by
    rw [io_inodeWritten, Mount.setMem_io]
    exact hio
  rw [hwrite, ext2ReadInode_eq hio1, mem_inodeWritten, Mount.setMem_mem] at hok
  rcases ok_of_if hok with ⟨hmem1, hok⟩
  exact memory_iff.mpr ⟨hmem0, hmem1, (ok_of_if hok).left⟩

/-- A byte of a table of whole blocks belongs to an inode. -/
theorem TableLayout.exists_slot (h : TableLayout m)
    (hwhole : m.geo.blockSize ∣ m.geo.inodesPerGroup * m.geo.inodeSize)
    {b : Nat} (hb : InTable m b) (hi : i < m.geo.blockSize) :
    exists ino, ValidInode m ino ∧ slot m ino <= b * m.geo.blockSize + i ∧
      b * m.geo.blockSize + i < slot m ino + m.geo.inodeSize := by
  rcases hb with ⟨g, hg, hstart, hend⟩
  have hsize := h.size_pos
  have htable : m.geo.tableBlocks * m.geo.blockSize =
      m.geo.inodesPerGroup * m.geo.inodeSize := by
    rcases hwhole with ⟨q, hq⟩
    unfold Geometry.tableBlocks
    rw [hq, Nat.add_sub_assoc hsize, Nat.mul_add_div hsize,
      Nat.div_eq_of_lt (by omega), Nat.add_zero, Nat.mul_comm]
  -- the byte counted from the start of the table
  generalize hd : (b - (m.groups g).inodeTable) * m.geo.blockSize + i = d
  have haddr : b * m.geo.blockSize + i =
      (m.groups g).inodeTable * m.geo.blockSize + d := by
    have hsub : b = (m.groups g).inodeTable +
        (b - (m.groups g).inodeTable) := by omega
    rw [← hd, ← Nat.add_assoc, ← Nat.add_mul, ← hsub]
  have hdlt : d < m.geo.inodesPerGroup * m.geo.inodeSize := by
    have hle := mul_add_le (show b - (m.groups g).inodeTable <
      m.geo.tableBlocks by omega) m.geo.blockSize
    rw [htable] at hle
    omega
  have hindex : d / m.geo.inodeSize < m.geo.inodesPerGroup :=
    (Nat.div_lt_iff_lt_mul h.inodeSize_pos).mpr hdlt
  have hvalid : ValidInode m
      (g * m.geo.inodesPerGroup + d / m.geo.inodeSize + 1) := by
    have hle := mul_add_le hg m.geo.inodesPerGroup
    exact ⟨Nat.le_add_left 1 _, by omega⟩
  have hslot : slot m (g * m.geo.inodesPerGroup + d / m.geo.inodeSize + 1) =
      (m.groups g).inodeTable * m.geo.blockSize +
        d / m.geo.inodeSize * m.geo.inodeSize := by
    unfold slot inodeGroup inodeIndex
    rw [h.rel_eq hvalid, Nat.add_sub_cancel, Nat.mul_comm g,
      Nat.mul_add_div h.perGroup, Nat.mul_add_mod,
      Nat.div_eq_of_lt hindex, Nat.mod_eq_of_lt hindex, Nat.add_zero]
  have hdiv := Nat.div_add_mod' d m.geo.inodeSize
  have hmod := Nat.mod_lt d h.inodeSize_pos
  refine ⟨_, hvalid, ?_, ?_⟩
  · omega
  · rw [hslot, haddr]
    omega

theorem TableLayout.frame {m' : Mount} (h : TableLayout m) (hframe : Frame m m') :
    TableLayout m' := by
  constructor
  · rw [hframe.geo]
    exact h.size
  · rw [hframe.geo]
    exact h.divides
  · rw [hframe.geo]
    exact h.perGroup
  · rw [hframe.geo]
    exact h.numbers
  · rw [hframe.geo]
    exact h.bytes
  · intro g
    rw [hframe.geo, hframe.table]
    exact h.tableEnd g
  · intro g g'
    rw [hframe.geo, hframe.table, hframe.table]
    exact h.disjoint g g'

section Necessary

variable {m : Mount} {ino : Nat}

/-- A touched byte belongs to the inode itself, in a block of a table. -/
theorem touched_own (h : TableLayout m)
    (hwhole : m.geo.blockSize ∣ m.geo.inodesPerGroup * m.geo.inodeSize)
    (hio : m.io = []) (hzero : m.dev = zeros)
    (hpersist : Persists m (fullInode ino)) {a : Nat}
    (ha : Touched m ino a) :
    slot m ino <= a ∧ a < slot m ino + m.geo.inodeSize := by
  rcases writeRead_of_memory hio (hpersist.memory hio) (fullInode ino) with
    ⟨inode', m', hcalls⟩
  have hchanged : m'.dev a ≠ m.dev a := by
    rw [hcalls.touched a ha, hzero]
    apply fullInode_store_ne_zero
    have hlt := ha.right.left
    show a - inodeAddress m ino < 128
    omega
  have hdiv := Nat.div_add_mod' a m.geo.blockSize
  have hmod := Nat.mod_lt a h.size_pos
  have htable : InTable m (a / m.geo.blockSize) := by
    apply Classical.byContradiction
    intro hout
    have hsame := hpersist.outside _ hout (a % m.geo.blockSize) hmod
    rw [show (fullInode ino).num = ino from rfl] at hsame
    unfold Mount.block at hsame
    have hread := hcalls.read
    rw [show (fullInode ino).num = ino from rfl] at hread
    rw [hread, hcalls.geo, hdiv] at hsame
    exact hchanged hsame
  rcases h.exists_slot hwhole htable hmod with ⟨ino', hvalid, hge, hlt⟩
  rw [hdiv] at hge hlt
  by_cases heq : ino' = ino
  · rw [heq] at hge hlt
    exact ⟨hge, hlt⟩
  · have hsame := hpersist.others ino' hvalid heq (a - slot m ino') (by omega)
    rw [hcalls.read, Nat.add_sub_cancel' hge] at hsame
    exact absurd hsame hchanged

section

variable (h : TableLayout m) (hvalid : ValidInode m ino)
  (hwhole : m.geo.blockSize ∣ m.geo.inodesPerGroup * m.geo.inodeSize)
  (hio : m.io = [])
include h hvalid hwhole hio

theorem low_of_persists (hzero : m.dev = zeros)
    (hpersist : Persists m (fullInode ino)) : Low m (inodeBlock m ino) := by
  have hpos := h.inodeSize_pos
  have hle := h.offset_le ino
  have hown := touched_own h hwhole hio hzero hpersist
    (a := inodeAddress m ino) ⟨Nat.le_refl _, by omega, by
      unfold inodeAddress
      omega⟩
  rcases h.size with ⟨k, hk, hsize⟩
  -- the block size divides 4 GiB, so a block below 4 GiB ends below it
  have hmul : 2 ^ 32 = 2 ^ (22 - k) * m.geo.blockSize := by
    rw [hsize, ← Nat.pow_add]
    congr 1
    omega
  have hblock : inodeBlock m ino < 2 ^ (22 - k) := by
    have hslot := h.slot_eq hvalid
    have hoff : blockOffset m (inodeBlock m ino) < 2 ^ 32 :=
      Nat.mod_lt _ (by decide)
    unfold inodeAddress at hown
    apply (Nat.mul_lt_mul_right h.size_pos).mp
    omega
  unfold Low
  rw [hmul]
  exact Nat.mul_le_mul_right _ hblock

theorem record_of_persists (hzero : m.dev = zeros)
    (hpersist : Persists m (fullInode ino)) : 128 <= m.geo.inodeSize := by
  have hlow := low_of_persists h hvalid hwhole hio hzero hpersist
  apply Classical.byContradiction
  intro hsmall
  have hsize : m.geo.inodeSize <= 64 := by
    rcases h.size with ⟨k, _, hk⟩
    have hdvd := h.divides
    rw [hk] at hdvd
    rcases (Nat.dvd_prime_pow Nat.prime_two).mp hdvd with ⟨j, _, hj⟩
    have hj7 : j < 7 := by
      apply (Nat.pow_lt_pow_iff_right (by decide : 1 < 2)).mp
      omega
    rw [hj]
    exact Nat.pow_le_pow_right (by decide) (Nat.le_of_lt_succ hj7)
  by_cases hroom : inodeOffset m ino + m.geo.inodeSize < m.geo.blockSize
  · -- the record runs into the next inode of the block
    have hown := touched_own h hwhole hio hzero hpersist
      (a := slot m ino + m.geo.inodeSize)
      ((touched_low h hvalid hlow).mpr (by omega))
    omega
  · -- the record runs over the end of the block and is cut there
    rcases writeRead_of_memory hio (hpersist.memory hio) (fullInode ino) with
      ⟨inode', m', hcalls⟩
    rcases hpersist.readBack with ⟨inode'', hok, hagree⟩
    rw [hcalls.read] at hok
    cases hok
    rcases hcalls.record with ⟨e2i, heq, he2i⟩
    have hlast := hagree.data 14 (by decide)
    rw [heq] at hlast
    have hzeros : getLE 4 e2i 96 = getLE 4 zeros 96 := by
      apply getLE_congr
      intro i hi
      rw [he2i _ (by omega), hcalls.untouched, hzero]
      · rfl
      · show ¬ Touched m ino (inodeAddress m ino + (96 + i))
        rw [touched_low h hvalid hlow, inodeAddress_low h hvalid hlow]
        omega
    have hword : getLE 4 e2i 96 = 2 ^ 32 - 1 := hlast
    rw [hzeros] at hword
    cases hword

end

end Necessary

/--
Below 4 GiB, with slots of at least 128 bytes and enough memory, an inode
persists whatever the device and the inode hold.  Where the tables are whole
blocks, these conditions are needed.
-/
theorem inode_persistence {m : Mount} {ino : Nat} (h : TableLayout m)
    (hvalid : ValidInode m ino) (hio : m.io = []) :
    (PersistOk m ino -> forall dev inode, inode.num = ino -> inode.Widths ->
      Persists (m.setDev dev) inode) ∧
    (m.geo.blockSize ∣ m.geo.inodesPerGroup * m.geo.inodeSize ->
      ((forall dev inode, inode.num = ino -> inode.Widths ->
        Persists (m.setDev dev) inode) <-> PersistOk m ino)) := by
  have hsuffices : PersistOk m ino -> forall dev inode, inode.num = ino ->
      inode.Widths -> Persists (m.setDev dev) inode := by
    intro hok dev inode hnum hwidth
    rw [← hnum] at hok hvalid
    have hframe := frame_setDev m dev
    apply persists_of_ok (h.frame hframe) hvalid hio hwidth
    constructor
    · rw [hframe.inodeBlock]
      exact hok.low
    · exact hok.record
    · exact hok.memory
  constructor
  · exact hsuffices
  · intro hwhole
    constructor
    · intro hall
      have hpersist := hall zeros (fullInode ino) rfl (fullInode_widths ino)
      have hframe := frame_setDev m zeros
      have hlayout := h.frame hframe
      have hlow := low_of_persists hlayout hvalid hwhole hio rfl hpersist
      rw [hframe.inodeBlock] at hlow
      have hrecord := record_of_persists hlayout hvalid hwhole hio rfl hpersist
      have hmem := Persists.memory (m := m.setDev zeros) hio hpersist
      exact ⟨hlow, hrecord, hmem⟩
    · exact hsuffices

/-!
## A table above 4 GiB
-/

def tableMount (table : Nat) : Mount where
  geo := {
    blockSize := 1024
    blocksPerGroup := 8192
    inodesPerGroup := 8
    descPerBlock := 32
    groupsCount := 2
    firstDataBlock := 1
    inodeSize := 128 }
  readOnly := false
  dev := zeros
  groups g := {
    blockBitmap := 3
    inodeBitmap := 4
    inodeTable := table + 100 * g
    freeBlocksCount := 0
    freeInodesCount := 0
    rest := zeros }
  freeBlocks := 0
  freeInodes := 0
  es := zeros
  io := []
  mem := []

theorem tableMount_tableBlocks (table : Nat) :
    (tableMount table).geo.tableBlocks = 1 := by
  show (8 * 128 + 1024 - 1) / 1024 = 1
  decide

theorem tableMount_layout {table : Nat} (h : table + 200 <= 2 ^ 32) :
    TableLayout (tableMount table) := by
  have hsmall : 2 * 8 < 2 ^ 32 ∧ 8 * 128 < 2 ^ 32 := by decide
  refine ⟨⟨0, by decide, rfl⟩, ⟨8, rfl⟩, Nat.succ_pos 7, hsmall.left,
    hsmall.right, ?_, ?_⟩
  · intro g hg
    have hg2 : g < 2 := hg
    rw [tableMount_tableBlocks]
    show table + 100 * g + 1 <= 2 ^ 32
    omega
  · intro g g' _ _ hne
    rw [tableMount_tableBlocks]
    show table + 100 * g + 1 <= table + 100 * g' ∨
      table + 100 * g' + 1 <= table + 100 * g
    omega

theorem inode_persistence_low_table :
    PersistOk (tableMount 5) 12 ∧
      Persists ((tableMount 5).setDev zeros) (fullInode 12) := by
  have hok : PersistOk (tableMount 5) 12 := by
    constructor
    · unfold Low
      decide
    · exact Nat.le_refl 128
    · intro k _
      rfl
  have hvalid : ValidInode (tableMount 5) 12 := by
    unfold ValidInode
    decide
  have hpersists := inode_persistence (tableMount_layout (by decide)) hvalid rfl
  exact ⟨hok, hpersists.left hok zeros (fullInode 12) rfl
    (fullInode_widths 12)⟩

/--
With the first table 5 KiB above 4 GiB, the inode is written to block 5, which
no table holds.
-/
theorem high_table_writes_low_block :
    TableLayout (tableMount (2 ^ 22 + 5)) ∧
    ValidInode (tableMount (2 ^ 22 + 5)) 1 ∧ (fullInode 1).Widths ∧
    ¬ InTable (tableMount (2 ^ 22 + 5)) 5 ∧
    (ext2WriteInode (tableMount (2 ^ 22 + 5)) (fullInode 1)).2.block 5 0 ≠
      (tableMount (2 ^ 22 + 5)).block 5 0 ∧
    ¬ Persists (tableMount (2 ^ 22 + 5)) (fullInode 1) := by
  have hlayout : TableLayout (tableMount (2 ^ 22 + 5)) :=
    tableMount_layout (by decide)
  have hvalid : ValidInode (tableMount (2 ^ 22 + 5)) 1 := by
    unfold ValidInode
    decide
  refine ⟨hlayout, hvalid, fullInode_widths 1, ?_, by decide +kernel, ?_⟩
  · rintro ⟨g, _, hle, _⟩
    have hle' : 2 ^ 22 + 5 + 100 * g <= 5 := hle
    omega
  · intro hpersist
    have hlow := low_of_persists hlayout hvalid ⟨1, rfl⟩ rfl rfl hpersist
    unfold Low at hlow
    revert hlow
    decide

end Ext2
end Horizon
