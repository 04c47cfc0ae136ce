import Horizon.Fs.Ext2.Accounting
import Horizon.Fs.Ext2.BlockMap

/-!
# Well-formed volumes

What a volume must look like for its tables and its files to stay apart, and
what each operation of the block and inode layers may change: contents of data
blocks, inodes on disk, and bits of the two kinds of bitmap.
-/

namespace Horizon
namespace Ext2

open Bytes
open Bitmaps

def SystemBlock (m : Mount) (b : Nat) : Prop :=
  MetaBlock m b ∨
  (exists g r, g < m.geo.groupsCount ∧ b = (m.groups g).bitmap r) ∨
  InTable m b

/--
A well-formed volume: no two tables share a block, and the blocks of the tables
are marked used.
-/
structure Volume (m : Mount) : Prop where
  layout : Layout m
  table : TableLayout m
  record : 128 <= m.geo.inodeSize
  perGroup : 0 < m.geo.blocksPerGroup
  numbers : m.geo.groupsCount * m.geo.blocksPerGroup +
    m.geo.firstDataBlock < 2 ^ 32
  zero : m.geo.firstDataBlock = 0 -> Allocated m 0
  system : forall b, SystemBlock m b -> Allocated m b
  tableMeta : forall b, InTable m b -> ¬ MetaBlock m b
  tableBitmap : forall b g r, InTable m b -> g < m.geo.groupsCount ->
    b ≠ (m.groups g).bitmap r

def Small (m : Mount) : Prop :=
  (m.geo.groupsCount * m.geo.blocksPerGroup + m.geo.firstDataBlock) *
    m.geo.blockSize <= 2 ^ 32

def InodeUsed (m : Mount) (ino : Nat) : Prop :=
  ValidInode m ino ∧
    bitTest (m.block (m.groups (inodeGroup m ino)).inodeBitmap)
      (inodeIndex m ino) = true

instance (m : Mount) (ino : Nat) : Decidable (InodeUsed m ino) :=
  inferInstanceAs (Decidable ((_ ∧ _) ∧ _))

def diskInode (m : Mount) (ino : Nat) : Inode :=
  (blankInode ino).load (inodeGroup m ino) (inodeRecord m ino)

/-!
## Places on the device
-/

namespace Volume

variable {m : Mount} {b ino : Nat}

variable (h : Volume m)
include h

theorem size_pos : 0 < m.geo.blockSize := h.layout.size_pos

theorem allocated_lt (hb : Allocated m b) :
    b < m.geo.groupsCount * m.geo.blocksPerGroup + m.geo.firstDataBlock := by
  have hgroup : (b - m.geo.firstDataBlock) / m.geo.blocksPerGroup <
    m.geo.groupsCount := hb.right.left
  have hlt := (Nat.div_lt_iff_lt_mul h.perGroup).mp hgroup
  omega

theorem low (hsmall : Small m) (hb : Allocated m b) : Low m b :=
  Nat.le_trans (Nat.mul_le_mul_right _ (h.allocated_lt hb)) hsmall

theorem lowTables (hsmall : Small m) : LowTables m := by
  constructor
  · intro i hi
    apply h.low hsmall
    apply h.system
    left
    right
    exact ⟨Nat.le_add_right _ _, Nat.add_lt_add_left hi _⟩
  · intro g r hg
    apply h.low hsmall
    apply h.system
    exact Or.inr (Or.inl ⟨g, r, hg, rfl⟩)

theorem tableLow (hsmall : Small m) (hvalid : ValidInode m ino) :
    Low m (inodeBlock m ino) := by
  apply h.low hsmall
  apply h.system
  exact Or.inr (Or.inr (h.table.block_inTable hvalid))

end Volume

variable {m m' : Mount} {b g j n ino : Nat} {r : Resource} {v : Bool}
    {f16 f32 : Nat -> Nat}

theorem inodeRecord_eq (h : Volume m) (hsmall : Small m)
    (hvalid : ValidInode m ino) :
    inodeRecord m ino = memcpy zeros 0 (m.block (inodeBlock m ino))
      (inodeOffset m ino) 128 := by
  unfold inodeRecord
  rw [blockOffset_low h.size_pos (h.tableLow hsmall hvalid)]
  rfl

theorem diskInode_congr (h : Volume m) (hsmall : Small m)
    (hvalid : ValidInode m ino) (hframe : Frame m m')
    (hsame : forall i, i < 128 ->
      m'.block (inodeBlock m ino) (inodeOffset m ino + i) =
        m.block (inodeBlock m ino) (inodeOffset m ino + i)) :
    diskInode m' ino = diskInode m ino := by
  have hrecord : inodeRecord m' ino = inodeRecord m ino := by
    have hlow := h.tableLow hsmall hvalid
    have hleft : inodeRecord m' ino = memcpy zeros 0
        (m'.block (inodeBlock m ino)) (inodeOffset m ino) 128 := by
      unfold inodeRecord
      rw [hframe.inodeBlock, hframe.inodeOffset, hframe.blockOffset,
        blockOffset_low h.size_pos hlow]
      unfold Mount.block
      rw [hframe.geo]
    rw [hleft, inodeRecord_eq h hsmall hvalid]
    funext i
    unfold memcpy
    by_cases hi : 0 <= i ∧ i < 0 + 128
    · rw [if_pos hi, if_pos hi]
      exact hsame _ (by omega)
    · rw [if_neg hi, if_neg hi]
  unfold diskInode
  rw [hrecord, hframe.inodeGroup]

theorem allocated_congr (h : Volume m) (hframe : Frame m m')
    (hsame : forall g, g < m.geo.groupsCount ->
      SameBlock m m' (m.groups g).blockBitmap) (b : Nat) :
    Allocated m' b <-> Allocated m b := by
  have hbitmap : (m'.groups (blockGroup m b)).blockBitmap =
    (m.groups (blockGroup m b)).blockBitmap := hframe.bitmap _ .block
  unfold Allocated
  rw [hframe.blockGroup, hframe.blockIndex, hframe.geo, hbitmap]
  apply and_congr_right
  intro _
  apply and_congr_right
  intro hg
  have hfits : m.geo.blocksPerGroup <= 8 * m.geo.blockSize :=
    h.layout.fits .block
  have hlt : blockIndex m b < m.geo.blocksPerGroup := Nat.mod_lt _ h.perGroup
  rw [bitTest_congr (hsame _ hg _ (by omega))]

theorem inodeUsed_congr (h : Volume m) (hframe : Frame m m')
    (hsame : forall g, g < m.geo.groupsCount ->
      SameBlock m m' (m.groups g).inodeBitmap) (ino : Nat) :
    InodeUsed m' ino <-> InodeUsed m ino := by
  have hbitmap : (m'.groups (inodeGroup m ino)).inodeBitmap =
    (m.groups (inodeGroup m ino)).inodeBitmap := hframe.bitmap _ .inode
  unfold InodeUsed ValidInode
  rw [hframe.inodeGroup, hframe.inodeIndex, hframe.geo, hbitmap]
  apply and_congr_right
  intro hvalid
  have hfits : m.geo.inodesPerGroup <= 8 * m.geo.blockSize :=
    h.layout.fits .inode
  have hlt := h.table.index_lt ino
  rw [bitTest_congr (hsame _ (h.table.group_lt hvalid) _ (by omega))]

namespace Frame

variable {m m' : Mount} (h : Frame m m')

include h

theorem validInode (ino : Nat) : ValidInode m' ino <-> ValidInode m ino := by
  unfold ValidInode
  rw [h.geo]

theorem inTable (b : Nat) : InTable m' b <-> InTable m b := by
  unfold InTable
  simp only [h.geo, h.table]

theorem systemBlock (b : Nat) : SystemBlock m' b <-> SystemBlock m b := by
  unfold SystemBlock
  rw [MetaBlock.congr h.geo, h.inTable]
  simp only [h.geo, h.bitmap]

theorem small : Small m' <-> Small m := by
  unfold Small
  rw [h.geo]

end Frame

/-!
## What an operation changes
-/

/--
At most the contents of `blocks`, the inodes `inodes`, and the bits of
the blocks `used` and of the inodes `usedInodes` differ.
-/
structure Change (blocks inodes used usedInodes : Set Nat) (m m' : Mount) :
    Prop extends Frame m m' where
  block : forall b, ¬ SystemBlock m b -> b ∉ blocks -> SameBlock m m' b
  inode : forall ino, ValidInode m ino -> ino ∉ inodes ->
    diskInode m' ino = diskInode m ino
  alloc : forall b, b ∉ used -> (Allocated m' b <-> Allocated m b)
  inodeAlloc : forall ino, ino ∉ usedInodes ->
    (InodeUsed m' ino <-> InodeUsed m ino)

namespace Change

variable {blocks inodes used usedInodes blocks' used' : Set Nat}
  {m m' m'' : Mount}

theorem refl (m : Mount) : Change ∅ ∅ ∅ ∅ m m where
  toFrame := Frame.refl m
  block _ _ _ _ _ := rfl
  inode _ _ _ := rfl
  alloc _ _ := Iff.rfl
  inodeAlloc _ _ := Iff.rfl

section

variable (h : Change blocks inodes used usedInodes m m')
include h

theorem trans (h' : Change blocks inodes used usedInodes m' m'') :
    Change blocks inodes used usedInodes m m'' where
  toFrame := h.toFrame.trans h'.toFrame
  block b hb hnot := by
    have hb' : ¬ SystemBlock m' b := by
      rw [h.systemBlock]
      exact hb
    exact (h.block b hb hnot).trans h.geo (h'.block b hb' hnot)
  inode ino hvalid hnot := by
    have hvalid' := (h.validInode ino).mpr hvalid
    rw [h'.inode ino hvalid' hnot, h.inode ino hvalid hnot]
  alloc b hnot := (h'.alloc b hnot).trans (h.alloc b hnot)
  inodeAlloc ino hnot := (h'.inodeAlloc ino hnot).trans (h.inodeAlloc ino hnot)

theorem mono (hblocks : blocks ⊆ blocks') (hused : used ⊆ used') :
    Change blocks' inodes used' usedInodes m m' where
  toFrame := h.toFrame
  block b hb hnot := h.block b hb (fun hin => hnot (hblocks hin))
  inode := h.inode
  alloc b hnot := h.alloc b (fun hin => hnot (hused hin))
  inodeAlloc := h.inodeAlloc

theorem volume (hvolume : Volume m)
    (hsystem : forall b, b ∈ used -> SystemBlock m b ∨
      (m.geo.firstDataBlock = 0 ∧ b = 0) -> Allocated m' b) : Volume m' := by
  have hkeep : forall b, SystemBlock m b ∨
      (m.geo.firstDataBlock = 0 ∧ b = 0) -> Allocated m b ->
      Allocated m' b := by
    intro b hb halloc
    by_cases hin : b ∈ used
    · exact hsystem b hin hb
    · exact (h.alloc b hin).mpr halloc
  constructor
  · exact hvolume.layout.frame h.toFrame
  · exact hvolume.table.frame h.toFrame
  · rw [h.geo]
    exact hvolume.record
  · rw [h.geo]
    exact hvolume.perGroup
  · rw [h.geo]
    exact hvolume.numbers
  · intro hzero
    rw [h.geo] at hzero
    exact hkeep 0 (Or.inr ⟨hzero, rfl⟩) (hvolume.zero hzero)
  · intro b hb
    rw [h.systemBlock] at hb
    exact hkeep b (Or.inl hb) (hvolume.system b hb)
  · intro b hb
    rw [MetaBlock.congr h.geo]
    rw [h.inTable] at hb
    exact hvolume.tableMeta b hb
  · intro b g r hb hg
    rw [h.inTable] at hb
    rw [h.geo] at hg
    rw [h.bitmap]
    exact hvolume.tableBitmap b g r hb hg

end

end Change

theorem Quiet.change (h : Quiet m m') : Change ∅ ∅ ∅ ∅ m m' where
  toFrame := h.toFrame
  block b _ _ i _ := by rw [h.block]
  inode ino _ _ := by
    unfold diskInode inodeRecord
    rw [h.inodeGroup, h.inodeBlock, h.inodeOffset, h.blockOffset, h.dev]
  alloc b _ := Allocated.quiet h b
  inodeAlloc ino _ := by
    unfold InodeUsed
    rw [h.validInode, h.inodeGroup, h.inodeIndex, h.groups, h.block]

theorem Calm.frame (h : Calm m) (hframe : Frame m m') : Calm m' := by
  constructor
  · exact List.suffix_nil.mp (h.io ▸ hframe.io)
  · exact List.suffix_nil.mp (h.mem ▸ hframe.mem)

/-!
## Writing a data block
-/

theorem change_writeTo (h : Volume m) (hsmall : Small m) (hlow : Low m b)
    (hb : ¬ SystemBlock m b) (buffer : Buffer) :
    Change {b} ∅ ∅ ∅ m (writeTo m b buffer) := by
  have hbitmap : forall g r, g < m.geo.groupsCount ->
      SameBlock m (writeTo m b buffer) ((m.groups g).bitmap r) := by
    intro g r hg
    apply writeTo_other hlow
    intro heq
    exact hb (Or.inr (Or.inl ⟨g, r, hg, heq.symm⟩))
  constructor
  · exact frame_writeTo m b buffer
  · intro c _ hc
    exact writeTo_other hlow hc
  · intro ino hvalid _
    apply diskInode_congr h hsmall hvalid (frame_writeTo m b buffer)
    intro i hi
    have hle := h.table.offset_le ino
    have hrecord := h.record
    apply writeTo_other hlow _ _ (by omega)
    intro heq
    rw [← heq] at hb
    exact hb (Or.inr (Or.inr (h.table.block_inTable hvalid)))
  · intro c _
    exact allocated_congr h (frame_writeTo m b buffer)
      (fun g => hbitmap g .block) c
  · intro ino _
    exact inodeUsed_congr h (frame_writeTo m b buffer)
      (fun g => hbitmap g .inode) ino

/-!
## Changing a bit
-/

theorem div_mod_unique {a : Nat} (hj : j < n) (h : a = g * n + j) :
    a / n = g ∧ a % n = j := by
  have hpos : 0 < n := Nat.zero_lt_of_lt hj
  rw [h, Nat.mul_comm]
  exact ⟨by rw [Nat.mul_add_div hpos, Nat.div_eq_of_lt hj, Nat.add_zero],
    by rw [Nat.mul_add_mod, Nat.mod_eq_of_lt hj]⟩

theorem BitChange.sameBlock (hchange : BitChange r g j v f16 f32 m m')
    (hg : g < m.geo.groupsCount) (hb : ¬ SystemBlock m b) :
    SameBlock m m' b := by
  apply hchange.other
  · intro heq
    exact hb (Or.inr (Or.inl ⟨g, r, hg, heq⟩))
  · intro hmeta
    exact hb (Or.inl hmeta)

theorem BitChange.diskInode (hchange : BitChange r g j v f16 f32 m m')
    (h : Volume m) (hsmall : Small m) (hg : g < m.geo.groupsCount)
    (hvalid : ValidInode m ino) :
    Ext2.diskInode m' ino = Ext2.diskInode m ino := by
  apply diskInode_congr h hsmall hvalid hchange.toFrame
  intro i hi
  have hle := h.table.offset_le ino
  have hrecord := h.record
  have htable := h.table.block_inTable hvalid
  apply hchange.other _ (h.tableBitmap _ g r htable hg) (h.tableMeta _ htable)
  omega

section Bit

variable {g j : Nat} {v : Bool} {f16 f32 : Nat -> Nat} {m m' : Mount}
  (h : Volume m) (hsmall : Small m) (hg : g < m.geo.groupsCount)

include h hsmall hg

theorem change_block_bit (hj : j < m.geo.blocksPerGroup)
    (hchange : BitChange .block g j v f16 f32 m m') :
    Change ∅ ∅ {g * m.geo.blocksPerGroup + j + m.geo.firstDataBlock} ∅ m m' ∧
    (Allocated m' (g * m.geo.blocksPerGroup + j + m.geo.firstDataBlock) <->
      v = true) := by
  have hbits := Allocated.bitChange h.layout h.perGroup hchange hg
  refine ⟨⟨hchange.toFrame, ?_, ?_, ?_, ?_⟩, ?_⟩
  · intro b hb _
    exact hchange.sameBlock hg hb
  · intro ino hvalid _
    exact hchange.diskInode h hsmall hg hvalid
  · intro b hb
    rw [hbits]
    apply and_congr_right
    intro hfirst
    rw [if_neg]
    rintro ⟨hgroup, hindex⟩
    apply hb
    have hdiv := Nat.div_add_mod' (b - m.geo.firstDataBlock)
      m.geo.blocksPerGroup
    unfold blockGroup at hgroup
    unfold blockIndex at hindex
    rw [hgroup, hindex] at hdiv
    show b = g * m.geo.blocksPerGroup + j + m.geo.firstDataBlock
    omega
  · intro ino _
    apply inodeUsed_congr h hchange.toFrame
    intro g' hg'
    show SameBlock m m' ((m.groups g').bitmap .inode)
    apply hchange.otherBitmap h.layout hg hg'
    rintro ⟨_, hr⟩
    cases hr
  · have hnumber := div_mod_unique (a := g * m.geo.blocksPerGroup + j +
      m.geo.firstDataBlock - m.geo.firstDataBlock) hj (Nat.add_sub_cancel _ _)
    rw [hbits]
    unfold blockGroup blockIndex
    rw [hnumber.left, hnumber.right, if_pos ⟨rfl, rfl⟩]
    constructor
    · rintro ⟨_, _, hv⟩
      exact hv
    · intro hv
      exact ⟨Nat.le_add_left _ _, hg, hv⟩

end Bit

/-!
## Allocation without faults
-/

theorem ext2WriteSuper_calm (h : m.io = []) : (ext2WriteSuper m).1 = true := by
  apply ext2WriteSuper_ok
  intro k _
  rw [h]
  rfl

theorem releaseBit_calm (h : Volume m) (hsmall : Small m) (hcalm : Calm m)
    (hg : g < m.geo.groupsCount)
    (hbit : bitTest (m.block ((m.groups g).bitmap r)) j = true) :
    (releaseBit r m g j).1 = .ok () ∧
      BitChange r g j false inc16 inc32 m (releaseBit r m g j).2 := by
  have hlow := h.lowTables hsmall
  have hread := hcalm.read h.size_pos (hlow.bitmap g r hg)
  have hhead : m.io.headD false = false := by
    rw [hcalm.io]
    rfl
  have hchange := bitChange_of_write inc16 inc32 h.layout hlow hg
    fun k _ => bitTest_bitClear_ite (m.block ((m.groups g).bitmap r)) j k
  unfold releaseBit
  rw [hcalm.kmalloc]
  simp only [hread, hbit, if_true, ext2WriteBlock_eq, hhead,
    Bool.false_eq_true, if_false]
  rcases hcall : ext2WriteSuper (recount r g inc16 inc32 _) with ⟨ok, m'⟩
  rw [hcall] at hchange
  have hok : ok = true := by
    rw [show ok = _ from (congrArg Prod.fst hcall).symm]
    apply ext2WriteSuper_calm
    rw [io_recount, hcalm.io]
    rfl
  rw [hok]
  exact ⟨rfl, hchange⟩

structure NewBlock (m : Mount) (b : Nat) (m' : Mount) : Prop where
  nonzero : b ≠ 0
  fresh : ¬ Allocated m b
  used : Allocated m' b
  change : Change ∅ ∅ {b} ∅ m m'

theorem ext2NewBlock_calm (h : Volume m) (hsmall : Small m) (hcalm : Calm m) :
    exists b m', ext2NewBlock m = (b, m') ∧
      ((b = 0 ∧ Change ∅ ∅ ∅ ∅ m m') ∨ NewBlock m b m') := by
  refine ⟨(ext2NewBlock m).1, (ext2NewBlock m).2, rfl, ?_⟩
  unfold ext2NewBlock
  split
  case isTrue hzero => exact Or.inl ⟨rfl, Change.refl m⟩
  case isFalse hzero =>
    rcases ext2NewBlockLoop_effect h.layout (h.lowTables hsmall)
      (by rw [Nat.zero_add]) with ⟨hquiet, hres⟩ |
      ⟨g, j, m1, hg, hj, hclear, hchange, hres, _, hio, _⟩
    · exact Or.inl ⟨hres, hquiet.change⟩
    · right
      rw [hcalm.io] at hio
      have hblock : g * m.geo.blocksPerGroup + j <
          m.geo.groupsCount * m.geo.blocksPerGroup := by
        have hle := mul_add_le hg m.geo.blocksPerGroup
        omega
      have hnumbers := h.numbers
      rw [ext2WriteSuper_calm (List.suffix_nil.mp hio), if_pos rfl,
        Nat.mod_eq_of_lt (by omega)] at hres
      rcases change_block_bit h hsmall hg hj hchange with ⟨hbit, hused⟩
      have hfresh : ¬ Allocated m (g * m.geo.blocksPerGroup + j +
          m.geo.firstDataBlock) := by
        have hnumber := div_mod_unique (a := g * m.geo.blocksPerGroup + j +
          m.geo.firstDataBlock - m.geo.firstDataBlock) hj
          (Nat.add_sub_cancel _ _)
        rintro ⟨_, _, hset⟩
        unfold blockGroup blockIndex at hset
        rw [hnumber.left, hnumber.right, hclear] at hset
        cases hset
      rw [hres]
      refine ⟨?_, hfresh, hused.mpr rfl, hbit⟩
      intro heq
      rw [heq] at hfresh
      exact hfresh (h.zero (by omega))

theorem ext2FreeBlock_calm (h : Volume m) (hsmall : Small m) (hcalm : Calm m)
    (hb : Allocated m b) :
    ¬ Allocated (ext2FreeBlock m b).2 b ∧
      Change ∅ ∅ {b} ∅ m (ext2FreeBlock m b).2 := by
  rw [ext2FreeBlock_eq h.perGroup h.numbers hb]
  rcases hb with ⟨hfirst, hgroup, hused⟩
  have hchange := (releaseBit_calm (r := .block) h hsmall hcalm hgroup
    hused).right
  have hindex : blockIndex m b < m.geo.blocksPerGroup :=
    Nat.mod_lt _ h.perGroup
  rcases change_block_bit h hsmall hgroup hindex hchange with ⟨hbit, hfree⟩
  have hnumber : blockGroup m b * m.geo.blocksPerGroup + blockIndex m b +
      m.geo.firstDataBlock = b := by
    have hdiv := Nat.div_add_mod' (b - m.geo.firstDataBlock)
      m.geo.blocksPerGroup
    unfold blockGroup blockIndex
    omega
  rw [hnumber] at hbit hfree
  refine ⟨?_, hbit⟩
  rw [hfree]
  exact Bool.false_ne_true

theorem ext2FindInodeGroup_lt {i : Nat} (h : ext2FindInodeGroup m n i = some g) :
    g < i + n := by
  induction n generalizing i with
  | zero => cases h
  | succ n ih =>
    unfold ext2FindInodeGroup at h
    split at h
    case isTrue hfree =>
      cases h
      omega
    case isFalse hfree =>
      have hlt := ih h
      omega

theorem searchGroup_lt {blockGroup : Nat} (h : blockGroup < m.geo.groupsCount) :
    (if (m.groups blockGroup).freeInodesCount = 0 then
      (ext2FindInodeGroup m m.geo.groupsCount 0).getD blockGroup
    else blockGroup) < m.geo.groupsCount := by
  split
  case isTrue hfull =>
    cases hfind : ext2FindInodeGroup m m.geo.groupsCount 0 with
    | none => exact h
    | some g =>
      have hg := ext2FindInodeGroup_lt hfind
      rw [Nat.zero_add] at hg
      exact hg
  case isFalse hfull => exact h

/-!
## Reading and writing inodes
-/

theorem ext2WriteInode_calm (hcalm : Calm m) (inode : Inode) :
    ext2WriteInode m inode = (.ok (), inodeWritten m inode) := by
  have hsame : m.setMem m.mem.tail = m := by
    rw [hcalm.mem]
    show m.setMem [] = m
    rw [← hcalm.mem]
    rfl
  rw [ext2WriteInode_eq hcalm.io, hsame, hcalm.mem]
  rfl

section WriteInode

variable {m : Mount} {inode : Inode} (h : Volume m) (hsmall : Small m)
  (hvalid : ValidInode m inode.num)

include h hsmall hvalid

theorem block_inodeWritten {i : Nat} (hi : i < m.geo.blockSize) :
    (inodeWritten m inode).block (inodeBlock m inode.num) i =
      memcpy (m.block (inodeBlock m inode.num)) (inodeOffset m inode.num)
        inode.store 0 128 i := by
  have hlow := h.tableLow hsmall hvalid
  unfold inodeWritten
  rw [writeTo_self hlow hi, blockOffset_low h.size_pos hlow]
  rfl

theorem sameBlock_inodeWritten {b : Nat} (hb : b ≠ inodeBlock m inode.num) :
    SameBlock m (inodeWritten m inode) b :=
  writeTo_other (h.tableLow hsmall hvalid) hb

theorem diskInode_other {ino : Nat} (hino : ValidInode m ino)
    (hne : ino ≠ inode.num) :
    diskInode (inodeWritten m inode) ino = diskInode m ino := by
  apply diskInode_congr h hsmall hino (frame_inodeWritten m inode)
  intro i hi
  have hle := h.table.offset_le ino
  have hrecord := h.record
  by_cases hsame : inodeBlock m ino = inodeBlock m inode.num
  · have hslot := h.table.slot_eq hino
    have hslot' := h.table.slot_eq hvalid
    rw [hsame] at hslot ⊢
    rw [block_inodeWritten h hsmall hvalid (by omega)]
    apply memcpy_of_outside
    have hapart := h.table.slot_disjoint hino hvalid hne
    omega
  · exact sameBlock_inodeWritten h hsmall hvalid hsame _ (by omega)

theorem change_inodeWritten :
    Change ∅ {inode.num} ∅ ∅ m (inodeWritten m inode) := by
  have htable := h.table.block_inTable hvalid
  have hbitmap : forall g r, g < m.geo.groupsCount ->
      SameBlock m (inodeWritten m inode) ((m.groups g).bitmap r) := by
    intro g r hg
    exact sameBlock_inodeWritten h hsmall hvalid
      (Ne.symm (h.tableBitmap _ g r htable hg))
  constructor
  · exact frame_inodeWritten m inode
  · intro b hb _
    apply sameBlock_inodeWritten h hsmall hvalid
    intro heq
    rw [heq] at hb
    exact hb (Or.inr (Or.inr htable))
  · intro ino hino hne
    exact diskInode_other h hsmall hvalid hino hne
  · intro b _
    exact allocated_congr h (frame_inodeWritten m inode)
      (fun g => hbitmap g .block) b
  · intro ino _
    exact inodeUsed_congr h (frame_inodeWritten m inode)
      (fun g => hbitmap g .inode) ino

end WriteInode

end Ext2
end Horizon
