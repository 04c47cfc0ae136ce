import Horizon.Fs.Ext2.Alloc
import Mathlib.Algebra.Order.BigOperators.Group.Finset

/-!
# Blocks of a mounted file system

The device seen as an array of blocks, and what the block layer does to it:
which blocks a transfer touches, and what `ext2_write_super` leaves alone.
-/

namespace Horizon
namespace Ext2

open Function List Bytes
open Bitmaps

/-!
## Outcomes and transfers
-/

theorem getD_first (l : List Bool) : l.getD 0 false = l.headD false := by
  cases l <;> rfl

theorem getD_tail (l : List Bool) (k : Nat) :
    l.tail.getD k false = l.getD (k + 1) false := by
  cases l <;> rfl

theorem deviceFault_eq (m : Mount) :
    deviceFault m = (m.io.headD false, m.setIo m.io.tail) := by
  unfold deviceFault
  cases hio : m.io with
  | nil =>
    show (false, m) = (false, m.setIo [])
    rw [← hio]
    rfl
  | cons fault rest => rfl

theorem kmallocFails_eq (m : Mount) :
    kmallocFails m = (m.mem.headD false, m.setMem m.mem.tail) := by
  unfold kmallocFails
  cases hmem : m.mem with
  | nil =>
    show (false, m) = (false, m.setMem [])
    rw [← hmem]
    rfl
  | cons fails rest => rfl

/-- The content of a block, at its true place on the device. -/
def Mount.block (m : Mount) (b : Nat) : Buffer := fun i =>
  m.dev (b * m.geo.blockSize + i)

/-- The block ends below the 4 GiB that a 32-bit offset reaches. -/
def Low (m : Mount) (b : Nat) : Prop :=
  (b + 1) * m.geo.blockSize <= 2 ^ 32

def SameBlock (m m' : Mount) (b : Nat) : Prop :=
  forall i, i < m.geo.blockSize -> m'.block b i = m.block b i

def writeTo (m : Mount) (b : Nat) (buffer : Buffer) : Mount :=
  m.setDev (memcpy m.dev (blockOffset m b) buffer 0 m.geo.blockSize)

theorem ext2ReadBlock_eq (m : Mount) (b : Nat) :
    ext2ReadBlock m b =
      (if m.io.headD false then none
        else some fun i => m.dev (blockOffset m b + i),
        m.setIo m.io.tail) := by
  unfold ext2ReadBlock deviceRead
  rw [deviceFault_eq]
  cases m.io.headD false <;> rfl

theorem ext2WriteBlock_eq (m : Mount) (b : Nat) (buffer : Buffer) :
    ext2WriteBlock m b buffer =
      if m.io.headD false then (false, m.setIo m.io.tail)
      else (true, (writeTo m b buffer).setIo m.io.tail) := by
  unfold ext2WriteBlock deviceWrite
  rw [deviceFault_eq]
  cases m.io.headD false <;> rfl

variable {m m' m'' : Mount} {b c g i j : Nat} {buffer : Buffer} {r : Resource}
    {v : Bool} {f16 f32 : Nat -> Nat}

theorem blockOffset_low (hpos : 0 < m.geo.blockSize) (h : Low m b) :
    blockOffset m b = b * m.geo.blockSize := by
  unfold Low at h
  rw [Nat.succ_mul] at h
  exact Nat.mod_eq_of_lt (by omega)

theorem mul_add_le (h : i < j) (n : Nat) : i * n + n <= j * n := by
  rw [← Nat.succ_mul]
  exact Nat.mul_le_mul_right n h

theorem outside_block {bs : Nat} (hne : b ≠ c) (hi : i < bs) :
    b * bs + i < c * bs ∨ c * bs + bs <= b * bs + i := by
  rcases Nat.lt_or_gt_of_ne hne with hlt | hgt
  · have hle := mul_add_le hlt bs
    omega
  · have hle := mul_add_le hgt bs
    omega

theorem writeTo_self (h : Low m b) (hi : i < m.geo.blockSize) :
    (writeTo m b buffer).block b i = buffer i := by
  have hoff := blockOffset_low (by omega) h
  unfold writeTo Mount.block
  rw [hoff]
  show memcpy m.dev (b * m.geo.blockSize) buffer 0 m.geo.blockSize
    (b * m.geo.blockSize + i) = buffer i
  rw [memcpy_apply hi, Nat.zero_add]

theorem writeTo_other (h : Low m b) (hne : c ≠ b) :
    SameBlock m (writeTo m b buffer) c := by
  intro i hi
  have hoff := blockOffset_low (by omega) h
  unfold writeTo Mount.block
  rw [hoff]
  exact memcpy_of_outside (outside_block hne hi)

/-!
## Addresses of blocks
-/

/-- A block that is written reads back, and another one reads as before. -/
def TransfersOk (m : Mount) (a b : Nat) : Prop :=
  forall buffer, exists before after,
    (ext2ReadBlock m b).1 = some before ∧
    (ext2WriteBlock m a buffer).1 = true ∧
    (ext2ReadBlock (ext2WriteBlock m a buffer).2 b).1 = some after ∧
    forall i, i < m.geo.blockSize ->
      after i = if a = b then buffer i else before i

theorem transfersOk_iff (hio : m.io = []) (a b : Nat) :
    TransfersOk m a b <-> forall buffer i, i < m.geo.blockSize ->
      (writeTo m a buffer).dev (blockOffset m b + i) =
        if a = b then buffer i else m.dev (blockOffset m b + i) := by
  refine forall_congr' fun buffer => ?_
  simp only [ext2ReadBlock_eq, ext2WriteBlock_eq, hio]
  constructor
  · rintro ⟨_, _, hbefore, _, hafter, h⟩
    cases hbefore
    cases hafter
    exact h
  · exact fun h => ⟨_, _, rfl, rfl, rfl, h⟩

/--
The offset of a block is a 32-bit product: blocks are kept apart exactly when
all of them end below 4 GiB.
-/
theorem block_transfers_iff (m : Mount) (k count : Nat) (hio : m.io = [])
    (hsize : m.geo.blockSize = 1024 * 2 ^ k % 2 ^ 32) :
    (forall a b, a < count -> b < count -> TransfersOk m a b) <->
      count * m.geo.blockSize <= 2 ^ 32 := by
  simp only [transfersOk_iff hio]
  constructor
  · intro h
    by_contra hhigh
    -- the block size divides 4 GiB, so some block has the offset of block 0
    have hdvd : m.geo.blockSize ∣ 2 ^ 32 := by
      rcases Nat.lt_or_ge k 22 with hk | hk
      · rw [hsize, show 1024 = 2 ^ 10 from rfl, ← Nat.pow_add,
          Nat.mod_eq_of_lt (Nat.pow_lt_pow_right (by decide) (by omega))]
        exact Nat.pow_dvd_pow 2 (by omega)
      · have hzero : m.geo.blockSize = 0 := by
          rw [hsize, show 1024 = 2 ^ 10 from rfl, ← Nat.pow_add]
          exact Nat.mod_eq_zero_of_dvd (Nat.pow_dvd_pow 2 (by omega))
        rw [hzero] at hhigh
        omega
    obtain ⟨b, hb⟩ := hdvd
    rw [hb, Nat.mul_comm, Nat.not_le] at hhigh
    have hcount := Nat.lt_of_mul_lt_mul_left hhigh
    have hzero : b ≠ 0 := by
      rintro rfl
      cases hb
    have hpos : 0 < m.geo.blockSize := Nat.pos_of_ne_zero (by
      intro heq
      rw [heq, Nat.zero_mul] at hb
      cases hb)
    have hoffset : blockOffset m b = 0 := by
      unfold blockOffset
      rw [Nat.mul_comm, ← hb, Nat.mod_self]
    have hread := h 0 b (by omega) hcount (fun _ => m.dev 0 + 1) 0 hpos
    rw [if_neg (Ne.symm hzero), hoffset] at hread
    unfold writeTo blockOffset at hread
    rw [Nat.zero_mul, Nat.zero_mod, Mount.setDev_dev, memcpy_apply hpos] at hread
    exact absurd hread (by simp)
  · intro hlow a b ha hb buffer i hi
    have hall : forall c, c < count -> Low m c := fun c hc =>
      Nat.le_trans (Nat.mul_le_mul_right _ hc) hlow
    rw [blockOffset_low (by omega) (hall b hb)]
    split
    case isTrue heq => exact heq ▸ writeTo_self (hall a ha) hi
    case isFalse hne => exact writeTo_other (hall a ha) (Ne.symm hne) i hi

def uniformMount (blockSize : Nat) (v : UInt8) : Mount where
  geo := {
    blockSize := blockSize
    blocksPerGroup := 8192
    inodesPerGroup := 8
    descPerBlock := blockSize / 32
    groupsCount := 1
    firstDataBlock := 1
    inodeSize := 128 }
  readOnly := false
  dev _ := v
  groups _ := {
    blockBitmap := 3
    inodeBitmap := 4
    inodeTable := 5
    freeBlocksCount := 0
    freeInodesCount := 0
    rest := zeros }
  freeBlocks := 0
  freeInodes := 0
  es := zeros
  io := []
  mem := []

theorem block_transfers_small :
    TransfersOk (uniformMount 1024 0) 5 4194303 :=
  (block_transfers_iff (uniformMount 1024 0) 0 4194304 rfl rfl).mpr
    (by decide) 5 4194303 (by decide) (by decide)

/-- The block 4 GiB behind block 0 has the offset of block 0. -/
theorem high_block_overwrites_low :
    ¬ TransfersOk (uniformMount 1024 0) 4194304 0 := by
  rw [transfersOk_iff rfl]
  intro h
  exact absurd (h (fun _ => 1) 0 (by decide)) (by decide)

/-!
## What every call keeps
-/

/--
The parameters of the mount, the places of its tables and the outcomes still to
come: no call changes the first two, and a call only consumes the third.
-/
structure Frame (m m' : Mount) : Prop where
  geo : m'.geo = m.geo
  readOnly : m'.readOnly = m.readOnly
  bitmap : forall g r, (m'.groups g).bitmap r = (m.groups g).bitmap r
  table : forall g, (m'.groups g).inodeTable = (m.groups g).inodeTable
  io : m'.io <:+ m.io
  mem : m'.mem <:+ m.mem

namespace Frame

theorem refl (m : Mount) : Frame m m :=
  ⟨rfl, rfl, fun _ _ => rfl, fun _ => rfl, suffix_rfl, suffix_rfl⟩

theorem trans {m m' m'' : Mount} (h : Frame m m') (h' : Frame m' m'') :
    Frame m m'' where
  geo := h'.geo.trans h.geo
  readOnly := h'.readOnly.trans h.readOnly
  bitmap g r := (h'.bitmap g r).trans (h.bitmap g r)
  table g := (h'.table g).trans (h.table g)
  io := h'.io.trans h.io
  mem := h'.mem.trans h.mem

end Frame

theorem Frame.blockOffset (h : Frame m m') (b : Nat) :
    blockOffset m' b = Ext2.blockOffset m b := by
  unfold Ext2.blockOffset
  rw [h.geo]

theorem SameBlock.trans (hgeo : m'.geo = m.geo) (h : SameBlock m m' b)
    (h' : SameBlock m' m'' b) : SameBlock m m'' b := by
  intro i hi
  rw [h' i (by rw [hgeo]; exact hi), h i hi]

/-- Only outcomes were consumed. -/
structure Quiet (m m' : Mount) : Prop extends Frame m m' where
  dev : m'.dev = m.dev
  groups : m'.groups = m.groups
  free : forall r, m'.free r = m.free r

namespace Quiet

theorem refl (m : Mount) : Quiet m m :=
  ⟨Frame.refl m, rfl, rfl, fun _ => rfl⟩

variable {m m' : Mount}

theorem trans {m'' : Mount} (h : Quiet m m') (h' : Quiet m' m'') :
    Quiet m m'' :=
  ⟨h.toFrame.trans h'.toFrame, h'.dev.trans h.dev, h'.groups.trans h.groups,
    fun r => (h'.free r).trans (h.free r)⟩

theorem block (h : Quiet m m') (b : Nat) : m'.block b = m.block b := by
  unfold Mount.block
  rw [h.dev, h.geo]

end Quiet

theorem free_setIo (m : Mount) (io : List Bool) (r : Resource) :
    (m.setIo io).free r = m.free r := by
  cases r <;> rfl

theorem free_setMem (m : Mount) (mem : List Bool) (r : Resource) :
    (m.setMem mem).free r = m.free r := by
  cases r <;> rfl

theorem quiet_io (m : Mount) : Quiet m (m.setIo m.io.tail) :=
  ⟨⟨rfl, rfl, fun _ _ => rfl, fun _ => rfl, tail_suffix _,
    suffix_rfl⟩, rfl, rfl, free_setIo m _⟩

theorem quiet_mem (m : Mount) : Quiet m (m.setMem m.mem.tail) :=
  ⟨⟨rfl, rfl, fun _ _ => rfl, fun _ => rfl, suffix_rfl,
    tail_suffix _⟩, rfl, rfl, free_setMem m _⟩

/-!
## The superblock and the group descriptors
-/

def MetaBlock (m : Mount) (b : Nat) : Prop :=
  b = 1024 / m.geo.blockSize ∨
    (m.geo.firstDataBlock + 1 <= b ∧
      b < m.geo.firstDataBlock + 1 + m.geo.gdescBlocks)

/--
A mount whose tables do not overlap: `ext2_mount` computes the block size by a
shift, each bitmap fits a block, and the bitmaps lie in blocks of their own.
-/
structure Layout (m : Mount) : Prop where
  size : exists k, m.geo.blockSize = 1024 * 2 ^ k
  fits : forall r, m.geo.perGroup r <= 8 * m.geo.blockSize
  bitmapInj : forall g g' r r', g < m.geo.groupsCount ->
    g' < m.geo.groupsCount ->
    (m.groups g).bitmap r = (m.groups g').bitmap r' -> g = g' ∧ r = r'
  bitmapMeta : forall g r, g < m.geo.groupsCount ->
    ¬ MetaBlock m ((m.groups g).bitmap r)

/-- The bitmaps and the group descriptors lie below 4 GiB. -/
structure LowTables (m : Mount) : Prop where
  gdesc : forall i, i < m.geo.gdescBlocks ->
    Low m (m.geo.firstDataBlock + 1 + i)
  bitmap : forall g r, g < m.geo.groupsCount -> Low m ((m.groups g).bitmap r)

theorem MetaBlock.congr (hgeo : m'.geo = m.geo) (b : Nat) :
    MetaBlock m' b <-> MetaBlock m b := by
  unfold MetaBlock
  rw [hgeo]

theorem Low.congr (hgeo : m'.geo = m.geo) (b : Nat) : Low m' b <-> Low m b := by
  unfold Low
  rw [hgeo]

theorem Layout.frame (h : Layout m) (hframe : Frame m m') : Layout m' := by
  constructor
  · rw [hframe.geo]
    exact h.size
  · rw [hframe.geo]
    exact h.fits
  · intro g g' r r' hg hg' heq
    rw [hframe.geo] at hg hg'
    rw [hframe.bitmap, hframe.bitmap] at heq
    exact h.bitmapInj g g' r r' hg hg' heq
  · intro g r hg hmeta
    rw [hframe.geo] at hg
    rw [MetaBlock.congr hframe.geo, hframe.bitmap] at hmeta
    exact h.bitmapMeta g r hg hmeta

theorem LowTables.frame (h : LowTables m) (hframe : Frame m m') :
    LowTables m' := by
  constructor
  · intro i hi
    rw [hframe.geo] at hi
    rw [Low.congr hframe.geo, hframe.geo]
    exact h.gdesc i hi
  · intro g r hg
    rw [hframe.geo] at hg
    rw [Low.congr hframe.geo, hframe.bitmap]
    exact h.bitmap g r hg

theorem Layout.size_pos (h : Layout m) : 0 < m.geo.blockSize := by
  rcases h.size with ⟨k, hk⟩
  have hpow := Nat.two_pow_pos k
  omega

theorem outside_super {m : Mount} (h : Layout m) {b i : Nat}
    (hb : b ≠ 1024 / m.geo.blockSize) (hi : i < m.geo.blockSize) :
    b * m.geo.blockSize + i < 1024 ∨ 1024 + 1024 <= b * m.geo.blockSize + i := by
  rcases h.size with ⟨k, hk⟩
  rw [hk] at hb hi ⊢
  cases k with
  | zero => omega
  | succ k =>
    have hdiv : 1024 / (1024 * 2 ^ (k + 1)) = 0 := by
      apply Nat.div_eq_of_lt
      omega
    right
    have hle : 1 * (1024 * 2 ^ (k + 1)) <= b * (1024 * 2 ^ (k + 1)) :=
      Nat.mul_le_mul_right _ (by omega)
    omega

/-- What `ext2_write_super` may change. -/
structure MetaWrite (m m' : Mount) : Prop extends Frame m m' where
  groups : m'.groups = m.groups
  free : forall r, m'.free r = m.free r
  other : forall b, ¬ MetaBlock m b -> SameBlock m m' b

theorem MetaWrite.trans (h : MetaWrite m m') (h' : MetaWrite m' m'') :
    MetaWrite m m'' where
  toFrame := h.toFrame.trans h'.toFrame
  groups := h'.groups.trans h.groups
  free r := (h'.free r).trans (h.free r)
  other b hb := by
    have hb' : ¬ MetaBlock m' b := by
      rw [MetaBlock.congr h.geo]
      exact hb
    exact (h.other b hb).trans h.geo (h'.other b hb')

theorem Quiet.metaWrite (h : Quiet m m') : MetaWrite m m' where
  toFrame := h.toFrame
  groups := h.groups
  free := h.free
  other b _ := by
    intro i _
    rw [h.block]

theorem free_setDev (m : Mount) (dev : Buffer) (r : Resource) :
    (m.setDev dev).free r = m.free r := by
  cases r <;> rfl

theorem frame_setDev (m : Mount) (dev : Buffer) : Frame m (m.setDev dev) :=
  ⟨rfl, rfl, fun _ _ => rfl, fun _ => rfl, suffix_rfl, suffix_rfl⟩

theorem frame_writeTo (m : Mount) (b : Nat) (buffer : Buffer) :
    Frame m (writeTo m b buffer) :=
  frame_setDev m _

theorem io_writeTo (m : Mount) (b : Nat) (buffer : Buffer) :
    (writeTo m b buffer).io = m.io := rfl

theorem mem_writeTo (m : Mount) (b : Nat) (buffer : Buffer) :
    (writeTo m b buffer).mem = m.mem := rfl

theorem metaWrite_writeTo (hlow : Low m b) (hmeta : MetaBlock m b) :
    MetaWrite m (writeTo m b buffer) where
  toFrame := frame_setDev m _
  groups := rfl
  free := free_setDev m _
  other c hc := by
    apply writeTo_other hlow
    intro heq
    subst heq
    exact hc hmeta

theorem ext2WriteGroups_effect {n : Nat} (hlow : LowTables m)
    (hn : i + n = m.geo.gdescBlocks) :
    MetaWrite m (ext2WriteGroups (m.geo.firstDataBlock + 1) n i m).2 := by
  induction n generalizing i m with
  | zero => exact (Quiet.refl m).metaWrite
  | succ n ih =>
    unfold ext2WriteGroups
    simp only [ext2WriteBlock_eq]
    cases m.io.headD false with
    | true => exact (quiet_io m).metaWrite
    | false =>
      generalize (fun a => m.groupBytes (i * m.geo.blockSize + a)) = buffer
      have hstep : MetaWrite m ((writeTo m (m.geo.firstDataBlock + 1 + i)
          buffer).setIo m.io.tail) := by
        apply (metaWrite_writeTo (hlow.gdesc i (by omega))
          (Or.inr ⟨by omega, by omega⟩)).trans
        exact (quiet_io (writeTo m _ buffer)).metaWrite
      exact hstep.trans (ih (hlow.frame hstep.toFrame) (by
        rw [hstep.geo]
        omega))

theorem ext2WriteSuper_effect (h : Layout m) (hlow : LowTables m) :
    MetaWrite m (ext2WriteSuper m).2 := by
  unfold ext2WriteSuper deviceWrite
  rw [deviceFault_eq]
  cases m.io.headD false with
  | true => exact (quiet_io m).metaWrite
  | false =>
    have hstep : MetaWrite m ((m.setIo m.io.tail).setDev
        (memcpy m.dev 1024 m.superBytes 0 1024)) := by
      constructor
      · exact (quiet_io m).toFrame.trans (frame_setDev _ _)
      · rfl
      · intro r
        rw [free_setDev, free_setIo]
      · intro b hb i hi
        apply memcpy_of_outside
        exact outside_super h (fun heq => hb (Or.inl heq)) hi
    exact hstep.trans (ext2WriteGroups_effect (hlow.frame hstep.toFrame)
      (Nat.zero_add _))

/-!
## Taking and releasing a bit
-/

/--
Bit `j` of one bitmap became `v`, and the counters of its group and
of the superblock were adjusted.
-/
structure BitChange (r : Resource) (g j : Nat) (v : Bool)
    (f16 f32 : Nat -> Nat) (m m' : Mount) : Prop extends Frame m m' where
  bit : forall k, k < 8 * m.geo.blockSize ->
    bitTest (m'.block ((m.groups g).bitmap r)) k =
      if k = j then v else bitTest (m.block ((m.groups g).bitmap r)) k
  other : forall b, b ≠ (m.groups g).bitmap r -> ¬ MetaBlock m b ->
    SameBlock m m' b
  count : forall g' r', (m'.groups g').free r' =
    if g' = g ∧ r' = r then f16 ((m.groups g).free r)
    else (m.groups g').free r'
  total : forall r', m'.free r' = if r' = r then f32 (m.free r) else m.free r'

theorem groups_recount (r : Resource) (g : Nat) (f16 f32 : Nat -> Nat)
    (m : Mount) :
    (recount r g f16 f32 m).groups = update m.groups g
      ((m.groups g).setFree r (f16 ((m.groups g).free r))) := by
  cases r <;> rfl

theorem dev_recount (r : Resource) (g : Nat) (f16 f32 : Nat -> Nat) (m : Mount) :
    (recount r g f16 f32 m).dev = m.dev := by
  cases r <;> rfl

theorem io_recount (r : Resource) (g : Nat) (f16 f32 : Nat -> Nat) (m : Mount) :
    (recount r g f16 f32 m).io = m.io := by
  cases r <;> rfl

theorem free_recount (r : Resource) (g : Nat) (f16 f32 : Nat -> Nat) (m : Mount)
    (r' : Resource) :
    (recount r g f16 f32 m).free r' =
      if r' = r then f32 (m.free r) else m.free r' := by
  cases r <;> cases r' <;> rfl

theorem free_setFree (g : GroupDesc) (r r' : Resource) (n : Nat) :
    (g.setFree r n).free r' = if r' = r then n else g.free r' := by
  cases r <;> cases r' <;> rfl

theorem bitmap_setFree (g : GroupDesc) (r r' : Resource) (n : Nat) :
    (g.setFree r n).bitmap r' = g.bitmap r' := by
  cases r <;> cases r' <;> rfl

theorem table_setFree (g : GroupDesc) (r : Resource) (n : Nat) :
    (g.setFree r n).inodeTable = g.inodeTable := by
  cases r <;> rfl

theorem frame_recount (r : Resource) (g : Nat) (f16 f32 : Nat -> Nat)
    (m : Mount) : Frame m (recount r g f16 f32 m) := by
  constructor
  · cases r <;> rfl
  · cases r <;> rfl
  · intro g' r'
    rw [groups_recount]
    by_cases hg : g' = g
    · rw [hg, update_self, bitmap_setFree]
    · rw [update_of_ne hg]
  · intro g'
    rw [groups_recount]
    by_cases hg : g' = g
    · rw [hg, update_self, table_setFree]
    · rw [update_of_ne hg]
  · rw [io_recount]
  · cases r <;> exact suffix_rfl

theorem block_recount (r : Resource) (g : Nat) (f16 f32 : Nat -> Nat)
    (m : Mount) (b : Nat) : (recount r g f16 f32 m).block b = m.block b := by
  unfold Mount.block
  rw [dev_recount, (frame_recount r g f16 f32 m).geo]

theorem bitChange_of_write (f16 f32 : Nat -> Nat) (h : Layout m)
    (hlow : LowTables m) (hg : g < m.geo.groupsCount)
    (hbuffer : forall k, k < 8 * m.geo.blockSize -> bitTest buffer k =
      if k = j then v else bitTest (m.block ((m.groups g).bitmap r)) k) :
    BitChange r g j v f16 f32 m (ext2WriteSuper (recount r g f16 f32
      ((writeTo m ((m.groups g).bitmap r) buffer).setIo m.io.tail))).2 := by
  set m1 := (writeTo m ((m.groups g).bitmap r) buffer).setIo m.io.tail
  have hgroups1 : m1.groups = m.groups := rfl
  have hfree1 (r' : Resource) : m1.free r' = m.free r' := by cases r' <;> rfl
  have hframe1 : Frame m m1 :=
    (frame_setDev m _).trans (quiet_io (writeTo m _ buffer)).toFrame
  have hblock1 (b : Nat) : m1.block b =
      (writeTo m ((m.groups g).bitmap r) buffer).block b := rfl
  have hframe2 := hframe1.trans (frame_recount r g f16 f32 m1)
  have hmeta := ext2WriteSuper_effect (h.frame hframe2) (hlow.frame hframe2)
  have hsame : forall b, ¬ MetaBlock m b ->
      SameBlock m1 (ext2WriteSuper (recount r g f16 f32 m1)).2 b := by
    intro b hb i hi
    rw [← MetaBlock.congr hframe2.geo] at hb
    rw [hmeta.other b hb i (by rw [hframe2.geo, ← hframe1.geo]; exact hi),
      block_recount]
  constructor
  · exact hframe2.trans hmeta.toFrame
  · intro k hk
    have hbyte : k / 8 < m.geo.blockSize := by omega
    rw [← hbuffer k hk]
    apply bitTest_congr
    rw [hsame _ (h.bitmapMeta g r hg) _ (by rw [hframe1.geo]; exact hbyte),
      hblock1]
    exact writeTo_self (hlow.bitmap g r hg) hbyte
  · intro b hb hbmeta i hi
    rw [hsame b hbmeta i (by rw [hframe1.geo]; exact hi), hblock1]
    exact writeTo_other (hlow.bitmap g r hg) hb i hi
  · intro g' r'
    rw [hmeta.groups, groups_recount, hgroups1]
    by_cases hg' : g' = g
    · simp [hg', free_setFree]
    · rw [update_of_ne hg', if_neg (fun hboth => hg' hboth.left)]
  · intro r'
    rw [hmeta.free, free_recount, hfree1, hfree1]

theorem BitChange.of_quiet (hquiet : Quiet m m')
    (h : BitChange r g j v f16 f32 m' m'') :
    BitChange r g j v f16 f32 m m'' := by
  constructor
  · exact hquiet.toFrame.trans h.toFrame
  · intro k hk
    rw [← hquiet.geo] at hk
    rw [← hquiet.bitmap, h.bit k hk, hquiet.block]
  · intro b hb hmeta i hi
    rw [← hquiet.bitmap] at hb
    rw [← MetaBlock.congr hquiet.geo] at hmeta
    rw [← hquiet.geo] at hi
    rw [h.other b hb hmeta i hi, hquiet.block]
  · intro g' r'
    rw [h.count, hquiet.groups]
  · intro r'
    rw [h.total, hquiet.free, hquiet.free]

theorem read_low (h : Layout m) (hlow : Low m b) :
    (fun i => m.dev (blockOffset m b + i)) = m.block b := by
  rw [blockOffset_low h.size_pos hlow]
  rfl

/-- There is no memory for the bitmap of a group, it cannot be read, or it is
read. -/
theorem fetchBitmap_cases (r : Resource) (h : Layout m) (hlow : LowTables m)
    (hg : g < m.geo.groupsCount) :
    (exists m1, kmallocFails m = (true, m1) ∧ Quiet m m1) ∨
    (exists m1 m2, kmallocFails m = (false, m1) ∧
      ext2ReadBlock m1 ((m1.groups g).bitmap r) = (none, m2) ∧ Quiet m m2) ∨
    exists m1 m2, kmallocFails m = (false, m1) ∧
      ext2ReadBlock m1 ((m1.groups g).bitmap r) =
        (some (m2.block ((m2.groups g).bitmap r)), m2) ∧ Quiet m m2 ∧
      m.io.getD 0 false = false ∧ m2.io = m.io.tail := by
  rw [kmallocFails_eq, getD_first]
  cases m.mem.headD false with
  | true => exact Or.inl ⟨_, rfl, quiet_mem m⟩
  | false =>
    have hquiet := quiet_mem m
    have hio : (m.setMem m.mem.tail).io = m.io := rfl
    generalize m.setMem m.mem.tail = m1 at hquiet hio
    have hg1 : g < m1.geo.groupsCount := by
      rw [hquiet.geo]
      exact hg
    have hread := read_low (h.frame hquiet.toFrame)
      ((hlow.frame hquiet.toFrame).bitmap g r hg1)
    have hcall := ext2ReadBlock_eq m1 ((m1.groups g).bitmap r)
    rw [hread, hio] at hcall
    right
    cases hhead : m.io.headD false with
    | true =>
      rw [hhead] at hcall
      refine Or.inl ⟨m1, _, rfl, hcall, ?_⟩
      rw [← hio]
      exact hquiet.trans (quiet_io m1)
    | false =>
      rw [hhead] at hcall
      refine Or.inr ⟨m1, m1.setIo m.io.tail, rfl, hcall, ?_, rfl, rfl⟩
      rw [← hio]
      exact hquiet.trans (quiet_io m1)

/-- The changed bitmap that was read cannot be written, or is written. -/
theorem writeBitmap_cases {m2 : Mount} {buffer : Buffer} (f16 f32 : Nat -> Nat)
    (h : Layout m) (hlow : LowTables m) (hg : g < m.geo.groupsCount)
    (hquiet : Quiet m m2) (hbuffer : forall k, bitTest buffer k =
      if k = j then v else bitTest (m2.block ((m2.groups g).bitmap r)) k) :
    (exists m3, ext2WriteBlock m2 ((m2.groups g).bitmap r) buffer =
      (false, m3) ∧ Quiet m m3) ∨
    exists m3, ext2WriteBlock m2 ((m2.groups g).bitmap r) buffer = (true, m3) ∧
      m2.io.headD false = false ∧ m3.io = m2.io.tail ∧ m3.geo = m.geo ∧
      BitChange r g j v f16 f32 m
        (ext2WriteSuper (recount r g f16 f32 m3)).2 := by
  rw [ext2WriteBlock_eq]
  cases m2.io.headD false with
  | true => exact Or.inl ⟨_, rfl, hquiet.trans (quiet_io m2)⟩
  | false =>
    rw [← hquiet.geo] at hg
    refine Or.inr ⟨_, rfl, rfl, rfl, hquiet.geo, BitChange.of_quiet hquiet ?_⟩
    exact bitChange_of_write f16 f32 (h.frame hquiet.toFrame)
      (hlow.frame hquiet.toFrame) hg fun k _ => hbuffer k

/-- A bit of the bitmap that was read is taken, unless the bitmap cannot be
written. -/
theorem takeBit_cases (r : Resource) (j : Nat) {m2 : Mount} (h : Layout m)
    (hlow : LowTables m) (hg : g < m.geo.groupsCount) (hquiet : Quiet m m2) :
    (exists m3, takeBit r m2 g j (m2.block ((m2.groups g).bitmap r)) =
      (false, m3) ∧ Quiet m m3) ∨
    exists m3 ok m4, takeBit r m2 g j (m2.block ((m2.groups g).bitmap r)) =
      (ok, m4) ∧ ext2WriteSuper m3 = (ok, m4) ∧ m2.io.headD false = false ∧
      m3.io = m2.io.tail ∧ m3.geo = m.geo ∧
      BitChange r g j true dec16 dec32 m m4 := by
  unfold takeBit
  rcases writeBitmap_cases (r := r) dec16 dec32 h hlow hg hquiet
      (bitTest_bitSet_ite _ j) with
    ⟨m3, hwrite, hquiet3⟩ | ⟨m3, hwrite, hnext, hio, hgeo, hchange⟩
  · exact Or.inl ⟨m3, by rw [hwrite], hquiet3⟩
  · cases hsuper : ext2WriteSuper (recount r g dec16 dec32 m3) with
    | mk ok m4 =>
      rw [hsuper] at hchange
      refine Or.inr ⟨_, ok, m4, ?_, hsuper, hnext, ?_, ?_, hchange⟩
      · simp only [hwrite, hsuper]
      · rw [io_recount, hio]
      · rw [(frame_recount r g dec16 dec32 m3).geo, hgeo]

/--
Releasing a bit either fails before anything is written, finds the bit clear,
or clears it.
-/
theorem releaseBit_effect (h : Layout m) (hlow : LowTables m)
    (hg : g < m.geo.groupsCount) :
    Quiet m (releaseBit r m g j).2 ∨
      BitChange r g j false inc16 inc32 m (releaseBit r m g j).2 := by
  unfold releaseBit
  rcases fetchBitmap_cases r h hlow hg with
    ⟨m1, hmem, hquiet⟩ | ⟨m1, m2, hmem, hread, hquiet⟩ |
    ⟨m1, m2, hmem, hread, hquiet, _⟩
  · simp only [hmem]
    exact Or.inl hquiet
  · simp only [hmem, hread]
    exact Or.inl hquiet
  simp only [hmem, hread]
  cases hbit : bitTest (m2.block ((m2.groups g).bitmap r)) j with
  | false => exact Or.inl hquiet
  | true =>
    rcases writeBitmap_cases (r := r) inc16 inc32 h hlow hg hquiet
        (bitTest_bitClear_ite _ j) with
      ⟨m3, hwrite, hquiet3⟩ | ⟨m3, hwrite, _, _, _, hchange⟩
    · simp only [if_true, hwrite]
      exact Or.inl hquiet3
    · simp only [if_true, hwrite]
      right
      revert hchange
      cases ext2WriteSuper (recount r g inc16 inc32 m3) with
      | mk ok m4 => cases ok <;> exact id

end Ext2
end Horizon
