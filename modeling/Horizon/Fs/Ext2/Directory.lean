import Mathlib.Tactic.IntervalCases
import Horizon.Fs.Ext2.DirBlock
import Horizon.Fs.Ext2.FileUpdate

/-!
# Calls on directories

Each call on a directory leaves its blocks as they were, but for one that gets
new contents.  On a volume of at most 4 GiB with blocks below 64 KiB, and as
long as nothing fails, the new contents are those of the operation on the block.
-/

namespace Horizon
namespace Ext2

open List Bytes RecordChain

/-- What the calls need to know of the volume and of the pointers. -/
structure DirBase (m : Mount) (dir : Inode) : Prop where
  volume : Volume m
  small : Small m
  calm : Calm m
  file : FileOk m dir
  num : ValidInode m dir.num
  size : dir.size < 2 ^ 32
  width : m.geo.blockSize < 2 ^ 16

/-- All blocks of the directory lie within its size. -/
structure DirOk (m : Mount) (dir : Inode) : Prop extends DirBase m dir where
  tail : forall k, numBlocks m dir <= k -> fileBlock m dir k = 0

def DirFormed (m : Mount) (dir : Inode) : Prop :=
  forall k, k < numBlocks m dir -> fileBlock m dir k ≠ 0 ->
    BlockFormed m.geo.blockSize (m.block (fileBlock m dir k))

def entriesAt (m : Mount) (dir : Inode) (k : Nat) : List (Name × Nat) :=
  if fileBlock m dir k = 0 then []
  else blockEntries m.geo.blockSize (m.block (fileBlock m dir k))

def dirEntries (m : Mount) (dir : Inode) : List (Name × Nat) :=
  (List.range (numBlocks m dir)).flatMap (entriesAt m dir)

namespace DirBase

variable {m : Mount} {dir : Inode}

section

variable (h : DirBase m dir)
include h

theorem blockSize :
    exists j, j < 6 ∧ m.geo.blockSize = 1024 * 2 ^ j := by
  rcases h.volume.layout.size with ⟨j, hj⟩
  refine ⟨j, ?_, hj⟩
  by_contra hge
  have hwidth := h.width
  have hpow : 2 ^ 6 <= 2 ^ j := Nat.pow_le_pow_right (by decide) (by omega)
  omega

theorem blockSize_ge : 1024 <= m.geo.blockSize := by
  rcases h.blockSize with ⟨j, _, hj⟩
  have hpow := Nat.one_le_two_pow (n := j)
  omega

theorem blockSize_aligned : m.geo.blockSize % 4 = 0 := by
  rcases h.blockSize with ⟨j, _, hj⟩
  omega

theorem numBlocks_eq :
    numBlocks m dir = (dir.size + m.geo.blockSize - 1) / m.geo.blockSize := by
  have hsize := h.size
  have hge := h.blockSize_ge
  apply Nat.mod_eq_of_lt
  apply Nat.div_lt_of_lt_mul
  omega

theorem lt_numBlocks (k : Nat) :
    k < numBlocks m dir <-> k * m.geo.blockSize < dir.size := by
  have hge := h.blockSize_ge
  rw [h.numBlocks_eq, Nat.lt_iff_add_one_le, Nat.le_div_iff_mul_le (by omega),
    Nat.add_mul]
  omega

theorem numBlocks_of_size {k : Nat}
    (hsize : dir.size = k * m.geo.blockSize + m.geo.blockSize) :
    numBlocks m dir = k + 1 := by
  have hge := h.blockSize_ge
  have hin := h.lt_numBlocks k
  have hout := h.lt_numBlocks (k + 1)
  rw [Nat.add_mul] at hout
  omega

theorem newSize_lt (hreach : numBlocks m dir < 12 + m.geo.pointers) :
    (numBlocks m dir + 1) * m.geo.blockSize < 2 ^ 32 := by
  have hwidth := h.width
  have hle : numBlocks m dir + 1 <= 2 ^ 15 := by
    unfold Geometry.pointers at hreach
    omega
  have hproduct := Nat.mul_le_mul hle (Nat.le_of_lt hwidth)
  omega

theorem exact {k : Nat} (hk : k <= numBlocks m dir) :
    ExactMap m.geo.pointers k := by
  have hsize := h.size
  have hblocks := h.numBlocks_eq
  rcases h.blockSize with ⟨j, hj, hbs⟩
  unfold ExactMap Geometry.pointers
  rw [hbs] at hblocks ⊢
  interval_cases j
  all_goals omega

theorem getBlock {k : Nat} (hk : k <= numBlocks m dir) :
    ext2GetBlock m dir k = (fileBlock m dir k, m) :=
  h.file.getBlock h.volume h.small h.calm (h.exact hk)

theorem read {k : Nat} (hk : fileBlock m dir k ≠ 0) :
    ext2ReadBlock m (fileBlock m dir k) =
      (some (m.block (fileBlock m dir k)), m) :=
  h.calm.read h.volume.size_pos
    (h.volume.low h.small (h.file.fileBlock_data hk).left)

theorem grown {m' : Mount} {dir' : Inode} (hgrown : Grown m dir m' dir') :
    DirBase m' dir' := by
  rcases hgrown.fields with ⟨data, hfields⟩
  constructor
  · exact hgrown.change.volume_of_free h.volume
  · exact hgrown.change.small.mpr h.small
  · exact h.calm.frame hgrown.change.toFrame
  · exact hgrown.file
  · rw [hgrown.change.validInode, hfields]
    exact h.num
  · rw [hfields]
    exact h.size
  · rw [hgrown.change.geo]
    exact h.width

end

end DirBase

/-!
## Contents
-/

structure SameAt (m : Mount) (dir : Inode) (m' : Mount) (dir' : Inode)
    (k : Nat) : Prop where
  block : fileBlock m' dir' k = fileBlock m dir k
  bytes : fileBlock m dir k ≠ 0 -> SameBlock m m' (fileBlock m dir k)

structure Replaced (m : Mount) (dir : Inode) (m' : Mount) (dir' : Inode)
    (k : Nat) (b : Buffer) : Prop where
  base : DirBase m' dir'
  geo : m'.geo = m.geo
  other : forall j, j ≠ k -> SameAt m dir m' dir' j
  nonzero : fileBlock m' dir' k ≠ 0
  self : forall i, i < m.geo.blockSize -> m'.block (fileBlock m' dir' k) i = b i

section Contents

variable {m m' m'' : Mount} {dir dir' dir'' : Inode} {k : Nat} {b b' : Buffer}

theorem SameAt.trans (hgeo : m'.geo = m.geo) (h : SameAt m dir m' dir' k)
    (h' : SameAt m' dir' m'' dir'' k) : SameAt m dir m'' dir'' k := by
  refine ⟨h'.block.trans h.block, ?_⟩
  intro hne
  apply (h.bytes hne).trans hgeo
  rw [← h.block]
  apply h'.bytes
  rw [h.block]
  exact hne

theorem Replaced.refl (h : DirBase m dir) (hk : fileBlock m dir k ≠ 0) :
    Replaced m dir m dir k (m.block (fileBlock m dir k)) where
  base := h
  geo := rfl
  other _ _ := ⟨rfl, fun _ _ _ => rfl⟩
  nonzero := hk
  self _ _ := rfl

theorem Replaced.trans (h : Replaced m dir m' dir' k b)
    (h' : Replaced m' dir' m'' dir'' k b') :
    Replaced m dir m'' dir'' k b' where
  base := h'.base
  geo := h'.geo.trans h.geo
  other j hj := (h.other j hj).trans h.geo (h'.other j hj)
  nonzero := h'.nonzero
  self i hi := h'.self i (by rw [h.geo]; exact hi)

theorem Replaced.same (h : Replaced m dir m' dir' k b)
    (hbase : DirBase m'' dir'') (hgeo : m''.geo = m'.geo)
    (hsame : forall j, SameAt m' dir' m'' dir'' j) :
    Replaced m dir m'' dir'' k b where
  base := hbase
  geo := hgeo.trans h.geo
  other j hj := (h.other j hj).trans h.geo (hsame j)
  nonzero := by
    rw [(hsame k).block]
    exact h.nonzero
  self i hi := by
    rw [(hsame k).block, (hsame k).bytes h.nonzero i (by rw [h.geo]; exact hi)]
    exact h.self i hi

theorem sameAt_of_change {blocks inodes used usedInodes : Set Nat}
    (hchange : Change blocks inodes used usedInodes m m') (hfile : FileOk m dir)
    (hdata : dir'.data = dir.data)
    (hapart : forall b, b ∈ Own m dir -> b ∉ blocks) (j : Nat) :
    SameAt m dir m' dir' j :=
  ⟨fileBlock_of_change hchange hfile hdata hapart j,
    fun hk => sameBlock_of_change hchange hfile hapart hk⟩

variable (h : DirBase m dir)
include h

theorem DirBase.fileBlock_write (hk : fileBlock m dir k ≠ 0) (b : Buffer)
    (j : Nat) :
    fileBlock (writeTo m (fileBlock m dir k) b) dir j = fileBlock m dir j := by
  have hdata := h.file.fileBlock_data hk
  have hlow := h.volume.low h.small hdata.left
  have hchange := change_writeTo h.volume h.small hlow hdata.right b
  apply fileBlock_congr hchange.geo
  intro p hp
  apply blockAt_change hchange h.file _ hp
  intro q hq hinner _
  exact h.file.leaf_ne_inner hk hq hinner

theorem DirBase.replaced_write (hk : fileBlock m dir k ≠ 0) (b : Buffer) :
    Replaced m dir (writeTo m (fileBlock m dir k) b) dir k b := by
  have hlow := h.volume.low h.small (h.file.fileBlock_data hk).left
  have hblocks := h.fileBlock_write hk b
  refine ⟨h.grown (grown_write h.volume h.small h.file hk b).left, rfl,
    ?_, ?_, ?_⟩
  · intro j hj
    refine ⟨hblocks j, ?_⟩
    intro hne
    apply writeTo_other hlow
    intro heq
    exact hj (h.file.fileBlock_inj hne heq)
  · rw [hblocks]
    exact hk
  · intro i hi
    rw [hblocks]
    exact writeTo_self hlow hi

theorem DirBase.replaced_extended {phys : Nat}
    (hext : Extended m dir k phys m' dir') (b : Buffer) :
    Replaced m dir (writeTo m' phys b) dir' k b := by
  have hgeo := hext.change.geo
  have hself : fileBlock m' dir' k ≠ 0 := by
    rw [hext.self]
    exact hext.nonzero
  have hwrite := (h.grown hext.toGrown).replaced_write hself b
  rw [hext.self] at hwrite
  refine ⟨hwrite.base, hwrite.geo.trans hgeo, ?_, hwrite.nonzero, ?_⟩
  · intro j hj
    apply SameAt.trans hgeo _ (hwrite.other j hj)
    refine ⟨hext.other j hj, ?_⟩
    intro hne
    have hdata := h.file.fileBlock_data hne
    apply hext.precise.block _ hdata.right
    rintro (heq | hfree)
    · exact h.file.leaf_ne_inner hne (q := (12, [])) (PointerTree.Legal.nil 12)
        Nat.zero_lt_one heq.symm
    · exact hfree hdata.left
  · intro i hi
    apply hwrite.self
    rw [hgeo]
    exact hi

theorem DirBase.setSize {size : Nat} (hsize : size < 2 ^ 32) :
    let dir' := dir.setSize size
    let m' := inodeWritten m dir'
    DirBase m' dir' ∧ m'.geo = m.geo ∧ forall j, SameAt m dir m' dir' j := by
  have hnum : ValidInode m (dir.setSize size).num := h.num
  have hchange := change_inodeWritten h.volume h.small hnum
  have hapart : forall b, b ∈ Own m dir -> b ∉ (∅ : Set Nat) :=
    fun _ _ => Set.notMem_empty _
  refine ⟨?_, hchange.geo, sameAt_of_change hchange h.file rfl hapart⟩
  constructor
  · exact hchange.volume h.volume (fun _ hb => absurd hb (Set.notMem_empty _))
  · exact hchange.small.mpr h.small
  · exact h.calm.frame hchange.toFrame
  · exact h.file.congr hchange.geo
      (fun _ hp => blockAt_of_change hchange h.file rfl hapart hp)
      (fun p hp hne => (h.file.data p hp hne).change hchange
        (Set.notMem_empty _))
  · exact (hchange.validInode _).mpr hnum
  · exact hsize
  · rw [hchange.geo]
    exact h.width

end Contents

/-!
## Looking up
-/

section Calls

variable {m : Mount} {dir : Inode} {name : Name}

section

variable (h : DirBase m dir)
include h

/-- Either no block that is left has the name, or one of them loses it. -/
theorem ext2RemoveEntryLoop_write (hformed : DirFormed m dir) {n k : Nat}
    (hn : k + n = numBlocks m dir) :
    (ext2RemoveEntryLoop dir name n k m =
        some (.error .enoent, m) ∧
      ((List.range' k n).flatMap (entriesAt m dir)).lookup name = none) ∨
    exists j ino b, ext2RemoveEntryLoop dir name n k m =
        some (.ok (), writeTo m (fileBlock m dir j) b) ∧
      j < numBlocks m dir ∧ fileBlock m dir j ≠ 0 ∧
      ((List.range' k n).flatMap (entriesAt m dir)).lookup name = some ino ∧
      Removes m.geo.blockSize (m.block (fileBlock m dir j)) name ino b ∧
      (HasSpace m.geo.blockSize (m.block (fileBlock m dir j)) name.length ->
        HasSpace m.geo.blockSize b name.length) := by
  induction n generalizing k with
  | zero => exact Or.inl ⟨rfl, rfl⟩
  | succ n ih =>
    unfold ext2RemoveEntryLoop
    rw [h.getBlock (by omega), List.range'_succ, flatMap_cons, lookup_append]
    by_cases hhole : fileBlock m dir k = 0
    · have hnone : entriesAt m dir k = [] := if_pos hhole
      simp only [if_pos hhole]
      rw [hnone, lookup_nil, Option.none_or]
      exact ih (by omega)
    · have hsome : entriesAt m dir k = blockEntries m.geo.blockSize
          (m.block (fileBlock m dir k)) := if_neg hhole
      simp only [if_neg hhole, h.read hhole]
      rcases scanBlock_hasName (hformed k (by omega) hhole) h.width name with
        ⟨hscan, hlookup⟩ | ⟨prev, off, hscan, hlookup, hremoves, hspace⟩
      · simp only [hscan]
        rw [hsome, hlookup, Option.none_or]
        exact ih (by omega)
      · simp only [hscan, h.calm.write]
        right
        refine ⟨k, _, _, rfl, by omega, hhole, ?_, hremoves, hspace⟩
        rw [hsome, hlookup, Option.some_or]

/-!
## Adding
-/

/--
The block and the record where `ext2_add_entry` puts an entry of the given size:
the first record that is free or has room, in the blocks from `k` on.  A
hole, and the block after the last one, count as one free record.
-/
def findSlot (m : Mount) (dir : Inode) (size : Nat) :
    Nat -> Nat -> Nat × Buffer × Nat
  | 0, k => (k, freeBlock m.geo.blockSize, 0)
  | n + 1, k =>
      if fileBlock m dir k = 0 then (k, freeBlock m.geo.blockSize, 0)
      else
        let b := m.block (fileBlock m dir k)
        match (offsets m.geo.blockSize b).find? (hasRoom size b) with
        | some off => (k, b, off)
        | none => findSlot m dir size n (k + 1)

def slotFor (m : Mount) (dir : Inode) (name : Name) : Nat × Buffer × Nat :=
  findSlot m dir (entrySize name.length) (numBlocks m dir) 0

structure SlotOk (m : Mount) (dir : Inode) (size : Nat)
    (slot : Nat × Buffer × Nat) : Prop where
  range : slot.1 <= numBlocks m dir
  room : hasRoom size slot.2.1 slot.2.2 = true
  records : exists xs ys,
    Records m.geo.blockSize slot.2.1 (xs ++ [slot.2.2] ++ ys)
  block : (slot.1 < numBlocks m dir ∧ fileBlock m dir slot.1 ≠ 0 ∧
      slot.2.1 = m.block (fileBlock m dir slot.1)) ∨
    (fileBlock m dir slot.1 = 0 ∧ slot.2.1 = freeBlock m.geo.blockSize ∧
      slot.2.2 = 0)

theorem DirBase.freeBlock :
    Records m.geo.blockSize (freeBlock m.geo.blockSize) [0] ∧
      entryInode (Ext2.freeBlock m.geo.blockSize) 0 = 0 ∧
      recLen (Ext2.freeBlock m.geo.blockSize) 0 = m.geo.blockSize := by
  have hge := h.blockSize_ge
  exact freeBlock_records (by omega) h.width h.blockSize_aligned

theorem DirBase.slotOk_free {k : Nat} (size : Nat) (hk : k <= numBlocks m dir)
    (hhole : fileBlock m dir k = 0) :
    SlotOk m dir size (k, Ext2.freeBlock m.geo.blockSize, 0) := by
  rcases h.freeBlock with ⟨hrecords, hino, _⟩
  refine ⟨hk, ?_, ⟨[], [], hrecords⟩, Or.inr ⟨hhole, rfl, rfl⟩⟩
  unfold hasRoom
  rw [beq_iff_eq.mpr hino, Bool.true_or]

end

theorem findSlot_ok (h : DirOk m dir) (hformed : DirFormed m dir) (size : Nat)
    {n k : Nat} (hn : k + n = numBlocks m dir) :
    SlotOk m dir size (findSlot m dir size n k) := by
  induction n generalizing k with
  | zero => exact h.slotOk_free size (by omega) (h.tail k (by omega))
  | succ n ih =>
    unfold findSlot
    split
    case isTrue hhole => exact h.slotOk_free size (by omega) hhole
    case isFalse hhole =>
      rcases hformed k (by omega) hhole with ⟨offs, hrecords⟩
      simp only [hrecords.offsets_eq]
      cases hfind : offs.find?
        (hasRoom size (m.block (fileBlock m dir k))) with
      | none => exact ih (by omega)
      | some off =>
        rcases List.find?_eq_some_iff_append.mp hfind with
          ⟨hroom, xs, ys, hsplit, _⟩
        refine ⟨by simp only; omega, hroom, ⟨xs, ys, ?_⟩,
          Or.inl ⟨by simp only; omega, hhole, rfl⟩⟩
        rw [append_assoc]
        rw [hsplit] at hrecords
        exact hrecords

/-- One block has got new contents, and the directory reaches to its end. -/
structure Added (m : Mount) (dir : Inode) (k : Nat) (b : Buffer) (m' : Mount)
    (dir' : Inode) : Prop where
  replaced : Replaced m dir m' dir' k b
  blocks : numBlocks m' dir' = max (numBlocks m dir) (k + 1)
  type : dir'.type = dir.type

/-- The inode is stored if the directory has to grow to the end of the block. -/
theorem growDir_calm (h : DirBase m dir) {k : Nat} (hk : k < numBlocks m dir) :
    exists dir' m', growDir m dir
        ((k * m.geo.blockSize + m.geo.blockSize) % 2 ^ 32) = (dir', m') ∧
      DirBase m' dir' ∧ m'.geo = m.geo ∧ (forall j, SameAt m dir m' dir' j) ∧
      numBlocks m' dir' = numBlocks m dir ∧ dir'.type = dir.type := by
  have hwidth := h.width
  have hlt := (h.lt_numBlocks k).mp hk
  have hwrap : (k * m.geo.blockSize + m.geo.blockSize) % 2 ^ 32 <= dir.size ∨
      (k * m.geo.blockSize + m.geo.blockSize) % 2 ^ 32 =
        k * m.geo.blockSize + m.geo.blockSize := by omega
  have hmod := Nat.mod_lt (k * m.geo.blockSize + m.geo.blockSize)
    (Nat.two_pow_pos 32)
  generalize (k * m.geo.blockSize + m.geo.blockSize) % 2 ^ 32 = size
    at hwrap hmod ⊢
  unfold growDir
  by_cases hgrow : size > dir.size
  · rcases h.setSize hmod with ⟨hbase, hgeo, hsame⟩
    rw [if_pos hgrow]
    simp only [ext2WriteInode_calm h.calm]
    refine ⟨_, _, rfl, hbase, hgeo, hsame, ?_, rfl⟩
    have hsize : (dir.setSize size).size = size := rfl
    have hnot : ¬ k + 1 < numBlocks m dir := by
      rw [h.lt_numBlocks, Nat.add_mul]
      omega
    rw [hbase.numBlocks_of_size (k := k) (by rw [hgeo]; omega)]
    omega
  · rw [if_neg hgrow]
    exact ⟨dir, m, rfl, h, rfl, fun _ => ⟨rfl, fun _ _ _ => rfl⟩, rfl, rfl⟩

theorem addBlock_calm (h : DirOk m dir) (ino : Nat) (type : FileType) :
    (exists m', addBlock m dir name ino type =
        (.error .enospc, dir, m') ∧ Change ∅ ∅ ∅ ∅ m m') ∨
    exists dir' m', addBlock m dir name ino type =
        (.ok (), dir', m') ∧
      Added m dir (numBlocks m dir)
        (addAt (freeBlock m.geo.blockSize) 0 ino name type) m' dir' := by
  have hhole := h.tail _ (Nat.le_refl _)
  unfold addBlock
  rcases ext2AllocBlock_calm h.volume h.small h.calm h.file hhole with
    ⟨phys, dir1, m1, hcall, ⟨hzero, hsame, hchange⟩ | ⟨hext, _⟩⟩
  · left
    simp only [hcall, if_pos hzero, hsame]
    exact ⟨m1, rfl, hchange⟩
  · right
    have hgeo := hext.change.geo
    have hge := h.blockSize_ge
    have hreach := hext.reach
    rcases hext.fields with ⟨data, hfields⟩
    have hbase := h.toDirBase.grown hext.toGrown
    have hfill : fillEntry (putU16 zeros 4 m1.geo.blockSize) 0 ino name type =
        addAt (freeBlock m.geo.blockSize) 0 ino name type := by
      rw [addAt_free ino name type h.freeBlock.right.left, hgeo]
      rfl
    have hreplaced := h.replaced_extended hext
      (addAt (freeBlock m.geo.blockSize) 0 ino name type)
    simp only [hcall, if_neg hext.nonzero, hbase.calm.write, hfill]
    generalize writeTo m1 phys _ = m2 at hreplaced ⊢
    generalize hsize : (numBlocks m dir + 1) * m2.geo.blockSize % 2 ^ 32 = size
    have hexact : size = numBlocks m dir * m.geo.blockSize +
        m.geo.blockSize ∧ size < 2 ^ 32 := by
      have hlt := h.newSize_lt hreach
      rw [hreplaced.geo, Nat.mod_eq_of_lt hlt, Nat.add_mul] at hsize
      rw [Nat.add_mul] at hlt
      omega
    rcases hreplaced.base.setSize hexact.right with ⟨hbase', hgeo', hsame⟩
    simp only [ext2WriteInode_calm hreplaced.base.calm]
    refine ⟨_, _, rfl, hreplaced.same hbase' hgeo' hsame, ?_, ?_⟩
    · rw [hbase'.numBlocks_of_size (k := numBlocks m dir)
        (by rw [hgeo', hreplaced.geo]; exact hexact.left)]
      omega
    · rw [hfields]
      rfl

theorem added_of_found {m1 : Mount} {dir1 : Inode} {k : Nat} {b : Buffer}
    (hk : k < numBlocks m dir)
    (hreplaced : Replaced m dir m1 dir1 k b)
    (hblocks : numBlocks m1 dir1 = numBlocks m dir)
    (htype : dir1.type = dir.type) (b' : Buffer) :
    exists dir' m', growDir (writeTo m1 (fileBlock m1 dir1 k) b') dir1
        ((k * m1.geo.blockSize + m1.geo.blockSize) % 2 ^ 32) = (dir', m') ∧
      Added m dir k b' m' dir' := by
  have hwrite := hreplaced.trans
    (hreplaced.base.replaced_write hreplaced.nonzero b')
  have hgeo : (writeTo m1 (fileBlock m1 dir1 k) b').geo = m1.geo := rfl
  have hblocks' : numBlocks (writeTo m1 (fileBlock m1 dir1 k) b') dir1 =
      numBlocks m dir := hblocks
  rw [← hgeo]
  generalize writeTo m1 (fileBlock m1 dir1 k) b' = m2 at hwrite hblocks' ⊢
  rcases growDir_calm hwrite.base (by rw [hblocks']; exact hk) with
    ⟨dir', m', hgrow, hbase, hgeo', hsame, hcount, hsametype⟩
  refine ⟨dir', m', hgrow, hwrite.same hbase hgeo' hsame, ?_,
    hsametype.trans htype⟩
  omega

/-- The entry goes to the first slot, or there is no block left for it. -/
theorem ext2AddEntryLoop_calm (h : DirOk m dir) (hformed : DirFormed m dir)
    (ino : Nat) (type : FileType) {n k : Nat}
    (hn : k + n = numBlocks m dir) {slot : Nat × Buffer × Nat}
    (hslot : slot = findSlot m dir (entrySize name.length) n k) :
    (exists m', ext2AddEntryLoop name ino type n k dir m =
        some (.error .enospc, dir, m') ∧
      fileBlock m dir slot.1 = 0 ∧ Change ∅ ∅ ∅ ∅ m m') ∨
    exists dir' m', ext2AddEntryLoop name ino type n k dir m =
        some (.ok (), dir', m') ∧
      Added m dir slot.1 (addAt slot.2.1 slot.2.2 ino name type) m' dir' := by
  induction n generalizing k with
  | zero =>
    have hk : k = numBlocks m dir := hn
    rw [hslot, hk]
    rcases addBlock_calm h ino type with
      ⟨m', hcall, hchange⟩ | ⟨dir', m', hcall, hadded⟩
    · exact Or.inl ⟨m', congrArg some hcall, h.tail _ (Nat.le_refl _), hchange⟩
    · exact Or.inr ⟨dir', m', congrArg some hcall, hadded⟩
  | succ n ih =>
    unfold ext2AddEntryLoop entryBlock
    unfold findSlot at hslot
    rw [h.getBlock (by omega)]
    by_cases hhole : fileBlock m dir k = 0
    · rw [if_pos hhole] at hslot
      simp only [if_pos hhole]
      rcases ext2AllocBlock_calm h.volume h.small h.calm h.file hhole with
        ⟨phys, dir1, m1, hcall, ⟨hzero, hsame, hchange⟩ | ⟨hext, _⟩⟩
      · left
        simp only [hcall, if_pos hzero, hsame]
        rw [hslot]
        exact ⟨m1, rfl, hhole, hchange⟩
      · right
        have hgeo := hext.change.geo
        rcases hext.fields with ⟨data, hfields⟩
        have hbase1 := h.toDirBase.grown hext.toGrown
        have hself : fileBlock m1 dir1 k ≠ 0 := by
          rw [hext.self]
          exact hext.nonzero
        have hblock := hbase1.fileBlock_write hself
          (freeBlock m.geo.blockSize) k
        have hreplaced := h.replaced_extended hext
          (freeBlock m.geo.blockSize)
        rcases scanBlock_find ⟨_, h.freeBlock.left⟩
          (hasRoom (entrySize name.length)) with ⟨found, hscan, hfind⟩
        rw [hext.self] at hblock
        have hfree : putU16 zeros 4 m1.geo.blockSize =
            freeBlock m.geo.blockSize := by
          rw [hgeo]
          rfl
        simp only [hcall, if_neg hext.nonzero, hbase1.calm.write, hfree]
        have hgeo2 : (writeTo m1 phys (freeBlock m.geo.blockSize)).geo =
          m.geo := hgeo
        have hsize : numBlocks (writeTo m1 phys
            (freeBlock m.geo.blockSize)) dir1 = numBlocks m dir := by
          unfold numBlocks
          rw [hgeo2, hfields]
        generalize writeTo m1 phys _ = m2 at hblock hreplaced hgeo2 hsize ⊢
        have hroom := (h.slotOk_free (entrySize name.length)
          (show k <= numBlocks m dir by omega) hhole).room
        rw [h.freeBlock.left.offsets_eq, List.find?_cons_of_pos hroom] at hfind
        simp only [hgeo2, hscan]
        cases found with
        | none => cases hfind
        | some e =>
          have hzero : e.2 = 0 := (Option.some.inj hfind).symm
          rcases added_of_found (by omega) hreplaced hsize
            (by rw [hfields]) (addAt (freeBlock m.geo.blockSize) e.2 ino
              name type) with ⟨dir', m', hgrow, hadded⟩
          have hgeo3 : (writeTo m2 phys (addAt (freeBlock m.geo.blockSize)
            e.2 ino name type)).geo = m.geo := hgeo2
          rw [hblock, hgeo2] at hgrow
          refine ⟨dir', m', ?_, ?_⟩
          · simp only [hreplaced.base.calm.write, hgeo3, hgrow]
          · rw [hslot, ← hzero]
            exact hadded
    · simp only [if_neg hhole, h.read hhole]
      rw [if_neg hhole] at hslot
      rcases scanBlock_find (hformed k (by omega) hhole)
        (hasRoom (entrySize name.length)) with ⟨found, hscan, hfind⟩
      simp only [hfind] at hslot
      simp only [hscan]
      cases found with
      | none => exact ih (by omega) hslot
      | some e =>
        right
        simp only [h.calm.write]
        rcases added_of_found (by omega)
          (Replaced.refl h.toDirBase hhole) rfl rfl
          (addAt (m.block (fileBlock m dir k)) e.2 ino name type) with
          ⟨dir', m', hgrow, hadded⟩
        refine ⟨dir', m', ?_, ?_⟩
        · exact congrArg (fun r => some (Except.ok (), r)) hgrow
        · rw [hslot]
          exact hadded

theorem checkEntry_ok (htype : dir.type = .directory) (hpos : 1 <= name.length)
    (hlen : name.length <= 255) :
    checkEntry dir name = .ok () := by
  unfold checkEntry
  rw [if_neg (fun hne => hne htype), if_neg, if_neg (by omega)]
  intro hnil
  rw [hnil] at hpos
  cases hpos

theorem ext2AddEntry_calm (h : DirOk m dir) (hformed : DirFormed m dir)
    (htype : dir.type = .directory) (hpos : 1 <= name.length)
    (hlen : name.length <= 255) (ino : Nat) (type : FileType) :
    (exists m', ext2AddEntry m dir name ino type =
        some (.error .enospc, dir, m') ∧
      fileBlock m dir (slotFor m dir name).1 = 0 ∧ Change ∅ ∅ ∅ ∅ m m') ∨
    exists dir' m', ext2AddEntry m dir name ino type =
        some (.ok (), dir', m') ∧
      Added m dir (slotFor m dir name).1
        (addAt (slotFor m dir name).2.1 (slotFor m dir name).2.2 ino name type)
        m' dir' := by
  unfold ext2AddEntry
  simp only [checkEntry_ok htype hpos hlen, h.calm.kmalloc]
  exact ext2AddEntryLoop_calm h hformed ino type (Nat.zero_add _) rfl

section

variable (h : DirBase m dir) (hformed : DirFormed m dir)
  (htype : dir.type = FileType.directory) (hpos : 1 <= name.length)
include h hformed htype hpos

theorem ext2RemoveEntry_write (hlen : name.length <= 255) :
    (ext2RemoveEntry m dir name = some (.error .enoent, m) ∧
      (dirEntries m dir).lookup name = none) ∨
    exists j ino b, ext2RemoveEntry m dir name =
        some (.ok (), writeTo m (fileBlock m dir j) b) ∧
      j < numBlocks m dir ∧ fileBlock m dir j ≠ 0 ∧
      (dirEntries m dir).lookup name = some ino ∧
      Removes m.geo.blockSize (m.block (fileBlock m dir j)) name ino b ∧
      (HasSpace m.geo.blockSize (m.block (fileBlock m dir j)) name.length ->
        HasSpace m.geo.blockSize b name.length) := by
  unfold ext2RemoveEntry dirEntries
  simp only [checkEntry_ok htype hpos hlen, h.calm.kmalloc]
  rw [range_eq_range']
  exact ext2RemoveEntryLoop_write h hformed (Nat.zero_add _)

theorem ext2RemoveEntry_calm (hlen : name.length <= 255) :
    (ext2RemoveEntry m dir name = some (.error .enoent, m) ∧
      (dirEntries m dir).lookup name = none) ∨
    exists j ino b m', ext2RemoveEntry m dir name = some (.ok (), m') ∧
      j < numBlocks m dir ∧ fileBlock m dir j ≠ 0 ∧
      Removes m.geo.blockSize (m.block (fileBlock m dir j)) name ino b ∧
      Replaced m dir m' dir j b := by
  rcases ext2RemoveEntry_write h hformed htype hpos hlen with
    hnone | ⟨j, ino, b, hcall, hj, hne, _, hremoves, _⟩
  · exact Or.inl hnone
  · exact Or.inr ⟨j, ino, b, _, hcall, hj, hne, hremoves,
      h.replaced_write hne b⟩

end

end Calls

end Ext2
end Horizon
