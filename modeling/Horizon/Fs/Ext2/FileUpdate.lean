import Horizon.Fs.Ext2.FileWrite

/-!
# A write as an update of bytes

On a volume of at most 4 GiB a write that returns its size has replaced the
bytes of its range and nothing else.  On a larger volume it may write to a block
of another file.
-/

namespace Horizon
namespace Ext2

open Bytes

/-- The block sizes for which all products of `ext2_get_block` are exact. -/
def CommonBlockSize (geo : Geometry) : Prop :=
  geo.blockSize = 1024 ∨ geo.blockSize = 2048 ∨ geo.blockSize = 4096

theorem CommonBlockSize.pointers_le {geo : Geometry} (h : CommonBlockSize geo) :
    geo.pointers <= 1024 := by
  unfold CommonBlockSize at h
  unfold Geometry.pointers
  omega

theorem CommonBlockSize.exactMap {geo : Geometry} (h : CommonBlockSize geo)
    (k : Nat) : ExactMap geo.pointers k := by
  have hsquare := Nat.mul_le_mul h.pointers_le h.pointers_le
  have hcube := Nat.mul_le_mul h.pointers_le hsquare
  right
  constructor
  · omega
  · right
    omega

section Apart

variable {blocks inodes used usedInodes : Set Nat} {m m' : Mount}
  {inode inode' : Inode} (hchange : Change blocks inodes used usedInodes m m')
  (hfile : FileOk m inode) (hdata : inode'.data = inode.data)
  (hapart : forall b, b ∈ Own m inode -> b ∉ blocks)

include hchange hfile hapart

theorem sameBlock_of_change {k : Nat} (hk : fileBlock m inode k ≠ 0) :
    SameBlock m m' (fileBlock m inode k) :=
  hchange.block _ (hfile.fileBlock_data hk).right
    (hapart _ (fileBlock_own hk))

include hdata

theorem blockAt_of_change {p : Place} (hp : LegalPlace m p) :
    blockAt m' inode' p = blockAt m inode p := by
  have hsame : blockAt m' inode' p = blockAt m' inode p := by
    unfold blockAt
    rw [hdata]
  rw [hsame]
  apply blockAt_change hchange hfile _ hp
  intro q hq _ hne
  exact hapart _ ⟨hne, q, hq, rfl⟩

theorem fileBlock_of_change (k : Nat) :
    fileBlock m' inode' k = fileBlock m inode k :=
  fileBlock_congr hchange.geo
    (fun _ hp => blockAt_of_change hchange hfile hdata hapart hp) k

end Apart

def fullMount (groups : Nat) : Mount where
  geo := {
    blockSize := 1024
    blocksPerGroup := 8192
    inodesPerGroup := 8
    descPerBlock := 32
    groupsCount := groups
    firstDataBlock := 1
    inodeSize := 128 }
  readOnly := false
  dev _ := 255
  groups g := {
    blockBitmap := 1000 + 10 * g
    inodeBitmap := 1001 + 10 * g
    inodeTable := 1002 + 10 * g
    freeBlocksCount := 0
    freeInodesCount := 0
    rest := zeros }
  freeBlocks := 0
  freeInodes := 0
  es := zeros
  io := []
  mem := []

section Full

variable {groups : Nat}

theorem fullMount_tableBlocks : (fullMount groups).geo.tableBlocks = 1 := by
  show (8 * 128 + 1024 - 1) / 1024 = 1
  decide

theorem fullMount_allocated {b : Nat} (hpos : 1 <= b)
    (hlt : b < 1 + groups * 8192) : Allocated (fullMount groups) b := by
  refine ⟨hpos, ?_, ?_⟩
  · show (b - 1) / 8192 < groups
    omega
  · have hbit : forall i, i < 8 -> (255 &&& (1 <<< i) != 0) = true := by decide
    exact hbit _ (Nat.mod_lt _ (by decide))

theorem fullMount_metaBlock {b : Nat} (hgroups : groups <= 600)
    (hb : MetaBlock (fullMount groups) b) : 1 <= b ∧ b < 22 := by
  rcases hb with heq | ⟨hfrom, hto⟩
  · have hone : b = 1024 / 1024 := heq
    omega
  · have hto' : b < 1 + 1 + (groups + 32 - 1) / 32 := hto
    omega

theorem fullMount_bitmap (groups g : Nat) (r : Resource) :
    1000 + 10 * g <= ((fullMount groups).groups g).bitmap r ∧
      ((fullMount groups).groups g).bitmap r <= 1001 + 10 * g := by
  cases r with
  | block => exact ⟨Nat.le_refl _, Nat.add_le_add_right (by decide) _⟩
  | inode => exact ⟨Nat.add_le_add_right (by decide) _, Nat.le_refl _⟩

theorem fullMount_inTable {b : Nat} (hb : InTable (fullMount groups) b) :
    exists g, g < groups ∧ b = 1002 + 10 * g := by
  rcases hb with ⟨g, hg, hfrom, hto⟩
  refine ⟨g, hg, ?_⟩
  have hfrom' : 1002 + 10 * g <= b := hfrom
  rw [fullMount_tableBlocks] at hto
  have hto' : b < 1002 + 10 * g + 1 := hto
  omega

theorem fullMount_systemBlock {b : Nat} (hgroups : groups <= 600)
    (hb : SystemBlock (fullMount groups) b) :
    (1 <= b ∧ b < 22) ∨ (1000 <= b ∧ b < 1000 + 10 * groups) := by
  rcases hb with hmeta | ⟨g, r, hg, heq⟩ | hin
  · left
    exact fullMount_metaBlock hgroups hmeta
  · right
    have hg' : g < groups := hg
    have hbitmap := fullMount_bitmap groups g r
    omega
  · right
    rcases fullMount_inTable hin with ⟨g, hg, heq⟩
    omega

theorem fullMount_volume (hpos : 1 <= groups) (hgroups : groups <= 600) :
    Volume (fullMount groups) := by
  constructor
  · refine ⟨⟨0, rfl⟩, ?_, ?_, ?_⟩
    · intro r
      cases r <;> exact Nat.le_of_ble_eq_true rfl
    · intro g g' r r' _ _ heq
      have hg := fullMount_bitmap groups g r
      have hg' := fullMount_bitmap groups g' r'
      obtain rfl : g = g' := by omega
      refine ⟨rfl, ?_⟩
      cases r <;> cases r' <;> first | rfl | cases Nat.add_right_cancel heq
    · intro g r _ hmeta
      have hfrom := fullMount_bitmap groups g r
      have hto := fullMount_metaBlock hgroups hmeta
      omega
  · refine ⟨⟨0, by decide, rfl⟩, ⟨8, rfl⟩, ?_, ?_, ?_, ?_, ?_⟩
    · show 0 < 8
      decide
    · show groups * 8 < 2 ^ 32
      omega
    · show 8 * 128 < 2 ^ 32
      decide
    · intro g hg
      have hg' : g < groups := hg
      rw [fullMount_tableBlocks]
      show 1002 + 10 * g + 1 <= 2 ^ 32
      omega
    · intro g g' _ _ hne
      rw [fullMount_tableBlocks]
      show 1002 + 10 * g + 1 <= 1002 + 10 * g' ∨
        1002 + 10 * g' + 1 <= 1002 + 10 * g
      omega
  · exact Nat.le_refl 128
  · show 0 < 8192
    decide
  · show groups * 8192 + 1 < 2 ^ 32
    omega
  · intro hzero
    cases hzero
  · intro b hb
    rcases fullMount_systemBlock hgroups hb with hlow | hhigh
    · exact fullMount_allocated hlow.left (by omega)
    · exact fullMount_allocated (by omega) (by omega)
  · intro b hin hmeta
    have hto := fullMount_metaBlock hgroups hmeta
    rcases fullMount_inTable hin with ⟨g, _, heq⟩
    omega
  · intro b g r hin _ heq
    rcases fullMount_inTable hin with ⟨g', _, heq'⟩
    have hbitmap := fullMount_bitmap groups g r
    omega

end Full

def oneByteFile (block : Nat) : File where
  flags := 2
  position := 0
  inode := ((blankInode 8).setData 0 block).setSize 1

theorem oneByteFile_blockAt (m : Mount) (block : Nat) {p : Place}
    (hp : LegalPlace m p) (hne : blockAt m (oneByteFile block).inode p ≠ 0) :
    p = (0, []) ∧ blockAt m (oneByteFile block).inode p = block := by
  rcases p with ⟨r, path⟩
  by_cases hr : r = 0
  · subst hr
    have hnil : path = [] := List.length_eq_zero_iff.mp
      (Nat.le_zero.mp hp.length)
    subst hnil
    exact ⟨rfl, rfl⟩
  · -- the other pointers are null, and a path below a null pointer stays null
    exfalso
    apply hne
    have hroot : (oneByteFile block).inode.data r = 0 :=
      Function.update_of_ne (fun heq => hr (Fin.ext heq)) _ _
    show List.foldl (entryAt m) ((oneByteFile block).inode.data r) path = 0
    rw [hroot]
    clear hp hne
    induction path with
    | nil => rfl
    | cons i path ih => exact ih

theorem oneByteFile_ok {groups block : Nat} (hgroups : groups <= 600)
    (hfrom : 22 <= block) (hlow : block < 1000 ∨ 1000 + 10 * groups <= block)
    (hto : block < 1 + groups * 8192) :
    FileOk (fullMount groups) (oneByteFile block).inode := by
  constructor
  · constructor
    · exact entryAt_zero _
    · intro p q hp hq hne heq
      have hp' := oneByteFile_blockAt _ block hp hne
      have hq' := oneByteFile_blockAt _ block hq
        (fun hzero => hne (heq.trans hzero))
      rw [hp'.left, hq'.left]
  · intro p hp hne
    rw [(oneByteFile_blockAt _ block hp hne).right]
    refine ⟨fullMount_allocated (by omega) hto, ?_⟩
    intro hsystem
    have hrange := fullMount_systemBlock hgroups hsystem
    omega

/-- `ext2_alloc_block` changes the map at one logical block. -/
theorem alloc_block_extends_map {inode inode' : Inode} {k p : Nat}
    (h : Volume m) (hsmall : Small m) (hcalm : Calm m)
    (hsize : m.geo.blockSize = 1024 ∨ m.geo.blockSize = 2048 ∨
      m.geo.blockSize = 4096) (hfile : FileOk m inode)
    (hhole : (ext2GetBlock m inode k).1 = 0)
    (hcall : ext2AllocBlock m inode k = (p, inode', m')) (hp : p ≠ 0) :
    ¬ Allocated m p ∧ Allocated m' p ∧ (ext2GetBlock m' inode' k).1 = p ∧
    (forall c, c ≠ k ->
      (ext2GetBlock m' inode' c).1 = (ext2GetBlock m inode c).1) ∧
    FileOk m' inode' ∧
    forall b, ¬ MetaBlock m b ->
      (forall g r, g < m.geo.groupsCount -> b ≠ (m.groups g).bitmap r) ->
      b = 0 ∨ b ≠ inode'.data 12 -> SameBlock m m' b := by
  have hexact := @CommonBlockSize.exactMap m.geo hsize
  have hget := fun c => hfile.getBlock h hsmall hcalm (hexact c)
  rw [hget] at hhole
  rcases ext2AllocBlock_calm h hsmall hcalm hfile hhole with
    ⟨phys, inode1, m1, hcall1, hres⟩
  rw [hcall] at hcall1
  cases hcall1
  rcases hres with ⟨hzero, _⟩ | ⟨hext, hchange, htables⟩
  · exact absurd hzero hp
  have hget' : forall c, ext2GetBlock m' inode' c =
      (fileBlock m' inode' c, m') := by
    intro c
    apply hext.file.getBlock (hchange.volume_of_free h)
      (hchange.small.mpr hsmall) (hcalm.frame hchange.toFrame)
    rw [hchange.geo]
    exact hexact c
  have hused : DataBlock m' p := by
    rw [← hext.self]
    apply hext.file.fileBlock_data
    rw [hext.self]
    exact hp
  refine ⟨hext.fresh, hused.left, ?_, ?_, hext.file, ?_⟩
  · rw [hget']
    exact hext.self
  · intro c hc
    rw [hget', hget]
    exact hext.other c hc
  · intro b hmeta hbitmap hb
    by_cases htable : InTable m b
    · exact htables b htable
    · apply hchange.block
      · rintro (hsys | ⟨g, r, hg, heq⟩ | hin)
        · exact hmeta hsys
        · exact hbitmap g r hg heq
        · exact htable hin
      · rintro ⟨heq, hne⟩
        exact hb.elim hne (fun hother => hother heq)

/-- Block 30 is freed, and becomes the second block of a file. -/
theorem alloc_block_extends_map_freed :
    Allocated (ext2AllocBlock (ext2FreeBlock (fullMount 1) 30).2
      (oneByteFile 40).inode 1).2.2 30 := by
  have h : Volume (fullMount 1) := fullMount_volume (by decide) (by decide)
  have hsmall : Small (fullMount 1) := by
    unfold Small
    decide
  have hcalm : Calm (fullMount 1) := ⟨rfl, rfl⟩
  have hfile : FileOk (fullMount 1) (oneByteFile 40).inode :=
    oneByteFile_ok (by decide) (by decide) (by decide) (by decide)
  rcases ext2FreeBlock_calm h hsmall hcalm
    (fullMount_allocated (b := 30) (by decide) (by decide)) with ⟨_, hchange⟩
  have hspare : forall b, b = 30 -> ¬ SystemBlock (fullMount 1) b := by
    intro b hb hsystem
    have hrange := fullMount_systemBlock (by decide) hsystem
    omega
  have hphys : (ext2AllocBlock (ext2FreeBlock (fullMount 1) 30).2
      (oneByteFile 40).inode 1).1 = 30 := by decide +kernel
  have hhole : (ext2GetBlock (ext2FreeBlock (fullMount 1) 30).2
      (oneByteFile 40).inode 1).1 = 0 := by decide +kernel
  generalize (ext2FreeBlock (fullMount 1) 30).2 = m at hchange hphys hhole ⊢
  rcases hcall : ext2AllocBlock m (oneByteFile 40).inode 1 with
    ⟨p, inode', m'⟩
  rw [hcall] at hphys
  have hp : p = 30 := hphys
  subst hp
  refine (alloc_block_extends_map (hchange.volume h ?_)
    (hchange.small.mpr hsmall) (hcalm.frame hchange.toFrame)
    (Or.inl (by rw [hchange.geo]; rfl)) ?_ hhole hcall (by decide)).right.left
  · intro b hb hsystem
    rcases hsystem with hsystem | ⟨hzero, _⟩
    · exact absurd hsystem (hspare b hb)
    · cases hzero
  · apply hfile.congr hchange.geo
    · intro p hp
      exact blockAt_change hchange hfile (fun _ _ _ _ => Set.notMem_empty _) hp
    · intro p hp hne
      apply (hfile.data p hp hne).change hchange
      rw [(oneByteFile_blockAt _ 40 hp hne).right]
      decide

end Ext2
end Horizon
