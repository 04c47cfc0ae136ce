import Horizon.Fs.Ext2.Volume

/-!
# Accounting of free inodes

The counterpart of the block accounts for `ext2_new_inode` and
`ext2_free_inode`: bitmaps, group descriptors and superblock agree in every
run, whatever device calls fail, and a failed allocation has taken nothing
unless it failed in `ext2_write_super`.
-/

namespace Horizon
namespace Ext2

open Bytes
open Bitmaps

/-- The tables do not overlap and the accounts of the inodes agree. -/
structure InodesFormed (m : Mount) : Prop where
  layout : Layout m
  perGroup : 0 < m.geo.inodesPerGroup
  numbers : m.geo.groupsCount * m.geo.inodesPerGroup < 2 ^ 32
  accounting : Accounting Resource.inode m

theorem InodesFormed.frame {m m' : Mount} (h : InodesFormed m)
    (hframe : Frame m m') (hacct : Accounting .inode m') :
    InodesFormed m' := by
  constructor
  · exact h.layout.frame hframe
  · rw [hframe.geo]
    exact h.perGroup
  · rw [hframe.geo]
    exact h.numbers
  · exact hacct

theorem InodesFormed.group_lt {m : Mount} {ino : Nat} (h : InodesFormed m)
    (hvalid : ValidInode m ino) : inodeGroup m ino < m.geo.groupsCount :=
  hvalid.group_lt h.numbers h.perGroup

theorem InodesFormed.number {m : Mount} {g j : Nat} (h : InodesFormed m)
    (hg : g < m.geo.groupsCount) (hj : j < m.geo.inodesPerGroup) :
    ValidInode m (g * m.geo.inodesPerGroup + j + 1) ∧
      inodeGroup m (g * m.geo.inodesPerGroup + j + 1) = g ∧
      inodeIndex m (g * m.geo.inodesPerGroup + j + 1) = j := by
  have hle := mul_add_le hg m.geo.inodesPerGroup
  have hvalid : ValidInode m (g * m.geo.inodesPerGroup + j + 1) :=
    ⟨Nat.le_add_left 1 _, by omega⟩
  exact ⟨hvalid, div_mod_unique hj (hvalid.rel_eq h.numbers)⟩

theorem InodeUsed.quiet {m m' : Mount} (h : Quiet m m') (ino : Nat) :
    InodeUsed m' ino <-> InodeUsed m ino := by
  unfold InodeUsed
  rw [h.validInode, h.inodeGroup, h.inodeIndex, h.groups, h.block]

theorem InodeUsed.bitChange {m m' : Mount} {g j : Nat} {v : Bool}
    {f16 f32 : Nat -> Nat} (h : InodesFormed m)
    (hchange : BitChange .inode g j v f16 f32 m m')
    (hg : g < m.geo.groupsCount) {ino : Nat} (hvalid : ValidInode m ino) :
    InodeUsed m' ino <->
      (if inodeGroup m ino = g ∧ inodeIndex m ino = j then v
        else bitTest (m.block (m.groups (inodeGroup m ino)).inodeBitmap)
          (inodeIndex m ino)) = true := by
  have hlt : inodeIndex m ino < m.geo.perGroup .inode :=
    Nat.mod_lt _ h.perGroup
  have hbit := hchange.bitTest_eq h.layout hg (h.group_lt hvalid) hlt
  simp only [and_true] at hbit
  unfold InodeUsed
  rw [hchange.validInode, hchange.inodeGroup, hchange.inodeIndex,
    and_iff_right hvalid]
  exact iff_of_eq (congrArg (fun x => x = true) hbit)

/-!
## One call
-/

/--
How `ext2_new_inode` ends: without a change, or after reading and writing one
bitmap in which it took a clear bit.
-/
theorem ext2NewInode_effect {m : Mount} {blockGroup : Nat} (h : Layout m)
    (hlow : LowTables m) (hgroup : blockGroup < m.geo.groupsCount) :
    (Quiet m (ext2NewInode m blockGroup).2 ∧
      (ext2NewInode m blockGroup).1 = 0) ∨
    exists g j m1,
      g < m.geo.groupsCount ∧ j < m.geo.inodesPerGroup ∧
      bitTest (m.block (m.groups g).inodeBitmap) j = false ∧
      BitChange .inode g j true dec16 dec32 m
        (ext2NewInode m blockGroup).2 ∧
      (ext2NewInode m blockGroup).1 =
        (if (ext2WriteSuper m1).1 then
          (g * m.geo.inodesPerGroup + j + 1) % 2 ^ 32
        else 0) ∧
      m1.geo = m.geo ∧ m.io.getD 0 false = false ∧
      m.io.getD 1 false = false ∧ m1.io = m.io.tail.tail := by
  have hg := searchGroup_lt hgroup
  unfold ext2NewInode
  by_cases hzero : m.freeInodes = 0
  · rw [if_pos hzero]
    exact Or.inl ⟨Quiet.refl m, rfl⟩
  rw [if_neg hzero]
  simp only
  generalize (if (m.groups blockGroup).freeInodesCount = 0 then _
    else blockGroup) = group at hg ⊢
  by_cases hnone : (m.groups group).freeInodesCount = 0
  · rw [if_pos hnone]
    exact Or.inl ⟨Quiet.refl m, rfl⟩
  rw [if_neg hnone]
  rcases fetchBitmap_cases .inode h hlow hg with
    ⟨m1, hmem, hquiet⟩ | ⟨m1, m2, hmem, hread, hquiet⟩ |
    ⟨m1, m2, hmem, hread, hquiet, hfirst, hio2⟩
  · simp only [hmem]
    exact Or.inl ⟨hquiet, trivial⟩
  · simp only [GroupDesc.bitmap] at hread
    simp only [hmem, hread]
    exact Or.inl ⟨hquiet, trivial⟩
  simp only [GroupDesc.bitmap] at hread
  simp only [hmem, hread]
  cases hfind : firstClear (m2.block (m2.groups group).inodeBitmap)
      m2.geo.inodesPerGroup 0 with
  | none => exact Or.inl ⟨hquiet, rfl⟩
  | some j =>
    rcases firstClear_some hfind with ⟨hj, hclear⟩
    rw [hquiet.geo, Nat.zero_add] at hj
    rw [hquiet.block, hquiet.groups] at hclear
    rcases takeBit_cases .inode j h hlow hg hquiet with ⟨m3, htake, hquiet3⟩ |
      ⟨m3, ok, m4, htake, hsuper, hnext, hio3, hgeo3, hchange⟩
    · simp only [GroupDesc.bitmap] at htake
      simp only [htake]
      exact Or.inl ⟨hquiet3, trivial⟩
    · simp only [GroupDesc.bitmap] at htake
      simp only [htake]
      right
      rw [hio2] at hnext hio3
      refine ⟨group, j, m3, hg, hj, hclear, ?_, ?_, hgeo3, hfirst, ?_, hio3⟩
      · cases ok <;> exact hchange
      · rw [hsuper]
        cases ok with
        | true => simp only [hchange.geo, if_true]
        | false => rfl
      · rw [← getD_tail, getD_first]
        exact hnext

/--
Once the bitmap is read and written, the device calls of `ext2_write_super`
succeed.
-/
def NewInodeOk (m : Mount) : Prop :=
  m.io.getD 0 false = true ∨ m.io.getD 1 false = true ∨
    forall k, k < 1 + m.geo.gdescBlocks -> m.io.getD (2 + k) false = false

instance (m : Mount) : Decidable (NewInodeOk m) :=
  inferInstanceAs (Decidable (_ ∨ _ ∨ _))

/-- What a caller may rely on after `ext2_new_inode` returned `ino`. -/
structure NewInodeResult (m : Mount) (ino : Nat) (m' : Mount) : Prop where
  fresh : ino ≠ 0 -> ¬ InodeUsed m ino ∧ InodeUsed m' ino
  others : ino ≠ 0 -> forall i, i ≠ ino -> (InodeUsed m' i <-> InodeUsed m i)
  failed : NewInodeOk m -> ino = 0 -> forall i, InodeUsed m' i <-> InodeUsed m i

theorem ext2NewInode_result {m : Mount} {blockGroup : Nat} (h : InodesFormed m)
    (hlow : LowTables m)
    (hgroup : blockGroup < m.geo.groupsCount) :
    Frame m (ext2NewInode m blockGroup).2 ∧
      InodesFormed (ext2NewInode m blockGroup).2 ∧
      NewInodeResult m (ext2NewInode m blockGroup).1
        (ext2NewInode m blockGroup).2 := by
  rcases ext2NewInode_effect h.layout hlow hgroup with ⟨hquiet, hzero⟩ |
    ⟨g, j, m1, hg, hj, hclear, hchange, hres, hgeo, hread, hwrite, hio⟩
  · refine ⟨hquiet.toFrame, ?_, ?_, ?_, ?_⟩
    · exact h.frame hquiet.toFrame (h.accounting.quiet hquiet)
    · exact fun hne => absurd hzero hne
    · exact fun hne => absurd hzero hne
    · exact fun _ _ i => InodeUsed.quiet hquiet i
  have hnumbers := h.numbers
  rcases h.number hg hj with ⟨hvalid, hnumber⟩
  have hle := hvalid.right
  rw [Nat.mod_eq_of_lt (by omega)] at hres
  have hok : (ext2NewInode m blockGroup).1 ≠ 0 ->
      (ext2NewInode m blockGroup).1 = g * m.geo.inodesPerGroup + j + 1 := by
    intro hne
    rw [hres] at hne ⊢
    by_cases hsuper : (ext2WriteSuper m1).1 = true
    · rw [if_pos hsuper]
    · rw [if_neg hsuper] at hne
      exact absurd rfl hne
  refine ⟨hchange.toFrame, ?_, ?_, ?_, ?_⟩
  · exact h.frame hchange.toFrame
      (hchange.accounting_take h.layout hg hj hclear h.accounting)
  · intro hne
    rw [hok hne, InodeUsed.bitChange h hchange hg hvalid, if_pos hnumber]
    refine ⟨?_, rfl⟩
    rintro ⟨_, hused⟩
    rw [hnumber.left, hnumber.right, hclear] at hused
    cases hused
  · intro hne i hi
    rw [hok hne] at hi
    by_cases hvalidi : ValidInode m i
    · rw [InodeUsed.bitChange h hchange hg hvalidi, if_neg]
      · exact (and_iff_right hvalidi).symm
      · -- the bit belongs to one number only
        rintro ⟨hgi, hji⟩
        apply hi
        have hdiv := Nat.div_add_mod (sub32 i 1) m.geo.inodesPerGroup
        unfold inodeGroup at hgi
        unfold inodeIndex at hji
        have hposi := hvalidi.left
        rw [hgi, hji, Nat.mul_comm, hvalidi.rel_eq hnumbers] at hdiv
        omega
    · unfold InodeUsed
      rw [hchange.validInode]
      exact iff_of_false (fun hused => hvalidi hused.left)
        (fun hused => hvalidi hused.left)
  · intro hsuper hzero
    exfalso
    have hgood := ext2WriteSuper_after hgeo hread hwrite hio hsuper
    rw [hres, if_pos hgood] at hzero
    omega

def FreeInodeOk (m : Mount) (ino : Nat) : Prop :=
  InodeUsed m ino ∧ (m.groups (inodeGroup m ino)).freeInodesCount + 1 < 2 ^ 16

instance (m : Mount) (ino : Nat) : Decidable (FreeInodeOk m ino) :=
  inferInstanceAs (Decidable (_ ∧ _))

theorem ext2FreeInode_effect {m : Mount} (h : InodesFormed m)
    (hlow : LowTables m) {ino : Nat} (hok : FreeInodeOk m ino) :
    Frame m (ext2FreeInode m ino).2 ∧ InodesFormed (ext2FreeInode m ino).2 := by
  rcases hok with ⟨⟨hvalid, hused⟩, hroom⟩
  have hg := h.group_lt hvalid
  have hj : inodeIndex m ino < m.geo.perGroup .inode :=
    Nat.mod_lt _ h.perGroup
  rcases releaseBit_effect (r := .inode) (j := inodeIndex m ino)
      h.layout hlow hg with hquiet | hchange
  · exact ⟨hquiet.toFrame, h.frame hquiet.toFrame (h.accounting.quiet hquiet)⟩
  · refine ⟨hchange.toFrame, h.frame hchange.toFrame ?_⟩
    exact hchange.accounting_release h.layout hg hj hused hroom h.numbers
      h.accounting

/-!
## Runs
-/

/-- `newInode` carries the group of the directory, `i_block_group`. -/
inductive InodeCall where
  | newInode (blockGroup : Nat)
  | freeInode (ino : Nat)

def runInodeCall (m : Mount) : InodeCall -> Mount
  | InodeCall.newInode blockGroup => (ext2NewInode m blockGroup).2
  | InodeCall.freeInode ino => (ext2FreeInode m ino).2

def runInodeCalls (m : Mount) (calls : List InodeCall) : Mount :=
  calls.foldl runInodeCall m

def InodeCallOk (m : Mount) : InodeCall -> Prop
  | InodeCall.newInode blockGroup => blockGroup < m.geo.groupsCount
  | InodeCall.freeInode ino => FreeInodeOk m ino

instance (m : Mount) (call : InodeCall) : Decidable (InodeCallOk m call) :=
  match call with
  | InodeCall.newInode _ => inferInstanceAs (Decidable (_ < _))
  | InodeCall.freeInode ino => inferInstanceAs (Decidable (FreeInodeOk m ino))

def InodeRunOk : Mount -> List InodeCall -> Prop
  | _, [] => True
  | m, call :: calls => InodeCallOk m call ∧
      InodeRunOk (runInodeCall m call) calls

instance decidableInodeRunOk :
    (m : Mount) -> (calls : List InodeCall) -> Decidable (InodeRunOk m calls)
  | _, [] => isTrue trivial
  | m, call :: calls =>
      have : Decidable (InodeRunOk (runInodeCall m call) calls) :=
        decidableInodeRunOk (runInodeCall m call) calls
      inferInstanceAs (Decidable (InodeCallOk m call ∧
        InodeRunOk (runInodeCall m call) calls))

theorem runInodeCall_effect {m : Mount} (h : InodesFormed m)
    (hlow : LowTables m) {call : InodeCall} (hok : InodeCallOk m call) :
    Frame m (runInodeCall m call) ∧ InodesFormed (runInodeCall m call) := by
  cases call with
  | newInode blockGroup =>
    rcases ext2NewInode_result h hlow hok with ⟨hframe, hformed, _⟩
    exact ⟨hframe, hformed⟩
  | freeInode ino => exact ext2FreeInode_effect h hlow hok

/--
In every run the accounts agree; a number that a further `ext2_new_inode`
returns was free and is used, and one that reports failure after
`ext2_write_super` cannot have failed has allocated nothing.
-/
theorem inode_accounting_run (m : Mount) (h : InodesFormed m)
    (hlow : LowTables m) (calls : List InodeCall) (hok : InodeRunOk m calls) :
    InodesFormed (runInodeCalls m calls) ∧
      forall blockGroup, blockGroup < m.geo.groupsCount ->
        NewInodeResult (runInodeCalls m calls)
          (ext2NewInode (runInodeCalls m calls) blockGroup).1
          (ext2NewInode (runInodeCalls m calls) blockGroup).2 := by
  induction calls generalizing m with
  | nil => exact ⟨h, fun _ hgroup => (ext2NewInode_result h hlow hgroup).2.2⟩
  | cons call calls ih =>
    rcases runInodeCall_effect h hlow hok.left with ⟨hframe, hnext⟩
    have hrest := ih (runInodeCall m call) hnext (hlow.frame hframe) hok.right
    rw [hframe.geo] at hrest
    exact hrest

theorem smallMount_inodesFormed (io : List Bool) :
    InodesFormed (smallMount io) := by
  refine ⟨(smallMount_wellFormed io).left.layout, ?_, ?_, ⟨?_, ?_, ?_, ?_⟩⟩
  · exact Nat.succ_pos 15
  · show 1 * 16 < 2 ^ 32
    decide
  · intro g _
    show 16 = clearCount (fun i => if 4 * 1024 + i = 3072 then 255 else 0) 16
    decide +kernel
  · rfl
  · intro g _
    show 16 < 2 ^ 16
    decide
  · show 16 < 2 ^ 32
    decide

/-- One inode is taken and freed again, and a bitmap then cannot be read. -/
theorem inode_accounting_run_small :
    InodesFormed (runInodeCalls
      (smallMount [false, false, false, false, false, false, false, false,
        true])
      [InodeCall.newInode 0, InodeCall.freeInode 1, InodeCall.newInode 0]) := by
  have hok : InodeRunOk
      (smallMount [false, false, false, false, false, false, false, false,
        true])
      [InodeCall.newInode 0, InodeCall.freeInode 1, InodeCall.newInode 0] := by
    decide +kernel
  exact (inode_accounting_run _ (smallMount_inodesFormed _)
    (smallMount_wellFormed _).right _ hok).left

/--
As in `ext2_new_block`, the bitmap is written before `ext2_write_super`; when
that fails the call returns zero with the inode taken.
-/
theorem failed_super_write_takes_inode :
    InodesFormed (smallMount [false, false, true]) ∧
      (ext2NewInode (smallMount [false, false, true]) 0).1 = 0 ∧
      ¬ InodeUsed (smallMount [false, false, true]) 1 ∧
      InodeUsed (ext2NewInode (smallMount [false, false, true]) 0).2 1 := by
  refine ⟨smallMount_inodesFormed _, ?_, ?_, ?_⟩
  · decide +kernel
  · decide +kernel
  · decide +kernel

end Ext2
end Horizon
