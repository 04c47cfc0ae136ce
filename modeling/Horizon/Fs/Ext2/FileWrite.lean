import Horizon.Fs.Ext2.FileMap
import Horizon.Fs.Ext2.FileRead

/-!
# What a write changes

`ext2_write` walks over the blocks of its range, filling holes with free blocks.
After a block is done, the file holds the bytes written so far and is otherwise
as before; this is the invariant of the loop.
-/

namespace Horizon
namespace Ext2

open Bytes

/-!
## Contents
-/

variable {m m' : Mount} {inode inode' : Inode} {k o size block position : Nat}
    {r : Range} {buffer : Buffer}

theorem fileByte_congr (hpos : 0 < m.geo.blockSize) (hgeo : m'.geo = m.geo)
    (hblock : fileBlock m' inode' (o / m.geo.blockSize) =
      fileBlock m inode (o / m.geo.blockSize))
    (hsame : fileBlock m inode (o / m.geo.blockSize) ≠ 0 ->
      SameBlock m m' (fileBlock m inode (o / m.geo.blockSize))) :
    fileByte m' inode' o = fileByte m inode o := by
  unfold fileByte
  rw [hgeo, hblock]
  by_cases hhole : fileBlock m inode (o / m.geo.blockSize) = 0
  · rw [if_pos hhole, if_pos hhole]
  · rw [if_neg hhole, if_neg hhole]
    exact hsame hhole _ (Nat.mod_lt _ hpos)

theorem fileBlock_own (hk : fileBlock m inode k ≠ 0) :
    fileBlock m inode k ∈ Own m inode := by
  rcases exists_place hk with ⟨p, hp, hat⟩
  exact ⟨hk, p, (place_leaf hp).left, hat⟩

section Contents

variable {m : Mount} {inode : Inode} {k : Nat} (hfile : FileOk m inode)

include hfile

theorem FileOk.fileBlock_data (hk : fileBlock m inode k ≠ 0) :
    DataBlock m (fileBlock m inode k) := by
  rcases exists_place hk with ⟨p, hp, hat⟩
  rw [← hat] at hk ⊢
  exact hfile.data p (place_leaf hp).left hk

theorem FileOk.fileBlock_inj {k' : Nat} (hk : fileBlock m inode k ≠ 0)
    (heq : fileBlock m inode k = fileBlock m inode k') : k = k' := by
  rcases exists_place hk with ⟨p, hp, hat⟩
  rcases exists_place (heq ▸ hk) with ⟨p', hp', hat'⟩
  rw [← hat] at hk heq
  rw [← hat'] at heq
  have hplace := hfile.inj (place_leaf hp).left (place_leaf hp').left hk heq
  rw [← hplace] at hp'
  exact place_inj hp hp'

theorem FileOk.leaf_ne_inner (hk : fileBlock m inode k ≠ 0) {q : Place}
    (hq : LegalPlace m q) (hinner : q.2.length < levels q.1) :
    blockAt m inode q ≠ fileBlock m inode k := by
  intro heq
  rcases exists_place hk with ⟨p, hp, hat⟩
  rw [← heq] at hk hat
  rcases place_leaf hp with ⟨hlegal, hleaf⟩
  exact hfile.proper.leaf_ne_inner hlegal hleaf hq hinner hk hat.symm

/-- What stays in its place while blocks of the file are written. -/
theorem FileOk.grown {blocks : Set Nat} {m' : Mount}
    (hchange : Change blocks ∅ ∅ ∅ m m') (hown : blocks ⊆ Own m inode)
    (hat : forall p, LegalPlace m p -> blockAt m' inode p = blockAt m inode p) :
    Grown m inode m' inode := by
  refine ⟨?_, ?_, fun p hp => Or.inl (hat p hp), ?_, ⟨_, rfl⟩⟩
  · exact hchange.mono (hown.trans Set.subset_union_left) (Set.empty_subset _)
  · exact hfile.congr hchange.geo hat (fun p hp hval =>
      (hfile.data p hp hval).change hchange (Set.notMem_empty _))
  · intro b hb
    exact Or.inl ((hchange.alloc b (Set.notMem_empty b)).mp hb)

end Contents

theorem grown_write (h : Volume m) (hsmall : Small m) (hfile : FileOk m inode)
    (hk : fileBlock m inode k ≠ 0) (buffer : Buffer) :
    Grown m inode (writeTo m (fileBlock m inode k) buffer) inode ∧
    forall o, fileByte (writeTo m (fileBlock m inode k) buffer) inode o =
      if o / m.geo.blockSize = k then buffer (o % m.geo.blockSize)
      else fileByte m inode o := by
  have hdata := hfile.fileBlock_data hk
  have hlow := h.low hsmall hdata.left
  have hchange := change_writeTo h hsmall hlow hdata.right buffer
  have hat : forall p, LegalPlace m p ->
      blockAt (writeTo m (fileBlock m inode k) buffer) inode p =
        blockAt m inode p := fun p hp =>
    blockAt_change hchange hfile
      (fun q hq hinner _ => hfile.leaf_ne_inner hk hq hinner) hp
  have hblocks := fileBlock_congr hchange.geo hat
  refine ⟨hfile.grown hchange ?_ hat, ?_⟩
  · rw [Set.singleton_subset_iff]
    exact fileBlock_own hk
  · intro o
    split
    case isTrue hok =>
      unfold fileByte
      rw [hchange.geo, hblocks, hok, if_neg hk]
      exact writeTo_self hlow (Nat.mod_lt _ h.size_pos)
    case isFalse hok =>
      apply fileByte_congr h.size_pos hchange.geo (hblocks _)
      intro hne
      apply writeTo_other hlow
      intro heq
      exact hok (hfile.fileBlock_inj hne heq)

end Ext2
end Horizon
