import Horizon.Fs.Ext2.DirEntry

/-!
# Scans of any directory

The blocks of a directory may hold any bytes, and any transfer and any request
for memory may fail.  A scan is held up for ever by a record of length zero, and
by nothing else.
-/

namespace Horizon
namespace Ext2

open Bytes RecordChain

/-!
## The geometry of a mount never changes
-/

section Geometry

variable (m : Mount)

@[grind =] theorem geo_kmallocFails : (kmallocFails m).2.geo = m.geo := by
  rw [kmallocFails_eq]
  rfl

@[grind =] theorem geo_ext2ReadBlock (b : Nat) :
    (ext2ReadBlock m b).2.geo = m.geo := by
  rw [ext2ReadBlock_eq]
  rfl

@[grind =] theorem geo_ext2WriteBlock (b : Nat) (buffer : Buffer) :
    (ext2WriteBlock m b buffer).2.geo = m.geo := by
  rw [ext2WriteBlock_eq]
  split
  case isTrue hfault => rfl
  case isFalse hfault => rfl

theorem geo_ext2WriteGroups (b n i : Nat) :
    (ext2WriteGroups b n i m).2.geo = m.geo := by
  fun_induction ext2WriteGroups b n i m <;> grind

@[grind =] theorem geo_ext2WriteSuper : (ext2WriteSuper m).2.geo = m.geo := by
  unfold ext2WriteSuper deviceWrite
  rw [deviceFault_eq]
  cases m.io.headD false with
  | true => rfl
  | false => exact geo_ext2WriteGroups _ _ _ _

@[grind =] theorem geo_recount (r : Resource) (g : Nat) (f16 f32 : Nat -> Nat) :
    (recount r g f16 f32 m).geo = m.geo :=
  (frame_recount r g f16 f32 m).geo

@[grind =] theorem geo_releaseBit (r : Resource) (g j : Nat) :
    (releaseBit r m g j).2.geo = m.geo := by
  unfold releaseBit
  repeat' split
  all_goals grind

@[grind =] theorem geo_ext2NewBlockLoop (n i : Nat) :
    (ext2NewBlockLoop n i m).2.geo = m.geo := by
  fun_induction ext2NewBlockLoop n i m <;> grind [takeBit]

@[grind =] theorem geo_ext2IndirectBlock (inode : Inode) (phys : Nat) :
    (ext2IndirectBlock m inode phys).2.2.geo = m.geo := by
  unfold ext2IndirectBlock
  repeat' split
  all_goals grind [ext2NewBlock, freeQuietly, ext2FreeBlock]

@[grind =] theorem geo_setIndirectEntry (b i phys : Nat) :
    (setIndirectEntry m b i phys).2.geo = m.geo := by
  unfold setIndirectEntry
  repeat' split
  all_goals grind [freeQuietly, ext2FreeBlock]

theorem geo_ext2AllocBlock (inode : Inode) (k : Nat) :
    (ext2AllocBlock m inode k).2.2.geo = m.geo := by
  grind [ext2AllocBlock, ext2NewBlock, freeQuietly, ext2FreeBlock]

end Geometry

/-!
## Looking a block up among faults
-/

def dirBlock (m : Mount) (dir : Inode) (k : Nat) : Nat :=
  (ext2GetBlock ((m.setIo []).setMem []) dir k).1

variable {m q : Mount} {dir : Inode} {b c i k n : Nat}

/-- A fault on the way down makes the lookup find nothing. -/
theorem indirectEntry_faults (hquiet : Quiet m q) (hb : b = 0 ∨ b = c) :
    Quiet m (indirectEntry q b i).2 ∧ ((indirectEntry q b i).1 = 0 ∨
      (indirectEntry q b i).1 = readEntry m c i) := by
  unfold indirectEntry
  by_cases hzero : b = 0
  · rw [if_pos hzero]
    exact ⟨hquiet, Or.inl rfl⟩
  · rw [if_neg hzero, kmallocFails_eq]
    cases q.mem.headD false with
    | true => exact ⟨hquiet.trans (quiet_mem q), Or.inl rfl⟩
    | false =>
      have hquiet1 := hquiet.trans (quiet_mem q)
      generalize q.setMem q.mem.tail = m1 at hquiet1
      have hquiet2 := hquiet1.trans (quiet_io m1)
      simp only [ext2ReadBlock_eq]
      cases m1.io.headD false with
      | true => exact ⟨hquiet2, Or.inl rfl⟩
      | false =>
        refine ⟨hquiet2, Or.inr ?_⟩
        have hbc := hb.resolve_left hzero
        subst hbc
        unfold readEntry
        rw [if_neg hzero, ← hquiet1.dev, ← hquiet1.blockOffset]
        rfl

theorem ext2GetBlock_faults (hquiet : Quiet m q) (dir : Inode) (k : Nat) :
    Quiet m (ext2GetBlock q dir k).2 ∧ ((ext2GetBlock q dir k).1 = 0 ∨
      (ext2GetBlock q dir k).1 = dirBlock m dir k) := by
  have hcalm : Calm ((m.setIo []).setMem []) := ⟨rfl, rfl⟩
  have hread : readEntry ((m.setIo []).setMem []) = readEntry m := rfl
  unfold dirBlock ext2GetBlock
  simp only [indirectEntry_read hcalm, hread, hquiet.geo, Mount.setMem_geo,
    Mount.setIo_geo]
  split
  case isTrue hdirect => exact ⟨hquiet, Or.inr rfl⟩
  case isFalse hdirect =>
    split
    case isTrue hone => exact indirectEntry_faults hquiet (Or.inr rfl)
    case isFalse hone =>
      split
      case isTrue htwo =>
        rcases indirectEntry_faults hquiet (Or.inr rfl) with ⟨hquiet1, hb1⟩
        exact indirectEntry_faults hquiet1 hb1
      case isFalse htwo =>
        split
        case isTrue hthree =>
          rcases indirectEntry_faults hquiet (Or.inr rfl) with ⟨hquiet1, hb1⟩
          rcases indirectEntry_faults hquiet1 hb1 with ⟨hquiet2, hb2⟩
          exact indirectEntry_faults hquiet2 hb2
        case isFalse hthree => exact ⟨hquiet, Or.inl rfl⟩

/-!
## The scans
-/

/-- No record that the lengths lead to has length zero. -/
def Advances (m : Mount) (dir : Inode) : Prop :=
  forall k, k < numBlocks m dir -> dirBlock m dir k ≠ 0 ->
    let b : Buffer := fun i => m.dev (blockOffset m (dirBlock m dir k) + i)
    forall off, off ∈ walk (recLen b) m.geo.blockSize (m.geo.blockSize + 1) 0 ->
      recLen b off ≠ 0

/-- A scan of a block that the loops read comes to its end. -/
theorem Advances.pass (h : Advances m dir) (hquiet : Quiet m q)
    (hk : k < numBlocks m dir) (p : Buffer -> Nat -> Bool) :
    Quiet m (ext2GetBlock q dir k).2 ∧ ((ext2GetBlock q dir k).1 ≠ 0 ->
      forall r m2, ext2ReadBlock (ext2GetBlock q dir k).2
        (ext2GetBlock q dir k).1 = (r, m2) -> Quiet m m2 ∧
          forall b, r = some b -> scanBlock m.geo.blockSize p b ≠ none) := by
  rcases ext2GetBlock_faults hquiet dir k with ⟨hquiet1, hphys⟩
  generalize ext2GetBlock q dir k = result at hquiet1 hphys
  refine ⟨hquiet1, ?_⟩
  intro hzero r m2 hread
  have heq := hphys.resolve_left hzero
  rw [ext2ReadBlock_eq] at hread
  cases hread
  refine ⟨hquiet1.trans (quiet_io _), ?_⟩
  intro b hb
  split at hb
  case isTrue hfault => cases hb
  case isFalse hfault =>
    cases hb
    rw [heq] at hzero ⊢
    rw [hquiet1.dev, hquiet1.blockOffset]
    exact scan_ne_none (h k hk hzero) (by
      rw [Nat.sub_zero]
      exact Nat.lt_succ_self _)

section Loops

variable (h : Advances m dir) (name : Name) (hquiet : Quiet m q)
  (hn : k + n = numBlocks m dir)

include h hquiet hn

theorem Advances.lookup : ext2LookupLoop dir name n k q ≠ none := by
  induction n generalizing k q with
  | zero => exact Option.some_ne_none _
  | succ n ih =>
    have hpass := h.pass hquiet (k := k) (by omega) (isEntry name)
    have hnext := fun m1 hq => ih (q := m1) (k := k + 1) hq (by omega)
    grind [ext2LookupLoop, Quiet, Frame]

theorem Advances.remove : ext2RemoveEntryLoop dir name n k q ≠ none := by
  induction n generalizing k q with
  | zero => exact Option.some_ne_none _
  | succ n ih =>
    have hpass := h.pass hquiet (k := k) (by omega) (hasName name)
    have hnext := fun m1 hq => ih (q := m1) (k := k + 1) hq (by omega)
    grind [ext2RemoveEntryLoop, Quiet, Frame]

theorem Advances.add (ino : Nat) (type : FileType) :
    ext2AddEntryLoop name ino type n k dir q ≠ none := by
  induction n generalizing k q with
  | zero => exact Option.some_ne_none _
  | succ n ih =>
    have hpos : 0 < m.geo.blockSize := by
      rw [Nat.pos_iff_ne_zero]
      intro hsize
      unfold numBlocks at hn
      rw [hsize, Nat.div_zero] at hn
      omega
    have hpass := h.pass hquiet (k := k) (by omega)
      (hasRoom (entrySize name.length))
    have hnext := fun m1 hq => ih (q := m1) (k := k + 1) hq (by omega)
    -- the record of a new block is free
    have hfree : scanBlock m.geo.blockSize (hasRoom (entrySize name.length))
        (putU16 zeros 4 m.geo.blockSize) = some (some (none, 0)) := by
      unfold scanBlock scan
      rw [if_pos hpos]
      rfl
    grind [ext2AddEntryLoop, entryBlock, geo_ext2AllocBlock, Quiet, Frame]

end Loops

end Ext2
end Horizon
