import Horizon.Fs.Ext2.Directory
import Horizon.Lib.AssocList

/-!
# A directory as a map

With pairwise distinct names, `ext2_add_entry` and `ext2_remove_entry` change
what `ext2_lookup` finds for the one name they are given, provided that the
record an entry is put into is long enough.  The code does not check this for
free records.
-/

namespace Horizon
namespace Ext2

open List Bytes RecordChain AssocList

/-!
## Replacing a block
-/

section Replace

variable {m m' : Mount} {dir dir' : Inode} {k : Nat} {b : Buffer}

theorem entriesAt_same {j : Nat} (hgeo : m'.geo = m.geo)
    (hformed : fileBlock m dir j ≠ 0 ->
      BlockFormed m.geo.blockSize (m.block (fileBlock m dir j)))
    (hsame : SameAt m dir m' dir' j) :
    entriesAt m' dir' j = entriesAt m dir j := by
  unfold entriesAt
  rw [hsame.block, hgeo]
  by_cases hhole : fileBlock m dir j = 0
  · rw [if_pos hhole, if_pos hhole]
  · rw [if_neg hhole, if_neg hhole]
    exact ((hformed hhole).congr (hsame.bytes hhole)).right

theorem Replaced.blocks_eq (hreplaced : Replaced m dir m' dir k b)
    (hk : k < numBlocks m dir) :
    numBlocks m' dir = max (numBlocks m dir) (k + 1) := by
  have hsame : numBlocks m' dir = numBlocks m dir := by
    unfold numBlocks
    rw [hreplaced.geo]
  omega

section Whole

variable (hreplaced : Replaced m dir m' dir' k b) (hformed : DirFormed m dir)
  (hk : k <= numBlocks m dir)
  (hblocks : numBlocks m' dir' = max (numBlocks m dir) (k + 1))

include hreplaced

theorem Replaced.block_formed (h : BlockFormed m.geo.blockSize b) :
    BlockFormed m'.geo.blockSize (m'.block (fileBlock m' dir' k)) ∧
      entriesAt m' dir' k = blockEntries m.geo.blockSize b := by
  rcases h.congr hreplaced.self with ⟨hnew, hentries⟩
  unfold entriesAt
  rw [hreplaced.geo, if_neg hreplaced.nonzero]
  exact ⟨hnew, hentries⟩

include hformed hk hblocks

theorem Replaced.formed_iff :
    DirFormed m' dir' <-> BlockFormed m.geo.blockSize b := by
  constructor
  · intro hnew
    have hself := hnew k (by omega) hreplaced.nonzero
    rw [hreplaced.geo] at hself
    exact (hself.congr fun i hi => (hreplaced.self i hi).symm).left
  · intro hb j hj hne
    by_cases hjk : j = k
    · rw [hjk]
      exact (hreplaced.block_formed hb).left
    · have hsame := hreplaced.other j hjk
      rw [hsame.block] at hne ⊢
      rw [hreplaced.geo]
      exact ((hformed j (by omega) hne).congr (hsame.bytes hne)).left

theorem Replaced.entries (htail : forall j, numBlocks m dir <= j ->
      fileBlock m dir j = 0) (hb : BlockFormed m.geo.blockSize b) :
    exists n, k < n ∧
      dirEntries m dir = (List.range n).flatMap (entriesAt m dir) ∧
      dirEntries m' dir' = (List.range n).flatMap (entriesAt m' dir') ∧
      (forall j, j < n -> j ≠ k -> entriesAt m' dir' j = entriesAt m dir j) ∧
      entriesAt m' dir' k = blockEntries m.geo.blockSize b := by
  refine ⟨numBlocks m' dir', by omega, ?_, rfl, ?_,
    (hreplaced.block_formed hb).right⟩
  · have hextend : forall n, (List.range (numBlocks m dir + n)).flatMap
        (entriesAt m dir) = dirEntries m dir := by
      intro n
      induction n with
      | zero => rfl
      | succ n ih =>
        have hhole : entriesAt m dir (numBlocks m dir + n) = [] :=
          if_pos (htail _ (Nat.le_add_right _ _))
        rw [← Nat.add_assoc, range_succ, flatMap_append, ih,
          flatMap_singleton, hhole, append_nil]
    rw [← hextend (numBlocks m' dir' - numBlocks m dir)]
    congr 2
    omega
  · intro j hj hjk
    exact entriesAt_same hreplaced.geo (hformed j (by omega))
      (hreplaced.other j hjk)

end Whole

end Replace

/-!
## Well-formed blocks
-/

/--
The record that `ext2_add_entry` puts the entry into is in use, so that its room
was checked, or is long enough for the name.
-/
def AddFits (m : Mount) (dir : Inode) (name : Name) : Prop :=
  entryInode (slotFor m dir name).2.1 (slotFor m dir name).2.2 = 0 ->
    8 + name.length <= recLen (slotFor m dir name).2.1 (slotFor m dir name).2.2

instance (m : Mount) (dir : Inode) (name : Name) :
    Decidable (AddFits m dir name) :=
  inferInstanceAs (Decidable (_ -> _))

section Calls

variable {m : Mount} {dir : Inode} {name : Name}

section

variable (h : DirOk m dir) (hformed : DirFormed m dir)
include h hformed

theorem slotFor_ok (name : Name) :
    SlotOk m dir (entrySize name.length) (slotFor m dir name) :=
  findSlot_ok h hformed _ (Nat.zero_add _)

theorem addFits_of_hole (hlen : name.length <= 255)
    (hhole : fileBlock m dir (slotFor m dir name).1 = 0) :
    AddFits m dir name := by
  intro _
  have hge := h.blockSize_ge
  rcases (slotFor_ok h hformed name).block with ⟨_, hne, _⟩ | ⟨_, hb, hoff⟩
  · exact absurd hhole hne
  · rw [hb, hoff, h.freeBlock.right.right]
    omega

theorem adds_of_fits (hlen : name.length <= 255) (hfits : AddFits m dir name)
    (ino : Nat)
    (type : FileType) :
    Adds m.geo.blockSize (slotFor m dir name).2.1 name ino
      (addAt (slotFor m dir name).2.1 (slotFor m dir name).2.2 ino name
        type) := by
  have hslot := slotFor_ok h hformed name
  rcases hslot.records with ⟨xs, ys, hrecords⟩
  exact hrecords.adds hslot.room (by omega) hfits ino type

theorem formed_of_change {m' : Mount} (hchange : Change ∅ ∅ ∅ ∅ m m') :
    DirFormed m' dir := by
  intro k hk hne
  have hsame := sameAt_of_change hchange h.file rfl
    (fun _ _ => Set.notMem_empty _) k
  have hblocks : numBlocks m' dir = numBlocks m dir := by
    unfold numBlocks
    rw [hchange.geo]
  rw [hsame.block] at hne ⊢
  rw [hchange.geo]
  exact ((hformed k (by omega) hne).congr (hsame.bytes hne)).left

theorem formed_iff_addFits (htype : dir.type = .directory)
    (hpos : 1 <= name.length)
    (hlen : name.length <= 255) (ino : Nat) (hino : ino < 2 ^ 32)
    (type : FileType) :
    exists res dir' m',
      ext2AddEntry m dir name ino type = some (res, dir', m') ∧
      (AddFits m dir name -> DirFormed m' dir') ∧
      (ino ≠ 0 -> DirFormed m' dir' -> AddFits m dir name) := by
  rcases ext2AddEntry_calm h hformed htype hpos hlen ino type with
    ⟨m', hcall, hhole, hchange⟩ | ⟨dir', m', hcall, hadded⟩
  · exact ⟨_, _, _, hcall, fun _ => formed_of_change h hformed hchange,
      fun _ _ => addFits_of_hole h hformed hlen hhole⟩
  · have hslot := slotFor_ok h hformed name
    have hiff := hadded.replaced.formed_iff hformed hslot.range hadded.blocks
    refine ⟨_, _, _, hcall, ?_, ?_⟩
    · intro hfits
      exact hiff.mpr (adds_of_fits h hformed hlen hfits ino type).left
    · intro hne hnew hfree
      by_contra hshort
      rcases hslot.records with ⟨xs, ys, hrecords⟩
      exact hrecords.not_formed_of_short hfree (by omega) (by omega) hne hino
        type (hiff.mp hnew)

end

/--
`ext2_add_entry` keeps the blocks of a directory well formed when the entry fits
the record that it gets, and only then; `ext2_remove_entry` always does.
-/
theorem entry_calls_keep_blocks_formed (h : DirOk m dir)
    (hformed : DirFormed m dir) (htype : dir.type = FileType.directory)
    (hpos : 1 <= name.length) (hlen : name.length <= 255) (ino : Nat)
    (hino : ino < 2 ^ 32) (type : FileType) :
    (exists res dir' m',
      ext2AddEntry m dir name ino type = some (res, dir', m') ∧
      (AddFits m dir name -> DirFormed m' dir') ∧
      (ino ≠ 0 -> DirFormed m' dir' -> AddFits m dir name)) ∧
    exists res m', ext2RemoveEntry m dir name = some (res, m') ∧
      DirFormed m' dir := by
  constructor
  · exact formed_iff_addFits h hformed htype hpos hlen ino hino type
  · rcases ext2RemoveEntry_calm h.toDirBase hformed htype hpos hlen with
      ⟨hcall, _⟩ | ⟨j, ino, b, m', hcall, hj, _, hremoves, hreplaced⟩
    · exact ⟨_, _, hcall, hformed⟩
    · exact ⟨_, _, hcall, (hreplaced.formed_iff hformed (Nat.le_of_lt hj)
        (hreplaced.blocks_eq hj)).mpr hremoves.left⟩

/-!
## Names
-/

end Calls

/-!
## A directory of one block
-/

def oneBlockDir : Inode :=
  { (oneByteFile 30).inode with type := FileType.directory, size := 1024 }

def dirMount (b : Buffer) : Mount := writeTo (fullMount 1) 30 b

theorem oneBlockDir_base : DirBase (fullMount 1) oneBlockDir := by
  have hfile : FileOk (fullMount 1) (oneByteFile 30).inode :=
    oneByteFile_ok (by decide) (by decide) (by decide) (by decide)
  constructor
  · exact fullMount_volume (by decide) (by decide)
  · unfold Small
    decide
  · exact ⟨rfl, rfl⟩
  · exact ⟨hfile.proper, hfile.data⟩
  · unfold ValidInode
    decide
  · decide
  · decide

theorem fileBlock_oneBlockDir (m : Mount) (k : Nat) :
    fileBlock m oneBlockDir k = if k = 0 then 30 else 0 := by
  split
  case isTrue hk =>
    rw [hk]
    rfl
  case isFalse hk =>
    by_contra hne
    unfold fileBlock at hne
    cases hplace : place m.geo.pointers k with
    | none =>
      rw [hplace] at hne
      exact hne rfl
    | some p =>
      rw [hplace] at hne
      have hfirst := (oneByteFile_blockAt m 30 (place_leaf hplace).left
        hne).left
      rw [hfirst] at hplace
      exact hk (place_inj hplace rfl)

theorem replaced_dirMount (b : Buffer) :
    Replaced (fullMount 1) oneBlockDir (dirMount b) oneBlockDir 0 b := by
  have hblock : fileBlock (fullMount 1) oneBlockDir 0 = 30 := rfl
  have hwrite := oneBlockDir_base.replaced_write (k := 0)
    (by rw [hblock]; decide) b
  exact hwrite

theorem numBlocks_dirMount (b : Buffer) :
    numBlocks (dirMount b) oneBlockDir = 1 := by
  show (1024 + 1024 - 1) / 1024 % 2 ^ 32 = 1
  decide

theorem dirMount_ok (b : Buffer) : DirOk (dirMount b) oneBlockDir := by
  refine ⟨(replaced_dirMount b).base, ?_⟩
  intro k hk
  rw [numBlocks_dirMount] at hk
  rw [fileBlock_oneBlockDir, if_neg (by omega)]

theorem dirMount_formed {b : Buffer} (hb : BlockFormed 1024 b) :
    DirFormed (dirMount b) oneBlockDir := by
  intro k hk _
  rw [numBlocks_dirMount] at hk
  have hzero : k = 0 := by omega
  rw [hzero]
  exact ((replaced_dirMount b).block_formed hb).left

theorem freeBlock_formed : BlockFormed 1024 (freeBlock 1024) :=
  ⟨_, (freeBlock_records (by decide) (by decide) (by decide)).left⟩

def shortBlock : Buffer :=
  fillEntry (putU16 (putU16 zeros 4 12) 16 1012) 12 11 [97] FileType.regular

theorem shortBlock_formed : BlockFormed 1024 shortBlock := by
  refine ⟨[0, 12], ?_, ?_⟩
  · have hfirst : recLen shortBlock 0 = 12 := by decide
    have hsecond : recLen shortBlock 12 = 1012 := by decide
    apply RecordChain.Chain.cons
    · decide
    · rw [hfirst]
      apply RecordChain.Chain.cons
      · decide
      · exact .nil 1024
  · intro off hoff
    rcases mem_cons.mp hoff with rfl | hoff
    · exact ⟨by decide, by decide, by decide⟩
    · rw [mem_singleton.mp hoff]
      exact ⟨by decide, by decide, by decide⟩

/-- In an empty directory every name fits. -/
theorem entry_calls_keep_blocks_formed_empty :
    exists res dir' m', ext2AddEntry (dirMount (freeBlock 1024)) oneBlockDir
        [97] 11 FileType.regular = some (res, dir', m') ∧
      DirFormed m' dir' := by
  rcases (entry_calls_keep_blocks_formed (dirMount_ok (freeBlock 1024))
    (dirMount_formed freeBlock_formed) rfl (show 1 <= [97].length by decide)
    (by decide) 11 (by decide) FileType.regular).left with
    ⟨res, dir', m', hcall, hfits, _⟩
  exact ⟨res, dir', m', hcall, hfits (by decide +kernel)⟩

/--
A name of five bytes is put into a free record of twelve bytes, which has room
for four.
-/
theorem short_record_breaks_block :
    DirOk (dirMount shortBlock) oneBlockDir ∧
    DirFormed (dirMount shortBlock) oneBlockDir ∧
    exists res dir' m', ext2AddEntry (dirMount shortBlock) oneBlockDir
        [98, 99, 100, 101, 102] 12 FileType.regular = some (res, dir', m') ∧
      ¬ DirFormed m' dir' := by
  have hok := dirMount_ok shortBlock
  have hformed := dirMount_formed shortBlock_formed
  refine ⟨hok, hformed, ?_⟩
  rcases formed_iff_addFits hok hformed rfl
    (show 1 <= [98, 99, 100, 101, 102].length by decide) (by decide) 12
    (by decide) FileType.regular with ⟨res, dir', m', hcall, _, honly⟩
  refine ⟨res, dir', m', hcall, ?_⟩
  intro hnew
  have hfits := honly (by decide) hnew
  revert hfits
  decide +kernel

end Ext2
end Horizon
