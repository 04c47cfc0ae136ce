import Horizon.Fs.Ext2.File

/-!
# What a read delivers

`ext2_read` delivers the bytes of the file unless the range starts inside a
block and ends in the same one: the count for the last block is taken from the
start of that block, so the bytes before the position are counted as well.
-/

namespace Horizon
namespace Ext2

open Bytes

def available (file : File) (size : Nat) : Nat :=
  min size (file.inode.size - file.position)

/--
A read returns the available count, delivers those bytes of the file and no
others, and advances the position by the count.
-/
def ReadsFile (m : Mount) (file : File) (size : Nat) : Prop :=
  forall buffer,
    (ext2Read m file buffer size).result =
      Except.ok (available file size : Int) ∧
    (forall i, (ext2Read m file buffer size).buffer i =
      if i < available file size then
        fileByte m file.inode (file.position + i)
      else buffer i) ∧
    (ext2Read m file buffer size).file.position =
      file.position + available file size

/--
The file is open for reading, its size fits the width on disk, its blocks lie
below 4 GiB, and nothing fails.
-/
structure Readable (m : Mount) (file : File) : Prop where
  calm : Calm m
  size : exists j, j < 22 ∧ m.geo.blockSize = 2 ^ (10 + j)
  flags : file.flags &&& 1 ≠ 0
  fileSize : file.inode.size < 2 ^ 32
  low : forall k, k * m.geo.blockSize < file.inode.size ->
    LowPath m file.inode k

/--
The position is at the end of the file, or the count fits `ssize_t` and the
range starts at a block boundary or spans several blocks.
-/
def ReadOk (m : Mount) (file : File) (size : Nat) : Prop :=
  file.inode.size <= file.position ∨
  (available file size < 2 ^ 31 ∧
    (file.position % m.geo.blockSize = 0 ∨
      m.geo.blockSize < file.position % m.geo.blockSize + available file size))

/-!
## Ranges
-/

def span (m : Mount) (position n : Nat) : Range where
  startBlock := position / m.geo.blockSize
  startOffset := position % m.geo.blockSize
  endBlock := (position + n - 1) / m.geo.blockSize
  stop := position + n

structure Spans (m : Mount) (r : Range) (position : Nat) : Prop where
  start : r.startBlock * m.geo.blockSize + r.startOffset = position
  offset : r.startOffset < m.geo.blockSize
  order : r.startBlock <= r.endBlock
  stop : r.endBlock * m.geo.blockSize < r.stop
  nonempty : position < r.stop
  stop_le : r.stop <= r.endBlock * m.geo.blockSize + m.geo.blockSize

variable {m : Mount} {r : Range} {n block position : Nat} {inode : Inode}

theorem Spans.congr {m' : Mount} (h : Spans m r position)
    (hgeo : m'.geo = m.geo) : Spans m' r position := by
  refine ⟨?_, ?_, h.order, ?_, h.nonempty, ?_⟩
  · rw [hgeo]
    exact h.start
  · rw [hgeo]
    exact h.offset
  · rw [hgeo]
    exact h.stop
  · rw [hgeo]
    exact h.stop_le

theorem span_spans (position : Nat) (hbs : 0 < m.geo.blockSize) (hn : 0 < n) :
    Spans m (span m position n) position := by
  have hdiv := Nat.div_add_mod' (position + n - 1) m.geo.blockSize
  have hmod := Nat.mod_lt (position + n - 1) hbs
  constructor
  · exact Nat.div_add_mod' _ _
  · exact Nat.mod_lt _ hbs
  · exact Nat.div_le_div_right (by omega)
  · show (position + n - 1) / m.geo.blockSize * m.geo.blockSize < position + n
    omega
  · show position < position + n
    omega
  · show position + n <= (position + n - 1) / m.geo.blockSize *
      m.geo.blockSize + m.geo.blockSize
    omega

theorem range_eq_span (hn : 0 < n) (h64 : position + n <= 2 ^ 64)
    (hend : (position + n - 1) / m.geo.blockSize < 2 ^ 32) :
    range m position n = span m position n := by
  have hstart : position / m.geo.blockSize < 2 ^ 32 :=
    Nat.lt_of_le_of_lt (Nat.div_le_div_right (by omega)) hend
  have hdec : dec64 (position + n) = position + n - 1 := by
    unfold dec64
    omega
  unfold range span
  rw [hdec, Nat.mod_eq_of_lt hstart, Nat.mod_eq_of_lt hend]

/-!
## The loop
-/

theorem readFileBlock_calm {k : Nat} (h : Calm m) (hpos : 0 < m.geo.blockSize)
    (hexact : ExactMap m.geo.pointers k) (hlow : LowPath m inode k) :
    exists data, readFileBlock m inode k = (some data, m) ∧
      forall i, i < m.geo.blockSize ->
        data i = fileByte m inode (k * m.geo.blockSize + i) := by
  unfold readFileBlock
  rw [ext2GetBlock_eq h hpos hexact hlow]
  by_cases hhole : fileBlock m inode k = 0
  · refine ⟨zeros, by simp only [if_pos hhole], ?_⟩
    intro i hi
    rw [fileByte_add inode k hi, if_pos hhole]
    rfl
  · have hblock : Low m (fileBlock m inode k) := by
      rcases exists_place hhole with ⟨p, hp, hat⟩
      rw [← hat]
      exact hlow p hp p.2 List.prefix_rfl
    refine ⟨m.block (fileBlock m inode k), ?_, ?_⟩
    · simp only [if_neg hhole]
      exact h.read hpos hblock
    · intro i hi
      rw [fileByte_add inode k hi, if_neg hhole]

/-- The range lies in a file below 4 GiB and does not start in its last block. -/
structure ReadRange (m : Mount) (inode : Inode) (r : Range) (position : Nat) :
    Prop extends Spans m r position where
  exact : forall k, k <= r.endBlock -> ExactMap m.geo.pointers k
  low : forall k, k <= r.endBlock -> LowPath m inode k
  last : position <= r.endBlock * m.geo.blockSize
  stop_lt : r.stop < 2 ^ 32

def firstByte (m : Mount) (r : Range) (position block : Nat) : Nat :=
  min r.stop (max position (block * m.geo.blockSize))

theorem eq_or_mul_add_le {i j : Nat} (h : i <= j) (n : Nat) :
    i = j ∨ i * n + n <= j * n :=
  (Nat.eq_or_lt_of_le h).imp_right fun hlt => mul_add_le hlt n

section Blocks

variable (h : Spans m r position)
include h

theorem Spans.offset_eq (hstart : r.startBlock <= block)
    (hend : block <= r.endBlock) :
    block * m.geo.blockSize + r.offset block =
      firstByte m r position block ∧ r.offset block < m.geo.blockSize := by
  have hs := h.start
  have ho := h.offset
  have hstop := h.stop
  have hlast := Nat.mul_le_mul_right m.geo.blockSize hend
  have hnonempty := h.nonempty
  unfold firstByte Range.offset
  rcases eq_or_mul_add_le hstart m.geo.blockSize with rfl | hle
  · rw [if_pos rfl]
    omega
  · rw [if_neg (by rintro rfl; omega)]
    omega

theorem Spans.firstByte_start :
    firstByte m r position r.startBlock = position := by
  have hstart := h.start
  have hnonempty := h.nonempty
  unfold firstByte
  omega

theorem Spans.firstByte_end (hend : block = r.endBlock + 1) :
    firstByte m r position block = r.stop := by
  have hstop := h.stop_le
  unfold firstByte
  rw [hend, Nat.succ_mul]
  omega

theorem Spans.passes_eq : r.startBlock + r.passes = r.endBlock + 1 := by
  have horder := h.order
  unfold Range.passes
  omega

end Blocks

theorem readCount_eq (h : ReadRange m inode r position)
    (hstart : r.startBlock <= block) (hend : block <= r.endBlock) :
    block * m.geo.blockSize + r.offset block = firstByte m r position block ∧
    firstByte m r position block + r.readCount m.geo.blockSize block =
      firstByte m r position (block + 1) ∧
    r.offset block + r.readCount m.geo.blockSize block <= m.geo.blockSize := by
  have hl := h.last
  have hstop := h.stop
  have hstop' := h.stop_le
  have hlt := h.stop_lt
  have hnext : (block + 1) * m.geo.blockSize =
      block * m.geo.blockSize + m.geo.blockSize := Nat.succ_mul _ _
  rcases h.toSpans.offset_eq hstart hend with ⟨hoffset, hoff⟩
  refine ⟨hoffset, ?_⟩
  unfold firstByte at hoffset ⊢
  unfold Range.readCount
  rw [hnext]
  rcases eq_or_mul_add_le hend m.geo.blockSize with rfl | hle
  · rw [if_pos rfl]
    omega
  · rw [if_neg (by rintro rfl; omega)]
    omega

/-- From a block on, the loop delivers the rest of the range. -/
theorem ext2ReadLoop_eq (hcalm : Calm m) (h : ReadRange m inode r position)
    (hstart : r.startBlock <= block) (hn : block + n = r.endBlock + 1)
    (buffer : Buffer) :
    exists buffer',
      ext2ReadLoop inode r n block (firstByte m r position block - position)
        buffer m = (.ok (r.stop - position), buffer', m) ∧
      forall i, buffer' i =
        if firstByte m r position block <= position + i ∧
            position + i < r.stop then
          fileByte m inode (position + i)
        else buffer i := by
  have hpos : 0 < m.geo.blockSize := Nat.zero_lt_of_lt h.offset
  have hlast := h.last
  have hstop := h.stop
  induction n generalizing block buffer with
  | zero =>
    have hdone : firstByte m r position block = r.stop := h.firstByte_end hn
    refine ⟨buffer, ?_, ?_⟩
    · rw [hdone]
      rfl
    · intro i
      rw [hdone, if_neg (by omega)]
  | succ n ih =>
    have hend : block <= r.endBlock := by omega
    rcases readCount_eq h hstart hend with ⟨hfrom, hto, hfit⟩
    rcases readFileBlock_calm hcalm hpos (h.exact block hend)
      (h.low block hend) with ⟨data, hread, hdata⟩
    have hge : position <= firstByte m r position block := by
      unfold firstByte
      omega
    have hle : firstByte m r position (block + 1) <= r.stop :=
      Nat.min_le_left _ _
    have hlt := h.stop_lt
    unfold ext2ReadLoop
    simp only [hread]
    generalize firstByte m r position block = start at *
    generalize r.readCount m.geo.blockSize block = count at *
    rw [show (start - position + count) % 2 ^ 32 =
      firstByte m r position (block + 1) - position by
        omega]
    rcases @ih (block + 1) (by omega) (by omega)
      (memcpy buffer (start - position) data (r.offset block) count) with
      ⟨buffer', hloop, hbuffer⟩
    refine ⟨buffer', hloop, ?_⟩
    intro i
    rw [hbuffer i, ← hto]
    unfold memcpy
    split
    case isTrue hlater => rw [if_pos (by omega)]
    case isFalse hlater =>
      by_cases hhere : start <= position + i ∧ position + i < r.stop
      · rw [if_pos (by omega), if_pos hhere, hdata _ (by omega)]
        congr 1
        omega
      · rw [if_neg (by omega), if_neg hhere]

/-!
## The call
-/

section Call

variable {m : Mount} {file : File} {size : Nat}

theorem Readable.size_pos (h : Readable m file) : 0 < m.geo.blockSize := by
  rcases h.size with ⟨j, _, hj⟩
  rw [hj]
  exact Nat.two_pow_pos _

theorem ext2Read_eq (h : Readable m file) (hsize : size < 2 ^ 32)
    (hinside : file.position < file.inode.size) (buffer : Buffer) :
    ext2Read m file buffer size = readDone file
      (ext2ReadLoop file.inode (range m file.position (available file size))
        (range m file.position (available file size)).passes
        (range m file.position (available file size)).startBlock 0
        buffer m) := by
  have htoRead : (if file.position + size > file.inode.size then
      (file.inode.size - file.position) % 2 ^ 32 else size) =
      available file size := by
    unfold available
    split
    case isTrue hlong => omega
    case isFalse hlong => omega
  unfold ext2Read
  rw [if_neg h.flags, if_neg (by omega), htoRead]
  simp only [h.calm.kmalloc]

theorem available_pos (hpos : 0 < size)
    (hinside : file.position < file.inode.size) :
    0 < available file size ∧
      file.position + available file size <= file.inode.size := by
  unfold available
  omega

section

variable (h : Readable m file) (hpos : 0 < size)
include h hpos

theorem available_range (hinside : file.position < file.inode.size) :
    range m file.position (available file size) =
      span m file.position (available file size) := by
  have hfile := h.fileSize
  rcases available_pos hpos hinside with ⟨hn, hle⟩
  apply range_eq_span hn (by omega)
  exact Nat.lt_of_le_of_lt (Nat.div_le_self _ _) (by omega)

theorem available_readRange (hinside : file.position < file.inode.size)
    (halign : file.position % m.geo.blockSize = 0 ∨ m.geo.blockSize <
      file.position % m.geo.blockSize + available file size) :
    ReadRange m file.inode (span m file.position (available file size))
      file.position := by
  have hfile := h.fileSize
  rcases available_pos hpos hinside with ⟨hn, hle⟩
  have hspans := span_spans file.position h.size_pos hn
  have hoffset : (span m file.position (available file size)).startOffset =
      file.position % m.geo.blockSize := rfl
  have hend : (span m file.position (available file size)).stop =
      file.position + available file size := rfl
  have hstart := hspans.start
  have hstop := hspans.stop
  have hstop' := hspans.stop_le
  have hblocks : forall k,
      k <= (span m file.position (available file size)).endBlock ->
      k * m.geo.blockSize < file.inode.size := by
    intro k hk
    have hmul := Nat.mul_le_mul_right m.geo.blockSize hk
    omega
  refine ⟨hspans, ?_, ?_, ?_, ?_⟩
  · intro k hk
    exact exactMap_of_lt h.size (Nat.lt_trans (hblocks k hk) hfile)
  · intro k hk
    exact h.low k (hblocks k hk)
  · -- the range starts at a block boundary or ends in a later block
    have hoff := hspans.offset
    rcases eq_or_mul_add_le hspans.order m.geo.blockSize with heq | hmul
    · rw [heq] at hstart
      omega
    · omega
  · omega

/-- A read that does not start in its last block, or starts at its beginning. -/
theorem ext2Read_aligned (hsize : size < 2 ^ 32)
    (hinside : file.position < file.inode.size)
    (halign : file.position % m.geo.blockSize = 0 ∨ m.geo.blockSize <
      file.position % m.geo.blockSize + available file size)
    (buffer : Buffer) :
    exists buffer', ext2Read m file buffer size =
        ⟨.ok (ssize (available file size)), buffer',
          file.setPosition (file.position + available file size), m⟩ ∧
      forall i, buffer' i = if i < available file size then
          fileByte m file.inode (file.position + i) else buffer i := by
  have hrange := available_readRange h hpos hinside halign
  rw [ext2Read_eq h hsize hinside, available_range h hpos hinside]
  generalize available file size = n at hrange ⊢
  have hstop : (span m file.position n).stop = file.position + n := rfl
  generalize span m file.position n = r at hrange hstop ⊢
  have hfirst := hrange.firstByte_start
  rcases ext2ReadLoop_eq h.calm hrange (Nat.le_refl _) hrange.passes_eq buffer
    with ⟨buffer', hresult, hbytes⟩
  rw [hfirst, Nat.sub_self, hstop, Nat.add_sub_cancel_left] at hresult
  rw [hresult]
  refine ⟨buffer', rfl, ?_⟩
  intro i
  rw [hbytes i, hfirst, hstop]
  by_cases hi : i < n
  · rw [if_pos hi, if_pos ⟨Nat.le_add_right _ _, Nat.add_lt_add_left hi _⟩]
  · rw [if_neg hi, if_neg (fun hboth => hi (Nat.lt_of_add_lt_add_left
      hboth.right))]

theorem readsFile_of_ok (hsize : size < 2 ^ 32) (hok : ReadOk m file size) :
    ReadsFile m file size := by
  intro buffer
  by_cases hinside : file.position < file.inode.size
  · rcases hok with hend | ⟨hcount, halign⟩
    · omega
    rcases ext2Read_aligned h hpos hsize hinside halign buffer with
      ⟨buffer', hread, hbytes⟩
    rw [hread]
    refine ⟨?_, hbytes, rfl⟩
    unfold ssize
    rw [if_pos hcount]
  · have hzero : available file size = 0 := by
      unfold available
      omega
    unfold ext2Read
    rw [if_neg h.flags, if_pos (by omega), hzero]
    refine ⟨rfl, ?_, rfl⟩
    intro i
    rw [if_neg (Nat.not_lt_zero i)]

/-- Inside one block, the bytes before the position are counted as well. -/
theorem result_of_single (hsize : size < 2 ^ 32)
    (hinside : file.position < file.inode.size)
    (hsingle : file.position % m.geo.blockSize + available file size <=
      m.geo.blockSize) (buffer : Buffer) :
    (ext2Read m file buffer size).result = .ok (ssize
      (file.position % m.geo.blockSize + available file size)) := by
  have hfile := h.fileSize
  rcases available_pos hpos hinside with ⟨hn, hle⟩
  rw [ext2Read_eq h hsize hinside, available_range h hpos hinside]
  have hspans := span_spans file.position h.size_pos hn
  generalize available file size = n at hspans hsingle hle ⊢
  have hoffset : (span m file.position n).startOffset =
      file.position % m.geo.blockSize := rfl
  have hstop : (span m file.position n).stop = file.position + n := rfl
  generalize span m file.position n = r at hspans hoffset hstop ⊢
  have hstart := hspans.start
  have hend := hspans.stop
  have hone : r.endBlock = r.startBlock := by
    rcases eq_or_mul_add_le hspans.order m.geo.blockSize with heq | hmul
    · exact heq.symm
    · omega
  have hpasses : r.passes = 1 := by
    unfold Range.passes
    omega
  have hblock : r.startBlock * m.geo.blockSize < file.inode.size := by omega
  rcases readFileBlock_calm h.calm h.size_pos
    (exactMap_of_lt h.size (Nat.lt_trans hblock hfile))
    (h.low _ hblock) with ⟨data, hread, _⟩
  have hcount : r.readCount m.geo.blockSize r.startBlock =
      file.position % m.geo.blockSize + n := by
    unfold Range.readCount
    rw [if_pos hone.symm, Nat.mod_eq_of_lt (show r.startBlock *
      m.geo.blockSize < 2 ^ 32 by omega), Nat.mod_eq_of_lt (by omega)]
    omega
  have hloop : ext2ReadLoop file.inode r 1 r.startBlock 0 buffer m =
      (.ok ((0 + r.readCount m.geo.blockSize r.startBlock) % 2 ^ 32),
        memcpy buffer 0 data (r.offset r.startBlock)
          (r.readCount m.geo.blockSize r.startBlock), m) := by
    unfold ext2ReadLoop
    rw [hread]
    rfl
  rw [hpasses, hloop, hcount, Nat.zero_add, Nat.mod_eq_of_lt (by omega)]
  rfl

theorem ok_of_readsFile (hsize : size < 2 ^ 32)
    (hreads : ReadsFile m file size) :
    ReadOk m file size := by
  by_cases hinside : file.position < file.inode.size
  · right
    have hfile := h.fileSize
    have hbs : m.geo.blockSize <= 2 ^ 31 := by
      rcases h.size with ⟨j, hj, heq⟩
      rw [heq]
      exact Nat.pow_le_pow_right (by decide) (by omega)
    have halign : file.position % m.geo.blockSize = 0 ∨ m.geo.blockSize <
        file.position % m.geo.blockSize + available file size := by
      apply Classical.byContradiction
      intro hnot
      have hresult := (hreads zeros).left
      rw [result_of_single h hpos hsize hinside (by omega)] at hresult
      have heq := Except.ok.inj hresult
      unfold ssize at heq
      split at heq
      case isTrue hfit => omega
      case isFalse hfit => omega
    refine ⟨?_, halign⟩
    apply Classical.byContradiction
    intro hlong
    rcases ext2Read_aligned h hpos hsize hinside halign zeros with ⟨_, hread, _⟩
    have hresult := (hreads zeros).left
    rw [hread] at hresult
    have heq := Except.ok.inj hresult
    unfold ssize at heq
    omega
  · left
    omega

end

/--
A read of an open file returns the file's bytes exactly when its range does not
start inside the block it ends in, and its count fits `ssize_t`.
-/
theorem read_returns_file_bytes (h : Readable m file) (hpos : 0 < size)
    (hsize : size < 2 ^ 32) :
    ReadsFile m file size <-> ReadOk m file size := by
  constructor
  · exact ok_of_readsFile h hpos hsize
  · exact readsFile_of_ok h hpos hsize

end Call

/-!
## A file of one block
-/

def smallFile (position : Nat) : File where
  flags := 1
  position := position
  inode := ((blankInode 12).setData 0 20).setSize 100

theorem smallFile_readable (position : Nat) :
    Readable (tableMount 5) (smallFile position) := by
  constructor
  · exact ⟨rfl, rfl⟩
  · exact ⟨0, by decide, rfl⟩
  · show 1 &&& 1 ≠ 0
    decide
  · show 100 < 2 ^ 32
    decide
  · intro k hk p hp path hpath
    have hk0 : k = 0 := by
      have hlt : k * 1024 < 100 := hk
      omega
    rw [hk0] at hp
    cases hp
    rw [List.prefix_nil.mp hpath]
    show (20 + 1) * 1024 <= 2 ^ 32
    decide

theorem read_returns_file_bytes_from_start :
    ReadOk (tableMount 5) (smallFile 0) 50 ∧
      ReadsFile (tableMount 5) (smallFile 0) 50 := by
  have hok : ReadOk (tableMount 5) (smallFile 0) 50 := by
    unfold ReadOk
    decide
  exact ⟨hok, (read_returns_file_bytes (smallFile_readable 0) (by decide)
    (by decide)).mpr hok⟩

/-- Five bytes at position ten: the call returns fifteen. -/
theorem read_inside_block_returns_too_much :
    Readable (tableMount 5) (smallFile 10) ∧
    available (smallFile 10) 5 = 5 ∧
    (ext2Read (tableMount 5) (smallFile 10) zeros 5).result = Except.ok 15 ∧
    ¬ ReadsFile (tableMount 5) (smallFile 10) 5 := by
  have hresult : (ext2Read (tableMount 5) (smallFile 10) zeros 5).result =
      Except.ok 15 :=
    result_of_single (smallFile_readable 10) (by decide) (by decide)
      (by decide) (by decide) zeros
  refine ⟨smallFile_readable 10, by decide, hresult, ?_⟩
  intro hreads
  have hfive := (hreads zeros).left
  rw [hresult] at hfive
  cases hfive

end Ext2
end Horizon
