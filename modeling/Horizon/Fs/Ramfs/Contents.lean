import Horizon.Fs.Ramfs.File

/-!
# Contents of RAM files

A file grows into a new block of memory and nothing of the old block is copied.
As long as no file grows whose old bytes are still needed, a read returns the
last values written.
-/

namespace Horizon
namespace Ramfs

open List Bytes Transition

/-- The file holds what its changes say, and has the memory for it. -/
structure Ok (h : History) : Prop where
  small : h.file.size < 2 ^ 32
  size : h.file.size = logSize h.log
  bytes : h.file.size = 0 ∨ exists b, h.file.data = some b ∧
    h.file.size <= b.size ∧
    forall p, p < h.file.size -> b.bytes p = lastValue h.log p
  above : forall p, h.file.size <= p -> lastValue h.log p = 0

/-- A file that grows stays below 4 GiB.  If it gets memory, it was empty or
all of it is written again. -/
def StepOk (h : History) : Call -> Prop
  | Call.write pos buf memory =>
      pos < 0 ∨ pos + buf.length <= h.file.size ∨
        (pos + buf.length < 2 ^ 32 ∧
          (h.file.size = 0 ∨ pos = 0 ∨ memory = none))
  | Call.setSize size memory =>
      0 <= size ∧ (size <= h.file.size ∨
        (size < 2 ^ 32 ∧ (h.file.size = 0 ∨ memory = none)))

/-! ## Numbers -/

variable {n pos : Nat} {b : Block} {h : History} {f : File} {buf : List UInt8}
    {memory : Option Buffer} {size : Int}

theorem asSize_natCast (h : n < 2 ^ 32) : asSize (n : Int) = n := by
  unfold asSize
  omega

theorem wrap64_natCast (h : n < 2 ^ 63) : wrap64 (n : Int) = n := by
  apply Int.bmod_eq_of_le <;> omega

theorem wrap64_add {m : Nat} (h : m + n < 2 ^ 63) :
    wrap64 ((m : Int) + (n : Int)) = ((m + n : Nat) : Int) := by
  exact wrap64_natCast h

/-! ## Growing -/

theorem krealloc_some (ptr : Option Block) {size : Nat} (hpos : 0 < size)
    (bytes : Buffer) :
    (krealloc ptr size (some bytes)).1 = some ⟨size, bytes⟩ := by
  have hne : size ≠ 0 := Nat.ne_of_gt hpos
  have hcopy (src : Buffer) :
      memcpy bytes 0 src 0 (min oldSize size) = bytes := by
    funext i
    have hnone : min oldSize size = 0 := Nat.zero_min size
    exact memcpy_of_outside (Or.inr (by omega))
  unfold krealloc kmalloc
  cases ptr with
  | none => simp [hne]
  | some old => simp [hne, hcopy]

theorem krealloc_none (ptr : Option Block) {size : Nat} (hpos : 0 < size) :
    krealloc ptr size none = (none, ptr) := by
  have hne : size ≠ 0 := Nat.ne_of_gt hpos
  unfold krealloc kmalloc
  cases ptr with
  | none => simp
  | some old => simp [hne]

theorem store_some (off n : Nat) (src : Buffer) (h : off + n <= b.size) :
    exists c, store (some b) off src n = some (some c) ∧ c.size = b.size ∧
      forall p, c.bytes p =
        if off <= p ∧ p < off + n then src (p - off) else b.bytes p := by
  unfold store
  split
  case isTrue hn =>
    refine ⟨b, rfl, rfl, ?_⟩
    intro p
    rw [if_neg (by omega)]
  case isFalse hn =>
    simp only [if_pos h]
    refine ⟨_, rfl, rfl, ?_⟩
    intro p
    unfold memcpy
    simp only [Nat.zero_add]

theorem lastValue_write (log : List Change) (pos : Nat) (buf : List UInt8)
    (p : Nat) : lastValue (.write pos buf :: log) p =
      if pos <= p ∧ p < pos + buf.length then listBuffer buf (p - pos)
      else lastValue log p := rfl

theorem Ok.lastValue_of_empty (hok : Ok h) (hempty : h.file.size = 0) (p : Nat) :
    lastValue h.log p = 0 :=
  hok.above p (by omega)

/-! ## Writing -/

/-- The bytes are copied into a file that is large enough and holds the rest of
what the changes say. -/
theorem copyIn_ok {log : List Change} (pos : Nat) (buf : List UInt8)
    (hdata : f.data = some b) (hroom : f.size <= b.size)
    (hsmall : f.size < 2 ^ 32) (hfit : pos + buf.length <= f.size)
    (hsize : f.size = max (logSize log) (pos + buf.length))
    (hbytes : forall p, p < f.size ->
      ¬ (pos <= p ∧ p < pos + buf.length) -> b.bytes p = lastValue log p)
    (habove : forall p, f.size <= p -> lastValue log p = 0) :
    exists f', copyIn f pos buf = some (some buf.length, f') ∧
      Ok ⟨f', .write pos buf :: log⟩ := by
  obtain ⟨c, hstore, hcsize, hcbytes⟩ :=
    store_some (b := b) pos buf.length (listBuffer buf) (by omega)
  refine ⟨{ f with data := some c }, ?_, hsmall, hsize, Or.inr ?_, ?_⟩
  · unfold copyIn
    rw [hdata, asSize_natCast (by omega), hstore]
  · refine ⟨c, rfl, ?_, ?_⟩
    · show f.size <= c.size
      omega
    · intro p hp
      rw [hcbytes, lastValue_write]
      by_cases hin : pos <= p ∧ p < pos + buf.length
      · rw [if_pos hin, if_pos hin]
      · rw [if_neg hin, if_neg hin]
        exact hbytes p hp hin
  · intro p hp
    have hle : f.size <= p := hp
    rw [lastValue_write, if_neg (by omega)]
    exact habove p hp

theorem Ok.write_nil (hok : Ok h) (hle : pos <= h.file.size) :
    Ok ⟨h.file, .write pos [] :: h.log⟩ := by
  have hlast (p : Nat) : lastValue (.write pos [] :: h.log) p =
      lastValue h.log p := by
    rw [lastValue_write, if_neg]
    simp only [length_nil]
    omega
  refine ⟨hok.small, ?_, ?_, ?_⟩
  · have hsize := hok.size
    show h.file.size = max (logSize h.log) (pos + 0)
    omega
  · simp only [hlast]
    exact hok.bytes
  · simp only [hlast]
    exact hok.above

theorem Ok.write_inside (hok : Ok h) (hfit : pos + buf.length <= h.file.size) :
    exists f, copyIn h.file pos buf = some (some buf.length, f) ∧
      Ok ⟨f, .write pos buf :: h.log⟩ := by
  have hsize := hok.size
  cases buf with
  | nil =>
    refine ⟨h.file, rfl, hok.write_nil ?_⟩
    exact hfit
  | cons x buf =>
    rw [length_cons] at hfit
    rcases hok.bytes with hzero | ⟨b, hdata, hroom, hbytes⟩
    · omega
    · exact copyIn_ok pos (x :: buf) hdata hroom hok.small hfit
        (by rw [length_cons]; omega) (fun p hp _ => hbytes p hp)
        hok.above

/-- The block of a file that has grown, with the gap before the position
cleared. -/
theorem cleared_block (new : Block) (size pos : Nat) (hpos : pos < 2 ^ 32)
    (hroom : pos <= new.size) :
    exists b, (if (size : Int) < (pos : Int) then
        store (some new) size zeros (asSize ((pos : Int) - (size : Int)))
      else some (some new)) = some (some b) ∧ b.size = new.size ∧
      forall p, size <= p -> p < pos -> b.bytes p = 0 := by
  by_cases hgap : size < pos
  · rw [if_pos (by omega), <- Int.ofNat_sub (by omega),
      asSize_natCast (by omega)]
    obtain ⟨b, hstore, hbsize, hbytes⟩ :=
      store_some (b := new) size (pos - size) zeros (by omega)
    refine ⟨b, hstore, hbsize, ?_⟩
    intro p hle hp
    rw [hbytes, if_pos (by omega)]
    rfl
  · rw [if_neg (by omega)]
    refine ⟨new, rfl, rfl, ?_⟩
    intro p hle hp
    omega

/-- A write that grows the file, when nothing of the old bytes is left. -/
theorem Ok.write_grow (hok : Ok h) (pos : Nat) (buf : List UInt8)
    (memory : Buffer) (hold : h.file.size = 0 ∨ pos = 0)
    (hgrow : h.file.size < pos + buf.length)
    (hsmall : pos + buf.length < 2 ^ 32) :
    exists f, ramfsFileWrite h.file pos buf (some memory) =
        some (some buf.length, f) ∧
      Ok ⟨f, .write pos buf :: h.log⟩ := by
  have hsize := hok.size
  have hstop := wrap64_add (m := pos) (n := buf.length) (by omega)
  obtain ⟨b, hcleared, hbsize, hbytes⟩ :=
    cleared_block ⟨pos + buf.length, memory⟩ h.file.size pos (by omega)
      (Nat.le_add_right _ _)
  have hblock := krealloc_some h.file.data
    (show 0 < pos + buf.length by omega) memory
  have hlog : pos + buf.length = max (logSize h.log) (pos + buf.length) := by
    omega
  have hgap (p : Nat) (hp : p < pos + buf.length)
      (hout : ¬ (pos <= p ∧ p < pos + buf.length)) :
      b.bytes p = lastValue h.log p := by
    rw [hbytes p (by omega) (by omega), hok.above p (by omega)]
  have habove (p : Nat) (hp : pos + buf.length <= p) :
      lastValue h.log p = 0 :=
    hok.above p (by omega)
  obtain ⟨f, hcopy, hf⟩ := copyIn_ok (f := ⟨some b, pos + buf.length⟩) pos buf
    rfl (Nat.le_of_eq hbsize.symm) hsmall (Nat.le_refl _) hlog hgap habove
  refine ⟨f, ?_, hf⟩
  unfold ramfsFileWrite
  rw [if_neg (by omega), hstop]
  simp only [asSize_natCast hsmall]
  rw [if_pos (by omega)]
  generalize krealloc h.file.data (pos + buf.length) (some memory) = r at hblock
  obtain ⟨r1, r2⟩ := r
  obtain rfl : r1 = _ := hblock
  simp only
  rw [hcleared]
  exact hcopy

theorem ramfsFileWrite_inside (memory : Option Buffer)
    (hsmall : f.size < 2 ^ 32) (hfit : pos + buf.length <= f.size) :
    ramfsFileWrite f pos buf memory = copyIn f pos buf := by
  have hstop := wrap64_add (m := pos) (n := buf.length) (by omega)
  unfold ramfsFileWrite
  rw [if_neg (by omega), hstop]
  rw [if_neg (by omega)]

theorem ramfsFileWrite_fails (hgrow : f.size < pos + buf.length)
    (hsmall : pos + buf.length < 2 ^ 32) :
    ramfsFileWrite f pos buf none = some (none, f) := by
  have hstop := wrap64_add (m := pos) (n := buf.length) (by omega)
  unfold ramfsFileWrite
  rw [if_neg (by omega), hstop]
  simp only [asSize_natCast hsmall]
  rw [if_pos (by omega), krealloc_none f.data (by omega)]

theorem next_write_done {pos : Int}
    (hwrite : ramfsFileWrite h.file pos buf memory = some (some n, f)) :
    next h (.write pos buf memory) =
      some ⟨f, .write pos.toNat buf :: h.log⟩ := by
  simp only [next, hwrite]

theorem next_write_failed {pos : Int}
    (hwrite : ramfsFileWrite h.file pos buf memory = some (none, h.file)) :
    next h (.write pos buf memory) = some h := by
  simp only [next, hwrite]

theorem Ok.write (hok : Ok h) {pos : Int}
    (hstep : StepOk h (.write pos buf memory)) :
    exists h', next h (.write pos buf memory) = some h' ∧ Ok h' := by
  have hsmall := hok.small
  by_cases hneg : pos < 0
  · refine ⟨h, next_write_failed ?_, hok⟩
    unfold ramfsFileWrite
    rw [if_pos hneg]
  obtain ⟨n, rfl⟩ : exists n : Nat, pos = n := ⟨pos.toNat, by omega⟩
  by_cases hfit : n + buf.length <= h.file.size
  · obtain ⟨f, hcopy, hf⟩ := hok.write_inside hfit
    rw [<- ramfsFileWrite_inside memory hsmall hfit] at hcopy
    exact ⟨_, next_write_done hcopy, hf⟩
  obtain ⟨hstop, hgrows⟩ : (n : Int) + (buf.length : Int) < 2 ^ 32 ∧
      (h.file.size = 0 ∨ (n : Int) = 0 ∨ memory = none) := by
    rcases hstep with h1 | h1 | h1
    · omega
    · omega
    · exact h1
  cases memory with
  | none =>
    refine ⟨h, next_write_failed ?_, hok⟩
    exact ramfsFileWrite_fails (by omega) (by omega)
  | some bytes =>
    have hold : h.file.size = 0 ∨ n = 0 := by
      rcases hgrows with hempty | hfirst | hnone
      · exact Or.inl hempty
      · exact Or.inr (by omega)
      · cases hnone
    obtain ⟨f, hwrite, hf⟩ := hok.write_grow n buf bytes hold (by omega)
      (by omega)
    exact ⟨_, next_write_done hwrite, hf⟩

/-! ## Changing the size -/

theorem lastValue_setSize (log : List Change) (size p : Nat) :
    lastValue (.setSize size :: log) p =
      if size <= p then 0 else lastValue log p := rfl

theorem Ok.truncate (hok : Ok h) (hle : n <= h.file.size) :
    Ok ⟨{ h.file with size := n }, .setSize n :: h.log⟩ := by
  have hsmall := hok.small
  refine ⟨?_, rfl, ?_, ?_⟩
  · show n < 2 ^ 32
    omega
  · rcases hok.bytes with hzero | ⟨b, hdata, hroom, hbytes⟩
    · left
      show n = 0
      omega
    · right
      refine ⟨b, hdata, Nat.le_trans hle hroom, ?_⟩
      intro p hp
      have hp' : p < n := hp
      rw [lastValue_setSize, if_neg (by omega)]
      exact hbytes p (by omega)
  · intro p hp
    rw [lastValue_setSize, if_pos hp]

theorem Ok.extend (hok : Ok h) (memory : Buffer) (hempty : h.file.size = 0)
    (hpos : 0 < n) (hsmall : n < 2 ^ 32) :
    exists f, ramfsSetattr h.file n (some memory) = some (true, f) ∧
      Ok ⟨f, .setSize n :: h.log⟩ := by
  obtain ⟨b, hstore, hbsize, hbytes⟩ :=
    store_some (b := ⟨n, memory⟩) 0 n zeros (by simp)
  refine ⟨⟨some b, n⟩, ?_, hsmall, rfl, Or.inr ?_, ?_⟩
  · unfold ramfsSetattr
    have hblock := krealloc_some h.file.data hpos memory
    rw [hempty, if_neg (by omega), if_pos (by omega), Int.natCast_zero,
      Int.sub_zero, asSize_natCast hsmall]
    generalize krealloc h.file.data n (some memory) = r at hblock
    obtain ⟨r1, r2⟩ := r
    obtain rfl : r1 = _ := hblock
    simp only
    rw [hstore]
  · refine ⟨b, rfl, Nat.le_of_eq hbsize.symm, ?_⟩
    intro p hp
    have hp' : p < n := hp
    rw [hbytes, if_pos (by omega), lastValue_setSize, if_neg (by omega),
      hok.lastValue_of_empty hempty]
    rfl
  · intro p hp
    rw [lastValue_setSize, if_pos hp]

theorem next_setSize_done
    (hset : ramfsSetattr h.file size memory = some (true, f)) :
    next h (.setSize size memory) = some ⟨f, .setSize size.toNat :: h.log⟩ := by
  simp only [next, hset]

theorem next_setSize_failed
    (hset : ramfsSetattr h.file size memory = some (false, h.file)) :
    next h (.setSize size memory) = some h := by
  simp only [next, hset]

theorem Ok.setSize (hok : Ok h) (hstep : StepOk h (.setSize size memory)) :
    exists h', next h (.setSize size memory) = some h' ∧ Ok h' := by
  have hsmall := hok.small
  obtain ⟨hnonneg, hfit⟩ := hstep
  obtain ⟨n, rfl⟩ : exists n : Nat, size = n := ⟨size.toNat, by omega⟩
  by_cases hle : n <= h.file.size
  · have hset : ramfsSetattr h.file n memory =
        some (true, { h.file with size := n }) := by
      unfold ramfsSetattr
      by_cases hlt : n < h.file.size
      · rw [if_pos (by omega), asSize_natCast (by omega)]
      · obtain rfl : n = h.file.size := by omega
        rw [if_neg (by omega), if_neg (by omega)]
    exact ⟨_, next_setSize_done hset, hok.truncate hle⟩
  obtain ⟨hstop, hgrows⟩ : (n : Int) < 2 ^ 32 ∧
      (h.file.size = 0 ∨ memory = none) := by
    rcases hfit with h1 | h1
    · omega
    · exact h1
  cases memory with
  | none =>
    have hset : ramfsSetattr h.file n none = some (false, h.file) := by
      unfold ramfsSetattr
      rw [if_neg (by omega), if_pos (by omega), asSize_natCast (by omega),
        krealloc_none h.file.data (by omega)]
    exact ⟨h, next_setSize_failed hset, hok⟩
  | some bytes =>
    have hempty : h.file.size = 0 := by
      rcases hgrows with hzero | hnone
      · exact hzero
      · cases hnone
    obtain ⟨f, hset, hf⟩ := hok.extend bytes hempty (n := n) (by omega)
      (by omega)
    exact ⟨_, next_setSize_done hset, hf⟩

/-! ## Runs -/

def Init (h : History) : Prop := h = ⟨ramfsAllocInode, []⟩

theorem ok_init (hinit : Init h) : Ok h := by
  obtain rfl : h = _ := hinit
  refine ⟨?_, rfl, Or.inl rfl, fun _ _ => rfl⟩
  show 0 < 2 ^ 32
  omega

theorem Ok.call (hok : Ok h) {c : Call} (hstep : StepOk h c) :
    exists h', next h c = some h' ∧ Ok h' := by
  cases c with
  | write pos buf memory => exact hok.write hstep
  | setSize size memory => exact hok.setSize hstep

theorem ok_of_reachable (hreach : Reachable Init (Guarded StepOk next) h) :
    Ok h := by
  apply hreach.invariant
  · intro s hs
    exact ok_init hs
  · intro s c s' hok hstep
    obtain ⟨s1, hnext, hok1⟩ := hok.call hstep.1
    rw [hstep.2] at hnext
    cases hnext
    exact hok1

/-! ## Reading -/

def arrayRead (size : Nat) (value : Nat -> UInt8) (pos : Int) (count : Nat) :
    List UInt8 :=
  if pos < 0 then []
  else (List.range (min count (size - pos.toNat))).map fun i =>
    value (pos.toNat + i)

theorem Ok.read (hok : Ok h) (pos : Int) {count : Nat} (hcount : count < 2 ^ 32) :
    ramfsFileRead h.file pos count =
      some (arrayRead (logSize h.log) (lastValue h.log) pos count) := by
  have hsmall := hok.small
  have hsize := hok.size
  unfold ramfsFileRead arrayRead
  rw [<- hsize]
  by_cases hneg : pos < 0
  · rw [if_pos (Or.inl hneg), if_pos hneg]
  obtain ⟨n, rfl⟩ : exists n : Nat, pos = n := ⟨pos.toNat, by omega⟩
  rw [if_neg hneg, Int.toNat_natCast]
  by_cases hpast : h.file.size < n
  · have hnone : min count (h.file.size - n) = 0 := by omega
    rw [if_pos (Or.inr (by omega)), hnone]
    rfl
  have hstop : wrap64 ((n : Int) + (count : Int)) = ((n + count : Nat) : Int) := by
    exact wrap64_natCast (by omega)
  have hbytes : (if (h.file.size : Int) < wrap64 ((n : Int) + (count : Int)) then
      asSize ((h.file.size : Int) - (n : Int)) else count) =
        min count (h.file.size - n) := by
    by_cases hlong : h.file.size < n + count
    · rw [if_pos (by omega), <- Int.ofNat_sub (by omega),
        asSize_natCast (by omega)]
      omega
    · rw [if_neg (by omega)]
      omega
  rw [if_neg (by omega)]
  simp only [hbytes, asSize_natCast (show n < 2 ^ 32 by omega)]
  by_cases hnone : min count (h.file.size - n) = 0
  · rw [if_pos hnone, hnone]
    rfl
  rw [if_neg hnone]
  rcases hok.bytes with hzero | ⟨b, hdata, hroom, hvalues⟩
  · omega
  · simp only [hdata]
    rw [if_pos (by omega)]
    refine congrArg some (map_congr_left ?_)
    intro i hi
    rw [mem_range] at hi
    exact hvalues (n + i) (by omega)

/-- In every run in which no file grows that keeps old bytes, and all stay below
4 GiB, the file is a byte array: a read returns the values last written up to
the size. -/
theorem ramfs_file_is_byte_array {h : History}
    (hreach : Reachable Init (Guarded StepOk next) h) :
    h.file.size = logSize h.log ∧
      forall (pos : Int) (count : Nat), count < 2 ^ 32 ->
        ramfsFileRead h.file pos count =
          some (arrayRead (logSize h.log) (lastValue h.log) pos count) := by
  have hok := ok_of_reachable hreach
  refine ⟨hok.size, ?_⟩
  intro pos count hcount
  exact hok.read pos hcount

/-- A file with a hole that is cut off in its second byte. -/
theorem ramfs_file_is_byte_array_hole :
    exists h, Reachable Init (Guarded StepOk next) h ∧
      h.file.size = 2 ∧ ramfsFileRead h.file 0 9 = some [0, 7] := by
  have hinit : Reachable Init (Guarded StepOk next)
      ⟨ramfsAllocInode, []⟩ := Reachable.init rfl
  have hwrite := hinit.step (l := Call.write 1 [7, 8] (some fun _ => 9))
    ⟨Or.inr (Or.inr ⟨by decide, Or.inl rfl⟩), rfl⟩
  have hcut := hwrite.step (l := Call.setSize 2 none)
    ⟨⟨by decide, Or.inl (by decide)⟩, rfl⟩
  obtain ⟨hsize, hread⟩ := ramfs_file_is_byte_array hcut
  exact ⟨_, hcut, hsize, hread 0 9 (by decide)⟩

/-- The first byte of a file is lost when the second one is written: the file
moves to a new block, which keeps the contents it had. -/
theorem appended_byte_loses_first :
    exists h, Reachable Init
        (fun h c h' => next h c = some h') h ∧
      h.log = [Change.write 1 [2], Change.write 0 [1]] ∧
      lastValue h.log 0 = 1 ∧ ramfsFileRead h.file 0 2 = some [9, 2] := by
  have hinit : Reachable Init (fun h c h' => next h c = some h')
      ⟨ramfsAllocInode, []⟩ := Reachable.init rfl
  have hfirst := hinit.step (l := Call.write 0 [1] (some fun _ => 9)) rfl
  have hsecond := hfirst.step (l := Call.write 1 [2] (some fun _ => 9)) rfl
  exact ⟨_, hsecond, rfl, rfl, rfl⟩

end Ramfs
end Horizon
