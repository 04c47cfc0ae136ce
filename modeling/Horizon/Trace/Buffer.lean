import Horizon.Lib.Bytes
import Horizon.Lib.RingBuffer
import Horizon.Lib.Simulation
import Horizon.Types

/-!
# Trace buffers

The ring buffers of `trace.c`: bytes are written at the head and read at the
tail, either in one piece or, around the end of the buffer, in two. Each call
holds the lock of the buffer throughout, so that calls are the steps of the
model. The buffers are shown to be byte queues that hold one byte less than
their size.
-/

namespace Horizon
namespace Trace

open List Bytes RingBuffer Simulation

/-!
## The buffer
-/

def add32 (a b : Nat) : Nat := (a + b) % 2 ^ 32

def sub32 (a b : Nat) : Nat := (a + (2 ^ 32 - b)) % 2 ^ 32

structure TraceBuffer where
  buffer : Buffer
  size : Nat
  head : Nat
  tail : Nat

/-- The flag says whether `kmalloc` finds memory, which it then clears. -/
def traceBufferInit (size : Nat) (memory : Bool) : Except Int TraceBuffer :=
  if size = 0 then .error (-Errno.einval)
  else if memory = false then .error (-Errno.enomem)
  else .ok { buffer := zeros, size := size, head := 0, tail := 0 }

def traceBufferUsed (b : TraceBuffer) : Nat :=
  if b.tail <= b.head then sub32 b.head b.tail
  else add32 (sub32 b.size b.tail) b.head

def traceBufferFreeSpace (b : TraceBuffer) : Nat :=
  sub32 (sub32 b.size (traceBufferUsed b)) 1

/-- Without a value, `data` is `NULL`. -/
def traceBufferWrite (b : TraceBuffer) (data : Option Buffer) (size : Nat) :
    Int × TraceBuffer :=
  match data with
  | none => (-Errno.einval, b)
  | some data =>
      if size = 0 then (-Errno.einval, b)
      else if traceBufferFreeSpace b < size then (0, b)
      else if add32 b.head size <= b.size then
        let head := add32 b.head size
        (asInt size,
          { b with
            buffer := memcpy b.buffer b.head data 0 size
            head := if head = b.size then 0 else head })
      else
        let firstChunk := sub32 b.size b.head
        let secondChunk := sub32 size firstChunk
        (asInt size,
          { b with
            buffer := memcpy (memcpy b.buffer b.head data 0 firstChunk) 0 data
              firstChunk secondChunk
            head := secondChunk })

/-- The second component is `data` after the call. -/
def traceBufferRead (b : TraceBuffer) (data : Option Buffer) (size : Nat) :
    Int × Option Buffer × TraceBuffer :=
  match data with
  | none => (-Errno.einval, none, b)
  | some data =>
      if size = 0 then (-Errno.einval, some data, b)
      else
        let available := traceBufferUsed b
        if available = 0 then (0, some data, b)
        else
          let size := if available < size then available else size
          if add32 b.tail size <= b.size then
            let tail := add32 b.tail size
            (asInt size, some (memcpy data 0 b.buffer b.tail size),
              { b with tail := if tail = b.size then 0 else tail })
          else
            let firstChunk := sub32 b.size b.tail
            let secondChunk := sub32 size firstChunk
            (asInt size,
              some (memcpy (memcpy data 0 b.buffer b.tail firstChunk) firstChunk
                b.buffer 0 secondChunk),
              { b with tail := secondChunk })

def traceBufferClear (b : TraceBuffer) : Int × TraceBuffer :=
  (0, { b with head := 0, tail := 0 })

/-!
## The queue
-/

/-- A write to a queue of bounded length takes all bytes or none. -/
def queueWrite (capacity : Nat) (q bytes : List UInt8) : Int × List UInt8 :=
  if q.length + bytes.length <= capacity then (bytes.length, q ++ bytes)
  else (0, q)

def queueRead (q : List UInt8) (n : Nat) : List UInt8 × List UInt8 :=
  (q.take n, q.drop n)

/-!
## Calls
-/

inductive Call where
  | write (data : Buffer) (size : Nat)
  | read (data : Buffer) (size : Nat)
  | clear

def Call.Sized : Call -> Prop
  | .write _ size => 0 < size ∧ size < 2 ^ 32
  | .read _ size => 0 < size ∧ size < 2 ^ 32
  | .clear => True

/-- What a caller sees: the value returned and, after a read, the contents of
its own buffer. -/
structure Answer where
  value : Int
  data : Option Buffer

def callBuffer (b : TraceBuffer) : Call -> Answer × TraceBuffer
  | .write data size =>
      let (value, b) := traceBufferWrite b (some data) size
      (⟨value, none⟩, b)
  | .read data size =>
      let (value, data, b) := traceBufferRead b (some data) size
      (⟨value, data⟩, b)
  | .clear =>
      let (value, b) := traceBufferClear b
      (⟨value, none⟩, b)

def firstBytes (data : Buffer) (n : Nat) : List UInt8 :=
  (List.range n).map data

def putBytes (data : Buffer) (bytes : List UInt8) : Buffer := fun i =>
  bytes.getD i (data i)

def callQueue (capacity : Nat) (q : List UInt8) : Call -> Answer × List UInt8
  | .write data size =>
      let (value, q) := queueWrite capacity q (firstBytes data size)
      (⟨value, none⟩, q)
  | .read data size =>
      let (bytes, q) := queueRead q size
      (⟨bytes.length, some (putBytes data bytes)⟩, q)
  | .clear => (⟨0, none⟩, [])

/-!
## Space
-/

structure Holds (size : Nat) (b : TraceBuffer) (q : List UInt8) : Prop where
  size_eq : b.size = size
  tail_lt : b.tail < size
  head_eq : b.head = place size b.tail q.length
  length_lt : q.length < size
  bytes : window b.buffer size b.tail q.length = q

section Space

variable {size : Nat} {b : TraceBuffer} {q : List UInt8}

theorem add32_eq {a b : Nat} (h : a + b < 2 ^ 32) : add32 a b = a + b :=
  Nat.mod_eq_of_lt h

theorem sub32_eq {a b : Nat} (hle : b <= a) (h : a < 2 ^ 32) :
    sub32 a b = a - b := by
  unfold sub32
  omega

theorem Holds.head_lt (h : Holds size b q) : b.head < size := by
  rw [h.head_eq]
  exact place_lt (Nat.lt_of_le_of_lt (Nat.zero_le _) h.tail_lt) _ _

theorem Holds.used (h : Holds size b q) (hsize : size <= 2 ^ 31) :
    traceBufferUsed b = q.length := by
  have htail := h.tail_lt
  have hlength := h.length_lt
  unfold traceBufferUsed
  rw [h.size_eq]
  by_cases hwrap : b.tail + q.length < size
  · have heq : b.head = b.tail + q.length := by
      rw [h.head_eq, place_of_lt hwrap]
    rw [if_pos (by omega), sub32_eq (by omega) (by omega)]
    omega
  · have heq : b.head = b.tail + q.length - size := by
      rw [h.head_eq, place_of_wrap (by omega) (by omega)]
    rw [if_neg (by omega), sub32_eq (by omega) (by omega), add32_eq (by omega)]
    omega

theorem Holds.freeSpace (h : Holds size b q) (hsize : size <= 2 ^ 31) :
    traceBufferFreeSpace b = size - 1 - q.length := by
  have hlength := h.length_lt
  unfold traceBufferFreeSpace
  rw [h.used hsize, h.size_eq, sub32_eq (a := size) (by omega) (by omega),
    sub32_eq (by omega) (by omega)]
  omega

end Space

/-!
## Positions after a transfer

Head and tail move in the same way: they are advanced by the size of the
transfer, and end up as far behind the end of the buffer as it reaches.
-/

section Positions

variable {size start n : Nat}

theorem place_whole (hstart : start + n <= size) (hn : n < size) :
    (if start + n = size then 0 else start + n) = place size start n := by
  split
  case isTrue hend =>
    rw [place_of_wrap (by omega) (by omega), hend, Nat.sub_self]
  case isFalse hend => rw [place_of_lt (by omega)]

theorem place_split (hstart : start < size) (hover : size < start + n)
    (hn : n < size) : n - (size - start) = place size start n := by
  rw [place_of_wrap (by omega) (by omega)]
  omega

end Positions

/-!
## Chunks
-/

section Chunks

variable {size start n : Nat}

theorem stores_whole (data cells : Buffer) (hend : start + n <= size) :
    Stores size start n data cells (memcpy cells start data 0 n) := by
  constructor
  · intro i hi
    rw [place_of_lt (by omega), memcpy_apply hi, Nat.zero_add]
  · intro k hk hother
    apply memcpy_of_outside
    by_contra hinside
    apply hother (k - start) (by omega)
    rw [place_of_lt (by omega)]
    omega

theorem stores_split (data cells : Buffer) (hstart : start < size)
    (hover : size < start + n) (hn : n < size) :
    Stores size start n data cells
      (memcpy (memcpy cells start data 0 (size - start)) 0 data (size - start)
        (n - (size - start))) := by
  constructor
  · intro i hi
    by_cases hwrap : start + i < size
    · rw [place_of_lt hwrap, memcpy_of_outside (Or.inr (by omega)),
        memcpy_apply (by omega), Nat.zero_add]
    · have hplace : place size start i = 0 + (start + i - size) := by
        rw [place_of_wrap (by omega) (by omega), Nat.zero_add]
      rw [hplace, memcpy_apply (by omega)]
      congr 1
      omega
  · intro k hk hother
    have hfirst : k < start := by
      by_contra hge
      apply hother (k - start) (by omega)
      rw [place_of_lt (by omega)]
      omega
    have hsecond : n - (size - start) <= k := by
      by_contra hlt
      apply hother (k + (size - start)) (by omega)
      rw [place_of_wrap (by omega) (by omega)]
      omega
    rw [memcpy_of_outside (Or.inr (by omega)),
      memcpy_of_outside (Or.inl hfirst)]

theorem putBytes_window (data cells : Buffer) (size start n i : Nat) :
    putBytes data (window cells size start n) i =
      if i < n then cells (place size start i) else data i := by
  unfold putBytes window
  split
  case isTrue hi => simp [List.getD, hi]
  case isFalse hi => simp [List.getD, hi]

theorem memcpy_first {dst src : Buffer} {srcOff n i : Nat} (h : i < n) :
    memcpy dst 0 src srcOff n i = src (srcOff + i) := by
  have happly : memcpy dst 0 src srcOff n (0 + i) = src (srcOff + i) :=
    memcpy_apply h
  rwa [Nat.zero_add] at happly

theorem fetch_whole (data cells : Buffer) (hend : start + n <= size) :
    memcpy data 0 cells start n = putBytes data (window cells size start n) := by
  funext i
  rw [putBytes_window]
  split
  case isTrue hi => rw [place_of_lt (by omega), memcpy_first hi]
  case isFalse hi => rw [memcpy_of_outside (Or.inr (by omega))]

theorem fetch_split (data cells : Buffer) (hstart : start < size)
    (hover : size < start + n) (hn : n < size) :
    memcpy (memcpy data 0 cells start (size - start)) (size - start) cells 0
        (n - (size - start)) =
      putBytes data (window cells size start n) := by
  funext i
  rw [putBytes_window]
  by_cases hfirst : i < size - start
  · rw [if_pos (by omega), place_of_lt (by omega),
      memcpy_of_outside (Or.inl hfirst), memcpy_first hfirst]
  · by_cases hi : i < n
    · obtain ⟨j, rfl⟩ : exists j, i = size - start + j :=
        Nat.exists_eq_add_of_le (by omega)
      rw [if_pos hi, place_of_wrap (by omega) (by omega),
        memcpy_apply (by omega)]
      congr 1
      omega
    · rw [if_neg hi, memcpy_of_outside (Or.inr (by omega)),
        memcpy_of_outside (Or.inr (by omega))]

end Chunks

/-!
## Calls on the buffer and on the queue
-/

section Calls

variable {size : Nat} {b : TraceBuffer} {q : List UInt8}

theorem holds_init {memory : Bool} (h : traceBufferInit size memory = .ok b) :
    Holds size b [] := by
  unfold traceBufferInit at h
  split at h
  next => cases h
  next hsize =>
    split at h
    next => cases h
    next =>
      cases h
      have hpos : 0 < size := Nat.pos_of_ne_zero hsize
      have hstart : 0 = place size 0 0 := by rw [place_of_lt hpos]
      exact ⟨rfl, hpos, hstart, hpos, rfl⟩

section

variable (h : Holds size b q)
include h

theorem Holds.append {data cells : Buffer} {n head : Nat}
    (hroom : q.length + n < size)
    (hstores : Stores size b.head n data b.buffer cells)
    (hhead : head = place size b.head n) :
    Holds size { b with buffer := cells, head := head }
      (q ++ firstBytes data n) := by
  have hlength : (q ++ firstBytes data n).length = q.length + n := by
    unfold firstBytes
    rw [length_append, length_map, length_range]
  rw [h.head_eq] at hstores hhead
  constructor
  · exact h.size_eq
  · exact h.tail_lt
  · rw [hlength, hhead]
    exact place_place size b.tail q.length n
  · rw [hlength]
    exact hroom
  · rw [hlength]
    show window cells size b.tail (q.length + n) = _
    rw [hstores.window_add (Nat.le_of_lt hroom), h.bytes]
    rfl

theorem Holds.write_full (hsize : size <= 2 ^ 31) {n : Nat} (data : Buffer)
    (hn : 0 < n) (hfull : size - 1 < q.length + n) :
    traceBufferWrite b (some data) n = (0, b) := by
  unfold traceBufferWrite
  rw [h.freeSpace hsize]
  simp only [if_neg (Nat.ne_of_gt hn)]
  rw [if_pos (by omega)]

theorem Holds.write (hsize : size <= 2 ^ 31) {n : Nat} (data : Buffer)
    (hn : 0 < n) :
    (traceBufferWrite b (some data) n).1 =
        (queueWrite (size - 1) q (firstBytes data n)).1 ∧
      Holds size (traceBufferWrite b (some data) n).2
        (queueWrite (size - 1) q (firstBytes data n)).2 := by
  have hlength : (firstBytes data n).length = n := by
    unfold firstBytes
    rw [length_map, length_range]
  obtain rfl : b.size = size := h.size_eq
  have hhead := h.head_lt
  unfold queueWrite
  rw [hlength]
  by_cases hfits : q.length + n <= b.size - 1
  · have hroom : q.length + n < b.size := by omega
    unfold traceBufferWrite
    rw [h.freeSpace hsize, if_pos hfits]
    simp only [if_neg (Nat.ne_of_gt hn)]
    rw [if_neg (by omega), add32_eq (by omega), asInt_of_lt (by omega)]
    by_cases hend : b.head + n <= b.size
    · rw [if_pos hend]
      refine ⟨rfl, h.append hroom (stores_whole data b.buffer hend) ?_⟩
      exact place_whole hend (by omega)
    · rw [if_neg hend, sub32_eq (a := b.size) (by omega) (by omega),
        sub32_eq (by omega) (by omega)]
      refine ⟨rfl, h.append hroom
        (stores_split data b.buffer hhead (by omega) (by omega)) ?_⟩
      exact place_split hhead (by omega) (by omega)
  · rw [if_neg hfits, h.write_full hsize data hn (Nat.lt_of_not_le hfits)]
    exact ⟨rfl, h⟩

theorem Holds.drop {n tail : Nat} (hn : n <= q.length)
    (htail : tail = place size b.tail n) :
    Holds size { b with tail := tail } (q.drop n) := by
  obtain ⟨m, hm⟩ := Nat.exists_eq_add_of_le hn
  have hlength : (q.drop n).length = m := by
    rw [length_drop]
    omega
  have hheld := h.length_lt
  constructor
  · exact h.size_eq
  · rw [htail]
    exact place_lt (by omega) b.tail n
  · rw [hlength, htail, place_place, ← hm]
    exact h.head_eq
  · omega
  · rw [hlength, htail]
    show window b.buffer size (place size b.tail n) m = _
    rw [← drop_window, ← hm, h.bytes]

theorem Holds.take {n : Nat} (hn : n <= q.length) :
    window b.buffer size b.tail n = q.take n := by
  obtain ⟨m, hm⟩ := Nat.exists_eq_add_of_le hn
  rw [← take_window b.buffer size b.tail n m, ← hm, h.bytes]

end

theorem Holds.fetch (h : Holds b.size b q) (hsize : b.size <= 2 ^ 31) {n : Nat}
    (data : Buffer) (hn : n <= q.length) :
    (if add32 b.tail n <= b.size then
        (asInt n, some (memcpy data 0 b.buffer b.tail n),
          { b with
            tail := if add32 b.tail n = b.size then 0 else add32 b.tail n })
      else
        (asInt n,
          some (memcpy (memcpy data 0 b.buffer b.tail (sub32 b.size b.tail))
            (sub32 b.size b.tail) b.buffer 0 (sub32 n (sub32 b.size b.tail))),
          { b with tail := sub32 n (sub32 b.size b.tail) })) =
      ((n : Int), some (putBytes data (q.take n)),
        { b with tail := place b.size b.tail n }) := by
  have hheld := h.length_lt
  have htail := h.tail_lt
  rw [add32_eq (by omega), asInt_of_lt (by omega), ← h.take hn]
  by_cases hend : b.tail + n <= b.size
  · rw [if_pos hend, fetch_whole data b.buffer hend,
      place_whole hend (by omega)]
  · rw [if_neg hend, sub32_eq (a := b.size) (by omega) (by omega),
      sub32_eq (by omega) (by omega),
      fetch_split data b.buffer htail (by omega) (by omega),
      place_split htail (by omega) (by omega)]

theorem putBytes_nil (data : Buffer) : putBytes data [] = data := rfl

theorem Holds.read (h : Holds size b q) (hsize : size <= 2 ^ 31) {n : Nat}
    (data : Buffer) (hn : 0 < n) :
    (traceBufferRead b (some data) n).1 = (queueRead q n).1.length ∧
      (traceBufferRead b (some data) n).2.1 =
        some (putBytes data (queueRead q n).1) ∧
      Holds size (traceBufferRead b (some data) n).2.2 (queueRead q n).2 := by
  obtain rfl : b.size = size := h.size_eq
  unfold traceBufferRead queueRead
  simp only [if_neg (Nat.ne_of_gt hn), h.used hsize]
  by_cases hempty : q.length = 0
  · have hnil : q = [] := eq_nil_of_length_eq_zero hempty
    subst hnil
    rw [if_pos hempty, take_nil, drop_nil, putBytes_nil]
    exact ⟨rfl, rfl, h⟩
  · rw [if_neg hempty]
    by_cases hmore : q.length < n
    · rw [if_pos hmore, h.fetch hsize data (Nat.le_refl _), take_length,
        take_of_length_le (Nat.le_of_lt hmore),
        drop_of_length_le (Nat.le_of_lt hmore)]
      have hdrop := h.drop (Nat.le_refl _) rfl
      rw [drop_length] at hdrop
      exact ⟨rfl, rfl, hdrop⟩
    · have hle : n <= q.length := Nat.le_of_not_lt hmore
      rw [if_neg hmore, h.fetch hsize data hle, length_take_of_le hle]
      exact ⟨rfl, rfl, h.drop hle rfl⟩

theorem Holds.clear (h : Holds size b q) :
    Holds size (traceBufferClear b).2 [] := by
  have hpos : 0 < size := Nat.lt_of_le_of_lt (Nat.zero_le _) h.tail_lt
  have hstart : 0 = place size 0 0 := by rw [place_of_lt hpos]
  exact ⟨h.size_eq, hpos, hstart, hpos, rfl⟩

theorem simulates (hsize : size <= 2 ^ 31) :
    Simulates (Holds size) Call.Sized callBuffer (callQueue (size - 1)) := by
  constructor
  · intro b q call h hsized
    cases call with
    | write data n =>
      have hwrite := h.write hsize data hsized.1
      exact congrArg (Answer.mk · none) hwrite.1
    | read data n =>
      have hread := h.read hsize data hsized.1
      exact congrArg₂ Answer.mk hread.1 hread.2.1
    | clear => rfl
  · intro b q call h hsized
    cases call with
    | write data n => exact (h.write hsize data hsized.1).2
    | read data n => exact (h.read hsize data hsized.1).2.2
    | clear => exact h.clear

end Calls

/-- Whatever is called after `trace_buffer_init`, the answers are those of a
byte queue that holds one byte less than the size of the buffer, the bytes in
the buffer are those of the queue, used and free space add up to that bound, and
a write for which there is no room leaves the buffer as it is. -/
theorem trace_buffer_refines_queue {size : Nat} (hlow : 1 <= size)
    (hhigh : size <= 2 ^ 31) (calls : List Call)
    (hsized : forall call, call ∈ calls -> call.Sized) :
    exists b, traceBufferInit size true = .ok b ∧
      let last := (answers callBuffer b calls).2
      let q := (answers (callQueue (size - 1)) [] calls).2
      (answers callBuffer b calls).1 =
          (answers (callQueue (size - 1)) [] calls).1 ∧
        window last.buffer size last.tail (traceBufferUsed last) = q ∧
        traceBufferUsed last + traceBufferFreeSpace last = size - 1 ∧
        forall data n, 0 < n -> n < 2 ^ 32 -> size - 1 < q.length + n ->
          traceBufferWrite last (some data) n = (0, last) := by
  have hinit : traceBufferInit size true =
      .ok { buffer := zeros, size := size, head := 0, tail := 0 } := by
    unfold traceBufferInit
    rw [if_neg (by omega), if_neg Bool.noConfusion]
  have hrun := (simulates hhigh).answers (holds_init hinit) calls hsized
  refine ⟨_, hinit, hrun.1, ?_, ?_, ?_⟩
  · show window _ size _ (traceBufferUsed _) = _
    rw [hrun.2.used hhigh, hrun.2.bytes]
  · have hheld := hrun.2.length_lt
    show traceBufferUsed _ + traceBufferFreeSpace _ = _
    rw [hrun.2.used hhigh, hrun.2.freeSpace hhigh]
    omega
  · intro data n hn _ hfull
    exact hrun.2.write_full hhigh data hn hfull

def wrapCalls : List Call :=
  [.write (fun i => UInt8.ofNat (i + 1)) 2, .read zeros 1,
    .write (fun _ => 9) 1, .read zeros 5]

theorem trace_buffer_refines_queue_wrap :
    exists b, traceBufferInit 3 true = .ok b ∧
      (answers callBuffer b wrapCalls).1 =
        (answers (callQueue 2) [] wrapCalls).1 := by
  have hsized : forall call, call ∈ wrapCalls -> call.Sized := by
    simp [wrapCalls, Call.Sized]
  obtain ⟨b, hinit, hanswers, -⟩ :=
    @trace_buffer_refines_queue 3 (by decide) (by omega) wrapCalls hsized
  exact ⟨b, hinit, hanswers⟩

end Trace
end Horizon
