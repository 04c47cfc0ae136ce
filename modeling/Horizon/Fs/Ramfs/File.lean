import Horizon.Lib.Bytes
import Horizon.Lib.Transition

/-!
# Files of the RAM file system

This module follows `ramfs_file_read` and `ramfs_file_write` of `file.c` and the
change of size in `ramfs_setattr` of `inode.c`, with the `krealloc` of
`mm/slab.c`.  Positions are 64-bit numbers with a sign, sizes and pointers have
32 bits.  A block of memory is known to have the bytes that were asked for; an
access past them is not given a result.
-/

namespace Horizon
namespace Ramfs

open Bytes

structure Block where
  size : Nat
  bytes : Buffer

structure File where
  data : Option Block
  size : Nat

def ramfsAllocInode : File where
  data := none
  size := 0

def wrap64 (i : Int) : Int := Int.bmod i (2 ^ 64)

/-- A 64-bit number that is taken for a `size_t`, or added to a pointer. -/
def asSize (i : Int) : Nat := (i % 2 ^ 32).toNat

/-! ## Memory -/

/-- `kmalloc`, which fails or returns memory with any contents. -/
def kmalloc (size : Nat) (memory : Option Buffer) : Option Block :=
  if size = 0 then none
  else
    match memory with
    | none => none
    | some bytes => some ⟨size, bytes⟩

/-- What `krealloc` copies of the old block: the old size is not known. -/
def oldSize : Nat := 0

/-- `krealloc` with what is left behind the old pointer. -/
def krealloc (ptr : Option Block) (size : Nat) (memory : Option Buffer) :
    Option Block × Option Block :=
  match ptr with
  | none => (kmalloc size memory, none)
  | some old =>
      if size = 0 then (none, some ⟨0, old.bytes⟩)
      else
        match kmalloc size memory with
        | none => (none, some old)
        | some new =>
            (some { new with
              bytes := memcpy new.bytes 0 old.bytes 0 (min oldSize size) },
              some ⟨0, old.bytes⟩)

def store (ptr : Option Block) (off : Nat) (src : Buffer) (n : Nat) :
    Option (Option Block) :=
  if n = 0 then some ptr
  else
    match ptr with
    | none => none
    | some b =>
        if off + n <= b.size then
          some (some { b with bytes := memcpy b.bytes off src 0 n })
        else none

def listBuffer (l : List UInt8) : Buffer := fun i => l.getD i 0

/-! ## Calls -/

def ramfsFileRead (f : File) (pos : Int) (count : Nat) : Option (List UInt8) :=
  if pos < 0 ∨ f.size < pos then some []
  else
    let bytes :=
      if f.size < wrap64 (pos + count) then asSize (f.size - pos) else count
    if bytes = 0 then some []
    else
      match f.data with
      | none => none
      | some b =>
          if asSize pos + bytes <= b.size then
            some ((List.range bytes).map fun i => b.bytes (asSize pos + i))
          else none

def copyIn (f : File) (pos : Int) (buf : List UInt8) :
    Option (Option Nat × File) :=
  match store f.data (asSize pos) (listBuffer buf) buf.length with
  | none => none
  | some data => some (some buf.length, { f with data := data })

/-- `ramfs_file_write` with the number of bytes it returns, none for -1. -/
def ramfsFileWrite (f : File) (pos : Int) (buf : List UInt8)
    (memory : Option Buffer) : Option (Option Nat × File) :=
  if pos < 0 then some (none, f)
  else
    let stop := wrap64 (pos + buf.length)
    if f.size < stop then
      match krealloc f.data (asSize stop) memory with
      | (none, old) => some (none, { f with data := old })
      | (some new, _) =>
          match (if f.size < pos then
              store (some new) f.size zeros (asSize (pos - f.size))
            else some (some new)) with
          | none => none
          | some data => copyIn ⟨data, asSize stop⟩ pos buf
    else copyIn f pos buf

/-- The change of size in `ramfs_setattr`, and whether it succeeds. -/
def ramfsSetattr (f : File) (iaSize : Int) (memory : Option Buffer) :
    Option (Bool × File) :=
  if iaSize < f.size then some (true, { f with size := asSize iaSize })
  else if f.size < iaSize then
    match krealloc f.data (asSize iaSize) memory with
    | (none, old) => some (false, { f with data := old })
    | (some new, _) =>
        match store (some new) f.size zeros (asSize (iaSize - f.size)) with
        | none => none
        | some data => some (true, ⟨data, asSize iaSize⟩)
  else some (true, f)

/-! ## Runs -/

/-- What a successful call has done to the file. -/
inductive Change where
  | write (pos : Nat) (bytes : List UInt8)
  | setSize (size : Nat)

/-- The last value written at an offset since the file was last truncated below
it, and zero if there is none; the latest change comes first. -/
def lastValue : List Change -> Buffer
  | [], _ => 0
  | Change.write pos bytes :: log, p =>
      if pos <= p ∧ p < pos + bytes.length then bytes.getD (p - pos) 0
      else lastValue log p
  | Change.setSize size :: log, p => if size <= p then 0 else lastValue log p

def logSize : List Change -> Nat
  | [] => 0
  | Change.write pos bytes :: log => max (logSize log) (pos + bytes.length)
  | Change.setSize size :: _ => size

structure History where
  file : File
  log : List Change

inductive Call where
  | write (pos : Int) (buf : List UInt8) (memory : Option Buffer)
  | setSize (size : Int) (memory : Option Buffer)

def next (h : History) : Call -> Option History
  | Call.write pos buf memory =>
      match ramfsFileWrite h.file pos buf memory with
      | none => none
      | some (none, f) => some { h with file := f }
      | some (some _, f) => some ⟨f, Change.write pos.toNat buf :: h.log⟩
  | Call.setSize size memory =>
      match ramfsSetattr h.file size memory with
      | none => none
      | some (false, f) => some { h with file := f }
      | some (true, f) => some ⟨f, Change.setSize size.toNat :: h.log⟩

end Ramfs
end Horizon
