import Horizon.Fs.Ext2.BlockMap

/-!
# Reading and writing files

This module follows `ext2_read` and `ext2_write` of `file.c`.  Both walk over
the blocks of the range; the first block starts at an offset and the last one
ends before its end, and when the two are the same block both corrections meet.

`size_t` has 32 bits, so the counts of transferred bytes wrap there, and a
count of 2 GiB or more comes out negative in the `ssize_t` that is returned.
The counter of the loops has 32 bits as well: the loops below stop after the
last block, which is what the code does for every last block but `0xFFFFFFFF`.
-/

namespace Horizon
namespace Ext2

open Bytes

/-- The fields of a `file_t` that the two calls use. -/
structure File where
  flags : Nat
  position : Nat
  inode : Inode

@[simps] def File.setPosition (file : File) (position : Nat) : File :=
  { file with position := position }

/-- A `size_t` returned as an `ssize_t`. -/
def ssize (n : Nat) : Int :=
  if n < 2 ^ 31 then n else (n : Int) - 2 ^ 32

def dec64 (n : Nat) : Nat := (n + (2 ^ 64 - 1)) % 2 ^ 64

/-- The blocks that a transfer of `bytes` bytes at `position` meets. -/
structure Range where
  startBlock : Nat
  startOffset : Nat
  endBlock : Nat
  stop : Nat

def range (m : Mount) (position bytes : Nat) : Range where
  startBlock := position / m.geo.blockSize % 2 ^ 32
  startOffset := position % m.geo.blockSize
  endBlock := dec64 (position + bytes) / m.geo.blockSize % 2 ^ 32
  stop := position + bytes

def Range.passes (r : Range) : Nat := r.endBlock + 1 - r.startBlock

def Range.offset (r : Range) (block : Nat) : Nat :=
  if block = r.startBlock then r.startOffset else 0

structure Transfer where
  result : Except Errno Int
  buffer : Buffer
  file : File
  mount : Mount

/-!
## Reading
-/

def readFileBlock (m : Mount) (inode : Inode) (block : Nat) :
    Option Buffer × Mount :=
  match ext2GetBlock m inode block with
  | (phys, m) =>
      if phys = 0 then (some zeros, m) else ext2ReadBlock m phys

def Range.readCount (r : Range) (blockSize block : Nat) : Nat :=
  if block = r.endBlock then
    (r.stop - block * blockSize % 2 ^ 32) % 2 ^ 32
  else blockSize - r.offset block

def ext2ReadLoop (inode : Inode) (r : Range) :
    Nat -> Nat -> Nat -> Buffer -> Mount -> Except Errno Nat × Buffer × Mount
  | 0, _, done, buffer, m => (Except.ok done, buffer, m)
  | n + 1, block, done, buffer, m =>
      match readFileBlock m inode block with
      | (none, m) => (Except.error Errno.eio, buffer, m)
      | (some data, m) =>
          let count := r.readCount m.geo.blockSize block
          ext2ReadLoop inode r n (block + 1) ((done + count) % 2 ^ 32)
            (memcpy buffer done data (r.offset block) count) m

def readDone (file : File) : Except Errno Nat × Buffer × Mount -> Transfer
  | (Except.error e, buffer, m) => ⟨Except.error e, buffer, file, m⟩
  | (Except.ok done, buffer, m) =>
      ⟨Except.ok (ssize done), buffer,
        file.setPosition (file.position + done), m⟩

def ext2Read (m : Mount) (file : File) (buffer : Buffer) (size : Nat) :
    Transfer :=
  if file.flags &&& 1 = 0 then
    ⟨Except.error Errno.ebadf, buffer, file, m⟩
  else if file.position >= file.inode.size then
    ⟨Except.ok 0, buffer, file, m⟩
  else
    let toRead :=
      if file.position + size > file.inode.size then
        (file.inode.size - file.position) % 2 ^ 32
      else size
    let r := range m file.position toRead
    match kmallocFails m with
    | (true, m) => ⟨Except.error Errno.enomem, buffer, file, m⟩
    | (false, m) =>
        readDone file
          (ext2ReadLoop file.inode r r.passes r.startBlock 0 buffer m)

/-!
## Writing
-/

@[simps] def Inode.setSize (inode : Inode) (size : Nat) : Inode :=
  { inode with size := size }

end Ext2
end Horizon
