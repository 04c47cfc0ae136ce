import Horizon.Lib.Bitmap

/-!
# The mounted file system

This module follows the block layer of `kernel/fs/ext2`: the in-memory
superblock, the block transfers of `ext2.c` and `ext2_write_super`.

`device_read` and `device_write` are declared and defined nowhere in the tree.
A call either transfers the whole request or fails and transfers nothing; which
of the two happens is decided by a list of outcomes that the mount carries,
and so is the outcome of each `kmalloc`.  An exhausted list means that the
remaining calls succeed.
-/

namespace Horizon
namespace Ext2

open Bytes

inductive Errno where
  | enoent
  | eio
  | enomem
  | eexist
  | enotdir
  | einval
  | enametoolong
  | enospc
  | enotempty
  | erofs
  | ebadf
deriving DecidableEq, Repr

/-- The two kinds of bitmap a block group has. -/
inductive Resource where
  | block
  | inode
deriving DecidableEq

/-- The parameters `ext2_mount` computes from the superblock. -/
structure Geometry where
  blockSize : Nat
  blocksPerGroup : Nat
  inodesPerGroup : Nat
  descPerBlock : Nat
  groupsCount : Nat
  firstDataBlock : Nat
  inodeSize : Nat
deriving DecidableEq

def Geometry.perGroup (geo : Geometry) : Resource -> Nat
  | Resource.block => geo.blocksPerGroup
  | Resource.inode => geo.inodesPerGroup

def Geometry.gdescBlocks (geo : Geometry) : Nat :=
  (geo.groupsCount + geo.descPerBlock - 1) / geo.descPerBlock

/-- `rest` holds the bytes from `bg_used_dirs_count` on. -/
structure GroupDesc where
  blockBitmap : Nat
  inodeBitmap : Nat
  inodeTable : Nat
  freeBlocksCount : Nat
  freeInodesCount : Nat
  rest : Buffer

namespace GroupDesc

def bitmap (g : GroupDesc) : Resource -> Nat
  | Resource.block => g.blockBitmap
  | Resource.inode => g.inodeBitmap

def free (g : GroupDesc) : Resource -> Nat
  | Resource.block => g.freeBlocksCount
  | Resource.inode => g.freeInodesCount

def setFree (g : GroupDesc) : Resource -> Nat -> GroupDesc
  | Resource.block, n => { g with freeBlocksCount := n }
  | Resource.inode, n => { g with freeInodesCount := n }

def encode (g : GroupDesc) : Buffer :=
  putU16 (putU16 (putU32 (putU32 (putU32 g.rest 0 g.blockBitmap)
    4 g.inodeBitmap) 8 g.inodeTable) 12 g.freeBlocksCount)
    14 g.freeInodesCount

end GroupDesc

/--
The superblock objects of a mount.  `es` holds the bytes of the ext2
superblock other than its two free counters.
-/
structure Mount where
  geo : Geometry
  readOnly : Bool
  dev : Buffer
  groups : Nat -> GroupDesc
  freeBlocks : Nat
  freeInodes : Nat
  es : Buffer
  io : List Bool
  mem : List Bool

namespace Mount

@[simps] def setDev (m : Mount) (dev : Buffer) : Mount :=
  { m with dev := dev }

@[simps] def setIo (m : Mount) (io : List Bool) : Mount :=
  { m with io := io }

@[simps] def setMem (m : Mount) (mem : List Bool) : Mount :=
  { m with mem := mem }

@[simps] def setGroup (m : Mount) (i : Nat) (g : GroupDesc) : Mount :=
  { m with groups := Function.update m.groups i g }

@[simps] def setFreeBlocks (m : Mount) (n : Nat) : Mount :=
  { m with freeBlocks := n }

@[simps] def setFreeInodes (m : Mount) (n : Nat) : Mount :=
  { m with freeInodes := n }

def free (m : Mount) : Resource -> Nat
  | Resource.block => m.freeBlocks
  | Resource.inode => m.freeInodes

def setFree (m : Mount) : Resource -> Nat -> Mount
  | Resource.block, n => m.setFreeBlocks n
  | Resource.inode, n => m.setFreeInodes n

/-- The bytes of `s_group_desc`, an array of 32-byte descriptors. -/
def groupBytes (m : Mount) : Buffer := fun a =>
  (m.groups (a / 32)).encode (a % 32)

def superBytes (m : Mount) : Buffer :=
  putU32 (putU32 m.es 12 m.freeBlocks) 16 m.freeInodes

end Mount

/-!
## Outcomes
-/

def deviceFault (m : Mount) : Bool × Mount :=
  match m.io with
  | [] => (false, m)
  | fault :: rest => (fault, m.setIo rest)

def kmallocFails (m : Mount) : Bool × Mount :=
  match m.mem with
  | [] => (false, m)
  | fails :: rest => (fails, m.setMem rest)

/-!
## Transfers

The byte offset of a block is the 32-bit product of the block number and the
block size, which `ext2_read_block` and `ext2_write_block` widen only after the
multiplication.
-/

def blockOffset (m : Mount) (block : Nat) : Nat :=
  block * m.geo.blockSize % 2 ^ 32

def deviceRead (m : Mount) (offset : Nat) : Option Buffer × Mount :=
  match deviceFault m with
  | (true, m) => (none, m)
  | (false, m) => (some fun i => m.dev (offset + i), m)

def deviceWrite (m : Mount) (buffer : Buffer) (size offset : Nat) :
    Bool × Mount :=
  match deviceFault m with
  | (true, m) => (false, m)
  | (false, m) => (true, m.setDev (memcpy m.dev offset buffer 0 size))

def ext2ReadBlock (m : Mount) (block : Nat) : Option Buffer × Mount :=
  deviceRead m (blockOffset m block)

def ext2WriteBlock (m : Mount) (block : Nat) (buffer : Buffer) : Bool × Mount :=
  deviceWrite m buffer m.geo.blockSize (blockOffset m block)

/-- The loop of `ext2_write_super` over the descriptor blocks. -/
def ext2WriteGroups (gdescBlock : Nat) : Nat -> Nat -> Mount -> Bool × Mount
  | 0, _, m => (true, m)
  | n + 1, i, m =>
      let bytes : Buffer := fun a => m.groupBytes (i * m.geo.blockSize + a)
      match ext2WriteBlock m (gdescBlock + i) bytes with
      | (false, m) => (false, m)
      | (true, m) => ext2WriteGroups gdescBlock n (i + 1) m

def ext2WriteSuper (m : Mount) : Bool × Mount :=
  match deviceWrite m m.superBytes 1024 1024 with
  | (false, m) => (false, m)
  | (true, m) =>
      ext2WriteGroups (m.geo.firstDataBlock + 1) m.geo.gdescBlocks 0 m

end Ext2
end Horizon
