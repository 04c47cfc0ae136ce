import Horizon.Fs.Ext2.Device

/-!
# Block and inode allocation

This module follows `ext2_new_block` and `ext2_free_block` of `util.c` and
`ext2_new_inode` and `ext2_free_inode` of `inode_alloc.c`.  Once a bit of a
bitmap is chosen, blocks and inodes are taken and released by the same steps:
write the bitmap, update the group descriptor and the superblock, and write
both back.
-/

namespace Horizon
namespace Ext2

open Bytes
open Bitmaps

def dec16 (n : Nat) : Nat := (n + (2 ^ 16 - 1)) % 2 ^ 16

def inc16 (n : Nat) : Nat := (n + 1) % 2 ^ 16

def dec32 (n : Nat) : Nat := (n + (2 ^ 32 - 1)) % 2 ^ 32

def inc32 (n : Nat) : Nat := (n + 1) % 2 ^ 32

def sub32 (a b : Nat) : Nat := (a + (2 ^ 32 - b)) % 2 ^ 32

section Bits

variable (r : Resource)

def recount (group : Nat) (f16 f32 : Nat -> Nat) (m : Mount) : Mount :=
  let g := m.groups group
  (m.setGroup group (g.setFree r (f16 (g.free r)))).setFree r (f32 (m.free r))

def takeBit (m : Mount) (group j : Nat) (bitmap : Buffer) : Bool × Mount :=
  match ext2WriteBlock m ((m.groups group).bitmap r) (bitSet bitmap j) with
  | (false, m) => (false, m)
  | (true, m) => ext2WriteSuper (recount r group dec16 dec32 m)

/-- The bodies of `ext2_free_block` and `ext2_free_inode`. -/
def releaseBit (m : Mount) (group index : Nat) : Except Errno Unit × Mount :=
  match kmallocFails m with
  | (true, m) => (Except.error Errno.enomem, m)
  | (false, m) =>
      match ext2ReadBlock m ((m.groups group).bitmap r) with
      | (none, m) => (Except.error Errno.eio, m)
      | (some bitmap, m) =>
          if bitTest bitmap index then
            match ext2WriteBlock m ((m.groups group).bitmap r)
                (bitClear bitmap index) with
            | (false, m) => (Except.error Errno.eio, m)
            | (true, m) =>
                match ext2WriteSuper (recount r group inc16 inc32 m) with
                | (false, m) => (Except.error Errno.eio, m)
                | (true, m) => (Except.ok (), m)
          else
            (Except.ok (), m)

end Bits

/-!
## Blocks
-/

def ext2NewBlockLoop : Nat -> Nat -> Mount -> Nat × Mount
  | 0, _, m => (0, m)
  | n + 1, i, m =>
      if (m.groups i).freeBlocksCount = 0 then
        ext2NewBlockLoop n (i + 1) m
      else
        match kmallocFails m with
        | (true, m) => (0, m)
        | (false, m) =>
            match ext2ReadBlock m (m.groups i).blockBitmap with
            | (none, m) => (0, m)
            | (some bitmap, m) =>
                match firstClear bitmap m.geo.blocksPerGroup 0 with
                | none => ext2NewBlockLoop n (i + 1) m
                | some j =>
                    match takeBit Resource.block m i j bitmap with
                    | (false, m) => (0, m)
                    | (true, m) =>
                        ((i * m.geo.blocksPerGroup + j +
                          m.geo.firstDataBlock) % 2 ^ 32, m)

def ext2NewBlock (m : Mount) : Nat × Mount :=
  if m.freeBlocks = 0 then (0, m)
  else ext2NewBlockLoop m.geo.groupsCount 0 m

def ext2FreeBlock (m : Mount) (block : Nat) : Except Errno Unit × Mount :=
  let rel := sub32 block m.geo.firstDataBlock
  releaseBit Resource.block m (rel / m.geo.blocksPerGroup)
    (rel % m.geo.blocksPerGroup)

/-!
## Inodes
-/

def ext2FindInodeGroup (m : Mount) : Nat -> Nat -> Option Nat
  | 0, _ => none
  | n + 1, i =>
      if (m.groups i).freeInodesCount > 0 then some i
      else ext2FindInodeGroup m n (i + 1)

/-- `blockGroup` is the `i_block_group` of the directory. -/
def ext2NewInode (m : Mount) (blockGroup : Nat) : Nat × Mount :=
  if m.freeInodes = 0 then (0, m)
  else
    let group :=
      if (m.groups blockGroup).freeInodesCount = 0 then
        (ext2FindInodeGroup m m.geo.groupsCount 0).getD blockGroup
      else blockGroup
    if (m.groups group).freeInodesCount = 0 then (0, m)
    else
      match kmallocFails m with
      | (true, m) => (0, m)
      | (false, m) =>
          match ext2ReadBlock m (m.groups group).inodeBitmap with
          | (none, m) => (0, m)
          | (some bitmap, m) =>
              match firstClear bitmap m.geo.inodesPerGroup 0 with
              | none => (0, m)
              | some i =>
                  match takeBit Resource.inode m group i bitmap with
                  | (false, m) => (0, m)
                  | (true, m) =>
                      ((group * m.geo.inodesPerGroup + i + 1) % 2 ^ 32, m)

def ext2FreeInode (m : Mount) (ino : Nat) : Except Errno Unit × Mount :=
  let rel := sub32 ino 1
  releaseBit Resource.inode m (rel / m.geo.inodesPerGroup)
    (rel % m.geo.inodesPerGroup)

end Ext2
end Horizon
