import Horizon.Fs.Ext2.Layout

/-!
# Inodes on disk

This module follows `ext2_read_inode` and `ext2_write_inode` of `inode.c`.  An
inode number is located by chained division and remainder: its group, its index
in the group, its block of the inode table and its offset in that block.
-/

namespace Horizon
namespace Ext2

open Bytes

inductive FileType where
  | regular
  | directory
  | charDevice
  | blockDevice
  | pipe
  | symlink
  | socket
deriving DecidableEq

namespace FileType

def mode : FileType -> Nat
  | regular => 0x8000
  | directory => 0x4000
  | symlink => 0xA000
  | blockDevice => 0x6000
  | charDevice => 0x2000
  | pipe => 0x1000
  | socket => 0xC000

def ofMode (mode : Nat) : FileType :=
  if mode &&& 0xF000 = 0x8000 then regular
  else if mode &&& 0xF000 = 0x4000 then directory
  else if mode &&& 0xF000 = 0xA000 then symlink
  else if mode &&& 0xF000 = 0x6000 then blockDevice
  else if mode &&& 0xF000 = 0x2000 then charDevice
  else if mode &&& 0xF000 = 0x1000 then pipe
  else if mode &&& 0xF000 = 0xC000 then socket
  else regular

end FileType

/--
A VFS inode with its ext2 part.  `data` is `i_data`, of which the first 15
entries exist, and `e2i` holds the 128 bytes of `i_e2i`.
-/
structure Inode where
  num : Nat
  type : FileType
  permissions : Nat
  uid : Nat
  gid : Nat
  size : Nat
  blocks : Nat
  atime : Nat
  mtime : Nat
  ctime : Nat
  links : Nat
  blockGroup : Nat
  data : Nat -> Nat
  flags : Nat
  faddr : Nat
  fileAcl : Nat
  dirAcl : Nat
  dtime : Nat
  e2i : Buffer

/-- A zeroed inode with its number set, as `ext2_lookup` prepares it. -/
def blankInode (num : Nat) : Inode where
  num := num
  type := FileType.regular
  permissions := 0
  uid := 0
  gid := 0
  size := 0
  blocks := 0
  atime := 0
  mtime := 0
  ctime := 0
  links := 0
  blockGroup := 0
  data _ := 0
  flags := 0
  faddr := 0
  fileAcl := 0
  dirAcl := 0
  dtime := 0
  e2i := zeros

/-!
## Location
-/

section Location

variable (m : Mount) (ino : Nat)

def inodeGroup : Nat := sub32 ino 1 / m.geo.inodesPerGroup

def inodeIndex : Nat := sub32 ino 1 % m.geo.inodesPerGroup

def inodeBlock : Nat :=
  ((m.groups (inodeGroup m ino)).inodeTable +
    inodeIndex m ino * m.geo.inodeSize % 2 ^ 32 / m.geo.blockSize) % 2 ^ 32

def inodeOffset : Nat :=
  inodeIndex m ino * m.geo.inodeSize % 2 ^ 32 % m.geo.blockSize

end Location

/-!
## Transfer
-/

/-- The fields `ext2_read_inode` sets from the bytes of an `ext2_inode_t`. -/
def Inode.load (inode : Inode) (group : Nat) (e2i : Buffer) : Inode :=
  { inode with
    type := FileType.ofMode (getU16 e2i 0)
    permissions := getU16 e2i 0 &&& 0xFFF
    uid := getU16 e2i 2
    gid := getU16 e2i 24
    size := getU32 e2i 4
    blocks := getU32 e2i 28
    atime := getU32 e2i 8
    mtime := getU32 e2i 16
    ctime := getU32 e2i 12
    links := getU16 e2i 26
    blockGroup := group
    data := fun i => getU32 e2i (40 + 4 * i)
    flags := getU32 e2i 32
    faddr := getU32 e2i 112
    fileAcl := getU32 e2i 104
    dirAcl := getU32 e2i 108
    dtime := getU32 e2i 20
    e2i := e2i }

def putBlocks (data : Nat -> Nat) : Nat -> Buffer -> Buffer
  | 0, b => b
  | i + 1, b => putU32 (putBlocks data i b) (40 + 4 * i) (data i)

/-- The 128 bytes that `ext2_write_inode` copies into the block. -/
def Inode.store (inode : Inode) : Buffer :=
  let b := putU16 inode.e2i 0
    (inode.type.mode ||| (inode.permissions &&& 0xFFF))
  let b := putU16 b 2 inode.uid
  let b := putU16 b 24 inode.gid
  let b := putU32 b 4 inode.size
  let b := putU32 b 28 inode.blocks
  let b := putU32 b 8 inode.atime
  let b := putU32 b 16 inode.mtime
  let b := putU32 b 12 inode.ctime
  let b := putU16 b 26 inode.links
  let b := putBlocks inode.data 15 b
  let b := putU32 b 32 inode.flags
  let b := putU32 b 112 inode.faddr
  let b := putU32 b 104 inode.fileAcl
  let b := putU32 b 108 inode.dirAcl
  putU32 b 20 inode.dtime

def ext2ReadInode (m : Mount) (inode : Inode) : Except Errno Inode × Mount :=
  match kmallocFails m with
  | (true, m) => (Except.error Errno.enomem, m)
  | (false, m) =>
      match ext2ReadBlock m (inodeBlock m inode.num) with
      | (none, m) => (Except.error Errno.eio, m)
      | (some buffer, m) =>
          match kmallocFails m with
          | (true, m) => (Except.error Errno.enomem, m)
          | (false, m) =>
              let e2i := memcpy zeros 0 buffer (inodeOffset m inode.num) 128
              (Except.ok (inode.load (inodeGroup m inode.num) e2i), m)

def ext2WriteInode (m : Mount) (inode : Inode) : Except Errno Unit × Mount :=
  match kmallocFails m with
  | (true, m) => (Except.error Errno.enomem, m)
  | (false, m) =>
      match ext2ReadBlock m (inodeBlock m inode.num) with
      | (none, m) => (Except.error Errno.eio, m)
      | (some buffer, m) =>
          let buffer :=
            memcpy buffer (inodeOffset m inode.num) inode.store 0 128
          match ext2WriteBlock m (inodeBlock m inode.num) buffer with
          | (false, m) => (Except.error Errno.eio, m)
          | (true, m) => (Except.ok (), m)

end Ext2
end Horizon
