import Horizon.Fs.Ext2.File
import Horizon.Lib.RecordChain

/-!
# Directory entries

This module follows `dir_entry.c` and `ext2_lookup` of `dir.c`.  A directory is
a file whose blocks hold records of the form `ext2_dir_entry_t`: the number of
an inode at 0, the length of the record at 4, the length of the name at 6, the
type of the file at 7, and the name at 8.  A record with inode zero is free.

The loop over the records of a block ends only if no record has length zero;
a result `none` below stands for a call that does not return.  A name is given
by its bytes before the terminating zero.
-/

namespace Horizon
namespace Ext2

open Bytes RecordChain

abbrev Name := List UInt8

/-!
## Records
-/

def entryInode (b : Buffer) (off : Nat) : Nat := getU32 b off

def recLen (b : Buffer) (off : Nat) : Nat := getU16 b (off + 4)

def nameLen (b : Buffer) (off : Nat) : Nat := (b (off + 6)).toNat

def entryName (b : Buffer) (off : Nat) : Name :=
  (List.range (nameLen b off)).map fun i => b (off + 8 + i)

/--
The size of a record with a name of the given length.  `sizeof` rounds the 263
bytes of an `ext2_dir_entry_t` up to 264, so `sizeof - 255` is 9.
-/
def entrySize (n : Nat) : Nat := (9 + n + 3) / 4 * 4

def FileType.entryType : FileType -> Nat
  | FileType.regular => 1
  | FileType.directory => 2
  | FileType.charDevice => 3
  | FileType.blockDevice => 4
  | FileType.pipe => 5
  | FileType.socket => 6
  | FileType.symlink => 7

def hasName (name : Name) (b : Buffer) (off : Nat) : Bool :=
  entryInode b off != 0 && entryName b off == name

/-- The test of `ext2_lookup`, which passes over records of length zero. -/
def isEntry (name : Name) (b : Buffer) (off : Nat) : Bool :=
  recLen b off != 0 && hasName name b off

/-- The record is free, or has room for a record of the given size. -/
def hasRoom (size : Nat) (b : Buffer) (off : Nat) : Bool :=
  entryInode b off == 0 ||
    decide (size + entrySize (nameLen b off) <= recLen b off)

def fillEntry (b : Buffer) (off ino : Nat) (name : Name) (type : FileType) :
    Buffer :=
  let b := putU32 b off ino
  let b := putU8 b (off + 6) name.length
  let b := putU8 b (off + 7) type.entryType
  memcpy b (off + 8) (fun i => name.getD i 0) 0 name.length

/-- The new entry takes the place of a free record, or the end of one in use. -/
def addAt (b : Buffer) (off ino : Nat) (name : Name) (type : FileType) :
    Buffer :=
  let actualSize := entrySize (nameLen b off)
  let freeSpace := recLen b off - actualSize
  if entryInode b off ≠ 0 then
    let b := putU16 b (off + 4) actualSize
    let b := putU16 b (off + actualSize + 4) freeSpace
    fillEntry b (off + actualSize) ino name type
  else fillEntry b off ino name type

/-- The entry becomes part of the record before it, or a free first record. -/
def removeAt (b : Buffer) (prev : Option Nat) (off : Nat) : Buffer :=
  match prev with
  | some prev => putU16 b (prev + 4) (recLen b prev + recLen b off)
  | none => putU32 b off 0

def scanBlock (blockSize : Nat) (p : Buffer -> Nat -> Bool) (b : Buffer) :
    Option (Option (Option Nat × Nat)) :=
  scan (recLen b) blockSize (p b) (blockSize + 1) none 0

/-!
## Directories
-/

def numBlocks (m : Mount) (dir : Inode) : Nat :=
  (dir.size + m.geo.blockSize - 1) / m.geo.blockSize % 2 ^ 32

/--
The inode number that the loops of `ext2_lookup` find, `n` being the
number of blocks that are left.
-/
def ext2LookupLoop (dir : Inode) (name : Name) :
    Nat -> Nat -> Mount -> Option (Option Nat × Mount)
  | 0, _, m => some (none, m)
  | n + 1, block, m =>
      match ext2GetBlock m dir block with
      | (phys, m) =>
          if phys = 0 then ext2LookupLoop dir name n (block + 1) m
          else
            match ext2ReadBlock m phys with
            | (none, m) => some (none, m)
            | (some b, m) =>
                match scanBlock m.geo.blockSize (isEntry name) b with
                | none => none
                | some none => ext2LookupLoop dir name n (block + 1) m
                | some (some (_, off)) => some (some (entryInode b off), m)

/-- The block of a directory to add an entry to; a hole becomes a free record. -/
def entryBlock (m : Mount) (dir : Inode) (block : Nat) :
    Except Errno (Nat × Buffer) × Inode × Mount :=
  match ext2GetBlock m dir block with
  | (phys, m) =>
      if phys = 0 then
        match ext2AllocBlock m dir block with
        | (phys, dir, m) =>
            if phys = 0 then (Except.error Errno.enospc, dir, m)
            else
              let b := putU16 zeros 4 m.geo.blockSize
              match ext2WriteBlock m phys b with
              | (false, m) => (Except.error Errno.eio, dir, m)
              | (true, m) => (Except.ok (phys, b), dir, m)
      else
        match ext2ReadBlock m phys with
        | (none, m) => (Except.error Errno.eio, dir, m)
        | (some b, m) => (Except.ok (phys, b), dir, m)

/-- The end of a successful `ext2_add_entry`: the directory covers the block. -/
def growDir (m : Mount) (dir : Inode) (size : Nat) : Inode × Mount :=
  if size > dir.size then
    let dir := dir.setSize size
    (dir, (ext2WriteInode m dir).2)
  else (dir, m)

/-- What a call that changes a directory leaves behind. -/
abbrev DirResult := Option (Except Errno Unit × Inode × Mount)

/-- The last part of `ext2_add_entry`, after its loop found no room. -/
def addBlock (m : Mount) (dir : Inode) (name : Name) (ino : Nat)
    (type : FileType) : Except Errno Unit × Inode × Mount :=
  let blocks := numBlocks m dir
  match ext2AllocBlock m dir blocks with
  | (phys, dir, m) =>
      if phys = 0 then (Except.error Errno.enospc, dir, m)
      else
        let b := fillEntry (putU16 zeros 4 m.geo.blockSize) 0 ino name type
        match ext2WriteBlock m phys b with
        | (false, m) => (Except.error Errno.eio, dir, m)
        | (true, m) =>
            let dir := dir.setSize ((blocks + 1) * m.geo.blockSize % 2 ^ 32)
            (Except.ok (), dir, (ext2WriteInode m dir).2)

def ext2AddEntryLoop (name : Name) (ino : Nat) (type : FileType) :
    Nat -> Nat -> Inode -> Mount -> DirResult
  | 0, _, dir, m => some (addBlock m dir name ino type)
  | n + 1, block, dir, m =>
      match entryBlock m dir block with
      | (Except.error e, dir, m) => some (Except.error e, dir, m)
      | (Except.ok (phys, b), dir, m) =>
          match scanBlock m.geo.blockSize (hasRoom (entrySize name.length)) b
          with
          | none => none
          | some none => ext2AddEntryLoop name ino type n (block + 1) dir m
          | some (some (_, off)) =>
              match ext2WriteBlock m phys (addAt b off ino name type) with
              | (false, m) => some (Except.error Errno.eio, dir, m)
              | (true, m) =>
                  let size := (block * m.geo.blockSize + m.geo.blockSize) %
                    2 ^ 32
                  match growDir m dir size with
                  | (dir, m) => some (Except.ok (), dir, m)

def checkEntry (dir : Inode) (name : Name) : Except Errno Unit :=
  if dir.type ≠ FileType.directory then Except.error Errno.enotdir
  else if name = [] then Except.error Errno.einval
  else if name.length > 255 then Except.error Errno.enametoolong
  else Except.ok ()

def ext2AddEntry (m : Mount) (dir : Inode) (name : Name) (ino : Nat)
    (type : FileType) : DirResult :=
  match checkEntry dir name with
  | Except.error e => some (Except.error e, dir, m)
  | Except.ok () =>
      match kmallocFails m with
      | (true, m) => some (Except.error Errno.enomem, dir, m)
      | (false, m) => ext2AddEntryLoop name ino type (numBlocks m dir) 0 dir m

def ext2RemoveEntryLoop (dir : Inode) (name : Name) :
    Nat -> Nat -> Mount -> Option (Except Errno Unit × Mount)
  | 0, _, m => some (Except.error Errno.enoent, m)
  | n + 1, block, m =>
      match ext2GetBlock m dir block with
      | (phys, m) =>
          if phys = 0 then ext2RemoveEntryLoop dir name n (block + 1) m
          else
            match ext2ReadBlock m phys with
            | (none, m) => some (Except.error Errno.eio, m)
            | (some b, m) =>
                match scanBlock m.geo.blockSize (hasName name) b with
                | none => none
                | some none => ext2RemoveEntryLoop dir name n (block + 1) m
                | some (some (prev, off)) =>
                    match ext2WriteBlock m phys (removeAt b prev off) with
                    | (false, m) => some (Except.error Errno.eio, m)
                    | (true, m) => some (Except.ok (), m)

def ext2RemoveEntry (m : Mount) (dir : Inode) (name : Name) :
    Option (Except Errno Unit × Mount) :=
  match checkEntry dir name with
  | Except.error e => some (Except.error e, m)
  | Except.ok () =>
      match kmallocFails m with
      | (true, m) => some (Except.error Errno.enomem, m)
      | (false, m) => ext2RemoveEntryLoop dir name (numBlocks m dir) 0 m

end Ext2
end Horizon
