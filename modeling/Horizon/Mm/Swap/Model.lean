import Horizon.Lib.Bitmap
import Horizon.Lib.ByteFile
import Horizon.Mm.Swap.Compress

/-!
# Swap areas

This module follows `swap_add`, `swap_remove`, `swap_alloc`, `swap_free`,
`swap_write` and `swap_read` of `swap.c` and `swap_compress_set_algo` of
`swap_compress.c`.  The file system is taken at its word: an open file is a byte
array with a position.  Statistics and locks are left out.
-/

namespace Horizon
namespace Swap

open Function Bytes
open Bitmaps
open ByteFile

def maxSwapAreas : Nat := 8

abbrev Path := List UInt8

/-- An open file: the file on disk, and the position in it. -/
structure File where
  node : Nat
  position : Nat

/--
`file` is the pointer to the open file.  Bit `j % 32` of word
`j / 32` of the bitmap is bit `j % 8` of byte `j / 8`.
-/
structure Area where
  path : Path
  file : Nat
  size : Nat
  used : Nat
  bitmap : Buffer

/--
The variables of `swap.c` and the current algorithm; the open files and the
contents of the files; what `fs_open` finds under a path; and the outcomes of
the coming calls of `kmalloc`, `true` for a failure.
-/
structure State where
  areas : List Area
  algo : Algo
  files : Nat -> File
  nextFile : Nat
  nodes : Nat -> Data
  lookup : Path -> Option Nat
  mem : List Bool

/-!
## Files and memory
-/

def kmallocFails (s : State) : Bool × State :=
  (s.mem.headD false, { s with mem := s.mem.tail })

def fsSeek (s : State) (file offset : Nat) : State :=
  { s with
    files := update s.files file
      { s.files file with position := offset } }

def fsWrite (s : State) (file : Nat) (l : List UInt8) : State :=
  let f := s.files file
  { s with
    files := update s.files file
      { f with position := f.position + l.length }
    nodes := update s.nodes f.node
      ((s.nodes f.node).write f.position l) }

def fsRead (s : State) (file n : Nat) : List UInt8 × State :=
  let f := s.files file
  let l := (s.nodes f.node).read f.position n
  (l, { s with
    files := update s.files file
      { f with position := f.position + l.length } })

/-!
## Areas
-/

def swapAdd (s : State) (path : Path) (size : Nat) :
    Except Errno Unit × State :=
  if size = 0 then (Except.error Errno.einval, s)
  else if s.areas.length >= maxSwapAreas then (Except.error Errno.enomem, s)
  else
    match s.lookup path with
    | none => (Except.error Errno.enoent, s)
    | some node =>
        let file := s.nextFile
        let s := { s with
          files := update s.files file { node := node, position := 0 }
          nextFile := file + 1 }
        match kmallocFails s with
        | (true, s) => (Except.error Errno.enomem, s)
        | (false, s) =>
            (Except.ok (), { s with
              areas := s.areas ++ [{
                path := path.take 255
                file := file
                size := size / pageSize
                used := 0
                bitmap := zeros }] })

def swapRemove (s : State) (path : Path) : Except Errno Unit × State :=
  match s.areas.findIdx? (fun area => area.path = path) with
  | none => (Except.error Errno.enoent, s)
  | some i =>
      match s.areas[i]? with
      | none => (Except.error Errno.enoent, s)
      | some area =>
          if area.used > 0 then (Except.error Errno.ebusy, s)
          else (Except.ok (), { s with areas := s.areas.eraseIdx i })

/-!
## Entries
-/

/-- `(i << 24) | j` -/
def entryOf (i j : Nat) : Nat := ((i <<< 24) % 2 ^ 32) ||| j

def swapAllocLoop : List Area -> Nat -> Option (Nat × Nat)
  | [], _ => none
  | area :: rest, i =>
      if area.used >= area.size then swapAllocLoop rest (i + 1)
      else
        match firstClear area.bitmap area.size 0 with
        | some j => some (i, j)
        | none => swapAllocLoop rest (i + 1)

def Area.take (area : Area) (j : Nat) : Area :=
  { area with bitmap := bitSet area.bitmap j, used := area.used + 1 }

def Area.release (area : Area) (j : Nat) : Area :=
  { area with bitmap := bitClear area.bitmap j, used := area.used - 1 }

/-- Zero stands for failure. -/
def swapAlloc (s : State) : Nat × State :=
  match swapAllocLoop s.areas 0 with
  | none => (0, s)
  | some (i, j) =>
      (entryOf i j, { s with areas := s.areas.modify i fun a => a.take j })

def areaIndex (entry : Nat) : Nat := (entry >>> 24) &&& 0xFF

def pageIndex (entry : Nat) : Nat := entry &&& 0xFFFFFF

/-- The checks of an entry: the area and the page, if the page is allocated. -/
def designated (s : State) (entry : Nat) : Option (Area × Nat) :=
  if entry = 0 then none
  else
    match s.areas[areaIndex entry]? with
    | none => none
    | some area =>
        if pageIndex entry >= area.size then none
        else if bitTest area.bitmap (pageIndex entry) then
          some (area, pageIndex entry)
        else none

def swapFree (s : State) (entry : Nat) : Except Errno Unit × State :=
  match designated s entry with
  | none => (Except.error Errno.einval, s)
  | some (_, page) =>
      (Except.ok (), { s with
        areas := s.areas.modify (areaIndex entry) fun a => a.release page })

/-- The offset of a page in its file, a 32-bit product. -/
def pageOffset (page : Nat) : Nat := page * pageSize % 2 ^ 32

def swapWrite (s : State) (entry : Nat) (data : List UInt8) :
    Except Errno Unit × State :=
  match designated s entry with
  | none => (Except.error Errno.einval, s)
  | some (area, page) =>
      match kmallocFails s with
      | (true, s) => (Except.error Errno.enomem, s)
      | (false, s) =>
          let buffer :=
            match swapCompressPage s.algo data (2 * pageSize) with
            | Except.ok dst => dst
            | Except.error _ => data
          let s := fsSeek s area.file (pageOffset page)
          let s := fsWrite s area.file (toBytes 4 buffer.length)
          (Except.ok (), fsWrite s area.file buffer)

def unpack (algo : Algo) (buffer : List UInt8) :
    Except Errno (List UInt8) :=
  match swapDecompressPage algo buffer pageSize with
  | Except.ok data =>
      if data.length = pageSize then Except.ok data
      else Except.error Errno.eio
  | Except.error _ => Except.error Errno.eio

def swapRead (s : State) (entry : Nat) :
    Except Errno (List UInt8) × State :=
  match designated s entry with
  | none => (Except.error Errno.einval, s)
  | some (area, page) =>
      let (header, s) := fsRead (fsSeek s area.file (pageOffset page))
        area.file 4
      if header.length ≠ 4 then (Except.error Errno.eio, s)
      else if ofBytes header = pageSize then
        let (data, s) := fsRead s area.file pageSize
        if data.length ≠ pageSize then (Except.error Errno.eio, s)
        else (Except.ok data, s)
      else if ofBytes header = 0 then (Except.error Errno.enomem, s)
      else
        match kmallocFails s with
        | (true, s) => (Except.error Errno.enomem, s)
        | (false, s) =>
            let (buffer, s) := fsRead s area.file (ofBytes header)
            if buffer.length ≠ ofBytes header then (Except.error Errno.eio, s)
            else (unpack s.algo buffer, s)

def swapCompressSetAlgo (s : State) (algo : Algo) : State :=
  { s with algo := algo }

end Swap
end Horizon
