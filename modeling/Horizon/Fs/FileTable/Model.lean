import Horizon.Lib.WordBits
import Horizon.Lib.Transition
import Horizon.Types

/-!
# File tables

The file table of `file_table.c`.  A table starts with arrays inside of its own
structure: 64 slots, but one word for each bitmap.  The word of
`close_on_exec_init` is followed by the one of `open_fds_init`, and that by the
unused rest of the 512 bytes that the structure of 324 bytes was allocated in,
which is zero.  Calls that leave an array have no result.
-/

namespace Horizon
namespace FileTable

open WordBits

/-- The address of an open file. -/
abbrev File := Nat

def nrOpenDefault : Nat := 64

def nrOpenMax : Nat := 1024

/-- The words from `close_on_exec_init` to the end of the memory. -/
def inlineWords : Nat := 49

inductive Bitmaps where
  | inline (word : Words)
  | grown (words : Nat) (closeOnExec openFds : Words)

def Bitmaps.size : Bitmaps -> Nat
  | Bitmaps.inline _ => 32
  | Bitmaps.grown words _ _ => 32 * words

/-- A number of words of each bitmap can be accessed. -/
def Bitmaps.Reaches (n : Nat) : Bitmaps -> Prop
  | Bitmaps.inline _ => n < inlineWords
  | Bitmaps.grown words _ _ => n <= words

instance (n : Nat) (b : Bitmaps) : Decidable (b.Reaches n) :=
  match b with
  | Bitmaps.inline _ => inferInstanceAs (Decidable (n < inlineWords))
  | Bitmaps.grown words _ _ => inferInstanceAs (Decidable (n <= words))

def Bitmaps.closeWords : Bitmaps -> Words
  | Bitmaps.inline word => word
  | Bitmaps.grown _ closeOnExec _ => closeOnExec

def Bitmaps.openWords : Bitmaps -> Words
  | Bitmaps.inline word => fun i => word (i + 1)
  | Bitmaps.grown _ _ openFds => openFds

def Bitmaps.isOpen (b : Bitmaps) (fd : Nat) : Bool :=
  test b.openWords fd

def Bitmaps.changeOpen (change : Words -> Nat -> Words) (b : Bitmaps)
    (fd : Nat) : Option Bitmaps :=
  if b.Reaches (fd / 32 + 1) then
    match b with
    | Bitmaps.inline word => some (Bitmaps.inline (change word (fd + 32)))
    | Bitmaps.grown words closeOnExec openFds =>
        some (Bitmaps.grown words closeOnExec (change openFds fd))
  else none

def Bitmaps.changeClose (change : Words -> Nat -> Words) (b : Bitmaps)
    (fd : Nat) : Option Bitmaps :=
  if b.Reaches (fd / 32 + 1) then
    match b with
    | Bitmaps.inline word => some (Bitmaps.inline (change word fd))
    | Bitmaps.grown words closeOnExec openFds =>
        some (Bitmaps.grown words (change closeOnExec fd) openFds)
  else none

structure Files where
  maxFds : Nat
  /-- The number of slots that are allocated. -/
  slots : Nat
  fd : Nat -> Option File
  bits : Bitmaps
  nextFd : Int

def filesAlloc : Files where
  maxFds := nrOpenDefault
  slots := nrOpenDefault
  fd := fun _ => none
  bits := Bitmaps.inline fun _ => 0#32
  nextFd := 0

/-!
## Growing
-/

/-- The doubling of an `int`, which has no result when it overflows. -/
def nextPow : Nat -> Nat -> Int -> Option Nat
  | 0, _, _ => none
  | rounds + 1, nfds, nr =>
      if (nfds : Int) < nr then nextPow rounds (2 * nfds) nr else some nfds

def copyWords (w : Words) (n : Nat) : Words :=
  fun i => if i < n then w i else 0#32

def grow (t : Files) (nfds : Nat) : Option Files :=
  let n := (t.maxFds + 31) / 32
  if t.maxFds <= nfds ∧ t.maxFds <= t.slots ∧ t.bits.Reaches n then
    some { t with
      maxFds := nfds
      slots := nfds
      fd := fun i => if i < t.maxFds then t.fd i else none
      bits := Bitmaps.grown ((nfds + 31) / 32)
        (copyWords t.bits.closeWords n) (copyWords t.bits.openWords n) }
  else none

def expandFiles (t : Files) (nr : Int) (memory : Bool) : Option (Int × Files) :=
  if asUnsigned nr <= t.maxFds then some (-1, t)
  else
    match nextPow 31 1 nr with
    | none => none
    | some pow =>
        if memory then
          (grow t (if pow > nrOpenMax then nrOpenMax else pow)).map fun t' =>
            (0, t')
        else some (-1, t)

/-!
## Descriptors
-/

def scan (t : Files) : Nat -> Nat -> Option Nat
  | 0, fd => some fd
  | rounds + 1, fd =>
      if fd < t.slots then
        match t.fd fd with
        | none => some fd
        | some _ => scan t rounds (fd + 1)
      else none

def setCloseOnExec (b : Bitmaps) (fd : Nat) (cloexec : Bool) : Option Bitmaps :=
  if cloexec then b.changeClose set fd else b.changeClose clear fd

def markOpen (t : Files) (fd : Nat) (cloexec : Bool) : Option Files :=
  match t.bits.changeOpen set fd with
  | none => none
  | some b =>
      (setCloseOnExec b fd cloexec).map fun b' =>
        { t with
          bits := b'
          nextFd := if (fd : Int) >= t.nextFd then (fd : Int) + 1 else t.nextFd }

/-- A negative start is a large number where it is compared. -/
def allocFd (t : Files) (start : Int) (cloexec memory : Bool) :
    Option (Int × Files) :=
  if start < 0 then
    match expandFiles t (start + 1) memory with
    | none => none
    | some (ret, t') => if ret < 0 then some (-1, t') else none
  else
    match scan t (t.maxFds - start.toNat) start.toNat with
    | none => none
    | some fd =>
        if fd < t.maxFds then
          (markOpen t fd cloexec).map fun t' => ((fd : Int), t')
        else
          match expandFiles t ((fd : Int) + 1) memory with
          | none => none
          | some (ret, t') =>
              if ret < 0 then some (-1, t')
              else (markOpen t' fd cloexec).map fun t'' => ((fd : Int), t'')

def install (t : Files) (fd : Nat) (file : File) : Option Files :=
  if fd < t.slots then
    some { t with fd := Function.update t.fd fd (some file) }
  else none

/-- The result of a call, with the files that were closed. -/
structure Outcome where
  ret : Int
  files : Files
  closed : List File

def freeFd (t : Files) (fd : Int) : Option (Files × List File) :=
  if fd < 0 ∨ fd >= t.maxFds then some (t, [])
  else if fd.toNat < t.slots then
    match t.bits.changeOpen clear fd.toNat with
    | none => none
    | some b =>
        (b.changeClose clear fd.toNat).map fun b' =>
          ({ t with
            fd := Function.update t.fd fd.toNat none
            bits := b'
            nextFd := if fd < t.nextFd then fd else t.nextFd },
            (t.fd fd.toNat).toList)
  else none

/-!
## System calls
-/

def lookup (t : Files) (fd : Int) : Option (Option File) :=
  if fd < 0 ∨ fd >= t.maxFds then some none
  else if fd.toNat < t.slots then some (t.fd fd.toNat)
  else none

def failed (t : Files) : Outcome where
  ret := -1
  files := t
  closed := []

def openFile (t : Files) (start : Int) (cloexec memory : Bool) (file : File) :
    Option Outcome :=
  match allocFd t start cloexec memory with
  | none => none
  | some (ret, t') =>
      if ret < 0 then some (failed t')
      else (install t' ret.toNat file).map fun t'' =>
        { ret := ret, files := t'', closed := [] }

def sysClose (t : Files) (fd : Int) : Option Outcome :=
  if fd < 0 ∨ fd >= t.maxFds then some (failed t)
  else (freeFd t fd).map fun out =>
    { ret := 0, files := out.1, closed := out.2 }

def sysDup (t : Files) (oldfd : Int) (memory : Bool) : Option Outcome :=
  match lookup t oldfd with
  | none => none
  | some none => some (failed t)
  | some (some file) => openFile t 0 false memory file

/-- The end of `sys_dup2`, with a descriptor below the end of the table. -/
def replace (t : Files) (newfd : Nat) (file : File) : Option Outcome :=
  if newfd < t.slots then
    match (if t.fd newfd = none then some (t, []) else freeFd t newfd) with
    | none => none
    | some (t', closed) =>
        match install t' newfd file with
        | none => none
        | some t'' =>
            (markOpen t'' newfd false).map fun t''' =>
              { ret := newfd, files := t''', closed := closed }
  else none

def sysDup2 (t : Files) (oldfd newfd : Int) (memory : Bool) : Option Outcome :=
  if newfd < 0 then some (failed t)
  else
    match lookup t oldfd with
    | none => none
    | some none => some (failed t)
    | some (some file) =>
        if oldfd = newfd then
          some { ret := newfd, files := t, closed := [] }
        else if newfd >= t.maxFds then
          match expandFiles t (newfd + 1) memory with
          | none => none
          | some (ret, t') =>
              if ret < 0 then some (failed t') else replace t' newfd.toNat file
        else replace t newfd.toNat file

def sysFcntlDupfd (t : Files) (fd : Int) (arg : Nat) (memory : Bool) :
    Option Outcome :=
  match lookup t fd with
  | none => none
  | some none => some (failed t)
  | some (some _) => sysDup2 t fd (asInt arg) memory

def filesClone (old : Files) : Option Files :=
  let n := (old.maxFds + 31) / 32
  if old.maxFds <= old.slots ∧ old.bits.Reaches n ∧ n < inlineWords ∧
      forall fd, fd < old.maxFds -> nrOpenDefault <= fd -> old.fd fd = none then
    some {
      maxFds := nrOpenDefault
      slots := nrOpenDefault
      fd := fun i => if i < old.maxFds then old.fd i else none
      bits := Bitmaps.inline fun i =>
        if i = 0 then (if 0 < n then old.bits.closeWords 0 else 0#32)
        else copyWords old.bits.openWords n (i - 1)
      nextFd := old.nextFd }
  else none

end FileTable
end Horizon
