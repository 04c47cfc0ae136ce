import Horizon.Lib.LinkedList
import Mathlib.Algebra.Group.Nat.Defs

/-!
# Address spaces

This module follows `vmm.c`: creating and destroying virtual memory areas,
`vmm_find_vma`, and the calls that map, unmap, protect and lock ranges of
addresses.  The areas of an address space are linked into a ring that has no
head: `mm->mmap` is the first of them.

A result is absent when the call does not return: it spins on a lock that it
holds itself, it follows the ring for ever, or it faults on a null pointer.
Loops take the number of passes they may make.
-/

namespace Horizon
namespace Vmm

open LinkedList

def pageSize : Nat := 4096

/-- `x & ~(PAGE_SIZE - 1)` -/
def alignDown (x : Nat) : Nat := x / pageSize * pageSize

/-- `(x + PAGE_SIZE - 1) & ~(PAGE_SIZE - 1)` -/
def alignUp (x : Nat) : Nat := alignDown ((x + (pageSize - 1)) % 2 ^ 32)

def add32 (a b : Nat) : Nat := (a + b) % 2 ^ 32

def sub32 (a b : Nat) : Nat := (a + (2 ^ 32 - b)) % 2 ^ 32

def has (flags bit : Nat) : Bool := flags &&& bit != 0

/-!
## Flags
-/

def protRead : Nat := 0x1
def protWrite : Nat := 0x2
def protExec : Nat := 0x4

def mapShared : Nat := 0x01
def mapPrivate : Nat := 0x02
def mapFixed : Nat := 0x10
def mapAnonymous : Nat := 0x20
def mapGrowsdown : Nat := 0x100
def mapDenywrite : Nat := 0x800
def mapExecutable : Nat := 0x1000
def mapLocked : Nat := 0x2000
def mapNoreserve : Nat := 0x4000

def vmRead : Nat := 0x1
def vmWrite : Nat := 0x2
def vmExec : Nat := 0x4
def vmShared : Nat := 0x8
def vmMayread : Nat := 0x10
def vmMaywrite : Nat := 0x20
def vmMayexec : Nat := 0x40
def vmMayshare : Nat := 0x80
def vmGrowsdown : Nat := 0x100
def vmDenywrite : Nat := 0x800
def vmExecutable : Nat := 0x1000
def vmLocked : Nat := 0x2000
def vmNoreserve : Nat := 0x200000

/-- `bits` when the flag is given. -/
def whenHas (flags bit bits : Nat) : Nat := if has flags bit then bits else 0

def mmapFlags (prot flags : Nat) : Nat :=
  whenHas prot protRead (vmRead ||| vmMayread) |||
    whenHas prot protWrite (vmWrite ||| vmMaywrite) |||
    whenHas prot protExec (vmExec ||| vmMayexec) |||
    whenHas flags mapShared (vmShared ||| vmMayshare) |||
    whenHas flags mapGrowsdown vmGrowsdown |||
    whenHas flags mapDenywrite vmDenywrite |||
    whenHas flags mapExecutable vmExecutable |||
    whenHas flags mapLocked vmLocked |||
    whenHas flags mapNoreserve vmNoreserve

/-- `flags & ~mask` -/
def without (flags mask : Nat) : Nat := flags ^^^ (flags &&& mask)

def mprotectFlags (flags prot : Nat) : Nat :=
  without flags (vmRead ||| vmWrite ||| vmExec) |||
    (whenHas prot protRead vmRead ||| whenHas prot protWrite vmWrite |||
      whenHas prot protExec vmExec)

/-!
## The state
-/

/-- `vm_start`, `vm_end` and `vm_flags` of an area. -/
structure Vma where
  start : Nat
  stop : Nat
  flags : Nat

/--
The fields of `mm_struct_t` that the calls read, the areas and their links by
address, the address of the next new area, and the outcomes of the coming calls
of `kmalloc`, `true` for a failure.
-/
structure Mm where
  mmap : Option Nat
  mmapCache : Option Nat
  mapCount : Int
  locked : Bool
  startBrk : Nat
  brk : Nat
  totalVm : Nat
  lockedVm : Nat
  sharedVm : Nat
  execVm : Nat
  stackVm : Nat
  vma : Nat -> Vma
  links : Links Nat
  heap : Nat
  mem : List Bool

inductive Errno where
  | einval
deriving DecidableEq

def vmmCreateMm (vma : Nat -> Vma) (links : Links Nat) (mem : List Bool) :
    Mm where
  mmap := none
  mmapCache := none
  mapCount := 0
  locked := false
  startBrk := 0
  brk := 0
  totalVm := 0
  lockedVm := 0
  sharedVm := 0
  execVm := 0
  stackVm := 0
  vma := vma
  links := links
  heap := 0
  mem := mem

/-- A lock that is held is waited for, and nobody else releases it. -/
def spinLock (mm : Mm) : Option Mm :=
  if mm.locked then none else some { mm with locked := true }

def spinUnlock (mm : Mm) : Mm := { mm with locked := false }

def Mm.setVma (mm : Mm) (p : Nat) (v : Vma) : Mm :=
  { mm with vma := Function.update mm.vma p v }

/-!
## Areas
-/

/--
The search for the place of a new area: the area before it, and the first one
that does not start below it.
-/
def searchLoop (mm : Mm) (start : Nat) :
    Nat -> Option Nat -> Nat -> Option (Option Nat)
  | 0, _, _ => none
  | fuel + 1, prev, curr =>
      if (mm.vma curr).start < start then do
        let next <- (mm.links curr).next
        searchLoop mm start fuel (some curr) next
      else some prev

def linkVma (fuel : Nat) (mm : Mm) (p start : Nat) : Option Mm :=
  match mm.mmap with
  | none => some { mm with mmap := some p }
  | some first => do
      match <- searchLoop mm start fuel none first with
      | none =>
          let links <- listAdd mm.links p first
          return { mm with links := links, mmap := some p }
      | some prev =>
          let links <- listAdd mm.links p prev
          return { mm with links := links }

/-- The area, or nothing when it cannot be created. -/
def vmmCreateVma (fuel : Nat) (mm : Mm) (start size flags : Nat) :
    Option (Option Nat × Mm) :=
  if size = 0 then some (none, mm)
  else
    let start := alignUp start
    let size := alignUp size
    if mm.mem.headD false then some (none, { mm with mem := mm.mem.tail })
    else do
      let p := mm.heap
      let mm := { mm with mem := mm.mem.tail, heap := p + 1 }
      let mm := mm.setVma p {
        start := start
        stop := add32 start size
        flags := flags }
      let mm := { mm with links := listInit mm.links p }
      let mm <- spinLock mm
      let mm <- linkVma fuel mm p start
      return (some p, spinUnlock { mm with mapCount := mm.mapCount + 1 })

def vmmDestroyVma (mm : Mm) (p : Nat) : Option Mm := do
  let mm <- spinLock mm
  let next <- (mm.links p).next
  let mm :=
    if mm.mmap = some p then
      { mm with mmap := if next ≠ p then some next else none }
    else mm
  let links <- listDel mm.links p
  return spinUnlock { mm with links := links, mapCount := mm.mapCount - 1 }

def Vma.Has (v : Vma) (addr : Nat) : Prop := v.start <= addr ∧ addr < v.stop

instance (v : Vma) (addr : Nat) : Decidable (v.Has addr) :=
  inferInstanceAs (Decidable (_ ∧ _))

def findLoop (mm : Mm) (addr : Nat) : Nat -> Nat -> Option (Option Nat × Mm)
  | 0, _ => none
  | fuel + 1, p =>
      if (mm.vma p).Has addr then
        some (some p, { mm with mmapCache := some p })
      else do
        let next <- (mm.links p).next
        if next = p then return (none, mm) else findLoop mm addr fuel next

def cached (mm : Mm) (addr : Nat) : Option Nat :=
  mm.mmapCache.filter fun p => (mm.vma p).Has addr

def vmmFindVma (fuel : Nat) (mm : Mm) (addr : Nat) :
    Option (Option Nat × Mm) := do
  let mm <- spinLock mm
  match mm.mmap with
  | none => return (none, spinUnlock mm)
  | some first =>
      match cached mm addr with
      | some p => return (some p, spinUnlock mm)
      | none =>
          let (p, mm) <- findLoop mm addr fuel first
          return (p, spinUnlock mm)

/-!
## Counters
-/

def execOnly (flags : Nat) : Bool := has flags vmExec && !has flags vmWrite

def Mm.account (mm : Mm) (flags : Nat) (f : Nat -> Nat) : Mm :=
  { mm with
    totalVm := f mm.totalVm
    lockedVm := if has flags vmLocked then f mm.lockedVm else mm.lockedVm
    sharedVm := if has flags vmShared then f mm.sharedVm else mm.sharedVm
    execVm := if execOnly flags then f mm.execVm else mm.execVm
    stackVm := if has flags vmGrowsdown then f mm.stackVm else mm.stackVm }

def Mm.charge (mm : Mm) (flags size : Nat) : Mm :=
  mm.account flags fun n => add32 n (size / pageSize)

def Mm.uncharge (mm : Mm) (flags size : Nat) : Mm :=
  mm.account flags fun n => sub32 n (size / pageSize)

/-!
## Ranges
-/

def Vma.Meets (v : Vma) (start stop : Nat) : Prop :=
  v.stop > start ∧ v.start < stop

def Vma.Inside (v : Vma) (start stop : Nat) : Prop :=
  v.start >= start ∧ v.stop <= stop

instance (v : Vma) (start stop : Nat) : Decidable (v.Meets start stop) :=
  inferInstanceAs (Decidable (_ ∧ _))

instance (v : Vma) (start stop : Nat) : Decidable (v.Inside start stop) :=
  inferInstanceAs (Decidable (_ ∧ _))

/-- The size of the overlap of an area with a range, a 32-bit difference. -/
def Vma.overlap (v : Vma) (start stop : Nat) : Nat :=
  sub32 (if v.stop < stop then v.stop else stop)
    (if v.start > start then v.start else start)

def Vma.shrink (v : Vma) (start stop : Nat) : Vma :=
  let v := if v.start < start then { v with stop := start } else v
  if v.stop > stop then { v with start := stop } else v

/--
The loop over the areas.  The body says where to go on; nothing stands for the
next area, unless the area is linked to itself.
-/
def walk (body : Mm -> Nat -> Option (Mm × Option Nat)) :
    Nat -> Mm -> Nat -> Option Mm
  | 0, _, _ => none
  | fuel + 1, mm, p => do
      match <- body mm p with
      | (mm, some next) => walk body fuel mm next
      | (mm, none) =>
          let next <- (mm.links p).next
          if next = p then return mm else walk body fuel mm next

def walkAll (body : Mm -> Nat -> Option (Mm × Option Nat)) (fuel : Nat)
    (mm : Mm) : Option Mm :=
  match mm.mmap with
  | none => some mm
  | some first => walk body fuel mm first

/-- The loop body of `vmm_munmap` and `vmm_brk`. -/
def unmapBody (start stop : Nat) (mm : Mm) (p : Nat) :
    Option (Mm × Option Nat) :=
  let v := mm.vma p
  if v.Meets start stop then
    let mm := mm.uncharge v.flags (v.overlap start stop)
    if v.Inside start stop then do
      let next <- (mm.links p).next
      let mm <- vmmDestroyVma mm p
      return (mm, some next)
    else some (mm.setVma p (v.shrink start stop), none)
  else some (mm, none)

def protectBody (start stop prot : Nat) (mm : Mm) (p : Nat) :
    Option (Mm × Option Nat) :=
  let v := mm.vma p
  if v.Meets start stop then
    some (mm.setVma p { v with flags := mprotectFlags v.flags prot }, none)
  else some (mm, none)

def lockBody (start stop : Nat) (mm : Mm) (p : Nat) :
    Option (Mm × Option Nat) :=
  let v := mm.vma p
  if v.Meets start stop ∧ ¬ has v.flags vmLocked then
    let mm := mm.setVma p { v with flags := v.flags ||| vmLocked }
    some ({ mm with
      lockedVm := add32 mm.lockedVm (v.overlap start stop / pageSize) }, none)
  else some (mm, none)

def unlockBody (start stop : Nat) (mm : Mm) (p : Nat) :
    Option (Mm × Option Nat) :=
  let v := mm.vma p
  if v.Meets start stop ∧ has v.flags vmLocked then
    let mm := mm.setVma p { v with flags := without v.flags vmLocked }
    some ({ mm with
      lockedVm := sub32 mm.lockedVm (v.overlap start stop / pageSize) }, none)
  else some (mm, none)

/-- A call that goes over the areas of a range under the lock. -/
def overRange (body : Nat -> Nat -> Mm -> Nat -> Option (Mm × Option Nat))
    (fuel : Nat) (mm : Mm) (addr size : Nat) :
    Option (Except Errno Unit × Mm) :=
  if addr = 0 ∨ size = 0 then some (Except.error Errno.einval, mm)
  else do
    let start := alignDown addr
    let stop := add32 start (alignUp size)
    let mm <- spinLock mm
    let mm <- walkAll (body start stop) fuel mm
    return (Except.ok (), spinUnlock mm)

/-!
## The calls
-/

def mmapPlace (addr flags : Nat) : Nat :=
  if alignDown addr = 0 ∨ ¬ has flags mapFixed then 0x10000000
  else alignDown addr

/-- Zero stands for the null pointer. -/
def vmmMmap (fuel : Nat) (mm : Mm) (addr size prot flags : Nat) :
    Option (Nat × Mm) :=
  if size = 0 then some (0, mm)
  else do
    let size := alignUp size
    let place := mmapPlace addr flags
    match <- vmmCreateVma fuel mm place size (mmapFlags prot flags) with
    | (none, mm) => return (0, mm)
    | (some _, mm) => return (place, mm.charge (mmapFlags prot flags) size)

def vmmMunmap (fuel : Nat) (mm : Mm) (addr size : Nat) :
    Option (Except Errno Unit × Mm) :=
  overRange unmapBody fuel mm addr size

def vmmMprotect (fuel : Nat) (mm : Mm) (addr size prot : Nat) :
    Option (Except Errno Unit × Mm) :=
  overRange (fun start stop => protectBody start stop prot) fuel mm addr size

def vmmMlock (fuel : Nat) (mm : Mm) (addr size : Nat) :
    Option (Except Errno Unit × Mm) :=
  overRange lockBody fuel mm addr size

def vmmMunlock (fuel : Nat) (mm : Mm) (addr size : Nat) :
    Option (Except Errno Unit × Mm) :=
  overRange unlockBody fuel mm addr size

def brkGrow (fuel : Nat) (mm : Mm) (brk : Nat) :
    Option (Except Errno Nat × Mm) := do
  let (found, mm) <- vmmFindVma fuel mm mm.brk
  let fits := match found with
    | none => false
    | some p =>
        decide ((mm.vma p).start <= mm.brk ∧ (mm.vma p).stop >= mm.brk ∧
          (mm.vma p).stop >= brk)
  if fits then return (Except.ok brk, spinUnlock { mm with brk := brk })
  else
    match <- vmmCreateVma fuel mm mm.brk
      (sub32 (sub32 brk mm.startBrk) (sub32 mm.brk mm.startBrk))
      (vmRead ||| vmWrite ||| vmMayread ||| vmMaywrite) with
    | (none, mm) => return (Except.ok mm.brk, spinUnlock mm)
    | (some _, mm) =>
        return (Except.ok brk, spinUnlock { mm with brk := brk })

def vmmBrk (fuel : Nat) (mm : Mm) (brk : Nat) :
    Option (Except Errno Nat × Mm) :=
  if brk < mm.startBrk then some (Except.error Errno.einval, mm)
  else do
    let mm <- spinLock mm
    let oldSize := sub32 mm.brk mm.startBrk
    let newSize := sub32 brk mm.startBrk
    if newSize > oldSize then brkGrow fuel mm brk
    else if newSize < oldSize then
      let mm <- walkAll (unmapBody (add32 mm.startBrk newSize) mm.brk) fuel mm
      return (Except.ok brk, spinUnlock { mm with brk := brk })
    else return (Except.ok brk, spinUnlock { mm with brk := brk })

def expandable (mm : Mm) (found : Option Nat) (oldAddr oldEnd newEnd : Nat) :
    Option (Option Nat) :=
  match found with
  | none => some none
  | some p =>
      if (mm.vma p).start > oldAddr ∨ (mm.vma p).stop < oldEnd then some none
      else do
        let next <- (mm.links p).next
        if (mm.vma next).start < newEnd then return none else return some p

/-- The address of the new mapping, or zero; a fixed one is made free. -/
def remapTarget (fuel : Nat) (mm : Mm) (newSize : Nat) (fixed : Bool)
    (newAddr : Nat) : Option (Nat × Mm) :=
  if fixed then
    if newAddr = 0 then some (0, mm)
    else do
      match <- vmmMunmap fuel mm newAddr newSize with
      | (Except.error _, mm) => return (0, mm)
      | (Except.ok _, mm) => return (newAddr, mm)
  else
    vmmMmap fuel mm 0 newSize (protRead ||| protWrite)
      (mapPrivate ||| mapAnonymous)

/--
The part of `vmm_mremap` after `create_new`, with aligned arguments.  The old
contents are copied in user memory, which is left out.
-/
def remapNew (fuel : Nat) (mm : Mm) (oldAddr oldSize newSize : Nat)
    (fixed : Bool) (newAddr : Nat) : Option (Nat × Mm) := do
  let (newAddr, mm) <- remapTarget fuel mm newSize fixed newAddr
  if newAddr = 0 then return (0, mm)
  else
    match <- vmmMunmap fuel mm oldAddr oldSize with
    | (Except.ok _, mm) => return (newAddr, mm)
    | (Except.error _, mm) =>
        let (_, mm) <- vmmMunmap fuel mm newAddr newSize
        return (0, mm)

/-- Growing in place when nothing follows, and a new mapping otherwise. -/
def remapGrow (fuel : Nat) (mm : Mm) (oldAddr oldSize newSize : Nat)
    (fixed : Bool) (newAddr : Nat) : Option (Nat × Mm) := do
  let oldEnd := add32 oldAddr oldSize
  let newEnd := add32 oldAddr newSize
  let (found, mm) <- vmmFindVma fuel mm oldEnd
  let gap := match found with
    | none => true
    | some p => decide ((mm.vma p).start > oldEnd)
  if gap then
    let (found, mm) <- vmmFindVma fuel mm oldAddr
    match <- expandable mm found oldAddr oldEnd newEnd with
    | none => remapNew fuel mm oldAddr oldSize newSize fixed newAddr
    | some p =>
        let v := mm.vma p
        let mm := mm.setVma p { v with stop := newEnd }
        return (oldAddr, mm.charge v.flags (newSize - oldSize))
  else remapNew fuel mm oldAddr oldSize newSize fixed newAddr

/--
`fixed` is the outcome of the test of `MREMAP_FIXED`, a constant that the
sources use and do not define.
-/
def vmmMremap (fuel : Nat) (mm : Mm) (oldAddr oldSize newSize : Nat)
    (fixed : Bool) (newAddr : Nat) : Option (Nat × Mm) :=
  if oldAddr = 0 ∨ oldSize = 0 ∨ newSize = 0 then some (0, mm)
  else
    let oldAddr := alignDown oldAddr
    let newAddr := alignDown newAddr
    let oldSize := alignUp oldSize
    let newSize := alignUp newSize
    if newSize = oldSize then some (oldAddr, mm)
    else if newSize < oldSize then do
      match <- vmmMunmap fuel mm (add32 oldAddr newSize)
        (oldSize - newSize) with
      | (Except.error _, mm) => return (0, mm)
      | (Except.ok _, mm) => return (oldAddr, mm)
    else remapGrow fuel mm oldAddr oldSize newSize fixed newAddr

end Vmm
end Horizon
