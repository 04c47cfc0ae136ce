import Mathlib.Data.Set.Card
import Horizon.Lib.Transition
import Horizon.Mm.Swap.Entries
import Horizon.Mm.Vmm.Model

/-!
# Page faults and swapped pages

`swap_out_page` of `swap.c` with `page_fault_user` of `page_fault.c` and the
handlers it calls.  The page table is behind `vmm_get_page`, `vmm_map_page` and
`vmm_unmap_page`, whose bodies in `vmm.c` are placeholders; it is a parameter
here, and nothing is assumed of it.  Which pages `swap_priority.c` prefers is a
parameter of each call.  Statistics and the flushing of the TLB are left out.
-/

namespace Horizon
namespace Paging

open Function

open Swap (pageSize swapAlloc swapFree swapWrite swapRead designated areaIndex
  pageIndex)
open Vmm (has Vma)

/-!
## The calls
-/

/-- `vmm_get_page`, `vmm_map_page` and `vmm_unmap_page`. -/
structure PageOps (table : Type) where
  get : table -> Nat -> Option Nat
  map : table -> Nat -> Nat -> Nat -> Int × table
  unmap : table -> Nat -> Int × table

/--
`swapMap` is indexed by page numbers, and `none` stands for `NULL`; how
long the array is that `swap_out_page` allocates is not modelled.
-/
structure Task (table : Type) where
  mm : Vmm.Mm
  table : table
  swapMap : Option (Nat -> Nat)
  swapUsed : Nat

/--
The tasks, `none` for one without memory descriptor; the swap areas; the
contents and the flag `PG_readonly` of the pages; and the outcomes of the coming
calls of `page_alloc`.
-/
structure State (table : Type) where
  tasks : Nat -> Option (Task table)
  swap : Swap.State
  contents : Nat -> List UInt8
  readonly : Nat -> Bool
  alloc : List (Option Nat)

def pfPresent : Nat := 0x01
def pfWrite : Nat := 0x02
def pfUser : Nat := 0x04
def pfInstr : Nat := 0x10

def eagain : Int := 11
def enomem : Int := 12
def efault : Int := 14
def einval : Int := 22

def code : Swap.Errno -> Int
  | .einval => -einval
  | .enomem => -enomem
  | .enoent => -2
  | .ebusy => -16
  | .eio => -5
  | .enospc => -28

/-- `addr & ~(PAGE_SIZE - 1)` -/
def pageStart (addr : Nat) : Nat := addr / pageSize * pageSize

variable {table : Type}

def Task.entry (task : Task table) (page : Nat) : Nat :=
  match task.swapMap with
  | none => 0
  | some entries => entries page

def State.setTask (s : State table) (t : Nat) (task : Task table) :
    State table :=
  { s with tasks := update s.tasks t (some task) }

def pageAlloc (s : State table) : Option Nat × State table :=
  (s.alloc.headD none, { s with alloc := s.alloc.tail })

variable (ops : PageOps table)

/-- The end of `swap_out_page`, from the swap map on. -/
def recordEntry (s : State table) (t : Nat) (task : Task table)
    (addr entry : Nat) : Int × State table :=
  let allocated :=
    match task.swapMap with
    | some entries => (some entries, s.swap)
    | none =>
        match Swap.kmallocFails s.swap with
        | (true, swap) => (none, swap)
        | (false, swap) => (some fun _ => 0, swap)
  match allocated with
  | (none, swap) => (-enomem, { s with swap := (swapFree swap entry).2 })
  | (some entries, swap) =>
      let entries := update entries (addr / pageSize) entry
      match ops.unmap task.table addr with
      | (ret, table) =>
          if ret < 0 then
            let entries := update entries (addr / pageSize) 0
            (ret, { s with swap := (swapFree swap entry).2 }.setTask t
              { task with swapMap := some entries, table := table })
          else
            (0, { s with swap := swap }.setTask t
              { task with
                swapMap := some entries
                table := table
                swapUsed := task.swapUsed + 1 })

/-- `skip` says that a page of lower priority was found. -/
def swapOutPage (skip : Bool) (s : State table) (t addr : Nat) :
    Int × State table :=
  match s.tasks t with
  | none => (-einval, s)
  | some task =>
      match ops.get task.table (pageStart addr) with
      | none => (-efault, s)
      | some page =>
          if task.entry (pageStart addr / pageSize) ≠ 0 then (-einval, s)
          else if skip then (-eagain, s)
          else
            match swapAlloc s.swap with
            | (entry, swap) =>
                if entry = 0 then (-enomem, { s with swap := swap })
                else
                  match swapWrite swap entry (s.contents page) with
                  | (Except.error e, swap) =>
                      (code e, { s with swap := (swapFree swap entry).2 })
                  | (Except.ok _, swap) =>
                      recordEntry ops { s with swap := swap } t task
                        (pageStart addr) entry

def mapNew (s : State table) (t : Nat) (task : Task table) (v : Vma)
    (addr page : Nat) : Int × State table :=
  match ops.map task.table (pageStart addr) page v.flags with
  | (ret, table) =>
      (if ret < 0 then ret else 0, s.setTask t { task with table := table })

def pageFaultCow (s : State table) (t : Nat) (task : Task table) (v : Vma)
    (addr : Nat) : Int × State table :=
  if !has v.flags Vmm.vmShared then (-efault, s)
  else
    match ops.get task.table addr with
    | none => (-efault, s)
    | some page =>
        if !s.readonly page then (-efault, s)
        else
          match pageAlloc s with
          | (none, s) => (-enomem, s)
          | (some new, s) =>
              mapNew ops { s with
                contents := update s.contents new (s.contents page) }
                t task v addr new

def pageFaultDemand (s : State table) (t : Nat) (task : Task table) (v : Vma)
    (addr : Nat) : Int × State table :=
  match pageAlloc s with
  | (none, s) => (-enomem, s)
  | (some new, s) =>
      mapNew ops { s with
        contents := update s.contents new
          (List.replicate pageSize 0) } t task v addr new

def pageFaultIsSwap (task : Task table) (addr : Nat) : Bool :=
  task.entry (addr / pageSize) != 0

/-- The entry is taken out of the swap map; its slot is not given back. -/
def pageFaultSwap (s : State table) (t : Nat) (task : Task table) (v : Vma)
    (addr : Nat) : Int × State table :=
  match task.swapMap with
  | none => (-efault, s)
  | some entries =>
      let entry := entries (addr / pageSize)
      if entry = 0 then (-efault, s)
      else
        match pageAlloc s with
        | (none, s) => (-enomem, s)
        | (some new, s) =>
            match swapRead s.swap entry with
            | (Except.error e, swap) => (code e, { s with swap := swap })
            | (Except.ok data, swap) =>
                let s := { s with
                  swap := swap
                  contents := update s.contents new data }
                match ops.map task.table (pageStart addr) new v.flags with
                | (ret, table) =>
                    if ret < 0 then
                      (ret, s.setTask t { task with table := table })
                    else
                      (0, s.setTask t { task with
                        table := table
                        swapMap := some
                          (update entries (addr / pageSize) 0) })

/-- `none` stands for a call that does not return from `vmm_find_vma`. -/
def pageFaultUser (fuel : Nat) (s : State table) (t addr error : Nat) :
    Option (Int × State table) :=
  match s.tasks t with
  | none => none
  | some task =>
      if !has error pfUser then some (-efault, s)
      else
        match Vmm.vmmFindVma fuel task.mm addr with
        | none => none
        | some (none, mm) => some (-efault, s.setTask t { task with mm := mm })
        | some (some p, mm) =>
            let task := { task with mm := mm }
            let s := s.setTask t task
            let v := mm.vma p
            if addr < v.start then some (-efault, s)
            else if has error pfWrite && !has v.flags Vmm.vmWrite then
              some (pageFaultCow ops s t task v addr)
            else if has error pfInstr && !has v.flags Vmm.vmExec then
              some (-efault, s)
            else if !has error pfPresent then
              some (pageFaultDemand ops s t task v addr)
            else if pageFaultIsSwap task addr then
              some (pageFaultSwap ops s t task v addr)
            else some (-efault, s)

/-!
## Runs
-/

inductive Call where
  | swapOut (task addr : Nat) (skip : Bool)
  | fault (fuel task addr error : Nat)

def Call.page : Call -> Nat × Nat
  | swapOut task addr _ => (task, addr / pageSize)
  | fault _ task addr _ => (task, addr / pageSize)

def next (s : State table) : Call -> Option (State table)
  | .swapOut task addr skip => some (swapOutPage ops skip s task addr).2
  | .fault fuel task addr error =>
      (pageFaultUser ops fuel s task addr error).map Prod.snd

def State.entry (s : State table) (t page : Nat) : Nat :=
  match s.tasks t with
  | none => 0
  | some task => task.entry page

def State.view (s : State table) (t page : Nat) : Option (List UInt8) :=
  match s.tasks t with
  | none => none
  | some task => (ops.get task.table (page * pageSize)).map s.contents

/-- What `swap_add` sees to: few areas, of less than `2 ^ 24` pages. -/
structure Bounded (s : Swap.State) : Prop where
  count : s.areas.length <= Swap.maxSwapAreas
  size : forall area, area ∈ s.areas -> area.size <= 2 ^ 20

variable {s s' : Swap.State} {t new addr : Nat}

theorem Bounded.congr (h : Bounded s) (hareas : s'.areas = s.areas) :
    Bounded s' := by
  constructor
  · rw [hareas]
    exact h.count
  · rw [hareas]
    exact h.size

theorem Bounded.modify (h : Bounded s) {i : Nat} {f : Swap.Area -> Swap.Area}
    (hareas : s'.areas = s.areas.modify i f)
    (hsize : forall area, (f area).size = area.size) : Bounded s' := by
  constructor
  · rw [hareas, List.length_modify]
    exact h.count
  · intro area harea
    rw [hareas] at harea
    rcases Swap.mem_modify harea with hold | ⟨b, hget, rfl⟩
    · exact h.size area hold
    · rw [hsize]
      exact h.size b (List.mem_of_getElem? hget)

/-- The slot of an entry is in use, in areas of the expected form. -/
structure InUse (entry : Nat) (s : Swap.State) : Prop where
  bounded : Bounded s
  slot : exists area, designated s entry = some (area, pageIndex entry)

namespace InUse

variable {entry other : Nat} {s s' : Swap.State}

theorem congr (h : InUse entry s) (hareas : s'.areas = s.areas) :
    InUse entry s' := by
  refine ⟨h.bounded.congr hareas, ?_⟩
  unfold Swap.designated
  rw [hareas]
  exact h.slot

variable {i : Nat}

theorem modify (h : InUse entry s) {f : Swap.Area -> Swap.Area}
    (hareas : s'.areas = s.areas.modify i f)
    (hsize : forall a, (f a).size = a.size)
    (hfile : forall a, (f a).file = a.file)
    (hbit : forall a, areaIndex entry = i ->
      Bitmaps.bitTest a.bitmap (pageIndex entry) = true ->
      Bitmaps.bitTest (f a).bitmap (pageIndex entry) = true) :
    InUse entry s' := by
  rcases h.slot with ⟨area, hslot⟩
  have hset := (Swap.designated_iff.mp hslot).2.2.2.2
  rcases Swap.designated_modify hslot hareas hsize hfile
    (fun hi => hbit area hi hset) with ⟨area', hslot', _⟩
  exact ⟨h.bounded.modify hareas hsize, area', hslot'⟩

theorem free (h : InUse entry s)
    (hne : areaIndex entry = areaIndex other ->
      pageIndex entry ≠ pageIndex other) :
    InUse entry (swapFree s other).2 := by
  unfold Swap.swapFree
  cases hother : designated s other with
  | none => exact h
  | some place =>
    obtain ⟨area, page⟩ := place
    have hpage := (Swap.designated_iff.mp hother).2.2.1
    apply h.modify (f := fun a => a.release page) rfl (fun _ => rfl)
      (fun _ => rfl)
    intro a hi hset
    show Bitmaps.bitTest (Bitmaps.bitClear a.bitmap page) _ = true
    rw [Bitmaps.bitTest_bitClear, hset, hpage]
    simp [hne hi]

theorem take (h : InUse entry s) {j : Nat}
    (hareas : s'.areas = s.areas.modify i fun a => a.take j) :
    InUse entry s' := by
  apply h.modify hareas (fun _ => rfl) (fun _ => rfl)
  intro a _ hset
  show Bitmaps.bitTest (Bitmaps.bitSet a.bitmap j) _ = true
  rw [Bitmaps.bitTest_bitSet, hset, Bool.or_true]

end InUse

theorem InUse.alloc {entry : Nat} (h : InUse entry s)
    (halloc : swapAlloc s = (new, s')) : InUse entry s' := by
  unfold Swap.swapAlloc at halloc
  split at halloc <;> cases halloc
  · exact h
  · exact h.take rfl

def sampleTask : Task (Nat -> Option Nat) where
  mm :=
    { Vmm.vmmCreateMm (fun _ => ⟨0, 2 * pageSize, Vmm.vmRead ||| Vmm.vmWrite⟩)
        (fun _ => ⟨none, none⟩) [] with mmap := some 0 }
  table page := if page = 0 then some 1 else none
  swapMap := none
  swapUsed := 0

def tableOps : PageOps (Nat -> Option Nat) where
  get table addr := table (addr / pageSize)
  map table addr page _ :=
    (0, update table (addr / pageSize) (some page))
  unmap table addr := (0, update table (addr / pageSize) none)

def sampleSwap : Swap.State :=
  (Swap.swapAdd {
    areas := []
    algo := Swap.Algo.none
    files := fun _ => ⟨0, 0⟩
    nextFile := 0
    nodes := fun _ => ⟨fun _ => 0, 0⟩
    lookup := fun _ => some 0
    mem := [] } [] (2 * pageSize)).2

/-- The first call took slot zero and failed. -/
def sample : State (Nat -> Option Nat) :=
  (swapOutPage tableOps false {
    tasks := fun _ => some sampleTask
    swap := sampleSwap
    contents := fun _ => List.replicate pageSize 1
    readonly := fun _ => false
    alloc := [some 2] } 1 0).2

variable {ops}

end Paging
end Horizon
