import Horizon.Lib.LinkedList
import Horizon.Lib.Tiling

/-!
# The physical memory manager

This module follows `kernel/mm/pmm.c`: the page frame array, the eleven free
lists of the buddy system and the functions that move pages between them.  A
`page_t *` into `page_frames` is modelled by its page frame number.  List
operations that would dereference a null pointer have no result.

The bodies of `page_set_flags`, `page_clear_flags` and `page_test_flags` are
declared in `mm/page.h` but defined nowhere in the tree, so they are parameters
of the development.
-/

namespace Horizon
namespace Pmm

open LinkedList
open Tilings

/-- The page flags the memory manager touches, by bit number. -/
inductive PageFlag where
  | reserved
  | buddy
deriving DecidableEq

namespace PageFlag

def bit : PageFlag -> Nat
  | reserved => 10
  | buddy => 19

def mask (f : PageFlag) : Nat := 1 <<< f.bit

end PageFlag

/--
The undefined flag functions, with what their names and callers rely on: a set
flag tests true, a cleared flag tests false, the other flag keeps its value and
an empty flag word has no flag.
-/
structure PageFlagOps where
  set : Nat -> Nat -> Nat
  clear : Nat -> Nat -> Nat
  test : Nat -> Nat -> Bool
  test_zero : forall f : PageFlag, test 0 f.mask = false
  test_set : forall (w : Nat) (f g : PageFlag),
    test (set w f.mask) g.mask = if f = g then true else test w g.mask
  test_clear : forall (w : Nat) (f g : PageFlag),
    test (clear w f.mask) g.mask = if f = g then false else test w g.mask

/-- The list nodes: the heads in `free_area` and the `list` field of a page. -/
inductive Node where
  | area (order : Nat)
  | page (pfn : Nat)
deriving DecidableEq

structure Page where
  flags : Nat
  order : Nat
deriving DecidableEq

/-- The file-scope variables of `pmm.c`; the frame count is a `u32`. -/
structure State where
  pageFrames : Nat -> Page
  pageFramesCount : Nat
  links : Links Node
  totalPages : Nat
  freePages : Nat
  reservedPages : Nat
  count_lt : pageFramesCount < 2 ^ 32

/-- Addition and subtraction of the `u64` counters. -/
def addU64 (a b : Nat) : Nat := (a + b) % 2 ^ 64

def subU64 (a b : Nat) : Nat := (a + 2 ^ 64 - b) % 2 ^ 64

def State.setPage (s : State) (pfn : Nat) (page : Page) : State :=
  { s with pageFrames := Function.update s.pageFrames pfn page }

def State.setFlags (s : State) (pfn flags : Nat) : State :=
  s.setPage pfn { s.pageFrames pfn with flags := flags }

def State.setLinks (s : State) (links : Links Node) : State :=
  { s with links := links }

def State.setFreePages (s : State) (n : Nat) : State :=
  { s with freePages := n }

def State.setTotalPages (s : State) (n : Nat) : State :=
  { s with totalPages := n }

def State.setReservedPages (s : State) (n : Nat) : State :=
  { s with reservedPages := n }

def State.setOrder (s : State) (pfn order : Nat) : State :=
  s.setPage pfn { s.pageFrames pfn with order := order }

section FlagFunctions

variable (F : PageFlagOps)

def pageSetFlags (s : State) (pfn : Nat) (f : PageFlag) : State :=
  s.setFlags pfn (F.set (s.pageFrames pfn).flags f.mask)

def pageClearFlags (s : State) (pfn : Nat) (f : PageFlag) : State :=
  s.setFlags pfn (F.clear (s.pageFrames pfn).flags f.mask)

def pageTestFlags (s : State) (pfn : Nat) (f : PageFlag) : Bool :=
  F.test (s.pageFrames pfn).flags f.mask

def State.listAdd (s : State) (pfn order : Nat) : Option State := do
  let links <- LinkedList.listAdd s.links (Node.page pfn) (Node.area order)
  return s.setLinks links

def State.listDel (s : State) (pfn : Nat) : Option State := do
  let links <- LinkedList.listDel s.links (Node.page pfn)
  return s.setLinks links

/-!
## Initialization

The part of `pmm_init` that prepares the free lists and the page frame array,
and `pmm_init_memmap`, which hands a range of page frames to the allocator.
-/

def pmmInitAreas : Nat -> State -> State
  | 0, s => s
  | i + 1, s =>
      let s := pmmInitAreas i s
      s.setLinks (listInit s.links (Node.area i))

def pmmInitFrames : Nat -> State -> State
  | 0, s => s
  | i + 1, s =>
      let s := (pmmInitFrames i s).setPage i { flags := 0, order := 0 }
      s.setLinks (listInit s.links (Node.page i))

/-- The loops of `pmm_init` before the memory map is walked. -/
def pmmInit (s : State) : State :=
  let s := ((s.setTotalPages 0).setFreePages 0).setReservedPages 0
  let s := pmmInitAreas 11 s
  pmmInitFrames s.pageFramesCount s

def pmmInitMemmapPage (s : State) (pfn : Nat) : Option State := do
  let s := s.setFlags pfn 0
  let s := pageSetFlags F s pfn PageFlag.buddy
  let s <- s.listAdd pfn 0
  let s := s.setFreePages (addU64 s.freePages 1)
  return s.setTotalPages (addU64 s.totalPages 1)

def pmmInitMemmapLoop : Nat -> Nat -> State -> Option State
  | 0, _, s => some s
  | n + 1, pfn, s =>
      if s.pageFramesCount <= pfn then
        some s
      else do
        let s <- pmmInitMemmapPage F s pfn
        pmmInitMemmapLoop n (pfn + 1) s

def pmmInitMemmap (s : State) (startPfn endPfn : Nat) : Option State :=
  if startPfn >= endPfn then some s
  else pmmInitMemmapLoop F (endPfn - startPfn) startPfn s

/-!
## Reserved ranges
-/

def pmmFreeRangePage (s : State) (pfn : Nat) : Option State :=
  if pageTestFlags F s pfn PageFlag.reserved then do
    let s := pageClearFlags F s pfn PageFlag.reserved
    let s := s.setReservedPages (subU64 s.reservedPages 1)
    let s := pageSetFlags F s pfn PageFlag.buddy
    let s <- s.listAdd pfn 0
    return s.setFreePages (addU64 s.freePages 1)
  else
    some s

def pmmFreeRangeLoop : Nat -> Nat -> State -> Option State
  | 0, _, s => some s
  | n + 1, pfn, s =>
      if s.pageFramesCount <= pfn then
        some s
      else do
        let s <- pmmFreeRangePage F s pfn
        pmmFreeRangeLoop n (pfn + 1) s

def pmmFreeRange (s : State) (startPfn endPfn : Nat) : Option State :=
  if startPfn >= endPfn then some s
  else pmmFreeRangeLoop F (endPfn - startPfn) startPfn s

def pmmReserveRangePage (s : State) (pfn : Nat) : Option State := do
  let s <-
    if pageTestFlags F s pfn PageFlag.buddy then do
      let s := pageClearFlags F s pfn PageFlag.buddy
      let s <- s.listDel pfn
      pure (s.setFreePages (subU64 s.freePages 1))
    else
      pure s
  let s := pageSetFlags F s pfn PageFlag.reserved
  return s.setReservedPages (addU64 s.reservedPages 1)

def pmmReserveRangeLoop : Nat -> Nat -> State -> Option State
  | 0, _, s => some s
  | n + 1, pfn, s =>
      if s.pageFramesCount <= pfn then
        some s
      else do
        let s <- pmmReserveRangePage F s pfn
        pmmReserveRangeLoop n (pfn + 1) s

def pmmReserveRange (s : State) (startPfn endPfn : Nat) : Option State :=
  if startPfn >= endPfn then some s
  else pmmReserveRangeLoop F (endPfn - startPfn) startPfn s

/-!
## Allocation

The outer loop looks for the first nonempty list at or above the requested
order; the inner loop hands the upper halves of the block found back to the
lists below it.
-/

def pmmFindOrder (s : State) : Nat -> Nat -> Option Nat
  | 0, _ => none
  | n + 1, currentOrder =>
      if listEmpty s.links (Node.area currentOrder) then
        pmmFindOrder s n (currentOrder + 1)
      else
        some currentOrder

/-- `n` is the distance of `current_order` from the requested order. -/
def pmmSplit (pfn order : Nat) : Nat -> State -> Option State
  | 0, s => some s
  | n + 1, s => do
      let currentOrder := order + n
      let buddy := pfn + (1 <<< currentOrder)
      let s := pageSetFlags F s buddy PageFlag.buddy
      let s <- s.listAdd buddy currentOrder
      pmmSplit pfn order n s

/-- `list_entry(free_area[order].next, page_t, list)`, as a frame number. -/
def firstPage (s : State) (order : Nat) : Option Nat :=
  match (s.links (Node.area order)).next with
  | some (Node.page pfn) => some pfn
  | _ => none

def pmmAllocPages (s : State) (order : Nat) : Option (Option Nat × State) :=
  if order > 10 then
    some (none, s)
  else
    match pmmFindOrder s (11 - order) order with
    | none => some (none, s)
    | some currentOrder => do
        let pfn <- firstPage s currentOrder
        let s <- s.listDel pfn
        let s := pageClearFlags F s pfn PageFlag.buddy
        let s <- pmmSplit F pfn order (currentOrder - order) s
        let s := s.setOrder pfn order
        let s := s.setFreePages (subU64 s.freePages (1 <<< order))
        return (some pfn, s)

/-!
## Freeing

The loop merges the freed block with its buddy as long as the buddy is marked
free and carries the same order.
-/

/-- The loop of `pmm_free_pages`; the first argument bounds `10 - order`. -/
def pmmMerge : Nat -> State -> Nat -> Nat -> Option (State × Nat × Nat)
  | 0, s, pfn, order => some (s, pfn, order)
  | n + 1, s, pfn, order =>
      let buddyPfn := pfn ^^^ (1 <<< order)
      if s.pageFramesCount <= buddyPfn then
        some (s, pfn, order)
      else if !pageTestFlags F s buddyPfn PageFlag.buddy ||
          (s.pageFrames buddyPfn).order != order then
        some (s, pfn, order)
      else do
        let s <- s.listDel buddyPfn
        let s := pageClearFlags F s buddyPfn PageFlag.buddy
        let pfn := if buddyPfn < pfn then buddyPfn else pfn
        let s := s.setOrder pfn (order + 1)
        pmmMerge n s pfn (order + 1)

def pmmFreePages (s : State) (pfn order : Nat) : Option State :=
  if order > 10 then
    some s
  else do
    let s := pageSetFlags F s pfn PageFlag.buddy
    let s := s.setOrder pfn order
    let s := s.setFreePages (addU64 s.freePages (1 <<< order))
    let (s, pfn, order) <- pmmMerge F (10 - order) s pfn order
    s.listAdd pfn order

end FlagFunctions

end Pmm
end Horizon
