import Horizon.Lib.LinkedList
import Horizon.Mm.Memory

/-!
# The slab allocator

This module follows `mm/slab.c`: caches of objects of one size, whose slabs are
single pages on one of three lists, and `kmalloc` and `kfree` over thirteen
caches.  Locks, names, the list of caches and destructors, which only touch an
object that is about to be linked, are left out.

A result is absent when the call faults on a null pointer or on a list head that
is taken for a slab, or does not return.
-/

namespace Horizon
namespace Slab

open LinkedList
open Memory

inductive Kind where
  | slabsFull
  | slabsPartial
  | slabsFree
deriving DecidableEq

/-- A list node: the head of a list of a cache, or a slab by its address. -/
inductive Node where
  | head (cache : Nat) (kind : Kind)
  | slab (addr : Nat)
deriving DecidableEq

def slabHeader : Nat := 24

/-- `slab_t` without its links. -/
structure SlabData where
  start : Nat
  inuse : Nat
  free : Nat
  freelist : Option Nat

/--
The fields of `slab_cache_t` that are read.  The constructor is given by the
first word that it leaves in an object.
-/
structure Cache where
  size : Nat
  num : Nat
  totalObjects : Nat
  totalSlabs : Nat
  ctor : Option (Nat -> Option Nat)

/--
The caches, the links of the lists, the slabs by address, the first word of each
object, read as a pointer to the next free one, and the page allocator.
-/
structure State where
  cache : Nat -> Cache
  links : Links Node
  slab : Nat -> SlabData
  next : Nat -> Option Nat
  mm : Memory.State

def add32 (a b : Nat) : Nat := (a + b) % 2 ^ 32

def sub32 (a b : Nat) : Nat := (a + (2 ^ 32 - b)) % 2 ^ 32

def State.setSlab (s : State) (a : Nat) (d : SlabData) : State :=
  { s with slab := Function.update s.slab a d }

def State.setNext (s : State) (obj : Nat) (v : Option Nat) : State :=
  { s with next := Function.update s.next obj v }

def State.setCache (s : State) (k : Nat) (c : Cache) : State :=
  { s with cache := Function.update s.cache k c }

def moveSlab (L : Links Node) (a : Nat) (head : Node) : Option (Links Node) :=
  do
    let L <- listDel L (Node.slab a)
    listAdd L (Node.slab a) head

def firstSlab (L : Links Node) (head : Node) : Option Nat :=
  match (L head).next with
  | some (Node.slab a) => some a
  | _ => none

/-!
## Caches
-/

/--
The sizes that `slab_cache_create` computes; the counters are whatever the page
of the cache held.
-/
def newCache (size align : Nat) (ctor : Option (Nat -> Option Nat))
    (oldObjects oldSlabs : Nat) : Cache :=
  let size := if size < 4 then 4 else size
  let align := if align < 4 then 4 else align
  let size := (size + align - 1) % 2 ^ 32 &&& (2 ^ 32 - align)
  { size := size
    num := if (pageSize - slabHeader) / size = 0 then 1
      else (pageSize - slabHeader) / size
    totalObjects := oldObjects
    totalSlabs := oldSlabs
    ctor := ctor }

/--
`slab_cache_create`, with the cache under a number instead of its address.  The
first component tells whether there is a cache.
-/
def slabCacheCreate (s : State) (k size align : Nat)
    (ctor : Option (Nat -> Option Nat)) : Bool × State :=
  if size = 0 then (false, s)
  else
    let page := (mmAllocPages s.mm 1).1
    let s := { s with mm := (mmAllocPages s.mm 1).2 }
    if page = 0 then (false, s)
    else
      let s := s.setCache k (newCache size align ctor (s.cache k).totalObjects
        (s.cache k).totalSlabs)
      let L := listInit s.links (Node.head k Kind.slabsFull)
      let L := listInit L (Node.head k Kind.slabsPartial)
      let L := listInit L (Node.head k Kind.slabsFree)
      (true, { s with links := L })

def objectAt (a size i : Nat) : Nat := a + slabHeader + i * size

def initLoop (a size : Nat) (ctor : Option (Nat -> Option Nat)) :
    Nat -> Nat -> State -> State
  | 0, _, s => s
  | n + 1, i, s =>
      let obj := objectAt a size i
      let s := s.setNext obj (s.slab a).freelist
      let s := s.setSlab a { s.slab a with freelist := some obj }
      let s := match ctor with
        | none => s
        | some f => s.setNext obj (f obj)
      initLoop a size ctor n (i + 1) s

def slabAlloc (s : State) (k : Nat) : Option (Option Nat × State) :=
  let a := (mmAllocPages s.mm 1).1
  let s := { s with mm := (mmAllocPages s.mm 1).2 }
  if a = 0 then some (none, s)
  else do
    let c := s.cache k
    let s := s.setSlab a {
      start := a
      inuse := 0
      free := c.num
      freelist := none }
    let s := initLoop a c.size c.ctor c.num 0 s
    let links <- listAdd s.links (Node.slab a) (Node.head k Kind.slabsFree)
    let s := { s with links := links }
    return (some a, s.setCache k { s.cache k with
      totalSlabs := add32 (s.cache k).totalSlabs 1
      totalObjects := add32 (s.cache k).totalObjects c.num })

def pickSlab (s : State) (k : Nat) : Option (Option Nat × State) :=
  if listEmpty s.links (Node.head k Kind.slabsPartial) then
    if listEmpty s.links (Node.head k Kind.slabsFree) then do
      match <- slabAlloc s k with
      | (none, s) => return (none, s)
      | (some a, s) =>
          let links <- listAdd s.links (Node.slab a)
            (Node.head k Kind.slabsPartial)
          return (some a, { s with links := links })
    else do
      let a <- firstSlab s.links (Node.head k Kind.slabsFree)
      let links <- moveSlab s.links a (Node.head k Kind.slabsPartial)
      return (some a, { s with links := links })
  else do
    let a <- firstSlab s.links (Node.head k Kind.slabsPartial)
    return (some a, s)

def takeObject (s : State) (k a : Nat) : Option (Nat × State) := do
  let obj <- (s.slab a).freelist
  let s := s.setSlab a { s.slab a with
    freelist := s.next obj
    inuse := add32 (s.slab a).inuse 1
    free := sub32 (s.slab a).free 1 }
  if (s.slab a).free = 0 then
    let links <- moveSlab s.links a (Node.head k Kind.slabsFull)
    return (obj, { s with links := links })
  else return (obj, s)

/--
Zero stands for `NULL`.  `zero` is the flag `MEM_ZERO`; clearing an object
is described as far as it stays inside the page.
-/
def slabCacheAlloc (s : State) (k : Nat) (zero : Bool) :
    Option (Nat × State) := do
  match <- pickSlab s k with
  | (none, s) => return (0, s)
  | (some a, s) =>
      let (obj, s) <- takeObject s k a
      return (obj, if zero then s.setNext obj none else s)

/-- `obj & PAGE_MASK` -/
def pageOf (obj : Nat) : Nat := obj / pageSize * pageSize

/-- The two list updates of `slab_cache_free`. -/
def relinkSlab (L : Links Node) (k a free num : Nat) : Option (Links Node) :=
  (if free = 1 then moveSlab L a (Node.head k Kind.slabsPartial)
  else some L).bind fun L =>
    if free = num then moveSlab L a (Node.head k Kind.slabsFree) else some L

def slabCacheFree (s : State) (k obj : Nat) : Option State :=
  if obj = 0 then some s
  else do
    let a := pageOf obj
    let s := s.setNext obj (s.slab a).freelist
    let s := s.setSlab a { s.slab a with
      freelist := some obj
      inuse := sub32 (s.slab a).inuse 1
      free := add32 (s.slab a).free 1 }
    let links <- relinkSlab s.links k a (s.slab a).free (s.cache k).num
    return { s with links := links }

def shrinkLoop (k : Nat) : Nat -> Node -> Node -> State -> Option State
  | 0, _, _, _ => none
  | fuel + 1, pos, following, s =>
      if pos = Node.head k Kind.slabsFree then some s
      else
        match pos with
        | Node.head _ _ => none
        | Node.slab a => do
            let links <- listDel s.links (Node.slab a)
            let s := { s with
              links := links
              mm := mmFreePages s.mm (s.slab a).start 1 }
            let c := s.cache k
            let s := s.setCache k { c with
              totalSlabs := sub32 c.totalSlabs 1
              totalObjects := sub32 c.totalObjects c.num }
            let after <- (s.links following).next
            shrinkLoop k fuel following after s

def slabCacheShrink (fuel : Nat) (s : State) (k : Nat) : Option State := do
  let pos <- (s.links (Node.head k Kind.slabsFree)).next
  let following <- (s.links pos).next
  shrinkLoop k fuel pos following s

/-!
## `kmalloc` and `kfree`
-/

def kmallocSizes : List Nat :=
  [32, 64, 128, 256, 512, 1024, 2048, 4096, 8192, 16384, 32768, 65536, 131072]

def kmalloc (s : State) (size : Nat) (zero : Bool) : Option (Nat × State) :=
  if size = 0 then some (0, s)
  else
    match kmallocSizes.findIdx? fun bound => size <= bound with
    | some k => slabCacheAlloc s k zero
    | none =>
        let pages := (size + (pageSize - 1)) % 2 ^ 32 / pageSize
        some ((mmAllocPages s.mm pages).1,
          { s with mm := (mmAllocPages s.mm pages).2 })

def kfree (s : State) (addr : Nat) : Option State :=
  if addr = 0 then some s else slabCacheFree s 0 addr

end Slab
end Horizon
