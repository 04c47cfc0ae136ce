import Horizon.Lib.Intervals

/-!
# NUMA nodes

This module follows the page allocation of `numa.c`.  Page frame numbers are
64-bit numbers.  `pmm_is_page_allocated`, `pmm_allocate_page` and
`pmm_free_page` act on a set of page frame numbers; the conversions between
page frame numbers and addresses are parameters.  The statistics of the calls
are left out.
-/

namespace Horizon
namespace Numa

open Intervals

structure Node where
  startPfn : Nat
  endPfn : Nat
  freePages : Nat
  totalPages : Nat
  deriving DecidableEq

inductive Policy where
  | local
  | interleave
  | preferred
  deriving DecidableEq

/-- The conversions `pmm_pfn_to_virt` and `pmm_virt_to_pfn`. -/
structure Mapping where
  pfnToVirt : Nat -> Nat
  virtToPfn : Nat -> Nat

structure State where
  nodeCount : Nat
  nodes : Nat -> Node
  /-- The set of allocated page frames. -/
  allocated : Nat -> Bool
  policy : Policy
  preferredNode : Int
  /-- The static variable of `numa_policy_alloc_pages`. -/
  nextNode : Nat

def State.setNode (s : State) (i : Nat) (node : Node) : State :=
  { s with nodes := Function.update s.nodes i node }

/-- `pmm_allocate_page` or `pmm_free_page` on the pages of a block in turn. -/
def markPages (allocated : Nat -> Bool) (value : Bool) (pfn : Nat) :
    Nat -> Nat -> Bool
  | 0 => allocated
  | n + 1 => Function.update (markPages allocated value pfn n)
      ((pfn + n) % 2 ^ 64) value

/-- The inner loop of `numa_alloc_pages`. -/
def pagesFree (allocated : Nat -> Bool) (pfn count : Nat) : Bool :=
  (List.range count).all fun i => !allocated ((pfn + i) % 2 ^ 64)

/-- The outer loop of `numa_alloc_pages` from `pfn` on.  The loop variable
has 64 bits: after as many turns as there are numbers the loop repeats itself
and never ends. -/
def findPages (allocated : Nat -> Bool) (count last : Nat) :
    Nat -> Nat -> Option (Option Nat)
  | 0, _ => none
  | fuel + 1, pfn =>
      if pfn <= last then
        if pagesFree allocated pfn count then some (some pfn)
        else findPages allocated count last fuel ((pfn + 1) % 2 ^ 64)
      else some none

/-- `numa_alloc_pages` with the address it returns, 0 for `NULL`. -/
def numaAllocPages (map : Mapping) (s : State) (nodeId : Int) (count : Nat) :
    Option (Nat × State) :=
  if nodeId < 0 ∨ (s.nodeCount : Int) <= nodeId ∨ count = 0 then some (0, s)
  else
    let i := nodeId.toNat
    let node := s.nodes i
    if node.freePages < count then some (0, s)
    else
      let last := (node.endPfn + (2 ^ 64 - count)) % 2 ^ 64
      match findPages s.allocated count last (2 ^ 64) node.startPfn with
      | none => none
      | some none => some (0, s)
      | some (some pfn) =>
          some (map.pfnToVirt pfn,
            { s.setNode i { node with
                freePages := (node.freePages + (2 ^ 64 - count)) % 2 ^ 64 } with
              allocated := markPages s.allocated true pfn count })

def findNode (s : State) (pfn : Nat) : Option Nat :=
  (List.range s.nodeCount).find? fun i =>
    decide ((s.nodes i).startPfn <= pfn ∧ pfn < (s.nodes i).endPfn)

def numaGetNodeForAddr (s : State) (physAddr : Nat) : Option Nat :=
  findNode s (physAddr / 4096)

def numaFreePages (map : Mapping) (s : State) (addr count : Nat) : State :=
  if addr = 0 ∨ count = 0 then s
  else
    let pfn := map.virtToPfn addr
    match numaGetNodeForAddr s (pfn * 4096 % 2 ^ 64) with
    | none => s
    | some i =>
        let node := s.nodes i
        { s.setNode i { node with
            freePages := (node.freePages + count) % 2 ^ 64 } with
          allocated := markPages s.allocated false pfn count }

def tryNodes (map : Mapping) (count : Nat) :
    List Int -> State -> Option (Option (Int × Nat) × State)
  | [], s => some (none, s)
  | nodeId :: ids, s =>
      match numaAllocPages map s nodeId count with
      | none => none
      | some (addr, s) =>
          if addr ≠ 0 then some (some (nodeId, addr), s)
          else tryNodes map count ids s

/-- All nodes but one, as the loops that fall back to any node take them. -/
def otherNodes (s : State) (nodeId : Int) : List Int :=
  ((List.range s.nodeCount).map Int.ofNat).filter (fun i => decide (i ≠ nodeId))

def interleavedNodes (s : State) : List Int :=
  (List.range s.nodeCount).map fun i =>
    Int.ofNat ((s.nextNode + i) % s.nodeCount)

/-- `numa_policy_alloc_pages` on the given processor.  Without a node the local
one is found by a division by zero. -/
def numaPolicyAllocPages (map : Mapping) (s : State) (cpu count : Nat) :
    Option (Nat × State) :=
  if count = 0 then some (0, s)
  else
    match s.policy with
    | Policy.local =>
        if s.nodeCount = 0 then none
        else
          let localNode := Int.ofNat (cpu % s.nodeCount)
          match tryNodes map count (localNode :: otherNodes s localNode) s with
          | none => none
          | some (none, s) => some (0, s)
          | some (some (_, addr), s) => some (addr, s)
    | Policy.interleave =>
        match tryNodes map count (interleavedNodes s) s with
        | none => none
        | some (none, s) => some (0, s)
        | some (some (nodeId, addr), s) =>
            some (addr, { s with nextNode := (nodeId.toNat + 1) % s.nodeCount })
    | Policy.preferred =>
        match tryNodes map count
            (s.preferredNode :: otherNodes s s.preferredNode) s with
        | none => none
        | some (none, s) => some (0, s)
        | some (some (_, addr), s) => some (addr, s)

def numaSetPolicy (s : State) (policy : Policy) (preferredNode : Int) : State :=
  if policy = Policy.preferred ∧
      (preferredNode < 0 ∨ (s.nodeCount : Int) <= preferredNode) then s
  else
    { s with
      policy := policy
      preferredNode :=
        if policy = Policy.preferred then preferredNode else s.preferredNode }

/-! ## Runs -/

/-- The nodes with the blocks that were returned and not freed since. -/
structure System where
  state : State
  live : List Interval

inductive Call where
  | alloc (nodeId : Int) (count : BitVec 32)
  | policyAlloc (cpu : Nat) (count : BitVec 32)
  | free (block : Interval)
  | setPolicy (policy : Policy) (preferredNode : Int)

def System.record (map : Mapping) (sys : System) (count : Nat) :
    Option (Nat × State) -> Option System
  | none => none
  | some (addr, s) =>
      if addr = 0 then some { sys with state := s }
      else some ⟨s, ⟨map.virtToPfn addr, count⟩ :: sys.live⟩

def next (map : Mapping) (sys : System) : Call -> Option System
  | Call.alloc nodeId count =>
      sys.record map count.toNat
        (numaAllocPages map sys.state nodeId count.toNat)
  | Call.policyAlloc cpu count =>
      sys.record map count.toNat
        (numaPolicyAllocPages map sys.state cpu count.toNat)
  | Call.free block =>
      if block ∈ sys.live then
        some ⟨numaFreePages map sys.state (map.pfnToVirt block.start) block.size,
          sys.live.erase block⟩
      else none
  | Call.setPolicy policy preferredNode =>
      some { sys with state := numaSetPolicy sys.state policy preferredNode }

end Numa
end Horizon
