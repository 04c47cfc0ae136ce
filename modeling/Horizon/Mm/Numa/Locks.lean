import Horizon.Lib.LockOrder
import Horizon.Mm.Numa.Model
import Horizon.Types

/-!
# Locks of the NUMA code

This module follows the locking of `numa.c` and of `memory_migration.c`.  A
call is a program over the spin locks of the nodes, the statistics lock and the
migration lock; what it does between two of them is a step on the shared
state.  A call ends by handing its result to the program that made it.
-/

namespace Horizon
namespace Numa

open LockOrder Transition

inductive Lock where
  | migration
  | numa
  | node (i : Nat)
  deriving DecidableEq

/-- The state of the nodes and the parameters of the migration. -/
structure Shared where
  numa : State
  migrationEnabled : Bool
  migrationInterval : Nat
  migrationThreshold : Nat
  migrationLastTime : Nat

/-- A program goes on with what it reads of the shared state. -/
def look (rest : Shared -> Program Lock Shared) : Program Lock Shared :=
  Program.act id rest

def countStatistics (rest : Program Lock Shared) : Program Lock Shared :=
  Program.take Lock.numa (Program.release Lock.numa rest)

/-! ## Allocation -/

/-- `numa_alloc_pages`.  Once the parameters have passed, all of it but the
statistics runs under the lock of the node. -/
def numaAllocPagesProgram (map : Mapping) (nodeId : Int) (count : Nat)
    (rest : Nat -> Program Lock Shared) : Program Lock Shared :=
  look fun s =>
    if nodeId < 0 ∨ (s.numa.nodeCount : Int) <= nodeId ∨ count = 0 then rest 0
    else
      Program.take (Lock.node nodeId.toNat)
        (Program.act
          (fun s =>
            match numaAllocPages map s.numa nodeId count with
            | none => s
            | some (_, numa) => { s with numa := numa })
          fun s =>
            match numaAllocPages map s.numa nodeId count with
            | none => Program.hang
            | some (addr, _) =>
                Program.release (Lock.node nodeId.toNat)
                  (if addr ≠ 0 then countStatistics (rest addr)
                  else rest addr))

def numaFreePagesProgram (map : Mapping) (addr count : Nat)
    (rest : Program Lock Shared) : Program Lock Shared :=
  look fun s =>
    if addr = 0 ∨ count = 0 then rest
    else
      match numaGetNodeForAddr s.numa
          (map.virtToPfn addr * 4096 % 2 ^ 64) with
      | none => rest
      | some i =>
          Program.take (Lock.node i)
            (Program.act
              (fun s => { s with numa := numaFreePages map s.numa addr count })
              fun _ => Program.release (Lock.node i) rest)

def tryNodesProgram (map : Mapping) (count : Nat)
    (rest : Option (Int × Nat) -> Program Lock Shared) :
    List Int -> Program Lock Shared
  | [] => rest none
  | nodeId :: ids =>
      numaAllocPagesProgram map nodeId count fun addr =>
        if addr ≠ 0 then rest (some (nodeId, addr))
        else tryNodesProgram map count rest ids

def foundAddr : Option (Int × Nat) -> Nat
  | none => 0
  | some (_, addr) => addr

def numaPolicyAllocPagesProgram (map : Mapping) (cpu count : Nat)
    (rest : Nat -> Program Lock Shared) : Program Lock Shared :=
  look fun s =>
    if count = 0 then rest 0
    else
      match s.numa.policy with
      | Policy.local =>
          if s.numa.nodeCount = 0 then Program.hang
          else
            tryNodesProgram map count (fun found => rest (foundAddr found))
              (Int.ofNat (cpu % s.numa.nodeCount) ::
                otherNodes s.numa (Int.ofNat (cpu % s.numa.nodeCount)))
      | Policy.interleave =>
          tryNodesProgram map count
            (fun found =>
              match found with
              | none => rest 0
              | some (nodeId, addr) =>
                  Program.act
                    (fun s => { s with numa := { s.numa with
                      nextNode := (nodeId.toNat + 1) % s.numa.nodeCount } })
                    fun _ => countStatistics (rest addr))
            (interleavedNodes s.numa)
      | Policy.preferred =>
          numaAllocPagesProgram map s.numa.preferredNode count fun addr =>
            if addr ≠ 0 then countStatistics (rest addr)
            else
              tryNodesProgram map count (fun found => rest (foundAddr found))
                (otherNodes s.numa s.numa.preferredNode)

/-! ## Migration -/

def findFreePage (allocated : Nat -> Bool) : Nat -> Nat -> Option Nat
  | 0, _ => none
  | n + 1, pfn =>
      if allocated pfn then findFreePage allocated n (pfn + 1) else some pfn

def movePage (s : State) (source target pfn : Nat) : Option State :=
  if (s.nodes target).freePages < 1 then none
  else
    match findFreePage s.allocated
        ((s.nodes target).endPfn - (s.nodes target).startPfn)
        (s.nodes target).startPfn with
    | none => none
    | some targetPfn =>
        let allocated := Function.update s.allocated targetPfn true
        let s := { s with allocated := Function.update allocated pfn false }
        let free := ((s.nodes source).freePages + 1) % 2 ^ 64
        let s := s.setNode source { s.nodes source with freePages := free }
        let free := ((s.nodes target).freePages + (2 ^ 64 - 1)) % 2 ^ 64
        some (s.setNode target { s.nodes target with freePages := free })

def movePageProgram (source target pfn : Nat) (rest : Int -> Program Lock Shared) :
    Program Lock Shared :=
  Program.act
    (fun s =>
      match movePage s.numa source target pfn with
      | none => s
      | some numa => { s with numa := numa })
    fun s =>
      Program.release (Lock.node source) (Program.release (Lock.node target)
        (match movePage s.numa source target pfn with
        | none => rest (-Errno.enomem)
        | some _ => countStatistics (rest 0)))

def numaMigratePageProgram (map : Mapping) (addr : Nat) (targetNode : Int)
    (rest : Int -> Program Lock Shared) : Program Lock Shared :=
  look fun s =>
    if addr = 0 ∨ targetNode < 0 ∨ (s.numa.nodeCount : Int) <= targetNode then
      rest (-Errno.einval)
    else
      let pfn := map.virtToPfn addr
      let target := targetNode.toNat
      match numaGetNodeForAddr s.numa (pfn * 4096 % 2 ^ 64) with
      | none => rest (-Errno.einval)
      | some source =>
          if source = target then rest 0
          else if source < target then
            Program.take (Lock.node source) (Program.take (Lock.node target)
              (movePageProgram source target pfn rest))
          else
            Program.take (Lock.node target) (Program.take (Lock.node source)
              (movePageProgram source target pfn rest))

/-- The nodes with the most and the fewest used pages. -/
structure Usage where
  busiestNode : Int
  idlestNode : Int
  busiestUsed : Nat
  idlestUsed : Nat

def nodeUsed (node : Node) : Nat :=
  (node.totalPages + (2 ^ 64 - node.freePages)) % 2 ^ 64

def Usage.add (u : Usage) (i used : Nat) : Usage :=
  let u := if u.busiestUsed < used then
    { u with busiestUsed := used, busiestNode := i } else u
  if used < u.idlestUsed then { u with idlestUsed := used, idlestNode := i }
  else u

def usage (s : State) : Usage :=
  (List.range s.nodeCount).foldl (fun u i => u.add i (nodeUsed (s.nodes i)))
    ⟨-1, -1, 0, 2 ^ 64 - 1⟩

def Usage.imbalance (u : Usage) : Nat :=
  (u.busiestUsed + (2 ^ 64 - u.idlestUsed)) % 2 ^ 64

/-- Whether the imbalance reaches the threshold.  The divisor wraps to zero
when the busiest node has the largest number of used pages. -/
def Usage.exceeds (u : Usage) (threshold : Nat) : Option Bool :=
  if u.busiestNode = -1 ∨ u.idlestNode = -1 ∨ u.busiestNode = u.idlestNode then
    some false
  else if u.imbalance = 0 then some false
  else if (u.busiestUsed + 1) % 2 ^ 64 = 0 then none
  else
    some (decide (threshold <=
      u.imbalance * 100 % 2 ^ 64 / ((u.busiestUsed + 1) % 2 ^ 64)))

def memoryMigrationNeeded (now : Nat) (s : Shared) : Option Bool × Shared :=
  if ¬ s.migrationEnabled then (some false, s)
  else if (now + (2 ^ 64 - s.migrationLastTime)) % 2 ^ 64 <
      s.migrationInterval then (some false, s)
  else
    let s := { s with migrationLastTime := now }
    if s.numa.nodeCount <= 1 then (some false, s)
    else ((usage s.numa).exceeds s.migrationThreshold, s)

def migratePages (map : Mapping) (targetNode : Int) (wanted : Nat)
    (rest : Nat -> Program Lock Shared) :
    Nat -> Nat -> Nat -> Program Lock Shared
  | 0, _, migrated => rest migrated
  | n + 1, pfn, migrated =>
      if migrated < wanted then
        look fun s =>
          if s.numa.allocated pfn then
            numaMigratePageProgram map (map.pfnToVirt pfn) targetNode fun ret =>
              migratePages map targetNode wanted rest n (pfn + 1)
                (if ret = 0 then migrated + 1 else migrated)
          else migratePages map targetNode wanted rest n (pfn + 1) migrated
      else rest migrated

def memoryMigrationRun (map : Mapping) (now : Nat)
    (rest : Int -> Program Lock Shared) : Program Lock Shared :=
  Program.act (fun s => (memoryMigrationNeeded now s).2) fun s =>
    match (memoryMigrationNeeded now s).1 with
    | none => Program.hang
    | some false => rest 0
    | some true =>
        Program.take Lock.migration (look fun s =>
          let u := usage s.numa
          match u.exceeds s.migrationThreshold with
          | none => Program.hang
          | some false => Program.release Lock.migration (rest 0)
          | some true =>
              let busiest := s.numa.nodes u.busiestNode.toNat
              migratePages map u.idlestNode (max (u.imbalance / 2) 1)
                (fun migrated =>
                  Program.release Lock.migration
                    (rest (asInt (migrated % 2 ^ 32))))
                (busiest.endPfn - busiest.startPfn) busiest.startPfn 0)

def migrateRange (map : Mapping) (targetNode : Int)
    (rest : Nat -> Program Lock Shared) :
    Nat -> Nat -> Nat -> Program Lock Shared
  | 0, _, migrated => rest migrated
  | n + 1, page, migrated =>
      numaMigratePageProgram map (page % 2 ^ 32) targetNode fun ret =>
        migrateRange map targetNode rest n (page + 4096)
          (if ret = 0 then migrated + 1 else migrated)

def memoryMigrationRange (map : Mapping) (addr size : Nat) (targetNode : Int)
    (rest : Int -> Program Lock Shared) : Program Lock Shared :=
  look fun s =>
    if addr = 0 ∨ size = 0 ∨ targetNode < 0 ∨
        (s.numa.nodeCount : Int) <= targetNode then rest (-Errno.einval)
    else
      let first := addr / 4096 * 4096
      let last := (addr + size + 4095) / 4096 * 4096
      Program.take Lock.migration
        (migrateRange map targetNode
          (fun migrated =>
            Program.release Lock.migration (rest (asInt (migrated % 2 ^ 32))))
          ((last - first) / 4096) first 0)

/-! ## Calls in order -/

/-- The migration lock is taken before the lock of a node, and the locks of two
nodes in the order of their numbers.  The statistics lock is taken with no lock
of a node held. -/
def rank : Lock -> Nat
  | Lock.migration => 0
  | Lock.numa => 1
  | Lock.node i => i + 2

def Low (held : Finset Lock) : Prop := forall l, l ∈ held -> l = Lock.migration

variable {held : Finset Lock} {l : Lock} {rest : Int -> Program Lock Shared}

theorem Low.rank_lt (h : Low held) (hl : l ≠ .migration) :
    forall k, k ∈ held -> rank k < rank l := by
  intro k hk
  rw [h k hk]
  cases l with
  | migration => exact absurd rfl hl
  | numa => exact Nat.zero_lt_one
  | node i => exact Nat.succ_pos _

theorem Low.not_mem (h : Low held) (hl : l ≠ .migration) : l ∉ held :=
  fun hmem => hl (h l hmem)

section Ordered

variable {held : Finset Lock}

theorem ordered_look {rest : Shared -> Program Lock Shared}
    (h : forall s, Ordered rank held (rest s)) :
    Ordered rank held (look rest) := h

theorem ordered_countStatistics (hlow : Low held) {rest : Program Lock Shared}
    (h : Ordered rank held rest) :
    Ordered rank held (countStatistics rest) := by
  refine ⟨hlow.rank_lt (by decide), Finset.mem_insert_self _ _, ?_⟩
  rw [Finset.erase_insert (hlow.not_mem (by decide))]
  exact h

theorem ordered_node (hlow : Low held) (i : Nat) {update : Shared -> Shared}
    {rest : Shared -> Program Lock Shared}
    (h : forall s, rest s = .hang ∨ exists p,
      rest s = .release (.node i) p ∧ Ordered rank held p) :
    Ordered rank held
      (.take (.node i) (.act update rest)) := by
  refine ⟨hlow.rank_lt (fun hc => by cases hc), ?_⟩
  intro s
  rcases h s with hhang | ⟨p, hrelease, hp⟩
  · rw [hhang]
    trivial
  · rw [hrelease]
    refine ⟨Finset.mem_insert_self _ _, ?_⟩
    rw [Finset.erase_insert (hlow.not_mem (fun hc => by cases hc))]
    exact hp

variable {rest : Nat -> Program Lock Shared}

section

variable (hlow : Low held)
include hlow

theorem ordered_numaAllocPages (map : Mapping) (nodeId : Int) (count : Nat)
    (h : forall addr, Ordered rank held (rest addr)) :
    Ordered rank held (numaAllocPagesProgram map nodeId count rest) := by
  apply ordered_look
  intro s
  split
  case isTrue => exact h 0
  case isFalse =>
    apply ordered_node hlow
    intro s
    split
    case h_1 => exact Or.inl rfl
    case h_2 addr _ _ =>
      refine Or.inr ⟨_, rfl, ?_⟩
      split
      case isTrue => exact ordered_countStatistics hlow (h addr)
      case isFalse => exact h addr

theorem ordered_numaFreePages (map : Mapping) (addr count : Nat)
    {rest : Program Lock Shared}
    (h : Ordered rank held rest) :
    Ordered rank held (numaFreePagesProgram map addr count rest) := by
  apply ordered_look
  intro s
  split
  case isTrue => exact h
  case isFalse =>
    split
    case h_1 => exact h
    case h_2 i _ =>
      apply ordered_node hlow
      exact fun _ => Or.inr ⟨_, rfl, h⟩

theorem ordered_tryNodes (map : Mapping) (count : Nat)
    {rest : Option (Int × Nat) -> Program Lock Shared}
    (h : forall found, Ordered rank held (rest found)) (ids : List Int) :
    Ordered rank held (tryNodesProgram map count rest ids) := by
  induction ids with
  | nil => exact h none
  | cons nodeId ids ih =>
    apply ordered_numaAllocPages hlow
    intro addr
    split
    case isTrue => exact h _
    case isFalse => exact ih

theorem ordered_numaPolicyAllocPages (map : Mapping) (cpu count : Nat)
    (h : forall addr, Ordered rank held (rest addr)) :
    Ordered rank held (numaPolicyAllocPagesProgram map cpu count rest) := by
  apply ordered_look
  intro s
  split
  case isTrue => exact h 0
  case isFalse =>
    split
    case h_1 =>
      split
      case isTrue => trivial
      case isFalse => exact ordered_tryNodes hlow map count (fun _ => h _) _
    case h_2 =>
      apply ordered_tryNodes hlow
      intro found
      cases found with
      | none => exact h 0
      | some found => exact fun _ => ordered_countStatistics hlow (h _)
    case h_3 =>
      apply ordered_numaAllocPages hlow
      intro addr
      split
      case isTrue => exact ordered_countStatistics hlow (h addr)
      case isFalse => exact ordered_tryNodes hlow map count (fun _ => h _) _

theorem ordered_movePage {source target : Nat} (hne : source ≠ target)
    (pfn : Nat) {rest : Int -> Program Lock Shared}
    (h : forall ret, Ordered rank held (rest ret)) :
    Ordered rank
      (insert (.node source) (insert (.node target) held))
      (movePageProgram source target pfn rest) := by
  have hsource : .node source ∉ insert (.node target) held := by
    rw [Finset.mem_insert]
    rintro (hc | hc)
    · exact hne (Lock.node.inj hc)
    · exact hlow.not_mem (fun hc => by cases hc) hc
  intro s
  refine ⟨Finset.mem_insert_self _ _, ?_⟩
  rw [Finset.erase_insert hsource]
  refine ⟨Finset.mem_insert_self _ _, ?_⟩
  rw [Finset.erase_insert (hlow.not_mem (fun hc => by cases hc))]
  split
  case h_1 => exact h _
  case h_2 => exact ordered_countStatistics hlow (h 0)

theorem rank_lt_node {i j : Nat} (hlt : i < j) :
    forall k, k ∈ insert (.node i) held -> rank k < rank (.node j) := by
  intro k hk
  rcases Finset.mem_insert.mp hk with rfl | hk
  · exact Nat.add_lt_add_right hlt 2
  · exact hlow.rank_lt (fun hc => by cases hc) k hk

theorem ordered_numaMigratePage (map : Mapping) (addr : Nat) (targetNode : Int)
    {rest : Int -> Program Lock Shared}
    (h : forall ret, Ordered rank held (rest ret)) :
    Ordered rank held (numaMigratePageProgram map addr targetNode rest) := by
  have hnode (i : Nat) : forall k, k ∈ held -> rank k < rank (.node i) :=
    hlow.rank_lt (fun hc => by cases hc)
  apply ordered_look
  intro s
  split
  case isTrue => exact h _
  case isFalse =>
    simp only
    split
    case h_1 => exact h _
    case h_2 source _ =>
      split
      case isTrue => exact h 0
      case isFalse hne =>
        split
        case isTrue hlt =>
          refine ⟨hnode source, rank_lt_node hlow hlt, ?_⟩
          rw [Finset.insert_comm]
          exact ordered_movePage hlow hne _ h
        case isFalse hge =>
          have hlt : targetNode.toNat < source := by omega
          refine ⟨hnode _, rank_lt_node hlow hlt, ?_⟩
          exact ordered_movePage hlow hne _ h

theorem ordered_migratePages (map : Mapping) (targetNode : Int) (wanted : Nat)
    (h : forall migrated, Ordered rank held (rest migrated))
    (n pfn migrated : Nat) :
    Ordered rank held
      (migratePages map targetNode wanted rest n pfn migrated) := by
  induction n generalizing pfn migrated with
  | zero => exact h migrated
  | succ n ih =>
    unfold migratePages
    split
    case isTrue =>
      apply ordered_look
      intro s
      split
      case isTrue =>
        exact ordered_numaMigratePage hlow map _ targetNode (fun _ => ih _ _)
      case isFalse => exact ih _ _
    case isFalse => exact h migrated

theorem ordered_migrateRange (map : Mapping) (targetNode : Int)
    (h : forall migrated, Ordered rank held (rest migrated))
    (n page migrated : Nat) :
    Ordered rank held (migrateRange map targetNode rest n page migrated) := by
  induction n generalizing page migrated with
  | zero => exact h migrated
  | succ n ih =>
    exact ordered_numaMigratePage hlow map _ targetNode (fun _ => ih _ _)

end

end Ordered

theorem low_empty : Low ∅ := fun _ hl => absurd hl (Finset.notMem_empty _)

theorem low_migration : Low (insert .migration ∅) := by
  intro l hl
  simpa using hl

theorem ordered_release_migration {rest : Program Lock Shared}
    (h : Ordered rank ∅ rest) :
    Ordered rank (insert .migration ∅)
      (.release .migration rest) := by
  refine ⟨Finset.mem_insert_self _ _, ?_⟩
  exact h

theorem ordered_memoryMigrationRun (map : Mapping) (now : Nat)
    (h : forall ret, Ordered rank ∅ (rest ret)) :
    Ordered rank ∅ (memoryMigrationRun map now rest) := by
  intro s
  beta_reduce
  split
  case h_1 => trivial
  case h_2 => exact h 0
  case h_3 =>
    refine ⟨fun k hk => absurd hk (Finset.notMem_empty k), ?_⟩
    apply ordered_look
    intro s
    simp only
    split
    case h_1 => trivial
    case h_2 => exact ordered_release_migration (h 0)
    case h_3 =>
      apply ordered_migratePages low_migration
      exact fun _ => ordered_release_migration (h _)

theorem ordered_memoryMigrationRange (map : Mapping) (addr size : Nat)
    (targetNode : Int) (h : forall ret, Ordered rank ∅ (rest ret)) :
    Ordered rank ∅ (memoryMigrationRange map addr size targetNode rest) := by
  apply ordered_look
  intro s
  split
  case isTrue => exact h _
  case isFalse =>
    refine ⟨fun k hk => absurd hk (Finset.notMem_empty k), ?_⟩
    apply ordered_migrateRange low_migration
    exact fun _ => ordered_release_migration (h _)

/-! ## Deadlock freedom -/

/-- The calls that threads make, with any arguments. -/
inductive ThreadCall where
  | allocPages (nodeId : Int) (count : Nat)
  | freePages (addr count : Nat)
  | migratePage (addr : Nat) (targetNode : Int)
  | policyAllocPages (cpu count : Nat)
  | migrationRun (now : Nat)
  | migrationRange (addr size : Nat) (targetNode : Int)

def ThreadCall.program (map : Mapping) : ThreadCall -> Program Lock Shared
  | ThreadCall.allocPages nodeId count =>
      numaAllocPagesProgram map nodeId count fun _ => Program.done
  | ThreadCall.freePages addr count =>
      numaFreePagesProgram map addr count Program.done
  | ThreadCall.migratePage addr targetNode =>
      numaMigratePageProgram map addr targetNode fun _ => Program.done
  | ThreadCall.policyAllocPages cpu count =>
      numaPolicyAllocPagesProgram map cpu count fun _ => Program.done
  | ThreadCall.migrationRun now =>
      memoryMigrationRun map now fun _ => Program.done
  | ThreadCall.migrationRange addr size targetNode =>
      memoryMigrationRange map addr size targetNode fun _ => Program.done

theorem ThreadCall.ordered (map : Mapping) (call : ThreadCall) :
    Ordered rank ∅ (call.program map) := by
  have hdone : Ordered rank ∅ (.done : Program Lock Shared) := rfl
  cases call with
  | allocPages nodeId count =>
    exact ordered_numaAllocPages low_empty map nodeId count (fun _ => hdone)
  | freePages addr count =>
    exact ordered_numaFreePages low_empty map addr count hdone
  | migratePage addr targetNode =>
    exact ordered_numaMigratePage low_empty map addr targetNode (fun _ => hdone)
  | policyAllocPages cpu count =>
    exact ordered_numaPolicyAllocPages low_empty map cpu count (fun _ => hdone)
  | migrationRun now => exact ordered_memoryMigrationRun map now (fun _ => hdone)
  | migrationRange addr size targetNode =>
    exact ordered_memoryMigrationRange map addr size targetNode
      (fun _ => hdone)

def NumaCalls (map : Mapping) (p : Program Lock Shared) : Prop :=
  exists call : ThreadCall, p = call.program map

/-- In every state that threads reach by these calls, no cycle of threads waits
for each other and no thread waits for itself. -/
theorem numa_deadlock_free {thread : Type} [DecidableEq thread] {map : Mapping}
    {s : LockOrder.System thread Lock Shared}
    (h : Reachable Idle
      (Guarded (Starts (NumaCalls map)) LockOrder.next) s) :
    (forall t, ¬ Relation.TransGen (Waits s) t t) ∧
      forall t, ¬ Waits s t t := by
  have hordered : forall p, NumaCalls map p -> Ordered rank ∅ p := by
    rintro p ⟨call, rfl⟩
    exact call.ordered map
  have hacyclic := acyclic_of_ordered hordered h
  exact ⟨hacyclic, fun t ht => hacyclic t (Relation.TransGen.single ht)⟩

def idleSystem : LockOrder.System (Fin 2) Lock Shared where
  state :=
    { numa :=
        { nodeCount := 1
          nodes := fun _ => ⟨0, 4, 4, 4⟩
          allocated := fun _ => false
          policy := Policy.local
          preferredNode := 0
          nextNode := 0 }
      migrationEnabled := true
      migrationInterval := 1000
      migrationThreshold := 25
      migrationLastTime := 0 }
  owner := fun _ => none
  program := fun _ => Program.done

/-- Two threads allocate from the same node, and one waits for the other. -/
theorem numa_deadlock_free_one_waits :
    exists s : LockOrder.System (Fin 2) Lock Shared, Waits s 1 0 ∧
      ((forall t, ¬ Relation.TransGen (Waits s) t t) ∧
      forall t, ¬ Waits s t t) := by
  have hidle : Reachable Idle (Guarded
      (Starts (NumaCalls ⟨fun p => p + 1, fun a => a - 1⟩)) LockOrder.next)
      idleSystem :=
    Reachable.init ⟨fun _ => rfl, fun _ => rfl⟩
  have hcall (t : Fin 2) (s : LockOrder.System (Fin 2) Lock Shared) :
      Starts (NumaCalls ⟨fun p => p + 1, fun a => a - 1⟩) s
        (t, some ((ThreadCall.allocPages 0 1).program _)) :=
    fun _ hp => ⟨_, (Option.some.inj hp).symm⟩
  have hstep (t : Fin 2) (s : LockOrder.System (Fin 2) Lock Shared) :
      Starts (NumaCalls ⟨fun p => p + 1, fun a => a - 1⟩) s (t, none) :=
    fun _ hp => by cases hp
  have hfirst := hidle.step ⟨hcall 0 _, rfl⟩
  have hlooked := hfirst.step ⟨hstep 0 _, rfl⟩
  have htaken := hlooked.step ⟨hstep 0 _, rfl⟩
  have hsecond := htaken.step ⟨hcall 1 _, rfl⟩
  have hwaits := hsecond.step ⟨hstep 1 _, rfl⟩
  exact ⟨_, ⟨Lock.node 0, _, rfl, rfl⟩, numa_deadlock_free hwaits⟩

end Numa
end Horizon
