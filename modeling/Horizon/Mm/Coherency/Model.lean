import Horizon.Lib.Sweep
import Horizon.Types
import Mathlib.Data.List.FinRange

/-!
# Cache coherency

This module follows `cache_coherency.c`: a directory of cache lines that is
indexed by a part of the address, in which each line has a state for every CPU.
A call runs under the lock as a whole.  The messages that other CPUs would get
are left open by the source.
-/

namespace Horizon
namespace Coherency

open Function Sweep

/-- The states `CACHE_LINE_INVALID` to `CACHE_LINE_EXCLUSIVE`. -/
inductive LineState where
  | invalid
  | shared
  | modified
  | exclusive
  deriving DecidableEq

def LineState.code : LineState -> Int
  | invalid => 0
  | shared => 1
  | modified => 2
  | exclusive => 3

def checkState (state : Int) : Option LineState :=
  if state = 0 then some LineState.invalid
  else if state = 1 then some LineState.shared
  else if state = 2 then some LineState.modified
  else if state = 3 then some LineState.exclusive
  else none

inductive Protocol where
  | none
  | msi
  | mesi
  | moesi
  deriving DecidableEq

def maxCpus : Nat := 32

def cacheDirectorySize : Nat := 1024

abbrev Cpu := Fin maxCpus

abbrev Slot := Fin cacheDirectorySize

/-- The state of one line for each CPU. -/
abbrev Line := Cpu -> LineState

def checkCpu (cpu : Int) : Option Cpu :=
  if h : 0 <= cpu ∧ cpu < 32 then
    some ⟨cpu.toNat, show cpu.toNat < 32 by omega⟩
  else none

structure Entry where
  address : BitVec 64
  state : Line
  valid : Bool

structure Stats where
  invalidations : BitVec 64
  flushes : BitVec 64
  broadcasts : BitVec 64
  snoops : BitVec 64
  upgrades : BitVec 64
  downgrades : BitVec 64

structure State where
  stats : Stats
  protocol : Protocol
  directory : Slot -> Entry

def State.setEntry (s : State) (slot : Slot) (entry : Entry) : State :=
  { s with directory := update s.directory slot entry }

def State.setLine (s : State) (slot : Slot) (line : Line) : State :=
  s.setEntry slot { s.directory slot with state := line }

def State.setStats (s : State) (stats : Stats) : State :=
  { s with stats := stats }

def blankLine : Line := fun _ => LineState.invalid

def cacheCoherencyInit : State where
  stats := ⟨0, 0, 0, 0, 0, 0⟩
  protocol := Protocol.mesi
  directory := fun _ => ⟨0, blankLine, false⟩

def cacheCoherencySetProtocol (s : State) (protocol : Int) :
    Except Int Unit × State :=
  if protocol = 0 then (Except.ok (), { s with protocol := Protocol.none })
  else if protocol = 1 then (Except.ok (), { s with protocol := Protocol.msi })
  else if protocol = 2 then (Except.ok (), { s with protocol := Protocol.mesi })
  else if protocol = 3 then (Except.ok (), { s with protocol := Protocol.moesi })
  else (Except.error Errno.einval, s)

/-!
## The directory
-/

/-- The address of the line, `address & ~(CACHE_LINE_SIZE - 1)`. -/
def align (address : BitVec 64) : BitVec 64 := address &&& ~~~63#64

def hash (address : BitVec 64) : Slot :=
  ⟨(address / 64#64).toNat % 1024, Nat.mod_lt _ (by decide)⟩

def findEntry (s : State) (address : BitVec 64) : Option Slot :=
  let address := align address
  let entry := s.directory (hash address)
  if entry.valid = true ∧ entry.address = address then some (hash address)
  else none

def createEntry (s : State) (address : BitVec 64) : Slot × State :=
  let address := align address
  (hash address, s.setEntry (hash address) ⟨address, blankLine, true⟩)

def getEntry (s : State) (address : BitVec 64) : Slot × State :=
  match findEntry s address with
  | some slot => (slot, s)
  | none => createEntry s address

/-!
## Loops over the CPUs
-/

def cpus : List Cpu := List.finRange maxCpus

def rewrite (f : Cpu -> LineState -> LineState) (line : Line) : Line :=
  (sweep (fun i _ state => ((), f i state)) cpus ((), line)).2

def invalidateOthers (cpu : Cpu) : Line -> Line :=
  rewrite fun i state => if i ≠ cpu then LineState.invalid else state

structure Seen where
  modified : Bool
  exclusive : Bool
  shared : Bool

def visitMsi (_ : Cpu) (seen : Seen) : LineState -> Seen × LineState
  | LineState.modified => ({ seen with modified := true }, LineState.shared)
  | state => (seen, state)

def visitMesi (_ : Cpu) (seen : Seen) : LineState -> Seen × LineState
  | LineState.modified => ({ seen with modified := true }, LineState.shared)
  | LineState.exclusive => ({ seen with exclusive := true }, LineState.shared)
  | state => (seen, state)

def visitMoesi (_ : Cpu) (seen : Seen) : LineState -> Seen × LineState
  | LineState.modified => ({ seen with modified := true }, LineState.shared)
  | LineState.exclusive => ({ seen with exclusive := true }, LineState.shared)
  | LineState.shared => ({ seen with shared := true }, LineState.shared)
  | LineState.invalid => (seen, LineState.invalid)

def collect (visit : Cpu -> Seen -> LineState -> Seen × LineState) (line : Line) :
    Seen × Line :=
  sweep visit cpus (⟨false, false, false⟩, line)

/-!
## Calls on a line of all CPUs
-/

/-- A call that rewrites the states of a line and is counted if it has an entry. -/
def onEntry (s : State) (address : BitVec 64) (f : LineState -> LineState)
    (count : Stats -> Stats) : Except Int Unit × State :=
  match findEntry s (align address) with
  | none => (Except.ok (), s)
  | some slot =>
      let line := rewrite (fun _ => f) (s.directory slot).state
      (Except.ok (), (s.setLine slot line).setStats (count s.stats))

def cacheCoherencyInvalidate (s : State) (address : BitVec 64) :
    Except Int Unit × State :=
  onEntry s address
    (fun state =>
      if state ≠ LineState.invalid then LineState.invalid else state)
    (fun stats => { stats with invalidations := stats.invalidations + 1 })

def cacheCoherencyFlush (s : State) (address : BitVec 64) :
    Except Int Unit × State :=
  onEntry s address
    (fun state =>
      if state = LineState.modified then LineState.shared else state)
    (fun stats => { stats with flushes := stats.flushes + 1 })

def cacheCoherencyBroadcast (s : State) (address : BitVec 64) :
    Except Int Unit × State :=
  onEntry s address
    (fun state =>
      if state = LineState.invalid then LineState.shared else state)
    (fun stats => { stats with broadcasts := stats.broadcasts + 1 })

def cacheCoherencySnoop (s : State) (address : BitVec 64) (cpu : Int) :
    Except Int LineState × State :=
  match checkCpu cpu with
  | none => (Except.error Errno.einval, s)
  | some cpu =>
      match findEntry s (align address) with
      | none => (Except.ok LineState.invalid, s)
      | some slot =>
          let stats := s.stats
          (Except.ok ((s.directory slot).state cpu),
            s.setStats { stats with snoops := stats.snoops + 1 })

/-!
## Calls of one CPU
-/

def upgraded (protocol : Protocol) (line : Line) (cpu : Cpu)
    (state : LineState) : Line :=
  match protocol with
  | Protocol.none => update line cpu state
  | Protocol.msi | Protocol.moesi =>
      let line := if state = LineState.modified then invalidateOthers cpu line
        else line
      update line cpu state
  | Protocol.mesi =>
      let line := if state = LineState.modified ∨ state = LineState.exclusive
        then invalidateOthers cpu line else line
      update line cpu state

def cacheCoherencyUpgrade (s : State) (address : BitVec 64) (cpu state : Int) :
    Except Int Unit × State :=
  match checkCpu cpu, checkState state with
  | some cpu, some state =>
      match getEntry s (align address) with
      | (slot, s) =>
          let line := (s.directory slot).state
          if (line cpu).code >= state.code then (Except.ok (), s)
          else
            let stats := s.stats
            (Except.ok (),
              (s.setLine slot (upgraded s.protocol line cpu state)).setStats
                { stats with upgrades := stats.upgrades + 1 })
  | _, _ => (Except.error Errno.einval, s)

def cacheCoherencyDowngrade (s : State) (address : BitVec 64) (cpu state : Int) :
    Except Int Unit × State :=
  match checkCpu cpu, checkState state with
  | some cpu, some state =>
      match findEntry s (align address) with
      | none => (Except.ok (), s)
      | some slot =>
          let line := (s.directory slot).state
          if (line cpu).code <= state.code then (Except.ok (), s)
          else
            let stats := s.stats
            (Except.ok (),
              (s.setLine slot (update line cpu state)).setStats
                { stats with downgrades := stats.downgrades + 1 })
  | _, _ => (Except.error Errno.einval, s)

def afterRead (protocol : Protocol) (line : Line) (cpu : Cpu) : Line :=
  match protocol with
  | Protocol.none => update line cpu LineState.shared
  | Protocol.msi =>
      if line cpu = LineState.invalid then
        match collect visitMsi line with
        | (_, line) => update line cpu LineState.shared
      else line
  | Protocol.mesi =>
      if line cpu = LineState.invalid then
        match collect visitMesi line with
        | (seen, line) =>
            if seen.modified || seen.exclusive then
              update line cpu LineState.shared
            else update line cpu LineState.exclusive
      else line
  | Protocol.moesi =>
      if line cpu = LineState.invalid then
        match collect visitMoesi line with
        | (seen, line) =>
            if seen.modified || seen.exclusive || seen.shared then
              update line cpu LineState.shared
            else update line cpu LineState.exclusive
      else line

def cacheCoherencyRead (s : State) (address : BitVec 64) (cpu : Int) :
    Except Int Unit × State :=
  match checkCpu cpu with
  | none => (Except.error Errno.einval, s)
  | some cpu =>
      match getEntry s (align address) with
      | (slot, s) =>
          let line := (s.directory slot).state
          (Except.ok (), s.setLine slot (afterRead s.protocol line cpu))

def afterWrite (protocol : Protocol) (line : Line) (cpu : Cpu) : Line :=
  match protocol with
  | Protocol.none => update line cpu LineState.modified
  | Protocol.msi | Protocol.mesi | Protocol.moesi =>
      update (invalidateOthers cpu line) cpu LineState.modified

def cacheCoherencyWrite (s : State) (address : BitVec 64) (cpu : Int) :
    Except Int Unit × State :=
  match checkCpu cpu with
  | none => (Except.error Errno.einval, s)
  | some cpu =>
      match getEntry s (align address) with
      | (slot, s) =>
          let line := (s.directory slot).state
          (Except.ok (), s.setLine slot (afterWrite s.protocol line cpu))

end Coherency
end Horizon
