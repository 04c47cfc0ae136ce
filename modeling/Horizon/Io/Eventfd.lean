import Mathlib.Data.BitVec
import Horizon.Lib.Transition

/-!
# Event counters

This module follows `eventfd_read` and `eventfd_write` of `eventfd.c` for any
number of tasks on one counter.  A section under the mutex is one step.  A task
that has to wait gives up the mutex, is woken at a moment at which the
condition it waits for holds, and takes the mutex again in a later step, which
does not look at the condition once more.
-/

namespace Horizon
namespace Eventfd

open Transition

def efdSemaphore : BitVec 32 := 1

def efdFlags : BitVec 32 := 7

def uint64Max : BitVec 64 := BitVec.allOnes 64

inductive Point where
  | idle
  -- in `wait_event_interruptible`
  | waitRead
  | waitWrite (val : BitVec 64)
  -- woken, before the mutex is taken again
  | wokenRead
  | wokenWrite (val : BitVec 64)
  deriving DecidableEq

structure State (task : Type) where
  count : BitVec 64
  semaphore : Bool
  point : task -> Point
  /-- The values that successful reads have returned. -/
  reads : List (BitVec 64)
  /-- The values that successful writes have added. -/
  writes : List (BitVec 64)
  /-- Whether an update of the counter has wrapped around. -/
  wrapped : Bool

inductive Action where
  | read (count : Nat) (nonblock : Bool)
  | write (count : Nat) (val : BitVec 64) (nonblock : Bool)
  -- `wait_event_interruptible` returns 0
  | wake
  -- `wait_event_interruptible` returns an error
  | interrupt
  -- the mutex is taken again and the call is finished
  | relock
  deriving DecidableEq

def eventfdCreate (task : Type) (initval flags : BitVec 32) :
    Option (State task) :=
  if flags &&& ~~~efdFlags ≠ 0 then none
  else some {
    count := initval.setWidth 64
    semaphore := flags &&& efdSemaphore ≠ 0
    point := fun _ => Point.idle
    reads := []
    writes := []
    wrapped := false }

section Step

variable {task : Type} [DecidableEq task]

def State.move (s : State task) (t : task) (p : Point) : State task :=
  { s with point := Function.update s.point t p }

def State.value (s : State task) : BitVec 64 :=
  if s.semaphore then 1 else s.count

def State.finishRead (s : State task) (t : task) : State task :=
  { s.move t Point.idle with
    count := if s.semaphore then s.count - 1 else 0
    reads := s.value :: s.reads
    wrapped := s.wrapped || (s.semaphore && s.count == 0) }

def State.finishWrite (s : State task) (t : task) (val : BitVec 64) :
    State task :=
  { s.move t Point.idle with
    count := s.count + val
    writes := val :: s.writes
    wrapped := s.wrapped || decide (2 ^ 64 <= s.count.toNat + val.toNat) }

/-- `eventfd_read` up to the end of its first section. -/
def eventfdRead (s : State task) (t : task) (count : Nat) (nonblock : Bool) :
    State task :=
  if count < 8 then s
  else if s.count = 0 then
    if nonblock then s else s.move t Point.waitRead
  else s.finishRead t

/-- `eventfd_write` up to the end of its first section. -/
def eventfdWrite (s : State task) (t : task) (count : Nat) (val : BitVec 64)
    (nonblock : Bool) : State task :=
  if count < 8 then s
  else if val = uint64Max then s
  else if uint64Max - s.count < val then
    if nonblock then s else s.move t (Point.waitWrite val)
  else s.finishWrite t val

def next (s : State task) : task × Action -> Option (State task)
  | (t, Action.read count nonblock) =>
      match s.point t with
      | Point.idle => some (eventfdRead s t count nonblock)
      | _ => none
  | (t, Action.write count val nonblock) =>
      match s.point t with
      | Point.idle => some (eventfdWrite s t count val nonblock)
      | _ => none
  | (t, Action.wake) =>
      match s.point t with
      | Point.waitRead =>
          if 0 < s.count then some (s.move t Point.wokenRead) else none
      | Point.waitWrite val =>
          if val <= uint64Max - s.count then
            some (s.move t (Point.wokenWrite val))
          else none
      | _ => none
  | (t, Action.interrupt) =>
      match s.point t with
      | Point.waitRead => some (s.move t Point.idle)
      | Point.waitWrite _ => some (s.move t Point.idle)
      | _ => none
  | (t, Action.relock) =>
      match s.point t with
      | Point.wokenRead => some (s.finishRead t)
      | Point.wokenWrite val => some (s.finishWrite t val)
      | _ => none

/-! ## Conservation -/

def total (values : List (BitVec 64)) : Nat :=
  (values.map BitVec.toNat).sum

theorem total_cons (v : BitVec 64) (values : List (BitVec 64)) :
    total (v :: values) = v.toNat + total values := by
  simp [total]

structure Conserved (initval : BitVec 32) (s : State task) : Prop where
  sum : s.count.toNat + total s.reads = initval.toNat + total s.writes
  unwrapped : s.wrapped = false
  positive : forall v, v ∈ s.reads -> v ≠ 0

/-- A task that was woken takes the mutex while what it waited for still
holds. -/
def StepOk (s : State task) (l : task × Action) : Prop :=
  l.2 = Action.relock ->
    match s.point l.1 with
    | Point.wokenRead => 0 < s.count
    | Point.wokenWrite val => val <= uint64Max - s.count
    | _ => True

theorem le_uint64Max_sub (a b : BitVec 64) :
    a <= uint64Max - b <-> b.toNat + a.toNat < 2 ^ 64 := by
  have hsub : (uint64Max - b).toNat = 2 ^ 64 - 1 - b.toNat := by
    rw [uint64Max, BitVec.allOnes_sub_eq_not, BitVec.toNat_not]
  rw [BitVec.le_def, hsub]
  omega

variable {initval : BitVec 32} {s : State task}

theorem Conserved.move (h : Conserved initval s) (t : task) (p : Point) :
    Conserved initval (s.move t p) :=
  ⟨h.sum, h.unwrapped, h.positive⟩

theorem finishRead_count (t : task) (hpos : s.count ≠ 0) :
    (s.finishRead t).count.toNat + s.value.toNat = s.count.toNat := by
  unfold State.finishRead State.value
  cases s.semaphore with
  | false => exact Nat.zero_add _
  | true =>
    have hone : 1 <= s.count := by
      apply Nat.one_le_iff_ne_zero.mpr
      intro hzero
      exact hpos (BitVec.eq_of_toNat_eq hzero)
    show (s.count - 1).toNat + 1 = s.count.toNat
    rw [BitVec.toNat_sub_of_le hone]
    exact Nat.sub_add_cancel (BitVec.le_def.mp hone)

omit [DecidableEq task] in
theorem value_ne_zero (hpos : s.count ≠ 0) : s.value ≠ 0 := by
  unfold State.value
  split
  case isTrue => decide
  case isFalse => exact hpos

section

variable (h : Conserved initval s)
include h

theorem Conserved.finishRead (t : task) (hpos : s.count ≠ 0) :
    Conserved initval (s.finishRead t) := by
  have hsum := h.sum
  have hcount := finishRead_count t hpos
  constructor
  · show _ + total (s.value :: s.reads) = _ + total s.writes
    rw [total_cons]
    omega
  · show (s.wrapped || (s.semaphore && s.count == 0)) = false
    rw [h.unwrapped, beq_eq_false_iff_ne.mpr hpos, Bool.and_false]
    rfl
  · intro v hv
    rcases List.mem_cons.mp hv with rfl | hv
    · exact value_ne_zero hpos
    · exact h.positive v hv

theorem Conserved.finishWrite (t : task) {val : BitVec 64}
    (hroom : val <= uint64Max - s.count) :
    Conserved initval (s.finishWrite t val) := by
  have hsum := h.sum
  rw [le_uint64Max_sub] at hroom
  constructor
  · show (s.count + val).toNat + total s.reads = _ + total (val :: s.writes)
    rw [total_cons, BitVec.toNat_add, Nat.mod_eq_of_lt hroom]
    omega
  · show (s.wrapped || decide (2 ^ 64 <= s.count.toNat + val.toNat)) = false
    rw [h.unwrapped, decide_eq_false (Nat.not_le.mpr hroom)]
    rfl
  · exact h.positive

theorem Conserved.eventfdRead (t : task) (count : Nat) (nonblock : Bool) :
    Conserved initval (eventfdRead s t count nonblock) := by
  unfold Eventfd.eventfdRead
  split
  case isTrue => exact h
  case isFalse =>
    split
    case isTrue =>
      split
      case isTrue => exact h
      case isFalse => exact h.move t .waitRead
    case isFalse hpos => exact h.finishRead t hpos

theorem Conserved.eventfdWrite (t : task) (count : Nat) (val : BitVec 64)
    (nonblock : Bool) :
    Conserved initval (eventfdWrite s t count val nonblock) := by
  unfold Eventfd.eventfdWrite
  split
  case isTrue => exact h
  case isFalse =>
    split
    case isTrue => exact h
    case isFalse =>
      split
      case isTrue =>
        split
        case isTrue => exact h
        case isFalse => exact h.move t (.waitWrite val)
      case isFalse hroom => exact h.finishWrite t (BitVec.not_lt.mp hroom)

theorem Conserved.next {s' : State task} {l : task × Action} (hok : StepOk s l)
    (hs : next s l = some s') :
    Conserved initval s' := by
  obtain ⟨t, action⟩ := l
  cases action with
  | read count nonblock =>
    simp only [Eventfd.next] at hs
    split at hs
    · obtain rfl := Option.some.inj hs
      exact h.eventfdRead t count nonblock
    · cases hs
  | write count val nonblock =>
    simp only [Eventfd.next] at hs
    split at hs
    · obtain rfl := Option.some.inj hs
      exact h.eventfdWrite t count val nonblock
    · cases hs
  | wake =>
    simp only [Eventfd.next] at hs
    split at hs
    · split at hs
      · obtain rfl := Option.some.inj hs
        exact h.move t .wokenRead
      · cases hs
    · split at hs
      · obtain rfl := Option.some.inj hs
        exact h.move t _
      · cases hs
    · cases hs
  | interrupt =>
    simp only [Eventfd.next] at hs
    split at hs
    · obtain rfl := Option.some.inj hs
      exact h.move t .idle
    · obtain rfl := Option.some.inj hs
      exact h.move t .idle
    · cases hs
  | relock =>
    have hheld := hok rfl
    simp only [Eventfd.next] at hs
    split at hs
    case h_1 hpoint =>
      obtain rfl := Option.some.inj hs
      simp only [hpoint] at hheld
      apply h.finishRead t
      intro hzero
      rw [hzero] at hheld
      exact absurd hheld (by decide)
    case h_2 val hpoint =>
      obtain rfl := Option.some.inj hs
      simp only [hpoint] at hheld
      exact h.finishWrite t hheld
    case h_3 => cases hs

end

omit [DecidableEq task] in
theorem conserved_eventfdCreate {flags : BitVec 32}
    (hs : eventfdCreate task initval flags = some s) : Conserved initval s := by
  unfold eventfdCreate at hs
  split at hs
  · cases hs
  · obtain rfl := Option.some.inj hs
    refine ⟨?_, rfl, ?_⟩
    · show (initval.setWidth 64).toNat + 0 = initval.toNat + 0
      rw [BitVec.toNat_setWidth, Nat.mod_eq_of_lt (by omega)]
    · intro v hv
      cases hv

/-- Reads and writes of any number of tasks conserve the counter, in both
modes, as long as no woken task finds its condition gone. -/
theorem eventfd_conservation {initval flags : BitVec 32} {s : State task}
    (h : Reachable
      (fun s => eventfdCreate task initval flags = some s)
      (Guarded StepOk next) s) :
    s.count.toNat + total s.reads = initval.toNat + total s.writes ∧
      s.wrapped = false ∧ forall v, v ∈ s.reads -> v ≠ 0 := by
  have hconserved : Conserved initval s := 
    h.guarded conserved_eventfdCreate fun hs => hs.next
  exact ⟨hconserved.sum, hconserved.unwrapped, hconserved.positive⟩

end Step

/-- A reader waits, is woken by a write and reads what was written. -/
theorem eventfd_conservation_woken_reader :
    exists s : State (Fin 2), s.reads = [5] ∧
      (s.count.toNat + total s.reads = (0 : BitVec 32).toNat + total s.writes ∧
      s.wrapped = false ∧ forall v, v ∈ s.reads -> v ≠ 0) := by
  have hinit : Reachable
      (fun s => eventfdCreate (Fin 2) 0 0 = some s)
      (Guarded StepOk next) _ := Reachable.init rfl
  have hwaits := hinit.step (l := (0, Action.read 8 false))
    ⟨fun hc => (by cases hc), rfl⟩
  have hwritten := hwaits.step (l := (1, Action.write 8 5 false))
    ⟨fun hc => (by cases hc), rfl⟩
  have hwoken := hwritten.step (l := (0, Action.wake))
    ⟨fun hc => (by cases hc), rfl⟩
  have hread := hwoken.step (l := (0, Action.relock))
    ⟨fun _ => show (0 : BitVec 64) < 0 + 5 by decide, rfl⟩
  exact ⟨_, rfl, eventfd_conservation hread⟩

def twoWoken : List (Fin 3 × Action) :=
  [(0, Action.read 8 false), (1, Action.read 8 false),
    (2, Action.write 8 1 false), (0, Action.wake), (1, Action.wake),
    (0, Action.relock), (1, Action.relock)]

/-- As a counter the second reader returns 0; as a semaphore it takes the
counter below zero. -/
theorem second_woken_reader_fails :
    (exists s : State (Fin 3), Reachable
      (fun s => eventfdCreate (Fin 3) 0 0 = some s)
      (fun s l s' => next s l = some s') s ∧ s.reads = [0, 1]) ∧
    (exists s : State (Fin 3), Reachable
      (fun s => eventfdCreate (Fin 3) 0 efdSemaphore = some s)
      (fun s l s' => next s l = some s') s ∧
        s.count = uint64Max ∧ s.wrapped = true ∧
        s.count.toNat + total s.reads ≠ 0 + total s.writes) := by
  constructor
  · have hinit : Reachable
        (fun s => eventfdCreate (Fin 3) 0 0 = some s)
        (fun s l s' => next s l = some s') _ := Reachable.init rfl
    have hrun := hinit.run twoWoken rfl
    exact ⟨_, hrun, rfl⟩
  · have hinit : Reachable
        (fun s => eventfdCreate (Fin 3) 0 efdSemaphore = some s)
        (fun s l s' => next s l = some s') _ := Reachable.init rfl
    have hrun := hinit.run twoWoken rfl
    exact ⟨_, hrun, rfl, rfl, by decide⟩

end Eventfd
end Horizon
