import Horizon.Lib.Deque
import Horizon.Lib.Transition
import Mathlib.Algebra.Group.Nat.Defs
import Mathlib.Data.Fintype.Card

/-!
# The scheduler

The run queue of `sched.c` with the predicates of `rt.c` that it asks.  The
links of the threads, the head and the tail of the queue are one deque.  The
context switch of the source prints a message only.
-/

namespace Horizon
namespace Sched

/-- The address of a thread. -/
abbrev ThreadPtr := Fin (2 ^ 32)

inductive State where
  | running
  | ready
  | blocked
  | sleeping
  | stopped
  | zombie
  | dead
deriving DecidableEq

inductive Policy where
  | normal
  | fifo
  | rr
  | batch
  | idle
  | deadline
deriving DecidableEq

structure Thread where
  state : State
  policy : Policy
  priority : Int
  dynamicPriority : Int
  timeSlice : Nat
  wakeupTime : Nat

structure RunQueue where
  threads : ThreadPtr -> Thread
  queue : Deque ThreadPtr
  nrRunning : Nat
  curr : ThreadPtr
  idle : ThreadPtr
  currTimestamp : Nat
  rtEnabled : Bool

def schedTimesliceDefault : Nat := 100

def rrTimeslice : Nat := 100

def threadPrioIdle : Int := 139

def idleThread : Thread where
  state := State.running
  policy := Policy.idle
  priority := threadPrioIdle
  dynamicPriority := threadPrioIdle
  timeSlice := schedTimesliceDefault
  wakeupTime := 0

/-- Threads are created with null links. -/
def schedInit (threads : ThreadPtr -> Thread) (idle : ThreadPtr) (now : Nat)
    (rtEnabled : Bool) : RunQueue where
  threads := Function.update threads idle idleThread
  queue := {
    links := fun _ => { next := none, prev := none }
    head := none
    tail := none }
  nrRunning := 0
  curr := idle
  idle := idle
  currTimestamp := now
  rtEnabled := rtEnabled

def RunQueue.setThread (rq : RunQueue) (t : ThreadPtr) (thread : Thread) :
    RunQueue :=
  { rq with threads := Function.update rq.threads t thread }

def RunQueue.setState (rq : RunQueue) (t : ThreadPtr) (state : State) :
    RunQueue :=
  rq.setThread t { rq.threads t with state := state }

/-!
## Real-time threads
-/

def rtIsRealtime (rq : RunQueue) (t : ThreadPtr) : Bool :=
  rq.rtEnabled &&
    ((rq.threads t).policy = Policy.fifo || (rq.threads t).policy = Policy.rr)

def rtCanPreempt (rq : RunQueue) (t current : ThreadPtr) : Bool :=
  if !rq.rtEnabled then false
  else if !rtIsRealtime rq t then false
  else if rtIsRealtime rq current then
    (rq.threads t).priority < (rq.threads current).priority
  else true

/--
At each priority the source leaves the thread a null pointer, which is not a
real-time thread.
-/
def rtSchedule (_ : RunQueue) : Option ThreadPtr :=
  none

/-!
## The queue
-/

def schedAddThread (rq : RunQueue) (t : ThreadPtr) : RunQueue :=
  if (rq.threads t).state ≠ State.ready then rq
  else { rq with
    queue := rq.queue.pushBack t
    nrRunning := (rq.nrRunning + 1) % 2 ^ 32 }

def schedRemoveThread (rq : RunQueue) (t : ThreadPtr) : RunQueue :=
  { rq with
    queue := rq.queue.unlink t
    nrRunning := if rq.nrRunning > 0 then rq.nrRunning - 1 else rq.nrRunning }

def schedDequeueThread (rq : RunQueue) : Option ThreadPtr × RunQueue :=
  (rq.queue.popFront.1, { rq with queue := rq.queue.popFront.2 })

def schedRequeueThread (rq : RunQueue) (t : ThreadPtr) : RunQueue :=
  { rq with queue := rq.queue.pushBack t }

/-!
## Scheduling
-/

def canPreempt (rq : RunQueue) (next curr : ThreadPtr) : Bool :=
  if rtIsRealtime rq next then
    if !rtIsRealtime rq curr then true
    else rtCanPreempt rq next curr
  else if (rq.threads curr).policy = Policy.fifo ∧
      (rq.threads curr).state = State.running then false
  else true

def switchTo (rq : RunQueue) (next : ThreadPtr) : RunQueue :=
  let rq' :=
    if (rq.threads rq.curr).state = State.running then
      rq.setState rq.curr State.ready
    else rq
  { rq'.setState next State.running with curr := next }

def pickNext (rq : RunQueue) : ThreadPtr × RunQueue :=
  match rtSchedule rq with
  | some t => (t, rq)
  | none =>
      match schedDequeueThread rq with
      | (some t, rq') => (t, rq')
      | (none, rq') => (rq'.idle, rq')

def requeueCurr (rq : RunQueue) : RunQueue :=
  if rq.curr ≠ rq.idle ∧ (rq.threads rq.curr).state = State.running then
    if (rq.threads rq.curr).policy ≠ Policy.fifo ∨
        (rq.threads rq.curr).state ≠ State.running then
      schedRequeueThread rq rq.curr
    else rq
  else rq

def schedSchedule (rq : RunQueue) : RunQueue :=
  let next := (pickNext rq).1
  let rq' := requeueCurr (pickNext rq).2
  if rq'.curr ≠ next then
    if canPreempt rq' next rq'.curr then switchTo rq' next else rq'
  else rq'

def schedYield (rq : RunQueue) : RunQueue :=
  schedSchedule rq

def schedCheckPreempt (rq : RunQueue) (t : ThreadPtr) : RunQueue :=
  if rq.curr = rq.idle then schedSchedule rq
  else if rtIsRealtime rq t then
    if !rtIsRealtime rq rq.curr then schedSchedule rq
    else if rtCanPreempt rq t rq.curr then schedSchedule rq
    else if (rq.threads t).dynamicPriority <
        (rq.threads rq.curr).dynamicPriority then schedSchedule rq
    else rq
  else if (rq.threads rq.curr).policy = Policy.fifo ∧
      (rq.threads rq.curr).state = State.running then rq
  else if (rq.threads t).dynamicPriority <
      (rq.threads rq.curr).dynamicPriority then schedSchedule rq
  else rq

def leaveQueue (rq : RunQueue) (t : ThreadPtr) : RunQueue :=
  let rq' := schedRemoveThread rq t
  if t = rq'.curr then schedSchedule rq' else rq'

def schedBlockThread (rq : RunQueue) (t : ThreadPtr) : RunQueue :=
  leaveQueue (rq.setState t State.blocked) t

def schedSleepThread (rq : RunQueue) (t : ThreadPtr) (ms now : Nat) : RunQueue :=
  leaveQueue (rq.setThread t { rq.threads t with
    state := State.sleeping
    wakeupTime := (now + ms * 1000) % 2 ^ 64 }) t

def makeReady (state : State) (rq : RunQueue) (t : ThreadPtr) : RunQueue :=
  if (rq.threads t).state ≠ state then rq
  else schedCheckPreempt (schedAddThread (rq.setState t State.ready) t) t

def schedUnblockThread (rq : RunQueue) (t : ThreadPtr) : RunQueue :=
  makeReady State.blocked rq t

def schedWakeupThread (rq : RunQueue) (t : ThreadPtr) : RunQueue :=
  makeReady State.sleeping rq t

/-!
## The tick
-/

def setTimeSlice (rq : RunQueue) (t : ThreadPtr) (slice : Nat) : RunQueue :=
  rq.setThread t { rq.threads t with timeSlice := slice }

def useSlice (rq : RunQueue) (slice : Nat) : RunQueue :=
  let curr := rq.curr
  let rq' :=
    if (rq.threads curr).timeSlice > 0 then
      setTimeSlice rq curr ((rq.threads curr).timeSlice - 1)
    else rq
  if (rq'.threads curr).timeSlice = 0 then
    schedSchedule (schedRequeueThread (setTimeSlice rq' curr slice) curr)
  else rq'

/-- The links may be cyclic, so the walk has a number of rounds. -/
def wakeSleepers : Nat -> RunQueue -> Option ThreadPtr -> Option RunQueue
  | _, rq, none => some rq
  | 0, _, some _ => none
  | rounds + 1, rq, some t =>
      let next := (rq.queue.links t).next
      if (rq.threads t).state = State.sleeping ∧
          rq.currTimestamp >= (rq.threads t).wakeupTime then
        wakeSleepers rounds (schedWakeupThread rq t) next
      else wakeSleepers rounds rq next

/-- FIFO threads run until they yield or block. -/
def spendTime (rq : RunQueue) : RunQueue :=
  match (rq.threads rq.curr).policy with
  | Policy.fifo => rq
  | Policy.rr => useSlice rq rrTimeslice
  | _ => useSlice rq schedTimesliceDefault

def schedTick (rounds : Nat) (rq : RunQueue) (now : Nat) : Option RunQueue :=
  let rq' := { rq with currTimestamp := now }
  if rq'.curr = rq'.idle then some rq'
  else wakeSleepers rounds (spendTime rq') (spendTime rq').queue.head

/-!
## Runs

The threads that were ever handed to the queue are kept beside it.
-/

structure System where
  rq : RunQueue
  added : ThreadPtr -> Prop

inductive Label where
  | add (t : ThreadPtr)
  | tick (rounds now : Nat)
  | yield
  | block (t : ThreadPtr)
  | unblock (t : ThreadPtr)
  | sleep (t : ThreadPtr) (ms now : Nat)
  | wakeup (t : ThreadPtr)

/-- A thread is handed to `sched_add_thread`, if that is called. -/
def System.put (s : System) (t : ThreadPtr) (called : Prop) (rq : RunQueue) :
    System where
  rq := rq
  added := fun u => s.added u ∨ u = t ∧ called

def step (s : System) : Label -> Option System
  | Label.add t => some (s.put t True (schedAddThread s.rq t))
  | Label.tick rounds now =>
      (schedTick rounds s.rq now).map fun rq => { s with rq := rq }
  | Label.yield => some { s with rq := schedYield s.rq }
  | Label.block t => some { s with rq := schedBlockThread s.rq t }
  | Label.unblock t =>
      some (s.put t ((s.rq.threads t).state = State.blocked)
        (schedUnblockThread s.rq t))
  | Label.sleep t ms now => some { s with rq := schedSleepThread s.rq t ms now }
  | Label.wakeup t =>
      some (s.put t ((s.rq.threads t).state = State.sleeping)
        (schedWakeupThread s.rq t))

/-- What `sched_init` leaves, before any thread was added. -/
def Init (s : System) : Prop :=
  exists threads idle now rtEnabled,
    s.rq = schedInit threads idle now rtEnabled ∧ forall t, ¬ s.added t

end Sched
end Horizon
