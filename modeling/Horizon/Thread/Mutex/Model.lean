import Horizon.Lib.Transition
import Horizon.Types
import Mathlib.Logic.Function.Basic

/-!
# Mutexes

This module follows the mutexes of `thread_sync.c` thread by thread. One step is
one compare-and-swap, one operation on the list of waiters or one access to a
field, and the steps of different threads interleave in any way. A thread that
blocks in `mutex_lock` goes on when `sched_unblock_thread` has made it ready;
the run queue is not modelled.
-/

namespace Horizon
namespace Mutex

open Function

inductive ThreadState where
  | running
  | ready
  | blocked
  deriving DecidableEq

inductive Point (thread : Type) where
  | outside
  -- `mutex_lock`: the swap, the store of the owner, the test of the owner, and
  -- the two steps of the slow path
  | lockSwap
  | lockOwner
  | lockTest
  | lockEnqueue
  | lockBlock
  | asleep
  -- `mutex_trylock`
  | trySwap
  | tryOwner
  -- `mutex_unlock`: the test of the owner and of the list
  | unlockTest
  | unlockEmpty
  -- with a waiter: the list, the new owner, and `sched_unblock_thread`
  | unlockFirst
  | unlockDel (waiter : thread)
  | unlockOwner (waiter : thread)
  | unlockState (waiter : thread)
  | unlockReady (waiter : thread)
  -- without one
  | unlockClear
  | unlockRelease
  deriving DecidableEq

structure State (thread : Type) where
  locked : Bool
  owner : Option thread
  waiters : List thread
  state : thread -> ThreadState
  point : thread -> Point thread
  /-- What the last call of a thread returned. -/
  value : thread -> Int
  /-- A thread holds the mutex from the return of the call that locked it to the
  store with which its `mutex_unlock` gives up the ownership. -/
  holds : thread -> Bool

inductive Call where
  | lock
  | trylock
  | unlock
  deriving DecidableEq

/-- What a thread may do: start a call, or take the next step of one. -/
inductive Action where
  | call (c : Call)
  | step
  deriving DecidableEq

section Step

variable {thread : Type} [DecidableEq thread]

def State.move (s : State thread) (t : thread) (p : Point thread) :
    State thread :=
  { s with point := update s.point t p }

def State.leave (s : State thread) (t : thread) (value : Int) : State thread :=
  { s with
    point := update s.point t .outside
    value := update s.value t value }

/-- The end of the fast path, which `mutex_lock` and `mutex_trylock` share. -/
def State.own (s : State thread) (t : thread) : State thread :=
  { s.leave t 0 with
    owner := some t
    holds := update s.holds t true }

def State.advance (s : State thread) (t : thread) : Option (State thread) :=
  match s.point t with
  | .outside => none
  | .lockSwap =>
      if s.locked then some (s.move t .lockTest)
      else some { s.move t .lockOwner with locked := true }
  | .lockOwner => some (s.own t)
  | .lockTest =>
      if s.owner = some t then some (s.leave t (-Errno.edeadlk))
      else some (s.move t .lockEnqueue)
  | .lockEnqueue =>
      some { s.move t .lockBlock with waiters := s.waiters ++ [t] }
  | .lockBlock =>
      some { s.move t .asleep with state := update s.state t .blocked }
  | .asleep =>
      if s.state t = .ready then
        some { s.leave t 0 with
          state := update s.state t .running
          holds := update s.holds t true }
      else none
  | .trySwap =>
      if s.locked then some (s.leave t (-Errno.ebusy))
      else some { s.move t .tryOwner with locked := true }
  | .tryOwner => some (s.own t)
  | .unlockTest =>
      if s.owner = some t then some (s.move t .unlockEmpty)
      else some (s.leave t (-Errno.eperm))
  | .unlockEmpty =>
      if s.waiters.isEmpty then some (s.move t .unlockClear)
      else some (s.move t .unlockFirst)
  | .unlockFirst =>
      match s.waiters with
      | [] => none
      | w :: _ => some (s.move t (.unlockDel w))
  | .unlockDel w =>
      some { s.move t (.unlockOwner w) with waiters := s.waiters.erase w }
  | .unlockOwner w =>
      some { s.move t (.unlockState w) with
        owner := some w
        holds := update s.holds t false }
  | .unlockState w =>
      if s.state w = .blocked then some (s.move t (.unlockReady w))
      else some (s.leave t 0)
  | .unlockReady w =>
      some { s.leave t 0 with state := update s.state w .ready }
  | .unlockClear =>
      some { s.move t .unlockRelease with
        owner := none
        holds := update s.holds t false }
  | .unlockRelease => some { s.leave t 0 with locked := false }

def Call.entry : Call -> Point thread
  | .lock => .lockSwap
  | .trylock => .trySwap
  | .unlock => .unlockTest

def next (s : State thread) : thread × Action -> Option (State thread)
  | (t, .call c) =>
      match s.point t with
      | .outside => some (s.move t c.entry)
      | _ => none
  | (t, .step) => s.advance t

end Step

def mutexInit (thread : Type) : State thread where
  locked := false
  owner := none
  waiters := []
  state := fun _ => .running
  point := fun _ => .outside
  value := fun _ => 0
  holds := fun _ => false

end Mutex
end Horizon
