import Horizon.Lib.Transition
import Horizon.Types

/-!
# Deferred work

`interrupt_defer_work` and `check_deferred_work` of `interrupt.c`.  The function
that is run may defer more work, which is a step of its own; `list_splice_init`,
which is not in the tree, moves the whole list and leaves it empty.
-/

namespace Horizon
namespace Deferred

open Errno

structure Work where
  func : Nat
  data : Nat
deriving DecidableEq

/-- Where `check_deferred_work` is, with what is left of its own list: at the
head of the loop, or in the function of an item that it has unlinked. -/
inductive Phase where
  | idle
  | checking (rest : List Work)
  | running (work : Work) (rest : List Work)

/--
The list of deferred work.  The items that were accepted, run and freed so far
are recorded in order, and how many were accepted before the last check took the
list.
-/
structure State where
  list : List Work
  phase : Phase
  submitted : List Work
  ran : List Work
  freed : List Work
  taken : Nat

def initial : State := ⟨[], .idle, [], [], [], 0⟩

def interruptDeferWork (s : State) (func : Option Nat) (data : Nat)
    (mem : Bool) : Int × State :=
  match func with
  | none => (-einval, s)
  | some func =>
      if mem then
        (0, { s with
          list := s.list ++ [⟨func, data⟩]
          submitted := s.submitted ++ [⟨func, data⟩] })
      else (-enomem, s)

inductive Step where
  | defer (func : Option Nat) (data : Nat) (mem : Bool)
  | check
  | call
  | ret
  | finish

/-- The steps of `check_deferred_work` follow its loop: an item is unlinked and
its function called; the item is freed when the function has returned. -/
def next (s : State) (step : Step) : Option State :=
  match step, s.phase with
  | .defer func data mem, _ => some (interruptDeferWork s func data mem).2
  | .check, .idle => some { s with
      phase := .checking s.list
      list := []
      taken := s.submitted.length }
  | .call, .checking (work :: rest) => some { s with
      phase := .running work rest
      ran := s.ran ++ [work] }
  | .ret, .running work rest => some { s with
      phase := .checking rest
      freed := s.freed ++ [work] }
  | .finish, .checking [] => some { s with phase := .idle }
  | _, _ => none

def Phase.rest : Phase -> List Work
  | .idle => []
  | .checking rest => rest
  | .running _ rest => rest

def Phase.current : Phase -> List Work
  | .running work _ => [work]
  | _ => []

/--
What was accepted before the last check took the list was run by now, each item
once and in order, or is left for that check; what was accepted since waits for
the next check.  An item was freed when it had run, and once.
-/
structure Intact (s : State) : Prop where
  ran : s.ran ++ s.phase.rest = s.submitted.take s.taken
  waiting : s.list = s.submitted.drop s.taken
  freed : s.freed ++ s.phase.current = s.ran
  taken : s.taken <= s.submitted.length

theorem Intact.defer {s : State} (h : Intact s) (func : Option Nat) (data : Nat)
    (mem : Bool) : Intact (interruptDeferWork s func data mem).2 := by
  unfold interruptDeferWork
  cases func with
  | none => exact h
  | some func =>
    cases mem with
    | false => exact h
    | true =>
      have htaken := h.taken
      constructor
      · simp only [if_true, List.take_append_of_le_length htaken]
        exact h.ran
      · simp only [if_true, List.drop_append_of_le_length htaken, h.waiting]
      · exact h.freed
      · simp only [if_true, List.length_append]
        omega

theorem Intact.next {s s' : State} {step : Step} (h : Intact s)
    (hnext : next s step = some s') : Intact s' := by
  rcases h with ⟨hran, hwaiting, hfreed, htaken⟩
  unfold Deferred.next at hnext
  split at hnext <;> cases hnext <;> rename_i hphase
  · exact Intact.defer ⟨hran, hwaiting, hfreed, htaken⟩ _ _ _
  all_goals
    rw [hphase] at hran hfreed
    constructor <;> simp_all [Phase.rest, Phase.current]

/-- Deferred work is run once, in order, by the check after it was accepted; at
the end of a check nothing is left of what was accepted before it. -/
theorem deferred_work_once {s : State}
    (h : Transition.Reachable (fun s => s = initial)
      (fun s step s' => next s step = some s') s) :
    Intact s ∧
      (s.phase = .idle -> s.ran = s.submitted.take s.taken ∧ s.freed = s.ran) := by
  have hs : Intact s := by
    apply h.invariant
    · rintro _ rfl
      exact ⟨rfl, rfl, rfl, Nat.le_refl 0⟩
    · intro s step s' hs hnext
      exact hs.next hnext
  refine ⟨hs, fun hidle => ⟨?_, ?_⟩⟩
  · simpa [hidle, Phase.rest] using hs.ran
  · simpa [hidle, Phase.current] using hs.freed

def sampleSteps : List Step :=
  [.defer (some 1) 10 true, .defer (some 2) 20 true, .check, .call,
   .defer (some 3) 30 true, .ret, .call, .ret, .finish]

theorem deferred_work_once_three :
    exists s, Transition.run next initial sampleSteps = some s ∧
      s.ran = [⟨1, 10⟩, ⟨2, 20⟩] ∧ s.list = [⟨3, 30⟩] ∧ s.freed = s.ran := by
  refine ⟨_, rfl, rfl, rfl, ?_⟩
  have hinit : Transition.Reachable (fun s => s = initial)
    (fun s step s' => next s step = some s') initial := .init rfl
  exact ((deferred_work_once (hinit.run sampleSteps rfl)).right rfl).right

end Deferred
end Horizon
