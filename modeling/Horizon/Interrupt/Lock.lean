import Horizon.Lib.Transition
import Horizon.Types
import Mathlib.Data.List.Basic

/-!
# The interrupt lock

The functions of `interrupt.c` that take `interrupt_lock`, on one CPU.  A
function that takes the lock while it is held never returns.  No controller is
registered; its operations would not take the lock.
-/

namespace Horizon
namespace Interrupt

open Errno

structure Desc where
  depth : Nat
  priority : Nat
  handlerCount : BitVec 32
  handlers : List Nat

structure State where
  locked : Bool
  current : Nat
  desc : Nat -> Desc

/-- What the functions do; `none` is a function that does not return. -/
abbrev Result := Option (Int × State)

def spinLock (s : State) : Option State :=
  if s.locked then none else some { s with locked := true }

def spinUnlock (s : State) : State := { s with locked := false }

def setDesc (s : State) (irq : Nat) (d : Desc) : State :=
  { s with desc := Function.update s.desc irq d }

def underLock (s : State) (irq : Nat) (f : Desc -> Desc) : Result := do
  let s <- spinLock s
  return (0, spinUnlock (setDesc s irq (f (s.desc irq))))

def interruptEnable (s : State) (irq : Nat) : Result :=
  if 256 <= irq then some (-einval, s)
  else underLock s irq fun d => { d with depth := d.depth - 1 }

def interruptDisable (s : State) (irq : Nat) : Result :=
  if 256 <= irq then some (-einval, s)
  else underLock s irq fun d => { d with depth := (d.depth + 1) % 2 ^ 32 }

def interruptSetPriority (s : State) (irq priority : Nat) : Result :=
  if 256 <= irq ∨ 4 < priority then some (-einval, s)
  else underLock s irq fun d => { d with priority := priority }

def interruptEoi (s : State) (irq : Nat) : Result :=
  if 16 <= irq then some (0, s) else underLock s (irq + 32) fun d => d

def interruptRegisterHandler (s : State) (irq : Nat) (handler : Option Nat)
    (mem : Bool) : Result :=
  match handler with
  | none => some (-einval, s)
  | some handler =>
      if 256 <= irq then some (-einval, s)
      else if ¬ mem then some (-enomem, s)
      else do
        let (_, s) <- underLock s irq fun d => { d with
          handlers := handler :: d.handlers
          handlerCount := d.handlerCount + 1 }
        let (_, s) <- interruptEnable s irq
        return (0, s)

def interruptUnregisterHandler (s : State) (irq : Nat)
    (handler : Option Nat) : Result :=
  match handler with
  | none => some (-einval, s)
  | some handler =>
      if 256 <= irq then some (-einval, s)
      else do
        let s <- spinLock s
        let d := s.desc irq
        if handler ∉ d.handlers then return (-enoent, spinUnlock s)
        else
          let d := { d with
            handlers := d.handlers.erase handler
            handlerCount := d.handlerCount - 1 }
          let s := setDesc s irq d
          if d.handlerCount = 0 then
            let (_, s) <- interruptDisable s irq
            return (0, spinUnlock s)
          else return (0, spinUnlock s)

inductive Call where
  | enable (irq : Nat)
  | disable (irq : Nat)
  | eoi (irq : Nat)

def Call.run (s : State) : Call -> Result
  | .enable irq => interruptEnable s irq
  | .disable irq => interruptDisable s irq
  | .eoi irq => interruptEoi s irq

def runCalls : State -> List Call -> Option State
  | s, [] => some s
  | s, c :: cs => do
      let (_, s) <- c.run s
      runCalls s cs

/-- `body` is what each handler calls. -/
def interruptHandle (s : State) (irq : Nat) (body : Nat -> List Call) : Result :=
  if 256 <= irq then some (0, s)
  else do
    let old := s.current
    let s <- spinLock { s with current := irq }
    let s <- runCalls s ((s.desc irq).handlers.flatMap body)
    return (0, { spinUnlock s with current := old })

def interruptDispatch (s : State) (ip : Option Nat) (body : Nat -> List Call) :
    Result :=
  match ip with
  | none => some (0, s)
  | some ip =>
      if 32 <= ip ∧ ip < 48 then do
        let (_, s) <- interruptHandle s ip body
        interruptEoi s (ip - 32)
      else interruptHandle s ip body

inductive Step where
  | register (irq : Nat) (handler : Option Nat) (mem : Bool)
  | unregister (irq : Nat) (handler : Option Nat)
  | call (c : Call)
  | setPriority (irq priority : Nat)
  | dispatch (ip : Option Nat) (body : Nat -> List Call)

def Step.result (s : State) : Step -> Result
  | .register irq handler mem => interruptRegisterHandler s irq handler mem
  | .unregister irq handler => interruptUnregisterHandler s irq handler
  | .call c => c.run s
  | .setPriority irq priority => interruptSetPriority s irq priority
  | .dispatch ip body => interruptDispatch s ip body

def next (s : State) (step : Step) : Option State :=
  (step.result s).map Prod.snd

def initial : State where
  locked := false
  current := 0
  desc := fun _ => ⟨0, 2, 0, []⟩

def Call.Locks : Call -> Prop
  | .enable irq => irq < 256
  | .disable irq => irq < 256
  | .eoi irq => irq < 16

/-- The last handler of an interrupt is not unregistered, and the handlers that
are run make no call that takes the lock. -/
def Safe (s : State) : Step -> Prop
  | .unregister irq handler => forall h, handler = some h -> irq < 256 ->
      h ∈ (s.desc irq).handlers -> (s.desc irq).handlerCount ≠ 1
  | .dispatch ip body => forall irq, ip = some irq -> irq < 256 ->
      forall h, h ∈ (s.desc irq).handlers -> forall c, c ∈ body h -> ¬ c.Locks
  | _ => True

/-!
## Held and free

With the lock free every function returns with the lock free; with the lock held
a function does not return if it gets as far as the lock.
-/

variable {s : State}

theorem underLock_free (h : s.locked = false) (irq : Nat) (f : Desc -> Desc) :
    underLock s irq f = some (0, setDesc s irq (f (s.desc irq))) := by
  simp [underLock, spinLock, spinUnlock, setDesc, h]

theorem underLock_held (h : s.locked = true) (irq : Nat) (f : Desc -> Desc) :
    underLock s irq f = none := by
  simp [underLock, spinLock, h]

theorem Call.run_held (h : s.locked = true) (c : Call) :
    c.Locks ∧ c.run s = none ∨ ¬ c.Locks ∧ exists r, c.run s = some (r, s) := by
  cases c <;> simp only [Call.Locks, Call.run, interruptEnable,
    interruptDisable, interruptEoi, underLock_held h] <;> split <;> simp <;> omega

theorem Call.run_free (h : s.locked = false) (c : Call) :
    exists r s', c.run s = some (r, s') ∧ s'.locked = false := by
  cases c <;> simp only [Call.run, interruptEnable, interruptDisable,
    interruptEoi, underLock_free h] <;> split <;> exact ⟨_, _, rfl, h⟩

theorem runCalls_held (h : s.locked = true) (cs : List Call) :
    runCalls s cs = none ∧ (exists c, c ∈ cs ∧ c.Locks) ∨
      runCalls s cs = some s ∧ forall c, c ∈ cs -> ¬ c.Locks := by
  induction cs with
  | nil => exact Or.inr ⟨rfl, by simp⟩
  | cons c cs ih =>
    unfold runCalls
    rcases c.run_held h with ⟨hlocks, hrun⟩ | ⟨hnot, r, hrun⟩
    · exact Or.inl ⟨by simp [hrun], c, List.mem_cons_self, hlocks⟩
    · simpa [hrun, hnot] using ih

/-- A call that is safe returns with the lock free, and no other one returns. -/
def Outcome (r : Result) (safe : Prop) : Prop :=
  r = none ∧ ¬ safe ∨ (exists n s', r = some (n, s') ∧ s'.locked = false) ∧ safe

section

variable (h : s.locked = false)
include h

theorem outcome_handle (irq : Nat) (body : Nat -> List Call) :
    Outcome (interruptHandle s irq body) (Safe s (.dispatch (some irq) body)) := by
  have hheld := runCalls_held (s := { s with current := irq, locked := true })
    rfl ((s.desc irq).handlers.flatMap body)
  unfold Outcome interruptHandle Safe spinLock
  grind [spinUnlock]

theorem outcome_unregister (irq : Nat) (handler : Option Nat) :
    Outcome (interruptUnregisterHandler s irq handler)
      (Safe s (.unregister irq handler)) := by
  -- the lock is held where the interrupt is disabled
  have hheld := fun d : Desc => underLock_held
    (s := setDesc { s with locked := true } irq d) rfl
  unfold Outcome interruptUnregisterHandler Safe spinLock interruptDisable
  grind [spinUnlock]

theorem outcome_register (irq : Nat) (handler : Option Nat) (mem : Bool) :
    Outcome (interruptRegisterHandler s irq handler mem) True := by
  have hset := fun d => underLock_free (s := setDesc s irq d) h
  refine Or.inr ⟨?_, trivial⟩
  unfold interruptRegisterHandler interruptEnable
  cases handler with
  | none => exact ⟨_, s, rfl, h⟩
  | some handler =>
    simp only [underLock_free h, Option.bind_eq_bind, Option.bind_some, hset]
    split_ifs <;> exact ⟨_, _, rfl, h⟩

theorem outcome_dispatch (ip : Option Nat) (body : Nat -> List Call) :
    Outcome (interruptDispatch s ip body) (Safe s (.dispatch ip body)) := by
  cases ip with
  | none => exact Or.inr ⟨⟨0, s, rfl, h⟩, by simp [Safe]⟩
  | some ip =>
    have hhandle := outcome_handle h ip body
    unfold interruptDispatch
    simp only
    split
    · rcases hhandle with ⟨hrun, hnot⟩ | ⟨⟨n, s1, hrun, h1⟩, hs⟩
      · exact Or.inl ⟨by simp [hrun], hnot⟩
      · rw [hrun]
        exact Or.inr ⟨Call.run_free h1 (.eoi (ip - 32)), hs⟩
    · exact hhandle

theorem outcome_step (step : Step) :
    Outcome (step.result s) (Safe s step) := by
  cases step with
  | register irq handler mem => exact outcome_register h irq handler mem
  | unregister irq handler => exact outcome_unregister h irq handler
  | call c => exact Or.inr ⟨Call.run_free h c, trivial⟩
  | setPriority irq priority =>
    refine Or.inr ⟨?_, trivial⟩
    simp only [Step.result, interruptSetPriority, underLock_free h]
    split <;> exact ⟨_, _, rfl, h⟩
  | dispatch ip body => exact outcome_dispatch h ip body

end

/-- In a state that was reached, a call returns exactly when it is safe: a run
of safe calls never takes the lock while it holds it. -/
theorem interrupt_lock_not_retaken {s : State}
    (h : Transition.Reachable (fun s => s = initial)
      (fun s step s' => next s step = some s') s) (step : Step) :
    next s step ≠ none <-> Safe s step := by
  have hfree : s.locked = false := by
    apply h.invariant
    · rintro _ rfl
      rfl
    · intro s step s' hs hnext
      rcases outcome_step hs step with ⟨hnone, _⟩ | ⟨⟨n, s1, hsome, h1⟩, _⟩
      · simp [next, hnone] at hnext
      · simp only [next, hsome, Option.map_some, Option.some.injEq] at hnext
        exact hnext ▸ h1
  rcases outcome_step hfree step with ⟨hnone, hnot⟩ | ⟨⟨n, s1, hsome, _⟩, hsafe⟩
  · simp [next, hnone, hnot]
  · simp [next, hsome, hsafe]

theorem interrupt_lock_not_retaken_two :
    exists s, Transition.run next initial
        [.register 33 (some 7) true, .register 33 (some 8) true] = some s ∧
      next s (.unregister 33 (some 8)) ≠ none := by
  refine ⟨_, rfl, ?_⟩
  have hinit : Transition.Reachable (fun s => s = initial)
    (fun s step s' => next s step = some s') initial := .init rfl
  apply (interrupt_lock_not_retaken (hinit.run
    [.register 33 (some 7) true, .register 33 (some 8) true] rfl) _).mpr
  intro _ _ _ _
  decide

/-- The last handler cannot be unregistered, and a handler cannot signal the end
of its interrupt. -/
theorem interrupt_lock_retaken :
    exists s, Transition.run next initial [.register 33 (some 7) true] =
        some s ∧
      next s (.unregister 33 (some 7)) = none ∧
      next s (.dispatch (some 33) fun _ => [.eoi 1]) = none :=
  ⟨_, rfl, rfl, rfl⟩

end Interrupt
end Horizon
