import Horizon.Thread.Mutex.Model

/-!
# Mutual exclusion

What a thread at some point of a call may do to the mutex is its role. At most
one thread is on its way to own the mutex, owns it, or is on its way to release
it, through the fast paths as well as when the ownership is handed to a waiter.
-/

namespace Horizon
namespace Mutex

open Function Transition

/-!
## Roles
-/

inductive Role (thread : Type) where
  | plain
  -- the mutex is locked but not owned: before the store of the owner and before
  -- the release
  | transit
  -- about to wait
  | entering
  | waiting
  -- in `mutex_unlock`, still the owner
  | releasing
  | picking (waiter : thread)
  | handing (waiter : thread)
  -- in `sched_unblock_thread`
  | waking (waiter : thread)
  deriving DecidableEq

def Point.role {thread : Type} : Point thread -> Role thread
  | .lockOwner | .tryOwner | .unlockRelease => .transit
  | .lockEnqueue => .entering
  | .lockBlock | .asleep => .waiting
  | .unlockEmpty | .unlockFirst | .unlockClear => .releasing
  | .unlockDel w => .picking w
  | .unlockOwner w => .handing w
  | .unlockState w | .unlockReady w => .waking w
  | _ => .plain

def Role.Releases {thread : Type} : Role thread -> Prop
  | .releasing | .picking _ | .handing _ => True
  | _ => False

structure View (thread : Type) where
  locked : Bool
  owner : Option thread
  waiters : List thread
  ready : thread -> Bool
  role : thread -> Role thread
  holds : thread -> Bool

def State.view {thread : Type} (s : State thread) : View thread where
  locked := s.locked
  owner := s.owner
  waiters := s.waiters
  ready := fun t => decide (s.state t = .ready)
  role := fun t => (s.point t).role
  holds := s.holds

structure Ok {thread : Type} (v : View thread) : Prop where
  holds : forall t, v.holds t = true -> v.owner = some t
  locked : forall t, v.owner = some t -> v.locked = true
  owner : forall t, v.owner = some t -> v.holds t = true ∨ v.role t = .waiting
  transit : forall t, v.role t = .transit -> v.locked = true ∧ v.owner = none
  single : forall t u, v.role t = .transit -> v.role u = .transit -> t = u
  releases : forall t, (v.role t).Releases -> v.owner = some t
  entering : forall t, v.role t = .entering -> v.holds t = false
  waiting : forall t, t ∈ v.waiters -> v.role t = .waiting ∧ v.owner ≠ some t
  nodup : v.waiters.Nodup
  picked : forall t w, v.role t = .picking w -> v.role w = .waiting
  handed : forall t w, v.role t = .handing w ->
    v.role w = .waiting ∧ w ∉ v.waiters
  ready : forall t, v.ready t = true -> v.owner = some t ∧ v.role t = .waiting
  waking : forall t w, v.role t = .waking w ->
    v.owner = some w ∧ v.role w = .waiting ∧ v.ready w = false
  waker : forall t u w, v.role t = .waking w -> v.role u = .waking w -> t = u

/-!
## Steps

Each step is one change of the view; the facts about the other threads that it
rests on are named first.
-/

section Steps

variable {thread : Type} [DecidableEq thread] {v : View thread} {t w : thread}

section

variable (h : Ok v)
include h

theorem Ok.swap (hrole : v.role t = .plain) (hfree : v.locked = false) :
    Ok { v with
      locked := true
      role := update v.role t .transit } := by
  have hnone : v.owner = none := by
    cases howner : v.owner with
    | none => rfl
    | some u => exact absurd (h.locked u howner) (by simp [hfree])
  have hsingle : forall u, v.role u ≠ .transit := by
    intro u hu
    exact absurd (h.transit u hu).1 (by simp [hfree])
  constructor <;> grind [Ok, update_apply, Role.Releases]

theorem Ok.own (hrole : v.role t = .transit) :
    Ok { v with
      owner := some t
      role := update v.role t .plain
      holds := update v.holds t true } := by
  obtain ⟨hlocked, hnone⟩ := h.transit t hrole
  have hidle : forall u, v.holds u = false := by
    intro u
    by_contra hu
    have howner := h.holds u (by simpa using hu)
    rw [hnone] at howner
    cases howner
  constructor <;> grind [Ok, update_apply, Role.Releases]

theorem Ok.enter (hrole : v.role t = .plain) (hother : v.owner ≠ some t) :
    Ok { v with role := update v.role t .entering } := by
  have hidle : v.holds t = false := by
    by_contra ht
    exact hother (h.holds t (by simpa using ht))
  constructor <;> grind [Ok, update_apply, Role.Releases]

theorem Ok.enqueue (hrole : v.role t = .entering) :
    Ok { v with
      waiters := v.waiters ++ [t]
      role := update v.role t .waiting } := by
  have hout : t ∉ v.waiters := by
    intro hmem
    rw [(h.waiting t hmem).1] at hrole
    cases hrole
  constructor <;> grind [Ok, update_apply, Role.Releases]

theorem Ok.block (t : thread) :
    Ok { v with ready := update v.ready t false } := by
  constructor <;> grind [Ok, update_apply]

theorem Ok.resume (hrole : v.role t = .waiting) (hready : v.ready t = true) :
    Ok { v with
      ready := update v.ready t false
      role := update v.role t .plain
      holds := update v.holds t true } := by
  have howner := (h.ready t hready).1
  have hwaiter : t ∉ v.waiters := fun hmem => (h.waiting t hmem).2 howner
  have hpicked : forall u, ¬ (v.role u).Releases := by
    intro u hu
    have hsame := h.releases u hu
    grind [Role.Releases]
  constructor <;> grind [Ok, update_apply, Role.Releases]

theorem Ok.release (hrole : v.role t = .plain) (howner : v.owner = some t) :
    Ok { v with role := update v.role t .releasing } := by
  constructor <;> grind [Ok, update_apply, Role.Releases]

theorem Ok.pick (hrole : v.role t = .releasing) (hmem : w ∈ v.waiters) :
    Ok { v with role := update v.role t (.picking w) } := by
  have hwaiting := (h.waiting w hmem).1
  constructor <;> grind [Ok, update_apply, Role.Releases]

theorem Ok.remove (hrole : v.role t = .picking w) :
    Ok { v with
      waiters := v.waiters.erase w
      role := update v.role t (.handing w) } := by
  have hgone : w ∉ v.waiters.erase w := h.nodup.not_mem_erase
  have hnodup : (v.waiters.erase w).Nodup := h.nodup.erase w
  have hrest : forall u, u ∈ v.waiters.erase w -> u ∈ v.waiters :=
    fun u hu => List.mem_of_mem_erase hu
  have hwaiting := h.picked t w hrole
  have hself : v.owner = some t := h.releases t (by rw [hrole]; trivial)
  constructor <;> grind [Ok, update_apply, Role.Releases]

theorem Ok.handOver (hrole : v.role t = .handing w) :
    Ok { v with
      owner := some w
      role := update v.role t (.waking w)
      holds := update v.holds t false } := by
  have hself : v.owner = some t := h.releases t (by rw [hrole]; trivial)
  obtain ⟨hwaiting, hgone⟩ := h.handed t w hrole
  have hlocked := h.locked t hself
  have hready : forall u, v.ready u = false := by
    intro u
    by_contra hu
    have howner := h.ready u (by simpa using hu)
    grind
  constructor <;> grind [Ok, update_apply, Role.Releases]

theorem Ok.wake (hrole : v.role t = .waking w) :
    Ok { v with
      ready := update v.ready w true
      role := update v.role t .plain } := by
  obtain ⟨howner, hwaiting, -⟩ := h.waking t w hrole
  constructor <;> grind [Ok, update_apply, Role.Releases]

theorem Ok.pass (hrole : v.role t = .waking w) :
    Ok { v with role := update v.role t .plain } := by
  constructor <;> grind [Ok, update_apply, Role.Releases]

theorem Ok.clear (hrole : v.role t = .releasing) :
    Ok { v with
      owner := none
      role := update v.role t .transit
      holds := update v.holds t false } := by
  have hself : v.owner = some t := h.releases t (by rw [hrole]; trivial)
  have hlocked := h.locked t hself
  constructor <;> grind [Ok, update_apply, Role.Releases]

theorem Ok.unlock (hrole : v.role t = .transit) :
    Ok { v with
      locked := false
      role := update v.role t .plain } := by
  obtain ⟨-, hnone⟩ := h.transit t hrole
  constructor <;> grind [Ok, update_apply, Role.Releases]

end

end Steps

/-!
## Calls
-/

theorem Ok.of_view {thread : Type} {s : State thread}
    {role : thread -> Role thread} {ready : thread -> Bool}
    (hrole : s.view.role = role) (hready : s.view.ready = ready)
    (h : Ok { s.view with role := role, ready := ready }) : Ok s.view := by
  subst hrole hready
  exact h

section Calls

variable {thread : Type} [DecidableEq thread] {s s' : State thread} {t : thread}

theorem role_update (s : State thread) (t : thread) (p : Point thread) :
    (fun u => (update s.point t p u).role) = update s.view.role t p.role :=
  comp_update Point.role s.point t p

theorem ready_update (s : State thread) (t : thread) (x : ThreadState) :
    (fun u => decide (update s.state t x u = .ready)) =
      update s.view.ready t (decide (x = .ready)) :=
  comp_update (fun x => decide (x = ThreadState.ready)) s.state t x

theorem Ok.stay (h : Ok s.view) {p : Point thread}
    (hrole : (s.point t).role = p.role) : Ok (s.move t p).view := by
  have hsame : update s.view.role t p.role = s.view.role := by
    rw [← hrole]
    exact update_eq_self t s.view.role
  exact Ok.of_view ((role_update s t p).trans hsame) rfl h

theorem Ok.advance (h : Ok s.view) (hs : s.advance t = some s') :
    Ok s'.view := by
  have hrole : s.view.role t = (s.point t).role := rfl
  unfold State.advance at hs
  generalize s.point t = p at hs hrole
  cases p with
  | outside => cases hs
  | lockSwap | trySwap =>
    cases hlocked : s.locked with
    | true =>
      simp only [hlocked, if_true] at hs
      cases hs
      exact h.stay hrole
    | false =>
      simp only [hlocked] at hs
      cases hs
      exact Ok.of_view (role_update s t _) rfl (h.swap hrole hlocked)
  | lockOwner | tryOwner =>
    cases hs
    exact Ok.of_view (role_update s t _) rfl (h.own hrole)
  | lockTest =>
    simp only at hs
    split at hs
    · cases hs
      exact h.stay hrole
    · rename_i hother
      cases hs
      exact Ok.of_view (role_update s t _) rfl (h.enter hrole hother)
  | lockEnqueue =>
    cases hs
    exact Ok.of_view (role_update s t _) rfl (h.enqueue hrole)
  | lockBlock =>
    cases hs
    have hasleep : Ok (s.move t .asleep).view := h.stay hrole
    exact Ok.of_view rfl (ready_update s t _) (hasleep.block t)
  | asleep =>
    simp only at hs
    split at hs
    · rename_i hready
      cases hs
      exact Ok.of_view (role_update s t _) (ready_update s t _)
        (h.resume hrole (decide_eq_true hready))
    · cases hs
  | unlockTest =>
    simp only at hs
    split at hs
    · rename_i howner
      cases hs
      exact Ok.of_view (role_update s t _) rfl (h.release hrole howner)
    · cases hs
      exact h.stay hrole
  | unlockEmpty =>
    simp only at hs
    split at hs <;> cases hs <;> exact h.stay hrole
  | unlockFirst =>
    simp only at hs
    split at hs
    · cases hs
    · rename_i w rest hwaiters
      cases hs
      have hmem : w ∈ s.view.waiters := by
        show w ∈ s.waiters
        rw [hwaiters]
        exact List.mem_cons_self
      exact Ok.of_view (role_update s t _) rfl (h.pick hrole hmem)
  | unlockDel w =>
    cases hs
    exact Ok.of_view (role_update s t _) rfl (h.remove hrole)
  | unlockOwner w =>
    cases hs
    exact Ok.of_view (role_update s t _) rfl (h.handOver hrole)
  | unlockState w =>
    simp only at hs
    split at hs
    · cases hs
      exact h.stay hrole
    · cases hs
      exact Ok.of_view (role_update s t _) rfl (h.pass hrole)
  | unlockReady w =>
    cases hs
    exact Ok.of_view (role_update s t _) (ready_update s w _) (h.wake hrole)
  | unlockClear =>
    cases hs
    exact Ok.of_view (role_update s t _) rfl (h.clear hrole)
  | unlockRelease =>
    cases hs
    exact Ok.of_view (role_update s t _) rfl (h.unlock hrole)

theorem Ok.next (h : Ok s.view) {l : thread × Action} (hs : next s l = some s') :
    Ok s'.view := by
  obtain ⟨t, action⟩ := l
  cases action with
  | step => exact h.advance hs
  | call c =>
    simp only [Mutex.next] at hs
    split at hs <;> cases hs
    rename_i hpoint
    apply h.stay
    rw [hpoint]
    cases c <;> rfl

end Calls

theorem ok_mutexInit (thread : Type) : Ok (mutexInit thread).view := by
  constructor <;> simp [mutexInit, State.view, Point.role, Role.Releases]

/-!
## Runs
-/

section Runs

variable {thread : Type} [DecidableEq thread]

def Reached (s : State thread) : Prop :=
  Reachable (fun s => s = mutexInit thread)
    (fun s l s' => next s l = some s') s

theorem Reached.ok {s : State thread} (h : Reached s) : Ok s.view := by
  induction h with
  | init hs =>
    rw [hs]
    exact ok_mutexInit thread
  | step _ hs ih => exact ih.next hs

/-- In every state that is reached, at most one thread holds the mutex; outside
the calls it is the owner of the locked mutex; and a thread that does not hold
it is refused by `mutex_unlock`, which changes nothing. -/
theorem mutex_exclusion {s : State thread} (h : Reached s) :
    (forall t u, s.holds t = true -> s.holds u = true -> t = u) ∧
      (forall t, s.holds t = true -> s.point t = .outside ->
        s.locked = true ∧ s.owner = some t) ∧
      forall t, s.holds t = false -> s.point t = .unlockTest ->
        next s (t, .step) = some (s.leave t (-Errno.eperm)) := by
  have hok := h.ok
  refine ⟨?_, ?_, ?_⟩
  · intro t u ht hu
    have howner := (hok.holds t ht).symm.trans (hok.holds u hu)
    exact Option.some.inj howner
  · intro t ht _
    have howner := hok.holds t ht
    exact ⟨hok.locked t howner, howner⟩
  · intro t ht hpoint
    have hother : s.owner ≠ some t := by
      intro howner
      rcases hok.owner t howner with hholds | hwaiting
      · exact absurd (ht.symm.trans hholds) (by decide)
      · have hplain : s.view.role t = .plain := congrArg Point.role hpoint
        rw [hwaiting] at hplain
        cases hplain
    simp only [next, State.advance, hpoint, if_neg hother]

/-- In every state that is reached, the threads in the list are distinct, wait
and do not own the mutex; a thread that was made ready owns it and has left the
list; and at most one thread releases the mutex, and one wakes each waiter. -/
theorem mutex_handoff {s : State thread} (h : Reached s) :
    s.waiters.Nodup ∧
      (forall t, t ∈ s.waiters ->
        (s.point t).role = .waiting ∧ s.owner ≠ some t) ∧
      (forall t, s.state t = .ready -> s.owner = some t ∧ t ∉ s.waiters) ∧
      (forall t u, (s.point t).role.Releases -> (s.point u).role.Releases ->
        t = u) ∧
      forall t u w, (s.point t).role = .waking w ->
        (s.point u).role = .waking w -> t = u := by
  have hok := h.ok
  refine ⟨hok.nodup, hok.waiting, ?_, ?_, hok.waker⟩
  · intro t ht
    have howner := (hok.ready t (decide_eq_true ht)).left
    exact ⟨howner, fun hmem => (hok.waiting t hmem).right howner⟩
  · intro t u ht hu
    have howner := (hok.releases t ht).symm.trans (hok.releases u hu)
    exact Option.some.inj howner

end Runs

/-- A thread has locked the mutex in the fast path. -/
theorem mutex_exclusion_locked :
    exists s : State Bool, Reached s ∧ s.holds true = true ∧
      s.locked = true ∧ s.owner = some true := by
  let s₁ := (mutexInit Bool).move true .lockSwap
  let s₂ := { s₁.move true .lockOwner with locked := true }
  have h₀ : Reached (mutexInit Bool) := Reachable.init rfl
  have h₁ : Reached s₁ :=
    Reachable.step (l := (true, .call .lock)) h₀ rfl
  have h₂ : Reached s₂ := Reachable.step (l := (true, .step)) h₁ rfl
  have h₃ : Reached (s₂.own true) :=
    Reachable.step (l := (true, .step)) h₂ rfl
  exact ⟨s₂.own true, h₃, rfl, (mutex_exclusion h₃).2.1 true rfl rfl⟩

/-- The second thread is in the list while the first one releases the mutex. -/
theorem mutex_handoff_to_second :
    exists s : State Bool, Reached s ∧ s.waiters = [false] ∧
      (s.point true).role.Releases ∧ s.owner ≠ some false := by
  have hreach := Reachable.run (Reachable.init rfl : Reached (mutexInit Bool))
    [(true, .call .lock), (true, .step), (true, .step), (false, .call .lock),
      (false, .step), (false, .step), (false, .step), (true, .call .unlock),
      (true, .step)] rfl
  exact ⟨_, hreach, rfl, trivial,
    ((mutex_handoff hreach).2.1 false List.mem_cons_self).right⟩

end Mutex
end Horizon
