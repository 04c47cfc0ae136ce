import Horizon.Thread.Mutex.Exclusion
import Mathlib.Data.Fintype.Basic

/-!
# Stranded waiters

Between its failed swap and its place in the list of waiters, a thread in
`mutex_lock` can miss the unlock it is to wait for. It blocks for ever then,
unless some other thread comes along; as long as threads enter the list only
while an unlock is still to come, no waiter is left behind.
-/

namespace Horizon
namespace Mutex

open Function Transition

def Point.Busy {thread : Type} : Point thread -> Prop
  | .lockSwap | .lockOwner => True
  | .unlockTest | .unlockEmpty | .unlockFirst | .unlockDel _ => True
  | .unlockOwner _ | .unlockState _ | .unlockReady _ => True
  | .unlockClear | .unlockRelease => True
  | _ => False

/-- A thread is blocked in `mutex_lock` on a mutex that is unlocked, and nobody
is about to lock or unlock it. -/
def Stranded {thread : Type} (s : State thread) : Prop :=
  s.locked = false ∧ (forall t, ¬ (s.point t).Busy) ∧
    exists t, s.point t = .asleep ∧ s.state t = .blocked

def Point.Clears {thread : Type} : Point thread -> Prop
  | .unlockClear | .unlockRelease => True
  | _ => False

/-- A thread enters the list only while the mutex is locked, and not after an
unlock has found the list empty. -/
def StepOk {thread : Type} (s : State thread) (l : thread × Action) : Prop :=
  l.2 = .step -> s.point l.1 = .lockEnqueue ->
    s.locked = true ∧ forall u, ¬ (s.point u).Clears

structure Served {thread : Type} (s : State thread) : Prop where
  locked : s.waiters ≠ [] -> s.locked = true
  listed : s.waiters ≠ [] -> forall u, ¬ (s.point u).Clears
  -- a waiter is in the list, about to be the owner, or the owner
  waiting : forall u, (s.point u).role = .waiting ->
    u ∈ s.waiters ∨ s.owner = some u ∨ exists k, s.point k = .unlockOwner u

section Steps

variable {thread : Type} [DecidableEq thread] {s s' : State thread} {t : thread}

theorem Served.keep (h : Served s) {p : Point thread}
    (hpoint : s'.point = update s.point t p)
    (hwaiters : s'.waiters = s.waiters)
    (hlocked : s.waiters ≠ [] -> s'.locked = s.locked ∨ s'.locked = true)
    (hclears : p.Clears -> s.waiters = [])
    (hwaits : p.role = .waiting -> (s.point t).role = .waiting)
    (howner : forall u, (s.point u).role = .waiting -> s.owner = some u ->
      s'.owner = some u)
    (hgives : forall w, s.point t = .unlockOwner w -> s'.owner = some w) :
    Served s' := by
  constructor
  · intro hne
    rw [hwaiters] at hne
    rcases hlocked hne with hsame | hset
    · rw [hsame, h.locked hne]
    · exact hset
  · intro hne u
    rw [hwaiters] at hne
    rw [hpoint, update_apply]
    split
    · exact fun hp => hne (hclears hp)
    · exact h.listed hne u
  · intro u hu
    have hwaiting : (s.point u).role = .waiting := by
      rw [hpoint, update_apply] at hu
      split at hu
      · rename_i heq
        rw [heq]
        exact hwaits hu
      · exact hu
    rw [hwaiters]
    rcases h.waiting u hwaiting with hmem | howns | ⟨k, hk⟩
    · exact Or.inl hmem
    · exact Or.inr (Or.inl (howner u hwaiting howns))
    · by_cases hkt : k = t
      · rw [hkt] at hk
        exact Or.inr (Or.inl (hgives u hk))
      · refine Or.inr (Or.inr ⟨k, ?_⟩)
        rw [hpoint, update_of_ne hkt, hk]

theorem Served.enqueue (h : Served s) (hlocked : s.locked = true)
    (hclears : forall u, ¬ (s.point u).Clears) (hpoint : s.point t = .lockEnqueue) :
    Served { s.move t .lockBlock with waiters := s.waiters ++ [t] } := by
  constructor
  · exact fun _ => hlocked
  · intro _ u
    show ¬ (update s.point t .lockBlock u).Clears
    rw [update_apply]
    split
    · exact id
    · exact hclears u
  · intro u hu
    show u ∈ s.waiters ++ [t] ∨ s.owner = some u ∨
      exists k, update s.point t .lockBlock k = .unlockOwner u
    by_cases hut : u = t
    · exact Or.inl (by simp [hut])
    · have hwaiting : (s.point u).role = .waiting := by
        rw [← update_of_ne hut .lockBlock s.point]
        exact hu
      rcases h.waiting u hwaiting with hmem | howns | ⟨k, hk⟩
      · exact Or.inl (List.mem_append_left _ hmem)
      · exact Or.inr (Or.inl howns)
      · refine Or.inr (Or.inr ⟨k, ?_⟩)
        rw [update_of_ne _ _ _, hk]
        rintro rfl
        rw [hpoint] at hk
        cases hk

theorem Served.remove (h : Served s) {w : thread}
    (hpoint : s.point t = .unlockDel w) :
    Served { s.move t (.unlockOwner w) with waiters := s.waiters.erase w } := by
  have hne : s.waiters.erase w ≠ [] -> s.waiters ≠ [] := by
    intro herase hnil
    rw [hnil] at herase
    exact herase rfl
  constructor
  · exact fun herase => h.locked (hne herase)
  · intro herase u
    show ¬ (update s.point t _ u).Clears
    rw [update_apply]
    split
    · exact id
    · exact h.listed (hne herase) u
  · intro u hu
    show u ∈ s.waiters.erase w ∨ s.owner = some u ∨
      exists k, update s.point t (.unlockOwner w) k = .unlockOwner u
    by_cases huw : u = w
    · refine Or.inr (Or.inr ⟨t, ?_⟩)
      rw [update_self, huw]
    · have hut : u ≠ t := by
        rintro rfl
        have hhands : (update s.point u (.unlockOwner w) u).role =
          .waiting := hu
        rw [update_self] at hhands
        cases hhands
      have hwaiting : (s.point u).role = .waiting := by
        rw [← update_of_ne hut (.unlockOwner w) s.point]
        exact hu
      rcases h.waiting u hwaiting with hmem | howns | ⟨k, hk⟩
      · exact Or.inl ((List.mem_erase_of_ne huw).mpr hmem)
      · exact Or.inr (Or.inl howns)
      · refine Or.inr (Or.inr ⟨k, ?_⟩)
        rw [update_of_ne _ _ _, hk]
        rintro rfl
        rw [hpoint] at hk
        cases hk

theorem Served.advance (h : Served s) (hok : Ok s.view)
    (hstep : StepOk s (t, .step)) (hs : s.advance t = some s') : Served s' := by
  have hreleases : (s.point t).role.Releases -> s.owner = some t :=
    hok.releases t
  have htransit : (s.point t).role = .transit -> s.owner = none :=
    fun hrole => (hok.transit t hrole).2
  have hlisted : (s.point t).Clears -> s.waiters = [] := by
    intro hclears
    by_contra hne
    exact h.listed hne t hclears
  unfold State.advance at hs
  cases hpoint : s.point t with
  | outside => simp [hpoint] at hs
  | lockEnqueue =>
    simp only [hpoint, Option.some.injEq] at hs
    subst hs
    obtain ⟨hlocked, hclears⟩ := hstep rfl hpoint
    exact h.enqueue hlocked hclears hpoint
  | unlockDel w =>
    simp only [hpoint, Option.some.injEq] at hs
    subst hs
    exact h.remove hpoint
  | unlockFirst =>
    simp only [hpoint] at hs
    split at hs
    · cases hs
    · cases hs
      refine h.keep rfl rfl ?_ ?_ ?_ ?_ ?_ <;>
        grind [Point.role, Point.Clears, State.move]
  -- the tests, which only move the thread
  | lockSwap | lockTest | asleep | trySwap | unlockTest | unlockEmpty
  | unlockState w =>
    simp only [hpoint] at hs
    split at hs <;> cases hs <;>
      refine h.keep rfl rfl ?_ ?_ ?_ ?_ ?_ <;>
      grind [Point.role, Point.Clears, State.move, State.leave]
  -- the stores
  | lockOwner | lockBlock | tryOwner | unlockOwner w | unlockReady w
  | unlockClear | unlockRelease =>
    simp only [hpoint, Option.some.injEq] at hs
    subst hs
    refine h.keep rfl rfl ?_ ?_ ?_ ?_ ?_ <;>
      grind [Point.role, Point.Clears, Role.Releases, State.move, State.leave,
        State.own]

theorem Served.next (h : Served s) (hok : Ok s.view) {l : thread × Action}
    (hstep : StepOk s l) (hs : next s l = some s') : Served s' := by
  obtain ⟨t, action⟩ := l
  cases action with
  | step => exact h.advance hok hstep hs
  | call c =>
    simp only [Mutex.next] at hs
    split at hs <;> cases hs
    refine h.keep rfl rfl ?_ ?_ ?_ ?_ ?_ <;>
      cases c <;> grind [Point.role, Point.Clears, State.move, Call.entry]

end Steps

/-!
## Runs
-/

section Runs

variable {thread : Type} [DecidableEq thread]

theorem served_reachable {s : State thread}
    (h : Reachable (fun s => s = mutexInit thread)
      (Guarded StepOk next) s) : Ok s.view ∧ Served s := by
  induction h with
  | init hs =>
    rw [hs]
    refine ⟨ok_mutexInit thread, ?_⟩
    constructor <;> simp [mutexInit, Point.role]
  | step _ hs ih => exact ⟨ih.1.next hs.2, ih.2.next ih.1 hs.1 hs.2⟩

/-- As long as threads enter the list of waiters only before the unlock they are
to wait for, no thread is left blocked on an unlocked mutex. -/
theorem mutex_no_stranded_waiter {s : State thread}
    (h : Reachable (fun s => s = mutexInit thread)
      (Guarded StepOk next) s) : ¬ Stranded s := by
  obtain ⟨hok, hserved⟩ := served_reachable h
  rintro ⟨hfree, hbusy, t, hasleep, -⟩
  have hwaiting : (s.point t).role = .waiting := by
    rw [hasleep]
    rfl
  rcases hserved.waiting t hwaiting with hmem | howner | ⟨u, hu⟩
  · have hlocked := hserved.locked (List.ne_nil_of_mem hmem)
    rw [hfree] at hlocked
    cases hlocked
  · have hlocked : s.locked = true := hok.locked t howner
    rw [hfree] at hlocked
    cases hlocked
  · apply hbusy u
    rw [hu]
    trivial

end Runs

instance {thread : Type} : DecidablePred (@Point.Clears thread) := by
  intro p
  unfold Point.Clears
  split <;> infer_instance

instance {thread : Type} [Fintype thread] [DecidableEq thread]
    (s : State thread) (l : thread × Action) : Decidable (StepOk s l) :=
  inferInstanceAs (Decidable (_ -> _ -> _))

def blockedLock : List (Bool × Action) :=
  [(true, .call .lock), (true, .step), (true, .step), (false, .call .lock),
    (false, .step), (false, .step), (false, .step), (false, .step)]

theorem mutex_no_stranded_waiter_blocked :
    exists s : State Bool,
      Transition.run (Transition.guard StepOk next) (mutexInit Bool) blockedLock =
        some s ∧ s.point false = .asleep ∧ ¬ Stranded s := by
  have hinit : Reachable (fun s => s = mutexInit Bool)
      (Guarded StepOk next) (mutexInit Bool) :=
    Reachable.init rfl
  exact ⟨_, rfl, rfl, mutex_no_stranded_waiter (hinit.run_guard blockedLock rfl)⟩

/-- The second thread finds the mutex locked, and enters the list after the
first one has found it empty and unlocked the mutex. -/
def missedUnlock : List (Bool × Action) :=
  [(true, .call .lock), (true, .step), (true, .step), (false, .call .lock),
    (false, .step), (false, .step), (true, .call .unlock), (true, .step),
    (true, .step), (true, .step), (true, .step), (false, .step), (false, .step)]

theorem mutex_stranded_waiter :
    exists s : State Bool, Reached s ∧ Stranded s := by
  have hrun : exists s, Transition.run next (mutexInit Bool) missedUnlock =
      some s ∧ Stranded s := by
    refine ⟨_, rfl, rfl, ?_, false, rfl, rfl⟩
    intro t
    cases t <;> exact id
  obtain ⟨s, hs, hstranded⟩ := hrun
  have hinit : Reached (mutexInit Bool) := Reachable.init rfl
  exact ⟨s, Reachable.run hinit missedUnlock hs, hstranded⟩

end Mutex
end Horizon
