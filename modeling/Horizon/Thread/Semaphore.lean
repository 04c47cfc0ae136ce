import Horizon.Lib.ThreadCount
import Horizon.Lib.Transition
import Horizon.Types

/-!
# Semaphores

This module follows the semaphores of `thread_sync.c` thread by thread. One step
is one atomic change of the value, one operation on the list of waiters or one
access to a field, and the steps of different threads interleave in any way.
-/

namespace Horizon
namespace Semaphore

open Function ThreadCount Transition

/-- Where a thread stands. The state that the scheduler reads is that of its
point: a thread is blocked at `blocked` and ready at `woken`. -/
inductive Point (thread : Type) where
  | outside
  -- `sem_wait`
  | waitSub
  | waitEnqueue
  | waitBlock
  | blocked
  | woken
  -- `sem_trywait`
  | tryRead
  | trySub
  -- `sem_post`: the value, the list, and `sched_unblock_thread`
  | postAdd
  | postEmpty
  | postFirst
  | postDel (waiter : thread)
  | postState (waiter : thread)
  | postReady (waiter : thread)
  deriving DecidableEq

structure State (thread : Type) where
  value : Int
  waiters : List thread
  point : thread -> Point thread
  /-- What the last call of a thread returned. -/
  result : thread -> Int
  -- the calls of `sem_post` that returned, and those of `sem_wait` and
  -- `sem_trywait` that returned 0
  posted : Nat
  taken : Nat

inductive Call where
  | wait
  | trywait
  | post
  deriving DecidableEq

inductive Action where
  | call (c : Call)
  | step
  deriving DecidableEq

/-- An `int` after an atomic addition. -/
def wrap (i : Int) : Int := Int.bmod i (2 ^ 32)

section Step

variable {thread : Type} [DecidableEq thread]

def State.move (s : State thread) (t : thread) (p : Point thread) :
    State thread :=
  { s with point := update s.point t p }

def State.leave (s : State thread) (t : thread) (result : Int) : State thread :=
  { s.move t .outside with result := update s.result t result }

def State.leaveTaken (s : State thread) (t : thread) : State thread :=
  { s.leave t 0 with taken := s.taken + 1 }

def State.leavePosted (s : State thread) (t : thread) : State thread :=
  { s.leave t 0 with posted := s.posted + 1 }

/-- The store of `THREAD_STATE_READY`; on a thread that is not blocked it
has no effect that is ever read. -/
def Point.ready : Point thread -> Point thread
  | .blocked => .woken
  | p => p

/-- The next step of a thread inside a call. There is none where
`list_first_entry` would take the head of the list for a thread. -/
def State.advance (s : State thread) (t : thread) : Option (State thread) :=
  match s.point t with
  | .outside => none
  | .waitSub =>
      let old := s.value
      let s := { s with value := wrap (old - 1) }
      if old <= 0 then some (s.move t .waitEnqueue) else some (s.leaveTaken t)
  | .waitEnqueue =>
      some { s.move t .waitBlock with waiters := s.waiters ++ [t] }
  | .waitBlock => some (s.move t .blocked)
  | .blocked => none
  | .woken => some (s.leaveTaken t)
  | .tryRead =>
      if 0 < s.value then some (s.move t .trySub)
      else some (s.leave t (-Errno.eagain))
  | .trySub =>
      let old := s.value
      let s := { s with value := wrap (old - 1) }
      if 0 < old then some (s.leaveTaken t)
      else some (s.leave t (-Errno.eagain))
  | .postAdd =>
      let old := s.value
      let s := { s with value := wrap (old + 1) }
      if old < 0 then some (s.move t .postEmpty) else some (s.leavePosted t)
  | .postEmpty =>
      if s.waiters.isEmpty then some (s.leavePosted t)
      else some (s.move t .postFirst)
  | .postFirst =>
      match s.waiters with
      | [] => none
      | w :: _ => some (s.move t (.postDel w))
  | .postDel w =>
      some { s.move t (.postState w) with waiters := s.waiters.erase w }
  | .postState w =>
      if s.point w = .blocked then some (s.move t (.postReady w))
      else some (s.leavePosted t)
  | .postReady w => some ((s.move w (s.point w).ready).leavePosted t)

def Call.entry : Call -> Point thread
  | .wait => .waitSub
  | .trywait => .tryRead
  | .post => .postAdd

def next (s : State thread) : thread × Action -> Option (State thread)
  | (t, .call c) =>
      match s.point t with
      | .outside => some (s.move t c.entry)
      | _ => none
  | (t, .step) => s.advance t

end Step

def semInit (thread : Type) (value : Int) : State thread where
  value := value
  waiters := []
  point := fun _ => .outside
  result := fun _ => 0
  posted := 0
  taken := 0

/-- The steps on which no unit and no waiter is lost: the value neither leaves
its range nor is taken below zero by `sem_trywait`, and `sem_post`
finds a waiter, which is still in the list when it is taken out and already
blocked when it is woken. -/
def StepOk {thread : Type} (s : State thread) : thread × Action -> Prop
  | (_, .call _) => True
  | (t, .step) =>
      match s.point t with
      | .waitSub => -2 ^ 31 < s.value
      | .trySub => 0 < s.value
      | .postAdd => s.value < 2 ^ 31 - 1
      | .postEmpty => s.waiters ≠ []
      | .postDel w => w ∈ s.waiters
      | .postState w => s.point w = .blocked
      | _ => True

/-!
## The list of waiters
-/

def Point.Queued {thread : Type} (p : Point thread) : Prop :=
  p = .waitBlock ∨ p = .blocked

def Point.Wakes {thread : Type} (w : thread) (p : Point thread) : Prop :=
  p = .postState w ∨ p = .postReady w

structure Listed {thread : Type} (waiters : List thread)
    (point : thread -> Point thread) : Prop where
  queued : forall t, t ∈ waiters -> (point t).Queued
  nodup : waiters.Nodup
  waking : forall t w, (point t).Wakes w -> w ∉ waiters ∧ (point w).Queued
  ready : forall t w, point t = .postReady w -> point w = .blocked
  waker : forall t u w, (point t).Wakes w -> (point u).Wakes w -> t = u

section Lists

variable {thread : Type} [DecidableEq thread] {waiters : List thread}
  {point : thread -> Point thread} {t w : thread}

section

variable (h : Listed waiters point)
include h

/-- A thread that is not in the list goes to a point that has nothing to do with
it. -/
theorem Listed.move {p : Point thread} (hold : ¬ (point t).Queued)
    (hwakes : forall w, ¬ p.Wakes w) :
    Listed waiters (update point t p) := by
  have hready : forall w, p ≠ .postReady w := fun w hw => hwakes w (Or.inr hw)
  constructor <;> grind [Listed, update_apply, Point.Queued]

theorem Listed.enqueue (hpoint : point t = .waitEnqueue) :
    Listed (waiters ++ [t]) (update point t .waitBlock) := by
  have hout : t ∉ waiters := by
    intro hmem
    have hqueued := h.queued t hmem
    rw [hpoint] at hqueued
    rcases hqueued with hp | hp <;> cases hp
  constructor <;>
    grind [Listed, update_apply, Point.Queued, Point.Wakes]

theorem Listed.block :
    Listed waiters (update point t .blocked) := by
  constructor <;>
    grind [Listed, update_apply, Point.Queued, Point.Wakes]

theorem Listed.remove (hpoint : point t = .postDel w) (hmem : w ∈ waiters) :
    Listed (waiters.erase w) (update point t (.postState w)) := by
  have hgone : w ∉ waiters.erase w := h.nodup.not_mem_erase
  have hrest : forall u, u ∈ waiters.erase w -> u ∈ waiters :=
    fun u hu => List.mem_of_mem_erase hu
  have hqueued := h.queued w hmem
  constructor <;>
    grind [Listed, update_apply, Point.Queued, Point.Wakes, List.Nodup.erase]

theorem Listed.see (hpoint : point t = .postState w)
    (hblocked : point w = .blocked) :
    Listed waiters (update point t (.postReady w)) := by
  constructor <;>
    grind [Listed, update_apply, Point.Queued, Point.Wakes]

/-- The thread that is woken is in the list of nobody, and nobody else wakes
it. -/
theorem Listed.wake (hpoint : point t = .postReady w) :
    Listed waiters
      (update (update point w .woken) t .outside) := by
  have hblocked := h.ready t w hpoint
  obtain ⟨hgone, -⟩ := h.waking t w (Or.inr hpoint)
  constructor <;>
    grind [Listed, update_apply, Point.Queued, Point.Wakes]

end

end Lists

/-!
## Units
-/

def Point.Waits {thread : Type} : Point thread -> Prop
  | .waitEnqueue | .waitBlock | .blocked | .woken => True
  | _ => False

def Point.Posts {thread : Type} : Point thread -> Prop
  | .postEmpty | .postFirst | .postDel _ | .postState _ | .postReady _ => True
  | _ => False

instance {thread : Type} : DecidablePred (@Point.Waits thread) := by
  intro p
  unfold Point.Waits
  split <;> infer_instance

instance {thread : Type} : DecidablePred (@Point.Posts thread) := by
  intro p
  unfold Point.Posts
  split <;> infer_instance

section Units

variable {thread : Type} [Fintype thread] [DecidableEq thread]

/-- The units of the semaphore are those it had and those posted, without those
taken; a waiter is one that the value counts, that a post has found, or that has
been woken. -/
structure Counted (initial value : Int) (posted taken : Nat)
    (point : thread -> Point thread) : Prop where
  units : value + taken + count Point.Waits point =
    initial + posted + count Point.Posts point
  waiters : (count Point.Waits point : Int) =
    max (-value) 0 + count Point.Posts point + count (· = .woken) point

variable {initial value value' : Int} {posted posted' taken taken' : Nat}
  {point : thread -> Point thread} {t : thread}

def one (p : Prop) [Decidable p] : Int := if p then 1 else 0

theorem count_update_one (p : Point thread -> Prop) [DecidablePred p]
    (point : thread -> Point thread) (t : thread) (a : Point thread) :
    (count p (update point t a) : Int) =
      count p point + one (p a) - one (p (point t)) := by
  have hmove := count_update p point t a
  unfold one
  split <;> split <;> simp_all
  omega

theorem Counted.move (h : Counted initial value posted taken point)
    {p a : Point thread} (hpoint : point t = p)
    (hunits : value' + taken' + one a.Waits - one p.Waits - posted' -
        one a.Posts + one p.Posts = value + taken - posted)
    (hwaiters : one a.Waits - one p.Waits = max (-value') 0 - max (-value) 0 +
      one a.Posts - one p.Posts + one (a = .woken) - one (p = .woken)) :
    Counted initial value' posted' taken' (update point t a) := by
  have hbefore := h.units
  have hwaiting := h.waiters
  constructor
  · rw [count_update_one, count_update_one, hpoint]
    omega
  · rw [count_update_one, count_update_one, count_update_one, hpoint]
    omega

theorem Counted.stay (h : Counted initial value posted taken point)
    {p a : Point thread} (hpoint : point t = p)
    (hwaits : one a.Waits = one p.Waits) (hposts : one a.Posts = one p.Posts)
    (hwoken : one (a = .woken) = one (p = .woken)) :
    Counted initial value posted taken (update point t a) :=
  h.move hpoint (by omega) (by omega)

end Units

/-!
## Runs
-/

section Runs

variable {thread : Type} [Fintype thread] [DecidableEq thread]

structure Ok (initial : Int) (s : State thread) : Prop where
  low : -2 ^ 31 <= s.value
  high : s.value < 2 ^ 31
  listed : Listed s.waiters s.point
  counted : Counted initial s.value s.posted s.taken s.point

theorem wrap_eq {i : Int} (hlow : -2 ^ 31 <= i) (hhigh : i < 2 ^ 31) :
    wrap i = i := by
  unfold wrap
  apply Int.bmod_eq_of_le <;> omega

variable {initial : Int} {s s' : State thread} {t : thread}

theorem Ok.move (h : Ok initial s) {p a : Point thread} (hpoint : s.point t = p)
    (hlist : s'.waiters = s.waiters)
    (hmoved : s'.point = update s.point t a)
    (hlow : -2 ^ 31 <= s'.value) (hhigh : s'.value < 2 ^ 31)
    (hqueued : ¬ p.Queued) (hwakes : forall w, ¬ a.Wakes w)
    (hunits : s'.value + s'.taken + one a.Waits - one p.Waits - s'.posted -
        one a.Posts + one p.Posts = s.value + s.taken - s.posted)
    (hwaiters : one a.Waits - one p.Waits = max (-s'.value) 0 -
      max (-s.value) 0 + one a.Posts - one p.Posts + one (a = .woken) -
      one (p = .woken)) : Ok initial s' := by
  constructor
  · exact hlow
  · exact hhigh
  · rw [hlist, hmoved]
    exact h.listed.move (hpoint ▸ hqueued) hwakes
  · rw [hmoved]
    exact h.counted.move hpoint hunits hwaiters

theorem Ok.wake (h : Ok initial s) {w : thread}
    (hpoint : s.point t = .postReady w) :
    Ok initial ((s.move w (s.point w).ready).leavePosted t) := by
  have hblocked := h.listed.ready t w hpoint
  have hne : t ≠ w := by
    rintro rfl
    rw [hpoint] at hblocked
    cases hblocked
  have hstays : update s.point w .woken t = .postReady w := by
    rw [update_of_ne hne, hpoint]
  have hunits := h.counted.units
  have hwaiters := h.counted.waiters
  rw [hblocked]
  refine ⟨h.low, h.high, h.listed.wake hpoint, ?_, ?_⟩
  all_goals
    simp only [State.leavePosted, State.leave, State.move, Point.ready,
      count_update_one, hstays, hblocked]
    simp [one, Point.Waits, Point.Posts]
    omega

theorem Ok.advance (h : Ok initial s) (hstep : StepOk s (t, .step))
    (hs : s.advance t = some s') : Ok initial s' := by
  have hlow := h.low
  have hhigh := h.high
  unfold State.advance at hs
  simp only [StepOk] at hstep
  generalize hpoint : s.point t = q at hs hstep
  cases q with
  | outside | blocked => cases hs
  -- the accesses to the list and to the state of a waiter
  | waitEnqueue =>
    cases hs
    exact ⟨hlow, hhigh, h.listed.enqueue hpoint,
      h.counted.stay hpoint rfl rfl rfl⟩
  | waitBlock =>
    cases hs
    exact ⟨hlow, hhigh, h.listed.block, h.counted.stay hpoint rfl rfl rfl⟩
  | postDel w =>
    cases hs
    exact ⟨hlow, hhigh, h.listed.remove hpoint hstep,
      h.counted.stay hpoint rfl rfl rfl⟩
  | postState w =>
    simp only at hs hstep
    rw [if_pos hstep] at hs
    cases hs
    exact ⟨hlow, hhigh, h.listed.see hpoint hstep,
      h.counted.stay hpoint rfl rfl rfl⟩
  | postReady w =>
    cases hs
    exact h.wake hpoint
  -- the changes of the value
  | waitSub | trySub | postAdd =>
    simp only at hs hstep
    rw [wrap_eq (by omega) (by omega)] at hs
    split at hs <;> cases hs <;>
      refine h.move hpoint rfl rfl ?_ ?_ ?_ ?_ ?_ ?_ <;>
      simp [State.move, State.leave, State.leaveTaken, State.leavePosted,
        Point.Queued, Point.Wakes, one, Point.Waits, Point.Posts] <;>
      omega
  | woken =>
    cases hs
    refine h.move hpoint rfl rfl hlow hhigh ?_ ?_ ?_ ?_ <;>
      simp [State.move, State.leave, State.leaveTaken, Point.Queued,
        Point.Wakes, one, Point.Waits, Point.Posts]
    omega
  | tryRead =>
    simp only at hs
    split at hs <;> cases hs <;>
      refine h.move hpoint rfl rfl hlow hhigh ?_ ?_ ?_ ?_ <;>
      simp [State.move, State.leave, Point.Queued, Point.Wakes, one,
        Point.Waits, Point.Posts]
  | postEmpty =>
    simp only at hs hstep
    rw [if_neg (by simpa using hstep)] at hs
    cases hs
    refine h.move hpoint rfl rfl hlow hhigh ?_ ?_ ?_ ?_ <;>
      simp [State.move, Point.Queued, Point.Wakes, one, Point.Waits,
        Point.Posts]
  | postFirst =>
    simp only at hs
    split at hs <;> cases hs
    refine h.move hpoint rfl rfl hlow hhigh ?_ ?_ ?_ ?_ <;>
      simp [State.move, Point.Queued, Point.Wakes, one, Point.Waits,
        Point.Posts]

theorem Ok.next {l : thread × Action} (h : Ok initial s) (hstep : StepOk s l)
    (hs : next s l = some s') : Ok initial s' := by
  obtain ⟨t, action⟩ := l
  cases action with
  | step => exact h.advance hstep hs
  | call c =>
    simp only [Semaphore.next] at hs
    split at hs <;> cases hs
    rename_i hpoint
    cases c <;>
      refine ⟨h.low, h.high, h.listed.move ?_ ?_,
        h.counted.stay hpoint rfl rfl rfl⟩ <;>
      simp [hpoint, Call.entry, Point.Queued, Point.Wakes]

theorem ok_semInit (hlow : 0 <= initial) (hhigh : initial < 2 ^ 31) :
    Ok initial (semInit thread initial) := by
  have hnone : forall (p : Point thread -> Prop) [DecidablePred p],
      ¬ p .outside -> count p (semInit thread initial).point = 0 :=
    fun p _ hp => (count_eq_zero_iff p).mpr fun _ => hp
  refine ⟨?_, hhigh, ?_, ?_⟩
  · show -2 ^ 31 <= initial
    omega
  · constructor <;> simp [semInit, Point.Wakes]
  · constructor
    · rw [hnone Point.Waits id, hnone Point.Posts id]
      rfl
    · rw [hnone Point.Waits id, hnone Point.Posts id, hnone _ (by simp)]
      show _ = max (-initial) 0 + _ + _
      omega

theorem ok_reachable (hlow : 0 <= initial) (hhigh : initial < 2 ^ 31)
    (h : Reachable (fun s => s = semInit thread initial)
      (Guarded StepOk next) s) : Ok initial s := by
  refine h.guarded ?_ Ok.next
  rintro _ rfl
  exact ok_semInit hlow hhigh

/-- No thread is inside a call, but for those that are blocked in
`sem_wait`. -/
def Quiet (s : State thread) : Prop :=
  forall t, s.point t = .outside ∨ s.point t = .blocked

/-- In every run whose steps lose neither a unit nor a waiter, whenever no
thread is inside a call, the value is that of the units left, or counts the
threads that are blocked. -/
theorem semaphore_conserved (hlow : 0 <= initial) (hhigh : initial < 2 ^ 31)
    (h : Reachable (fun s => s = semInit thread initial)
      (Guarded StepOk next) s) (hquiet : Quiet s) :
    initial + s.posted - s.taken = max s.value 0 ∧
      (count (· = .blocked) s.point : Int) = max (-s.value) 0 ∧
      (0 < s.value -> forall t, s.point t ≠ .blocked) := by
  have hok := ok_reachable hlow hhigh h
  have hposts : count Point.Posts s.point = 0 := by
    apply (count_eq_zero_iff _).mpr
    intro t
    rcases hquiet t with ht | ht <;> rw [ht] <;> exact id
  have hwoken : count (· = .woken) s.point = 0 := by
    apply (count_eq_zero_iff _).mpr
    intro t
    rcases hquiet t with ht | ht <;> rw [ht] <;> nofun
  have hblocked : count (· = .blocked) s.point = count Point.Waits s.point := by
    apply count_congr
    intro t
    rcases hquiet t with ht | ht <;> rw [ht] <;> simp [Point.Waits]
  have hunits := hok.counted.units
  have hwaiters := hok.counted.waiters
  rw [hposts, hwoken] at hwaiters
  rw [hposts] at hunits
  refine ⟨by omega, by omega, ?_⟩
  intro hpos
  have hzero : count (· = .blocked) s.point = 0 := by omega
  exact (count_eq_zero_iff _).mp hzero

end Runs

instance {thread : Type} [DecidableEq thread] (s : State thread)
    (l : thread × Action) : Decidable (StepOk s l) := by
  unfold StepOk
  split
  · infer_instance
  · split <;> infer_instance

def blockedWait : List (Bool × Action) :=
  [(false, .call .wait), (false, .step), (false, .step), (false, .step)]

theorem semaphore_conserved_blocked :
    exists s : State Bool,
      Transition.run (Transition.guard StepOk next) (semInit Bool 0) blockedWait =
        some s ∧ s.value = -1 ∧
        (count (· = .blocked) s.point : Int) = max (-s.value) 0 := by
  have hinit : Reachable (fun s => s = semInit Bool 0)
      (Guarded StepOk next) (semInit Bool 0) :=
    Reachable.init rfl
  have hrun : exists s, Transition.run (Transition.guard StepOk next)
      (semInit Bool 0) blockedWait = some s ∧ s.value = -1 ∧ Quiet s := by
    refine ⟨_, rfl, rfl, ?_⟩
    intro t
    cases t
    · exact Or.inr rfl
    · exact Or.inl rfl
  obtain ⟨s, hs, hvalue, hquiet⟩ := hrun
  have hreached := hinit.run_guard blockedWait hs
  exact ⟨s, hs, hvalue,
    (semaphore_conserved (by decide) (by decide) hreached hquiet).2.1⟩

/-- A unit is posted between the change of the value by `sem_wait` and its entry
in the list. -/
def missedPost : List (Bool × Action) :=
  [(false, .call .wait), (false, .step), (true, .call .post), (true, .step),
    (true, .step), (false, .step), (false, .step)]

theorem semaphore_lost_post :
    exists s : State Bool,
      Reachable (fun s => s = semInit Bool 0)
        (fun s l s' => next s l = some s') s ∧
      Quiet s ∧ s.point false = .blocked ∧
      ¬ (0 + s.posted - s.taken = max s.value 0) := by
  have hrun : exists s, Transition.run next (semInit Bool 0) missedPost =
      some s ∧ s.point true = .outside ∧ s.point false = .blocked ∧
      s.value = 0 ∧ s.posted = 1 ∧ s.taken = 0 :=
    ⟨_, rfl, rfl, rfl, rfl, rfl, rfl⟩
  obtain ⟨s, hs, htrue, hfalse, hvalue, hposted, htaken⟩ := hrun
  have hinit : Reachable (fun s => s = semInit Bool 0)
      (fun s l s' => next s l = some s') (semInit Bool 0) :=
    Reachable.init rfl
  refine ⟨s, hinit.run missedPost hs, ?_, hfalse, ?_⟩
  · intro t
    cases t
    · exact Or.inr hfalse
    · exact Or.inl htrue
  · rw [hvalue, hposted, htaken]
    decide

end Semaphore
end Horizon
