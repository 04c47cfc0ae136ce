import Horizon.Sched.RunQueue

/-!
# Runs of the scheduler

The steps that keep the run queue well formed and lose no ready thread, and runs
of them.  Other steps break the queue: the running thread is listed by a tick at
the end of its time slice, the queue is emptied when the running thread blocks,
and a thread that is taken off but may not preempt is not put back.
-/

namespace Horizon
namespace Sched

open List Transition

/-!
## Becoming ready
-/

/-- The cases in which `sched_check_preempt` schedules. -/
def Preempts (rq : RunQueue) (t : ThreadPtr) : Prop :=
  rq.curr = rq.idle ∨ rtCanPreempt rq t rq.curr = true ∨
    (rtIsRealtime rq t = true ∨ ¬ ((rq.threads rq.curr).policy = Policy.fifo ∧
      (rq.threads rq.curr).state = State.running)) ∧
    (rq.threads t).dynamicPriority < (rq.threads rq.curr).dynamicPriority

variable {rq rq' : RunQueue} {t : ThreadPtr} {xs : List ThreadPtr}
    {state : State} {s : System}

theorem rtCanPreempt_of_normal {curr : ThreadPtr}
    (ht : rtIsRealtime rq t = true) (hcurr : rtIsRealtime rq curr = false) :
    rtCanPreempt rq t curr = true := by
  have henabled : rq.rtEnabled = true := by
    exact (Bool.and_eq_true_iff.mp ht).left
  unfold rtCanPreempt
  simp [henabled, ht, hcurr]

theorem schedCheckPreempt_cases (rq : RunQueue) (t : ThreadPtr) :
    Preempts rq t ∧ schedCheckPreempt rq t = schedSchedule rq ∨
      schedCheckPreempt rq t = rq := by
  unfold schedCheckPreempt
  by_cases hidle : rq.curr = rq.idle
  · rw [if_pos hidle]
    exact Or.inl ⟨Or.inl hidle, rfl⟩
  rw [if_neg hidle]
  cases ht : rtIsRealtime rq t with
  | true =>
    rw [if_pos rfl]
    cases hcurr : rtIsRealtime rq rq.curr with
    | false =>
      exact Or.inl ⟨Or.inr (Or.inl (rtCanPreempt_of_normal ht hcurr)), rfl⟩
    | true =>
      rw [if_neg (by simp)]
      by_cases hcan : rtCanPreempt rq t rq.curr = true
      · rw [if_pos hcan]
        exact Or.inl ⟨Or.inr (Or.inl hcan), rfl⟩
      rw [if_neg hcan]
      split
      case isTrue hdyn => exact Or.inl ⟨Or.inr (Or.inr ⟨Or.inl ht, hdyn⟩), rfl⟩
      case isFalse hdyn => exact Or.inr rfl
  | false =>
    rw [if_neg (by simp)]
    by_cases hfifo : (rq.threads rq.curr).policy = .fifo ∧
        (rq.threads rq.curr).state = .running
    · rw [if_pos hfifo]
      exact Or.inr rfl
    rw [if_neg hfifo]
    split
    case isTrue hdyn => exact Or.inl ⟨Or.inr (Or.inr ⟨Or.inr hfifo, hdyn⟩), rfl⟩
    case isFalse hdyn => exact Or.inr rfl

/-- Run queues whose threads have the same priorities and policies. -/
structure SamePriorities (rq rq' : RunQueue) : Prop where
  policy : forall t, (rq'.threads t).policy = (rq.threads t).policy
  priority : forall t, (rq'.threads t).priority = (rq.threads t).priority
  dynamicPriority : forall t,
    (rq'.threads t).dynamicPriority = (rq.threads t).dynamicPriority
  curr : rq'.curr = rq.curr
  idle : rq'.idle = rq.idle
  rtEnabled : rq'.rtEnabled = rq.rtEnabled

section

variable (h : SamePriorities rq rq')
include h

theorem SamePriorities.rtIsRealtime_eq (t : ThreadPtr) :
    rtIsRealtime rq' t = rtIsRealtime rq t := by
  unfold rtIsRealtime
  rw [h.policy, h.rtEnabled]

theorem SamePriorities.rtCanPreempt_eq (t u : ThreadPtr) :
    rtCanPreempt rq' t u = rtCanPreempt rq t u := by
  unfold rtCanPreempt
  rw [h.rtIsRealtime_eq, h.rtIsRealtime_eq, h.priority, h.priority, h.rtEnabled]

theorem SamePriorities.maySwitch (hmay : MaySwitch rq t) : MaySwitch rq' t := by
  unfold MaySwitch
  rw [h.curr, h.idle, h.policy, h.rtIsRealtime_eq, h.rtIsRealtime_eq,
    h.priority, h.priority]
  exact hmay

theorem SamePriorities.preempts
    (hstate : (rq'.threads rq.curr).state = (rq.threads rq.curr).state)
    (hpreempts : Preempts rq' t) : Preempts rq t := by
  unfold Preempts at hpreempts
  rw [h.curr, h.idle, h.rtCanPreempt_eq, h.rtIsRealtime_eq, h.policy, hstate,
    h.dynamicPriority, h.dynamicPriority] at hpreempts
  exact hpreempts

end

theorem samePriorities_add (rq : RunQueue) (t : ThreadPtr) :
    SamePriorities rq (schedAddThread (rq.setState t .ready) t) := by
  have hready : ((rq.setState t .ready).threads t).state = .ready := by
    rw [setState_state, if_pos rfl]
  rw [schedAddThread_ready hready]
  exact ⟨fun u => setThread_field Thread.policy (by rfl) u,
    fun u => setThread_field Thread.priority (by rfl) u,
    fun u => setThread_field Thread.dynamicPriority (by rfl) u, rfl, rfl, rfl⟩

/--
A thread that waits may become ready if the thread that it makes the scheduler
switch to may run: the first one, or itself.
-/
def MayReady (state : State) (rq : RunQueue) (t : ThreadPtr) : Prop :=
  (rq.threads t).state = state -> Preempts rq t ->
    MaySwitch rq (rq.queue.head.getD t)

theorem head_pushBack {queue : Deque ThreadPtr} (h : queue.Holds xs)
    (ht : t ∉ xs) : (queue.pushBack t).head = some (queue.head.getD t) := by
  rw [(h.pushBack ht).head, h.head]
  cases xs with
  | nil => rfl
  | cons x xs => rfl

theorem QueueOk.outside (h : QueueOk rq xs)
    (hready : (rq.threads t).state ≠ .ready)
    (hrunning : (rq.threads t).state ≠ .running) :
    t ∉ xs ∧ t ≠ rq.curr ∧ t ≠ rq.idle := by
  have hcurr : t ≠ rq.curr := fun heq => hrunning (heq ▸ h.running)
  refine ⟨fun hmem => hready (h.ready t hmem), hcurr, ?_⟩
  intro heq
  apply hready
  rw [heq]
  exact h.idleReady (fun hci => hcurr (heq.trans hci.symm))

theorem QueueOk.makeReady (h : QueueOk rq xs) (hready : state ≠ .ready)
    (hrunning : state ≠ .running) (hmay : MayReady state rq t) :
    exists xs', Moves rq xs (makeReady state rq t) xs' ∧
      ((rq.threads t).state = state -> t ≠ rq.idle) := by
  unfold Sched.makeReady
  by_cases hstate : (rq.threads t).state = state
  · rw [if_neg (fun hne => hne hstate)]
    rcases h.outside (hstate ▸ hready) (hstate ▸ hrunning) with
      ⟨ht, hcurr, hidle⟩
    have hadd := h.add ht hcurr hidle
    have hsame := samePriorities_add rq t
    obtain ⟨rq', hrq'⟩ :
        exists rq', rq' = schedAddThread (rq.setState t .ready) t :=
      ⟨_, rfl⟩
    rw [← hrq'] at hadd hsame ⊢
    rcases schedCheckPreempt_cases rq' t with ⟨hpreempts, heq⟩ | heq
    · rw [heq]
      have hcurrState : (rq'.threads rq.curr).state =
          (rq.threads rq.curr).state := by
        have hrun := hadd.ok.running
        rw [hsame.curr] at hrun
        rw [hrun, h.running]
      have hfirst := hmay hstate (hsame.preempts hcurrState hpreempts)
      have hqueue : rq'.queue = rq.queue.pushBack t := by
        rw [hrq', schedAddThread_ready (by rw [setState_state, if_pos rfl])]
        rfl
      rcases hadd.ok.schedule (fun x hx => by
        rw [hqueue, head_pushBack h.holds ht] at hx
        cases hx
        exact hsame.maySwitch hfirst) with ⟨xs', hmoves⟩
      exact ⟨xs', hadd.trans hmoves, fun _ => hidle⟩
    · rw [heq]
      exact ⟨xs ++ [t], hadd, fun _ => hidle⟩
  · rw [if_pos hstate]
    exact ⟨xs, h.refl, fun heq => absurd heq hstate⟩

/-!
## The tick
-/

theorem QueueOk.wakeSleepers (h : QueueOk rq xs) (rounds i : Nat) :
    wakeSleepers rounds rq xs[i]? =
      if xs.length <= i + rounds then some rq else none := by
  induction rounds generalizing i with
  | zero =>
    by_cases hi : xs.length <= i
    · rw [List.getElem?_eq_none hi]
      exact (if_pos hi).symm
    · rw [List.getElem?_eq_getElem (by omega)]
      exact (if_neg hi).symm
  | succ rounds ih =>
    by_cases hi : xs.length <= i
    · rw [List.getElem?_eq_none hi, if_pos (by omega)]
      rfl
    · have hget : xs[i]? = some xs[i] := List.getElem?_eq_getElem (by omega)
      have hstate : (rq.threads xs[i]).state = .ready :=
        h.ready _ (getElem_mem _)
      rw [hget]
      unfold Sched.wakeSleepers
      simp only [hstate, reduceCtorEq, false_and, if_false]
      rw [(h.holds.linked i _ hget).left, ih (i + 1)]
      congr 1
      simp only [eq_iff_iff]
      omega

theorem QueueOk.setTimeSlice (h : QueueOk rq xs) (slice : Nat) :
    Moves rq xs (Sched.setTimeSlice rq rq.curr slice) xs := by
  have hstate : forall u,
      ((Sched.setTimeSlice rq rq.curr slice).threads u).state =
        (rq.threads u).state :=
    fun u => setThread_field Thread.state (by rfl) u
  refine ⟨⟨h.holds, h.curr, h.idle, ?_, ?_, ?_, ?_, h.count⟩, rfl, ?_⟩
  · intro t ht
    rw [hstate]
    exact h.ready t ht
  · exact (hstate _).trans h.running
  · exact (setThread_field Thread.policy (by rfl) _).trans h.idlePolicy
  · exact fun hne => (hstate _).trans (h.idleReady hne)
  · intro t ht hready
    rw [hstate] at hready
    exact h.refl.kept t ht hready

theorem useSlice_eq (rq : RunQueue) (slice : Nat)
    (h : (rq.threads rq.curr).timeSlice > 1) :
    useSlice rq slice =
      setTimeSlice rq rq.curr ((rq.threads rq.curr).timeSlice - 1) := by
  have hself : ((setTimeSlice rq rq.curr
      ((rq.threads rq.curr).timeSlice - 1)).threads rq.curr).timeSlice =
      (rq.threads rq.curr).timeSlice - 1 := by
    unfold setTimeSlice RunQueue.setThread
    simp
  unfold useSlice
  simp only [Nat.lt_of_succ_lt h, if_true, hself]
  rw [if_neg (by omega)]

/-- The running thread does not come to the end of its time slice. -/
def MayTick (rq : RunQueue) : Prop :=
  rq.curr = rq.idle ∨ (rq.threads rq.curr).policy = Policy.fifo ∨
    (rq.threads rq.curr).timeSlice > 1

theorem QueueOk.spendTime (h : QueueOk rq xs)
    (hmay : (rq.threads rq.curr).policy = .fifo ∨
      (rq.threads rq.curr).timeSlice > 1) : Moves rq xs (spendTime rq) xs := by
  have hslice : (rq.threads rq.curr).policy ≠ .fifo -> forall slice,
      Moves rq xs (useSlice rq slice) xs := by
    intro hfifo slice
    rw [useSlice_eq rq slice (hmay.resolve_left hfifo)]
    exact h.setTimeSlice _
  unfold Sched.spendTime
  cases hpolicy : (rq.threads rq.curr).policy with
  | fifo => exact h.refl
  | _ => exact hslice (by rw [hpolicy]; decide) _

theorem QueueOk.setTimestamp (h : QueueOk rq xs) (now : Nat) :
    Moves rq xs { rq with currTimestamp := now } xs :=
  ⟨{ h with }, rfl, h.refl.kept⟩

theorem QueueOk.tick (h : QueueOk rq xs) (hmay : MayTick rq) (now : Nat) :
    exists rq', Moves rq xs rq' xs ∧ forall rounds,
      schedTick rounds rq now =
        if rq.curr = rq.idle ∨ xs.length <= rounds then some rq' else none := by
  have hstart := h.setTimestamp now
  by_cases hidle : rq.curr = rq.idle
  · refine ⟨_, hstart, ?_⟩
    intro rounds
    rw [if_pos (Or.inl hidle)]
    exact if_pos hidle
  · have hspend := hstart.ok.spendTime (hmay.resolve_left hidle)
    refine ⟨_, hstart.trans hspend, ?_⟩
    intro rounds
    unfold schedTick
    simp only [hidle, if_false, false_or]
    rw [hspend.ok.holds.head, List.head?_eq_getElem?, hspend.ok.wakeSleepers,
      Nat.zero_add]

/-!
## Runs
-/

def LabelOk (s : System) : Label -> Prop
  | Label.add t => t ≠ s.rq.idle ∧ ¬ s.rq.queue.FromHead t
  | Label.tick _ _ => MayTick s.rq
  | Label.yield => forall t, s.rq.queue.head = some t -> MaySwitch s.rq t
  | Label.block t => MayLeave s.rq t
  | Label.unblock t => MayReady State.blocked s.rq t
  | Label.sleep t _ _ => MayLeave s.rq t
  | Label.wakeup t => MayReady State.sleeping s.rq t

structure SystemOk (s : System) (xs : List ThreadPtr) : Prop where
  queue : QueueOk s.rq xs
  idle : ¬ s.added s.rq.idle
  listed : forall t, s.added t -> (s.rq.threads t).state = State.ready -> t ∈ xs

section

variable (h : SystemOk s xs)
include h

theorem SystemOk.moves {xs' : List ThreadPtr} (hmoves : Moves s.rq xs rq xs') :
    SystemOk { s with rq := rq } xs' := by
  refine ⟨hmoves.ok, ?_, ?_⟩
  · rw [hmoves.idle]
    exact h.idle
  · intro t ht hready
    have hidle : t ≠ s.rq.idle := fun heq => h.idle (heq ▸ ht)
    rcases hmoves.kept t hidle hready with hmem | ⟨hold, hmem⟩
    · exact hmem
    · exact absurd (h.listed t ht hold) hmem

theorem SystemOk.put {called : Prop} (hidle : called -> t ≠ s.rq.idle)
    (hlisted : called -> (s.rq.threads t).state = .ready -> t ∈ xs) :
    SystemOk (s.put t called s.rq) xs := by
  refine ⟨h.queue, ?_, ?_⟩
  · rintro (hadded | ⟨heq, hcalled⟩)
    · exact h.idle hadded
    · exact hidle hcalled heq.symm
  · rintro u (hadded | ⟨rfl, hcalled⟩) hready
    · exact h.listed u hadded hready
    · exact hlisted hcalled hready

theorem SystemOk.add (hidle : t ≠ s.rq.idle)
    (hlisted : ¬ s.rq.queue.FromHead t) :
    exists xs', SystemOk (s.put t True (schedAddThread s.rq t)) xs' := by
  by_cases hready : (s.rq.threads t).state = .ready
  · have hcurr : t ≠ s.rq.curr := by
      intro heq
      rw [heq, h.queue.running] at hready
      cases hready
    have ht : t ∉ xs := fun hmem => hlisted (h.queue.holds.fromHead_iff.mpr hmem)
    have hsame : s.rq.setState t .ready = s.rq := by
      unfold RunQueue.setState RunQueue.setThread
      rw [← hready, Function.update_eq_self]
    have hadd := h.queue.add ht hcurr hidle
    rw [hsame] at hadd
    refine ⟨xs ++ [t], (h.moves hadd).put (fun _ => ?_) (fun _ _ => ?_)⟩
    · rw [hadd.idle]
      exact hidle
    · exact mem_append_right _ (mem_singleton_self t)
  · have hsame : schedAddThread s.rq t = s.rq := if_pos hready
    rw [hsame]
    exact ⟨xs, h.put (fun _ => hidle) (fun _ heq => absurd heq hready)⟩

theorem SystemOk.makeReady (hready : state ≠ .ready)
    (hrunning : state ≠ .running) (hmay : MayReady state s.rq t) :
    exists xs', SystemOk (s.put t ((s.rq.threads t).state = state)
      (makeReady state s.rq t)) xs' := by
  rcases h.queue.makeReady hready hrunning hmay with ⟨xs', hmoves, hidle⟩
  refine ⟨xs', (h.moves hmoves).put ?_ ?_⟩
  · intro hstate
    show t ≠ (Sched.makeReady state s.rq t).idle
    rw [hmoves.idle]
    exact hidle hstate
  · intro hstate hnew
    rcases hmoves.kept t (hidle hstate) hnew with hmem | ⟨hold, _⟩
    · exact hmem
    · exact absurd (hstate.symm.trans hold) hready

theorem SystemOk.step {s' : System} {label : Label} (hok : LabelOk s label)
    (hstep : step s label = some s') :
    exists xs', SystemOk s' xs' := by
  cases label with
  | add t =>
    cases hstep
    exact h.add hok.left hok.right
  | tick rounds now =>
    rcases h.queue.tick hok now with ⟨rq, hmoves, htick⟩
    rcases Option.map_eq_some_iff.mp hstep with ⟨rq', heq, rfl⟩
    rw [htick rounds] at heq
    split at heq
    · cases heq
      exact ⟨xs, h.moves hmoves⟩
    · cases heq
  | yield =>
    cases hstep
    rcases h.queue.schedule hok with ⟨xs', hmoves⟩
    exact ⟨xs', h.moves hmoves⟩
  | block t =>
    cases hstep
    rcases h.queue.block hok with ⟨xs', hmoves, _⟩
    exact ⟨xs', h.moves hmoves⟩
  | unblock t =>
    cases hstep
    exact h.makeReady (by decide) (by decide) hok
  | sleep t ms now =>
    cases hstep
    rcases h.queue.sleep hok ms now with ⟨xs', hmoves, _⟩
    exact ⟨xs', h.moves hmoves⟩
  | wakeup t =>
    cases hstep
    exact h.makeReady (by decide) (by decide) hok

end

def Step (s : System) (label : Label) (s' : System) : Prop :=
  step s label = some s'

end Sched
end Horizon
