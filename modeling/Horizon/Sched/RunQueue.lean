import Horizon.Sched.Model

/-!
# The run queue

What the list of the scheduler holds as long as no step loses a thread or lists
one twice, and the steps that do neither.
-/

namespace Horizon
namespace Sched

open Function List

/-!
## States of threads
-/

@[simp]
theorem setState_state (rq : RunQueue) (t u : ThreadPtr) (state : State) :
    ((rq.setState t state).threads u).state =
      if u = t then state else (rq.threads u).state := by
  unfold RunQueue.setState RunQueue.setThread
  by_cases hu : u = t
  · subst hu
    simp
  · simp [hu]

variable {rq : RunQueue} {t x next : ThreadPtr} {thread : Thread}
    {xs ys : List ThreadPtr}

theorem setThread_field {α : Type} (f : Thread -> α)
    (hf : f thread = f (rq.threads t)) (u : ThreadPtr) :
    f ((rq.setThread t thread).threads u) = f (rq.threads u) := by
  unfold RunQueue.setThread
  by_cases hu : u = t
  · subst hu
    simp [hf]
  · simp [hu]

@[simp]
theorem setState_policy (rq : RunQueue) (t u : ThreadPtr) (state : State) :
    ((rq.setState t state).threads u).policy = (rq.threads u).policy :=
  setThread_field Thread.policy (by rfl) u

theorem switchTo_state (rq : RunQueue) (next u : ThreadPtr) :
    ((switchTo rq next).threads u).state =
      if u = next then .running
      else if u = rq.curr ∧ (rq.threads rq.curr).state = .running then
        .ready
      else (rq.threads u).state := by
  unfold switchTo
  by_cases hrunning : (rq.threads rq.curr).state = .running
  · simp only [hrunning, if_true, setState_state, and_true]
  · simp only [hrunning, if_false, setState_state, and_false]

theorem switchTo_policy (rq : RunQueue) (next u : ThreadPtr) :
    ((switchTo rq next).threads u).policy = (rq.threads u).policy := by
  unfold switchTo
  by_cases hrunning : (rq.threads rq.curr).state = .running
  · simp only [hrunning, if_true, setState_policy]
  · simp only [hrunning, if_false, setState_policy]

theorem switchTo_frame (rq : RunQueue) (next : ThreadPtr) :
    (switchTo rq next).queue = rq.queue ∧
      (switchTo rq next).nrRunning = rq.nrRunning ∧
      (switchTo rq next).idle = rq.idle ∧
      (switchTo rq next).curr = next := by
  unfold switchTo
  by_cases hrunning : (rq.threads rq.curr).state = .running
  · simp only [hrunning, if_true]
    exact ⟨rfl, rfl, rfl, trivial⟩
  · simp only [hrunning, if_false]
    exact ⟨rfl, rfl, rfl, trivial⟩

/-!
## The list
-/

/-- The list of a run queue, with the running thread and the idle one outside. -/
structure QueueOk (rq : RunQueue) (xs : List ThreadPtr) : Prop where
  holds : rq.queue.Holds xs
  curr : rq.curr ∉ xs
  idle : rq.idle ∉ xs
  ready : forall t, t ∈ xs -> (rq.threads t).state = State.ready
  running : (rq.threads rq.curr).state = State.running
  idlePolicy : (rq.threads rq.idle).policy = Policy.idle
  idleReady : rq.curr ≠ rq.idle -> (rq.threads rq.idle).state = State.ready
  count : rq.nrRunning = xs.length + if rq.curr = rq.idle then 0 else 1

/-- No thread becomes ready outside of the list, the idle thread apart. -/
structure Moves (rq : RunQueue) (xs : List ThreadPtr) (rq' : RunQueue)
    (xs' : List ThreadPtr) : Prop where
  ok : QueueOk rq' xs'
  idle : rq'.idle = rq.idle
  kept : forall t, t ≠ rq.idle -> (rq'.threads t).state = State.ready ->
    t ∈ xs' ∨ (rq.threads t).state = State.ready ∧ t ∉ xs

theorem QueueOk.refl (h : QueueOk rq xs) : Moves rq xs rq xs := by
  refine ⟨h, rfl, ?_⟩
  intro t _ hready
  by_cases ht : t ∈ xs
  · exact Or.inl ht
  · exact Or.inr ⟨hready, ht⟩

theorem Moves.trans {rq' rq'' : RunQueue} {xs' xs'' : List ThreadPtr}
    (h : Moves rq xs rq' xs') (h' : Moves rq' xs' rq'' xs'') :
    Moves rq xs rq'' xs'' := by
  refine ⟨h'.ok, h'.idle.trans h.idle, ?_⟩
  intro t ht hready
  rcases h'.kept t (by rwa [h.idle]) hready with hmem | ⟨hready', hmem⟩
  · exact Or.inl hmem
  · rcases h.kept t ht hready' with hmem' | hold
    · exact absurd hmem' hmem
    · exact Or.inr hold

theorem queueOk_switchTo (rq : RunQueue) (hholds : rq.queue.Holds ys)
    (hnext : next ∉ ys) (hidle : rq.idle ∉ ys)
    (hready : forall t, t ∈ ys -> t ≠ rq.curr -> (rq.threads t).state = .ready)
    (hcurr : rq.curr ∈ ys -> (rq.threads rq.curr).state = .running)
    (hpolicy : (rq.threads rq.idle).policy = .idle)
    (hidleState : next ≠ rq.idle -> (rq.threads rq.idle).state =
      if rq.curr = rq.idle then .running else .ready)
    (hcount : rq.nrRunning = ys.length + if next = rq.idle then 0 else 1) :
    QueueOk (switchTo rq next) ys := by
  rcases switchTo_frame rq next with ⟨hqueue, hnr, hidle', hcurr'⟩
  refine ⟨by rwa [hqueue], by rwa [hcurr'], by rwa [hidle'], ?_, ?_, ?_, ?_, ?_⟩
  · intro t ht
    have htn : t ≠ next := fun heq => hnext (heq ▸ ht)
    rw [switchTo_state, if_neg htn]
    by_cases htc : t = rq.curr
    · rw [if_pos ⟨htc, hcurr (htc ▸ ht)⟩]
    · rw [if_neg (fun hand => htc hand.left), hready t ht htc]
  · rw [hcurr', switchTo_state, if_pos rfl]
  · rw [hidle', switchTo_policy, hpolicy]
  · rw [hcurr', hidle']
    intro hne
    have hstate := hidleState hne
    rw [switchTo_state, if_neg (Ne.symm hne)]
    split at hstate
    case isTrue hci => rw [if_pos ⟨hci.symm, by rw [hci, hstate]⟩]
    case isFalse hci => rw [if_neg (fun hand => hci hand.left.symm), hstate]
  · rw [hnr, hcurr', hidle', hcount]

theorem kept_switchTo (rq' : RunQueue) (hthreads : rq'.threads = rq.threads)
    (hsub : forall t, t ∈ xs -> t = next ∨ t ∈ ys)
    (hcurr : (rq.threads rq'.curr).state = .running ->
      rq'.curr = rq.idle ∨ rq'.curr ∈ ys) (ht : t ≠ rq.idle)
    (hready : ((switchTo rq' next).threads t).state = .ready) :
    t ∈ ys ∨ (rq.threads t).state = .ready ∧ t ∉ xs := by
  rw [switchTo_state, hthreads] at hready
  by_cases htn : t = next
  · rw [if_pos htn] at hready
    cases hready
  rw [if_neg htn] at hready
  by_cases htc : t = rq'.curr ∧ (rq.threads rq'.curr).state = .running
  · rcases hcurr htc.right with hidle | hmem
    · exact absurd (htc.left.trans hidle) ht
    · rw [htc.left]
      exact Or.inl hmem
  · rw [if_neg htc] at hready
    by_cases hty : t ∈ ys
    · exact Or.inl hty
    · refine Or.inr ⟨hready, ?_⟩
      intro htx
      rcases hsub t htx with heq | hmem
      · exact htn heq
      · exact hty hmem

/--
A switch to a listed thread or to the idle one, after which the thread that ran
is listed unless it is the idle thread.
-/
theorem QueueOk.switch (h : QueueOk rq xs) {queue : Deque ThreadPtr}
    (hholds : queue.Holds ys) (hnext : next ∉ ys)
    (hsub : forall t, t ∈ xs -> t = next ∨ t ∈ ys)
    (hsup : forall t, t ∈ ys -> t ∈ xs ∨ t = rq.curr ∧ rq.curr ≠ rq.idle)
    (hcurr : rq.curr = rq.idle ∨ rq.curr ∈ ys)
    (hcount : xs.length + (if rq.curr = rq.idle then 0 else 1) =
      ys.length + if next = rq.idle then 0 else 1) :
    Moves rq xs (Sched.switchTo { rq with queue := queue } next) ys := by
  refine ⟨?_, (switchTo_frame _ _).right.right.left, ?_⟩
  · apply queueOk_switchTo { rq with queue := queue } hholds hnext
    · intro hidle
      rcases hsup _ hidle with hmem | ⟨heq, hne⟩
      · exact h.idle hmem
      · exact hne heq.symm
    · intro t ht htc
      rcases hsup t ht with hmem | ⟨heq, _⟩
      · exact h.ready t hmem
      · exact absurd heq htc
    · exact fun _ => h.running
    · exact h.idlePolicy
    · intro _
      split
      case isTrue hci =>
        rw [← hci]
        exact h.running
      case isFalse hci => exact h.idleReady hci
    · exact h.count.trans hcount
  · intro t ht hready
    exact kept_switchTo { rq with queue := queue } rfl hsub (fun _ => hcurr) ht
      hready

/-!
## Picking a thread
-/

theorem pickNext_nil (h : rq.queue.Holds []) : pickNext rq = (rq.idle, rq) := by
  unfold pickNext schedDequeueThread rtSchedule
  simp only [h.popFront_nil]

theorem pickNext_cons (h : rq.queue.Holds (x :: xs)) :
    exists queue, pickNext rq = (x, { rq with queue := queue }) ∧
      queue.Holds xs := by
  rcases h.popFront with ⟨queue, hpop, hholds⟩
  refine ⟨queue, ?_, hholds⟩
  unfold pickNext schedDequeueThread rtSchedule
  simp only [hpop]

theorem requeueCurr_idle (h : rq.curr = rq.idle) : requeueCurr rq = rq := by
  unfold requeueCurr
  rw [if_neg (fun hand => hand.left h)]

theorem requeueCurr_stopped (h : (rq.threads rq.curr).state ≠ .running) :
    requeueCurr rq = rq := by
  unfold requeueCurr
  rw [if_neg (fun hand => h hand.right)]

theorem requeueCurr_fifo (hpolicy : (rq.threads rq.curr).policy = .fifo) :
    requeueCurr rq = rq := by
  unfold requeueCurr
  by_cases hrun : rq.curr ≠ rq.idle ∧ (rq.threads rq.curr).state = .running
  · rw [if_pos hrun, if_neg]
    rintro (hne | hne)
    · exact hne hpolicy
    · exact hne hrun.right
  · rw [if_neg hrun]

theorem requeueCurr_running (hidle : rq.curr ≠ rq.idle)
    (hrunning : (rq.threads rq.curr).state = .running)
    (hpolicy : (rq.threads rq.curr).policy ≠ .fifo) :
    requeueCurr rq = schedRequeueThread rq rq.curr := by
  unfold requeueCurr
  rw [if_pos ⟨hidle, hrunning⟩, if_pos (Or.inl hpolicy)]

/-!
## Scheduling
-/

/--
The thread that runs makes room for another one: it is not a FIFO thread, and
has no real-time priority that the other one does not beat.
-/
def MaySwitch (rq : RunQueue) (next : ThreadPtr) : Prop :=
  rq.curr = rq.idle ∨
    (rq.threads rq.curr).policy ≠ Policy.fifo ∧
      (rtIsRealtime rq next = true -> rtIsRealtime rq rq.curr = true ->
        (rq.threads next).priority < (rq.threads rq.curr).priority)

theorem rtIsRealtime_of_idle (h : (rq.threads t).policy = .idle) :
    rtIsRealtime rq t = false := by
  unfold rtIsRealtime
  rw [h]
  simp

theorem canPreempt_of_idle (h : (rq.threads rq.curr).policy = .idle) :
    canPreempt rq next rq.curr = true := by
  unfold canPreempt
  rw [rtIsRealtime_of_idle h, h]
  simp

theorem canPreempt_of_beaten {curr : ThreadPtr}
    (hpolicy : (rq.threads curr).policy ≠ .fifo)
    (hbeaten : rtIsRealtime rq next = true -> rtIsRealtime rq curr = true ->
      (rq.threads next).priority < (rq.threads curr).priority) :
    canPreempt rq next curr = true := by
  unfold canPreempt
  by_cases hnext : rtIsRealtime rq next = true
  · by_cases hcurr : rtIsRealtime rq curr = true
    · have henabled : rq.rtEnabled = true := by
        exact (Bool.and_eq_true_iff.mp hnext).left
      unfold rtCanPreempt
      simp [hnext, hcurr, henabled, hbeaten hnext hcurr]
    · simp [hnext, hcurr]
  · simp [hnext, hpolicy]

theorem canPreempt_of_maySwitch (hidle : (rq.threads rq.idle).policy = .idle)
    (h : MaySwitch rq next) :
    canPreempt rq next rq.curr = true := by
  rcases h with hcurr | ⟨hpolicy, hbeaten⟩
  · exact canPreempt_of_idle (by rwa [hcurr])
  · exact canPreempt_of_beaten hpolicy hbeaten

theorem canPreempt_idle_fifo (hnext : (rq.threads next).policy = .idle)
    (hpolicy : (rq.threads rq.curr).policy = .fifo)
    (hrunning : (rq.threads rq.curr).state = .running) :
    canPreempt rq next rq.curr = false := by
  unfold canPreempt
  rw [rtIsRealtime_of_idle hnext, if_neg (by simp), if_pos ⟨hpolicy, hrunning⟩]

theorem QueueOk.schedule_nil (h : QueueOk rq []) :
    exists xs', Moves rq [] (schedSchedule rq) xs' := by
  unfold schedSchedule
  rw [pickNext_nil h.holds]
  by_cases hidle : rq.curr = rq.idle
  · refine ⟨[], ?_⟩
    simp only [requeueCurr_idle hidle, hidle, ne_eq, not_true_eq_false, if_false]
    exact h.refl
  by_cases hpolicy : (rq.threads rq.curr).policy = .fifo
  · refine ⟨[], ?_⟩
    simp only [requeueCurr_fifo hpolicy,
      canPreempt_idle_fifo h.idlePolicy hpolicy h.running, ne_eq, hidle,
      not_false_eq_true, if_true, Bool.false_eq_true, if_false]
    exact h.refl
  · refine ⟨[rq.curr], ?_⟩
    have hcan : canPreempt (schedRequeueThread rq rq.curr) rq.idle rq.curr =
        true := by
      apply canPreempt_of_beaten hpolicy
      intro hrt
      have hfalse : rtIsRealtime rq rq.idle = false :=
        rtIsRealtime_of_idle h.idlePolicy
      exact absurd (hfalse.symm.trans hrt) Bool.false_ne_true
    have hcurr : (schedRequeueThread rq rq.curr).curr = rq.curr := rfl
    simp only [requeueCurr_running hidle h.running hpolicy, hcurr, ne_eq, hidle,
      not_false_eq_true, if_true, hcan]
    apply h.switch (h.holds.pushBack h.curr)
    · simpa using Ne.symm hidle
    · intro t ht
      cases ht
    · intro t ht
      exact Or.inr ⟨mem_singleton.mp ht, hidle⟩
    · exact Or.inr (mem_singleton_self _)
    · rw [if_neg hidle, if_pos rfl]
      rfl

theorem QueueOk.schedule_cons (h : QueueOk rq (x :: xs)) (hmay : MaySwitch rq x) :
    exists xs', Moves rq (x :: xs) (schedSchedule rq) xs' := by
  rcases pickNext_cons h.holds with ⟨queue, hpick, hholds⟩
  rcases nodup_cons.mp h.holds.nodup with ⟨hx, _⟩
  have hcx : rq.curr ≠ x := fun heq => h.curr (heq ▸ mem_cons_self)
  have hix : x ≠ rq.idle := fun heq => h.idle (heq ▸ mem_cons_self)
  have hcan : canPreempt rq x rq.curr = true :=
    canPreempt_of_maySwitch h.idlePolicy hmay
  unfold schedSchedule
  rw [hpick]
  by_cases hidle : rq.curr = rq.idle
  · refine ⟨xs, ?_⟩
    have hrequeue : requeueCurr { rq with queue := queue } =
        { rq with queue := queue } := requeueCurr_idle hidle
    have hcan' : canPreempt { rq with queue := queue } x rq.curr = true := hcan
    simp only [hrequeue, ne_eq, hcx, not_false_eq_true, if_true, hcan']
    apply h.switch hholds hx
    · intro t ht
      exact mem_cons.mp ht
    · intro t ht
      exact Or.inl (mem_cons_of_mem x ht)
    · exact Or.inl hidle
    · rw [if_pos hidle, if_neg hix, length_cons]
  · refine ⟨xs ++ [rq.curr], ?_⟩
    have hpolicy : (rq.threads rq.curr).policy ≠ .fifo :=
      (hmay.resolve_left hidle).left
    have hrequeue : requeueCurr { rq with queue := queue } =
        { rq with queue := queue.pushBack rq.curr } :=
      requeueCurr_running hidle h.running hpolicy
    have hcan' : canPreempt { rq with queue := queue.pushBack rq.curr } x
        rq.curr = true := hcan
    have hcurr : rq.curr ∉ xs := fun hmem => h.curr (mem_cons_of_mem x hmem)
    simp only [hrequeue, ne_eq, hcx, not_false_eq_true, if_true, hcan']
    apply h.switch (hholds.pushBack hcurr)
    · intro hmem
      rcases mem_append.mp hmem with hmem | hmem
      · exact hx hmem
      · exact hcx (mem_singleton.mp hmem).symm
    · intro t ht
      rcases mem_cons.mp ht with heq | hmem
      · exact Or.inl heq
      · exact Or.inr (mem_append_left _ hmem)
    · intro t ht
      rcases mem_append.mp ht with hmem | hmem
      · exact Or.inl (mem_cons_of_mem x hmem)
      · exact Or.inr ⟨mem_singleton.mp hmem, hidle⟩
    · exact Or.inr (mem_append_right _ (mem_singleton_self _))
    · rw [if_neg hidle, if_neg hix, length_append]
      rfl

theorem QueueOk.schedule (h : QueueOk rq xs)
    (hmay : forall x, rq.queue.head = some x -> MaySwitch rq x) :
    exists xs', Moves rq xs (schedSchedule rq) xs' := by
  cases xs with
  | nil => exact h.schedule_nil
  | cons x xs => exact h.schedule_cons (hmay x h.holds.head)

/-!
## Adding a thread
-/

theorem QueueOk.setThread (h : QueueOk rq xs) (ht : t ∉ xs)
    (hcurr : t ≠ rq.curr) (hidle : t ≠ rq.idle) (thread : Thread) :
    QueueOk (rq.setThread t thread) xs := by
  have hother : forall u, u ≠ t -> (rq.setThread t thread).threads u =
      rq.threads u := fun u hu => update_of_ne hu _ _
  refine ⟨h.holds, h.curr, h.idle, ?_, ?_, ?_, ?_, h.count⟩
  · intro u hu
    rw [hother u (fun heq => ht (heq ▸ hu))]
    exact h.ready u hu
  · exact (congrArg Thread.state (hother _ (Ne.symm hcurr))).trans h.running
  · exact (congrArg Thread.policy (hother _ (Ne.symm hidle))).trans h.idlePolicy
  · intro hne
    exact (congrArg Thread.state (hother _ (Ne.symm hidle))).trans
      (h.idleReady hne)

theorem QueueOk.lt_size (h : QueueOk rq xs) (ht : t ∉ xs) (hcurr : t ≠ rq.curr)
    (hidle : t ≠ rq.idle) : rq.nrRunning + 1 < 2 ^ 32 := by
  have hxs : (t :: xs).Nodup := nodup_cons.mpr ⟨ht, h.holds.nodup⟩
  have hixs : (rq.idle :: t :: xs).Nodup := by
    apply nodup_cons.mpr ⟨_, hxs⟩
    rintro (_ | ⟨_, hmem⟩)
    · exact hidle rfl
    · exact h.idle hmem
  rw [h.count]
  by_cases hci : rq.curr = rq.idle
  · have hle := hixs.length_le_card
    rw [Fintype.card_fin, length_cons, length_cons] at hle
    rw [if_pos hci]
    omega
  · have hcxs : (rq.curr :: rq.idle :: t :: xs).Nodup := by
      apply nodup_cons.mpr ⟨_, hixs⟩
      intro hmem
      rcases mem_cons.mp hmem with heq | hmem
      · exact hci heq
      · rcases mem_cons.mp hmem with heq | hmem
        · exact hcurr heq.symm
        · exact h.curr hmem
    have hle := hcxs.length_le_card
    rw [Fintype.card_fin, length_cons, length_cons, length_cons] at hle
    rw [if_neg hci]
    omega

theorem schedAddThread_ready (h : (rq.threads t).state = .ready) :
    schedAddThread rq t = { rq with
      queue := rq.queue.pushBack t
      nrRunning := (rq.nrRunning + 1) % 2 ^ 32 } := by
  unfold schedAddThread
  rw [if_neg (fun hne => hne h)]

theorem QueueOk.add (h : QueueOk rq xs) (ht : t ∉ xs) (hcurr : t ≠ rq.curr)
    (hidle : t ≠ rq.idle) :
    Moves rq xs (schedAddThread (rq.setState t .ready) t) (xs ++ [t]) := by
  have hsize := h.lt_size ht hcurr hidle
  have hmid : QueueOk (rq.setState t .ready) xs :=
    h.setThread ht hcurr hidle _
  have hready : ((rq.setState t .ready).threads t).state = .ready := by
    rw [setState_state, if_pos rfl]
  rw [schedAddThread_ready hready]
  refine ⟨⟨h.holds.pushBack ht, ?_, ?_, ?_, hmid.running, hmid.idlePolicy,
    hmid.idleReady, ?_⟩, rfl, ?_⟩
  · intro hmem
    rcases mem_append.mp hmem with hmem | hmem
    · exact h.curr hmem
    · exact hcurr (mem_singleton.mp hmem).symm
  · intro hmem
    rcases mem_append.mp hmem with hmem | hmem
    · exact h.idle hmem
    · exact hidle (mem_singleton.mp hmem).symm
  · intro u hu
    rcases mem_append.mp hu with hmem | hmem
    · exact hmid.ready u hmem
    · rw [mem_singleton.mp hmem]
      exact hready
  · show (rq.nrRunning + 1) % 2 ^ 32 = _
    rw [Nat.mod_eq_of_lt hsize, h.count, length_append]
    show xs.length + (if rq.curr = rq.idle then 0 else 1) + 1 =
      xs.length + 1 + if rq.curr = rq.idle then 0 else 1
    omega
  · intro u _ hstate
    by_cases hu : u = t
    · rw [hu]
      exact Or.inl (mem_append_right _ (mem_singleton_self t))
    · have hsame := setState_state rq t u .ready
      rw [if_neg hu] at hsame
      by_cases hmem : u ∈ xs
      · exact Or.inl (mem_append_left _ hmem)
      · exact Or.inr ⟨hsame.symm.trans hstate, hmem⟩

/-!
## Leaving the queue
-/

theorem nrRunning_remove :
    (schedRemoveThread rq t).nrRunning = rq.nrRunning - 1 := by
  show (if rq.nrRunning > 0 then rq.nrRunning - 1 else rq.nrRunning) = _
  split <;> omega

theorem QueueOk.remove (h : QueueOk rq xs) (ht : t ∈ xs) :
    QueueOk (schedRemoveThread rq t) (xs.erase t) := by
  refine ⟨h.holds.unlink ht, ?_, ?_, ?_, h.running, h.idlePolicy, h.idleReady,
    ?_⟩
  · exact fun hmem => h.curr (mem_of_mem_erase hmem)
  · exact fun hmem => h.idle (mem_of_mem_erase hmem)
  · exact fun u hu => h.ready u (mem_of_mem_erase hu)
  · have hpos := length_pos_of_mem ht
    rw [nrRunning_remove, h.count, length_erase_of_mem ht]
    show xs.length + (if rq.curr = rq.idle then 0 else 1) - 1 =
      xs.length - 1 + if rq.curr = rq.idle then 0 else 1
    omega

theorem QueueOk.remove_idle (h : QueueOk rq []) (hidle : rq.curr = rq.idle)
    (t : ThreadPtr) : QueueOk (schedRemoveThread rq t) [] := by
  refine { h with holds := h.holds.unlink_nil t, count := ?_ }
  have hcount := h.count
  rw [if_pos hidle] at hcount
  rw [nrRunning_remove, hcount]
  show 0 = 0 + if rq.curr = rq.idle then 0 else 1
  rw [if_pos hidle]

/-- The running thread stops while no other one is listed. -/
theorem QueueOk.leave_curr (h : QueueOk rq []) (hidle : rq.curr ≠ rq.idle)
    (hrunning : thread.state ≠ .running)
    (hready : thread.state ≠ .ready) :
    Moves rq [] (leaveQueue (rq.setThread rq.curr thread) rq.curr) [] := by
  obtain ⟨rq', hrq'⟩ :
      exists rq', rq' = schedRemoveThread (rq.setThread rq.curr thread) rq.curr :=
    ⟨_, rfl⟩
  have hcurr : rq'.curr = rq.curr := by rw [hrq']; rfl
  have hidle' : rq'.idle = rq.idle := by rw [hrq']; rfl
  have hholds : rq'.queue.Holds [] := by
    rw [hrq']
    exact h.holds.unlink_nil rq.curr
  have hself : rq'.threads rq.curr = thread := by
    rw [hrq']
    exact update_self ..
  have hother : forall u, u ≠ rq.curr -> rq'.threads u = rq.threads u := by
    intro u hu
    rw [hrq']
    exact update_of_ne hu _ _
  have hpolicy : (rq'.threads rq'.idle).policy = .idle := by
    rw [hidle', hother _ (Ne.symm hidle)]
    exact h.idlePolicy
  have hstopped : (rq'.threads rq'.curr).state ≠ .running := by
    rw [hcurr, hself]
    exact hrunning
  have hcan : canPreempt rq' rq'.idle rq'.curr = true := by
    unfold canPreempt
    rw [rtIsRealtime_of_idle hpolicy, if_neg (by simp),
      if_neg (fun hand => hstopped hand.right)]
  have hleave : leaveQueue (rq.setThread rq.curr thread) rq.curr =
      switchTo rq' rq'.idle := by
    unfold leaveQueue
    rw [← hrq']
    simp only [hcurr, if_true]
    unfold schedSchedule
    rw [pickNext_nil hholds]
    simp only [requeueCurr_stopped hstopped, hcan, if_true]
    rw [if_pos (by rw [hcurr, hidle']; exact hidle)]
  rw [hleave]
  refine ⟨?_, (switchTo_frame _ _).right.right.left.trans hidle', ?_⟩
  · apply queueOk_switchTo rq' hholds not_mem_nil not_mem_nil
    · exact fun t ht => nomatch ht
    · exact fun ht => nomatch ht
    · exact hpolicy
    · exact fun hne => absurd rfl hne
    · have hcount := h.count
      rw [if_neg hidle] at hcount
      rw [if_pos rfl, hrq', nrRunning_remove]
      show rq.nrRunning - 1 = 0
      rw [hcount]
      rfl
  · intro t ht hstate
    rw [switchTo_state, if_neg (by rwa [hidle']),
      if_neg (fun hand => hstopped hand.right)] at hstate
    have htc : t ≠ rq.curr := by
      rintro rfl
      rw [hself] at hstate
      exact hready hstate
    rw [hother t htc] at hstate
    exact Or.inr ⟨hstate, not_mem_nil⟩

/--
A thread may leave the queue if it is listed, or if the queue is empty and it is
the running one or no thread but the idle one runs.
-/
def MayLeave (rq : RunQueue) (t : ThreadPtr) : Prop :=
  t ≠ rq.idle ∧ (rq.queue.FromHead t ∨
    rq.queue.head = none ∧ (t = rq.curr ∨ rq.curr = rq.idle))

theorem ready_of_setThread {u : ThreadPtr} (hthread : thread.state ≠ .ready)
    (h : ((rq.setThread t thread).threads u).state = .ready) :
    u ≠ t ∧ (rq.threads u).state = .ready := by
  by_cases hu : u = t
  · rw [hu] at h
    have hself : (rq.setThread t thread).threads t = thread :=
      update_self ..
    rw [hself] at h
    exact absurd h hthread
  · have hother : (rq.setThread t thread).threads u = rq.threads u :=
      update_of_ne hu _ _
    rw [hother] at h
    exact ⟨hu, h⟩

section

variable (h : QueueOk rq xs) (hmay : MayLeave rq t)
include h hmay

theorem QueueOk.leave (hrunning : thread.state ≠ .running)
    (hready : thread.state ≠ .ready) :
    exists xs', Moves rq xs (leaveQueue (rq.setThread t thread) t) xs' ∧
      forall u, u ∈ xs -> u ≠ t -> u ∈ xs' := by
  rcases hmay with ⟨hidle, hlisted | ⟨hempty, hcase⟩⟩
  · have ht : t ∈ xs := h.holds.fromHead_iff.mp hlisted
    have hcurr : t ≠ rq.curr := fun heq => h.curr (heq ▸ ht)
    have hmem : forall u, u ∈ xs -> u ≠ t -> u ∈ xs.erase t := fun u hu hne =>
      h.holds.nodup.mem_erase_iff.mpr ⟨hne, hu⟩
    refine ⟨xs.erase t, ?_, hmem⟩
    have hleave : leaveQueue (rq.setThread t thread) t =
        (schedRemoveThread rq t).setThread t thread := if_neg hcurr
    have hgone : t ∉ xs.erase t := fun hin =>
      (h.holds.nodup.mem_erase_iff.mp hin).left rfl
    rw [hleave]
    refine ⟨(h.remove ht).setThread hgone hcurr hidle thread, rfl, ?_⟩
    intro u _ hstate
    rcases ready_of_setThread hready hstate with ⟨hu, hold⟩
    by_cases huxs : u ∈ xs
    · exact Or.inl (hmem u huxs hu)
    · exact Or.inr ⟨hold, huxs⟩
  · have hnil : xs = [] := by
      rw [h.holds.head] at hempty
      exact List.head?_eq_none_iff.mp hempty
    subst hnil
    refine ⟨[], ?_, fun u hu => nomatch hu⟩
    by_cases hcurr : t = rq.curr
    · rw [hcurr] at hidle ⊢
      exact h.leave_curr hidle hrunning hready
    · have hrun : rq.curr = rq.idle := hcase.resolve_left hcurr
      have hleave : leaveQueue (rq.setThread t thread) t =
          (schedRemoveThread rq t).setThread t thread := if_neg hcurr
      rw [hleave]
      refine ⟨(h.remove_idle hrun t).setThread not_mem_nil hcurr hidle
        thread, rfl, ?_⟩
      intro u _ hstate
      exact Or.inr ⟨(ready_of_setThread hready hstate).right, not_mem_nil⟩

theorem QueueOk.block :
    exists xs', Moves rq xs (schedBlockThread rq t) xs' ∧
      forall u, u ∈ xs -> u ≠ t -> u ∈ xs' := by
  exact h.leave hmay (by simp) (by simp)

theorem QueueOk.sleep (ms now : Nat) :
    exists xs', Moves rq xs (schedSleepThread rq t ms now) xs' ∧
      forall u, u ∈ xs -> u ≠ t -> u ∈ xs' := by
  exact h.leave hmay (by simp) (by simp)

end

end Sched
end Horizon
