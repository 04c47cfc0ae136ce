import Horizon.Lib.Ledger
import Horizon.Lib.Transition
import Horizon.Types

/-!
# Timers

`time/timer.c`.  A callback is run between two steps of `timer_process`, so that
calls made from inside it are steps like all others; a callback may tick again.
-/

namespace Horizon
namespace Timers

open List Errno Transition

structure Timer where
  id : BitVec 32
  callback : Option Nat
  data : Nat
  expires : BitVec 64
  period : BitVec 64
  flags : BitVec 32

/-- What timers are for: the identifiers in use, when the started timers are due
and how often, and for each tick that is being processed what it owes. -/
structure Spec where
  live : List (BitVec 32)
  armed : List (BitVec 32 × BitVec 64 × BitVec 64)
  owed : List (List (BitVec 32))

inductive Func where
  | start (expires period : BitVec 64)
  | stop
  | delete

def Spec.disarm (sp : Spec) (id : BitVec 32) : Spec :=
  { sp with
    armed := sp.armed.filter (·.1 ≠ id)
    owed := sp.owed.map (·.erase id) }

/-- A call that names a timer must succeed. -/
def Spec.called (sp : Spec) (id : BitVec 32) (f : Func) (result : Int) :
    Option Spec :=
  if id ∉ sp.live then some sp
  else if result ≠ 0 then none
  else
    let sp := sp.disarm id
    match f with
    | .start expires period =>
        some { sp with armed := (id, expires, period) :: sp.armed }
    | .stop => some sp
    | .delete => some { sp with live := sp.live.erase id }

def Spec.ticked (sp : Spec) (jiffies : BitVec 64) : Spec :=
  let due := (sp.armed.filter (·.2.1 <= jiffies)).map (·.1)
  { sp with owed := due.filter (· ∉ sp.owed.flatten) :: sp.owed }

/-- Only a started timer that is due fires. -/
def Spec.fired (sp : Spec) (id : BitVec 32) (jiffies : BitVec 64) :
    Option Spec :=
  match sp.armed.find? (·.1 = id) with
  | none => none
  | some (_, expires, period) =>
      if jiffies < expires then none
      else if period = 0 then some (sp.disarm id)
      else
        let sp := sp.disarm id
        some { sp with armed := (id, jiffies + period, period) :: sp.armed }

def Spec.finished (sp : Spec) : Option Spec :=
  match sp.owed with
  | [] :: owed => some { sp with owed := owed }
  | _ => none

/--
The timers and, for each `timer_process` that runs, the timer whose callback runs
and what is left of its list.  `spec` is `none` once a call, a timer that fired
or did not, or an access to a freed timer was not as it should be.
-/
structure State where
  timerList : List Nat
  timers : Ledger Timer
  timerIdCounter : BitVec 32
  jiffies : BitVec 64
  expired : List (Option Nat × List Nat)
  spec : Option Spec

def initial : State := ⟨[], .empty, 0, 0, [], some ⟨[], [], []⟩⟩

def timerFrequency : BitVec 64 := 1000

def timerCreate (s : State) (callback : Option Nat) (data : Nat)
    (mem : Option Nat) : BitVec 32 × State :=
  match callback, mem with
  | some callback, some p =>
      let id := s.timerIdCounter + 1
      (id, { s with
        timerIdCounter := id
        timers := s.timers.alloc p ⟨id, some callback, data, 0, 0, 0⟩ })
  | _, _ => (0, s)

/-- The walk through the list to the timer with an identifier; there is no
result if it meets a timer that was freed. -/
def find (s : State) (id : BitVec 32) :
    List Nat -> Option (Option (Nat × Timer))
  | [] => some none
  | p :: ps =>
      match s.timers.held p with
      | none => none
      | some timer =>
          if timer.id = id then some (some (p, timer)) else find s id ps

def withTimer (s : State) (id : BitVec 32) (found : Nat -> Timer -> State) :
    Option (Int × State) :=
  if id = 0 then some (-einval, s)
  else match find s id s.timerList with
    | none => none
    | some none => some (-enoent, s)
    | some (some (p, timer)) => some (0, found p timer)

def timerDelete (s : State) (id : BitVec 32) : Option (Int × State) :=
  withTimer s id fun p _ => { s with
    timerList := s.timerList.erase p
    timers := s.timers.free p }

def setTimer (s : State) (p : Nat) (timer : Timer) : State :=
  { s with timers := { s.timers with
      held := Function.update s.timers.held p (some timer) } }

def timerStart (s : State) (id : BitVec 32) (expires period : BitVec 64)
    (flags : BitVec 32) : Option (Int × State) :=
  withTimer s id fun p timer => { setTimer s p { timer with
      expires := s.jiffies + expires * timerFrequency / 1000
      period := period * timerFrequency / 1000
      flags := flags } with
    timerList := s.timerList.erase p ++ [p] }

def timerStop (s : State) (id : BitVec 32) : Option (Int × State) :=
  withTimer s id fun p _ => { s with timerList := s.timerList.erase p }

/-- The loop of `timer_process` under the lock: what stays and what expired. -/
def split (s : State) : List Nat -> Option (List Nat × List Nat)
  | [] => some ([], [])
  | p :: ps => do
      let timer <- s.timers.held p
      let (rest, expired) <- split s ps
      if timer.expires <= s.jiffies then (rest, p :: expired)
      else (p :: rest, expired)

inductive Step where
  | create (callback : Option Nat) (data : Nat) (mem : Option Nat)
  | start (id : BitVec 32) (expires period : BitVec 64) (flags : BitVec 32)
  | stop (id : BitVec 32)
  | delete (id : BitVec 32)
  | tick
  | call
  | ret
  | finish

def answered (s : State) (id : BitVec 32) (f : Func) :
    Option (Int × State) -> State
  | none => { s with spec := none }
  | some (result, s') =>
      { s' with spec := s.spec.bind (·.called id f result) }

def timerTick (s : State) : State :=
  let s := { s with jiffies := s.jiffies + 1 }
  match split s s.timerList with
  | none => { s with spec := none }
  | some (rest, expired) => { s with
      timerList := rest
      expired := (none, expired) :: s.expired
      spec := s.spec.map (·.ticked s.jiffies) }

/-- A timer is unlinked and its callback called. -/
def processCall (s : State) (p : Nat) : State :=
  match s.timers.held p with
  | none => { s with spec := none }
  | some timer =>
      if timer.callback = none then s
      else { s with spec := s.spec.bind (·.fired timer.id s.jiffies) }

/-- A timer whose callback has returned is linked again or freed. -/
def processRet (s : State) (p : Nat) : State :=
  match s.timers.held p with
  | none => { s with spec := none }
  | some timer =>
      if 0 < timer.period then
        { setTimer s p { timer with expires := s.jiffies + timer.period } with
          timerList := s.timerList ++ [p] }
      else { s with timers := s.timers.free p }

/-- `kmalloc` returns no block that is in use. -/
def next (s : State) : Step -> Option State
  | .create callback data mem =>
      if mem.any fun p => (s.timers.held p).isSome then none
      else
        let (id, s) := timerCreate s callback data mem
        if id = 0 then some s
        else some { s with
          spec := s.spec.map fun sp => { sp with live := id :: sp.live } }
  | .start id expires period flags =>
      let func := .start (s.jiffies + expires * timerFrequency / 1000)
        (period * timerFrequency / 1000)
      some (answered s id func (timerStart s id expires period flags))
  | .stop id => some (answered s id .stop (timerStop s id))
  | .delete id => some (answered s id .delete (timerDelete s id))
  | .tick => some (timerTick s)
  | .call =>
      match s.expired with
      | (none, p :: ps) :: frames =>
          some (processCall { s with expired := (some p, ps) :: frames } p)
      | _ => none
  | .ret =>
      match s.expired with
      | (some p, ps) :: frames =>
          some (processRet { s with expired := (none, ps) :: frames } p)
      | _ => none
  | .finish =>
      match s.expired with
      | (none, []) :: frames =>
          some { s with expired := frames, spec := s.spec.bind (·.finished) }
      | _ => none

/-- Nothing has gone wrong; a timer was freed once when it was deleted. -/
structure Kept (s : State) : Prop where
  spec : s.spec ≠ none
  once : s.timers.Balanced
  freed : forall sp p timer, s.spec = some sp -> s.timers.held p = some timer ->
    timer.id ≠ 0 -> timer.id ∈ sp.live

def Step.names : Step -> Option (BitVec 32)
  | .start id _ _ _ | .stop id | .delete id => some id
  | _ => none

def Unnamed (s : State) (step : Step) : Prop :=
  forall id sp, step.names = some id -> s.spec = some sp -> id ∉ sp.live

/-!
## No timer is on the list
-/

structure Unlisted (live : List (BitVec 32)) (s : State) : Prop where
  list : s.timerList = []
  expired : forall frame, frame ∈ s.expired -> frame = (none, [])
  spec : s.spec = some ⟨live, [], s.expired.map fun _ => []⟩
  once : s.timers.Balanced
  freed : forall p timer, s.timers.held p = some timer -> timer.id ≠ 0 ->
    timer.id ∈ live

variable {s s' : State} {id : BitVec 32} {f : Func} {live : List (BitVec 32)}
  {found : Nat -> Timer -> State} {step : Step}

theorem Unlisted.kept (h : Unlisted live s) : Kept s where
  spec := by simp [h.spec]
  once := h.once
  freed := by
    intro sp p timer hspec
    cases h.spec.symm.trans hspec
    exact h.freed p timer

theorem withTimer_nil (h : s.timerList = []) (id : BitVec 32)
    (found : Nat -> Timer -> State) :
    exists e, e ≠ 0 ∧ withTimer s id found = some (e, s) := by
  unfold withTimer
  rw [h]
  by_cases hid : id = 0
  · exact ⟨-einval, by decide, if_pos hid⟩
  · exact ⟨-enoent, by decide, if_neg hid⟩

section

variable (h : Unlisted live s)
include h

theorem Unlisted.answered (id : BitVec 32) (f : Func)
    (found : Nat -> Timer -> State) :
    answered s id f (withTimer s id found) =
      if id ∈ live then { s with spec := none } else s := by
  rcases withTimer_nil h.list id found with ⟨e, he, heq⟩
  by_cases hid : id ∈ live
  · simp [Timers.answered, heq, h.spec, Spec.called, hid, he]
  · simp only [Timers.answered, heq, h.spec, Option.bind_some, Spec.called,
      if_pos hid, if_neg hid]
    rw [<- h.spec]

theorem Unlisted.create {callback mem : Option Nat} {data : Nat}
    (hnext : next s (.create callback data mem) = some s') :
    exists live, Unlisted live s' := by
  simp only [Timers.next] at hnext
  split at hnext
  · cases hnext
  · rename_i hfree
    unfold timerCreate at hnext
    split at hnext
    · rename_i callback p
      have hheld : s.timers.held p = none := by simpa using hfree
      split at hnext
      case isTrue hid =>
        cases hnext
        refine ⟨live, h.list, h.expired, h.spec, h.once.alloc hheld _, ?_⟩
        intro q timer hq hne
        simp only [Ledger.alloc, Function.update_apply] at hq
        split_ifs at hq
        · cases hq
          exact absurd hid hne
        · exact h.freed q timer hq hne
      case isFalse hid =>
        cases hnext
        refine ⟨(s.timerIdCounter + 1) :: live, h.list, h.expired,
          by simp [h.spec], h.once.alloc hheld _, ?_⟩
        intro q timer hq hne
        simp only [Ledger.alloc, Function.update_apply] at hq
        split_ifs at hq
        · cases hq
          exact mem_cons_self
        · exact mem_cons_of_mem _ (h.freed q timer hq hne)
    · cases hnext
      exact ⟨live, h⟩

theorem Unlisted.tick : Unlisted live (timerTick s) := by
  simp only [timerTick, h.list, split, h.spec, Option.map_some, Spec.ticked,
    filter_nil, map_nil]
  refine ⟨rfl, ?_, rfl, h.once, h.freed⟩
  intro frame hframe
  rcases mem_cons.mp hframe with rfl | hframe
  · rfl
  · exact h.expired frame hframe

theorem Unlisted.processed (hstep : step = .call ∨ step = .ret ∨ step = .finish)
    (hnext : next s step = some s') : Unlisted live s' := by
  cases hexpired : s.expired with
  | nil =>
    rcases hstep with rfl | rfl | rfl <;>
      simp [Timers.next, hexpired] at hnext
  | cons frame frames =>
    cases h.expired frame (hexpired ▸ mem_cons_self)
    rcases hstep with rfl | rfl | rfl <;>
      simp only [Timers.next, hexpired, reduceCtorEq, Option.some.injEq]
        at hnext
    subst hnext
    refine ⟨h.list, ?_, ?_, h.once, h.freed⟩
    · intro frame hframe
      exact h.expired frame (hexpired ▸ mem_cons_of_mem _ hframe)
    · simp [h.spec, hexpired, Spec.finished]

theorem Unlisted.named (hid : step.names = some id)
    (hnext : next s step = some s') :
    s' = if id ∈ live then { s with spec := none } else s := by
  cases step <;> cases hid <;> cases hnext <;> exact h.answered ..

theorem Unlisted.next (hok : Unnamed s step) (hnext : next s step = some s') :
    exists live, Unlisted live s' := by
  cases hnames : step.names with
  | some id =>
    have hnot := hok id _ hnames h.spec
    rw [h.named hnames hnext, if_neg hnot]
    exact ⟨live, h⟩
  | none =>
    cases step with
    | create callback data mem => exact h.create hnext
    | tick =>
      cases hnext
      exact ⟨live, h.tick⟩
    | call | ret | finish => exact ⟨live, h.processed (by simp) hnext⟩
    | start | stop | delete => cases hnames

end

/-- As long as no call names a timer that was created every timer is as it should
be, and the first call that does so fails. -/
theorem timer_life_cycle {s : State}
    (h : Reachable (fun s => s = initial)
      (Guarded Unnamed next) s) :
    Kept s ∧ forall step s', next s step = some s' ->
      (Kept s' <-> Unnamed s step) := by
  have hs : exists live, Unlisted live s := by
    apply h.invariant
    · rintro _ rfl
      exact ⟨[], rfl, by simp [initial], rfl, Ledger.balanced_empty,
        by simp [initial, Ledger.empty]⟩
    · rintro s step s' ⟨live, hs⟩ ⟨hok, hnext⟩
      exact hs.next hok hnext
  rcases hs with ⟨live, hs⟩
  refine ⟨hs.kept, fun step s' hnext => ⟨?_, ?_⟩⟩
  · intro hkept id sp hid hspec hmem
    cases hs.spec.symm.trans hspec
    rw [hs.named hid hnext, if_pos hmem] at hkept
    exact hkept.spec rfl
  · intro hok
    rcases hs.next hok hnext with ⟨_, hs'⟩
    exact hs'.kept

/-- A timer is created and the clock ticks. -/
theorem timer_life_cycle_created :
    exists s, Transition.run next initial
        [.create (some 1) 0 (some 100), .tick, .finish] = some s ∧ Kept s := by
  have hinit : Reachable (fun s => s = initial)
    (Guarded Unnamed next) initial := .init rfl
  have hcreate := hinit.step (l := .create (some 1) 0 (some 100))
    ⟨nofun, rfl⟩
  have htick := hcreate.step (l := .tick) ⟨nofun, rfl⟩
  have hfinish := htick.step (l := .finish) ⟨nofun, rfl⟩
  exact ⟨_, rfl, (timer_life_cycle hfinish).left⟩

/-- A timer that was created cannot be started, stopped or deleted. -/
theorem created_timer_not_found :
    exists s, Transition.run next initial
        [.create (some 1) 0 (some 100)] = some s ∧
      timerStart s 1 5 0 0 = some (-enoent, s) ∧
      timerStop s 1 = some (-enoent, s) ∧
      timerDelete s 1 = some (-enoent, s) ∧
      exists s', next s (.start 1 5 0 0) = some s' ∧ ¬ Kept s' :=
  ⟨_, rfl, rfl, rfl, rfl, _, rfl, fun h => h.spec rfl⟩

/-!
## One pass over the timers
-/

/-- What is seen of a pass from outside. -/
inductive Event where
  | called (callback : Nat) (id : BitVec 32) (data : Nat)
  | freed (p : Nat)
  deriving DecidableEq

def Timer.events (p : Nat) (timer : Timer) : List Event :=
  (timer.callback.toList.map fun callback =>
      Event.called callback timer.id timer.data) ++
    if 0 < timer.period then [] else [Event.freed p]

/-- The second loop of `timer_process`, with callbacks that call no function of
this file. -/
def processExpired : List Nat -> State -> List Event ->
    Option (List Event × State)
  | [], s, log => some (log, s)
  | p :: ps, s, log =>
      match s.timers.held p with
      | none => none
      | some timer => processExpired ps (processRet s p) (log ++ timer.events p)

def timerProcess (s : State) : Option (List Event × State) :=
  match split s s.timerList with
  | none => none
  | some (rest, expired) => processExpired expired { s with timerList := rest } []

def Timer.settled (timer : Timer) (jiffies : BitVec 64) : Option Timer :=
  if 0 < timer.period then
    some { timer with expires := jiffies + timer.period }
  else none

section

variable {ps : List Nat} {timer : Nat -> Timer}

theorem split_eq (h : forall p, p ∈ ps -> s.timers.held p = some (timer p)) :
    split s ps = some (ps.filter fun p => ¬ (timer p).expires <= s.jiffies,
      ps.filter fun p => (timer p).expires <= s.jiffies) := by
  induction ps with
  | nil => rfl
  | cons p ps ih =>
    have hrest := ih fun q hq => h q (mem_cons_of_mem p hq)
    simp only [split, h p mem_cons_self, hrest, Option.bind_eq_bind,
      Option.bind_some]
    by_cases hdue : (timer p).expires <= s.jiffies
    · rw [if_pos hdue, filter_cons_of_neg (by simpa using hdue),
        filter_cons_of_pos (by simpa using hdue)]
    · rw [if_neg hdue, filter_cons_of_pos (by simpa using hdue),
        filter_cons_of_neg (by simpa using hdue)]

theorem processRet_eq {p : Nat} (h : s.timers.held p = some (timer p)) :
    (processRet s p).timerList =
        s.timerList ++ [p].filter (fun p => 0 < (timer p).period) ∧
      (processRet s p).jiffies = s.jiffies ∧
      (processRet s p).timers.held =
        Function.update s.timers.held p ((timer p).settled s.jiffies) := by
  simp only [processRet, h, Timer.settled]
  by_cases hperiod : 0 < (timer p).period
  · rw [if_pos hperiod, if_pos hperiod,
      filter_cons_of_pos (by simpa using hperiod)]
    exact ⟨rfl, rfl, rfl⟩
  · rw [if_neg hperiod, if_neg hperiod,
      filter_cons_of_neg (by simpa using hperiod)]
    exact ⟨(append_nil _).symm, rfl, rfl⟩

theorem processExpired_eq (hps : ps.Nodup) (log : List Event)
    (h : forall p, p ∈ ps -> s.timers.held p = some (timer p)) :
    exists s', processExpired ps s log =
        some (log ++ ps.flatMap (fun p => (timer p).events p), s') ∧
      s'.timerList = s.timerList ++ ps.filter (fun p => 0 < (timer p).period) ∧
      (forall p, p ∈ ps ->
        s'.timers.held p = (timer p).settled s.jiffies) ∧
      forall p, p ∉ ps -> s'.timers.held p = s.timers.held p := by
  induction ps generalizing s log with
  | nil => exact ⟨s, by simp [processExpired], by simp, by simp, by simp⟩
  | cons p ps ih =>
    rcases nodup_cons.mp hps with ⟨hp, hps⟩
    rcases processRet_eq (h p mem_cons_self) with ⟨hlist, hjiffies, hheld⟩
    have hother : forall q, q ≠ p ->
        (processRet s p).timers.held q = s.timers.held q := by
      intro q hq
      rw [hheld, Function.update_of_ne hq]
    obtain ⟨s', hrun, hlist', hleft, hrest⟩ := ih (s := processRet s p) hps
      (log ++ (timer p).events p) (by
        intro q hq
        rw [hother q (ne_of_mem_of_not_mem hq hp)]
        exact h q (mem_cons_of_mem p hq))
    refine ⟨s', ?_, ?_, ?_, ?_⟩
    · simp [processExpired, h p mem_cons_self, hrun]
    · rw [hlist', hlist, append_assoc, <- filter_append, singleton_append]
    · intro q hq
      rcases mem_cons.mp hq with rfl | hq
      · rw [hrest q hp, hheld, Function.update_self]
      · rw [hleft q hq, hjiffies]
    · intro q hq
      rw [mem_cons, not_or] at hq
      rw [hrest q hq.right, hother q hq.left]

end

/-- A pass calls and settles the timers that are due, in their order, and leaves
the others. -/
theorem timer_process_expires (s : State) (timer : Nat -> Timer)
    (hlist : s.timerList.Nodup)
    (h : forall p, p ∈ s.timerList -> s.timers.held p = some (timer p)) :
    exists due rest s', due = s.timerList.filter
        (fun p => (timer p).expires <= s.jiffies) ∧
      rest = s.timerList.filter (fun p => ¬ (timer p).expires <= s.jiffies) ∧
      timerProcess s =
        some (due.flatMap fun p => (timer p).events p, s') ∧
      s'.timerList = rest ++ due.filter (fun p => 0 < (timer p).period) ∧
      (forall p, p ∈ due -> s'.timers.held p = (timer p).settled s.jiffies) ∧
      forall p, p ∉ due -> s'.timers.held p = s.timers.held p := by
  obtain ⟨s', hrun, hs'⟩ := processExpired_eq
    (s := { s with
      timerList := s.timerList.filter
        fun p => ¬ (timer p).expires <= s.jiffies })
    (hlist.filter fun p => (timer p).expires <= s.jiffies) []
    fun p hp => h p (mem_of_mem_filter hp)
  refine ⟨_, _, s', rfl, rfl, ?_, hs'⟩
  unfold timerProcess
  rw [split_eq h]
  exact hrun

/-- Timer 10 is due later than the others, and timer 30 is periodic. -/
def sampleTimer (p : Nat) : Timer :=
  ⟨1, some 5, p, if p = 10 then 9 else 6, if p = 30 then 4 else 0, 0⟩

def threeTimers : State := { initial with
  timerList := [10, 20, 30]
  jiffies := 7
  timers := ⟨fun p => some (sampleTimer p), [], []⟩ }

theorem timer_process_expires_three : exists s', timerProcess threeTimers =
      some ([.called 5 1 20, .freed 20, .called 5 1 30], s') ∧
    s'.timerList = [10, 30] := by
  obtain ⟨due, rest, s', rfl, rfl, hrun, hlist, _⟩ :=
    timer_process_expires threeTimers sampleTimer (by decide) (fun _ _ => rfl)
  exact ⟨s', hrun, hlist⟩

end Timers
end Horizon
