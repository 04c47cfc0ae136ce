import Horizon.Lib.LinkedList
import Horizon.Lib.Transition
import Horizon.Types
import Mathlib.Data.List.Nodup

/-!
# The threads of a task

`thread_init`, `thread_create`, `thread_start`, `thread_join`, `thread_detach`,
`thread_cancel`, `thread_exit` and `thread_cleanup` of `thread.c`, for one task
whose list of threads was initialised.  A thread is named by its allocation, so
that no name is used twice, and an access to a thread that was freed is
recorded.  `thread_self` is taken at its word: `thread_exit` acts on the thread
that calls it.  The stack, the context, the thread-specific data and the run
queue are left out.
-/

namespace Horizon
namespace Registry

open List LinkedList Transition

/-!
## The calls
-/

/-- `threads` of the task, and `process_threads` of a thread. -/
inductive Node where
  | threads
  | thread (t : Nat)
deriving DecidableEq

inductive Status where
  | running
  | ready
  | blocked
  | sleeping
  | stopped
  | zombie
  | dead
deriving DecidableEq

/-- `state` of a thread and the bits of `flags` that are read or written. -/
structure Thread where
  status : Status
  joinable : Bool
  detached : Bool
  exiting : Bool
  dead : Bool

/--
The list and the counter of the task; the threads; and, for each call of
`thread_join` that sleeps, the thread it waits for.  The other fields record the
threads that are neither freed nor cleaned up, the last one first; those that
were allocated; those that were freed; and whether a freed one was accessed.
-/
structure State where
  links : Links Node
  thread : Nat -> Thread
  threadCount : Nat
  waiting : List Nat
  live : List Nat
  made : List Nat
  freed : List Nat
  misused : Bool

def touch (s : State) (t : Nat) : State :=
  { s with misused := s.misused || s.freed.contains t }

def touchNode (s : State) : Option Node -> State
  | some (.thread t) => touch s t
  | _ => s

def kfree (s : State) (t : Nat) : State :=
  { s with freed := t :: s.freed, live := s.live.erase t }

def State.setThread (s : State) (t : Nat) (thread : Thread) : State :=
  { s with thread := Function.update s.thread t thread }

def register (s : State) (t : Nat) (thread : Thread) (count : Nat) :
    Option State := do
  let s := touchNode s (s.links .threads).next
  let L <- listAdd (listInit s.links (.thread t)) (.thread t) .threads
  return {
    s.setThread t thread with
    links := L
    threadCount := count
    live := t :: s.live
    made := t :: s.made }

/-- `mem` is what `kmalloc` returns. -/
def threadInit (s : State) : Option Nat -> Option State
  | none => some s
  | some t => register s t ⟨.running, false, false, false, false⟩ 1

/--
`flags` is the thread with the flags of the call, and the last two arguments
say whether `kmalloc` returned a stack and a context.
-/
def threadCreate (s : State) (startRoutine : Bool) (flags : Thread)
    (mem : Option Nat) (stack context : Bool) : Option State :=
  if !startRoutine then some s
  else
    match mem with
    | none => some s
    | some t =>
        if !stack || !context then
          some (kfree { s with made := t :: s.made } t)
        else
          register s t { flags with status := .ready }
            ((s.threadCount + 1) % 2 ^ 32)

def threadStart (s : State) (t : Nat) : Int × State :=
  let s := touch s t
  if (s.thread t).status ≠ .ready then (-Errno.einval, s)
  else (0, s.setThread t { s.thread t with status := .running })

def reap (s : State) (t : Nat) : State := kfree (touch s t) t

/-- `thread_join` up to its first sleep; `none` if it does not return yet. -/
def threadJoin (s : State) (t : Nat) : Option Int × State :=
  let s := touch s t
  if !(s.thread t).joinable then (some (-Errno.einval), s)
  else if (s.thread t).status = .dead then (some 0, reap s t)
  else (none, { s with waiting := t :: s.waiting })

def joinWake (s : State) (t : Nat) : Option Int × State :=
  let s := touch s t
  if (s.thread t).status = .dead then
    (some 0, reap { s with waiting := s.waiting.erase t } t)
  else (none, s)

def threadDetach (s : State) (t : Nat) : Int × State :=
  let s := touch s t
  if !(s.thread t).joinable then (-Errno.einval, s)
  else
    (0, s.setThread t { s.thread t with joinable := false, detached := true })

def threadCancel (s : State) (t : Nat) : Int × State :=
  let s := touch s t
  let thread := s.thread t
  if thread.status = .dead then (0, s)
  else
    (0, s.setThread t { thread with
      exiting := true
      status := if thread.status = .blocked then .ready else thread.status })

/-- The last access is that of `sched_schedule` to the current thread. -/
def threadExit (s : State) (t : Nat) : State :=
  let s := touch s t
  let s := s.setThread t { s.thread t with status := .dead, dead := true }
  let s := if (s.thread t).detached then kfree s t else s
  touch s t

/-- Absent when the thread was unlinked before and a null pointer is followed. -/
def threadCleanup (s : State) (t : Nat) : Option State := do
  let s := touch s t
  let s := touchNode s (s.links (.thread t)).next
  let s := touchNode s (s.links (.thread t)).prev
  let L <- listDel s.links (.thread t)
  return { s with
    links := L
    threadCount := (s.threadCount + 2 ^ 32 - 1) % 2 ^ 32
    live := s.live.erase t }

/-!
## Runs
-/

inductive Step where
  | create (startRoutine : Bool) (flags : Thread) (mem : Option Nat)
      (stack context : Bool)
  | start (t : Nat)
  | join (t : Nat)
  | wake (t : Nat)
  | detach (t : Nat)
  | cancel (t : Nat)
  | exit (t : Nat)
  | cleanup (t : Nat)
  | setStatus (t : Nat) (status : Status)

def next (s : State) : Step -> Option State
  | .create startRoutine flags mem stack context =>
      threadCreate s startRoutine flags mem stack context
  | .start t => some (threadStart s t).2
  | .join t => some (threadJoin s t).2
  | .wake t => some (joinWake s t).2
  | .detach t => some (threadDetach s t).2
  | .cancel t => some (threadCancel s t).2
  | .exit t => some (threadExit s t)
  | .cleanup t => threadCleanup s t
  | .setStatus t status =>
      some (s.setThread t { s.thread t with status := status })

def emptyTask (L : Links Node) (thread : Nat -> Thread) : State where
  links := listInit L .threads
  thread := thread
  threadCount := 0
  waiting := []
  live := []
  made := []
  freed := []
  misused := false

/-- A task without threads, or with the main thread of `thread_init`. -/
def Start (s : State) : Prop :=
  exists L thread mem, threadInit (emptyTask L thread) mem = some s

def State.Valid (s : State) (t : Nat) : Prop := t ∈ s.made ∧ t ∉ s.freed

/--
Calls are given threads that exist, a thread does not run after it exited, and
the scheduler neither ends nor revives a thread.
-/
def Allowed (s : State) : Step -> Prop
  | .create _ _ mem _ _ => forall t, t ∈ mem -> t ∉ s.made
  | .start t | .join t | .detach t | .cancel t | .cleanup t => s.Valid t
  | .wake t => t ∈ s.waiting
  | .exit t => s.Valid t ∧ (s.thread t).status ≠ .dead
  | .setStatus t status =>
      s.Valid t ∧ (s.thread t).status ≠ .dead ∧ status ≠ .dead

/-- `list_del` left null pointers. -/
def State.Unlinked (s : State) (t : Nat) : Prop :=
  (s.links (.thread t)).next = none

instance (s : State) (t : Nat) : Decidable (s.Unlinked t) :=
  inferInstanceAs (Decidable (_ = _))

/--
A thread that is joined was cleaned up before, and no other call waits for it;
and no detached thread exits.
-/
def Orderly (s : State) : Step -> Prop
  | .join t => (s.thread t).joinable = true -> (s.thread t).status = .dead ->
      s.Unlinked t ∧ t ∉ s.waiting
  | .wake t => (s.thread t).status = .dead ->
      s.Unlinked t ∧ t ∉ s.waiting.erase t
  | .exit t => (s.thread t).detached = false
  | _ => True

/--
The list holds each live thread once and nothing else, the counter is its
length, and nothing was accessed or freed after it was freed.
-/
structure Intact (s : State) : Prop where
  listed : Ring s.links .threads (s.live.map .thread)
  alive : forall t, t ∈ s.live -> t ∉ s.freed
  count : s.threadCount = s.live.length % 2 ^ 32
  once : s.freed.Nodup
  unharmed : s.misused = false

/-!
## The invariant
-/

structure Ok (s : State) : Prop extends Intact s where
  made : forall t, t ∈ s.live ∨ t ∈ s.freed -> t ∈ s.made
  unlinked : forall t, s.Valid t -> t ∉ s.live -> s.Unlinked t
  waiting : forall t, t ∈ s.waiting -> s.Valid t

theorem touch_eq {s : State} {t : Nat} (ht : t ∉ s.freed) : touch s t = s := by
  unfold touch
  rw [contains_eq_mem, decide_eq_false ht, Bool.or_false]

theorem touchNode_eq {s : State} {n : Option Node}
    (h : forall t, n = some (.thread t) -> t ∉ s.freed) : touchNode s n = s := by
  match n with
  | none => rfl
  | some .threads => rfl
  | some (.thread t) => exact touch_eq (h t rfl)

namespace Ok

variable {s s' : State} {t : Nat}

section

variable (h : Ok s)
include h

theorem setThread (thread : Thread) : Ok (s.setThread t thread) :=
  { h with }

theorem not_mem (ht : s.Unlinked t) : t ∉ s.live := by
  intro hmem
  rcases append_of_mem hmem with ⟨pre, post, heq⟩
  have hring := h.listed
  rw [heq, map_append, map_cons] at hring
  have hnext := (segment_append.mp hring.segment).2.next_eq
  rw [ht] at hnext
  cases hnext

theorem neighbour {n : Node} (hn : n ∈ .threads :: s.live.map .thread) :
    touchNode s (s.links n).next = s ∧ touchNode s (s.links n).prev = s := by
  rcases h.listed.exists_rotation hn with ⟨ys, hring, hperm⟩
  have halive : forall m, m ∈ n :: ys -> forall t, some m = some (.thread t) ->
      t ∉ s.freed := by
    intro m hm t heq
    cases heq
    have hmem := hperm.mem_iff.mp hm
    simp only [mem_cons, reduceCtorEq, mem_map, Node.thread.injEq,
      exists_eq_right, false_or] at hmem
    exact h.alive t hmem
  rw [hring.segment.next_eq, hring.segment.prev_eq]
  exact ⟨touchNode_eq (halive _ (headD_mem_cons n ys)),
    touchNode_eq (halive _ (getLastD_mem_cons n ys))⟩

theorem register (ht : t ∉ s.made) {thread : Thread} {count : Nat}
    (hcount : count = (s.live.length + 1) % 2 ^ 32)
    (hregister : register s t thread count = some s') : Ok s' := by
  have hfreed : t ∉ s.freed := fun hmem => ht (h.made t (Or.inr hmem))
  have hlive : t ∉ s.live := fun hmem => ht (h.made t (Or.inl hmem))
  have hring : Ring (listInit s.links (.thread t)) .threads
      (s.live.map .thread) := by
    apply h.listed.congr
    intro n hn
    apply listInit_frame
    rintro rfl
    simp [hlive] at hn
  have hnew : .thread t ∉ Node.threads :: s.live.map .thread := by
    simp [hlive]
  rcases hring.listAdd hnew with ⟨L, hadd, hlisted, hframe⟩
  have htouch := (h.neighbour (n := .threads) mem_cons_self).1
  simp only [Registry.register, htouch, hadd, Option.bind_eq_bind,
    Option.bind_some, Option.pure_def, Option.some.injEq] at hregister
  rw [← hregister]
  refine ⟨⟨hlisted, ?_, ?_, h.once, h.unharmed⟩, ?_, ?_, ?_⟩
  · intro c hc
    rcases mem_cons.mp hc with rfl | hc
    · exact hfreed
    · exact h.alive c hc
  · exact hcount
  · rintro c (hc | hc)
    · rcases mem_cons.mp hc with rfl | hc
      · exact mem_cons_self
      · exact mem_cons_of_mem t (h.made c (Or.inl hc))
    · exact mem_cons_of_mem t (h.made c (Or.inr hc))
  · rintro c ⟨hmade, hvalid⟩ hc
    rw [mem_cons, not_or] at hc
    have hmade' : c ∈ s.made := (mem_cons.mp hmade).resolve_left hc.1
    have hold := h.unlinked c ⟨hmade', hvalid⟩ hc.2
    show (L _).next = none
    rw [hframe _ (by simp [hc.1, hc.2]), listInit_frame (by simp [hc.1])]
    exact hold
  · intro c hc
    have hvalid := h.waiting c hc
    exact ⟨mem_cons_of_mem t hvalid.1, hvalid.2⟩

theorem free {made : List Nat}
    (hmade : forall c, c ∈ made <-> c = t ∨ c ∈ s.made) (hfreed : t ∉ s.freed)
    (hlive : t ∉ s.live) (hwaiting : t ∉ s.waiting) :
    Ok (kfree { s with made := made } t) := by
  unfold kfree
  rw [erase_of_not_mem hlive]
  have hold : forall c, c ∈ made -> c ∉ t :: s.freed -> s.Valid c := by
    intro c hc hnot
    rw [mem_cons, not_or] at hnot
    exact ⟨((hmade c).mp hc).resolve_left hnot.1, hnot.2⟩
  have hkeep : forall c, c ∉ s.freed -> c ≠ t -> c ∉ t :: s.freed := by
    intro c hc hne
    exact not_mem_cons_of_ne_of_not_mem hne hc
  refine ⟨⟨h.listed, ?_, h.count, ?_, h.unharmed⟩, ?_, ?_, ?_⟩
  · intro c hc
    exact hkeep c (h.alive c hc) (fun heq => hlive (heq ▸ hc))
  · exact nodup_cons.mpr ⟨hfreed, h.once⟩
  · rintro c (hc | hc)
    · exact (hmade c).mpr (Or.inr (h.made c (Or.inl hc)))
    · rcases mem_cons.mp hc with rfl | hc
      · exact (hmade c).mpr (Or.inl rfl)
      · exact (hmade c).mpr (Or.inr (h.made c (Or.inr hc)))
  · rintro c ⟨hc, hnot⟩ hdead
    exact h.unlinked c (hold c hc hnot) hdead
  · intro c hc
    have hvalid := h.waiting c hc
    exact ⟨(hmade c).mpr (Or.inr hvalid.1),
      hkeep c hvalid.2 (fun heq => hwaiting (heq ▸ hc))⟩

theorem reap (hvalid : s.Valid t) (hunlinked : s.Unlinked t)
    (hwaiting : t ∉ s.waiting) : Ok (reap s t) := by
  unfold Registry.reap
  rw [touch_eq hvalid.2]
  have hmade : forall c, c ∈ s.made <-> c = t ∨ c ∈ s.made := by
    intro c
    constructor
    · exact Or.inr
    · rintro (rfl | hc)
      · exact hvalid.1
      · exact hc
  exact h.free hmade hvalid.2 (h.not_mem hunlinked) hwaiting

theorem create {startRoutine stack context : Bool} {flags : Thread}
    {mem : Option Nat} (hmem : forall t, t ∈ mem -> t ∉ s.made)
    (hcreate : threadCreate s startRoutine flags mem stack context = some s') :
    Ok s' := by
  unfold threadCreate at hcreate
  split at hcreate
  · cases hcreate
    exact h
  cases mem with
  | none =>
    cases hcreate
    exact h
  | some t =>
    have ht := hmem t rfl
    simp only at hcreate
    split at hcreate
    · cases hcreate
      exact h.free (fun c => mem_cons)
        (fun hc => ht (h.made t (Or.inr hc)))
        (fun hc => ht (h.made t (Or.inl hc)))
        (fun hc => ht (h.waiting t hc).1)
    · refine h.register ht ?_ hcreate
      rw [h.count]
      omega

theorem join (hvalid : s.Valid t) (horderly : Orderly s (.join t)) :
    Ok (threadJoin s t).2 := by
  unfold threadJoin
  simp only [touch_eq hvalid.2]
  split
  · exact h
  rename_i hjoinable
  split
  · rename_i hdead
    have hjoinable' : (s.thread t).joinable = true := by simpa using hjoinable
    have hfree := horderly hjoinable' hdead
    exact h.reap hvalid hfree.1 hfree.2
  · refine { h with waiting := ?_ }
    intro c hc
    rcases mem_cons.mp hc with rfl | hc
    · exact hvalid
    · exact h.waiting c hc

theorem wake (hwaiting : t ∈ s.waiting) (horderly : Orderly s (.wake t)) :
    Ok (joinWake s t).2 := by
  have hvalid := h.waiting t hwaiting
  unfold joinWake
  simp only [touch_eq hvalid.2]
  split
  · rename_i hdead
    have hfree := horderly hdead
    have hleft : Ok { s with waiting := s.waiting.erase t } :=
      { h with waiting := fun c hc => h.waiting c (mem_of_mem_erase hc) }
    exact hleft.reap hvalid hfree.1 hfree.2
  · exact h

theorem exit (hvalid : s.Valid t) (horderly : Orderly s (.exit t)) :
    Ok (threadExit s t) := by
  have hdetached : ((s.setThread t { s.thread t with
      status := .dead, dead := true }).thread t).detached = false := by
    unfold State.setThread
    simp only [Function.update_self]
    exact horderly
  unfold threadExit
  simp only [touch_eq hvalid.2, hdetached, Bool.false_eq_true, if_false]
  rw [touch_eq (s := s.setThread t _) hvalid.2]
  exact h.setThread _

/-- A second call follows the null pointers that the first one left. -/
theorem cleanup (hvalid : s.Valid t) (hcleanup : threadCleanup s t = some s') :
    Ok s' := by
  by_cases hlive : t ∈ s.live
  · have hmem : Node.thread t ∈ s.live.map .thread := mem_map_of_mem hlive
    have htouch := h.neighbour (mem_cons_of_mem _ hmem)
    rcases h.listed.listDel hmem with ⟨L, hdel, hring, hframe⟩
    have herase : (s.live.map .thread).erase (Node.thread t) =
        (s.live.erase t).map .thread :=
      (map_erase (fun _ _ => Node.thread.inj) s.live).symm
    rw [herase] at hring
    simp only [threadCleanup, touch_eq hvalid.2, htouch.1, htouch.2, hdel,
      Option.bind_eq_bind, Option.bind_some, Option.pure_def,
      Option.some.injEq] at hcleanup
    rw [← hcleanup]
    have hpos := length_pos_of_mem hlive
    refine ⟨⟨hring, ?_, ?_, h.once, h.unharmed⟩, ?_, ?_, h.waiting⟩
    · intro c hc
      exact h.alive c (mem_of_mem_erase hc)
    · show (s.threadCount + 2 ^ 32 - 1) % 2 ^ 32 = _
      rw [h.count, length_erase_of_mem hlive]
      omega
    · rintro c (hc | hc)
      · exact h.made c (Or.inl (mem_of_mem_erase hc))
      · exact h.made c (Or.inr hc)
    · intro c hc hdead
      show (L _).next = none
      by_cases hct : c = t
      · subst hct
        exact listDel_self hdel
      · have hnot : c ∉ s.live := by
          intro hmem'
          exact hdead ((mem_erase_of_ne hct).mpr hmem')
        rw [hframe _ (by simp [hnot])]
        exact h.unlinked c hc hnot
  · have hnone := listDel_null (h.unlinked t hvalid hlive)
    have hlinks : forall (s : State) n, (touchNode s n).links = s.links := by
      rintro s (_ | _ | _) <;> rfl
    simp only [threadCleanup, touch_eq hvalid.2, hlinks, hnone,
      Option.bind_eq_bind, Option.bind_none, reduceCtorEq] at hcleanup

end

end Ok

theorem ok_start {s : State} (h : Start s) : Ok s := by
  rcases h with ⟨L, thread, mem, hinit⟩
  have hempty : Ok (emptyTask L thread) := by
    refine ⟨⟨ring_listInit L .threads, ?_, rfl, nodup_nil, rfl⟩, ?_, ?_, ?_⟩
    · intro t ht
      cases ht
    · rintro t (ht | ht) <;> cases ht
    · rintro t ⟨ht, _⟩
      cases ht
    · intro t ht
      cases ht
  cases mem with
  | none =>
    cases hinit
    exact hempty
  | some t => exact hempty.register not_mem_nil rfl hinit

theorem ok_next {s s' : State} {step : Step} (h : Ok s)
    (hallowed : Allowed s step) (horderly : Orderly s step)
    (hnext : next s step = some s') : Ok s' := by
  cases step with
  | create startRoutine flags mem stack context => exact h.create hallowed hnext
  | start t =>
    cases hnext
    unfold threadStart
    simp only [touch_eq hallowed.2]
    split
    · exact h
    · exact h.setThread _
  | join t =>
    cases hnext
    exact h.join hallowed horderly
  | wake t =>
    cases hnext
    exact h.wake hallowed horderly
  | detach t =>
    cases hnext
    unfold threadDetach
    simp only [touch_eq hallowed.2]
    split
    · exact h
    · exact h.setThread _
  | cancel t =>
    cases hnext
    unfold threadCancel
    simp only [touch_eq hallowed.2]
    split
    · exact h
    · exact h.setThread _
  | exit t =>
    cases hnext
    exact h.exit hallowed.1 horderly
  | cleanup t => exact h.cleanup hallowed hnext
  | setStatus t status =>
    cases hnext
    exact h.setThread _

/-!
## The result
-/

instance (s : State) (t : Nat) : Decidable (s.Valid t) :=
  inferInstanceAs (Decidable (_ ∧ _))

instance (s : State) (step : Step) : Decidable (Allowed s step) :=
  match step with
  | .create _ _ mem _ _ =>
      inferInstanceAs (Decidable (forall t, t ∈ mem -> t ∉ s.made))
  | .start t | .join t | .detach t | .cancel t | .cleanup t =>
      inferInstanceAs (Decidable (s.Valid t))
  | .wake t => inferInstanceAs (Decidable (t ∈ s.waiting))
  | .exit t =>
      inferInstanceAs (Decidable (s.Valid t ∧ (s.thread t).status ≠ .dead))
  | .setStatus t status =>
      inferInstanceAs (Decidable
        (s.Valid t ∧ (s.thread t).status ≠ .dead ∧ status ≠ .dead))

instance (s : State) (step : Step) : Decidable (Orderly s step) :=
  match step with
  | .join t =>
      inferInstanceAs (Decidable ((s.thread t).joinable = true ->
        (s.thread t).status = .dead -> s.Unlinked t ∧ t ∉ s.waiting))
  | .wake t =>
      inferInstanceAs (Decidable ((s.thread t).status = .dead ->
        s.Unlinked t ∧ t ∉ s.waiting.erase t))
  | .exit t => inferInstanceAs (Decidable ((s.thread t).detached = false))
  | .create .. | .start _ | .detach _ | .cancel _ | .cleanup _
  | .setStatus .. => inferInstanceAs (Decidable True)

/--
As long as threads are cleaned up before they are joined, by one caller, and no
detached thread exits, the list is what it should be in every state.
-/
theorem thread_registry_intact {s : State}
    (h : Reachable Start (Guarded
      (fun s step => Allowed s step ∧ Orderly s step) next) s) :
    Intact s := by
  have hok : Ok s := by
    apply h.invariant
    · intro s hs
      exact ok_start hs
    · rintro s step s' hs ⟨⟨hallowed, horderly⟩, hnext⟩
      exact ok_next hs hallowed horderly hnext
  exact hok.toIntact

def joinable : Thread := ⟨.ready, true, false, false, false⟩

def sample : State :=
  emptyTask (fun _ => ⟨none, none⟩) (fun _ => joinable)

theorem start_sample : Start sample :=
  ⟨fun _ => ⟨none, none⟩, fun _ => joinable, none, rfl⟩

/-- A thread exits, is cleaned up and is joined. -/
theorem thread_registry_intact_joined :
    exists s, Transition.run (Transition.guard
        (fun s step => Allowed s step ∧ Orderly s step) next) sample
      [.create true joinable (some 1) true true, .start 1, .join 1, .exit 1,
        .cleanup 1, .wake 1] = some s ∧ s.freed = [1] ∧ Intact s := by
  have hinit : Reachable Start (Guarded
      (fun s step => Allowed s step ∧ Orderly s step) next) sample :=
    .init start_sample
  refine ⟨_, rfl, rfl, ?_⟩
  exact thread_registry_intact (hinit.run_guard [.create true joinable (some 1)
    true true, .start 1, .join 1, .exit 1, .cleanup 1, .wake 1] rfl)

/--
A thread exits and is joined.  It stays on the list, and the next thread that is
created is linked to it.
-/
theorem thread_registry_dangling :
    exists s, Start sample ∧
      Transition.run (Transition.guard Allowed next) sample
        [.create true joinable (some 1) true true, .start 1, .exit 1, .join 1,
          .create true joinable (some 2) true true] = some s ∧
      1 ∈ s.freed ∧ s.live = [2] ∧
      (s.links (.thread 2)).next = some (.thread 1) ∧
      s.threadCount = 2 ∧ s.misused = true ∧ ¬ Intact s := by
  refine ⟨_, start_sample, rfl, by decide, rfl, by decide, rfl, rfl, ?_⟩
  intro h
  exact absurd h.unharmed (by decide)

end Registry
end Horizon
