import Horizon.Ipc.Mqueue
import Mathlib.Algebra.Order.BigOperators.Group.List

/-!
# Tasks on a POSIX message queue

Any number of tasks run `mqueue_send` and `mqueue_receive` on one queue.  Each
section under the mutex is one step.  A task that has waited takes the mutex
again without looking at the condition once more.
-/

namespace Horizon
namespace Ipc
namespace Mqueue

open List Bytes Transition
open LinkedList

/-- Where a task is, with the arguments of its call. -/
inductive Task where
  | idle
  | sendWaits (ptr : Buffer) (len prio : Nat)
  | sendReady (ptr : Buffer) (len prio : Nat)
  | receiveWaits (buf : Buffer) (len : Nat) (prio : Bool)
  | receiveReady (buf : Buffer) (len : Nat) (prio : Bool)

structure System where
  mq : Queue
  task : Nat -> Task

def System.setTask (s : System) (t : Nat) (p : Task) : System :=
  { s with task := Function.update s.task t p }

inductive Label where
  | send (t : Nat) (nonblock : Bool) (ptr : Buffer) (len prio : Nat)
      (addr : Option Nat)
  | receive (t : Nat) (nonblock : Bool) (buf : Buffer) (len : Nat) (prio : Bool)
  | wake (t : Nat)
  | interrupt (t : Nat)
  | relock (t : Nat) (addr : Option Nat)

/-- A wait ends with success at a moment at which its condition holds. -/
def wake (s : System) (t : Nat) : Option System :=
  match s.task t with
  | Task.sendWaits ptr len prio =>
      if s.mq.curmsgs < s.mq.maxmsg then
        some (s.setTask t (Task.sendReady ptr len prio))
      else none
  | Task.receiveWaits buf len prio =>
      if s.mq.curmsgs > 0 then
        some (s.setTask t (Task.receiveReady buf len prio))
      else none
  | _ => none

def interrupt (s : System) (t : Nat) : Option System :=
  match s.task t with
  | Task.sendWaits _ _ _ => some (s.setTask t Task.idle)
  | Task.receiveWaits _ _ _ => some (s.setTask t Task.idle)
  | _ => none

def relock (s : System) (t : Nat) (addr : Option Nat) : Option System :=
  match s.task t with
  | Task.sendReady ptr len prio =>
      (sendFinish s.mq ptr len prio addr).map fun out =>
        { s with mq := out.2 }.setTask t Task.idle
  | Task.receiveReady buf len prio =>
      (receiveFinish s.mq buf len prio).map fun out =>
        { s with mq := out.2 }.setTask t Task.idle
  | _ => none

def step (s : System) : Label -> Option System
  | Label.send t nonblock ptr len prio addr =>
      match s.task t with
      | Task.idle =>
          match sendEnter s.mq nonblock len with
          | Enter.failed => some s
          | Enter.waits => some (s.setTask t (Task.sendWaits ptr len prio))
          | Enter.ready => (sendFinish s.mq ptr len prio addr).map fun out =>
              { s with mq := out.2 }
      | _ => none
  | Label.receive t nonblock buf len prio =>
      match s.task t with
      | Task.idle =>
          match receiveEnter s.mq nonblock len with
          | Enter.failed => some s
          | Enter.waits => some (s.setTask t (Task.receiveWaits buf len prio))
          | Enter.ready => (receiveFinish s.mq buf len prio).map fun out =>
              { s with mq := out.2 }
      | _ => none
  | Label.wake t => wake s t
  | Label.interrupt t => interrupt s t
  | Label.relock t addr => relock s t addr

def FreshMemory (s : System) : Label -> Prop
  | Label.send _ _ _ _ _ addr => forall a, addr = some a -> Fresh s.mq a
  | Label.relock _ addr => forall a, addr = some a -> Fresh s.mq a
  | _ => True

/--
The condition on a step: a task that has waited takes the mutex while what it
waited for still holds.
-/
def LabelOk (s : System) : Label -> Prop
  | Label.relock t _ =>
      match s.task t with
      | Task.sendReady _ _ _ => s.mq.curmsgs < s.mq.maxmsg
      | Task.receiveReady _ _ _ => s.mq.curmsgs > 0
      | _ => True
  | _ => True

def Takes (s : System) : Label -> Prop
  | Label.receive t nonblock _ len _ =>
      s.task t = Task.idle ∧ receiveEnter s.mq nonblock len = Enter.ready
  | Label.relock t _ =>
      exists buf len prio, s.task t = Task.receiveReady buf len prio
  | _ => False

/-!
## Capacity
-/

def TaskOk (msgsize : Int) : Task -> Prop
  | Task.sendWaits _ len _ => len <= asUnsigned msgsize
  | Task.sendReady _ len _ => len <= asUnsigned msgsize
  | Task.receiveWaits _ len _ => asUnsigned msgsize <= len
  | Task.receiveReady _ len _ => asUnsigned msgsize <= len
  | Task.idle => True

structure SystemOk (maxmsg msgsize : Int) (s : System) : Prop where
  max : s.mq.maxmsg = maxmsg
  size : s.mq.msgsize = msgsize
  refines : exists q, Refines s.mq q
  room : s.mq.curmsgs <= maxmsg
  tasks : forall t, TaskOk msgsize (s.task t)

variable {maxmsg msgsize : Int}

variable {s s' : System} {a t len prio : Nat} {buf ptr : Buffer}
    {addr : Option Nat} {mq : Queue} {nonblock : Bool}

section

variable (h : SystemOk maxmsg msgsize s)
include h

theorem SystemOk.setTask {p : Task} (hp : TaskOk msgsize p) :
    SystemOk maxmsg msgsize (s.setTask t p) := by
  refine { h with tasks := ?_ }
  intro t'
  by_cases ht : t' = t
  · subst ht
    have hself : (s.setTask t' p).task t' = p := Function.update_self ..
    rw [hself]
    exact hp
  · have hother : (s.setTask t p).task t' = s.task t' :=
      Function.update_of_ne ht ..
    rw [hother]
    exact h.tasks t'

theorem SystemOk.sent {out : Int × Queue}
    (hfresh : forall a, addr = some a -> Fresh s.mq a)
    (hlen : len <= asUnsigned msgsize) (hroom : s.mq.curmsgs < maxmsg)
    (hout : sendFinish s.mq ptr len prio addr = some out) :
    SystemOk maxmsg msgsize { s with mq := out.2 } := by
  rcases h.refines with ⟨q, hq⟩
  rw [← h.size] at hlen
  rcases hq.sendFinish hfresh hlen 0 hout with
    rfl | ⟨mq', rfl, hmax, hsize, hrefines⟩
  · exact h
  · refine ⟨hmax.trans h.max, hsize.trans h.size, ⟨_, hrefines⟩, ?_, h.tasks⟩
    have hperm := PriorityQueue.perm_insert (fun p : Message × Nat => p.1.prio)
      (sentMessage ptr len prio, 0) q
    have hcount := hrefines.count
    rw [hperm.length_eq, length_cons] at hcount
    have hold := hq.count
    show mq'.curmsgs <= maxmsg
    omega

theorem SystemOk.received {prio : Bool} {out : Reply × Queue}
    (hlen : asUnsigned msgsize <= len)
    (hpos : s.mq.curmsgs ≠ 0)
    (hout : receiveFinish s.mq buf len prio = some out) :
    SystemOk maxmsg msgsize { s with mq := out.2 } := by
  rcases h.refines with ⟨q, hq⟩
  rw [← h.size] at hlen
  have hcount := hq.count
  cases q with
  | nil => exact absurd hcount hpos
  | cons p q =>
    rcases hq.receiveFinish buf hlen prio with
      ⟨mq', hfinish, hmax, hsize, hrefines⟩
    rw [hfinish] at hout
    cases hout
    refine ⟨hmax.trans h.max, hsize.trans h.size, ⟨q, hrefines⟩, ?_, h.tasks⟩
    have hcount' := hrefines.count
    have hroom := h.room
    rw [length_cons] at hcount
    show mq'.curmsgs <= maxmsg
    omega

end

theorem receiveEnter_ready (h : receiveEnter mq nonblock len = .ready) :
    asUnsigned mq.msgsize <= len ∧ mq.curmsgs ≠ 0 := by
  unfold receiveEnter at h
  by_cases hlen : len < asUnsigned mq.msgsize
  · rw [if_pos hlen] at h
    cases h
  by_cases hzero : mq.curmsgs = 0
  · rw [if_neg hlen, if_pos hzero] at h
    cases nonblock <;> cases h
  · exact ⟨Nat.le_of_not_lt hlen, hzero⟩

theorem receiveEnter_waits (h : receiveEnter mq nonblock len = .waits) :
    asUnsigned mq.msgsize <= len := by
  unfold receiveEnter at h
  by_cases hlen : len < asUnsigned mq.msgsize
  · rw [if_pos hlen] at h
    cases h
  · exact Nat.le_of_not_lt hlen

section

variable (h : SystemOk maxmsg msgsize s)
include h

theorem SystemOk.send (hfresh : forall a, addr = some a -> Fresh s.mq a)
    (hstep : step s (.send t nonblock ptr len prio addr) = some s') :
    SystemOk maxmsg msgsize s' := by
  simp only [Mqueue.step] at hstep
  split at hstep
  · split at hstep
    case h_1 =>
      cases hstep
      exact h
    case h_2 henter =>
      cases hstep
      have hlen := (sendEnter_waits henter).left
      rw [h.size] at hlen
      exact h.setTask hlen
    case h_3 henter =>
      rcases Option.map_eq_some_iff.mp hstep with ⟨out, hout, rfl⟩
      rcases sendEnter_ready henter with ⟨hlen, hroom⟩
      rw [h.size] at hlen
      rw [h.max] at hroom
      exact h.sent hfresh hlen hroom hout
  · cases hstep

theorem SystemOk.receive {prio : Bool}
    (hstep : step s (.receive t nonblock buf len prio) = some s') :
    SystemOk maxmsg msgsize s' := by
  simp only [Mqueue.step] at hstep
  split at hstep
  · split at hstep
    case h_1 =>
      cases hstep
      exact h
    case h_2 henter =>
      cases hstep
      have hlen := receiveEnter_waits henter
      rw [h.size] at hlen
      exact h.setTask hlen
    case h_3 henter =>
      rcases Option.map_eq_some_iff.mp hstep with ⟨out, hout, rfl⟩
      rcases receiveEnter_ready henter with ⟨hlen, hpos⟩
      rw [h.size] at hlen
      exact h.received hlen hpos hout
  · cases hstep

theorem SystemOk.wake (hstep : wake s t = some s') :
    SystemOk maxmsg msgsize s' := by
  have htaskOk := h.tasks t
  unfold Mqueue.wake at hstep
  split at hstep
  case h_3 => cases hstep
  all_goals
    rename_i htask
    rw [htask] at htaskOk
    split at hstep <;> cases hstep
    exact h.setTask htaskOk

theorem SystemOk.interrupt (hstep : interrupt s t = some s') :
    SystemOk maxmsg msgsize s' := by
  unfold Mqueue.interrupt at hstep
  split at hstep <;> cases hstep <;> exact h.setTask trivial

theorem SystemOk.relock (hfresh : forall a, addr = some a -> Fresh s.mq a)
    (hok : LabelOk s (.relock t addr)) (hstep : relock s t addr = some s') :
    SystemOk maxmsg msgsize s' := by
  have htaskOk := h.tasks t
  unfold LabelOk at hok
  unfold Mqueue.relock at hstep
  split at hstep
  case h_1 ptr len prio htask =>
    simp only [htask] at htaskOk hok
    rcases Option.map_eq_some_iff.mp hstep with ⟨out, hout, rfl⟩
    rw [h.max] at hok
    exact (h.sent hfresh htaskOk hok hout).setTask trivial
  case h_2 buf len prio htask =>
    simp only [htask] at htaskOk hok
    rcases Option.map_eq_some_iff.mp hstep with ⟨out, hout, rfl⟩
    exact (h.received htaskOk (by omega) hout).setTask trivial
  case h_3 => cases hstep

end

def TaskStep (s : System) (label : Label) (s' : System) : Prop :=
  FreshMemory s label ∧ step s label = some s'

theorem SystemOk.step {label : Label} (h : SystemOk maxmsg msgsize s)
    (hok : LabelOk s label) (hstep : TaskStep s label s') :
    SystemOk maxmsg msgsize s' := by
  rcases hstep with ⟨hfresh, hstep⟩
  cases label with
  | send t nonblock ptr len prio addr => exact h.send hfresh hstep
  | receive t nonblock buf len prio => exact h.receive hstep
  | wake t => exact h.wake hstep
  | interrupt t => exact h.interrupt hstep
  | relock t addr => exact h.relock hfresh hok hstep

def idleSystem (mq : Queue) : System where
  mq := mq
  task := fun _ => Task.idle

/--
As long as tasks take the mutex again while what they waited for still holds,
the counter is the number of messages and within the capacity, and a message is
taken from a list that is not empty.
-/
theorem capacity_kept (links : Links Node) (msgs : Nat -> Message)
    (maxmsg msgsize : Int) (hmax : 0 <= maxmsg) (s : System)
    (hreach : Reachable
      (fun s => s = idleSystem (mqueueOpen links msgs maxmsg msgsize))
      (fun s label s' => LabelOk s label ∧ TaskStep s label s') s) :
    exists addrs : List Nat,
      Ring s.mq.links Node.head (addrs.map Node.msg) ∧
        s.mq.curmsgs = addrs.length ∧
        0 <= s.mq.curmsgs ∧ s.mq.curmsgs <= s.mq.maxmsg ∧
        forall label, LabelOk s label -> Takes s label -> addrs ≠ [] := by
  have hok : SystemOk maxmsg msgsize s := by
    apply hreach.invariant
    · rintro s rfl
      exact ⟨rfl, rfl, ⟨[], refines_mqueueOpen links msgs maxmsg msgsize⟩, hmax,
        fun _ => trivial⟩
    · rintro s label s' hs ⟨hok, hstep⟩
      exact hs.step hok hstep
  rcases hok.refines with ⟨q, hq⟩
  rcases hq.ring with ⟨addrs, hring, hmsgs⟩
  have hcount : s.mq.curmsgs = addrs.length := by
    rw [hq.count, ← length_map (f := Prod.fst), ← hmsgs, length_map]
  have hroom := hok.room
  rw [← hok.max] at hroom
  refine ⟨addrs, hring, hcount, by omega, hroom, ?_⟩
  rintro label hlabel htakes rfl
  have hzero : s.mq.curmsgs = 0 := hcount
  cases label with
  | receive t nonblock buf len prio =>
    exact (receiveEnter_ready htakes.right).right hzero
  | relock t addr =>
    rcases htakes with ⟨buf, len, prio, htask⟩
    unfold LabelOk at hlabel
    simp only [htask] at hlabel
    omega
  | _ => exact htakes

theorem Refines.exists_sendFinish {q : List (Message × Nat)} (h : Refines mq q)
    (ptr : Buffer) (prio : Nat) (hlen : len <= asUnsigned mq.msgsize)
    (hwrap : 16 + len < 2 ^ 32) :
    exists a mq', Fresh mq a ∧
      Mqueue.sendFinish mq ptr len prio (some a) = some (0, mq') ∧
      mq'.maxmsg = mq.maxmsg ∧ mq'.msgsize = mq.msgsize ∧
      Refines mq' (PriorityQueue.insert (fun p => p.1.prio)
        (sentMessage ptr len prio, 0) q) := by
  rcases h.ring with ⟨addrs, hring, _⟩
  have hfresh : Fresh mq (addrs.sum + 1) := by
    intro hlinked
    have hmem := hring.linked_iff.mp hlinked
    rcases mem_map.mp hmem with ⟨a, ha, heq⟩
    have hle := le_sum_of_mem ha
    injection heq with heq
    omega
  rcases h.insert hfresh (m := sentMessage ptr len prio) hlen 0 with
    ⟨mq', hinsert, hmax, hsize, hrefines⟩
  refine ⟨_, mq', hfresh, ?_, hmax, hsize, hrefines⟩
  unfold Mqueue.sendFinish
  simp only [Nat.not_le_of_lt hwrap, if_false, hinsert, Option.map_some]

def oneMessage : Queue :=
  mqueueOpen (fun _ => { next := none, prev := none })
    (fun _ => { len := 0, prio := 0, data := zeros }) 1 10

theorem exists_first_send : exists a mq,
    TaskStep (idleSystem oneMessage) (.send 1 false zeros 4 3 (some a))
        (idleSystem mq) ∧
      mq.maxmsg = 1 ∧ mq.msgsize = 10 ∧
      Refines mq [(sentMessage zeros 4 3, 0)] := by
  have hempty : Refines oneMessage [] := refines_mqueueOpen _ _ _ _
  have hlen : 4 <= asUnsigned oneMessage.msgsize := by decide
  rcases hempty.exists_sendFinish zeros 3 hlen (by decide) with
    ⟨a, mq, hfresh, hfinish, hmax, hsize, hone⟩
  refine ⟨a, mq, ⟨?_, ?_⟩, hmax, hsize, hone⟩
  · intro b hb
    cases hb
    exact hfresh
  · have henter : sendEnter oneMessage false 4 = .ready := by decide
    unfold step idleSystem
    simp only [henter, hfinish, Option.map_some]

theorem capacity_kept_one_sent :
    exists a s, TaskStep (idleSystem oneMessage)
        (Label.send 1 false zeros 4 3 (some a)) s ∧
      s.mq.curmsgs <= s.mq.maxmsg := by
  rcases exists_first_send with ⟨a, mq, hstep, _⟩
  have hstart : Reachable (fun s => s = idleSystem oneMessage)
      (fun s label s' => LabelOk s label ∧ TaskStep s label s')
      (idleSystem oneMessage) := Reachable.init rfl
  have hok : LabelOk (idleSystem oneMessage)
      (Label.send 1 false zeros 4 3 (some a)) := trivial
  rcases capacity_kept _ _ 1 10 (by decide) _ (hstart.step ⟨hok, hstep⟩) with
    ⟨_, _, _, _, hroom, _⟩
  exact ⟨a, _, hstep, hroom⟩

def twoSenders (mq : Queue) (p : Task) : System :=
  ((idleSystem mq).setTask 2 p).setTask 3 p

theorem reachable_twoSenders_wait {init : System -> Prop}
    (h : Reachable init TaskStep (idleSystem mq))
    (henter : sendEnter mq false 4 = .waits) :
    Reachable init TaskStep
      (twoSenders mq (.sendWaits zeros 4 3)) := by
  have hnone : forall a, none = some a -> Fresh mq a := fun _ ha => nomatch ha
  have hfirst : TaskStep (idleSystem mq) (.send 2 false zeros 4 3 none)
      ((idleSystem mq).setTask 2 (.sendWaits zeros 4 3)) := by
    refine ⟨hnone, ?_⟩
    unfold step
    simp only [idleSystem, henter]
  have hsecond : TaskStep ((idleSystem mq).setTask 2 (.sendWaits zeros 4 3))
      (.send 3 false zeros 4 3 none)
      (twoSenders mq (.sendWaits zeros 4 3)) := by
    refine ⟨hnone, ?_⟩
    have htask : ((idleSystem mq).setTask 2 (.sendWaits zeros 4 3)).task 3 =
        .idle := rfl
    have hmq : ((idleSystem mq).setTask 2 (.sendWaits zeros 4 3)).mq = mq :=
      rfl
    unfold step
    simp only [htask, hmq, henter]
    rfl
  exact (h.step hfirst).step hsecond

theorem wake_send (htask : s.task t = .sendWaits ptr len prio)
    (hroom : s.mq.curmsgs < s.mq.maxmsg) :
    TaskStep s (.wake t) (s.setTask t (.sendReady ptr len prio)) := by
  refine ⟨trivial, ?_⟩
  show wake s t = _
  unfold wake
  simp only [htask, hroom, if_true]

theorem relock_send (htask : s.task t = .sendReady ptr len prio)
    (hfresh : Fresh s.mq a)
    (hfinish : sendFinish s.mq ptr len prio (some a) = some (0, mq)) :
    TaskStep s (.relock t (some a))
      ({ s with mq := mq }.setTask t .idle) := by
  constructor
  · intro b hb
    cases hb
    exact hfresh
  · show relock s t (some a) = _
    unfold relock
    simp only [htask, hfinish, Option.map_some]

/--
Two senders wait for room in a queue for one message.  A receive wakes both, and
both put their messages into it.
-/
theorem two_senders_exceed_capacity :
    exists s, Reachable (fun s => s = idleSystem oneMessage)
        TaskStep s ∧ s.mq.maxmsg = 1 ∧ s.mq.curmsgs = 2 := by
  rcases exists_first_send with ⟨a, mq, hfirst, hmax, hsize, hone⟩
  have hcount : mq.curmsgs = 1 := hone.count
  have hwaits : sendEnter mq false 4 = Enter.waits := by
    unfold sendEnter
    rw [hcount, hmax, hsize]
    decide
  have hstart : Reachable (fun s => s = idleSystem oneMessage)
      TaskStep (idleSystem oneMessage) := Reachable.init rfl
  have hwait := reachable_twoSenders_wait (hstart.step hfirst) hwaits
  -- the message is received, so both conditions hold
  have hbuffer : asUnsigned mq.msgsize <= 10 := by
    rw [hsize]
    decide
  rcases hone.receiveFinish zeros hbuffer true with
    ⟨mq', hreceive, hmax', hsize', hempty⟩
  have hcount' : mq'.curmsgs = 0 := hempty.count
  have hreceived : TaskStep (twoSenders mq (Task.sendWaits zeros 4 3))
      (Label.receive 4 false zeros 10 true)
      (twoSenders mq' (Task.sendWaits zeros 4 3)) := by
    refine ⟨trivial, ?_⟩
    have htask : (twoSenders mq (Task.sendWaits zeros 4 3)).task 4 = Task.idle :=
      rfl
    have hmq : (twoSenders mq (Task.sendWaits zeros 4 3)).mq = mq := rfl
    have henter : receiveEnter mq false 10 = Enter.ready := by
      unfold receiveEnter
      rw [hcount, hsize]
      decide
    unfold step
    simp only [htask, hmq, henter, hreceive, Option.map_some]
    rfl
  have hmax' : mq'.maxmsg = 1 := hmax'.trans hmax
  have hsize' : mq'.msgsize = 10 := hsize'.trans hsize
  have hroom : mq'.curmsgs < mq'.maxmsg := by omega
  have hwake := ((hwait.step hreceived).step (wake_send (t := 2) rfl hroom)).step
    (wake_send (t := 3) rfl hroom)
  -- the first of them fills the queue, and the second does not look
  have hlen : forall {n : Int}, n = 10 -> 4 <= asUnsigned n := by
    rintro n rfl
    decide
  rcases hempty.exists_sendFinish zeros 3 (hlen hsize') (by decide) with
    ⟨b, mq2, hfresh2, hfinish2, hmax2, hsize2, hone2⟩
  rcases hone2.exists_sendFinish zeros 3 (hlen (hsize2.trans hsize')) (by decide)
    with ⟨c, mq3, hfresh3, hfinish3, hmax3, _, htwo⟩
  refine ⟨_, (hwake.step (relock_send (t := 2) rfl hfresh2 hfinish2)).step
    (relock_send (t := 3) rfl hfresh3 hfinish3), ?_, htwo.count⟩
  exact hmax3.trans (hmax2.trans hmax')

end Mqueue
end Ipc
end Horizon
