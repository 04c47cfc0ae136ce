import Horizon.Lib.Bytes
import Horizon.Lib.LinkedList
import Horizon.Lib.PriorityQueue
import Horizon.Lib.Transition
import Horizon.Types

/-!
# POSIX message queues

This module follows `mqueue_send`, `mqueue_receive`, `mqueue_timedsend` and
`mqueue_timedreceive` of `ipc/mqueue.c` for one queue.  Each function is cut where
it gives up the mutex.  The messages are nodes of the list of the queue, and the
list refines a stable priority queue.  Names, descriptors and reference counts
are left out.
-/

namespace Horizon
namespace Ipc
namespace Mqueue

open Function List Bytes Transition
open LinkedList

/-- The nodes of the list: `msg_list` and the messages, by their addresses. -/
inductive Node where
  | head
  | msg (addr : Nat)
deriving DecidableEq

/-- `struct mq_msg` without its link. -/
structure Message where
  len : Nat
  prio : Nat
  data : Buffer

/-- `struct mqueue` with the memory of its messages. -/
structure Queue where
  links : Links Node
  msgs : Nat -> Message
  curmsgs : Int
  maxmsg : Int
  msgsize : Int

def mqueueOpen (links : Links Node) (msgs : Nat -> Message)
    (maxmsg msgsize : Int) : Queue where
  links := listInit links Node.head
  msgs := msgs
  curmsgs := 0
  maxmsg := maxmsg
  msgsize := msgsize

def findPlace (links : Links Node) (msgs : Nat -> Message) (prio : Nat) :
    Nat -> Option Node -> Option Node
  | 0, _ => none
  | _ + 1, none => none
  | _ + 1, some Node.head => some Node.head
  | rounds + 1, some (Node.msg a) =>
      if prio > (msgs a).prio then some (Node.msg a)
      else findPlace links msgs prio rounds (links (Node.msg a)).next

def insertMessage (mq : Queue) (a : Nat) (m : Message) : Option Queue := do
  let msgs := update mq.msgs a m
  let p <- findPlace mq.links msgs m.prio (mq.curmsgs.toNat + 1)
    (mq.links Node.head).next
  let links <- listAddTail mq.links (Node.msg a) p
  return { mq with links := links, msgs := msgs, curmsgs := mq.curmsgs + 1 }

/--
The first message is taken out of the list.  There is no result for an empty
list, whose head would be taken for a message.
-/
def takeFirst (mq : Queue) : Option (Message × Queue) := do
  match <- (mq.links Node.head).next with
  | Node.head => none
  | Node.msg a =>
      let links <- listDel mq.links (Node.msg a)
      return (mq.msgs a, { mq with links := links, curmsgs := mq.curmsgs - 1 })

/-!
## Sections
-/

/-- How the first section of a call ends. -/
inductive Enter where
  | failed
  | waits
  | ready
deriving DecidableEq

/-- The first section of a send up to the allocation. -/
def sendEnter (mq : Queue) (nonblock : Bool) (len : Nat) : Enter :=
  if len > asUnsigned mq.msgsize then Enter.failed
  else if mq.curmsgs >= mq.maxmsg then
    if nonblock then Enter.failed else Enter.waits
  else Enter.ready

def sentMessage (ptr : Buffer) (len prio : Nat) : Message where
  len := len
  prio := prio
  data := memcpy zeros 0 ptr 0 len

/--
The rest of a send; `addr` is what `kmalloc` returns.  There is no result
for a size that wraps around, as no such buffer exists.
-/
def sendFinish (mq : Queue) (ptr : Buffer) (len prio : Nat)
    (addr : Option Nat) : Option (Int × Queue) :=
  match addr with
  | none => some (-1, mq)
  | some a =>
      if 16 + len >= 2 ^ 32 then none
      else (insertMessage mq a (sentMessage ptr len prio)).map fun mq => (0, mq)

def receiveEnter (mq : Queue) (nonblock : Bool) (len : Nat) : Enter :=
  if len < asUnsigned mq.msgsize then Enter.failed
  else if mq.curmsgs = 0 then
    if nonblock then Enter.failed else Enter.waits
  else Enter.ready

/-- What a receive returns; the priority is absent if it is not asked for. -/
inductive Reply where
  | failed
  | message (result : Int) (buf : Buffer) (prio : Option Nat)

/-- The rest of a receive; `prio` tells whether the priority is asked for. -/
def receiveFinish (mq : Queue) (buf : Buffer) (len : Nat) (prio : Bool) :
    Option (Reply × Queue) :=
  (takeFirst mq).map fun (m, mq) =>
    (Reply.message (asInt m.len) (memcpy buf 0 m.data 0 (min len m.len))
      (if prio then some m.prio else none), mq)

/-!
## Calls

A call that waits comes back with what the wait has returned.
-/

def mqueueSend (mq : Queue) (nonblock : Bool) (ptr : Buffer) (len prio : Nat)
    (addr : Option Nat) (ret : Int) : Option (Int × Queue) :=
  match sendEnter mq nonblock len with
  | Enter.failed => some (-1, mq)
  | Enter.waits =>
      if ret ≠ 0 then some (-1, mq) else sendFinish mq ptr len prio addr
  | Enter.ready => sendFinish mq ptr len prio addr

/-- A timeout is absent if it is `NULL`. -/
def mqueueTimedsend (mq : Queue) (nonblock : Bool) (ptr : Buffer)
    (len prio : Nat) (timeout : Option Nat) (addr : Option Nat) (ret : Int) :
    Option (Int × Queue) :=
  match timeout with
  | none => mqueueSend mq nonblock ptr len prio addr ret
  | some _ =>
      match sendEnter mq nonblock len with
      | Enter.failed => some (-1, mq)
      | Enter.waits =>
          if ret <= 0 then some (-1, mq) else sendFinish mq ptr len prio addr
      | Enter.ready => sendFinish mq ptr len prio addr

def mqueueReceive (mq : Queue) (nonblock : Bool) (buf : Buffer) (len : Nat)
    (prio : Bool) (ret : Int) : Option (Reply × Queue) :=
  match receiveEnter mq nonblock len with
  | Enter.failed => some (Reply.failed, mq)
  | Enter.waits =>
      if ret ≠ 0 then some (Reply.failed, mq)
      else receiveFinish mq buf len prio
  | Enter.ready => receiveFinish mq buf len prio

def mqueueTimedreceive (mq : Queue) (nonblock : Bool) (buf : Buffer)
    (len : Nat) (prio : Bool) (timeout : Option Nat) (ret : Int) :
    Option (Reply × Queue) :=
  match timeout with
  | none => mqueueReceive mq nonblock buf len prio ret
  | some _ =>
      match receiveEnter mq nonblock len with
      | Enter.failed => some (Reply.failed, mq)
      | Enter.waits =>
          if ret <= 0 then some (Reply.failed, mq)
          else receiveFinish mq buf len prio
      | Enter.ready => receiveFinish mq buf len prio

/-!
## Refinement of a priority queue
-/

/-- The list of a queue holds stamped messages, and the counter counts them. -/
structure Refines (mq : Queue) (q : List (Message × Nat)) : Prop where
  ring : exists addrs : List Nat,
    Ring mq.links Node.head (addrs.map Node.msg) ∧
      addrs.map mq.msgs = q.map Prod.fst
  count : mq.curmsgs = q.length
  sizes : forall p, p ∈ q -> p.1.len <= asUnsigned mq.msgsize

theorem refines_mqueueOpen (links : Links Node) (msgs : Nat -> Message)
    (maxmsg msgsize : Int) :
    Refines (mqueueOpen links msgs maxmsg msgsize) [] :=
  ⟨⟨[], ring_listInit links .head, rfl⟩, rfl, fun _ hp => absurd hp not_mem_nil⟩

def Fresh (mq : Queue) (a : Nat) : Prop :=
  ¬ Linked mq.links Node.head (Node.msg a)

variable {addrs : List Nat} {a len prio : Nat} {m : Message} {mq : Queue}
    {q : List (Message × Nat)} {p : Message × Nat} {nonblock : Bool}
    {ptr : Buffer} {addr timeout : Option Nat} {out : Int × Queue} {ret : Int}

theorem findPlace_eq {links : Links Node} (msgs : Nat -> Message) (prio : Nat)
    {n : Node} (h : LinkedList.Segment links n (addrs.map .msg) .head) :
    findPlace links msgs prio (addrs.length + 1) (links n).next =
      some (((addrs.dropWhile fun a => prio <= (msgs a).prio).map
        .msg).headD .head) := by
  induction addrs generalizing n with
  | nil =>
    rw [h.next_eq]
    rfl
  | cons a addrs ih =>
    rw [h.next_eq]
    show findPlace links msgs prio (addrs.length + 1 + 1) (some (.msg a)) = _
    unfold findPlace
    split
    case isTrue hlt =>
      rw [dropWhile_cons_of_neg (by simpa using hlt)]
      rfl
    case isFalse hlt =>
      rw [dropWhile_cons_of_pos (by simpa using hlt)]
      exact ih h.right

theorem map_update_of_not_mem {msgs : Nat -> Message} (h : a ∉ addrs) :
    addrs.map (update msgs a m) = addrs.map msgs := by
  apply map_congr_left
  intro b hb
  apply update_of_ne
  rintro rfl
  exact h hb

theorem Refines.insert (h : Refines mq q) (hfresh : Fresh mq a)
    (hlen : m.len <= asUnsigned mq.msgsize) (stamp : Nat) :
    exists mq', insertMessage mq a m = some mq' ∧
      mq'.maxmsg = mq.maxmsg ∧ mq'.msgsize = mq.msgsize ∧
      Refines mq' (PriorityQueue.insert (fun p => p.1.prio) (m, stamp) q) := by
  rcases h.ring with ⟨addrs, hring, hmsgs⟩
  have hnot : a ∉ addrs := by
    intro ha
    exact hfresh (hring.linked_iff.mpr (mem_map.mpr ⟨a, ha, rfl⟩))
  obtain ⟨msgs, hdef⟩ : exists f, f = update mq.msgs a m := ⟨_, rfl⟩
  have hsame : addrs.map msgs = q.map Prod.fst := by
    rw [hdef, map_update_of_not_mem hnot, hmsgs]
  have hself : msgs a = m := by
    rw [hdef]
    exact update_self ..
  obtain ⟨pre, hpre⟩ : exists l, l =
    addrs.takeWhile fun a => m.prio <= (msgs a).prio := ⟨_, rfl⟩
  obtain ⟨post, hpost⟩ : exists l, l =
    addrs.dropWhile fun a => m.prio <= (msgs a).prio := ⟨_, rfl⟩
  have hsplit : addrs = pre ++ post := by
    rw [hpre, hpost, takeWhile_append_dropWhile]
  have hrounds : mq.curmsgs.toNat = addrs.length := by
    rw [h.count, Int.toNat_natCast, ← length_map (f := Prod.fst), ← hmsgs,
      length_map]
  have hplace := findPlace_eq msgs m.prio hring.segment
  rw [← hpost] at hplace
  rw [hsplit, map_append] at hring
  have hnew : .msg a ∉ .head :: (pre.map .msg ++ post.map Node.msg) := by
    rw [← map_append, ← hsplit]
    simpa using hnot
  rcases hring.listAddTail hnew with ⟨links, hadd, hring'⟩
  refine ⟨{ mq with links := links, msgs := msgs, curmsgs := mq.curmsgs + 1 },
    ?_, rfl, rfl, ⟨⟨pre ++ a :: post, ?_, ?_⟩, ?_, ?_⟩⟩
  · unfold insertMessage
    simp only [← hdef, hrounds, hplace, Option.bind_eq_bind, Option.bind_some,
      hadd, Option.pure_def]
  · rw [map_append, map_cons]
    exact hring'
  · -- both lists are cut at the first message of lower priority
    have hfirst : (q.takeWhile fun p => m.prio <= p.1.prio).map Prod.fst =
        pre.map msgs := by
      have hq := takeWhile_map (f := Prod.fst)
        (p := fun m' : Message => decide (m.prio <= m'.prio)) (l := q)
      have ha := takeWhile_map (f := msgs)
        (p := fun m' : Message => decide (m.prio <= m'.prio)) (l := addrs)
      rw [hsame] at ha
      rw [hpre]
      exact hq.symm.trans ha
    have hrest : (q.dropWhile fun p => m.prio <= p.1.prio).map Prod.fst =
        post.map msgs := by
      have hq := dropWhile_map (f := Prod.fst)
        (p := fun m' : Message => decide (m.prio <= m'.prio)) (l := q)
      have ha := dropWhile_map (f := msgs)
        (p := fun m' : Message => decide (m.prio <= m'.prio)) (l := addrs)
      rw [hsame] at ha
      rw [hpost]
      exact hq.symm.trans ha
    show (pre ++ a :: post).map msgs = _
    rw [PriorityQueue.insert_eq, map_append, map_append, map_cons,
      map_cons, hself, hfirst, hrest]
  · have hperm := PriorityQueue.perm_insert (fun p : Message × Nat => p.1.prio)
      (m, stamp) q
    rw [hperm.length_eq, length_cons, h.count]
    rfl
  · intro p hp
    have hperm := PriorityQueue.perm_insert (fun p : Message × Nat => p.1.prio)
      (m, stamp) q
    rcases mem_cons.mp (hperm.subset hp) with rfl | hp
    · exact hlen
    · exact h.sizes p hp

theorem Refines.takeFirst (h : Refines mq (p :: q)) :
    exists mq', takeFirst mq = some (p.1, mq') ∧
      mq'.maxmsg = mq.maxmsg ∧ mq'.msgsize = mq.msgsize ∧ Refines mq' q := by
  rcases h.ring with ⟨addrs, hring, hmsgs⟩
  cases addrs with
  | nil => cases hmsgs
  | cons a addrs =>
    have hfirst : mq.msgs a = p.1 := (List.cons.inj hmsgs).left
    have hrest : addrs.map mq.msgs = q.map Prod.fst := (List.cons.inj hmsgs).right
    have hnext : (mq.links .head).next = some (.msg a) :=
      hring.segment.next_eq
    have hmem : .msg a ∈ (a :: addrs).map Node.msg := mem_cons_self
    rcases hring.listDel hmem with ⟨links, hdel, hring', _⟩
    rw [map_cons, erase_cons_head] at hring'
    refine ⟨{ mq with links := links, curmsgs := mq.curmsgs - 1 }, ?_, rfl, rfl,
      ⟨⟨addrs, hring', hrest⟩, ?_, ?_⟩⟩
    · unfold Mqueue.takeFirst
      simp only [hnext, Option.bind_eq_bind, Option.bind_some, hdel, hfirst,
        Option.pure_def]
    · show mq.curmsgs - 1 = _
      rw [h.count, length_cons]
      omega
    · exact fun p' hp' => h.sizes p' (mem_cons_of_mem p hp')

/-!
## Histories of calls
-/

inductive Call where
  | send (nonblock : Bool) (ptr : Buffer) (len prio : Nat) (addr : Option Nat)
      (ret : Int)
  | timedsend (nonblock : Bool) (ptr : Buffer) (len prio : Nat)
      (timeout : Option Nat) (addr : Option Nat) (ret : Int)
  | receive (nonblock : Bool) (buf : Buffer) (len : Nat) (prio : Bool)
      (ret : Int)
  | timedreceive (nonblock : Bool) (buf : Buffer) (len : Nat) (prio : Bool)
      (timeout : Option Nat) (ret : Int)

/-- A queue and the priority queue that its list stands for. -/
structure History where
  mq : Queue
  spec : PriorityQueue.State Message

def afterSend (spec : PriorityQueue.State Message) (m : Message) :
    Int × Queue -> History
  | (r, mq) => {
      mq := mq
      spec := if r = 0 then spec.accept Message.prio m else spec }

def afterReceive (spec : PriorityQueue.State Message) :
    Reply × Queue -> History
  | (Reply.failed, mq) => { mq := mq, spec := spec }
  | (Reply.message _ _ _, mq) => { mq := mq, spec := spec.deliver }

def Satisfied : Option Nat -> Int -> Prop
  | none, ret => ret = 0
  | some _, ret => ret > 0

/--
A call that runs alone.  Memory for a message is fresh, and a wait succeeds only
if what it waits for holds.
-/
inductive Step : History -> Call -> History -> Prop where
  | send {h : History} {nonblock : Bool} {ptr : Buffer} {len prio : Nat}
      {addr : Option Nat} {ret : Int} {out : Int × Queue} :
      (forall a, addr = some a -> Fresh h.mq a) ->
      (Satisfied none ret -> h.mq.curmsgs < h.mq.maxmsg) ->
      mqueueSend h.mq nonblock ptr len prio addr ret = some out ->
      Step h (Call.send nonblock ptr len prio addr ret)
        (afterSend h.spec (sentMessage ptr len prio) out)
  | timedsend {h : History} {nonblock : Bool} {ptr : Buffer} {len prio : Nat}
      {timeout : Option Nat} {addr : Option Nat} {ret : Int}
      {out : Int × Queue} :
      (forall a, addr = some a -> Fresh h.mq a) ->
      (Satisfied timeout ret -> h.mq.curmsgs < h.mq.maxmsg) ->
      mqueueTimedsend h.mq nonblock ptr len prio timeout addr ret = some out ->
      Step h (Call.timedsend nonblock ptr len prio timeout addr ret)
        (afterSend h.spec (sentMessage ptr len prio) out)
  | receive {h : History} {nonblock : Bool} {buf : Buffer} {len : Nat}
      {prio : Bool} {ret : Int} {out : Reply × Queue} :
      (Satisfied none ret -> h.mq.curmsgs > 0) ->
      mqueueReceive h.mq nonblock buf len prio ret = some out ->
      Step h (Call.receive nonblock buf len prio ret) (afterReceive h.spec out)
  | timedreceive {h : History} {nonblock : Bool} {buf : Buffer} {len : Nat}
      {prio : Bool} {timeout : Option Nat} {ret : Int} {out : Reply × Queue} :
      (Satisfied timeout ret -> h.mq.curmsgs > 0) ->
      mqueueTimedreceive h.mq nonblock buf len prio timeout ret = some out ->
      Step h (Call.timedreceive nonblock buf len prio timeout ret)
        (afterReceive h.spec out)

theorem sendEnter_ready (h : sendEnter mq nonblock len = .ready) :
    len <= asUnsigned mq.msgsize ∧ mq.curmsgs < mq.maxmsg := by
  unfold sendEnter at h
  by_cases hlen : len > asUnsigned mq.msgsize
  · rw [if_pos hlen] at h
    cases h
  by_cases hfull : mq.curmsgs >= mq.maxmsg
  · rw [if_neg hlen, if_pos hfull] at h
    cases nonblock <;> cases h
  · exact ⟨Nat.le_of_not_lt hlen, Int.not_le.mp hfull⟩

theorem sendEnter_waits (h : sendEnter mq nonblock len = .waits) :
    len <= asUnsigned mq.msgsize ∧ mq.maxmsg <= mq.curmsgs := by
  unfold sendEnter at h
  by_cases hlen : len > asUnsigned mq.msgsize
  · rw [if_pos hlen] at h
    cases h
  by_cases hfull : mq.curmsgs >= mq.maxmsg
  · exact ⟨Nat.le_of_not_lt hlen, hfull⟩
  · rw [if_neg hlen, if_neg hfull] at h
    cases h

theorem receiveEnter_eq (hlen : asUnsigned mq.msgsize <= len) :
    receiveEnter mq nonblock len =
      if mq.curmsgs = 0 then
        if nonblock then .failed else .waits
      else .ready := by
  unfold receiveEnter
  rw [if_neg (Nat.not_lt_of_le hlen)]

/-- The message of a send that finishes is in the queue, or there is no memory. -/
theorem Refines.sendFinish (h : Refines mq q)
    (hfresh : forall a, addr = some a -> Fresh mq a)
    (hlen : len <= asUnsigned mq.msgsize) (stamp : Nat)
    (hout : sendFinish mq ptr len prio addr = some out) :
    out = (-1, mq) ∨ exists mq', out = (0, mq') ∧ mq'.maxmsg = mq.maxmsg ∧
      mq'.msgsize = mq.msgsize ∧
      Refines mq' (PriorityQueue.insert (fun p => p.1.prio)
        (sentMessage ptr len prio, stamp) q) := by
  cases addr with
  | none =>
    cases hout
    exact Or.inl rfl
  | some a =>
    right
    unfold Mqueue.sendFinish at hout
    by_cases hwrap : 16 + len >= 2 ^ 32
    · simp only [hwrap, if_true] at hout
      cases hout
    simp only [hwrap, if_false] at hout
    rcases h.insert (hfresh a rfl) (m := sentMessage ptr len prio) hlen stamp with
      ⟨mq', hinsert, hmax, hsize, hrefines⟩
    rw [hinsert] at hout
    cases hout
    exact ⟨mq', rfl, hmax, hsize, hrefines⟩

theorem Refines.receiveFinish (h : Refines mq (p :: q)) (buf : Buffer)
    (hlen : asUnsigned mq.msgsize <= len) (prio : Bool) :
    exists mq', receiveFinish mq buf len prio =
        some (.message (asInt p.1.len) (memcpy buf 0 p.1.data 0 p.1.len)
          (if prio then some p.1.prio else none), mq') ∧
      mq'.maxmsg = mq.maxmsg ∧ mq'.msgsize = mq.msgsize ∧ Refines mq' q := by
  rcases h.takeFirst with ⟨mq', htake, hmax, hsize, hrefines⟩
  refine ⟨mq', ?_, hmax, hsize, hrefines⟩
  have hmin : min len p.1.len = p.1.len :=
    Nat.min_eq_right (Nat.le_trans (h.sizes p mem_cons_self) hlen)
  unfold Mqueue.receiveFinish
  rw [htake, Option.map_some]
  simp only [hmin]

/-- The list is in order, and stands for the priority queue. -/
structure Sound (h : History) : Prop where
  ordered : PriorityQueue.Ordered Message.prio h.spec
  refines : Refines h.mq h.spec.queue

variable {h : History}

theorem Sound.sent (hsound : Sound h)
    (hfresh : forall a, addr = some a -> Fresh h.mq a)
    (hlen : len <= asUnsigned h.mq.msgsize)
    (hout : sendFinish h.mq ptr len prio addr = some out) :
    Sound (afterSend h.spec (sentMessage ptr len prio) out) := by
  rcases hsound.refines.sendFinish hfresh hlen h.spec.accepted.length hout with
    rfl | ⟨mq', rfl, _, _, hrefines⟩
  · exact hsound
  · exact ⟨hsound.ordered.accept _, hrefines⟩

/-- A call that has to wait comes back without success when it runs alone. -/
theorem mqueueTimedsend_cases (timeout : Option Nat)
    (hwait : Satisfied timeout ret -> mq.curmsgs < mq.maxmsg)
    (h : mqueueTimedsend mq nonblock ptr len prio timeout addr ret = some out) :
    out = (-1, mq) ∨ len <= asUnsigned mq.msgsize ∧
      sendFinish mq ptr len prio addr = some out := by
  unfold mqueueTimedsend mqueueSend at h
  cases henter : sendEnter mq nonblock len with
  | failed =>
    cases timeout <;>
    · simp only [henter] at h
      cases h
      exact Or.inl rfl
  | ready =>
    cases timeout <;>
    · simp only [henter] at h
      exact Or.inr ⟨(sendEnter_ready henter).left, h⟩
  | waits =>
    have hfull := (sendEnter_waits henter).right
    cases timeout with
    | none =>
      simp only [henter] at h
      have hret : ret ≠ 0 := by
        intro hzero
        have hroom := hwait hzero
        omega
      rw [if_pos hret] at h
      cases h
      exact Or.inl rfl
    | some t =>
      simp only [henter] at h
      have hret : ret <= 0 := by
        by_contra hpos
        have hroom := hwait (Int.not_le.mp hpos)
        omega
      rw [if_pos hret] at h
      cases h
      exact Or.inl rfl

theorem mqueueTimedreceive_eq (nonblock : Bool) (buf : Buffer) (len : Nat)
    (prio : Bool) (hwait : Satisfied timeout ret -> mq.curmsgs > 0) :
    mqueueTimedreceive mq nonblock buf len prio timeout ret =
      if len < asUnsigned mq.msgsize ∨ mq.curmsgs = 0 then
        some (.failed, mq)
      else receiveFinish mq buf len prio := by
  unfold mqueueTimedreceive mqueueReceive
  by_cases hlen : len < asUnsigned mq.msgsize
  · have henter : receiveEnter mq nonblock len = .failed := by
      unfold receiveEnter
      rw [if_pos hlen]
    rw [if_pos (Or.inl hlen)]
    cases timeout <;> simp only [henter]
  rw [receiveEnter_eq (Nat.le_of_not_lt hlen)]
  by_cases hzero : mq.curmsgs = 0
  · rw [if_pos hzero, if_pos (Or.inr hzero)]
    have hunsat : ¬ Satisfied timeout ret := by
      intro hsat
      have hpos := hwait hsat
      omega
    cases nonblock with
    | true => cases timeout <;> rfl
    | false =>
      cases timeout with
      | none =>
        have hret : ret ≠ 0 := hunsat
        simp only [Bool.false_eq_true, if_false, hret, ne_eq,
          not_false_eq_true, if_true]
      | some t =>
        have hret : ret <= 0 := Int.not_lt.mp hunsat
        simp only [Bool.false_eq_true, if_false, hret, if_true]
  · have hready : ¬ (len < asUnsigned mq.msgsize ∨ mq.curmsgs = 0) := by omega
    rw [if_neg hzero, if_neg hready]
    cases timeout <;> rfl

theorem Sound.timedreceive (hsound : Sound h) (nonblock : Bool) (buf : Buffer)
    (len : Nat) (prio : Bool)
    (hwait : Satisfied timeout ret -> h.mq.curmsgs > 0) :
    (mqueueTimedreceive h.mq nonblock buf len prio timeout ret =
        some (.failed, h.mq) ∧
      (len < asUnsigned h.mq.msgsize ∨ h.spec.queue = [])) ∨
    exists p rest mq', h.spec.queue = p :: rest ∧
      mqueueTimedreceive h.mq nonblock buf len prio timeout ret =
        some (.message (asInt p.1.len) (memcpy buf 0 p.1.data 0 p.1.len)
          (if prio then some p.1.prio else none), mq') ∧ Refines mq' rest := by
  have hcount := hsound.refines.count
  rw [mqueueTimedreceive_eq nonblock buf len prio hwait]
  cases hqueue : h.spec.queue with
  | nil =>
    rw [hqueue] at hcount
    have hzero : h.mq.curmsgs = 0 := hcount
    rw [if_pos (Or.inr hzero)]
    exact Or.inl ⟨rfl, Or.inr rfl⟩
  | cons p rest =>
    rw [hqueue, length_cons] at hcount
    by_cases hlen : len < asUnsigned h.mq.msgsize
    · rw [if_pos (Or.inl hlen)]
      exact Or.inl ⟨rfl, Or.inl hlen⟩
    · have hrefines := hsound.refines
      rw [hqueue] at hrefines
      rcases hrefines.receiveFinish buf (Nat.le_of_not_lt hlen) prio with
        ⟨mq', hfinish, _, _, hrest⟩
      rw [if_neg (by omega)]
      exact Or.inr ⟨p, rest, mq', rfl, hfinish, hrest⟩

theorem Sound.received (hsound : Sound h) {buf : Buffer} {prio : Bool}
    (timeout : Option Nat) {out : Reply × Queue}
    (hwait : Satisfied timeout ret -> h.mq.curmsgs > 0)
    (hout : mqueueTimedreceive h.mq nonblock buf len prio timeout ret =
      some out) : Sound (afterReceive h.spec out) := by
  rcases hsound.timedreceive nonblock buf len prio hwait with
    ⟨hfail, _⟩ | ⟨p, rest, mq', hqueue, htake, hrest⟩
  · rw [hfail] at hout
    cases hout
    exact hsound
  · rw [htake] at hout
    cases hout
    refine ⟨hsound.ordered.deliver, ?_⟩
    show Refines mq' h.spec.queue.tail
    rw [hqueue]
    exact hrest

theorem Sound.step {h' : History} {call : Call} (hsound : Sound h)
    (hstep : Step h call h') : Sound h' := by
  cases hstep with
  | send hfresh hwait hout =>
    rcases mqueueTimedsend_cases none hwait hout with rfl | ⟨hlen, hfinish⟩
    · exact hsound
    · exact hsound.sent hfresh hlen hfinish
  | timedsend hfresh hwait hout =>
    rcases mqueueTimedsend_cases _ hwait hout with rfl | ⟨hlen, hfinish⟩
    · exact hsound
    · exact hsound.sent hfresh hlen hfinish
  | receive hwait hout => exact hsound.received none hwait hout
  | timedreceive hwait hout => exact hsound.received _ hwait hout

def opened (links : Links Node) (msgs : Nat -> Message) (maxmsg msgsize : Int) :
    History where
  mq := mqueueOpen links msgs maxmsg msgsize
  spec := PriorityQueue.empty

end Mqueue
end Ipc
end Horizon
