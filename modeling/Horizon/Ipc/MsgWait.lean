import Horizon.Ipc.Msg
import Horizon.Lib.Transition
import Mathlib.Data.List.Nodup

/-!
# Waiting for messages

The table of message queues, threads that call `msgget`, `msgsnd` and `msgrcv`,
and where each thread is between the sections under `msg_lock`.  A thread that
waits puts itself into the list of receivers, gives up the lock and blocks only
then.
-/

namespace Horizon
namespace Ipc
namespace Msg

open List Bytes Transition
open Errno

/-- A slot of `msg_queues` and `msg_ids`. -/
structure Entry where
  id : Nat
  key : Nat
  queue : Queue

/-- Where a thread is; the type is the one that it waits for. -/
inductive Phase where
  | idle
  | registered (slot : Nat) (msgtyp : Int)
  | blocked (slot : Nat) (msgtyp : Int)
  | woken (slot : Nat) (receiver : Receiver)
  | sendRegistered (slot : Nat)
  | sendBlocked (slot : Nat)
  | sendWoken (slot : Nat)

structure System where
  slots : Nat -> Option Entry
  nextId : Nat
  phase : Nat -> Phase

def findEntry (slots : Nat -> Option Entry) (test : Entry -> Bool) :
    Option (Nat × Entry) :=
  (List.range msgQueuesMax).findSome? fun i =>
    match slots i with
    | some e => if test e then some (i, e) else none
    | none => none

def emptyQueue : Queue where
  qnum := 0
  messages := []
  receivers := []
  senders := []

def msgget (s : System) (key flags : Nat) (mem : Bool) : Int × System :=
  match findEntry s.slots fun e => e.key = key with
  | some (_, e) =>
      if flags &&& ipcExcl ≠ 0 then (-eexist, s) else (asInt e.id, s)
  | none =>
      if flags &&& ipcCreat = 0 then (-enoent, s)
      else
        match (List.range msgQueuesMax).find? fun i => (s.slots i).isNone with
        | none => (-enospc, s)
        | some slot =>
            if mem = false then (-enomem, s)
            else
              let e := { id := s.nextId, key := key, queue := emptyQueue }
              (asInt s.nextId, { s with
                slots := Function.update s.slots slot (some e)
                nextId := (s.nextId + 1) % 2 ^ 32 })

def System.setQueue (s : System) (slot : Nat) (e : Entry) (q : Queue) : System :=
  { s with slots := Function.update s.slots slot (some { e with queue := q }) }

def System.setPhase (s : System) (t : Nat) (p : Phase) : System :=
  { s with phase := Function.update s.phase t p }

/-- `sched_unblock_thread`, which does nothing for a thread that is not blocked. -/
def System.wakeReceiver (s : System) (slot : Nat) (r : Receiver) : System :=
  match s.phase r.thread with
  | Phase.blocked _ _ => s.setPhase r.thread (Phase.woken slot r)
  | _ => s

def System.wakeSender (s : System) : Option Nat -> System
  | none => s
  | some t =>
      match s.phase t with
      | Phase.sendBlocked slot => s.setPhase t (Phase.sendWoken slot)
      | _ => s

inductive SendResult where
  | failed (r : Int)
  | queued (slot : Nat) (m : Message)
  | handed (slot : Nat) (m : Message) (receiver : Receiver)
  | waits (slot : Nat)

def msgsnd (stray : Nat) (s : System) (t : Nat) (msqid : Int) (msgp : Buffer)
    (msgsz flags : Nat) (mem : Bool) : Option (SendResult × System) :=
  if msgsz > msgMaxSize then some (SendResult.failed (-einval), s)
  else if mtypeOf msgp <= 0 then some (SendResult.failed (-einval), s)
  else
    match findEntry s.slots fun e => e.id = asUnsigned msqid with
    | none => some (SendResult.failed (-einval), s)
    | some (slot, e) =>
        match msgsndQueue stray e.queue t msgp msgsz flags mem with
        | none => none
        | some (Sent.failed r) => some (SendResult.failed r, s)
        | some (Sent.queued q) =>
            some (SendResult.queued slot (message msgp msgsz),
              s.setQueue slot e q)
        | some (Sent.handed r q) =>
            some (SendResult.handed slot (message msgp msgsz) r,
              (s.setQueue slot e q).wakeReceiver slot r)
        | some (Sent.waits q) =>
            some (SendResult.waits slot,
              (s.setQueue slot e q).setPhase t (Phase.sendRegistered slot))

inductive ReceiveResult where
  | failed (r : Int)
  | took (slot : Nat) (m : Message) (size : Nat) (buf : Buffer)
  | waits (slot : Nat)

def msgrcv (s : System) (t : Nat) (msqid : Int) (buf : Buffer) (msgsz : Nat)
    (msgtyp : Int) (flags : Nat) (mem : Bool) : ReceiveResult × System :=
  match findEntry s.slots fun e => e.id = asUnsigned msqid with
  | none => (ReceiveResult.failed (-einval), s)
  | some (slot, e) =>
      match msgrcvQueue e.queue t buf msgsz msgtyp flags mem with
      | Received.failed r => (ReceiveResult.failed r, s)
      | Received.took m size buf q woken =>
          (ReceiveResult.took slot m size buf,
            (s.setQueue slot e q).wakeSender woken)
      | Received.waits q =>
          (ReceiveResult.waits slot,
            (s.setQueue slot e q).setPhase t (Phase.registered slot msgtyp))

/-!
## Histories
-/

inductive Label where
  | get (key flags : Nat) (mem : Bool)
  | send (t : Nat) (msqid : Int) (msgp : Buffer) (msgsz flags : Nat)
      (mem : Bool)
  | receive (t : Nat) (msqid : Int) (buf : Buffer) (msgsz : Nat) (msgtyp : Int)
      (flags : Nat) (mem : Bool)
  | block (t : Nat)
  | resume (t : Nat)

/--
The system with, for every slot, the messages whose `msgsnd` returned zero and
the messages that were given to receivers, with the type that each asked for.
-/
structure History where
  system : System
  sent : Nat -> List Message
  given : Nat -> List (Message × Int)

def initial : History where
  system := {
    slots := fun _ => none
    nextId := 1
    phase := fun _ => Phase.idle }
  sent := fun _ => []
  given := fun _ => []

def History.send (h : History) (slot : Nat) (m : Message) : History :=
  { h with sent := Function.update h.sent slot (h.sent slot ++ [m]) }

def History.give (h : History) (slot : Nat) (m : Message) (msgtyp : Int) :
    History :=
  { h with
    given := Function.update h.given slot (h.given slot ++ [(m, msgtyp)]) }

def recordSend (h : History) : SendResult × System -> History
  | (SendResult.queued slot m, s) => { h with system := s }.send slot m
  | (SendResult.handed slot m r, s) =>
      ({ h with system := s }.send slot m).give slot m r.type
  | (_, s) => { h with system := s }

def recordReceive (h : History) (msgtyp : Int) :
    ReceiveResult × System -> History
  | (ReceiveResult.took slot m _ _, s) =>
      { h with system := s }.give slot m msgtyp
  | (_, s) => { h with system := s }

/--
A step of a thread.  There is none where memory is corrupted, nor for a sender
that was woken: it unlinks its record, which `msgrcv` has unlinked.
-/
def step (stray : Nat) (h : History) : Label -> Option History
  | Label.get key flags mem =>
      some { h with system := (msgget h.system key flags mem).2 }
  | Label.send t msqid msgp msgsz flags mem =>
      match h.system.phase t with
      | Phase.idle => (msgsnd stray h.system t msqid msgp msgsz flags mem).map
          (recordSend h)
      | _ => none
  | Label.receive t msqid buf msgsz msgtyp flags mem =>
      match h.system.phase t with
      | Phase.idle => some (recordReceive h msgtyp
          (msgrcv h.system t msqid buf msgsz msgtyp flags mem))
      | _ => none
  | Label.block t =>
      match h.system.phase t with
      | Phase.registered slot msgtyp => some { h with
          system := h.system.setPhase t (Phase.blocked slot msgtyp) }
      | Phase.sendRegistered slot => some { h with
          system := h.system.setPhase t (Phase.sendBlocked slot) }
      | _ => none
  | Label.resume t =>
      match h.system.phase t with
      | Phase.woken _ _ => some { h with
          system := h.system.setPhase t Phase.idle }
      | _ => none

/--
The condition on a valid `msgsnd`.  It does not wait for room.  If some receiver
waits for any type or for the type of the message, the first one is blocked and
has room for it.  Otherwise no request is satisfied, and the word behind the
queue is less than the size.
-/
def SendOk (stray : Nat) (s : System) (msqid : Int) (msgp : Buffer)
    (msgsz flags : Nat) : Prop :=
  msgsz <= msgMaxSize -> 0 < mtypeOf msgp -> forall slot e,
    findEntry s.slots (fun e => e.id = asUnsigned msqid) = some (slot, e) ->
    if e.queue.qnum >= msgMaxMsgs then flags &&& ipcNowait ≠ 0
    else
      match e.queue.receivers.find? (takes (mtypeOf msgp)) with
      | some r => msgsz <= r.size ∧ s.phase r.thread = Phase.blocked slot r.type
      | none => stray < msgsz ∧ forall r, r ∈ e.queue.receivers ->
          ¬ Accepts r.type (mtypeOf msgp)

def LabelOk (stray : Nat) (h : History) : Label -> Prop
  | Label.send _ msqid msgp msgsz flags _ =>
      SendOk stray h.system msqid msgp msgsz flags
  | _ => True

variable {t slot flags msgsz slot' stray : Nat} {e : Entry}
    {msqid mtype msgtyp : Int} {m : Message} {r r' : Receiver} {s s' : System}
    {q : Queue} {h h' : History} {p : Phase} {msgp : Buffer} {mem : Bool}

theorem findEntry_some {slots : Nat -> Option Entry} {test : Entry -> Bool}
    (h : findEntry slots test = some (slot, e)) : slots slot = some e := by
  rcases exists_of_findSome?_eq_some h with ⟨i, _, hi⟩
  cases hslot : slots i with
  | none =>
    rw [hslot] at hi
    cases hi
  | some e' =>
    simp only [hslot] at hi
    split at hi
    case isTrue htest =>
      cases hi
      exact hslot
    case isFalse htest =>
      cases hi

theorem accepts_of_takes (hpos : 0 < mtype) (h : takes mtype r = true) :
    Accepts r.type mtype := by
  rcases of_decide_eq_true h with hzero | htype
  · exact Or.inl hzero
  · exact Or.inr (Or.inl ⟨by omega, htype.symm⟩)

/-!
## The invariant
-/

def Waits (s : System) (t slot : Nat) (msgtyp : Int) : Prop :=
  s.phase t = Phase.registered slot msgtyp ∨
    s.phase t = Phase.blocked slot msgtyp

theorem Waits.slot_eq {msgtyp' : Int} (h : Waits s t slot msgtyp)
    (h' : Waits s t slot' msgtyp') : slot = slot' := by
  rcases h with h | h <;> rcases h' with h' | h' <;> rw [h] at h' <;>
    cases h' <;> rfl

/-- The receivers of a queue wait, and no message in it is for one of them. -/
structure QueueOk (s : System) (slot : Nat) (q : Queue) : Prop where
  senders : q.senders = []
  unwanted : forall r, r ∈ q.receivers -> forall m, m ∈ q.messages ->
    ¬ Accepts r.type m.type
  waiting : forall r, r ∈ q.receivers -> Waits s r.thread slot r.type
  single : (q.receivers.map Receiver.thread).Nodup

def Listed (s : System) : Prop :=
  forall t slot msgtyp, Waits s t slot msgtyp -> exists e r,
    s.slots slot = some e ∧ r ∈ e.queue.receivers ∧ r.thread = t ∧
      r.type = msgtyp

structure SystemOk (s : System) : Prop where
  queues : forall slot e, s.slots slot = some e -> QueueOk s slot e.queue
  listed : Listed s

structure LogsOk (h : History) : Prop where
  kept : forall slot e, h.system.slots slot = some e ->
    (h.sent slot).Perm ((h.given slot).map Prod.fst ++ e.queue.messages)
  fresh : forall slot, h.system.slots slot = none ->
    h.sent slot = [] ∧ h.given slot = []
  matched : forall slot p, p ∈ h.given slot -> Accepts p.2 p.1.type

theorem QueueOk.congr (h : QueueOk s slot q)
    (hphase : forall r, r ∈ q.receivers ->
      Waits s r.thread slot r.type -> Waits s' r.thread slot r.type) :
    QueueOk s' slot q :=
  ⟨h.senders, h.unwanted, fun r hr => hphase r hr (h.waiting r hr), h.single⟩

theorem SystemOk.congr (h : SystemOk s) (hslots : s'.slots = s.slots)
    (hwaits : forall t slot msgtyp,
      Waits s' t slot msgtyp <-> Waits s t slot msgtyp) : SystemOk s' := by
  constructor
  · intro slot e he
    rw [hslots] at he
    exact (h.queues slot e he).congr fun r _ => (hwaits _ _ _).mpr
  · intro t slot msgtyp ht
    rw [hslots]
    exact h.listed t slot msgtyp ((hwaits _ _ _).mp ht)

theorem SystemOk.update (h : SystemOk s)
    (hslots : s'.slots = Function.update s.slots slot (some e))
    (hqueue : QueueOk s' slot e.queue)
    (hother : forall t slot' msgtyp, slot' ≠ slot ->
      (Waits s' t slot' msgtyp <-> Waits s t slot' msgtyp))
    (hlisted : forall t msgtyp, Waits s' t slot msgtyp ->
      exists r, r ∈ e.queue.receivers ∧ r.thread = t ∧ r.type = msgtyp) :
    SystemOk s' := by
  constructor
  · intro slot' e' he'
    rw [hslots, Function.update_apply] at he'
    split at he'
    case isTrue hslot =>
      cases he'
      rw [hslot]
      exact hqueue
    case isFalse hslot =>
      exact (h.queues slot' e' he').congr fun r _ => (hother _ _ _ hslot).mpr
  · intro t slot' msgtyp ht
    rw [hslots, Function.update_apply]
    split
    case isTrue hslot =>
      rw [hslot] at ht
      exact ⟨e, (hlisted t msgtyp ht).imp fun r hr => ⟨rfl, hr⟩⟩
    case isFalse hslot =>
      exact h.listed t slot' msgtyp ((hother _ _ _ hslot).mp ht)

theorem LogsOk.update (hlogs : LogsOk h)
    (hslots : h'.system.slots = Function.update h.system.slots slot (some e))
    (hsent : forall k, k ≠ slot -> h'.sent k = h.sent k)
    (hgiven : forall k, k ≠ slot -> h'.given k = h.given k)
    (hkept : (h'.sent slot).Perm
      ((h'.given slot).map Prod.fst ++ e.queue.messages))
    (hmatched : forall p, p ∈ h'.given slot -> Accepts p.2 p.1.type) :
    LogsOk h' := by
  refine ⟨?_, ?_, ?_⟩
  · intro k e' he'
    rw [hslots, Function.update_apply] at he'
    split at he'
    case isTrue hk =>
      cases he'
      rw [hk]
      exact hkept
    case isFalse hk =>
      rw [hsent k hk, hgiven k hk]
      exact hlogs.kept k e' he'
  · intro k hnone
    rw [hslots, Function.update_apply] at hnone
    split at hnone
    · cases hnone
    case isFalse hk =>
      rw [hsent k hk, hgiven k hk]
      exact hlogs.fresh k hnone
  · intro k p hp
    by_cases hk : k = slot
    · subst hk
      exact hmatched p hp
    · rw [hgiven k hk] at hp
      exact hlogs.matched k p hp

theorem LogsOk.congr (hlogs : LogsOk h) (hslots : s.slots = h.system.slots) :
    LogsOk { h with system := s } := by
  refine ⟨?_, ?_, hlogs.matched⟩
  · intro slot e he
    exact hlogs.kept slot e (hslots ▸ he)
  · intro slot hnone
    exact hlogs.fresh slot (hslots ▸ hnone)

theorem LogsOk.matched_give (hlogs : LogsOk h)
    (haccepts : Accepts msgtyp m.type) (p : Message × Int)
    (hp : p ∈ (h.give slot m msgtyp).given slot) : Accepts p.2 p.1.type := by
  simp only [History.give, Function.update_self] at hp
  rcases mem_append.mp hp with hp | hp
  · exact hlogs.matched slot p hp
  · rw [mem_singleton.mp hp]
    exact haccepts

structure Sound (h : History) : Prop where
  system : SystemOk h.system
  logs : LogsOk h

theorem SystemOk.receiver_of_waits (h : SystemOk s) (he : s.slots slot = some e)
    (ht : Waits s t slot msgtyp) :
    exists r, r ∈ e.queue.receivers ∧ r.thread = t ∧ r.type = msgtyp := by
  rcases h.listed t slot msgtyp ht with ⟨e', r, he', hr, hthread, htype⟩
  rw [he] at he'
  cases he'
  exact ⟨r, hr, hthread, htype⟩

theorem SystemOk.setQueue (h : SystemOk s) (he : s.slots slot = some e)
    (hreceivers : q.receivers = e.queue.receivers) (hsenders : q.senders = [])
    (hunwanted : forall r, r ∈ q.receivers -> forall m, m ∈ q.messages ->
      ¬ Accepts r.type m.type) : SystemOk (s.setQueue slot e q) := by
  have hold := h.queues slot e he
  apply h.update (e := { e with queue := q }) rfl
  · refine ⟨hsenders, hunwanted, ?_, ?_⟩
    · rw [hreceivers]
      exact hold.waiting
    · rw [hreceivers]
      exact hold.single
  · exact fun _ _ _ _ => Iff.rfl
  · intro t msgtyp ht
    show exists r, r ∈ q.receivers ∧ _
    rw [hreceivers]
    exact h.receiver_of_waits he ht

/-!
## Steps
-/

theorem cons_eraseP_perm {α : Type} {test : α -> Bool} {a : α} {l : List α}
    (h : l.find? test = some a) : (a :: l.eraseP test).Perm l := by
  rcases List.find?_eq_some_iff_append.mp h with ⟨ha, xs, ys, rfl, hxs⟩
  have herase : (xs ++ a :: ys).eraseP test = xs ++ ys := by
    rw [eraseP_append_right, eraseP_cons_of_pos ha]
    intro x hx hx'
    have hnot := hxs x hx
    rw [hx'] at hnot
    cases hnot
  rw [herase]
  exact perm_middle.symm

theorem waits_setPhase_of_ne {t' : Nat} (h : t' ≠ t) :
    Waits (s.setPhase t p) t' slot msgtyp <-> Waits s t' slot msgtyp := by
  have hphase : (s.setPhase t p).phase t' = s.phase t' :=
    Function.update_of_ne h ..
  unfold Waits
  rw [hphase]

theorem phase_setPhase (s : System) (t : Nat) (p : Phase) :
    (s.setPhase t p).phase t = p :=
  Function.update_self ..

theorem waits_setPhase_self :
    Waits (s.setPhase t p) t slot msgtyp <->
      p = .registered slot msgtyp ∨ p = .blocked slot msgtyp := by
  unfold Waits
  rw [phase_setPhase]

theorem Sound.queued (hsound : Sound h) (he : h.system.slots slot = some e)
    (hunwanted : forall r, r ∈ e.queue.receivers -> ¬ Accepts r.type m.type) :
    Sound ({ h with
      system := h.system.setQueue slot e (enqueue e.queue m) }.send slot m) := by
  have hold := hsound.system.queues slot e he
  constructor
  · apply hsound.system.setQueue (q := enqueue e.queue m) he rfl hold.senders
    intro r hr m' hm'
    rcases mem_append.mp hm' with hm' | hm'
    · exact hold.unwanted r hr m' hm'
    · rw [mem_singleton.mp hm']
      exact hunwanted r hr
  · apply hsound.logs.update (e := { e with queue := enqueue e.queue m }) rfl
    · exact fun k hk => Function.update_of_ne hk ..
    · exact fun _ _ => rfl
    · show (Function.update h.sent slot (h.sent slot ++ [m]) slot).Perm
        ((h.given slot).map Prod.fst ++ (e.queue.messages ++ [m]))
      rw [Function.update_self, ← append_assoc]
      exact (hsound.logs.kept slot e he).append_right [m]
    · exact hsound.logs.matched slot

theorem Sound.took (hsound : Sound h) (he : h.system.slots slot = some e)
    (hfind : e.queue.messages.find? (wanted msgtyp) = some m)
    (hmessages : q.messages = e.queue.messages.eraseP (wanted msgtyp))
    (hreceivers : q.receivers = e.queue.receivers) (hsenders : q.senders = []) :
    Sound ({ h with system := h.system.setQueue slot e q }.give slot m
      msgtyp) := by
  have hold := hsound.system.queues slot e he
  constructor
  · apply hsound.system.setQueue he hreceivers hsenders
    intro r hr m' hm'
    rw [hreceivers] at hr
    rw [hmessages] at hm'
    exact hold.unwanted r hr m' (mem_of_mem_eraseP hm')
  · apply hsound.logs.update (e := { e with queue := q }) rfl
    · exact fun _ _ => rfl
    · exact fun k hk => Function.update_of_ne hk ..
    · show (h.sent slot).Perm
        ((Function.update h.given slot (h.given slot ++ [(m, msgtyp)])
          slot).map Prod.fst ++ q.messages)
      have hperm : (m :: q.messages).Perm e.queue.messages := by
        rw [hmessages]
        exact cons_eraseP_perm hfind
      rw [Function.update_self, map_append, append_assoc]
      exact (hsound.logs.kept slot e he).trans (hperm.symm.append_left _)
    · exact hsound.logs.matched_give (accepts_of_wanted (List.find?_some hfind))

/-- A thread moves between phases while its queue changes. -/
theorem SystemOk.setPhase (h : SystemOk s) (he : s.slots slot = some e)
    (hs' : s' = (s.setQueue slot e q).setPhase t p)
    (hsenders : q.senders = []) (hsingle : (q.receivers.map Receiver.thread).Nodup)
    (hunwanted : forall r, r ∈ q.receivers -> forall m, m ∈ q.messages ->
      ¬ Accepts r.type m.type)
    (hthread : forall slot' msgtyp, slot' ≠ slot ->
      ¬ Waits s t slot' msgtyp ∧ ¬ Waits s' t slot' msgtyp)
    (hself : forall msgtyp, Waits s' t slot msgtyp <->
      exists r, r ∈ q.receivers ∧ r.thread = t ∧ r.type = msgtyp)
    (hrest : forall r, r.thread ≠ t ->
      (r ∈ q.receivers <-> r ∈ e.queue.receivers)) : SystemOk s' := by
  have hother : forall t' slot' msgtyp, t' ≠ t ->
      (Waits s' t' slot' msgtyp <-> Waits s t' slot' msgtyp) := by
    intro t' slot' msgtyp ht
    rw [hs']
    exact waits_setPhase_of_ne ht
  apply h.update (e := { e with queue := q }) (by rw [hs']; rfl)
  · refine ⟨hsenders, hunwanted, fun r hr => ?_, hsingle⟩
    by_cases ht : r.thread = t
    · rw [ht]
      exact (hself _).mpr ⟨r, hr, ht, rfl⟩
    · exact (hother _ _ _ ht).mpr
        ((h.queues slot e he).waiting r ((hrest r ht).mp hr))
  · intro t' slot' msgtyp hslot
    by_cases ht : t' = t
    · rw [ht]
      exact iff_of_false (hthread _ _ hslot).right (hthread _ _ hslot).left
    · exact hother t' slot' msgtyp ht
  · intro t' msgtyp hwaits
    by_cases ht : t' = t
    · rw [ht] at hwaits ⊢
      exact (hself msgtyp).mp hwaits
    · rcases h.receiver_of_waits he ((hother _ _ _ ht).mp hwaits) with
        ⟨r, hr, rfl, htype⟩
      exact ⟨r, (hrest r ht).mpr hr, rfl, htype⟩

theorem SystemOk.register (h : SystemOk s) (he : s.slots slot = some e)
    (hidle : s.phase r.thread = .idle) (hempty : q.messages = [])
    (hreceivers : q.receivers = e.queue.receivers ++ [r])
    (hsenders : q.senders = e.queue.senders)
    (hs' : s' = (s.setQueue slot e q).setPhase r.thread
      (.registered slot r.type)) : SystemOk s' := by
  have hold := h.queues slot e he
  have hout : forall slot' msgtyp, ¬ Waits s r.thread slot' msgtyp := by
    intro slot' msgtyp hwaits
    unfold Waits at hwaits
    rw [hidle] at hwaits
    rcases hwaits with hwaits | hwaits <;> cases hwaits
  have hfresh : forall r', r' ∈ e.queue.receivers -> r'.thread ≠ r.thread := by
    intro r' hr' heq
    have hwaits := hold.waiting r' hr'
    rw [heq] at hwaits
    exact hout _ _ hwaits
  have hself : forall slot' msgtyp,
      Waits s' r.thread slot' msgtyp <-> slot = slot' ∧ r.type = msgtyp := by
    intro slot' msgtyp
    rw [hs', waits_setPhase_self]
    simp only [Phase.registered.injEq, reduceCtorEq, or_false]
  have hmem : forall r', r' ∈ q.receivers <-> r' ∈ e.queue.receivers ∨ r' = r := by
    intro r'
    rw [hreceivers, mem_append, mem_singleton]
  apply h.setPhase he hs' (hsenders.trans hold.senders)
  · rw [hreceivers, map_append]
    apply nodup_append.mpr
    refine ⟨hold.single, nodup_singleton _, ?_⟩
    intro t ht t' ht' heq
    rcases mem_map.mp ht with ⟨r', hr', rfl⟩
    rw [mem_singleton.mp ht'] at heq
    exact hfresh r' hr' heq
  · intro r' _ m hm
    rw [hempty] at hm
    cases hm
  · intro slot' msgtyp hslot
    exact ⟨hout _ _, fun hwaits => hslot ((hself _ _).mp hwaits).left.symm⟩
  · intro msgtyp
    rw [hself]
    constructor
    · rintro ⟨_, htype⟩
      exact ⟨r, (hmem r).mpr (Or.inr rfl), rfl, htype⟩
    · rintro ⟨r', hr', hthread, htype⟩
      rcases (hmem r').mp hr' with hr' | rfl
      · exact absurd hthread (hfresh r' hr')
      · exact ⟨rfl, htype⟩
  · intro r' hne
    rw [hmem]
    exact or_iff_left fun heq => hne (by rw [heq])

theorem SystemOk.handed (h : SystemOk s) (he : s.slots slot = some e)
    (hfind : e.queue.receivers.find? (takes mtype) = some r)
    (hblocked : s.phase r.thread = .blocked slot r.type)
    (hq : q = { e.queue with
      receivers := e.queue.receivers.eraseP (takes mtype) })
    (hs' : s' = (s.setQueue slot e q).setPhase r.thread
      (.woken slot r')) : SystemOk s' := by
  have hold := h.queues slot e he
  have hperm : (r :: q.receivers).Perm e.queue.receivers := by
    rw [hq]
    exact cons_eraseP_perm hfind
  have hnodup : (r.thread :: q.receivers.map Receiver.thread).Nodup :=
    (hperm.map Receiver.thread).nodup_iff.mpr hold.single
  have hwoken : forall slot' msgtyp, ¬ Waits s' r.thread slot' msgtyp := by
    intro slot' msgtyp
    rw [hs', waits_setPhase_self]
    simp only [reduceCtorEq, or_self, not_false_eq_true]
  apply h.setPhase he hs' _ (nodup_cons.mp hnodup).right
  · intro r'' hr'' m hm
    rw [hq] at hm
    exact hold.unwanted r'' (hperm.subset (mem_cons_of_mem _ hr'')) m hm
  · intro slot' msgtyp hslot
    refine ⟨fun hwaits => ?_, hwoken _ _⟩
    exact hslot (hwaits.slot_eq (Or.inr hblocked))
  · intro msgtyp
    refine iff_of_false (hwoken _ _) ?_
    rintro ⟨r'', hr'', hthread, _⟩
    exact (nodup_cons.mp hnodup).left (mem_map.mpr ⟨r'', hr'', hthread⟩)
  · intro r'' hne
    rw [← hperm.mem_iff, mem_cons]
    exact (or_iff_right fun heq => hne (by rw [heq])).symm
  · rw [hq]
    exact hold.senders

theorem wakeReceiver_of_blocked (h : s.phase r.thread = .blocked slot' msgtyp) :
    s.wakeReceiver slot r = s.setPhase r.thread (.woken slot r) := by
  unfold System.wakeReceiver
  rw [h]

theorem LogsOk.handed (hlogs : LogsOk h) (he : h.system.slots slot = some e)
    (hmessages : q.messages = e.queue.messages)
    (hslots : s.slots = Function.update h.system.slots slot
      (some { e with queue := q })) (haccepts : Accepts msgtyp m.type) :
    LogsOk (({ h with system := s }.send slot m).give slot m msgtyp) := by
  apply hlogs.update hslots
  · exact fun k hk => Function.update_of_ne hk ..
  · exact fun k hk => Function.update_of_ne hk ..
  · show (Function.update h.sent slot (h.sent slot ++ [m]) slot).Perm
      ((Function.update h.given slot (h.given slot ++ [(m, msgtyp)]) slot).map
        Prod.fst ++ q.messages)
    rw [Function.update_self, Function.update_self, hmessages, map_append,
      append_assoc]
    have hkept := hlogs.kept slot e he
    have hswap : ([m] ++ e.queue.messages).Perm (e.queue.messages ++ [m]) :=
      perm_append_comm
    refine (hkept.append_right [m]).trans ?_
    rw [append_assoc]
    exact hswap.symm.append_left _
  · exact hlogs.matched_give haccepts

theorem Sound.handed (hsound : Sound h) (he : h.system.slots slot = some e)
    (hfind : e.queue.receivers.find? (takes mtype) = some r)
    (hblocked : h.system.phase r.thread = .blocked slot r.type)
    (hthread : r'.thread = r.thread) (hq : q = { e.queue with
      receivers := e.queue.receivers.eraseP (takes mtype) })
    (haccepts : Accepts r'.type m.type) :
    Sound (recordSend h (.handed slot m r',
      (h.system.setQueue slot e q).wakeReceiver slot r')) := by
  have hphase : (h.system.setQueue slot e q).phase r'.thread =
      .blocked slot r.type := by
    rw [hthread]
    exact hblocked
  rw [wakeReceiver_of_blocked hphase, hthread]
  refine ⟨hsound.system.handed he hfind hblocked hq rfl, ?_⟩
  refine hsound.logs.handed he (q := q) ?_ rfl haccepts
  rw [hq]

theorem Sound.register (hsound : Sound h) (he : h.system.slots slot = some e)
    (hidle : h.system.phase r.thread = .idle)
    (hempty : e.queue.messages = []) :
    Sound { h with
      system := (h.system.setQueue slot e
        { e.queue with receivers := e.queue.receivers ++ [r] }).setPhase
          r.thread (.registered slot r.type) } := by
  constructor
  · exact hsound.system.register
      (q := { e.queue with receivers := e.queue.receivers ++ [r] })
      he hidle hempty rfl rfl rfl
  · apply hsound.logs.update (e := { e with queue :=
      { e.queue with receivers := e.queue.receivers ++ [r] } }) rfl
    · exact fun _ _ => rfl
    · exact fun _ _ => rfl
    · exact hsound.logs.kept slot e he
    · exact hsound.logs.matched slot

/-- What a `msgsnd` that meets the condition does to a queue. -/
theorem msgsndQueue_cases {o : Sent}
    (hok : if q.qnum >= msgMaxMsgs then flags &&& ipcNowait ≠ 0
      else
        match q.receivers.find? (takes (mtypeOf msgp)) with
        | some r =>
          msgsz <= r.size ∧ s.phase r.thread = .blocked slot r.type
        | none => stray < msgsz ∧ forall r, r ∈ q.receivers ->
            ¬ Accepts r.type (mtypeOf msgp))
    (h : msgsndQueue stray q t msgp msgsz flags mem = some o) :
    (exists r, o = .failed r) ∨
      (o = .queued (enqueue q (message msgp msgsz)) ∧
        forall r, r ∈ q.receivers -> ¬ Accepts r.type (mtypeOf msgp)) ∨
      exists r, q.receivers.find? (takes (mtypeOf msgp)) = some r ∧
        s.phase r.thread = .blocked slot r.type ∧
        o = .handed
          { r with buf := memcpy r.buf 0 msgp 0 msgsz, received := msgsz }
          { q with receivers := q.receivers.eraseP (takes (mtypeOf msgp)) } := by
  unfold msgsndQueue at h
  by_cases hfull : q.qnum >= msgMaxMsgs
  · rw [if_pos hfull] at hok h
    rw [if_pos hok] at h
    cases h
    exact Or.inl ⟨_, rfl⟩
  rw [if_neg hfull] at hok h
  cases hfind : q.receivers.find? (takes (mtypeOf msgp)) with
  | some r =>
    simp only [hfind] at hok h
    rw [if_pos hok.left] at h
    cases h
    exact Or.inr (Or.inr ⟨r, rfl, hok.right, rfl⟩)
  | none =>
    simp only [hfind] at hok h
    rw [if_neg (Nat.not_le_of_lt hok.left)] at h
    split at h
    case isTrue hmem =>
      cases h
      exact Or.inl ⟨_, rfl⟩
    case isFalse hmem =>
      cases h
      exact Or.inr (Or.inl ⟨rfl, hok.right⟩)

theorem Sound.send (hsound : Sound h)
    (hok : SendOk stray h.system msqid msgp msgsz flags)
    (hstep : (msgsnd stray h.system t msqid msgp msgsz flags mem).map
      (recordSend h) = some h') : Sound h' := by
  rcases Option.map_eq_some_iff.mp hstep with ⟨⟨o, s⟩, hsend, rfl⟩
  unfold msgsnd at hsend
  split at hsend
  · cases hsend
    exact hsound
  case isFalse hsize =>
  split at hsend
  · cases hsend
    exact hsound
  case isFalse htype =>
  have hpos : 0 < mtypeOf msgp := by omega
  split at hsend
  · cases hsend
    exact hsound
  case h_2 slot e hentry =>
  have he := findEntry_some hentry
  have hcond := hok (Nat.le_of_not_lt hsize) hpos slot e hentry
  cases hqueue : msgsndQueue stray e.queue t msgp msgsz flags mem with
  | none =>
    rw [hqueue] at hsend
    cases hsend
  | some o' =>
    rw [hqueue] at hsend
    rcases msgsndQueue_cases hcond hqueue with
      ⟨r, rfl⟩ | ⟨rfl, hunwanted⟩ | ⟨r, hfind, hblocked, rfl⟩
    · cases hsend
      exact hsound
    · cases hsend
      exact hsound.queued he hunwanted
    · cases hsend
      refine hsound.handed he hfind hblocked ?_ ?_ ?_
      · rfl
      · rfl
      · exact accepts_of_takes (r := r) hpos (List.find?_some hfind)

theorem Sound.receive (hsound : Sound h) {buf : Buffer}
    (hidle : h.system.phase t = .idle) :
    Sound (recordReceive h msgtyp
      (msgrcv h.system t msqid buf msgsz msgtyp flags mem)) := by
  unfold msgrcv
  cases hentry : findEntry h.system.slots fun e => e.id = asUnsigned msqid with
  | none => exact hsound
  | some found =>
    obtain ⟨slot, e⟩ := found
    have he := findEntry_some hentry
    have hsenders := (hsound.system.queues slot e he).senders
    unfold msgrcvQueue
    by_cases hempty : e.queue.messages.isEmpty = true
    · simp only [hempty, if_true]
      by_cases hnowait : flags &&& ipcNowait ≠ 0
      · rw [if_pos hnowait]
        exact hsound
      rw [if_neg hnowait]
      by_cases hmem : mem = false
      · rw [if_pos hmem]
        exact hsound
      rw [if_neg hmem]
      have hnil : e.queue.messages = [] := List.isEmpty_iff.mp hempty
      exact hsound.register he (r := {
        thread := t
        type := msgtyp
        mode := flags
        buf := buf
        size := msgsz
        received := 0 }) hidle hnil
    · simp only [hempty, Bool.false_eq_true, if_false]
      cases hfind : e.queue.messages.find? (wanted msgtyp) with
      | none => exact hsound
      | some m =>
        by_cases hbig : m.size > msgsz ∧ flags &&& msgNoerror = 0
        · simp only [hbig, and_self, if_true]
          exact hsound
        · simp only [hbig, if_false]
          rw [hsenders]
          exact hsound.took he hfind rfl rfl rfl

theorem Sound.get (hsound : Sound h) (key flags : Nat) (mem : Bool) :
    Sound { h with system := (msgget h.system key flags mem).2 } := by
  unfold msgget
  cases findEntry h.system.slots fun e => e.key = key with
  | some found =>
    dsimp only
    split <;> exact hsound
  | none =>
    by_cases hcreat : flags &&& ipcCreat = 0
    · simp only [hcreat, if_true]
      exact hsound
    simp only [hcreat, if_false]
    cases hfree : (List.range msgQueuesMax).find?
        fun i => (h.system.slots i).isNone with
    | none => exact hsound
    | some slot =>
      by_cases hmem : mem = false
      · simp only [hmem, if_true]
        exact hsound
      simp only [hmem]
      have hnone : h.system.slots slot = none := by
        have htest := List.find?_some hfree
        exact Option.isNone_iff_eq_none.mp htest
      have hnobody : forall t msgtyp, ¬ Waits h.system t slot msgtyp := by
        intro t msgtyp hwaits
        rcases hsound.system.listed t slot msgtyp hwaits with ⟨e, _, he, _⟩
        rw [hnone] at he
        cases he
      rcases hsound.logs.fresh slot hnone with ⟨hsent, hgiven⟩
      constructor
      · apply hsound.system.update
          (e := { id := h.system.nextId, key := key, queue := emptyQueue }) rfl
        · exact ⟨rfl, nofun, nofun, nodup_nil⟩
        · exact fun _ _ _ _ => Iff.rfl
        · exact fun t msgtyp hwaits => absurd hwaits (hnobody t msgtyp)
      · apply hsound.logs.update
          (e := { id := h.system.nextId, key := key, queue := emptyQueue }) rfl
        · exact fun _ _ => rfl
        · exact fun _ _ => rfl
        · rw [hsent, hgiven]
          exact List.Perm.refl _
        · exact hsound.logs.matched slot

theorem Sound.setPhase (hsound : Sound h) {q : Phase}
    (hphase : h.system.phase t = p) (hwaits : forall slot msgtyp,
      (q = .registered slot msgtyp ∨ q = .blocked slot msgtyp) <->
        (p = .registered slot msgtyp ∨ p = .blocked slot msgtyp)) :
    Sound { h with system := h.system.setPhase t q } := by
  refine ⟨hsound.system.congr rfl ?_, hsound.logs.congr rfl⟩
  intro t' slot msgtyp
  by_cases ht : t' = t
  · rw [ht, waits_setPhase_self]
    unfold Waits
    rw [hphase]
    exact hwaits slot msgtyp
  · exact waits_setPhase_of_ne ht

theorem Sound.step {label : Label} (hsound : Sound h)
    (hok : LabelOk stray h label) (hstep : step stray h label = some h') :
    Sound h' := by
  cases label with
  | get key flags mem =>
    cases hstep
    exact hsound.get key flags mem
  | send t msqid msgp msgsz flags mem =>
    simp only [Msg.step] at hstep
    split at hstep
    · exact hsound.send hok hstep
    · cases hstep
  | receive t msqid buf msgsz msgtyp flags mem =>
    simp only [Msg.step] at hstep
    split at hstep <;> cases hstep
    case h_1 hphase => exact hsound.receive hphase
  | block t =>
    simp only [Msg.step] at hstep
    split at hstep <;> cases hstep
    case h_1 slot msgtyp hphase =>
      apply hsound.setPhase hphase
      intro slot' msgtyp'
      simp only [reduceCtorEq, false_or, or_false, Phase.blocked.injEq,
        Phase.registered.injEq]
    case h_2 slot hphase =>
      apply hsound.setPhase hphase
      intro slot' msgtyp'
      simp only [reduceCtorEq]
  | resume t =>
    simp only [Msg.step] at hstep
    split at hstep <;> cases hstep
    case h_1 slot r hphase =>
      apply hsound.setPhase hphase
      intro slot' msgtyp'
      simp only [reduceCtorEq]

theorem sound_initial : Sound initial := by
  refine ⟨⟨nofun, ?_⟩, ⟨nofun, fun _ _ => ⟨rfl, rfl⟩, nofun⟩⟩
  intro t slot msgtyp hwaits
  rcases hwaits with hwaits | hwaits <;> cases hwaits

/--
As long as every `msgsnd` meets the condition, no thread is blocked while the
queue holds a message that satisfies its request, and a message that was sent
was given to one receiver whose request it satisfies, or is in the queue.
-/
theorem no_lost_wakeup (stray : Nat) (h : History)
    (hreach : Reachable (fun h => h = initial)
      (Guarded (LabelOk stray) (step stray)) h) :
    (forall t slot msgtyp e, h.system.phase t = Phase.blocked slot msgtyp ->
        h.system.slots slot = some e ->
        forall m, m ∈ e.queue.messages -> ¬ Accepts msgtyp m.type) ∧
      forall slot e, h.system.slots slot = some e ->
        (h.sent slot).Perm ((h.given slot).map Prod.fst ++ e.queue.messages) ∧
        forall p, p ∈ h.given slot -> Accepts p.2 p.1.type := by
  have hsound : Sound h := by
    refine hreach.guarded ?_ Sound.step
    rintro h rfl
    exact sound_initial
  constructor
  · intro t slot msgtyp e hblocked he m hm
    rcases hsound.system.receiver_of_waits he (Or.inr hblocked) with
      ⟨r, hr, _, htype⟩
    rw [← htype]
    exact (hsound.system.queues slot e he).unwanted r hr m hm
  · intro slot e he
    exact ⟨hsound.logs.kept slot e he, hsound.logs.matched slot⟩

def created : History := { initial with
  system := {
    slots := Function.update (fun _ => none) 0
      (some { id := 1, key := 5, queue := emptyQueue })
    nextId := 2
    phase := fun _ => Phase.idle } }

def receiverOf (msgtyp : Int) : Receiver := { anyReceiver with type := msgtyp }

def registered (msgtyp : Int) : History := { created with
  system := (created.system.setQueue 0
    { id := 1, key := 5, queue := emptyQueue }
    { emptyQueue with receivers := [receiverOf msgtyp] }).setPhase 1
      (Phase.registered 0 msgtyp) }

def blocked (msgtyp : Int) : History := { registered msgtyp with
  system := (registered msgtyp).system.setPhase 1 (Phase.blocked 0 msgtyp) }

theorem reachable_blocked {ok : History -> Label -> Prop}
    (hok : forall h label, LabelOk 0 h label -> ok h label) (msgtyp : Int) :
    Reachable (fun h => h = initial)
      (Guarded ok (step 0)) (blocked msgtyp) := by
  have hget : Guarded ok (step 0) initial (.get 5 ipcCreat true) created :=
    ⟨hok _ _ trivial, rfl⟩
  have hreceive : Guarded ok (step 0) created
      (.receive 1 1 zeros 10 msgtyp 0 true) (registered msgtyp) :=
    ⟨hok _ _ trivial, rfl⟩
  have hblock : Guarded ok (step 0) (registered msgtyp) (.block 1)
      (blocked msgtyp) := ⟨hok _ _ trivial, rfl⟩
  exact .step (.step (.step (.init rfl) hget) hreceive) hblock

/-- A message is handed to a receiver of any type. -/
theorem no_lost_wakeup_one_handed :
    exists h, step 0 (blocked 0) (Label.send 2 1 (typeFive 65) 1 0 true) =
        some h ∧
      (h.given 0).length = 1 ∧ forall e, h.system.slots 0 = some e ->
        (h.sent 0).Perm ((h.given 0).map Prod.fst ++ e.queue.messages) := by
  have hok : LabelOk 0 (blocked 0) (Label.send 2 1 (typeFive 65) 1 0 true) := by
    intro _ _ slot e hentry
    have hfound : findEntry (blocked 0).system.slots
        (fun e => e.id = asUnsigned 1) =
          some (0, { id := 1, key := 5, queue := oneWaits }) := rfl
    rw [hfound] at hentry
    cases hentry
    exact ⟨by decide, rfl⟩
  refine ⟨_, rfl, rfl, fun e he => ?_⟩
  have hreach := reachable_blocked (fun _ _ h => h) 0
  exact ((no_lost_wakeup 0 _ (hreach.step ⟨hok, rfl⟩)).right 0 e he).left

/-- A receiver of types up to 5 stays blocked while a message of type 5 is there. -/
theorem negative_type_not_woken :
    exists h e m, Reachable (fun h => h = initial)
        (Guarded (fun _ _ => True) (step 0)) h ∧
      h.system.phase 1 = Phase.blocked 0 (-5) ∧
      h.system.slots 0 = some e ∧ m ∈ e.queue.messages ∧ Accepts (-5) m.type := by
  have hreach := reachable_blocked (fun _ _ _ => trivial) (-5)
  have hsend : step 0 (blocked (-5)) (Label.send 2 1 (typeFive 65) 1 0 true) =
      some _ := rfl
  refine ⟨_, _, message (typeFive 65) 1, hreach.step ⟨trivial, hsend⟩, rfl, rfl,
    mem_singleton.mpr rfl, ?_⟩
  exact Or.inr (Or.inr ⟨by decide, by decide⟩)

end Msg
end Ipc
end Horizon
