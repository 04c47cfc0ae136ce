import Horizon.Lib.Bytes
import Horizon.Types

/-!
# System V message queues

This module follows `msgget`, `msgsnd` and `msgrcv` of `ipc/msg.c`, each section
under `msg_lock` as one function.  A receiver that finds the queue empty waits in
a list, and `msgsnd` hands a message to the first receiver there that waits for
its type.  Times, process identifiers and permissions are left out, as nothing
here reads them.
-/

namespace Horizon
namespace Ipc
namespace Msg

open Bytes
open Errno

def msgQueuesMax : Nat := 128

def msgMaxSize : Nat := 8192

def msgMaxMsgs : Nat := 1024

def ipcCreat : Nat := 0x0001

def ipcExcl : Nat := 0x0002

def ipcNowait : Nat := 0x0004

def msgNoerror : Nat := 0x10

/-- `msg_t`. -/
structure Message where
  type : Int
  size : Nat
  data : Buffer

/-- `msg_receiver_t`; `buf` is what the buffer of the receiver holds. -/
structure Receiver where
  thread : Nat
  type : Int
  mode : Nat
  buf : Buffer
  size : Nat
  received : Nat

/-- `msg_queue_t`; of a sender only its thread is read. -/
structure Queue where
  qnum : Nat
  messages : List Message
  receivers : List Receiver
  senders : List Nat

def mtypeOf (msgp : Buffer) : Int := asInt (getU32 msgp 0)

def message (msgp : Buffer) (msgsz : Nat) : Message where
  type := mtypeOf msgp
  size := msgsz
  data := memcpy zeros 0 msgp 4 msgsz

inductive Sent where
  | failed (r : Int)
  | queued (q : Queue)
  | handed (receiver : Receiver) (q : Queue)
  | waits (q : Queue)

def takes (mtype : Int) (r : Receiver) : Bool :=
  r.type = 0 ∨ r.type = mtype

def enqueue (q : Queue) (m : Message) : Queue := { q with
  messages := q.messages ++ [m]
  qnum := q.qnum + 1 }

/--
`msgsnd` on a queue that it has found.  When no receiver takes the message the
loop ends at the head of the list, and the word `stray` behind the queue is
read as its size; if it is large enough, the head is unlinked and memory is
corrupted, so there is no result.
-/
def msgsndQueue (stray : Nat) (q : Queue) (thread : Nat) (msgp : Buffer)
    (msgsz flags : Nat) (mem : Bool) : Option Sent :=
  if q.qnum >= msgMaxMsgs then
    if flags &&& ipcNowait ≠ 0 then some (Sent.failed (-eagain))
    else if mem = false then some (Sent.failed (-enomem))
    else some (Sent.waits { q with senders := q.senders ++ [thread] })
  else
    let queue :=
      if mem = false then Sent.failed (-enomem)
      else Sent.queued (enqueue q (message msgp msgsz))
    match q.receivers.find? (takes (mtypeOf msgp)) with
    | some r =>
        if r.size >= msgsz then
          some (Sent.handed
            { r with buf := memcpy r.buf 0 msgp 0 msgsz, received := msgsz }
            { q with receivers := q.receivers.eraseP (takes (mtypeOf msgp)) })
        else some queue
    | none => if stray >= msgsz then none else some queue

inductive Received where
  | failed (r : Int)
  | took (m : Message) (size : Nat) (buf : Buffer) (q : Queue)
      (woken : Option Nat)
  | waits (q : Queue)

def wanted (msgtyp : Int) (m : Message) : Bool :=
  if msgtyp = 0 then true
  else if msgtyp > 0 then m.type = msgtyp
  else m.type <= asInt (asUnsigned (-msgtyp))

def fill (buf : Buffer) (m : Message) (size : Nat) : Buffer :=
  memcpy (putU32 buf 0 (asUnsigned m.type)) 4 m.data 0 size

def msgrcvQueue (q : Queue) (thread : Nat) (buf : Buffer) (msgsz : Nat)
    (msgtyp : Int) (flags : Nat) (mem : Bool) : Received :=
  if q.messages.isEmpty then
    if flags &&& ipcNowait ≠ 0 then Received.failed (-enomsg)
    else if mem = false then Received.failed (-enomem)
    else Received.waits { q with
      receivers := q.receivers ++ [{
        thread := thread
        type := msgtyp
        mode := flags
        buf := buf
        size := msgsz
        received := 0 }] }
  else
    match q.messages.find? (wanted msgtyp) with
    | none => Received.failed (-enomsg)
    | some m =>
        if m.size > msgsz ∧ flags &&& msgNoerror = 0 then
          Received.failed (-e2big)
        else
          let size := min m.size msgsz
          Received.took m size (fill buf m size)
            { q with
              messages := q.messages.eraseP (wanted msgtyp)
              qnum := q.qnum - 1
              senders := q.senders.tail }
            q.senders.head?

/-!
## Handing over and receiving later
-/

/-- What a receiver gets that is handed a message: the result and its buffer. -/
def handedResult : Option Sent -> Option (Int × Buffer)
  | some (Sent.handed r _) => some (asInt r.received, r.buf)
  | _ => none

/-- What a receiver gets that calls `msgrcv` with the arguments of its record. -/
def laterResult (q : Queue) (r : Receiver) (mem : Bool) :
    Option (Int × Buffer) :=
  match msgrcvQueue q r.thread r.buf r.size r.type r.mode mem with
  | Received.failed e => some (e, r.buf)
  | Received.took _ size buf _ _ => some (asInt size, buf)
  | Received.waits _ => none

/--
The condition under which a hand-off cannot be told from a later `msgrcv`.  The
copy of `msgsnd` starts at the type and has the length of the text, so it misses
four bytes, which must be in the buffer already.  If an earlier message is
wanted, `msgrcv` returns that one.
-/
def HandoffOk (q : Queue) (r : Receiver) (msgp : Buffer) (msgsz : Nat) : Prop :=
  match q.messages.find? (wanted r.type) with
  | none => forall i, msgsz <= i -> i < msgsz + 4 -> r.buf i = msgp i
  | some m => ¬ (m.size > r.size ∧ r.mode &&& msgNoerror = 0) ∧
      min m.size r.size = msgsz ∧
      forall i, i < msgsz + 4 ->
        fill r.buf m msgsz i = if i < msgsz then msgp i else r.buf i

variable {i msgsz : Nat} {msgp : Buffer} {r : Receiver} {q : Queue}

theorem mtypeOf_bytes (msgp buf : Buffer) (h : i < 4) :
    putU32 buf 0 (asUnsigned (mtypeOf msgp)) i = msgp i := by
  have hlt : getU32 msgp 0 < 2 ^ 32 := getLE_lt 4 msgp 0
  have hput : putLE 4 buf 0 (asUnsigned (mtypeOf msgp)) (0 + i) =
      UInt8.ofNat (asUnsigned (mtypeOf msgp) / 256 ^ i) := putLE_apply h
  rw [Nat.zero_add] at hput
  refine hput.trans ?_
  unfold mtypeOf
  rw [asUnsigned_asInt hlt, ofNat_getLE_div msgp 0 h, Nat.zero_add]

theorem fill_of_ge (buf : Buffer) (m : Message) {size : Nat} (h : size + 4 <= i) :
    fill buf m size i = buf i := by
  unfold fill
  rw [memcpy_of_outside (Or.inr (by omega))]
  exact putLE_of_outside (Or.inr (by omega))

theorem fill_message (buf msgp : Buffer) (msgsz i : Nat) :
    fill buf (message msgp msgsz) msgsz i =
      if i < msgsz + 4 then msgp i else buf i := by
  by_cases hhead : i < 4
  · unfold fill
    rw [memcpy_of_outside (Or.inl hhead), if_pos (by omega)]
    exact mtypeOf_bytes msgp buf hhead
  · obtain ⟨k, hk⟩ : exists k, i = 4 + k := ⟨i - 4, by omega⟩
    rw [hk]
    by_cases htext : k < msgsz
    · unfold fill
      rw [memcpy_apply htext, if_pos (by omega), Nat.zero_add]
      have hdata : (message msgp msgsz).data k =
          memcpy zeros 0 msgp 4 msgsz (0 + k) := by
        rw [Nat.zero_add]
        rfl
      rw [hdata, memcpy_apply htext]
    · rw [fill_of_ge buf _ (by omega), if_neg (by omega)]

theorem wanted_of_takes (h : takes (mtypeOf msgp) r = true)
    (hpos : 0 < mtypeOf msgp) : wanted r.type (message msgp msgsz) = true := by
  unfold wanted
  rcases of_decide_eq_true h with hzero | htype
  · rw [if_pos hzero]
  · rw [if_neg (by omega), if_pos (by omega)]
    exact decide_eq_true htype.symm

/-- The message that `msgrcv` chooses after a message was put into the queue. -/
theorem laterResult_enqueue {m m' : Message} (mem : Bool)
    (hfind : (q.messages ++ [m]).find? (wanted r.type) = some m') :
    laterResult (enqueue q m) r mem =
      if m'.size > r.size ∧ r.mode &&& msgNoerror = 0 then
        some (-e2big, r.buf)
      else some (asInt (min m'.size r.size),
        fill r.buf m' (min m'.size r.size)) := by
  have hnonempty : (q.messages ++ [m]).isEmpty = false := by simp
  unfold laterResult msgrcvQueue enqueue
  simp only [hnonempty, hfind]
  by_cases hbig : m'.size > r.size ∧ r.mode &&& msgNoerror = 0
  · rw [if_pos hbig, if_neg Bool.false_ne_true, if_pos hbig]
  · rw [if_neg hbig, if_neg Bool.false_ne_true, if_neg hbig]

theorem handedResult_eq (stray thread flags : Nat) (mem : Bool)
    (hroom : q.qnum < msgMaxMsgs)
    (hr : q.receivers.find? (takes (mtypeOf msgp)) = some r)
    (hfits : msgsz <= r.size) :
    handedResult (msgsndQueue stray q thread msgp msgsz flags mem) =
      some (asInt msgsz, memcpy r.buf 0 msgp 0 msgsz) := by
  unfold msgsndQueue
  rw [if_neg (Nat.not_le_of_lt hroom)]
  simp only [hr]
  rw [if_pos hfits]
  rfl

theorem buffer_eq_iff {b c : Buffer} (n : Nat)
    (h : forall i, n <= i -> b i = c i) :
    b = c <-> forall i, i < n -> b i = c i := by
  constructor
  · intro heq i _
    rw [heq]
  · intro hlow
    funext i
    rcases Nat.lt_or_ge i n with hi | hi
    · exact hlow i hi
    · exact h i hi

/--
A receiver that is handed a message gets what a later `msgrcv` would return
exactly under the condition.
-/
theorem handoff_transparent (stray thread flags : Nat) (mem mem' : Bool)
    (q : Queue) (msgp : Buffer) (msgsz : Nat) (r : Receiver)
    (htype : 0 < mtypeOf msgp) (hsize : msgsz <= msgMaxSize)
    (hsizes : forall m, m ∈ q.messages -> m.size <= msgMaxSize)
    (hroom : q.qnum < msgMaxMsgs)
    (hr : q.receivers.find? (takes (mtypeOf msgp)) = some r)
    (hfits : msgsz <= r.size) :
    handedResult (msgsndQueue stray q thread msgp msgsz flags mem) =
        laterResult (enqueue q (message msgp msgsz)) r mem' <->
      HandoffOk q r msgp msgsz := by
  rw [handedResult_eq stray thread flags mem hroom hr hfits]
  unfold HandoffOk
  cases hfind : q.messages.find? (wanted r.type) with
  | none =>
    have hlast : (q.messages ++ [message msgp msgsz]).find? (wanted r.type) =
        some (message msgp msgsz) := by
      rw [List.find?_append, hfind, Option.none_or, List.find?_cons_of_pos]
      exact wanted_of_takes (List.find?_some hr) htype
    have hmin : min (message msgp msgsz).size r.size = msgsz :=
      Nat.min_eq_left hfits
    rw [laterResult_enqueue mem' hlast, if_neg, hmin, Option.some_inj,
      Prod.mk.injEq, and_iff_right rfl, buffer_eq_iff (msgsz + 4)]
    · constructor
      · intro hsame i hlow hhigh
        have hi := hsame i hhigh
        rw [memcpy_zero_apply, if_neg (by omega), fill_message,
          if_pos hhigh] at hi
        exact hi
      · intro hsame i hhigh
        rw [memcpy_zero_apply, fill_message, if_pos hhigh]
        by_cases hi : i < msgsz
        · rw [if_pos hi]
        · rw [if_neg hi]
          exact hsame i (Nat.le_of_not_lt hi) hhigh
    · intro i hi
      rw [memcpy_zero_apply, fill_message, if_neg (by omega), if_neg (by omega)]
    · rintro ⟨hbig, _⟩
      exact absurd hfits (Nat.not_le_of_gt hbig)
  | some m =>
    have hfirst : (q.messages ++ [message msgp msgsz]).find? (wanted r.type) =
        some m := by
      rw [List.find?_append, hfind, Option.some_or]
    have hm := hsizes m (List.mem_of_find?_eq_some hfind)
    rw [laterResult_enqueue mem' hfirst]
    by_cases hbig : m.size > r.size ∧ r.mode &&& msgNoerror = 0
    · rw [if_pos hbig]
      refine ⟨fun heq => ?_, fun hok => absurd hbig hok.left⟩
      have hresult : asInt msgsz = -e2big :=
        congrArg Prod.fst (Option.some.inj heq)
      unfold msgMaxSize at hsize
      rw [asInt_of_lt (by omega)] at hresult
      unfold e2big at hresult
      omega
    · unfold msgMaxSize at hsize hm
      rw [if_neg hbig, Option.some_inj, Prod.mk.injEq,
        asInt_inj (by omega) (by omega)]
      constructor
      · rintro ⟨hmin, hbuf⟩
        rw [← hmin] at hbuf
        refine ⟨hbig, hmin.symm, fun i _ => ?_⟩
        rw [← hbuf, memcpy_zero_apply]
      · rintro ⟨_, hmin, hsame⟩
        rw [hmin]
        refine ⟨rfl, (buffer_eq_iff (msgsz + 4) ?_).mpr ?_⟩
        · intro i hi
          rw [memcpy_zero_apply, if_neg (by omega), fill_of_ge r.buf m hi]
        · intro i hi
          rw [memcpy_zero_apply, hsame i hi]

def anyReceiver : Receiver where
  thread := 1
  type := 0
  mode := 0
  buf := zeros
  size := 10
  received := 0

def oneWaits : Queue where
  qnum := 0
  messages := []
  receivers := [anyReceiver]
  senders := []

def typeFive (text : UInt8) : Buffer := fun i =>
  if i = 0 then 5 else if i = 4 then text else 0

theorem handoff_transparent_zero_text :
    handedResult (msgsndQueue 0 oneWaits 2 (typeFive 0) 2 0 true) =
      laterResult (enqueue oneWaits (message (typeFive 0) 2)) anyReceiver true := by
  have hnone : forall m, m ∈ oneWaits.messages -> m.size <= msgMaxSize :=
    fun _ hm => absurd hm List.not_mem_nil
  apply (handoff_transparent 0 2 0 true true oneWaits (typeFive 0) 2 anyReceiver
    (by decide) (by decide) hnone (by decide) rfl (by decide)).mpr
  intro i hlow _
  show (0 : UInt8) = typeFive 0 i
  unfold typeFive
  rw [if_neg (by omega)]
  split <;> rfl

/-- The text `A` does not reach a receiver that waits. -/
theorem handoff_loses_text :
    msgrcvQueue { qnum := 0, messages := [], receivers := [], senders := [] }
        1 zeros 10 0 0 true = Received.waits oneWaits ∧
      (handedResult (msgsndQueue 0 oneWaits 2 (typeFive 65) 1 0 true)).map
        (fun p => p.2 4) = some 0 ∧
      (laterResult (enqueue oneWaits (message (typeFive 65) 1)) anyReceiver
        true).map (fun p => p.2 4) = some 65 :=
  ⟨rfl, by decide, by decide⟩

/-!
## The message that is received
-/

/-- A request for a type is satisfied by the type of a message. -/
def Accepts (msgtyp mtype : Int) : Prop :=
  msgtyp = 0 ∨ 0 < msgtyp ∧ mtype = msgtyp ∨ msgtyp < 0 ∧ mtype <= -msgtyp

theorem accepts_of_wanted {msgtyp : Int} {m : Message}
    (h : wanted msgtyp m = true) : Accepts msgtyp m.type := by
  unfold wanted at h
  by_cases hzero : msgtyp = 0
  · exact Or.inl hzero
  rw [if_neg hzero] at h
  split at h
  case isTrue hpos => exact Or.inr (Or.inl ⟨hpos, of_decide_eq_true h⟩)
  case isFalse hpos =>
    have hle := of_decide_eq_true h
    have habs : asInt (asUnsigned (-msgtyp)) <= -msgtyp := by
      unfold asInt asUnsigned
      split <;> omega
    exact Or.inr (Or.inr ⟨by omega, Int.le_trans hle habs⟩)

theorem wanted_of_accepts {msgtyp : Int} {m : Message} (hlow : -2 ^ 31 < msgtyp)
    (h : Accepts msgtyp m.type) : wanted msgtyp m = true := by
  unfold wanted
  rcases h with hzero | ⟨hpos, htype⟩ | ⟨hneg, hle⟩
  · rw [if_pos hzero]
  · rw [if_neg (by omega), if_pos hpos, decide_eq_true htype]
  · have habs : -msgtyp <= asInt (asUnsigned (-msgtyp)) := by
      unfold asInt asUnsigned
      split <;> omega
    rw [if_neg (by omega), if_neg (by omega)]
    exact decide_eq_true (Int.le_trans hle habs)

/-- The buffer holds the type and the first `size` bytes of the text. -/
structure Filled (m : Message) (size : Nat) (buf buf' : Buffer) : Prop where
  type : getU32 buf' 0 = asUnsigned m.type
  text : forall i, i < size -> buf' (4 + i) = m.data i
  rest : forall i, size + 4 <= i -> buf' i = buf i

theorem fill_filled (buf : Buffer) (m : Message) (size : Nat) :
    Filled m size buf (fill buf m size) := by
  constructor
  · have hlt : asUnsigned m.type < 256 ^ 4 := by
      unfold asUnsigned
      omega
    have hput : getU32 (putU32 buf 0 (asUnsigned m.type)) 0 = _ :=
      getLE_putLE_of_lt hlt
    rw [← hput]
    exact getLE_congr fun i hi => memcpy_of_outside (Or.inl (by omega))
  · intro i hi
    unfold fill
    rw [memcpy_apply hi, Nat.zero_add]
  · intro i hi
    exact fill_of_ge buf m hi

/--
`msgrcv` takes the first message of a type that is requested, and no other; it
fails if there is none, or if it is too long, and a failure leaves the queue.
-/
theorem msgrcv_takes_first (q : Queue) (thread : Nat) (buf : Buffer)
    (msgsz : Nat) (msgtyp : Int) (flags : Nat) (mem : Bool)
    (hmessages : q.messages ≠ []) (hnum : q.qnum = q.messages.length)
    (hlow : -2 ^ 31 < msgtyp) :
    ((forall m, m ∈ q.messages -> ¬ Accepts msgtyp m.type) ∧
      msgrcvQueue q thread buf msgsz msgtyp flags mem =
        Received.failed (-enomsg)) ∨
    exists before m after, q.messages = before ++ m :: after ∧
      (forall x, x ∈ before -> ¬ Accepts msgtyp x.type) ∧
      Accepts msgtyp m.type ∧
      (m.size > msgsz ∧ flags &&& msgNoerror = 0 ∧
          msgrcvQueue q thread buf msgsz msgtyp flags mem =
            Received.failed (-e2big) ∨
        (m.size <= msgsz ∨ flags &&& msgNoerror ≠ 0) ∧
          exists buf', Filled m (min m.size msgsz) buf buf' ∧
            msgrcvQueue q thread buf msgsz msgtyp flags mem =
              Received.took m (min m.size msgsz) buf'
                { q with
                  messages := before ++ after
                  qnum := (before ++ after).length
                  senders := q.senders.tail }
                q.senders.head?) := by
  have hnonempty : q.messages.isEmpty = false := by
    cases hq : q.messages with
    | nil => exact absurd hq hmessages
    | cons m rest => rfl
  unfold msgrcvQueue
  rw [hnonempty, if_neg Bool.false_ne_true]
  cases hfind : q.messages.find? (wanted msgtyp) with
  | none =>
    refine Or.inl ⟨fun m hm hreq => ?_, rfl⟩
    exact List.find?_eq_none.mp hfind m hm (wanted_of_accepts hlow hreq)
  | some m =>
    obtain ⟨hm, before, after, hsplit, hbefore⟩ :=
      List.find?_eq_some_iff_append.mp hfind
    refine Or.inr ⟨before, m, after, hsplit, fun x hx hreq => ?_,
      accepts_of_wanted hm, ?_⟩
    · have hnot := hbefore x hx
      rw [wanted_of_accepts hlow hreq] at hnot
      cases hnot
    by_cases hbig : m.size > msgsz ∧ flags &&& msgNoerror = 0
    · exact Or.inl ⟨hbig.left, hbig.right, if_pos hbig⟩
    · refine Or.inr ⟨?_, fill buf m (min m.size msgsz), fill_filled buf m _, ?_⟩
      · rw [← Nat.not_lt]
        exact Decidable.not_and_iff_or_not.mp hbig
      · have hcount : q.qnum - 1 = (before ++ after).length := by
          rw [hnum, hsplit]
          simp
        have herase : q.messages.eraseP (wanted msgtyp) = before ++ after := by
          rw [hsplit, List.eraseP_append_right _ (by simpa using hbefore),
            List.eraseP_cons_of_pos hm]
        simp only [if_neg hbig, herase, hcount]

def twoMessages : Queue where
  qnum := 2
  messages := [message (typeFive 65) 1, message (typeFive 66) 1]
  receivers := []
  senders := [3]

theorem msgrcv_takes_first_five :
    exists before m after, twoMessages.messages = before ++ m :: after ∧
      Accepts 5 m.type := by
  rcases msgrcv_takes_first twoMessages 1 zeros 10 5 0 true (by decide) rfl
      (by decide) with ⟨hnone, _⟩ | ⟨before, m, after, hsplit, _, hm, _⟩
  · exact absurd (Or.inr (Or.inl ⟨by decide, by decide⟩))
      (hnone (message (typeFive 65) 1) List.mem_cons_self)
  · exact ⟨before, m, after, hsplit, hm⟩

end Msg
end Ipc
end Horizon
