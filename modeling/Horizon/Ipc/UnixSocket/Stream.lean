import Horizon.Ipc.UnixSocket.Model

/-!
# Bytes of a connected pair

A send puts its bytes into one message, and a receive takes one message off the
queue, whatever the size of its buffer.  What comes out is a prefix of what went
in as long as no buffer is smaller than the message it is used for.
-/

namespace Horizon
namespace Ipc
namespace UnixSocket
namespace Stream

open Function List Transition

/-- Sockets with the bytes that sends on a socket have accepted, and those that
receives on a socket have returned. -/
structure Traffic where
  sockets : Sockets
  sent : Ptr -> List UInt8
  received : Ptr -> List UInt8

inductive Op where
  | send (p : Ptr) (buf : List UInt8) (memory : Bool)
  | recv (p : Ptr) (len : Nat) (dontwait : Bool)

def Op.socket : Op -> Ptr
  | Op.send p _ _ => p
  | Op.recv p _ _ => p

/-- A send accepts the number of bytes that it returns. -/
def next (w : Traffic) : Op -> Option Traffic
  | Op.send p buf memory =>
      match unixSocketSend w.sockets p buf memory with
      | none => none
      | some (r, s) => some { w with
          sockets := s
          sent := update w.sent p (w.sent p ++ buf.take r.toNat) }
  | Op.recv p len dontwait =>
      match unixSocketRecv w.sockets p len dontwait with
      | Received.failed => some w
      | Received.waits => none
      | Received.bytes buf s => some { w with
          sockets := s
          received := update w.received p (w.received p ++ buf) }

structure ConnectedTo (s : Sockets) (p q : Ptr) : Prop where
  live : p ∈ s.list
  type : (s.sock p).type = SocketType.stream
  state : (s.sock p).state = SocketState.connected
  peer : (s.sock p).peer = some q

structure Pair (s : Sockets) (a b : Ptr) : Prop where
  ne : a ≠ b
  first : ConnectedTo s a b
  second : ConnectedTo s b a

/-- The bytes from one socket to the other are those received and those that
are still queued. -/
def Flow (w : Traffic) (p q : Ptr) : Prop :=
  w.received q ++ (w.sockets.sock q).messages.flatten = w.sent p

structure Ok (a b : Ptr) (w : Traffic) : Prop where
  pair : Pair w.sockets a b
  forth : Flow w a b
  back : Flow w b a

/-- A connected pair of which nothing was received yet. -/
structure Init (a b : Ptr) (w : Traffic) : Prop where
  pair : Pair w.sockets a b
  received : w.received = fun _ => []
  forth : w.sent a = (w.sockets.sock b).messages.flatten
  back : w.sent b = (w.sockets.sock a).messages.flatten

/-- A message is shorter than 2 GiB and is received into a buffer that it fits
into. -/
def StepOk (w : Traffic) : Op -> Prop
  | Op.send _ buf _ => buf.length < 2 ^ 31
  | Op.recv p len _ => len = 0 ∨
      forall msg, (w.sockets.sock p).messages.head? = some msg ->
        msg.length <= len

def CallOk (a b : Ptr) (w : Traffic) (op : Op) : Prop :=
  (op.socket = a ∨ op.socket = b) ∧ StepOk w op

/-! ## Pairs -/

variable {s : Sockets} {a b p q : Ptr} {w w' : Traffic} {f : Socket -> Socket}
    {len : Nat}

theorem Pair.symm (h : Pair s a b) : Pair s b a :=
  ⟨h.ne.symm, h.second, h.first⟩

theorem Ok.symm (h : Ok a b w) : Ok b a w :=
  ⟨h.pair.symm, h.back, h.forth⟩

theorem ConnectedTo.modify (h : ConnectedTo s p q) (r : Ptr)
    (htype : forall k, (f k).type = k.type)
    (hstate : forall k, (f k).state = k.state)
    (hpeer : forall k, (f k).peer = k.peer) :
    ConnectedTo (s.modify r f) p q := by
  by_cases hp : p = r
  · subst hp
    refine ⟨h.live, ?_, ?_, ?_⟩
    · simp [Sockets.modify, htype, h.type]
    · simp [Sockets.modify, hstate, h.state]
    · simp [Sockets.modify, hpeer, h.peer]
  · refine ⟨h.live, ?_, ?_, ?_⟩
    · simp [Sockets.modify, update_of_ne hp, h.type]
    · simp [Sockets.modify, update_of_ne hp, h.state]
    · simp [Sockets.modify, update_of_ne hp, h.peer]

theorem Pair.modify (h : Pair s a b) (r : Ptr)
    (htype : forall k, (f k).type = k.type)
    (hstate : forall k, (f k).state = k.state)
    (hpeer : forall k, (f k).peer = k.peer) : Pair (s.modify r f) a b :=
  ⟨h.ne, h.first.modify r htype hstate hpeer,
    h.second.modify r htype hstate hpeer⟩

/-! ## Sending -/

/-- A send on a connected socket fails and changes nothing, or queues all
bytes. -/
theorem Pair.send_cases (h : Pair s a b) (buf : List UInt8) (memory : Bool) :
    unixSocketSend s a buf memory = some (-1, s) ∨
      unixSocketSend s a buf memory =
        some (asInt buf.length, s.modify b (addMessage buf)) := by
  unfold unixSocketSend
  by_cases hnil : buf.length = 0
  · left
    rw [if_pos hnil]
  · have hpeer : b ≠ a ∧ b ∈ s.list := ⟨h.ne.symm, h.second.live⟩
    rw [if_neg hnil, if_neg (not_not_intro h.first.state), h.first.peer]
    simp only [if_pos hpeer]
    cases memory with
    | false =>
      left
      rfl
    | true =>
      right
      rfl

theorem Ok.send (h : Ok a b w) {buf : List UInt8} {memory : Bool}
    (hlen : buf.length < 2 ^ 31)
    (hnext : next w (.send a buf memory) = some w') : Ok a b w' := by
  rcases h.pair.send_cases buf memory with hsend | hsend
  · simp only [next, hsend, Option.some.injEq] at hnext
    subst hnext
    have hnone : (-1 : Int).toNat = 0 := rfl
    rw [hnone, take_zero, append_nil, update_eq_self]
    exact h
  · simp only [next, hsend, Option.some.injEq] at hnext
    subst hnext
    rw [asInt_of_lt hlen, Int.toNat_natCast, take_length]
    refine ⟨h.pair.modify b (fun _ => rfl) (fun _ => rfl) (fun _ => rfl),
      ?_, ?_⟩
    · have hforth := h.forth
      unfold Flow at hforth ⊢
      simp only [Sockets.modify, addMessage, update_self,
        flatten_append, flatten_cons, flatten_nil,
        append_nil]
      rw [<- append_assoc, hforth]
    · have hback := h.back
      unfold Flow at hback ⊢
      simp only [Sockets.modify, update_of_ne h.pair.ne,
        update_of_ne h.pair.ne.symm]
      exact hback

/-! ## Receiving -/

theorem Pair.recv_cons (h : Pair s a b) (dontwait : Bool) {msg : List UInt8}
    {rest : List (List UInt8)} (hpos : len ≠ 0)
    (hmsgs : (s.sock a).messages = msg :: rest) (hfits : msg.length <= len) :
    unixSocketRecv s a len dontwait = .bytes msg
      (s.modify a (setMessages rest)) := by
  unfold unixSocketRecv
  rw [if_neg hpos, if_neg (not_not_intro h.first.state), hmsgs]
  simp only [Nat.min_eq_right hfits, take_length]

theorem Ok.recv (h : Ok a b w) {dontwait : Bool}
    (hstep : StepOk w (.recv a len dontwait))
    (hnext : next w (.recv a len dontwait) = some w') : Ok a b w' := by
  by_cases hzero : len = 0
  · simp only [next, unixSocketRecv, if_pos hzero, Option.some.injEq] at hnext
    subst hnext
    exact h
  cases hmsgs : (w.sockets.sock a).messages with
  | nil =>
    simp only [next, unixSocketRecv, if_neg hzero, h.pair.first.state, hmsgs,
      ne_eq, not_true_eq_false, if_false] at hnext
    cases dontwait with
    | false => cases hnext
    | true =>
      cases hnext
      exact h
  | cons msg rest =>
    have hfits : msg.length <= len := by
      rcases hstep with h0 | hall
      · exact absurd h0 hzero
      · exact hall msg (by rw [hmsgs]; rfl)
    have hrecv := h.pair.recv_cons dontwait hzero hmsgs hfits
    simp only [next, hrecv, Option.some.injEq] at hnext
    subst hnext
    refine ⟨h.pair.modify a (fun _ => rfl) (fun _ => rfl) (fun _ => rfl),
      ?_, ?_⟩
    · have hforth := h.forth
      unfold Flow at hforth ⊢
      simp only [Sockets.modify, update_of_ne h.pair.ne.symm]
      exact hforth
    · have hback := h.back
      unfold Flow at hback ⊢
      rw [hmsgs, flatten_cons] at hback
      simp only [Sockets.modify, setMessages, update_self, append_assoc]
      exact hback

/-! ## Runs -/

theorem Init.ok (h : Init a b w) : Ok a b w := by
  refine ⟨h.pair, ?_, ?_⟩
  · unfold Flow
    rw [h.received, h.forth]
    rfl
  · unfold Flow
    rw [h.received, h.back]
    rfl

/-- The step lemma for calls on the first socket; those on the second one are
the same with the sockets exchanged. -/
theorem Ok.step {op : Op} (h : Ok a b w) (hsocket : op.socket = a)
    (hstep : StepOk w op) (hnext : next w op = some w') : Ok a b w' := by
  cases op with
  | send p buf memory =>
    obtain rfl : p = a := hsocket
    exact h.send hstep hnext
  | recv p len dontwait =>
    obtain rfl : p = a := hsocket
    exact h.recv hstep hnext

theorem ok_of_reachable (hreach : Reachable (Init a b)
      (Guarded (CallOk a b) next) w) : Ok a b w := by
  apply hreach.invariant
  · intro s hs
    exact hs.ok
  · intro s op s' hok hs
    rcases hs.1.1 with hsocket | hsocket
    · exact hok.step hsocket hs.1.2 hs.2
    · exact (hok.symm.step hsocket hs.1.2 hs.2).symm

theorem Flow.delivered (h : Flow w p q) :
    w.received q <+: w.sent p ∧
      ((w.sockets.sock q).messages = [] -> w.received q = w.sent p) := by
  refine ⟨⟨_, h⟩, ?_⟩
  intro hempty
  unfold Flow at h
  rw [hempty, flatten_nil, append_nil] at h
  exact h

/-- Over every sequence of sends and receives on a connected pair, in which each
receive has room for its message, the bytes come out in order and without loss
in both directions. -/
theorem stream_bytes_in_order {a b : Ptr} {w : Traffic}
    (hreach : Reachable (Init a b)
      (Guarded (CallOk a b) next) w) :
    (w.received b <+: w.sent a ∧
      ((w.sockets.sock b).messages = [] -> w.received b = w.sent a)) ∧
    (w.received a <+: w.sent b ∧
      ((w.sockets.sock a).messages = [] -> w.received a = w.sent b)) := by
  have hok := ok_of_reachable hreach
  exact ⟨hok.forth.delivered, hok.back.delivered⟩

def newPair : Traffic where
  sockets := (unixSocketPair ⟨[], fun _ => newSocket SocketType.stream⟩ 1
    (some 1) (some 2)).2
  sent := fun _ => []
  received := fun _ => []

theorem newPair_init : Init 1 2 newPair where
  pair :=
    { ne := by decide
      first := ⟨by decide, rfl, rfl, rfl⟩
      second := ⟨by decide, rfl, rfl, rfl⟩ }
  received := rfl
  forth := rfl
  back := rfl

/-- Two messages are sent and the first one is received. -/
theorem stream_bytes_in_order_two_messages :
    exists w, Reachable (Init 1 2)
        (Guarded (CallOk 1 2) next) w ∧
      w.sent 1 = [7, 8, 9] ∧ w.received 2 = [7, 8] ∧
      w.received 2 <+: w.sent 1 := by
  have hinit : Reachable (Init 1 2)
      (Guarded (CallOk 1 2) next) newPair :=
    Reachable.init newPair_init
  have hshort : ([7, 8] : List UInt8).length < 2 ^ 31 := by decide
  have hone : ([9] : List UInt8).length < 2 ^ 31 := by decide
  have hfirst := hinit.step (l := Op.send 1 [7, 8] true)
    ⟨⟨Or.inl rfl, hshort⟩, rfl⟩
  have hsecond := hfirst.step (l := Op.send 1 [9] true)
    ⟨⟨Or.inl rfl, hone⟩, rfl⟩
  have hrecv := hsecond.step (l := Op.recv 2 5 false)
    ⟨⟨Or.inr rfl, Or.inr (by rintro msg ⟨⟩; decide)⟩, rfl⟩
  exact ⟨_, hrecv, rfl, rfl, (stream_bytes_in_order hrecv).1.1⟩

/-- A buffer of one byte loses the second byte of a message. -/
theorem short_receive_loses_byte :
    exists w, Reachable (Init 1 2)
        (fun w op w' => next w op = some w') w ∧
      (w.sockets.sock 2).messages = [] ∧ w.sent 1 = [7, 8] ∧
      w.received 2 = [7] := by
  have hinit : Reachable (Init 1 2)
      (fun w op w' => next w op = some w') newPair :=
    Reachable.init newPair_init
  have hsend := hinit.step (l := Op.send 1 [7, 8] true) rfl
  have hrecv := hsend.step (l := Op.recv 2 1 false) rfl
  exact ⟨_, hrecv, rfl, rfl, rfl⟩

end Stream
end UnixSocket
end Ipc
end Horizon
