import Horizon.Ipc.UnixSocket.Calls

/-!
# The connection protocol

`unix_socket_listen` puts a socket into the state CONNECTING, and
`unix_socket_connect` refuses a stream socket in every state but UNCONNECTED, so
no client reaches a listener and no accept ends by itself.  What is left of the
protocol is proved here: which connects fail as they should, and that the peers
of connected sockets exist and point back.
-/

namespace Horizon
namespace Ipc
namespace UnixSocket
namespace Protocol

open List Transition

/-- A stream connect is to succeed for an unconnected caller and a listening
target. -/
def Connectable (s : Sockets) (p t : Ptr) : Prop :=
  (s.sock p).state = SocketState.unconnected ∧
    (s.sock t).state = SocketState.connecting

/-- The connects of stream sockets that are decided as they are to be, and
those of other sockets unless a task waits in an accept on the socket. -/
def ConnectOk (w : World) (p : Ptr) (addr : List UInt8) : Prop :=
  (w.sockets.sock p).state = SocketState.connected ∨
    forall t, w.sockets.bound addr = some t ->
      (refuses (w.sockets.sock t) ->
        (w.sockets.sock p).type = SocketType.stream ->
          ¬ Connectable w.sockets p t) ∧
      (¬ refuses (w.sockets.sock t) ->
        (w.sockets.sock t).refcount + 1 ≠ 0 ∧ p ∉ w.waiting ∧
          ((w.sockets.sock p).type = SocketType.stream ->
            Connectable w.sockets p t))

/-- No socket is freed that a connected socket points to or a task waits on, and
no count of references overflows. -/
def StepOk (w : World) : Call -> Prop
  | Call.bind _ addr _ => forall t, w.sockets.bound addr = some t ->
      (w.sockets.sock t).refcount + 1 ≠ 0
  | Call.connect p addr => ConnectOk w p addr
  | Call.destroy p => (w.sockets.sock p).refcount = 1 -> p ∉ w.waiting ∧
      forall q, q ∈ w.sockets.list -> q ≠ p ->
        (w.sockets.sock q).state = SocketState.connected ->
          (w.sockets.sock q).peer ≠ some p
  | Call.create _ _ | Call.listen _ | Call.accept _ _ | Call.resume _ _
  | Call.send _ _ _ | Call.sendto _ _ _ _ | Call.shutdown _
  | Call.pair _ _ _ => True

structure Ok (s : Sockets) (waiting : List Ptr) : Prop where
  nodup : s.list.Nodup
  counted : forall p, p ∈ s.list -> (s.sock p).refcount ≠ 0
  idle : forall p, p ∈ s.list ->
    (s.sock p).state = SocketState.unconnected ∨
      (s.sock p).state = SocketState.connecting -> (s.sock p).peer = none
  waiting : forall p, p ∈ waiting -> p ∈ s.list ∧ (s.sock p).peer = none
  linked : forall a, a ∈ s.list ->
    (s.sock a).state = SocketState.connected ->
      exists b, b ∈ s.list ∧ (s.sock a).peer = some b
  mutual_peer : forall a b, a ∈ s.list ->
    (s.sock a).state = SocketState.connected ->
    (s.sock a).type = SocketType.stream -> (s.sock a).peer = some b ->
    (s.sock b).type = SocketType.stream ->
      ((s.sock b).state = SocketState.connected ∧ (s.sock b).peer = some a) ∨
      (s.sock b).state = SocketState.disconnected

/-! ## Calls that change no link -/

/-- The sockets that exist keep their types, states and peers. -/
structure SameLinks (s s' : Sockets) : Prop where
  list : s'.list = s.list
  type : forall q, q ∈ s.list -> (s'.sock q).type = (s.sock q).type
  state : forall q, q ∈ s.list -> (s'.sock q).state = (s.sock q).state
  peer : forall q, q ∈ s.list -> (s'.sock q).peer = (s.sock q).peer

variable {f : Socket -> Socket} {s s' : Sockets} {waiting : List Ptr} {p : Ptr}
    {w w' : World} {addr : List UInt8} {memory : Option Ptr}

theorem SameLinks.modify (s : Sockets) (p : Ptr)
    (htype : forall k, (f k).type = k.type)
    (hstate : forall k, (f k).state = k.state)
    (hpeer : forall k, (f k).peer = k.peer) : SameLinks s (s.modify p f) := by
  refine ⟨rfl, ?_, ?_, ?_⟩ <;>
  · intro q hq
    rw [modify_sock]
    split
    · simp only [htype, hstate, hpeer]
    · rfl

theorem Ok.linked_mem (h : Ok s waiting) {a b : Ptr} (ha : a ∈ s.list)
    (hstate : (s.sock a).state = .connected)
    (hpeer : (s.sock a).peer = some b) : b ∈ s.list := by
  obtain ⟨c, hc, hpeer'⟩ := h.linked a ha hstate
  rw [hpeer'] at hpeer
  cases hpeer
  exact hc

theorem Ok.same (h : Ok s waiting) (hsame : SameLinks s s')
    (hcount : forall p, p ∈ s.list -> (s'.sock p).refcount ≠ 0) :
    Ok s' waiting where
  nodup := by
    rw [hsame.list]
    exact h.nodup
  counted := by
    rw [hsame.list]
    exact hcount
  idle := by
    intro p hp hidle
    rw [hsame.list] at hp
    rw [hsame.state p hp] at hidle
    rw [hsame.peer p hp]
    exact h.idle p hp hidle
  waiting := by
    intro p hp
    obtain ⟨hmem, hpeer⟩ := h.waiting p hp
    rw [hsame.list, hsame.peer p hmem]
    exact ⟨hmem, hpeer⟩
  linked := by
    intro a ha hstate
    rw [hsame.list] at ha
    rw [hsame.state a ha] at hstate
    rw [hsame.list, hsame.peer a ha]
    exact h.linked a ha hstate
  mutual_peer := by
    intro a b ha hstate htype hpeer hb
    rw [hsame.list] at ha
    rw [hsame.state a ha] at hstate
    rw [hsame.type a ha] at htype
    rw [hsame.peer a ha] at hpeer
    have hmem := h.linked_mem ha hstate hpeer
    rw [hsame.type b hmem] at hb
    rw [hsame.state b hmem, hsame.peer b hmem]
    exact h.mutual_peer a b ha hstate htype hpeer hb

theorem Ok.modify_same (h : Ok s waiting) (p : Ptr)
    (htype : forall k, (f k).type = k.type)
    (hstate : forall k, (f k).state = k.state)
    (hpeer : forall k, (f k).peer = k.peer)
    (hcount : p ∈ s.list -> (f (s.sock p)).refcount ≠ 0) :
    Ok (s.modify p f) waiting := by
  apply h.same (SameLinks.modify s p htype hstate hpeer)
  intro q hq
  rw [modify_sock]
  split
  · rename_i hqp
    subst hqp
    exact hcount hq
  · exact h.counted q hq

theorem Ok.addMessage (h : Ok s waiting) (t : Ptr) (buf : List UInt8) :
    Ok (s.modify t (addMessage buf)) waiting :=
  h.modify_same t (fun _ => rfl) (fun _ => rfl) (fun _ => rfl)
    (fun ht => h.counted t ht)

/-! ## Calls that change links -/

/-- One socket changes into `k`, which fits to the others. -/
theorem Ok.modify (h : Ok s waiting) {k : Socket} (hk : f (s.sock p) = k)
    (hcount : p ∈ s.list -> k.refcount ≠ 0)
    (hidle : p ∈ s.list -> k.state = .unconnected ∨ k.state = .connecting ->
      k.peer = none)
    (hwaiting : p ∈ waiting -> k.peer = none)
    (hlinked : k.state = .connected -> exists b, b ∈ s.list ∧ k.peer = some b)
    (hout : forall b, k.state = .connected -> k.type = .stream ->
      k.peer = some b -> ((s.modify p f).sock b).type = .stream ->
        (((s.modify p f).sock b).state = .connected ∧
          ((s.modify p f).sock b).peer = some p) ∨
        ((s.modify p f).sock b).state = .disconnected)
    (hin : forall a, a ∈ s.list -> (s.sock a).state = .connected ->
      (s.sock a).type = .stream -> (s.sock a).peer = some p ->
      k.type = .stream ->
        (k.state = .connected ∧ k.peer = some a) ∨ k.state = .disconnected) :
    Ok (s.modify p f) waiting := by
  have hself : (s.modify p f).sock p = k := by
    rw [modify_sock, if_pos rfl, hk]
  have hother {q : Ptr} (hq : q ≠ p) : (s.modify p f).sock q = s.sock q := by
    rw [modify_sock, if_neg hq]
  refine ⟨h.nodup, ?_, ?_, ?_, ?_, ?_⟩
  · intro q hq
    by_cases hqp : q = p
    · rw [hqp, hself]
      exact hcount (hqp ▸ hq)
    · rw [hother hqp]
      exact h.counted q hq
  · intro q hq
    by_cases hqp : q = p
    · rw [hqp, hself]
      exact hidle (hqp ▸ hq)
    · rw [hother hqp]
      exact h.idle q hq
  · intro q hq
    by_cases hqp : q = p
    · rw [hqp] at hq ⊢
      rw [hself]
      exact ⟨(h.waiting p hq).1, hwaiting hq⟩
    · rw [hother hqp]
      exact h.waiting q hq
  · intro a ha
    by_cases hap : a = p
    · rw [hap, hself]
      exact hlinked
    · rw [hother hap]
      exact h.linked a ha
  · intro a b ha
    by_cases hap : a = p
    · rw [hap, hself]
      exact hout b
    rw [hother hap]
    by_cases hbp : b = p
    · rw [hbp, hself]
      exact hin a ha
    · rw [hother hbp]
      exact h.mutual_peer a b ha

/-- A socket gets a state in which it is not connected.  If it is not the state
after a shutdown, the socket had no peer and was nobody's peer. -/
theorem Ok.setState (h : Ok s waiting) {state : SocketState}
    (hstate : state ≠ .connected)
    (hold : state = .disconnected ∨ (s.sock p).state = .unconnected) :
    Ok (s.modify p (setState state)) waiting := by
  apply h.modify rfl
  · exact h.counted p
  · intro hp hidle
    rcases hold with rfl | hun
    · simp [UnixSocket.setState] at hidle
    · exact h.idle p hp (Or.inl hun)
  · exact fun hp => (h.waiting p hp).2
  · exact fun hconn => absurd hconn hstate
  · exact fun _ hconn => absurd hconn hstate
  · intro a ha hconn htype hap hp
    rcases hold with hdis | hun
    · exact Or.inr hdis
    · -- an unconnected stream socket is nobody's peer
      have hpeer := h.mutual_peer a p ha hconn htype hap hp
      rw [hun] at hpeer
      simp at hpeer

/-- What a new socket has to meet beside sockets that stay as they are. -/
structure NewOk (s : Sockets) (q : Ptr) : Prop where
  counted : (s.sock q).refcount ≠ 0
  idle : (s.sock q).state = SocketState.unconnected ∨
    (s.sock q).state = SocketState.connecting -> (s.sock q).peer = none
  linked : (s.sock q).state = SocketState.connected ->
    exists b, b ∈ s.list ∧ (s.sock q).peer = some b ∧
      (s.sock b).state = SocketState.connected ∧ (s.sock b).peer = some q

theorem Ok.extend (h : Ok s waiting) (hnodup : s'.list.Nodup)
    (hmem : forall q, q ∈ s.list -> q ∈ s'.list)
    (hsock : forall q, q ∈ s.list -> s'.sock q = s.sock q)
    (hnew : forall q, q ∈ s'.list -> q ∉ s.list -> NewOk s' q) :
    Ok s' waiting := by
  refine ⟨hnodup, ?_, ?_, ?_, ?_, ?_⟩
  · intro q hq
    by_cases hold : q ∈ s.list
    · rw [hsock q hold]
      exact h.counted q hold
    · exact (hnew q hq hold).counted
  · intro q hq
    by_cases hold : q ∈ s.list
    · rw [hsock q hold]
      exact h.idle q hold
    · exact (hnew q hq hold).idle
  · intro q hq
    obtain ⟨hold, hpeer⟩ := h.waiting q hq
    rw [hsock q hold]
    exact ⟨hmem q hold, hpeer⟩
  · intro a ha hconn
    by_cases hold : a ∈ s.list
    · rw [hsock a hold] at hconn ⊢
      obtain ⟨b, hb, hpeer⟩ := h.linked a hold hconn
      exact ⟨b, hmem b hb, hpeer⟩
    · obtain ⟨b, hb, hpeer, _⟩ := (hnew a ha hold).linked hconn
      exact ⟨b, hb, hpeer⟩
  · intro a b ha hconn htype hab hb
    by_cases hold : a ∈ s.list
    · rw [hsock a hold] at hconn htype hab
      have hb' := h.linked_mem hold hconn hab
      rw [hsock b hb'] at hb ⊢
      exact h.mutual_peer a b hold hconn htype hab hb
    · obtain ⟨c, _, hpeer, hback⟩ := (hnew a ha hold).linked hconn
      rw [hab] at hpeer
      cases hpeer
      exact Or.inl hback

theorem newSocket_refcount_ne_zero (t : SocketType) :
    (newSocket t).refcount ≠ 0 := by
  show (1 : BitVec 32) ≠ 0
  decide

theorem Ok.create (h : Ok s waiting) (hfresh : p ∉ s.list) (t : SocketType) :
    Ok (push s p (newSocket t)) waiting := by
  apply h.extend
  · exact nodup_cons.mpr ⟨hfresh, h.nodup⟩
  · intro q hq
    exact mem_cons_of_mem p hq
  · intro q hq
    exact push_sock_of_mem _ hfresh hq
  · intro q hq hold
    obtain rfl : q = p := (mem_cons.mp hq).resolve_right hold
    constructor <;> rw [push_sock_self]
    · exact newSocket_refcount_ne_zero t
    · intro _
      rfl
    · intro hconn
      cases hconn

theorem Ok.pair (h : Ok s waiting) {s1 s2 : Ptr} (hfresh1 : s1 ∉ s.list)
    (hfresh2 : s2 ∉ s.list) (hne : s1 ≠ s2) (t : SocketType) :
    Ok (push (push s s1 (link s2 (newSocket t))) s2 (link s1 (newSocket t)))
      waiting := by
  have hfresh : s2 ∉ (push s s1 (link s2 (newSocket t))).list := by
    intro hmem
    rcases mem_cons.mp hmem with h12 | hmem
    · exact hne h12.symm
    · exact hfresh2 hmem
  have hsock2 : (push (push s s1 (link s2 (newSocket t))) s2
      (link s1 (newSocket t))).sock s2 = link s1 (newSocket t) :=
    push_sock_self _ _ _
  have hsock1 : (push (push s s1 (link s2 (newSocket t))) s2
      (link s1 (newSocket t))).sock s1 = link s2 (newSocket t) := by
    rw [push_sock_of_mem _ hfresh mem_cons_self]
    exact push_sock_self _ _ _
  apply h.extend
  · exact nodup_cons.mpr ⟨hfresh, nodup_cons.mpr ⟨hfresh1, h.nodup⟩⟩
  · intro q hq
    exact mem_cons_of_mem s2 (mem_cons_of_mem s1 hq)
  · intro q hq
    rw [push_sock_of_mem _ hfresh (mem_cons_of_mem s1 hq)]
    exact push_sock_of_mem _ hfresh1 hq
  · intro q hq hold
    rcases mem_cons.mp hq with rfl | hq
    · constructor <;> rw [hsock2]
      · exact newSocket_refcount_ne_zero t
      · rintro (hidle | hidle) <;> cases hidle
      · intro _
        refine ⟨s1, mem_cons_of_mem q mem_cons_self, rfl, ?_⟩
        rw [hsock1]
        exact ⟨rfl, rfl⟩
    · obtain rfl : q = s1 := (mem_cons.mp hq).resolve_right hold
      constructor <;> rw [hsock1]
      · exact newSocket_refcount_ne_zero t
      · rintro (hidle | hidle) <;> cases hidle
      · intro _
        refine ⟨s2, mem_cons_self, rfl, ?_⟩
        rw [hsock2]
        exact ⟨rfl, rfl⟩

theorem Ok.link (h : Ok s waiting) {t : Ptr} (ht : t ∈ s.list)
    (hstate : (s.sock p).state ≠ .connected)
    (hrefuses : ¬ refuses (s.sock t)) (hcount : (s.sock t).refcount + 1 ≠ 0)
    (hwaiting : p ∉ waiting)
    (hstream : (s.sock p).type = .stream -> Connectable s p t) :
    Ok ((s.modify t addRef).modify p (link t)) waiting := by
  have hbase : Ok (s.modify t addRef) waiting :=
    h.modify_same t (fun _ => rfl) (fun _ => rfl) (fun _ => rfl)
      (fun _ => hcount)
  have hfound (q : Ptr) :
      ((s.modify t addRef).sock q).type = (s.sock q).type ∧
        ((s.modify t addRef).sock q).state = (s.sock q).state := by
    rw [modify_sock]
    split <;> exact ⟨rfl, rfl⟩
  have ht' : t ∈ (s.modify t addRef).list := ht
  generalize s.modify t addRef = s0 at hbase hfound ht'
  apply hbase.modify rfl
  · exact hbase.counted p
  · rintro _ (hidle | hidle) <;> cases hidle
  · exact fun hp => absurd hp hwaiting
  · exact fun _ => ⟨t, ht', rfl⟩
  · -- a stream socket is linked to a listener, which is not a stream socket
    rintro b _ htype ⟨⟩ hb
    obtain ⟨hun, hlistening⟩ := hstream ((hfound p).1.symm.trans htype)
    have hne : t ≠ p := by
      rintro rfl
      rw [hun] at hlistening
      cases hlistening
    rw [modify_sock, if_neg hne, (hfound t).1] at hb
    exact absurd (by simp [refuses, hb, hlistening]) hrefuses
  · -- nobody's peer is an unconnected stream socket
    intro a ha hconn htype hap hp
    have hpeer := hbase.mutual_peer a p ha hconn htype hap hp
    obtain ⟨hun, _⟩ := hstream ((hfound p).1.symm.trans hp)
    rw [(hfound p).2, hun] at hpeer
    simp at hpeer

theorem Ok.destroy (h : Ok s waiting)
    (hfree : (s.sock p).refcount = 1 -> p ∉ waiting ∧
      forall q, q ∈ s.list -> q ≠ p ->
        (s.sock q).state = .connected -> (s.sock q).peer ≠ some p) :
    Ok (unixSocketDestroy s p) waiting := by
  by_cases hone : (s.sock p).refcount = 1
  · obtain ⟨hwaiting, hpeers⟩ := hfree hone
    have hsock {q : Ptr} (hq : q ∈ s.list.erase p) : q ≠ p ∧ q ∈ s.list ∧
        (s.modify p dropRef).sock q = s.sock q := by
      obtain ⟨hne, hmem⟩ := h.nodup.mem_erase_iff.mp hq
      refine ⟨hne, hmem, ?_⟩
      rw [modify_sock, if_neg hne]
    rw [destroy_of_eq hone]
    refine ⟨h.nodup.erase p, ?_, ?_, ?_, ?_, ?_⟩
    · intro q hq
      obtain ⟨_, hmem, hsame⟩ := hsock hq
      rw [hsame]
      exact h.counted q hmem
    · intro q hq
      obtain ⟨_, hmem, hsame⟩ := hsock hq
      rw [hsame]
      exact h.idle q hmem
    · intro q hq
      obtain ⟨hmem, hpeer⟩ := h.waiting q hq
      have hne : q ≠ p := by
        rintro rfl
        exact hwaiting hq
      have hq' := h.nodup.mem_erase_iff.mpr ⟨hne, hmem⟩
      rw [(hsock hq').2.2]
      exact ⟨hq', hpeer⟩
    · intro a ha hconn
      obtain ⟨hne, hmem, hsame⟩ := hsock ha
      rw [hsame] at hconn ⊢
      obtain ⟨b, hb, hpeer⟩ := h.linked a hmem hconn
      have hbp : b ≠ p := by
        rintro rfl
        exact hpeers a hmem hne hconn hpeer
      exact ⟨b, h.nodup.mem_erase_iff.mpr ⟨hbp, hb⟩, hpeer⟩
    · intro a b ha hconn htype hab hb
      obtain ⟨hne, hmem, hsame⟩ := hsock ha
      rw [hsame] at hconn htype hab
      have hbp : b ≠ p := by
        rintro rfl
        exact hpeers a hmem hne hconn hab
      have hb' := h.nodup.mem_erase_iff.mpr ⟨hbp, h.linked_mem hmem hconn hab⟩
      rw [(hsock hb').2.2] at hb ⊢
      exact h.mutual_peer a b hmem hconn htype hab hb
  · rw [destroy_of_ne hone]
    have hcount : (s.sock p).refcount - 1 ≠ 0 := by bv_omega
    exact h.modify_same p (fun _ => rfl) (fun _ => rfl) (fun _ => rfl)
      (fun _ => hcount)

/-! ## Runs -/

def Inv (w : World) : Prop := Ok w.sockets w.waiting

theorem inv_init (h : Init w) : Inv w := by
  unfold Inv
  rw [h.waiting]
  constructor <;> rw [h.list]
  · exact nodup_nil
  · intro p hp
    cases hp
  · intro p hp
    cases hp
  · intro p hp
    cases hp
  · intro p hp
    cases hp
  · intro a b ha
    cases ha

theorem Ok.bound_ne_zero (h : Ok s waiting) (addr : List UInt8) (t : Ptr)
    (ht : s.bound addr = some t) : (s.sock t).refcount ≠ 0 :=
  h.counted t (bound_mem ht)

theorem Inv.bind (h : Inv w) {memory : Bool}
    (hok : StepOk w (.bind p addr memory))
    (heffect : effect w (.bind p addr memory) = some w') : Inv w' := by
  cases heffect
  rcases unixSocketBind_cases w.sockets p addr memory with
    hbind | hbind | ⟨t, _, hbound, hbind⟩
  · rw [hbind]
    exact h
  · rw [hbind]
    exact h.modify_same p (fun _ => rfl) (fun _ => rfl) (fun _ => rfl)
      (fun hp => h.counted p hp)
  · rw [hbind]
    exact h.modify_same t (fun _ => rfl) (fun _ => rfl) (fun _ => rfl)
      (fun _ => hok t hbound)

theorem Inv.connect (h : Inv w) (hok : ConnectOk w p addr)
    (heffect : effect w (.connect p addr) = some w') : Inv w' := by
  rcases unixSocketConnect_cases w.sockets p addr (h.bound_ne_zero addr) with
    ⟨hconnect, _⟩ | ⟨hstate, t, hbound, hrefuses, hconnect⟩
  · simp only [effect, hconnect] at heffect
    cases heffect
    exact h
  · simp only [effect, hconnect] at heffect
    cases heffect
    obtain ⟨hcount, hwaiting, hstream⟩ :=
      (hok.resolve_left hstate t hbound).2 hrefuses
    exact Ok.link h (bound_mem hbound) hstate hrefuses hcount hwaiting hstream

theorem Ok.accept_waits (h : Ok s waiting) (hp : p ∈ waiting)
    (memory : Option Ptr) : acceptLoop s p memory = some .waits :=
  acceptLoop_of_none (h.waiting p hp).2 memory

theorem Ok.accept_cases (h : Ok s waiting) (hp : p ∈ s.list)
    (memory : Option Ptr) :
    unixSocketAccept s p memory = some .failed ∨
      ((s.sock p).peer = none ∧ unixSocketAccept s p memory = some .waits) := by
  unfold unixSocketAccept
  by_cases hstate : (s.sock p).state = .connecting
  · right
    have hnone := h.idle p hp (Or.inr hstate)
    rw [if_neg (not_not_intro hstate)]
    exact ⟨hnone, acceptLoop_of_none hnone memory⟩
  · left
    rw [if_pos hstate]

theorem Ok.wait {waiting' : List Ptr} (h : Ok s waiting)
    (hwaiting : forall p, p ∈ waiting' ->
      p ∈ waiting ∨ (p ∈ s.list ∧ (s.sock p).peer = none)) : Ok s waiting' := by
  refine { h with waiting := ?_ }
  intro p hp
  rcases hwaiting p hp with hold | hnew
  · exact h.waiting p hold
  · exact hnew

theorem Inv.accept (h : Inv w) (hp : p ∈ w.sockets.list)
    (heffect : effect w (.accept p memory) = some w') : Inv w' := by
  rcases Ok.accept_cases h hp memory with haccept | ⟨hnone, haccept⟩
  · simp only [effect, haccept] at heffect
    cases heffect
    exact h
  · simp only [effect, haccept] at heffect
    cases heffect
    apply Ok.wait h
    intro q hq
    rcases mem_cons.mp hq with rfl | hq
    · exact Or.inr ⟨hp, hnone⟩
    · exact Or.inl hq

theorem Inv.resume (h : Inv w) (hp : p ∈ w.waiting)
    (heffect : effect w (.resume p memory) = some w') : Inv w' := by
  simp only [effect, Ok.accept_waits h hp] at heffect
  cases heffect
  apply Ok.wait h
  intro q hq
  left
  rcases mem_cons.mp hq with rfl | hq
  · exact hp
  · exact mem_of_mem_erase hq

theorem Inv.pair (h : Inv w) {type : Int} {memory1 memory2 : Option Ptr}
    (hvalid : Valid w (.pair type memory1 memory2))
    (heffect : effect w (.pair type memory1 memory2) = some w') :
    Inv w' := by
  obtain ⟨hfresh1, hfresh2, hne⟩ := hvalid
  rcases unixSocketPair_cases type hfresh1 hne with
    ⟨s, hpair, hlist, hsock⟩ | ⟨t, s1, s2, _, hmem1, hmem2, hpair⟩
  · simp only [effect, hpair] at heffect
    cases heffect
    apply h.same
    · refine ⟨hlist, ?_, ?_, ?_⟩ <;>
      · intro q hq
        rw [hsock q hq]
    · intro q hq
      rw [hsock q hq]
      exact h.counted q hq
  · simp only [effect, hpair] at heffect
    cases heffect
    have h12 : s1 ≠ s2 := by
      rintro rfl
      rcases hne with hnone | hne
      · rw [hmem1] at hnone
        cases hnone
      · exact hne (hmem1.trans hmem2.symm)
    exact Ok.pair h (hfresh1 s1 hmem1) (hfresh2 s2 hmem2) h12 t

theorem Inv.step {c : Call} (h : Inv w) (hok : StepOk w c)
    (hnext : next w c = some w') : Inv w' := by
  obtain ⟨hvalid, heffect⟩ := next_eq_some hnext
  cases c with
  | create type memory =>
    rcases unixSocketCreate_cases w.sockets type memory with
      hcreate | ⟨t, p, hmem, hcreate⟩
    · simp only [effect, hcreate] at heffect
      cases heffect
      exact h
    · simp only [effect, hcreate] at heffect
      cases heffect
      exact Ok.create h (hvalid p hmem) t
  | bind p addr memory => exact h.bind hok heffect
  | listen p =>
    cases heffect
    rcases unixSocketListen_cases w.sockets p with hlisten | ⟨hstate, hlisten⟩
    · rw [hlisten]
      exact h
    · rw [hlisten]
      exact Ok.setState h (by decide) (Or.inr hstate)
  | connect p addr => exact h.connect hok heffect
  | accept p memory => exact h.accept hvalid.1 heffect
  | resume p memory => exact h.resume hvalid.1 heffect
  | send p buf memory =>
    obtain ⟨⟨r, s⟩, hsend, rfl⟩ := Option.map_eq_some_iff.mp heffect
    rcases unixSocketSend_cases hsend with rfl | ⟨t, rfl⟩
    · exact h
    · exact Ok.addMessage h t buf
  | sendto p buf addr memory =>
    obtain ⟨⟨r, s⟩, hsend, rfl⟩ := Option.map_eq_some_iff.mp heffect
    rcases unixSocketSendto_cases (h.bound_ne_zero addr) hsend with
      rfl | ⟨t, rfl⟩
    · exact h
    · exact Ok.addMessage h t buf
  | shutdown p =>
    have hclose {s : Sockets} (h : Ok s w.waiting) (q : Ptr) :
        Ok (s.modify q (setState .disconnected)) w.waiting :=
      h.setState (by decide) (Or.inl rfl)
    obtain ⟨⟨r, s⟩, hshut, rfl⟩ := Option.map_eq_some_iff.mp heffect
    rcases unixSocketShutdown_cases hshut with rfl | rfl | ⟨t, rfl⟩
    · exact h
    · exact hclose h p
    · exact hclose (hclose h p) t
  | pair type memory1 memory2 => exact h.pair hvalid heffect
  | destroy p =>
    cases heffect
    exact Ok.destroy h hok

theorem inv_of_reachable (hreach : Reachable Init (Guarded StepOk next) w) :
    Inv w := 
  hreach.guarded inv_init Inv.step

theorem Ok.connect_iff (h : Ok w.sockets w.waiting)
    (hstream : (w.sockets.sock p).type = .stream)
    (hok : ConnectOk w p addr) :
    (unixSocketConnect w.sockets p addr).1 = true <->
      exists t, w.sockets.bound addr = some t ∧ Connectable w.sockets p t := by
  rcases unixSocketConnect_cases w.sockets p addr (h.bound_ne_zero addr) with
    ⟨hconnect, hwhy⟩ | ⟨hstate, t, hbound, hrefuses, hconnect⟩
  · rw [hconnect]
    refine ⟨fun hfalse => (by cases hfalse), ?_⟩
    rintro ⟨t, hbound, hcan⟩
    have hstate : (w.sockets.sock p).state ≠ .connected := by
      rw [hcan.1]
      decide
    have hrefuses := hwhy.resolve_left hstate t hbound
    exact absurd hcan ((hok.resolve_left hstate t hbound).1 hrefuses hstream)
  · rw [hconnect]
    obtain ⟨_, _, hcan⟩ := (hok.resolve_left hstate t hbound).2 hrefuses
    exact ⟨fun _ => ⟨t, hbound, hcan hstream⟩, fun _ => rfl⟩

/-- Over every sequence of calls that meet the condition: the next stream connect
succeeds exactly for an unconnected caller and a listening target, an accept that
ends returns a socket connected to a client that has called connect and was not
accepted before, and a connected stream socket has a peer that exists and, if it
is a connected stream socket, points back. -/
theorem unix_stream_protocol {w : World}
    (hreach : Reachable Init (Guarded StepOk next) w) :
    (forall p addr, p ∈ w.sockets.list ->
      (w.sockets.sock p).type = SocketType.stream ->
      StepOk w (Call.connect p addr) ->
        ((unixSocketConnect w.sockets p addr).1 = true <->
          exists t, w.sockets.bound addr = some t ∧
            Connectable w.sockets p t)) ∧
    (forall p memory new s',
      (p ∈ w.sockets.list ∧
        unixSocketAccept w.sockets p memory = some (Accepted.socket new s')) ∨
      (p ∈ w.waiting ∧
        acceptLoop w.sockets p memory = some (Accepted.socket new s')) ->
      exists c, (s'.sock new).peer = some c ∧ c ∈ w.called ∧ c ∉ w.accepted) ∧
    (forall a, a ∈ w.sockets.list ->
      (w.sockets.sock a).state = SocketState.connected ->
      (w.sockets.sock a).type = SocketType.stream ->
        exists b, b ∈ w.sockets.list ∧ (w.sockets.sock a).peer = some b ∧
          ((w.sockets.sock b).type = SocketType.stream ->
            (w.sockets.sock b).state = SocketState.connected ->
              (w.sockets.sock b).peer = some a)) := by
  have h : Ok w.sockets w.waiting := inv_of_reachable hreach
  refine ⟨?_, ?_, ?_⟩
  · intro p addr _ hstream hok
    exact h.connect_iff hstream hok
  · -- no accept comes to its end
    rintro p memory new s' (⟨hp, haccept⟩ | ⟨hp, haccept⟩)
    · rcases h.accept_cases hp memory with hcase | ⟨_, hcase⟩
      · rw [hcase] at haccept
        cases haccept
      · rw [hcase] at haccept
        cases haccept
    · rw [h.accept_waits hp] at haccept
      cases haccept
  · intro a ha hconn hstream
    obtain ⟨b, hb, hpeer⟩ := h.linked a ha hconn
    refine ⟨b, hb, hpeer, ?_⟩
    intro htype hstate
    rcases h.mutual_peer a b ha hconn hstream hpeer htype with ⟨_, hback⟩ | hdis
    · exact hback
    · rw [hstate] at hdis
      cases hdis

/-- A pair of stream sockets, and a stream socket that connects to a listener of
another type. -/
theorem unix_stream_protocol_pair :
    exists w, Reachable Init (Guarded StepOk next) w ∧
      (unixSocketConnect w.sockets 4 [65]).1 = true ∧
      exists b, b ∈ w.sockets.list ∧ (w.sockets.sock 1).peer = some b := by
  have hinit : Reachable Init (Guarded StepOk next)
      noSockets := Reachable.init noSockets_init
  have hpair := hinit.step (l := Call.pair 1 (some 1) (some 2)) ⟨trivial, rfl⟩
  have hthird := hpair.step (l := Call.create 3 (some 3)) ⟨trivial, rfl⟩
  have hbind := hthird.step (l := Call.bind 3 [65] true)
    ⟨(by intro t ht; cases ht), rfl⟩
  have hlisten := hbind.step (l := Call.listen 3) ⟨trivial, rfl⟩
  have hclient := hlisten.step (l := Call.create 1 (some 4)) ⟨trivial, rfl⟩
  obtain ⟨hconnect, _, hpeers⟩ := unix_stream_protocol hclient
  have h4 : (4 : Ptr) ∈ ([4, 3, 2, 1] : List Ptr) := by decide
  have h1 : (1 : Ptr) ∈ ([4, 3, 2, 1] : List Ptr) := by decide
  obtain ⟨b, hb, hpeer, _⟩ := hpeers 1 h1 rfl rfl
  refine ⟨_, hclient, (hconnect 4 [65] h4 rfl ?_).mpr ⟨3, rfl, rfl, rfl⟩,
    b, hb, hpeer⟩
  right
  rintro t ⟨⟩
  refine ⟨fun hrefuses => absurd hrefuses (by decide), fun _ => ?_⟩
  exact ⟨by decide, by decide, fun _ => ⟨rfl, rfl⟩⟩

/-- A stream connect to a listener fails, and one end of a pair is left with a
pointer to the other end when that is destroyed. -/
theorem connect_to_listener_fails :
    (exists w, Reachable Init
        (fun w c w' => next w c = some w') w ∧
      (2 : Ptr) ∈ w.sockets.list ∧
      (w.sockets.sock 2).type = SocketType.stream ∧
      w.sockets.bound [65] = some 1 ∧ Connectable w.sockets 2 1 ∧
      (unixSocketConnect w.sockets 2 [65]).1 = false) ∧
    exists w, Reachable Init
        (fun w c w' => next w c = some w') w ∧
      (1 : Ptr) ∈ w.sockets.list ∧
      (w.sockets.sock 1).type = SocketType.stream ∧
      (w.sockets.sock 1).state = SocketState.connected ∧
      (w.sockets.sock 1).peer = some 2 ∧ (2 : Ptr) ∉ w.sockets.list := by
  have hinit : Reachable Init (fun w c w' => next w c = some w')
      noSockets := Reachable.init noSockets_init
  have hserver := hinit.step (l := Call.create 1 (some 1)) rfl
  have hbind := hserver.step (l := Call.bind 1 [65] true) rfl
  have hlisten := hbind.step (l := Call.listen 1) rfl
  have hclient := hlisten.step (l := Call.create 1 (some 2)) rfl
  have hpair := hinit.step (l := Call.pair 1 (some 1) (some 2)) rfl
  have hdestroy := hpair.step (l := Call.destroy 2) rfl
  have h2 : (2 : Ptr) ∈ ([2, 1] : List Ptr) := by decide
  have h1 : (1 : Ptr) ∈ ([1] : List Ptr) := by decide
  have hgone : (2 : Ptr) ∉ ([1] : List Ptr) := by decide
  exact ⟨⟨_, hclient, h2, rfl, rfl, ⟨rfl, rfl⟩, rfl⟩,
    ⟨_, hdestroy, h1, rfl, rfl, rfl, hgone⟩⟩

end Protocol
end UnixSocket
end Ipc
end Horizon
