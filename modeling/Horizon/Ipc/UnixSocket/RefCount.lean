import Horizon.Ipc.UnixSocket.Calls
import Horizon.Lib.Holders

/-!
# Reference counts

The references to a socket are the one of its owner and the pointers of its
peers.  A lookup takes one, and every caller has to account for it: the failed
bind, the pair and the destruction of a connected socket do not.
-/

namespace Horizon
namespace Ipc
namespace UnixSocket
namespace RefCount

open Function Holders Transition

def peers (s : Sockets) (q : Ptr) : Option Ptr := (s.sock q).peer

def references (s : Sockets) (owned : Ptr -> Bool) (p : Ptr) : Nat :=
  (if owned p then 1 else 0) + holders s.list (peers s) p

/-- Every count is the number of references, and exactly the sockets with a
reference exist. -/
structure Counted (s : Sockets) (owned : Ptr -> Bool) : Prop where
  nodup : s.list.Nodup
  count : forall p, p ∈ s.list ->
    (s.sock p).refcount = BitVec.ofNat 32 (references s owned p)
  live : forall p, p ∈ s.list <-> 0 < references s owned p

/-- No call loses a reference: binding goes to a free address, a socket is
connected that has no peer, and the owner destroys a socket once and not while
it holds a peer itself. -/
def StepOk (w : World) : Call -> Prop
  | Call.bind p addr _ =>
      (w.sockets.sock p).address = none -> w.sockets.bound addr = none
  | Call.connect p addr => (w.sockets.sock p).peer = none ∨
      (w.sockets.sock p).state = SocketState.connected ∨
      forall t, w.sockets.bound addr = some t -> refuses (w.sockets.sock t)
  | Call.accept p _ => (w.sockets.sock p).state ≠ SocketState.connecting ∨
      (w.sockets.sock p).peer = none
  | Call.resume p _ => (w.sockets.sock p).peer = none
  | Call.pair type memory1 memory2 =>
      socketType type = none ∨ memory1 = none ∨ memory2 = none
  | Call.destroy p => w.owned p = true ∧
      ((w.sockets.sock p).refcount = 1 -> (w.sockets.sock p).peer = none)
  | Call.create _ _ | Call.listen _ | Call.send _ _ _ | Call.sendto _ _ _ _
  | Call.shutdown _ => True

/-! ## Counts as numbers -/

variable {s s' : Sockets} {owned : Ptr -> Bool} {p : Ptr} {w w' : World}
    {addr : List UInt8}

theorem references_le (owned : Ptr -> Bool) (h : s.list.Nodup) (p : Ptr) :
    references s owned p <= 2 ^ 30 + 1 := by
  have hcard := holders_le_card h (peers s) p
  rw [Fintype.card_fin] at hcard
  unfold references
  split <;> omega

theorem Counted.toNat (h : Counted s owned) (hp : p ∈ s.list) :
    (s.sock p).refcount.toNat = references s owned p := by
  have hle := references_le owned h.nodup p
  rw [h.count p hp, BitVec.toNat_ofNat]
  omega

theorem Counted.refcount_ne_zero (h : Counted s owned) (hp : p ∈ s.list) :
    (s.sock p).refcount ≠ 0 := by
  intro hzero
  have hcount := h.toNat hp
  have hpos := (h.live p).mp hp
  rw [hzero] at hcount
  exact Nat.ne_of_gt hpos hcount.symm

/-! ## Calls that change no reference -/

/-- The sockets that exist keep their peers and their counts. -/
structure SameRefs (s s' : Sockets) : Prop where
  list : s'.list = s.list
  peer : forall q, q ∈ s.list -> (s'.sock q).peer = (s.sock q).peer
  refcount : forall q, q ∈ s.list -> (s'.sock q).refcount = (s.sock q).refcount

theorem SameRefs.trans {s'' : Sockets} (h : SameRefs s s')
    (h' : SameRefs s' s'') : SameRefs s s'' := by
  refine ⟨h'.list.trans h.list, ?_, ?_⟩
  · intro q hq
    rw [h'.peer q (by rw [h.list]; exact hq), h.peer q hq]
  · intro q hq
    rw [h'.refcount q (by rw [h.list]; exact hq), h.refcount q hq]

theorem SameRefs.modify (s : Sockets) (p : Ptr) {f : Socket -> Socket}
    (hpeer : forall k, (f k).peer = k.peer)
    (hcount : forall k, (f k).refcount = k.refcount) :
    SameRefs s (s.modify p f) := by
  refine ⟨rfl, ?_, ?_⟩
  · intro q hq
    rw [modify_sock]
    split
    · exact hpeer _
    · rfl
  · intro q hq
    rw [modify_sock]
    split
    · exact hcount _
    · rfl

theorem SameRefs.references (h : SameRefs s s') (owned : Ptr -> Bool) (p : Ptr) :
    references s' owned p = references s owned p := by
  have hpeers : forall q, q ∈ s.list -> peers s' q = peers s q := h.peer
  unfold RefCount.references
  rw [h.list, holders_congr hpeers]

theorem Counted.same (h : Counted s owned) (hsame : SameRefs s s') :
    Counted s' owned := by
  refine ⟨?_, ?_, ?_⟩
  · rw [hsame.list]
    exact h.nodup
  · intro p hp
    rw [hsame.list] at hp
    rw [hsame.refcount p hp, hsame.references]
    exact h.count p hp
  · intro p
    rw [hsame.list, hsame.references]
    exact h.live p

/-! ## Calls that change references -/

theorem Counted.push (h : Counted s owned) (hfresh : p ∉ s.list)
    (t : SocketType) :
    Counted (push s p (newSocket t)) (update owned p true) := by
  have hold : references s owned p = 0 := by
    have hlive := (not_congr (h.live p)).mp hfresh
    omega
  have hholders (q : Ptr) : holders (p :: s.list)
      (peers (UnixSocket.push s p (newSocket t))) q =
        holders s.list (peers s) q := by
    rw [holders_cons_of_none]
    · apply holders_congr
      intro r hr
      unfold peers
      rw [push_sock_of_mem _ hfresh hr]
    · unfold peers
      rw [push_sock_self]
      rfl
  have hself : references (UnixSocket.push s p (newSocket t))
      (update owned p true) p = 1 := by
    unfold references at hold ⊢
    rw [update_self, if_pos rfl]
    show 1 + holders (p :: s.list) _ p = 1
    rw [hholders]
    omega
  have hother {q : Ptr} (hne : q ≠ p) :
      references (UnixSocket.push s p (newSocket t))
        (update owned p true) q = references s owned q := by
    unfold references
    rw [update_of_ne hne]
    exact congrArg _ (hholders q)
  refine ⟨List.nodup_cons.mpr ⟨hfresh, h.nodup⟩, ?_, ?_⟩
  · intro q hq
    by_cases hne : q = p
    · subst hne
      rw [push_sock_self, hself]
      rfl
    · have hmem : q ∈ s.list := (List.mem_cons.mp hq).resolve_left hne
      rw [push_sock_of_mem _ hfresh hmem, hother hne]
      exact h.count q hmem
  · intro q
    by_cases hne : q = p
    · subst hne
      rw [hself]
      simp [UnixSocket.push]
    · rw [hother hne, <- h.live q]
      simp [UnixSocket.push, hne]

/-- A socket without a peer gets one, and the reference is counted. -/
theorem Counted.connect (h : Counted s owned) {t : Ptr} (hp : p ∈ s.list)
    (ht : t ∈ s.list) (hnone : (s.sock p).peer = none) :
    Counted ((s.modify t addRef).modify p (link t)) owned := by
  have hpeers : peers ((s.modify t addRef).modify p (link t)) =
      update (peers s) p (some t) := by
    funext q
    unfold peers
    rw [modify_sock, modify_sock]
    by_cases hq : q = p
    · subst hq
      rw [if_pos rfl, update_self]
      rfl
    · rw [if_neg hq, update_of_ne hq]
      split <;> rfl
  have hrefs (q : Ptr) :
      references ((s.modify t addRef).modify p (link t)) owned q =
        references s owned q + if t = q then 1 else 0 := by
    unfold references
    rw [hpeers]
    simp only [modify_list]
    rw [holders_update h.nodup hp hnone, Nat.add_assoc]
  have hcount (q : Ptr) :
      (((s.modify t addRef).modify p (link t)).sock q).refcount =
        (s.sock q).refcount + if t = q then 1 else 0 := by
    rw [modify_sock, modify_sock]
    by_cases hq : q = t
    · subst hq
      rw [if_pos rfl, if_pos rfl]
      split <;> rfl
    · have hzero : (s.sock q).refcount + 0 = (s.sock q).refcount :=
        BitVec.add_zero _
      rw [if_neg hq, if_neg (Ne.symm hq), hzero]
      split <;> rfl
  refine ⟨h.nodup, ?_, ?_⟩
  · intro q hq
    rw [hcount, hrefs, h.count q hq, BitVec.ofNat_add]
    split <;> rfl
  · intro q
    rw [hrefs]
    by_cases hq : t = q
    · subst hq
      rw [if_pos rfl]
      exact ⟨fun _ => Nat.succ_pos _, fun _ => ht⟩
    · rw [if_neg hq]
      exact h.live q

theorem peers_dropRef (s : Sockets) (p : Ptr) :
    peers (s.modify p dropRef) = peers s := by
  funext q
  unfold peers
  rw [modify_sock]
  split <;> rfl

theorem references_disown (hown : owned p = true) (q : Ptr) :
    references s owned q = references s (update owned p false) q +
      if q = p then 1 else 0 := by
  unfold references
  by_cases hq : q = p
  · subst hq
    rw [hown, update_self]
    simp [Nat.add_comm]
  · rw [update_of_ne hq, if_neg hq, Nat.add_zero]

theorem Counted.destroy (h : Counted s owned) (hp : p ∈ s.list)
    (hown : owned p = true)
    (hlast : (s.sock p).refcount = 1 -> (s.sock p).peer = none) :
    Counted (unixSocketDestroy s p) (update owned p false) := by
  have hdisown := references_disown (s := s) hown
  have hself := hdisown p
  rw [if_pos rfl] at hself
  have hother {q : Ptr} (hq : q ≠ p) := by
    have hq' := hdisown q
    rw [if_neg hq, Nat.add_zero] at hq'
    exact hq'.symm
  have hcount := h.toNat hp
  by_cases hone : (s.sock p).refcount = 1
  · -- the last reference: the socket goes, and it pointed nowhere
    have hzero : references s (update owned p false) p = 0 := by
      rw [hone] at hcount
      have h1 : (1 : BitVec 32).toNat = 1 := rfl
      omega
    have hrefs (q : Ptr) : references
        ⟨s.list.erase p, (s.modify p dropRef).sock⟩
          (update owned p false) q =
        references s (update owned p false) q := by
      unfold references
      show _ + holders (s.list.erase p) (peers (s.modify p dropRef)) q = _
      rw [peers_dropRef, holders_erase_of_none hp (hlast hone)]
    rw [destroy_of_eq hone]
    refine ⟨h.nodup.erase p, ?_, ?_⟩
    · intro q hq
      obtain ⟨hne, hmem⟩ := h.nodup.mem_erase_iff.mp hq
      rw [hrefs, hother hne, <- h.count q hmem]
      rw [modify_sock, if_neg hne]
    · intro q
      rw [hrefs]
      rw [h.nodup.mem_erase_iff]
      by_cases hne : q = p
      · subst hne
        rw [hzero]
        simp
      · rw [hother hne, h.live q]
        simp [hne]
  · have hrefs (q : Ptr) : references (s.modify p dropRef)
        (update owned p false) q =
        references s (update owned p false) q := by
      unfold references
      rw [peers_dropRef]
      rfl
    have hpos : 0 < references s (update owned p false) p := by
      apply Nat.pos_of_ne_zero
      intro hzero
      apply hone
      apply BitVec.eq_of_toNat_eq
      rw [hcount, hself, hzero]
      rfl
    rw [destroy_of_ne hone]
    refine ⟨h.nodup, ?_, ?_⟩
    · intro q hq
      rw [hrefs, modify_sock]
      by_cases hne : q = p
      · subst hne
        rw [if_pos rfl]
        show (s.sock q).refcount - 1 = _
        rw [h.count q hq, hself, BitVec.ofNat_add]
        exact BitVec.add_sub_cancel _ _
      · rw [if_neg hne, hother hne]
        exact h.count q hq
    · intro q
      rw [hrefs]
      by_cases hne : q = p
      · subst hne
        exact ⟨fun _ => hpos, fun _ => hp⟩
      · rw [hother hne]
        exact h.live q

/-! ## Runs -/

def Inv (w : World) : Prop := Counted w.sockets w.owned

theorem inv_init (h : Init w) : Inv w := by
  refine ⟨?_, ?_, ?_⟩
  · rw [h.list]
    exact List.nodup_nil
  · intro p hp
    rw [h.list] at hp
    cases hp
  · intro p
    unfold references
    rw [h.list, h.owned]
    simp [holders]

theorem Counted.bound_ne_zero (h : Counted s owned) (addr : List UInt8)
    (t : Ptr) (ht : s.bound addr = some t) : (s.sock t).refcount ≠ 0 :=
  h.refcount_ne_zero (bound_mem ht)

theorem Inv.bind (h : Inv w) {memory : Bool}
    (hok : StepOk w (.bind p addr memory))
    (heffect : effect w (.bind p addr memory) = some w') : Inv w' := by
  cases heffect
  rcases unixSocketBind_cases w.sockets p addr memory with
    hbind | hbind | ⟨t, haddr, hbound, _⟩
  · rw [hbind]
    exact h
  · rw [hbind]
    exact h.same (SameRefs.modify _ p (fun _ => rfl) (fun _ => rfl))
  · rw [hok haddr] at hbound
    cases hbound

theorem Inv.connect (h : Inv w) (hp : p ∈ w.sockets.list)
    (hok : StepOk w (.connect p addr))
    (heffect : effect w (.connect p addr) = some w') : Inv w' := by
  rcases unixSocketConnect_cases w.sockets p addr (h.bound_ne_zero addr) with
    ⟨hconnect, _⟩ | ⟨hstate, t, hbound, hrefuses, hconnect⟩
  · simp only [effect, hconnect] at heffect
    cases heffect
    exact h
  · simp only [effect, hconnect] at heffect
    cases heffect
    have hnone : (w.sockets.sock p).peer = none := by
      rcases hok with hnone | hconn | hall
      · exact hnone
      · exact absurd hconn hstate
      · exact absurd (hall t hbound) hrefuses
    exact Counted.connect h hp (bound_mem hbound) hnone

theorem Inv.accept (h : Inv w) {memory : Option Ptr}
    (hok : StepOk w (.accept p memory))
    (heffect : effect w (.accept p memory) = some w') : Inv w' := by
  by_cases hstate : (w.sockets.sock p).state = .connecting
  · have hnone := hok.resolve_left (not_not_intro hstate)
    simp only [effect, unixSocketAccept, if_neg (not_not_intro hstate),
      acceptLoop_of_none hnone memory] at heffect
    cases heffect
    exact h
  · simp only [effect, unixSocketAccept, if_pos hstate] at heffect
    cases heffect
    exact h

theorem Inv.pair (h : Inv w) {type : Int} {memory1 memory2 : Option Ptr}
    (hvalid : Valid w (.pair type memory1 memory2))
    (hok : StepOk w (.pair type memory1 memory2))
    (heffect : effect w (.pair type memory1 memory2) = some w') :
    Inv w' := by
  obtain ⟨hfresh, _, hne⟩ := hvalid
  rcases unixSocketPair_cases type hfresh hne with
    ⟨s, hpair, hlist, hsock⟩ | ⟨t, s1, s2, htype, hmem1, hmem2, _⟩
  · simp only [effect, hpair] at heffect
    cases heffect
    refine h.same ⟨hlist, ?_, ?_⟩
    · intro q hq
      rw [hsock q hq]
    · intro q hq
      rw [hsock q hq]
  · rcases hok with hbad | hbad | hbad
    · rw [htype] at hbad
      cases hbad
    · rw [hmem1] at hbad
      cases hbad
    · rw [hmem2] at hbad
      cases hbad

theorem Inv.step {c : Call} (h : Inv w) (hok : StepOk w c)
    (hnext : next w c = some w') : Inv w' := by
  obtain ⟨hvalid, heffect⟩ := next_eq_some hnext
  cases c with
  | create type memory =>
    rcases unixSocketCreate_cases w.sockets type memory with
      hcreate | ⟨t, p, hmem, hcreate⟩
    · simp only [effect, hcreate] at heffect
      cases heffect
      exact h
    · simp only [effect, hcreate] at heffect
      cases heffect
      exact Counted.push h (hvalid p hmem) t
  | bind p addr memory => exact h.bind hok heffect
  | listen p =>
    cases heffect
    rcases unixSocketListen_cases w.sockets p with hlisten | ⟨_, hlisten⟩
    · rw [hlisten]
      exact h
    · rw [hlisten]
      exact h.same (SameRefs.modify _ p (fun _ => rfl) (fun _ => rfl))
  | connect p addr => exact h.connect hvalid hok heffect
  | accept p memory => exact h.accept hok heffect
  | resume p memory =>
    simp only [effect, acceptLoop_of_none hok memory] at heffect
    cases heffect
    exact h
  | send p buf memory =>
    obtain ⟨⟨r, s⟩, hsend, rfl⟩ := Option.map_eq_some_iff.mp heffect
    rcases unixSocketSend_cases hsend with rfl | ⟨t, rfl⟩
    · exact h
    · exact h.same (SameRefs.modify _ t (fun _ => rfl) (fun _ => rfl))
  | sendto p buf addr memory =>
    obtain ⟨⟨r, s⟩, hsend, rfl⟩ := Option.map_eq_some_iff.mp heffect
    rcases unixSocketSendto_cases (h.bound_ne_zero addr) hsend with
      rfl | ⟨t, rfl⟩
    · exact h
    · exact h.same (SameRefs.modify _ t (fun _ => rfl) (fun _ => rfl))
  | shutdown p =>
    have hclose (s : Sockets) (q : Ptr) :
        SameRefs s (s.modify q (setState .disconnected)) :=
      SameRefs.modify s q (fun _ => rfl) (fun _ => rfl)
    obtain ⟨⟨r, s⟩, hshut, rfl⟩ := Option.map_eq_some_iff.mp heffect
    rcases unixSocketShutdown_cases hshut with rfl | rfl | ⟨t, rfl⟩
    · exact h
    · exact h.same (hclose _ p)
    · exact h.same ((hclose _ p).trans (hclose _ t))
  | pair type memory1 memory2 => exact h.pair hvalid hok heffect
  | destroy p =>
    cases heffect
    exact Counted.destroy h hvalid hok.1 hok.2

theorem inv_of_reachable (hreach : Reachable Init (Guarded StepOk next) w) :
    Inv w := 
  hreach.guarded inv_init Inv.step

/-- Over every sequence of calls that lose no reference, the count of a socket is
one for its owner and one for each peer that points to it, and a socket is freed
exactly when nothing refers to it any more. -/
theorem unix_socket_reference_counts {w : World}
    (hreach : Reachable Init (Guarded StepOk next) w)
    (p : Ptr) :
    (p ∈ w.sockets.list -> (w.sockets.sock p).refcount.toNat =
      (if w.owned p then 1 else 0) +
        w.sockets.list.countP fun q => (w.sockets.sock q).peer = some p) ∧
    (p ∈ w.sockets.list <->
      0 < (if w.owned p then 1 else 0) +
        w.sockets.list.countP fun q => (w.sockets.sock q).peer = some p) := by
  have hinv := inv_of_reachable hreach
  exact ⟨fun hp => hinv.toNat hp, hinv.live p⟩

/-- Two datagram sockets, of which the second one is connected to the first. -/
theorem unix_socket_reference_counts_one_peer :
    exists w, Reachable Init (Guarded StepOk next) w ∧
      (1 : Ptr) ∈ w.sockets.list ∧
      (w.sockets.sock 1).refcount.toNat = 1 + 1 := by
  have hinit : Reachable Init (Guarded StepOk next)
      noSockets := Reachable.init noSockets_init
  have hfirst := hinit.step (l := Call.create 2 (some 1)) ⟨trivial, rfl⟩
  have hbind := hfirst.step (l := Call.bind 1 [65] true) ⟨fun _ => rfl, rfl⟩
  have hsecond := hbind.step (l := Call.create 2 (some 2)) ⟨trivial, rfl⟩
  have hconnect := hsecond.step (l := Call.connect 2 [65])
    ⟨Or.inl rfl, rfl⟩
  have hmem : (1 : Ptr) ∈ ([2, 1] : List Ptr) := by decide
  have hcount := (unix_socket_reference_counts hconnect 1).1 hmem
  exact ⟨_, hconnect, hmem, hcount⟩

/-- A second socket that is bound to a used address takes a reference to the
first one and keeps it; the sockets of a pair point to each other without one. -/
theorem failed_bind_keeps_reference :
    (exists w, Reachable Init
        (fun w c w' => next w c = some w') w ∧
      (1 : Ptr) ∈ w.sockets.list ∧ (w.sockets.sock 1).refcount = 2 ∧
      w.owned 1 = true ∧ w.sockets.list = [2, 1] ∧
      (w.sockets.sock 1).peer = none ∧ (w.sockets.sock 2).peer = none) ∧
    exists w, Reachable Init
        (fun w c w' => next w c = some w') w ∧
      (1 : Ptr) ∈ w.sockets.list ∧ (w.sockets.sock 1).refcount = 1 ∧
      w.owned 1 = true ∧ (w.sockets.sock 2).peer = some 1 := by
  have hinit : Reachable Init (fun w c w' => next w c = some w')
      noSockets := Reachable.init noSockets_init
  have hfirst := hinit.step (l := Call.create 2 (some 1)) rfl
  have hbind := hfirst.step (l := Call.bind 1 [65] true) rfl
  have hsecond := hbind.step (l := Call.create 2 (some 2)) rfl
  have hagain := hsecond.step (l := Call.bind 2 [65] true) rfl
  have hpair := hinit.step (l := Call.pair 1 (some 1) (some 2)) rfl
  have hmem : (1 : Ptr) ∈ ([2, 1] : List Ptr) := by decide
  exact ⟨⟨_, hagain, hmem, rfl, rfl, rfl, rfl, rfl⟩,
    ⟨_, hpair, hmem, rfl, rfl, rfl⟩⟩

end RefCount
end UnixSocket
end Ipc
end Horizon
