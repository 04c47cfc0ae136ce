import Horizon.Ipc.UnixSocket.Model

/-!
# Calls on sockets

Sockets together with the tasks that wait in `unix_socket_accept`.  What the
calls mean is recorded beside them: which sockets their owner has not destroyed,
which have called `unix_socket_connect` with success, and which were accepted.
-/

namespace Horizon
namespace Ipc
namespace UnixSocket

open Function

structure World where
  sockets : Sockets
  waiting : List Ptr
  owned : Ptr -> Bool
  called : List Ptr
  accepted : List Ptr

inductive Call where
  | create (type : Int) (memory : Option Ptr)
  | bind (p : Ptr) (addr : List UInt8) (memory : Bool)
  | listen (p : Ptr)
  | connect (p : Ptr) (addr : List UInt8)
  | accept (p : Ptr) (memory : Option Ptr)
  /-- A task that waits in `unix_socket_accept` goes on. -/
  | resume (p : Ptr) (memory : Option Ptr)
  | send (p : Ptr) (buf : List UInt8) (memory : Bool)
  | sendto (p : Ptr) (buf addr : List UInt8) (memory : Bool)
  | shutdown (p : Ptr)
  | pair (type : Int) (memory1 memory2 : Option Ptr)
  | destroy (p : Ptr)

def fresh (s : Sockets) (memory : Option Ptr) : Prop :=
  forall p, memory = some p -> p ∉ s.list

instance (s : Sockets) (memory : Option Ptr) : Decidable (fresh s memory) :=
  decidable_of_iff (memory.all fun p => !s.list.contains p)
    (by cases memory <;> simp [fresh])

def Valid (w : World) : Call -> Prop
  | Call.create _ memory => fresh w.sockets memory
  | Call.bind p _ _ => p ∈ w.sockets.list
  | Call.listen p => p ∈ w.sockets.list
  | Call.connect p _ => p ∈ w.sockets.list
  | Call.accept p memory => p ∈ w.sockets.list ∧ fresh w.sockets memory
  | Call.resume p memory =>
      p ∈ w.waiting ∧ p ∈ w.sockets.list ∧ fresh w.sockets memory
  | Call.send p _ _ => p ∈ w.sockets.list
  | Call.sendto p _ _ _ => p ∈ w.sockets.list
  | Call.shutdown p => p ∈ w.sockets.list
  | Call.pair _ memory1 memory2 => fresh w.sockets memory1 ∧
      fresh w.sockets memory2 ∧ (memory1 = none ∨ memory1 ≠ memory2)
  | Call.destroy p => p ∈ w.sockets.list

instance (w : World) (c : Call) : Decidable (Valid w c) :=
  match c with
  | Call.create _ memory => inferInstanceAs (Decidable (fresh w.sockets memory))
  | Call.bind p _ _ | Call.listen p | Call.connect p _ | Call.send p _ _
  | Call.sendto p _ _ _ | Call.shutdown p | Call.destroy p =>
      inferInstanceAs (Decidable (p ∈ w.sockets.list))
  | Call.accept p memory =>
      inferInstanceAs (Decidable (p ∈ w.sockets.list ∧ fresh w.sockets memory))
  | Call.resume p memory =>
      inferInstanceAs (Decidable
        (p ∈ w.waiting ∧ p ∈ w.sockets.list ∧ fresh w.sockets memory))
  | Call.pair _ memory1 memory2 =>
      inferInstanceAs (Decidable (fresh w.sockets memory1 ∧
        fresh w.sockets memory2 ∧ (memory1 = none ∨ memory1 ≠ memory2)))

def own (owned : Ptr -> Bool) : Option Ptr -> Ptr -> Bool
  | none => owned
  | some p => update owned p true

def settle (w : World) (p : Ptr) (waiting : List Ptr) : Accepted -> World
  | Accepted.failed => { w with waiting := waiting }
  | Accepted.waits => { w with waiting := p :: waiting }
  | Accepted.socket new s => { w with
      sockets := s
      waiting := waiting
      owned := own w.owned (some new)
      accepted := (w.sockets.sock p).peer.toList ++ w.accepted }

def effect (w : World) : Call -> Option World
  | Call.create type memory =>
      let (r, s) := unixSocketCreate w.sockets type memory
      some { w with sockets := s, owned := own w.owned r }
  | Call.bind p addr memory =>
      some { w with sockets := (unixSocketBind w.sockets p addr memory).2 }
  | Call.listen p =>
      some { w with sockets := (unixSocketListen w.sockets p).2 }
  | Call.connect p addr =>
      let (ok, s) := unixSocketConnect w.sockets p addr
      some { w with
        sockets := s
        called := if ok then p :: w.called else w.called }
  | Call.accept p memory =>
      (unixSocketAccept w.sockets p memory).map (settle w p w.waiting)
  | Call.resume p memory =>
      (acceptLoop w.sockets p memory).map (settle w p (w.waiting.erase p))
  | Call.send p buf memory =>
      (unixSocketSend w.sockets p buf memory).map fun r =>
        { w with sockets := r.2 }
  | Call.sendto p buf addr memory =>
      (unixSocketSendto w.sockets p buf addr memory).map fun r =>
        { w with sockets := r.2 }
  | Call.shutdown p =>
      (unixSocketShutdown w.sockets p).map fun r => { w with sockets := r.2 }
  | Call.pair type memory1 memory2 =>
      match unixSocketPair w.sockets type memory1 memory2 with
      | (none, s) => some { w with sockets := s }
      | (some (s1, s2), s) => some { w with
          sockets := s
          owned := own (own w.owned (some s1)) (some s2) }
  | Call.destroy p => some { w with
      sockets := unixSocketDestroy w.sockets p
      owned := update w.owned p false }

def next (w : World) (c : Call) : Option World :=
  if Valid w c then effect w c else none

structure Init (w : World) : Prop where
  list : w.sockets.list = []
  waiting : w.waiting = []
  owned : w.owned = fun _ => false
  called : w.called = []
  accepted : w.accepted = []

def noSockets : World where
  sockets := ⟨[], fun _ => newSocket SocketType.stream⟩
  waiting := []
  owned := fun _ => false
  called := []
  accepted := []

theorem noSockets_init : Init noSockets :=
  ⟨rfl, rfl, rfl, rfl, rfl⟩

theorem next_eq_some {w w' : World} {c : Call} (h : next w c = some w') :
    Valid w c ∧ effect w c = some w' := by
  unfold next at h
  split at h
  case isTrue hvalid => exact ⟨hvalid, h⟩
  case isFalse hvalid =>
    cases h

/-! ## Single sockets -/

@[simp] theorem modify_list (s : Sockets) (p : Ptr) (f : Socket -> Socket) :
    (s.modify p f).list = s.list := rfl

theorem modify_sock (s : Sockets) (p : Ptr) (f : Socket -> Socket) (q : Ptr) :
    (s.modify p f).sock q = if q = p then f (s.sock q) else s.sock q := by
  unfold Sockets.modify
  by_cases h : q = p
  · subst h
    simp
  · simp [h]

theorem modify_modify (s : Sockets) (p : Ptr) (f g : Socket -> Socket) :
    (s.modify p f).modify p g = s.modify p (fun k => g (f k)) := by
  unfold Sockets.modify
  simp

variable {s s' : Sockets} {p t : Ptr} {f : Socket -> Socket}
    {buf addr : List UInt8} {memory : Bool} {r : Int}

theorem modify_eq_self (h : f (s.sock p) = s.sock p) : s.modify p f = s := by
  unfold Sockets.modify
  rw [h, update_eq_self]

theorem bound_mem (h : s.bound addr = some t) : t ∈ s.list := by
  unfold Sockets.bound at h
  split at h
  case isTrue hvalid => exact List.mem_of_find?_eq_some h
  case isFalse hvalid =>
    cases h

theorem destroy_of_ne (h : (s.sock p).refcount ≠ 1) :
    unixSocketDestroy s p = s.modify p dropRef := by
  unfold unixSocketDestroy
  have hcount : ((s.modify p dropRef).sock p).refcount ≠ 0 := by
    rw [modify_sock, if_pos rfl]
    show (s.sock p).refcount - 1 ≠ 0
    bv_omega
  simp only [if_neg hcount]

theorem destroy_of_eq (h : (s.sock p).refcount = 1) :
    unixSocketDestroy s p = ⟨s.list.erase p, (s.modify p dropRef).sock⟩ := by
  unfold unixSocketDestroy
  have hcount : ((s.modify p dropRef).sock p).refcount = 0 := by
    rw [modify_sock, if_pos rfl]
    show (s.sock p).refcount - 1 = 0
    rw [h]
    exact BitVec.sub_self _
  simp only [if_pos hcount]
  rfl

theorem dropRef_addRef (k : Socket) : dropRef (addRef k) = k := by
  unfold dropRef addRef
  simp only [BitVec.add_sub_cancel]

theorem destroy_addRef (hf : forall k, f (addRef k) = addRef (f k))
    (hcount : forall k, (f k).refcount = k.refcount)
    (h : (s.sock t).refcount ≠ 0) :
    unixSocketDestroy ((s.modify t addRef).modify t f) t = s.modify t f := by
  have hmore : (((s.modify t addRef).modify t f).sock t).refcount ≠ 1 := by
    rw [modify_sock, if_pos rfl, modify_sock, if_pos rfl, hcount]
    show (s.sock t).refcount + 1 ≠ 1
    bv_omega
  rw [destroy_of_ne hmore, modify_modify, modify_modify]
  simp only [hf, dropRef_addRef]

theorem destroy_found (h : (s.sock t).refcount ≠ 0) :
    unixSocketDestroy (s.modify t addRef) t = s := by
  have hback := destroy_addRef (f := id) (fun _ => rfl) (fun _ => rfl) h
  rw [modify_modify] at hback
  exact hback.trans (modify_eq_self rfl)

/-! ## What a call does -/

def push (s : Sockets) (p : Ptr) (k : Socket) : Sockets :=
  ⟨p :: s.list, update s.sock p k⟩

theorem push_sock_self (s : Sockets) (p : Ptr) (k : Socket) :
    (push s p k).sock p = k :=
  update_self _ _ _

theorem push_sock_of_mem {q : Ptr} (k : Socket) (hfresh : p ∉ s.list)
    (hq : q ∈ s.list) : (push s p k).sock q = s.sock q := by
  have hne : q ≠ p := by
    rintro rfl
    exact hfresh hq
  exact update_of_ne hne _ _

theorem unixSocketCreate_cases (s : Sockets) (type : Int)
    (memory : Option Ptr) :
    unixSocketCreate s type memory = (none, s) ∨
      exists t p, memory = some p ∧
        unixSocketCreate s type memory = (some p, push s p (newSocket t)) := by
  unfold unixSocketCreate
  cases htype : socketType type with
  | none => exact Or.inl rfl
  | some t =>
    cases memory with
    | none => exact Or.inl rfl
    | some p => exact Or.inr ⟨t, p, rfl, rfl⟩

theorem destroy_push (s : Sockets) (p : Ptr) (t : SocketType) :
    (unixSocketDestroy (push s p (newSocket t)) p).list = s.list ∧
      forall q, q ≠ p ->
        (unixSocketDestroy (push s p (newSocket t)) p).sock q = s.sock q := by
  have hlast : ((push s p (newSocket t)).sock p).refcount = 1 := by
    rw [push_sock_self]
    rfl
  rw [destroy_of_eq hlast]
  refine ⟨List.erase_cons_head p s.list, ?_⟩
  intro q hq
  rw [modify_sock, if_neg hq]
  exact update_of_ne hq _ _

theorem unixSocketPair_cases (type : Int) {memory1 memory2 : Option Ptr}
    (hfresh : fresh s memory1) (hne : memory1 = none ∨ memory1 ≠ memory2) :
    (exists s', unixSocketPair s type memory1 memory2 = (none, s') ∧
      s'.list = s.list ∧ forall q, q ∈ s.list -> s'.sock q = s.sock q) ∨
    exists t s1 s2, socketType type = some t ∧ memory1 = some s1 ∧
      memory2 = some s2 ∧ unixSocketPair s type memory1 memory2 =
        (some (s1, s2), push (push s s1 (link s2 (newSocket t))) s2
          (link s1 (newSocket t))) := by
  unfold unixSocketPair unixSocketCreate
  cases htype : socketType type with
  | none => exact Or.inl ⟨s, rfl, rfl, fun _ _ => rfl⟩
  | some t =>
    cases memory1 with
    | none => exact Or.inl ⟨s, rfl, rfl, fun _ _ => rfl⟩
    | some s1 =>
      cases memory2 with
      | none =>
        left
        obtain ⟨hlist, hsock⟩ := destroy_push s s1 t
        refine ⟨_, rfl, hlist, ?_⟩
        intro q hq
        apply hsock
        rintro rfl
        exact hfresh q rfl hq
      | some s2 =>
        right
        have h12 : s1 ≠ s2 := by
          rintro rfl
          rcases hne with h | h
          · cases h
          · exact h rfl
        refine ⟨t, s1, s2, rfl, rfl, rfl, ?_⟩
        unfold allocate push Sockets.modify
        simp only [update_self, update_of_ne h12,
          update_of_ne h12.symm, update_idem,
          update_comm h12.symm]

theorem unixSocketListen_cases (s : Sockets) (p : Ptr) :
    (unixSocketListen s p).2 = s ∨
      ((s.sock p).state = .unconnected ∧
        (unixSocketListen s p).2 = s.modify p (setState .connecting)) := by
  unfold unixSocketListen
  by_cases haddr : (s.sock p).address = none
  · left
    rw [if_pos haddr]
  · rw [if_neg haddr]
    by_cases hstate : (s.sock p).state = .unconnected
    · right
      rw [if_neg (not_not_intro hstate)]
      exact ⟨hstate, rfl⟩
    · left
      rw [if_pos hstate]

theorem unixSocketBind_cases (s : Sockets) (p : Ptr) (addr : List UInt8)
    (memory : Bool) :
    (unixSocketBind s p addr memory).2 = s ∨
      (unixSocketBind s p addr memory).2 = s.modify p (setAddress addr) ∨
      exists t, (s.sock p).address = none ∧ s.bound addr = some t ∧
        (unixSocketBind s p addr memory).2 = s.modify t addRef := by
  unfold unixSocketBind
  by_cases hlen : validLength addr
  · rw [if_neg (not_not_intro hlen)]
    by_cases haddr : (s.sock p).address = none
    · rw [if_neg (not_not_intro haddr)]
      unfold unixSocketFind
      cases hbound : s.bound addr with
      | none =>
        cases memory with
        | false => exact Or.inl rfl
        | true => exact Or.inr (Or.inl rfl)
      | some t => exact Or.inr (Or.inr ⟨t, haddr, rfl, rfl⟩)
    · left
      rw [if_pos haddr]
  · left
    rw [if_pos hlen]

/-- A connect that does not succeed leaves everything as it was, given that the
count of the socket it has found was not zero. -/
theorem unixSocketConnect_cases (s : Sockets) (p : Ptr) (addr : List UInt8)
    (hcount : forall t, s.bound addr = some t -> (s.sock t).refcount ≠ 0) :
    ((unixSocketConnect s p addr) = (false, s) ∧
      ((s.sock p).state = .connected ∨
        forall t, s.bound addr = some t -> refuses (s.sock t))) ∨
    ((s.sock p).state ≠ .connected ∧
      exists t, s.bound addr = some t ∧ ¬ refuses (s.sock t) ∧
        unixSocketConnect s p addr =
          (true, (s.modify t addRef).modify p (link t))) := by
  have hrefuses (t : Ptr) :
      refuses ((s.modify t addRef).sock t) = refuses (s.sock t) := by
    rw [modify_sock, if_pos rfl]
    rfl
  unfold unixSocketConnect
  by_cases hlen : validLength addr
  · rw [if_neg (not_not_intro hlen)]
    by_cases hstate : (s.sock p).state = .connected
    · left
      rw [if_pos hstate]
      exact ⟨rfl, Or.inl hstate⟩
    · rw [if_neg hstate]
      unfold unixSocketFind
      cases hbound : s.bound addr with
      | none =>
        left
        refine ⟨rfl, Or.inr ?_⟩
        intro t ht
        cases ht
      | some t =>
        simp only [hrefuses]
        by_cases href : refuses (s.sock t)
        · left
          rw [if_pos href]
          rw [destroy_found (hcount t hbound)]
          refine ⟨rfl, Or.inr ?_⟩
          rintro u ⟨⟩
          exact href
        · right
          rw [if_neg href]
          exact ⟨hstate, t, rfl, href, rfl⟩
  · left
    rw [if_pos hlen]
    refine ⟨rfl, Or.inr ?_⟩
    intro t ht
    unfold Sockets.bound at ht
    rw [if_neg hlen] at ht
    cases ht

theorem acceptLoop_of_none (h : (s.sock p).peer = none) (memory : Option Ptr) :
    acceptLoop s p memory = some .waits := by
  unfold acceptLoop
  rw [h]

theorem unixSocketShutdown_cases {r : Bool}
    (h : unixSocketShutdown s p = some (r, s')) :
    s' = s ∨ s' = s.modify p (setState .disconnected) ∨
      exists t, s' = (s.modify p (setState .disconnected)).modify t
        (setState .disconnected) := by
  unfold unixSocketShutdown at h
  by_cases hstate : (s.sock p).state = .connected
  · rw [if_neg (not_not_intro hstate)] at h
    cases hpeer : (s.sock p).peer with
    | none =>
      rw [hpeer] at h
      cases h
      exact Or.inr (Or.inl rfl)
    | some t =>
      rw [hpeer] at h
      by_cases ht : t ≠ p ∧ t ∈ s.list
      · simp only [if_pos ht] at h
        cases h
        exact Or.inr (Or.inr ⟨t, rfl⟩)
      · simp only [if_neg ht] at h
        cases h
  · rw [if_pos hstate] at h
    cases h
    exact Or.inl rfl

theorem unixSocketSend_cases (h : unixSocketSend s p buf memory = some (r, s')) :
    s' = s ∨ exists t, s' = s.modify t (addMessage buf) := by
  unfold unixSocketSend at h
  split at h
  case isTrue hnil =>
    cases h
    exact Or.inl rfl
  case isFalse hnil =>
    by_cases hstate : (s.sock p).state = .connected
    · rw [if_neg (not_not_intro hstate)] at h
      cases hpeer : (s.sock p).peer with
      | none =>
        rw [hpeer] at h
        cases h
        exact Or.inl rfl
      | some t =>
        rw [hpeer] at h
        by_cases ht : t ≠ p ∧ t ∈ s.list
        · simp only [if_pos ht] at h
          cases memory with
          | false =>
            cases h
            exact Or.inl rfl
          | true =>
            cases h
            exact Or.inr ⟨t, rfl⟩
        · simp only [if_neg ht] at h
          cases h
    · rw [if_pos hstate] at h
      cases h
      exact Or.inl rfl

theorem unixSocketSendto_cases
    (hcount : forall t, s.bound addr = some t -> (s.sock t).refcount ≠ 0)
    (h : unixSocketSendto s p buf addr memory = some (r, s')) :
    s' = s ∨ exists t, s' = s.modify t (addMessage buf) := by
  unfold unixSocketSendto at h
  by_cases hnil : buf.length = 0
  · rw [if_pos hnil] at h
    cases h
    exact Or.inl rfl
  rw [if_neg hnil] at h
  by_cases hstate : (s.sock p).state = .connected
  · rw [if_pos hstate] at h
    exact unixSocketSend_cases h
  rw [if_neg hstate] at h
  by_cases htype : (s.sock p).type = .dgram
  · rw [if_neg (not_not_intro htype)] at h
    by_cases hlen : validLength addr
    · rw [if_neg (not_not_intro hlen)] at h
      unfold unixSocketFind at h
      cases hbound : s.bound addr with
      | none =>
        rw [hbound] at h
        cases h
        exact Or.inl rfl
      | some t =>
        rw [hbound] at h
        cases memory with
        | false =>
          cases h
          left
          exact destroy_found (hcount t hbound)
        | true =>
          cases h
          right
          exact ⟨t, destroy_addRef (fun _ => rfl) (fun _ => rfl)
            (hcount t hbound)⟩
    · rw [if_pos hlen] at h
      cases h
      exact Or.inl rfl
  · rw [if_pos htype] at h
    cases h
    exact Or.inl rfl

end UnixSocket
end Ipc
end Horizon
