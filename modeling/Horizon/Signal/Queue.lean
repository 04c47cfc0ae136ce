import Horizon.Lib.Transition
import Horizon.Types
import Mathlib.Data.List.Nodup

/-!
# Pending signals

This module follows `signal_send_info`, `signal_queue` and
`signal_dequeue_thread` of `signal/core.c` and `signal_kill` of
`signal/signal.c`.  The pending signals of a task are kept twice, as a set of
bits and as a list of records.  Waking the threads of the task is left out.
-/

namespace Horizon
namespace Signal

open List Errno Transition

def sigrtmax : Int := 64

def siUser : Int := 0

def siKernel : Int := 1

/-- `siginfo_t`; `fields` are the words of its union. -/
structure Siginfo where
  signo : Int
  errno : Int
  code : Int
  fields : List Int
deriving DecidableEq

def Siginfo.make (signo code : Int) (fields : List Int) : Siginfo where
  signo := signo
  errno := 0
  code := code
  fields := fields ++ List.replicate (29 - fields.length) 0

/-- `sigpending_t`. -/
structure Pending where
  signal : BitVec 64
  list : List Siginfo
deriving DecidableEq

/-- `1ULL << (sig - 1)`. -/
def bit (sig : Nat) : BitVec 64 := 1#64 <<< (sig - 1)

def signalQueue (p : Pending) (sig : Int) (info : Siginfo) (mem : Bool) :
    Int × Pending :=
  if sig < 0 ∨ sig >= sigrtmax then (-einval, p)
  else if mem = false then (-enomem, p)
  else (0, { p with list := p.list ++ [info] })

/-- Without a result for signal zero, whose bit is shifted by a negative number. -/
def signalSendInfo (p : Pending) (sig : Int) (info : Siginfo) (mem : Bool) :
    Option (Int × Pending) :=
  if sig < 0 ∨ sig >= sigrtmax then some (-einval, p)
  else if sig = 0 then none
  else some (signalQueue { p with signal := p.signal ||| bit sig.toNat } sig
    info mem)

/-- The record of `signal_kill`; `pid` and `uid` are the sender's. -/
def killInfo (sig pid uid : Int) : Siginfo :=
  Siginfo.make sig siUser [pid, uid]

def signalKill (p : Pending) (sig pid uid : Int) (mem : Bool) :
    Option (Int × Pending) :=
  if sig < 0 ∨ sig >= sigrtmax then some (-1, p)
  else signalSendInfo p sig (killInfo sig pid uid) mem

def firstSignal (pending : BitVec 64) : Nat -> Nat -> Nat
  | 0, sig => sig
  | rounds + 1, sig =>
      if pending &&& bit sig ≠ 0#64 then sig
      else firstSignal pending rounds (sig + 1)

/-- The result, the record if one is filled in, and the signals left. -/
def signalDequeueThread (p : Pending) (mask : BitVec 64) :
    Int × Option Siginfo × Pending :=
  let pending := p.signal &&& ~~~mask
  if pending = 0#64 then (-eagain, none, p)
  else
    let sig := firstSignal pending 63 1
    if (sig : Int) >= sigrtmax then (-eagain, none, p)
    else
      let signal := p.signal &&& ~~~bit sig
      match p.list.find? fun q => q.signo = (sig : Int) with
      | some q => (sig, some q, {
          signal := signal
          list := p.list.eraseP fun q => q.signo = (sig : Int) })
      | none => (sig, some (Siginfo.make sig siKernel []),
          { p with signal := signal })

/-- Like `signal_dequeue_thread` with nothing blocked. -/
def signalDequeue (p : Pending) : Int × Option Siginfo × Pending :=
  signalDequeueThread p 0#64

/-- One pass of `signal_wait_thread`; without a result the thread is blocked. -/
def waitPass (p : Pending) (set : BitVec 64) :
    Option (Int × Option Siginfo × Pending) :=
  let pending := p.signal &&& set
  if pending = 0#64 then none
  else
    let sig := firstSignal pending 63 1
    if (sig : Int) < sigrtmax then
      let (ret, info, p') := signalDequeue p
      if ret < 0 then some (ret, none, p') else some (sig, info, p')
    else none

/--
`signal_wait_thread`, given the pending signals of each time the thread runs;
those of the pass that returns come with its result.
-/
def signalWaitThread (set : BitVec 64) :
    List Pending -> Option (Pending × Int × Option Siginfo × Pending)
  | [] => none
  | p :: later =>
      match waitPass p set with
      | some result => some (p, result)
      | none => signalWaitThread set later

/-!
## Bits and signals
-/

theorem getLsbD_bit (sig n : Nat) (hsig : sig <= 64) (hpos : 0 < sig) :
    (bit sig).getLsbD n = decide (n + 1 = sig) := by
  have htwo : bit sig = BitVec.twoPow 64 (sig - 1) := rfl
  rw [htwo, BitVec.getLsbD_twoPow]
  have hlt : sig - 1 < 64 := by omega
  have heq : (sig - 1 = n) <-> (n + 1 = sig) := by omega
  simp only [hlt, decide_true, Bool.true_and, heq]

theorem and_bit_ne_zero (pending : BitVec 64) (n : Nat) (hn : n < 64) :
    pending &&& bit (n + 1) ≠ 0#64 <-> pending.getLsbD n = true := by
  have htwo : bit (n + 1) = BitVec.twoPow 64 n := rfl
  rw [htwo, BitVec.and_twoPow]
  split
  case isTrue hbit =>
    refine ⟨fun _ => hbit, fun _ hzero => ?_⟩
    have hget : (BitVec.twoPow 64 n).getLsbD n = true := by
      rw [BitVec.getLsbD_twoPow]
      simp only [hn, decide_true, Bool.and_self]
    rw [hzero] at hget
    simp at hget
  case isFalse hbit =>
    exact ⟨fun hne => absurd rfl hne, fun htrue => absurd htrue hbit⟩

/-- The loop stops at the first signal whose bit is set, or past the last one. -/
theorem firstSignal_spec (pending : BitVec 64) (rounds sig : Nat)
    (hpos : 0 < sig) (hmax : sig + rounds <= 64) :
    sig <= firstSignal pending rounds sig ∧
      (firstSignal pending rounds sig < sig + rounds ->
        pending.getLsbD (firstSignal pending rounds sig - 1) = true) ∧
      (forall n, sig <= n + 1 -> n + 1 < firstSignal pending rounds sig ->
        pending.getLsbD n = false) := by
  induction rounds generalizing sig with
  | zero =>
    refine ⟨Nat.le_refl _, fun hlt => absurd hlt (Nat.lt_irrefl _), ?_⟩
    intro n hle hlt
    exact absurd (Nat.lt_of_le_of_lt hle hlt) (Nat.lt_irrefl _)
  | succ rounds ih =>
    have hiff := and_bit_ne_zero pending (sig - 1) (by omega)
    unfold firstSignal
    split
    case isTrue hset =>
      refine ⟨Nat.le_refl _, fun _ => hiff.mp hset, ?_⟩
      intro n hle hlt
      exact absurd (Nat.lt_of_le_of_lt hle hlt) (Nat.lt_irrefl _)
    case isFalse hset =>
      have hclear : pending.getLsbD (sig - 1) = false :=
        Bool.eq_false_iff.mpr fun htrue => hset (hiff.mpr htrue)
      rcases ih (sig + 1) (Nat.succ_pos _) (by omega) with ⟨hle, hbit, hlow⟩
      refine ⟨Nat.le_of_succ_le hle, fun hlt => hbit (by omega), ?_⟩
      intro n hn hlt
      by_cases heq : n = sig - 1
      · rw [heq]
        exact hclear
      · exact hlow n (by omega) hlt

theorem firstSignal_cases (pending : BitVec 64) :
    ((forall n, n < 63 -> pending.getLsbD n = false) ∧
      (firstSignal pending 63 1 : Int) >= sigrtmax) ∨
    exists n, n < 63 ∧ pending.getLsbD n = true ∧
      (forall k, k < n -> pending.getLsbD k = false) ∧
      firstSignal pending 63 1 = n + 1 := by
  rcases firstSignal_spec pending 63 1 Nat.one_pos (by decide) with
    ⟨hpos, hbit, hlow⟩
  unfold sigrtmax
  by_cases hlast : firstSignal pending 63 1 < 64
  · exact Or.inr ⟨_, by omega, hbit hlast,
      fun k hk => hlow k (by omega) (by omega), by omega⟩
  · exact Or.inl ⟨fun n hn => hlow n (by omega) (by omega), by omega⟩

theorem getLsbD_and_not_bit (signal : BitVec 64) {n : Nat} (hn : n < 63)
    (k : Nat) : (signal &&& ~~~bit (n + 1)).getLsbD k =
      (signal.getLsbD k && decide (k ≠ n)) := by
  by_cases hk : k < 64
  · rw [BitVec.getLsbD_and, BitVec.getLsbD_not,
      getLsbD_bit _ _ (by omega) (by omega)]
    simp [hk]
  · simp [BitVec.getLsbD_of_ge _ k (Nat.le_of_not_lt hk)]

/-!
## What a dequeue delivers
-/

/-- The record delivered for a signal and the records left: the oldest one of
the signal, or a zeroed one if there is none. -/
inductive Delivered (sig : Int) :
    List Siginfo -> Siginfo -> List Siginfo -> Prop where
  | oldest {xs ys : List Siginfo} {q : Siginfo} :
      (forall x, x ∈ xs -> x.signo ≠ sig) -> q.signo = sig ->
      Delivered sig (xs ++ q :: ys) q (xs ++ ys)
  | zeroed {records : List Siginfo} :
      (forall x, x ∈ records -> x.signo ≠ sig) ->
      Delivered sig records (Siginfo.make sig siKernel []) records

def Deliverable (p : Pending) (mask : BitVec 64) (n : Nat) : Prop :=
  p.signal.getLsbD n = true ∧ mask.getLsbD n = false

theorem deliverable_iff {p : Pending} {mask : BitVec 64} {n : Nat}
    (hn : n < 63) : Deliverable p mask n <->
      (p.signal &&& ~~~mask).getLsbD n = true := by
  rw [BitVec.getLsbD_and, BitVec.getLsbD_not]
  simp [Deliverable, show n < 64 by omega]

/-- Everything a dequeue can do. -/
theorem signalDequeueThread_cases (p : Pending) (mask : BitVec 64) :
    ((forall n, n < 63 -> ¬ Deliverable p mask n) ∧
      signalDequeueThread p mask = (-eagain, none, p)) ∨
    exists n : Nat, n < 63 ∧ Deliverable p mask n ∧
      (forall k, k < n -> ¬ Deliverable p mask k) ∧
      exists info rest, Delivered (n + 1) p.list info rest ∧
        signalDequeueThread p mask = ((n : Int) + 1, some info, {
          signal := p.signal &&& ~~~bit (n + 1)
          list := rest }) := by
  unfold signalDequeueThread
  dsimp only
  rcases firstSignal_cases (p.signal &&& ~~~mask) with
    ⟨hnone, hlast⟩ | ⟨n, hn, hset, hlow, hfirst⟩
  · refine Or.inl ⟨fun n hn hdel => ?_, by rw [if_pos hlast, ite_self]⟩
    rw [deliverable_iff hn, hnone n hn] at hdel
    cases hdel
  · have hne : p.signal &&& ~~~mask ≠ 0#64 := by
      intro hzero
      rw [hzero, BitVec.getLsbD_zero] at hset
      cases hset
    refine Or.inr ⟨n, hn, (deliverable_iff hn).mpr hset, fun k hk hdel => ?_,
      ?_⟩
    · rw [deliverable_iff (by omega), hlow k hk] at hdel
      cases hdel
    have hcast : ((n + 1 : Nat) : Int) = (n : Int) + 1 := rfl
    rw [if_neg hne, hfirst, if_neg (by unfold sigrtmax; omega)]
    simp only [hcast]
    cases hfind : p.list.find? fun q => q.signo = (n : Int) + 1 with
    | none =>
      refine ⟨_, _, .zeroed fun x hx => ?_, rfl⟩
      simpa using find?_eq_none.mp hfind x hx
    | some q =>
      rcases find?_eq_some_iff_append.mp hfind with ⟨hq, xs, ys, hlist, hxs⟩
      refine ⟨q, xs ++ ys, ?_, ?_⟩
      · rw [hlist]
        exact .oldest (fun x hx => by simpa using hxs x hx) (by simpa using hq)
      · rw [hlist, eraseP_append_right _ (by simpa using hxs),
          eraseP_cons_of_pos (p := fun q : Siginfo => q.signo = (n : Int) + 1)
            hq]

theorem least_unique {P : Nat -> Prop} {m n : Nat} (hm : P m)
    (hmlow : forall k, k < m -> ¬ P k) (hn : P n)
    (hnlow : forall k, k < n -> ¬ P k) : m = n :=
  Nat.le_antisymm (Nat.le_of_not_lt fun hlt => hmlow n hlt hn)
    (Nat.le_of_not_lt fun hlt => hnlow m hlt hm)

/-- With no signal to deliver nothing changes; otherwise the smallest one is
delivered and its bit cleared. -/
theorem dequeue_thread_respects_mask (p : Pending) (mask : BitVec 64) :
    ((signalDequeueThread p mask).1 = -eagain <->
      forall n, n < 63 -> ¬ Deliverable p mask n) ∧
    ((signalDequeueThread p mask).1 = -eagain ->
      signalDequeueThread p mask = (-eagain, none, p)) ∧
    forall n, n < 63 -> Deliverable p mask n ->
      (forall k, k < n -> ¬ Deliverable p mask k) ->
      exists info p', signalDequeueThread p mask = ((n : Int) + 1, some info, p')
        ∧ Delivered (n + 1) p.list info p'.list ∧
        forall k, p'.signal.getLsbD k =
          (p.signal.getLsbD k && decide (k ≠ n)) := by
  rcases signalDequeueThread_cases p mask with
    ⟨hnone, hfail⟩ | ⟨n, hn, hdel, hlow, info, rest, hinfo, htake⟩
  · rw [hfail]
    exact ⟨⟨fun _ => hnone, fun _ => rfl⟩, fun _ => rfl,
      fun n hn hdel => absurd hdel (hnone n hn)⟩
  · have hresult : (n : Int) + 1 ≠ -eagain := by
      unfold eagain
      omega
    rw [htake]
    refine ⟨⟨fun h => absurd h hresult, fun h => absurd hdel (h n hn)⟩,
      fun h => absurd h hresult, fun k _ hk hfirst => ?_⟩
    rw [least_unique hk hfirst hdel hlow]
    exact ⟨info, _, rfl, hinfo, getLsbD_and_not_bit p.signal hn⟩

/-!
## Waiting for a signal
-/

/--
The signal returned is in the wait set, and of the pending signals only it and
its oldest record, which is delivered, may be gone.
-/
def Consumed (set : BitVec 64) (p : Pending) (sig : Int)
    (info : Option Siginfo) (p' : Pending) : Prop :=
  exists (n : Nat) (xs ys : List Siginfo) (q : Siginfo),
    sig = n + 1 ∧ set.getLsbD n = true ∧ p.signal.getLsbD n = true ∧
    p.list = xs ++ q :: ys ∧ (forall x, x ∈ xs -> x.signo ≠ sig) ∧
    q.signo = sig ∧ info = some q ∧ p'.list = xs ++ ys ∧
    forall k, k ≠ n -> p'.signal.getLsbD k = p.signal.getLsbD k

def FirstWanted (set : BitVec 64) (p : Pending) : Prop :=
  exists n : Nat, n < 63 ∧ set.getLsbD n = true ∧ p.signal.getLsbD n = true ∧
    (forall k, k < n -> p.signal.getLsbD k = false) ∧
    exists q, q ∈ p.list ∧ q.signo = n + 1

theorem signalWaitThread_some {set : BitVec 64} {seen : List Pending}
    {p : Pending} {result : Int × Option Siginfo × Pending}
    (h : signalWaitThread set seen = some (p, result)) :
    waitPass p set = some result := by
  induction seen with
  | nil => cases h
  | cons first later ih =>
    unfold signalWaitThread at h
    split at h
    case h_1 hpass =>
      cases h
      exact hpass
    case h_2 => exact ih h

theorem deliverable_zero {p : Pending} {n : Nat} :
    Deliverable p 0#64 n <-> p.signal.getLsbD n = true := by
  simp [Deliverable]

/-- The signal that is reported is consumed if and only if it is the one that
the dequeue selects. -/
theorem signal_wait_consumes_iff {set : BitVec 64} {seen : List Pending}
    {p p' : Pending} {sig : Int} {info : Option Siginfo}
    (h : signalWaitThread set seen = some (p, sig, info, p')) :
    Consumed set p sig info p' <-> FirstWanted set p := by
  have hpass := signalWaitThread_some h
  unfold waitPass at hpass
  dsimp only at hpass
  split at hpass
  · cases hpass
  rcases firstSignal_cases (p.signal &&& set) with
    ⟨_, hlast⟩ | ⟨m, hm, hmset, hmlow, hfirst⟩
  · rw [if_neg (Int.not_lt.mpr hlast)] at hpass
    cases hpass
  simp only [BitVec.getLsbD_and, Bool.and_eq_true, Bool.and_eq_false_iff]
    at hmset hmlow
  rw [hfirst, if_pos (by unfold sigrtmax; omega)] at hpass
  rcases signalDequeueThread_cases p 0#64 with
    ⟨hnone, _⟩ | ⟨n, hn, hdel, hlow, q, rest, hq, htake⟩
  · exact absurd (deliverable_zero.mpr hmset.left) (hnone m hm)
  simp only [deliverable_zero] at hdel hlow
  simp only [signalDequeue, htake] at hpass
  rw [if_neg (by omega)] at hpass
  cases hpass
  constructor
  · rintro ⟨k, xs, ys, r, hk, hkset, hkpend, hlist, _, hr, _, _, hsame⟩
    obtain rfl : k = m := by omega
    have hnk : n = k := by
      by_contra hne
      have hbit := hsame n hne
      rw [getLsbD_and_not_bit p.signal hn, hdel] at hbit
      simp at hbit
    rw [hnk] at hlow
    exact ⟨k, hm, hkset, hkpend, fun j hj => Bool.eq_false_iff.mpr (hlow j hj),
      r, hlist ▸ mem_append_right xs mem_cons_self, hr⟩
  · rintro ⟨k, _, hkset, hkpend, hklow, r, hr, hrsig⟩
    have hkless : forall j, j < k -> ¬ p.signal.getLsbD j = true :=
      fun j hj => Bool.eq_false_iff.mp (hklow j hj)
    obtain rfl : k = n := least_unique hkpend hkless hdel hlow
    -- a signal that is waited for and before this one would be pending
    obtain rfl : k = m := by
      rcases Nat.lt_trichotomy k m with hlt | heq | hgt
      · rcases hmlow k hlt with hzero | hzero
        · exact absurd hzero (by rw [hkpend]; decide)
        · exact absurd hzero (by rw [hkset]; decide)
      · exact heq
      · exact absurd hmset.left (hkless m hgt)
    generalize hlist : p.list = records at hq hr
    cases hq with
    | @oldest xs ys _ hxs hsigno =>
      refine ⟨k, xs, ys, q, rfl, hkset, hkpend, hlist, hxs, hsigno, rfl, rfl,
        fun j hj => ?_⟩
      simp [getLsbD_and_not_bit p.signal hn, hj]
    | zeroed hno => exact absurd hrsig (hno r hr)

/-!
## One record for each bit
-/

/-- The bits that are set are those of the records, one record for each. -/
structure Matched (p : Pending) : Prop where
  bits : forall n, p.signal.getLsbD n = true ->
    exists q, q ∈ p.list ∧ q.signo = n + 1
  records : forall q, q ∈ p.list ->
    exists n : Nat, n < 63 ∧ q.signo = n + 1 ∧ p.signal.getLsbD n = true
  single : (p.list.map Siginfo.signo).Nodup

def ofSignal (sig : Int) (records : List Siginfo) : List Siginfo :=
  records.filter fun q => q.signo = sig

theorem ofSignal_append (sig : Int) (xs ys : List Siginfo) :
    ofSignal sig (xs ++ ys) = ofSignal sig xs ++ ofSignal sig ys :=
  filter_append ..

variable {sig : Int} {q info : Siginfo} {xs ys : List Siginfo} {p p' : Pending}
    {n : Nat} {mem : Bool}

theorem ofSignal_singleton_ne (h : q.signo ≠ sig) : ofSignal sig [q] = [] := by
  unfold ofSignal
  rw [filter_cons_of_neg (by simpa using h)]
  rfl

theorem ofSignal_move (sig : Int) (h : forall x, x ∈ xs -> x.signo ≠ q.signo) :
    ofSignal sig (q :: (xs ++ ys)) = ofSignal sig (xs ++ q :: ys) := by
  have hcons : q :: (xs ++ ys) = [q] ++ xs ++ ys := rfl
  have hmid : xs ++ q :: ys = xs ++ [q] ++ ys := by
    rw [append_assoc, singleton_append]
  rw [hcons, hmid, ofSignal_append, ofSignal_append _ (xs ++ [q]),
    ofSignal_append, ofSignal_append]
  by_cases hsig : q.signo = sig
  · have hnone : ofSignal sig xs = [] := by
      apply filter_eq_nil_iff.mpr
      intro x hx heq
      exact h x hx ((of_decide_eq_true heq).trans hsig.symm)
    rw [hnone, append_nil, nil_append]
  · rw [ofSignal_singleton_ne hsig, append_nil, nil_append]

theorem Matched.remove (h : Matched p) (hlist : p.list = xs ++ q :: ys)
    (hn : n < 63) (hq : q.signo = n + 1) :
    Matched {
      signal := p.signal &&& ~~~bit (n + 1)
      list := xs ++ ys } := by
  have hget : forall k, (p.signal &&& ~~~bit (n + 1)).getLsbD k = true <->
      p.signal.getLsbD k = true ∧ k ≠ n := by
    intro k
    rw [getLsbD_and_not_bit p.signal hn, Bool.and_eq_true, decide_eq_true_eq]
  have hnodup : (q.signo :: (xs ++ ys).map Siginfo.signo).Nodup := by
    have hsingle := h.single
    rw [hlist, map_append, map_cons] at hsingle
    rw [map_append]
    exact nodup_middle.mp hsingle
  refine ⟨?_, ?_, (nodup_cons.mp hnodup).right⟩
  · intro k hk
    rcases (hget k).mp hk with ⟨hset, hne⟩
    rcases h.bits k hset with ⟨x, hx, hsig⟩
    refine ⟨x, ?_, hsig⟩
    rw [hlist] at hx
    rcases mem_append.mp hx with hx | hx
    · exact mem_append_left _ hx
    · rcases mem_cons.mp hx with rfl | hx
      · omega
      · exact mem_append_right _ hx
  · intro x hx
    have hmem : x ∈ p.list := by
      rw [hlist]
      rcases mem_append.mp hx with hx | hx
      · exact mem_append_left _ hx
      · exact mem_append_right _ (mem_cons_of_mem _ hx)
    rcases h.records x hmem with ⟨k, hk, hsig, hset⟩
    refine ⟨k, hk, hsig, (hget k).mpr ⟨hset, ?_⟩⟩
    intro heq
    refine (nodup_cons.mp hnodup).left (mem_map.mpr ⟨x, hx, ?_⟩)
    rw [hsig, hq, heq]

/--
A dequeue takes a record out of the list, together with its bit.  Only if no bit
is left unblocked it fails.
-/
theorem Matched.dequeue (h : Matched p) (mask : BitVec 64) :
    (p.signal &&& ~~~mask = 0#64 ∧
        signalDequeueThread p mask = (-eagain, none, p)) ∨
      exists (n : Nat) (xs : List Siginfo) (q : Siginfo) (ys : List Siginfo),
        n < 63 ∧ q.signo = (n : Int) + 1 ∧ p.list = xs ++ q :: ys ∧
        (forall x, x ∈ xs -> x.signo ≠ q.signo) ∧
        signalDequeueThread p mask = (q.signo, some q, {
          signal := p.signal &&& ~~~bit (n + 1)
          list := xs ++ ys }) := by
  rcases signalDequeueThread_cases p mask with
    ⟨hnone, hfail⟩ | ⟨n, hn, hdel, _, info, rest, hinfo, htake⟩
  · refine Or.inl ⟨BitVec.eq_of_getLsbD_eq fun n hn => ?_, hfail⟩
    rw [BitVec.getLsbD_zero]
    apply Bool.eq_false_iff.mpr
    intro hset
    -- the bit belongs to a record, so it is below the last one
    have hsignal := hset
    rw [BitVec.getLsbD_and, Bool.and_eq_true] at hsignal
    rcases h.bits n hsignal.left with ⟨q, hq, hsigno⟩
    rcases h.records q hq with ⟨k, hk, hsigno', _⟩
    have hn63 : n < 63 := by omega
    exact hnone n hn63 ((deliverable_iff hn63).mpr hset)
  · right
    generalize hlist : p.list = records at hinfo
    cases hinfo with
    | @oldest xs ys q hxs hq =>
      rw [← hq] at hxs htake
      exact ⟨n, xs, info, ys, hn, hq, rfl, hxs, htake⟩
    | zeroed hno =>
      rcases h.bits n hdel.left with ⟨q, hq, hsigno⟩
      exact absurd hsigno (hno q (hlist ▸ hq))

/-!
## Dequeuing everything
-/

/-- The records that dequeues with nothing blocked return until one fails. -/
inductive Drained : Pending -> List Siginfo -> Prop where
  | done {p : Pending} : signalDequeueThread p 0#64 = (-eagain, none, p) ->
      Drained p []
  | more {p p' : Pending} {sig : Int} {q : Siginfo} {rest : List Siginfo} :
      signalDequeueThread p 0#64 = (sig, some q, p') -> Drained p' rest ->
      Drained p (q :: rest)

theorem Drained.unique {records records' : List Siginfo} (h : Drained p records)
    (h' : Drained p records') : records = records' := by
  induction h generalizing records' with
  | done hfail =>
    cases h' with
    | done _ => rfl
    | more hdequeue _ =>
      rw [hfail] at hdequeue
      cases hdequeue
  | more hdequeue _ ih =>
    cases h' with
    | done hfail =>
      rw [hfail] at hdequeue
      cases hdequeue
    | more hdequeue' hrest =>
      rw [hdequeue] at hdequeue'
      cases hdequeue'
      rw [ih hrest]

theorem Matched.drained (h : Matched p) :
    exists records, Drained p records ∧
      forall sig, ofSignal sig records = ofSignal sig p.list := by
  obtain ⟨len, hlen⟩ : exists n, n = p.list.length := ⟨_, rfl⟩
  induction len generalizing p with
  | zero =>
    have hnil : p.list = [] := length_eq_zero_iff.mp hlen.symm
    rcases h.dequeue 0#64 with ⟨_, hfail⟩ | htake
    · refine ⟨[], .done hfail, fun sig => ?_⟩
      rw [hnil]
    · rcases htake with ⟨n, xs, q, ys, _, _, hlist, _⟩
      rw [hnil] at hlist
      exact absurd hlist.symm (by simp)
  | succ len ih =>
    rcases h.dequeue 0#64 with ⟨hzero, _⟩ | htake
    · -- a record is left, so its bit is set
      rcases exists_mem_of_length_pos (l := p.list) (by omega) with ⟨q, hq⟩
      rcases h.records q hq with ⟨n, hn, _, hset⟩
      rw [BitVec.not_zero, BitVec.and_allOnes] at hzero
      rw [hzero, BitVec.getLsbD_zero] at hset
      cases hset
    · rcases htake with ⟨n, xs, q, ys, hn, hq, hlist, hbefore, htake⟩
      have hshort : len = (xs ++ ys).length := by
        rw [hlist, length_append, length_cons] at hlen
        rw [length_append]
        omega
      rcases ih (h.remove hlist hn hq) hshort with ⟨records, hdrained, hsame⟩
      refine ⟨q :: records, .more htake hdrained, fun sig => ?_⟩
      have hcons : q :: records = [q] ++ records := rfl
      rw [hcons, ofSignal_append, hsame, ← ofSignal_append, hlist]
      exact ofSignal_move sig hbefore

/-!
## Histories
-/

inductive Call where
  | send (sig : Int) (info : Siginfo)
  | kill (sig pid uid : Int)
  | dequeue (mask : BitVec 64)

/-- The pending signals of a task, the records sent to it and those returned. -/
structure History where
  pending : Pending
  sent : List Siginfo
  returned : List Siginfo

/-- The state that `signal_setup` leaves. -/
def initial : History where
  pending := { signal := 0#64, list := [] }
  sent := []
  returned := []

/-- Sending succeeds, and the mask of a dequeue is arbitrary. -/
inductive Step : History -> Call -> History -> Prop where
  | send {h : History} {sig : Int} {info : Siginfo} {mem : Bool} {p : Pending} :
      1 <= sig -> sig <= 63 ->
      signalSendInfo h.pending sig info mem = some (0, p) ->
      Step h (Call.send sig info)
        { h with pending := p, sent := h.sent ++ [info] }
  | kill {h : History} {sig pid uid : Int} {mem : Bool} {p : Pending} :
      1 <= sig -> sig <= 63 ->
      signalKill h.pending sig pid uid mem = some (0, p) ->
      Step h (Call.kill sig pid uid)
        { h with pending := p, sent := h.sent ++ [killInfo sig pid uid] }
  | dequeue {h : History} {mask : BitVec 64} {sig : Int} {q : Option Siginfo}
      {p : Pending} : signalDequeueThread h.pending mask = (sig, q, p) ->
      Step h (Call.dequeue mask)
        { h with pending := p, returned := h.returned ++ q.toList }

/--
The condition on a call: a record is sent under its own signal, which is not
pending.
-/
def CallOk (h : History) : Call -> Prop
  | Call.send sig info =>
      info.signo = sig ∧ h.pending.signal &&& bit sig.toNat = 0#64
  | Call.kill sig _ _ => h.pending.signal &&& bit sig.toNat = 0#64
  | Call.dequeue _ => True

def StepOk (h : History) (call : Call) (h' : History) : Prop :=
  CallOk h call ∧ Step h call h'

structure Sound (h : History) : Prop where
  matched : Matched h.pending
  kept : forall sig, ofSignal sig (h.returned ++ h.pending.list) =
    ofSignal sig h.sent

theorem signalSendInfo_ok (h : signalSendInfo p sig info mem = some (0, p')) :
    p' = {
      signal := p.signal ||| bit sig.toNat
      list := p.list ++ [info] } := by
  unfold signalSendInfo at h
  by_cases hrange : sig < 0 ∨ sig >= sigrtmax
  · rw [if_pos hrange] at h
    cases h
  by_cases hzero : sig = 0
  · rw [if_neg hrange, if_pos hzero] at h
    cases h
  rw [if_neg hrange, if_neg hzero] at h
  unfold signalQueue at h
  rw [if_neg hrange] at h
  cases mem with
  | false => cases h
  | true =>
    cases h
    rfl

theorem signalKill_ok {pid uid : Int}
    (h : signalKill p sig pid uid mem = some (0, p')) :
    signalSendInfo p sig (killInfo sig pid uid) mem = some (0, p') := by
  unfold signalKill at h
  split at h
  case isTrue hrange =>
    cases h
  case isFalse hrange => exact h

/-- A record is added together with the bit of a signal that is not pending. -/
theorem Matched.add (h : Matched p) (hn : n < 63) (hinfo : info.signo = n + 1)
    (hclear : p.signal.getLsbD n = false) :
    Matched {
      signal := p.signal ||| bit (n + 1)
      list := p.list ++ [info] } := by
  have hget : forall k, (p.signal ||| bit (n + 1)).getLsbD k = true <->
      p.signal.getLsbD k = true ∨ k = n := by
    intro k
    rw [BitVec.getLsbD_or, getLsbD_bit _ _ (by omega) (by omega)]
    simp
  refine ⟨?_, ?_, ?_⟩
  · intro k hk
    rcases (hget k).mp hk with hset | rfl
    · rcases h.bits k hset with ⟨q, hq, hsig⟩
      exact ⟨q, mem_append_left _ hq, hsig⟩
    · exact ⟨info, mem_append_right _ (mem_singleton.mpr rfl), hinfo⟩
  · intro q hq
    rcases mem_append.mp hq with hq | hq
    · rcases h.records q hq with ⟨k, hk, hsig, hset⟩
      exact ⟨k, hk, hsig, (hget k).mpr (Or.inl hset)⟩
    · rw [mem_singleton.mp hq]
      exact ⟨n, hn, hinfo, (hget n).mpr (Or.inr rfl)⟩
  · rw [map_append]
    apply nodup_append.mpr
    refine ⟨h.single, nodup_singleton _, ?_⟩
    rintro _ hold _ hnew heq
    rcases mem_map.mp hold with ⟨q, hq, rfl⟩
    rw [mem_singleton.mp hnew] at heq
    rcases h.records q hq with ⟨k, _, hsig, hset⟩
    have hk : k = n := by omega
    rw [hk, hclear] at hset
    cases hset

variable {h : History}

theorem Sound.send (hsound : Sound h) (hlow : 1 <= sig) (hhigh : sig <= 63)
    (hsend : signalSendInfo h.pending sig info mem = some (0, p))
    (hinfo : info.signo = sig)
    (hclear : h.pending.signal &&& bit sig.toNat = 0#64) :
    Sound { h with pending := p, sent := h.sent ++ [info] } := by
  obtain ⟨n, hn⟩ : exists n : Nat, sig = n + 1 := ⟨(sig - 1).toNat, by omega⟩
  have hnat : sig.toNat = n + 1 := by omega
  have hbit : h.pending.signal.getLsbD n = false := by
    apply Bool.eq_false_iff.mpr
    intro hset
    rw [hnat] at hclear
    exact (and_bit_ne_zero _ n (by omega)).mpr hset hclear
  have hp := signalSendInfo_ok hsend
  rw [hnat] at hp
  constructor
  · rw [hp]
    exact hsound.matched.add (by omega) (hinfo.trans hn) hbit
  · intro sig'
    show ofSignal sig' (h.returned ++ p.list) = ofSignal sig' (h.sent ++ [info])
    rw [hp, ← append_assoc, ofSignal_append, hsound.kept, ← ofSignal_append]

theorem Sound.step {h' : History} {call : Call} (hsound : Sound h)
    (hok : CallOk h call) (hstep : Step h call h') : Sound h' := by
  cases hstep with
  | send hlow hhigh hsend =>
    exact hsound.send hlow hhigh hsend hok.left hok.right
  | kill hlow hhigh hkill =>
    exact hsound.send hlow hhigh (signalKill_ok hkill) rfl hok
  | @dequeue mask sig q p hdequeue =>
    rcases hsound.matched.dequeue mask with
      ⟨_, hfail⟩ | ⟨n, xs, r, ys, hn, hr, hlist, hbefore, htake⟩
    · rw [hfail] at hdequeue
      cases hdequeue
      refine ⟨hsound.matched, fun sig' => ?_⟩
      rw [Option.toList_none, append_nil]
      exact hsound.kept sig'
    · rw [htake] at hdequeue
      cases hdequeue
      refine ⟨hsound.matched.remove hlist hn hr, fun sig' => ?_⟩
      show ofSignal sig' (h.returned ++ [r] ++ (xs ++ ys)) = _
      rw [← hsound.kept sig', hlist, append_assoc, ofSignal_append,
        ofSignal_append _ h.returned, singleton_append,
        ofSignal_move sig' hbefore]

theorem sound_initial : Sound initial := by
  refine ⟨⟨?_, ?_, nodup_nil⟩, fun _ => rfl⟩
  · intro n hn
    have hzero : initial.pending.signal = 0#64 := rfl
    rw [hzero, BitVec.getLsbD_zero] at hn
    cases hn
  · intro q hq
    exact absurd hq (by simp [initial])

theorem perm_of_ofSignal (h : forall sig, ofSignal sig xs = ofSignal sig ys) :
    xs.Perm ys := by
  apply perm_iff_count.mpr
  intro q
  have hcount : forall l : List Siginfo,
      l.count q = (ofSignal q.signo l).count q := by
    intro l
    unfold ofSignal
    rw [count_filter (by simp)]
  rw [hcount, h, ← hcount]

/--
As long as a record is sent under its own signal, which is not pending, the
records returned and those still obtainable are the records sent, in the order
sent for each signal.
-/
theorem queued_signals_exactly_once (h : History)
    (hreach : Reachable (fun h => h = initial) StepOk h) :
    exists records, Drained h.pending records ∧
      (h.returned ++ records).Perm h.sent ∧
      forall sig, ofSignal sig (h.returned ++ records) =
        ofSignal sig h.sent := by
  have hsound : Sound h := by
    apply hreach.invariant
    · rintro h rfl
      exact sound_initial
    · rintro h call h' hs ⟨hok, hstep⟩
      exact hs.step hok hstep
  rcases hsound.matched.drained with ⟨records, hdrained, hsame⟩
  have horder : forall sig, ofSignal sig (h.returned ++ records) =
      ofSignal sig h.sent := by
    intro sig
    rw [ofSignal_append, hsame, ← ofSignal_append, hsound.kept]
  exact ⟨records, hdrained, perm_of_ofSignal horder, horder⟩

def oneKilled : History where
  pending := { signal := bit 10, list := [killInfo 10 7 0] }
  sent := [killInfo 10 7 0]
  returned := []

def twoKilled : History where
  pending := {
    signal := bit 10 ||| bit 12
    list := [killInfo 10 7 0, killInfo 12 7 0] }
  sent := [killInfo 10 7 0, killInfo 12 7 0]
  returned := []

/-- The first check finds nothing pending. -/
theorem signal_wait_consumes_first : exists sig info p',
    signalWaitThread (bit 10) [initial.pending, twoKilled.pending] =
      some (twoKilled.pending, sig, info, p') ∧
    Consumed (bit 10) twoKilled.pending sig info p' := by
  have hwanted : FirstWanted (bit 10) twoKilled.pending :=
    ⟨9, by decide, by decide, by decide, by decide, killInfo 10 7 0, by decide,
      rfl⟩
  have hrun : signalWaitThread (bit 10) [initial.pending, twoKilled.pending] =
      some (twoKilled.pending, 10, some (killInfo 10 7 0),
        { signal := bit 12, list := [killInfo 12 7 0] }) := by decide
  exact ⟨_, _, _, hrun, (signal_wait_consumes_iff hrun).mpr hwanted⟩

/-- Waiting for signal 12 returns 12 and takes signal 10. -/
theorem signal_wait_takes_other :
    signalWaitThread (bit 12) [twoKilled.pending] = some (twoKilled.pending,
      12, some (killInfo 10 7 0),
      { signal := bit 12, list := [killInfo 12 7 0] }) ∧
    ¬ Consumed (bit 12) twoKilled.pending 12 (some (killInfo 10 7 0))
      { signal := bit 12, list := [killInfo 12 7 0] } := by
  refine ⟨by decide, ?_⟩
  rintro ⟨n, xs, ys, q, _, _, _, _, _, hq, hinfo, _⟩
  rw [← Option.some.inj hinfo] at hq
  exact absurd hq (by decide)

def oneReturned : History where
  pending := { signal := bit 10, list := [killInfo 10 7 0] }
  sent := [killInfo 10 7 0, killInfo 12 7 0]
  returned := [killInfo 12 7 0]

theorem step_oneKilled : Step initial (.kill 10 7 0) oneKilled := by
  have hkill : signalKill initial.pending 10 7 0 true =
      some (0, oneKilled.pending) := by decide
  exact .kill (by decide) (by decide) hkill

theorem queued_signals_exactly_once_two_signals :
    exists records, Drained oneReturned.pending records ∧
      (oneReturned.returned ++ records).Perm oneReturned.sent := by
  have hkill : signalKill oneKilled.pending 12 7 0 true =
      some (0, twoKilled.pending) := by decide
  have hdequeue : signalDequeueThread twoKilled.pending (bit 10) =
      (12, some (killInfo 12 7 0), oneReturned.pending) := by decide
  have hfirst : StepOk initial (Call.kill 10 7 0) oneKilled :=
    ⟨show _ = _ by decide, step_oneKilled⟩
  have hsecond : StepOk oneKilled (Call.kill 12 7 0) twoKilled :=
    ⟨show _ = _ by decide, Step.kill (by decide) (by decide) hkill⟩
  have hthird : StepOk twoKilled (Call.dequeue (bit 10)) oneReturned :=
    ⟨trivial, Step.dequeue hdequeue⟩
  have hreach : Reachable (fun h => h = initial) StepOk
      oneReturned := by
    refine Reachable.step (Reachable.step ?_ hsecond) hthird
    exact Reachable.step (Reachable.init rfl) hfirst
  rcases queued_signals_exactly_once oneReturned hreach with
    ⟨records, hdrained, hperm, _⟩
  exact ⟨records, hdrained, hperm⟩

def twiceKilled : History where
  pending := {
    signal := bit 10
    list := [killInfo 10 7 0, killInfo 10 8 0] }
  sent := [killInfo 10 7 0, killInfo 10 8 0]
  returned := []

/-- The second of two records of one signal cannot be obtained. -/
theorem second_record_unobtainable :
    Reachable (fun h => h = initial) Step twiceKilled ∧
      forall records, Drained twiceKilled.pending records ->
        ¬ (twiceKilled.returned ++ records).Perm twiceKilled.sent := by
  have hkill : signalKill oneKilled.pending 10 8 0 true =
      some (0, twiceKilled.pending) := by decide
  have hsecond : Step oneKilled (Call.kill 10 8 0) twiceKilled :=
    Step.kill (by decide) (by decide) hkill
  have hdequeue : signalDequeueThread twiceKilled.pending 0#64 =
      (10, some (killInfo 10 7 0),
        { signal := 0#64, list := [killInfo 10 8 0] }) := by decide
  have hone : Drained twiceKilled.pending [killInfo 10 7 0] :=
    Drained.more hdequeue (Drained.done (by decide))
  have hreach : Reachable (fun h => h = initial) Step
      twiceKilled := by
    refine Reachable.step ?_ hsecond
    exact Reachable.step (Reachable.init rfl) step_oneKilled
  refine ⟨hreach, ?_⟩
  intro records hdrained hperm
  rw [hdrained.unique hone] at hperm
  exact absurd hperm.length_eq (by decide)

end Signal
end Horizon
