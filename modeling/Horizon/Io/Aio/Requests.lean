import Horizon.Io.Aio.Model
import Mathlib.Data.List.Nodup

/-!
# Requests to AIO contexts

The invariant of the contexts that are in the table, and that it is kept by the
calls that move events between their two lists: `io_submit`, `io_getevents` and
`io_cancel`, and by completions.
-/

namespace Horizon
namespace Aio

open Function List

/-!
## Invariant
-/

/-- The events of a context: those the heap holds for it are on its two lists,
once each. -/
structure Pool (s : State) (ctx : Nat) : Prop where
  held : s.heap.held ctx = some .context
  nodup : ((s.context ctx).active ++ (s.context ctx).available).Nodup
  mem_iff : forall e, e ∈ (s.context ctx).active ++ (s.context ctx).available <->
    s.heap.held e = some (.event ctx)
  nrActive : (s.context ctx).nrActive = (s.context ctx).active.length
  total : (s.context ctx).active.length + (s.context ctx).available.length =
    (s.context ctx).nrEvents
  bound : (s.context ctx).nrEvents < 2 ^ 32

structure Ok (s : State) : Prop where
  balanced : s.heap.Balanced
  owner : forall e ctx, s.heap.held e = some (.event ctx) ->
    s.heap.held ctx = some .context
  slot : forall i j ctx, s.contexts i = some ctx -> s.contexts j = some ctx ->
    i = j
  pool : forall ctx, s.Live ctx -> Pool s ctx
  carried : forall ctx e, s.Live ctx -> e ∈ (s.context ctx).active ->
    s.submitted[s.ticket e]? = some (ctx, (s.event e).iocb)
  unanswered : forall ctx e, s.Live ctx -> e ∈ (s.context ctx).active ->
    forall r, r ∈ s.returned -> r.ticket ≠ s.ticket e
  distinct : forall ctx ctx' e e', s.Live ctx -> s.Live ctx' ->
    e ∈ (s.context ctx).active -> e' ∈ (s.context ctx').active ->
    s.ticket e = s.ticket e' -> e = e'
  once : (s.returned.map Returned.ticket).Nodup
  answers : forall r, r ∈ s.returned ->
    s.submitted[r.ticket]? = some (r.ctx, r.obj)

variable {s s' : State} {ctx : Nat} {aioData : Nat -> Nat} {nr : Int}

theorem ok_init (h : Init s) : Ok s := by
  have hdead : forall ctx, ¬ s.Live ctx := by
    rintro ctx ⟨i, hi⟩
    rw [h.contexts i] at hi
    cases hi
  have hnone : forall a, s.heap.held a = none := by
    intro a
    rw [h.heap]
    rfl
  constructor
  · rw [h.heap]
    exact Ledger.balanced_empty
  · intro e ctx he
    rw [hnone e] at he
    cases he
  · intro i j ctx hi
    exact absurd ⟨i, hi⟩ (hdead ctx)
  · intro ctx hlive
    exact absurd hlive (hdead ctx)
  · exact fun ctx _ hlive => absurd hlive (hdead ctx)
  · exact fun ctx _ hlive => absurd hlive (hdead ctx)
  · intro ctx ctx' e e' hlive
    exact absurd hlive (hdead ctx)
  · rw [h.returned]
    exact nodup_nil
  · intro r hr
    rw [h.returned] at hr
    cases hr

section Pool

variable {s : State} {ctx e : Nat}

theorem Pool.held_of_active (h : Pool s ctx) (he : e ∈ (s.context ctx).active) :
    s.heap.held e = some (.event ctx) :=
  (h.mem_iff e).mp (mem_append_left _ he)

theorem Pool.ctx_eq {ctx' : Nat} (h : Pool s ctx) (h' : Pool s ctx')
    (he : e ∈ (s.context ctx).active ++ (s.context ctx).available)
    (he' : e ∈ (s.context ctx').active ++ (s.context ctx').available) :
    ctx = ctx' := by
  have hheld := (h.mem_iff e).mp he
  rw [(h'.mem_iff e).mp he'] at hheld
  cases hheld
  rfl

theorem Pool.congr {s' : State} (h : Pool s ctx)
    (hctx : s'.context ctx = s.context ctx)
    (hheld : s'.heap.held ctx = s.heap.held ctx)
    (hevents : forall e, s'.heap.held e = some (.event ctx) <->
      s.heap.held e = some (.event ctx)) : Pool s' ctx := by
  constructor
  · rw [hheld]
    exact h.held
  · rw [hctx]
    exact h.nodup
  · intro e
    rw [hctx, hevents e]
    exact h.mem_iff e
  · rw [hctx]
    exact h.nrActive
  · rw [hctx]
    exact h.total
  · rw [hctx]
    exact h.bound

/-- The events change places. -/
theorem Pool.shift {s' : State} {active available : List Nat} {n : Nat}
    (h : Pool s ctx)
    (hctx : s'.context ctx = { s.context ctx with
      active := active, available := available, nrActive := n })
    (hheap : s'.heap = s.heap)
    (hperm : (active ++ available).Perm
      ((s.context ctx).active ++ (s.context ctx).available))
    (hn : n = active.length) : Pool s' ctx := by
  have hlength := hperm.length_eq
  rw [length_append, length_append, h.total] at hlength
  constructor
  · rw [hheap]
    exact h.held
  · rw [hctx]
    exact hperm.nodup_iff.mpr h.nodup
  · intro e
    rw [hctx, hheap]
    exact hperm.mem_iff.trans (h.mem_iff e)
  · rw [hctx]
    exact hn
  · rw [hctx]
    exact hlength
  · rw [hctx]
    exact h.bound

end Pool

/-!
## Changes outside the live contexts
-/

/-- The contexts that are live afterwards, their events and the history are left
as they are. -/
structure Apart (s s' : State) : Prop where
  live : forall i ctx, s'.contexts i = some ctx -> s.contexts i = some ctx
  context : forall ctx, s'.Live ctx -> s'.context ctx = s.context ctx
  held : forall ctx, s'.Live ctx -> s'.heap.held ctx = s.heap.held ctx
  events : forall ctx e, s'.Live ctx ->
    (s'.heap.held e = some (.event ctx) <-> s.heap.held e = some (.event ctx))
  iocb : forall ctx e, s'.Live ctx -> e ∈ (s.context ctx).active ->
    (s'.event e).iocb = (s.event e).iocb
  submitted : s'.submitted = s.submitted
  ticket : s'.ticket = s.ticket
  returned : s'.returned = s.returned

theorem Apart.live_of (h : Apart s s') (hlive : s'.Live ctx) : s.Live ctx :=
  hlive.imp fun i hi => h.live i ctx hi

theorem Ok.apart (hok : Ok s) (h : Apart s s') (hbalanced : s'.heap.Balanced)
    (howner : forall e ctx, s'.heap.held e = some (.event ctx) ->
      s'.heap.held ctx = some .context) : Ok s' := by
  have hactive : forall {ctx e}, s'.Live ctx -> e ∈ (s'.context ctx).active ->
      e ∈ (s.context ctx).active := by
    intro ctx e hlive he
    rwa [h.context ctx hlive] at he
  constructor
  · exact hbalanced
  · exact howner
  · intro i j ctx hi hj
    exact hok.slot i j ctx (h.live i ctx hi) (h.live j ctx hj)
  · intro ctx hlive
    exact (hok.pool ctx (h.live_of hlive)).congr (h.context ctx hlive)
      (h.held ctx hlive) (h.events ctx · hlive)
  · intro ctx e hlive he
    rw [h.submitted, h.ticket, h.iocb ctx e hlive (hactive hlive he)]
    exact hok.carried ctx e (h.live_of hlive) (hactive hlive he)
  · intro ctx e hlive he r hr
    rw [h.returned] at hr
    rw [h.ticket]
    exact hok.unanswered ctx e (h.live_of hlive) (hactive hlive he) r hr
  · intro ctx ctx' e e' hlive hlive' he he' heq
    rw [h.ticket] at heq
    exact hok.distinct ctx ctx' e e' (h.live_of hlive) (h.live_of hlive')
      (hactive hlive he) (hactive hlive' he') heq
  · rw [h.returned]
    exact hok.once
  · intro r hr
    rw [h.returned] at hr
    rw [h.submitted]
    exact hok.answers r hr

/-!
## Requests
-/

section Start

variable {s : State} {ctx e iocb : Nat} {rest : List Nat}

theorem start_context_self : (s.start ctx e rest iocb).context ctx =
    { s.context ctx with
      available := rest
      active := (s.context ctx).active ++ [e]
      nrActive := ((s.context ctx).nrActive + 1) % 2 ^ 32 } :=
  update_self _ _ _

variable {e' ctx' : Nat}

theorem start_context_of_ne (h : ctx' ≠ ctx) :
    (s.start ctx e rest iocb).context ctx' = s.context ctx' :=
  update_of_ne h _ _

theorem start_pool (hpool : Pool s ctx)
    (havail : (s.context ctx).available = e :: rest) :
    Pool (s.start ctx e rest iocb) ctx := by
  have htotal := hpool.total
  have hbound := hpool.bound
  rw [havail, length_cons] at htotal
  apply hpool.shift start_context_self rfl
  · rw [havail, append_assoc]
    rfl
  · rw [length_append, length_singleton, hpool.nrActive]
    omega

theorem Ok.ne_of_active (hok : Ok s) (hlive : s.Live ctx) (hlive' : s.Live ctx')
    (he : e ∈ (s.context ctx).available) (he' : e' ∈ (s.context ctx').active) :
    e' ≠ e := by
  intro heq
  subst heq
  have hpool := hok.pool ctx hlive
  have hctx : ctx = ctx' := hpool.ctx_eq (hok.pool ctx' hlive')
    (mem_append_right _ he) (mem_append_left _ he')
  subst hctx
  exact (nodup_append.mp hpool.nodup).2.2 e' he' e' he rfl

theorem mem_start_active
    (h : e' ∈ ((s.start ctx e rest iocb).context ctx').active) :
    (ctx' = ctx ∧ e' = e) ∨ e' ∈ (s.context ctx').active := by
  by_cases hctx : ctx' = ctx
  · subst hctx
    rw [start_context_self] at h
    rcases mem_append.mp h with hold | hnew
    · exact Or.inr hold
    · exact Or.inl ⟨rfl, mem_singleton.mp hnew⟩
  · rw [start_context_of_ne hctx] at h
    exact Or.inr h

theorem Ok.start (hok : Ok s) (hlive : s.Live ctx)
    (havail : (s.context ctx).available = e :: rest) (iocb : Nat) :
    Ok (s.start ctx e rest iocb) := by
  have havailable : e ∈ (s.context ctx).available := by
    rw [havail]
    exact mem_cons_self
  have hne : forall {ctx' e'}, s.Live ctx' -> e' ∈ (s.context ctx').active ->
      e' ≠ e := fun hlive' he' => hok.ne_of_active hlive hlive' havailable he'
  have hold : forall {e'}, e' ≠ e ->
      (s.start ctx e rest iocb).ticket e' = s.ticket e' ∧
        (s.start ctx e rest iocb).event e' = s.event e' := fun h =>
    ⟨update_of_ne h _ _, update_of_ne h _ _⟩
  have hnew : (s.start ctx e rest iocb).ticket e = s.submitted.length :=
    update_self _ _ _
  have hticket : forall {ctx' e'}, s.Live ctx' ->
      e' ∈ (s.context ctx').active -> s.ticket e' < s.submitted.length := by
    intro ctx' e' hlive' he'
    exact (List.getElem?_eq_some_iff.mp (hok.carried ctx' e' hlive' he')).choose
  have hanswered : forall r, r ∈ s.returned ->
      r.ticket < s.submitted.length := by
    intro r hr
    exact (List.getElem?_eq_some_iff.mp (hok.answers r hr)).choose
  constructor
  · exact hok.balanced
  · exact hok.owner
  · exact hok.slot
  · intro ctx' hlive'
    by_cases hctx : ctx' = ctx
    · subst hctx
      exact start_pool (hok.pool ctx' hlive) havail
    · exact (hok.pool ctx' hlive').congr (start_context_of_ne hctx) rfl
        fun _ => Iff.rfl
  · intro ctx' e' hlive' he'
    show (s.submitted ++ [(ctx, iocb)])[_]? = _
    rcases mem_start_active he' with ⟨rfl, rfl⟩ | he'
    · rw [hnew, List.getElem?_concat_length]
      show _ = some (ctx', (update s.event e' _ e').iocb)
      rw [update_self]
    · rw [(hold (hne hlive' he')).1, (hold (hne hlive' he')).2,
        List.getElem?_append_left (hticket hlive' he')]
      exact hok.carried ctx' e' hlive' he'
  · intro ctx' e' hlive' he' r hr
    rcases mem_start_active he' with ⟨rfl, rfl⟩ | he'
    · rw [hnew]
      exact Nat.ne_of_lt (hanswered r hr)
    · rw [(hold (hne hlive' he')).1]
      exact hok.unanswered ctx' e' hlive' he' r hr
  · intro ctx₁ ctx₂ e₁ e₂ hlive₁ hlive₂ he₁ he₂ heq
    rcases mem_start_active he₁ with ⟨-, h₁⟩ | he₁ <;>
      rcases mem_start_active he₂ with ⟨-, h₂⟩ | he₂
    · rw [h₁, h₂]
    · rw [h₁, hnew, (hold (hne hlive₂ he₂)).1] at heq
      exact absurd heq.symm (Nat.ne_of_lt (hticket hlive₂ he₂))
    · rw [h₂, hnew, (hold (hne hlive₁ he₁)).1] at heq
      exact absurd heq (Nat.ne_of_lt (hticket hlive₁ he₁))
    · rw [(hold (hne hlive₁ he₁)).1, (hold (hne hlive₂ he₂)).1] at heq
      exact hok.distinct ctx₁ ctx₂ e₁ e₂ hlive₁ hlive₂ he₁ he₂ heq
  · exact hok.once
  · intro r hr
    show (s.submitted ++ [(ctx, iocb)])[_]? = _
    rw [List.getElem?_append_left (hanswered r hr)]
    exact hok.answers r hr

end Start

theorem submitLoop_ok {iocbpp : Nat -> Nat} (left i : Nat) (count : Int)
    (hok : Ok s) (hlive : s.Live ctx) :
    Ok (submitLoop iocbpp ctx left i count s).2 := by
  induction left generalizing i count s with
  | zero => exact hok
  | succ left ih =>
    unfold submitLoop
    split
    · exact hok
    · rename_i e rest havail
      split
      · exact ih (i + 1) count hok hlive
      · exact ih (i + 1) (count + 1) (hok.start hlive havail (iocbpp i)) hlive

theorem ioSubmit_ok (hok : Ok s) (hctx : ctx = 0 ∨ s.Live ctx) (nr : Int)
    (iocbpp : Option (Nat -> Nat)) : Ok (ioSubmit s ctx nr iocbpp).2 := by
  unfold ioSubmit
  split
  · exact hok
  · split
    · exact hok
    · rename_i hargs
      have hlive : s.Live ctx :=
        hctx.resolve_left fun hnull => hargs (Or.inl hnull)
      split
      · exact hok
      · exact submitLoop_ok _ 0 0 hok hlive

section Finish

variable {s : State} {ctx e : Nat}

theorem finish_context_self : (s.finish ctx e).context ctx =
    { s.context ctx with
      active := (s.context ctx).active.erase e
      available := (s.context ctx).available ++ [e]
      nrActive := ((s.context ctx).nrActive + (2 ^ 32 - 1)) % 2 ^ 32 } :=
  update_self _ _ _

variable {ctx' : Nat}

theorem finish_context_of_ne (h : ctx' ≠ ctx) :
    (s.finish ctx e).context ctx' = s.context ctx' :=
  update_of_ne h _ _

theorem finish_pool (hpool : Pool s ctx) (he : e ∈ (s.context ctx).active) :
    Pool (s.finish ctx e) ctx := by
  have htotal := hpool.total
  have hbound := hpool.bound
  have hpos : 0 < (s.context ctx).active.length := length_pos_of_mem he
  apply hpool.shift finish_context_self rfl
  · rw [← append_assoc]
    apply perm_append_comm.trans
    exact (perm_cons_erase he).symm.append_right _
  · rw [length_erase_of_mem he, hpool.nrActive]
    omega

theorem mem_finish_active {e' : Nat} (hpool : Pool s ctx)
    (h : e' ∈ ((s.finish ctx e).context ctx').active) :
    e' ∈ (s.context ctx').active ∧ (ctx' = ctx -> e' ≠ e) := by
  by_cases hctx : ctx' = ctx
  · subst hctx
    rw [finish_context_self] at h
    have hmem := (List.Nodup.mem_erase_iff hpool.nodup.of_append_left).mp h
    exact ⟨hmem.2, fun _ => hmem.1⟩
  · rw [finish_context_of_ne hctx] at h
    exact ⟨h, fun heq => absurd heq hctx⟩

theorem Ok.finish (hok : Ok s) (hlive : s.Live ctx)
    (he : e ∈ (s.context ctx).active) : Ok (s.finish ctx e) := by
  have hpool := hok.pool ctx hlive
  -- no other active event carries the ticket that is answered
  have hother : forall {ctx' e'}, s.Live ctx' ->
      e' ∈ ((s.finish ctx e).context ctx').active ->
      e' ∈ (s.context ctx').active ∧ s.ticket e ≠ s.ticket e' := by
    intro ctx' e' hlive' he'
    obtain ⟨hactive, hne⟩ := mem_finish_active hpool he'
    refine ⟨hactive, fun heq => ?_⟩
    have hsame := hok.distinct ctx ctx' e e' hlive hlive' he hactive heq
    subst hsame
    have hctx : ctx = ctx' := hpool.ctx_eq (hok.pool ctx' hlive')
      (mem_append_left _ he) (mem_append_left _ hactive)
    exact hne hctx.symm rfl
  constructor
  · exact hok.balanced
  · exact hok.owner
  · exact hok.slot
  · intro ctx' hlive'
    by_cases hctx : ctx' = ctx
    · subst hctx
      exact finish_pool hpool he
    · exact (hok.pool ctx' hlive').congr (finish_context_of_ne hctx) rfl
        fun _ => Iff.rfl
  · intro ctx' e' hlive' he'
    exact hok.carried ctx' e' hlive' (hother hlive' he').1
  · intro ctx' e' hlive' he' r hr
    rcases mem_append.mp hr with hr | hr
    · exact hok.unanswered ctx' e' hlive' (hother hlive' he').1 r hr
    · rw [mem_singleton.mp hr]
      exact (hother hlive' he').2
  · intro ctx₁ ctx₂ e₁ e₂ hlive₁ hlive₂ he₁ he₂ heq
    exact hok.distinct ctx₁ ctx₂ e₁ e₂ hlive₁ hlive₂ (hother hlive₁ he₁).1
      (hother hlive₂ he₂).1 heq
  · show ((s.returned ++ [_]).map Returned.ticket).Nodup
    rw [map_append, map_singleton, ← concat_eq_append]
    apply List.Nodup.concat _ hok.once
    intro hmem
    obtain ⟨r, hr, hticket⟩ := mem_map.mp hmem
    exact hok.unanswered ctx e hlive he r hr hticket
  · intro r hr
    rcases mem_append.mp hr with hr | hr
    · exact hok.answers r hr
    · rw [mem_singleton.mp hr]
      exact hok.carried ctx e hlive he

end Finish

theorem geteventsLoop_ok (rest : List Nat) (count : Int) (events : List IoEvent)
    (hok : Ok s) (hlive : s.Live ctx) (hnodup : rest.Nodup)
    (hactive : forall e, e ∈ rest -> e ∈ (s.context ctx).active) :
    Ok (geteventsLoop aioData ctx nr rest count events s).2.2 := by
  induction rest generalizing count events s with
  | nil => exact hok
  | cons e rest ih =>
    obtain ⟨hnot, hrest⟩ := nodup_cons.mp hnodup
    have hlater : forall k, k ∈ rest -> k ∈ (s.context ctx).active :=
      fun k hk => hactive k (mem_cons_of_mem e hk)
    unfold geteventsLoop
    by_cases hstatus : (s.event e).status = 0
    · rw [if_pos hstatus]
      exact ih count events hok hlive hrest hlater
    · rw [if_neg hstatus]
      split
      case isTrue hfull => exact hok
      case isFalse hfull =>
        apply ih _ _ (hok.finish hlive (hactive e mem_cons_self)) hlive
          hrest
        intro k hk
        rw [finish_context_self]
        apply (mem_erase_of_ne ?_).mpr (hlater k hk)
        rintro rfl
        exact hnot hk

theorem ioGetevents_ok (hok : Ok s) (hctx : ctx = 0 ∨ s.Live ctx) {minNr : Int}
    {events : Bool} {result : Int × List IoEvent × State}
    (h : ioGetevents s aioData ctx minNr nr events = some result) :
    Ok result.2.2 := by
  unfold ioGetevents at h
  split at h
  · cases h
    exact hok
  · rename_i hargs
    have hlive : s.Live ctx :=
      hctx.resolve_left fun hnull => hargs (Or.inl hnull)
    split at h
    · cases h
    · cases h
      exact geteventsLoop_ok _ 0 [] hok hlive
        (hok.pool ctx hlive).nodup.of_append_left fun _ he => he

theorem ioCancel_ok (hok : Ok s) (hctx : ctx = 0 ∨ s.Live ctx)
    (aioData : Nat -> Nat) (iocb : Nat) (result : Bool) :
    Ok (ioCancel s aioData ctx iocb result).2.2 := by
  unfold ioCancel
  split
  · exact hok
  · rename_i hargs
    have hlive : s.Live ctx :=
      hctx.resolve_left fun hnull => hargs (Or.inl hnull)
    split
    · exact hok
    · rename_i e hfind
      exact hok.finish hlive (mem_of_find?_eq_some hfind)

theorem complete_ok (hok : Ok s) (event : Nat) (status res res2 : Int) :
    Ok { s with
      event := update s.event event
        { s.event event with status := status, res := res, res2 := res2 } } := by
  refine hok.apart ?_ hok.balanced hok.owner
  constructor
  · exact fun _ _ hi => hi
  · exact fun _ _ => rfl
  · exact fun _ _ => rfl
  · exact fun _ _ _ => Iff.rfl
  · intro ctx e _ _
    show (update s.event event _ e).iocb = _
    by_cases heq : e = event
    · rw [heq, update_self]
    · rw [update_of_ne heq]
  · rfl
  · rfl
  · rfl

end Aio
end Horizon
