import Horizon.Io.Aio.Requests

/-!
# Conservation of AIO events

`io_setup` builds a context out of fresh blocks, or gives all of them back, and
`io_destroy` releases what belongs to the context. With them every call keeps
the invariant, so that it holds in every run.
-/

namespace Horizon
namespace Aio

open Function List Transition

/-!
## Set-up
-/

/-- A context that is being set up, with the events it has so far. -/
structure Built (s : State) (ctx nrEvents : Nat) (events : List Nat)
    (s' : State) : Prop where
  contexts : s'.contexts = s.contexts
  self : s'.context ctx =
    { nrEvents := nrEvents, nrActive := 0, active := [], available := events }
  other : forall ctx', ctx' ≠ ctx -> s'.context ctx' = s.context ctx'
  event : forall e, e ∉ events -> s'.event e = s.event e
  held : forall a, s'.heap.held a =
    if a = ctx then some .context
    else if a ∈ events then some (.event ctx)
    else s.heap.held a
  allocated : s'.heap.allocated = s.heap.allocated ++ ctx :: events
  freed : s'.heap.freed = s.heap.freed
  balanced : s'.heap.Balanced
  submitted : s'.submitted = s.submitted
  ticket : s'.ticket = s.ticket
  returned : s'.returned = s.returned
  nodup : (ctx :: events).Nodup
  fresh : forall a, a ∈ ctx :: events -> s.heap.held a = none

section Build

variable {s s' : State} {ctx nrEvents : Nat} {events : List Nat}

theorem built_allocContext (hok : Ok s) (hfresh : s.heap.held ctx = none)
    (nrEvents : Nat) :
    Built s ctx nrEvents [] (s.allocContext ctx nrEvents) := by
  constructor
  · rfl
  · exact update_self _ _ _
  · intro ctx' hne
    exact update_of_ne hne _ _
  · intro e _
    rfl
  · intro a
    rw [if_neg not_mem_nil]
    exact update_apply _ _ _ _
  · rfl
  · rfl
  · exact hok.balanced.alloc hfresh .context
  · rfl
  · rfl
  · rfl
  · exact nodup_singleton ctx
  · intro a ha
    rwa [mem_singleton.mp ha]

theorem Built.allocEvent (h : Built s ctx nrEvents events s') {e : Nat}
    (hnew : e ∉ ctx :: events) (hfresh : s.heap.held e = none) :
    Built s ctx nrEvents (events ++ [e]) (s'.allocEvent ctx e) := by
  have hne : e ≠ ctx := fun heq => hnew (heq ▸ mem_cons_self)
  have hnot : e ∉ events := fun hmem => hnew (mem_cons_of_mem ctx hmem)
  have hunheld : s'.heap.held e = none := by
    rw [h.held e, if_neg hne, if_neg hnot, hfresh]
  constructor
  · exact h.contexts
  · show update s'.context ctx _ ctx = _
    rw [update_self, h.self]
  · intro ctx' hctx
    exact (update_of_ne hctx _ _).trans (h.other ctx' hctx)
  · intro k hk
    have hke : k ≠ e := fun heq => hk (by simp [heq])
    exact (update_of_ne hke _ _).trans
      (h.event k fun hmem => hk (mem_append_left _ hmem))
  · intro a
    show update s'.heap.held e _ a = _
    by_cases hae : a = e
    · subst hae
      rw [update_self, if_neg hne, if_pos (by simp)]
    · rw [update_of_ne hae, h.held a]
      simp [hae]
  · show s'.heap.allocated ++ [e] = _
    rw [h.allocated, append_assoc, cons_append]
  · exact h.freed
  · exact h.balanced.alloc hunheld (.event ctx)
  · exact h.submitted
  · exact h.ticket
  · exact h.returned
  · rw [← cons_append, ← concat_eq_append]
    exact h.nodup.concat hnew
  · intro a ha
    rw [← cons_append] at ha
    rcases mem_append.mp ha with hold | hlast
    · exact h.fresh a hold
    · rwa [mem_singleton.mp hlast]

/-- The loop goes on with blocks that are not in use, since the ones it has were
returned by earlier calls of `kmalloc`. -/
theorem Built.allocEvents {memory : Nat -> Option Nat} (hfresh : Fresh s memory)
    (left i : Nat) (h : Built s ctx nrEvents events s')
    (hfrom : forall a, a ∈ ctx :: events ->
      exists j, j <= i ∧ memory j = some a) :
    exists events',
      Built s ctx nrEvents events' (Aio.allocEvents memory ctx left i s').2 ∧
        ((Aio.allocEvents memory ctx left i s').1 = true ->
          events'.length = events.length + left) := by
  induction left generalizing i events s' with
  | zero => exact ⟨events, h, fun _ => rfl⟩
  | succ left ih =>
    unfold Aio.allocEvents
    cases hmemory : memory (i + 1) with
    | none => exact ⟨events, h, fun hfalse => nomatch hfalse⟩
    | some e =>
      have hnew : e ∉ ctx :: events := by
        intro hmem
        obtain ⟨j, hj, hsame⟩ := hfrom e hmem
        have heq := hfresh.distinct j (i + 1) e hsame hmemory
        omega
      have hnext := h.allocEvent hnew (hfresh.unheld _ e hmemory).2
      obtain ⟨events', hbuilt, hlength⟩ := ih (i + 1) hnext (by
        intro a ha
        rw [← cons_append] at ha
        rcases mem_append.mp ha with hold | hlast
        · obtain ⟨j, hj, hsame⟩ := hfrom a hold
          exact ⟨j, Nat.le_succ_of_le hj, hsame⟩
        · rw [mem_singleton.mp hlast]
          exact ⟨i + 1, Nat.le_refl _, hmemory⟩)
      refine ⟨events', hbuilt, fun hdone => ?_⟩
      rw [hlength hdone, length_append, length_singleton]
      omega

theorem Built.dead (h : Built s ctx nrEvents events s') (hok : Ok s) :
    ¬ s.Live ctx := by
  intro hlive
  have hheld := (hok.pool ctx hlive).held
  rw [h.fresh ctx mem_cons_self] at hheld
  cases hheld

variable {ctx' : Nat}

section

variable (h : Built s ctx nrEvents events s')
include h

theorem Built.ne_of_live (hok : Ok s) (hlive : s.Live ctx') : ctx' ≠ ctx := by
  rintro rfl
  exact h.dead hok hlive

theorem Built.live (hlive : s'.Live ctx') :
    s.Live ctx' := by
  obtain ⟨i, hi⟩ := hlive
  rw [h.contexts] at hi
  exact ⟨i, hi⟩

theorem Built.held_event (hne : ctx' ≠ ctx) (e : Nat) :
    s'.heap.held e = some (.event ctx') <->
      s.heap.held e = some (.event ctx') := by
  rw [h.held e]
  split
  · rename_i heq
    rw [heq, h.fresh ctx mem_cons_self]
    simp
  · split
    · rename_i hmem
      rw [h.fresh e (mem_cons_of_mem ctx hmem)]
      simp [Ne.symm hne]
    · exact Iff.rfl

theorem Built.not_mem {a : Nat} {k : Block}
    (hheld : s.heap.held a = some k) : a ∉ events := by
  intro hmem
  rw [h.fresh a (mem_cons_of_mem ctx hmem)] at hheld
  cases hheld

theorem Built.ok (hok : Ok s) : Ok s' := by
  apply hok.apart _ h.balanced
  · intro e ctx' he
    by_cases hctx : ctx' = ctx
    · rw [hctx, h.held ctx, if_pos rfl]
    · have hheld := hok.owner e ctx' ((h.held_event hctx e).mp he)
      rw [h.held ctx', if_neg hctx, if_neg (h.not_mem hheld), hheld]
  · constructor
    · intro i ctx' hi
      rwa [h.contexts] at hi
    · intro ctx' hlive
      exact h.other ctx' (h.ne_of_live hok (h.live hlive))
    · intro ctx' hlive
      have hheld := (hok.pool ctx' (h.live hlive)).held
      rw [h.held ctx', if_neg (h.ne_of_live hok (h.live hlive)),
        if_neg (h.not_mem hheld)]
    · intro ctx' e hlive
      exact h.held_event (h.ne_of_live hok (h.live hlive)) e
    · intro ctx' e hlive he
      have hheld := (hok.pool ctx' (h.live hlive)).held_of_active he
      rw [h.event e (h.not_mem hheld)]
    · exact h.submitted
    · exact h.ticket
    · exact h.returned

theorem Built.pool (hok : Ok s) (hbound : nrEvents < 2 ^ 32)
    (hlength : events.length = nrEvents) :
    Pool s' ctx := by
  obtain ⟨hnot, hnodup⟩ := nodup_cons.mp h.nodup
  constructor
  · rw [h.held ctx, if_pos rfl]
  · rw [h.self]
    exact hnodup
  · intro e
    rw [h.self, h.held e]
    show e ∈ events <-> _
    constructor
    · intro hmem
      have hne : e ≠ ctx := fun heq => hnot (heq ▸ hmem)
      rw [if_neg hne, if_pos hmem]
    · intro hheld
      by_contra hmem
      split at hheld
      · cases hheld
      · -- nothing is held for a context that is itself not held
        have howner := hok.owner e ctx hheld
        rw [h.fresh ctx mem_cons_self] at howner
        cases howner
  · rw [h.self]
    rfl
  · rw [h.self]
    show 0 + events.length = nrEvents
    rw [Nat.zero_add, hlength]
  · rw [h.self]
    exact hbound

end

end Build

variable {s : State} {id ctx : Nat}

theorem Ok.publish (hok : Ok s) (hslot : s.contexts id = none)
    (hdead : ¬ s.Live ctx) (hpool : Pool s ctx)
    (hidle : (s.context ctx).active = []) :
    Ok { s with contexts := update s.contexts id (some ctx) } := by
  have hentry : forall i ctx',
      update s.contexts id (some ctx) i = some ctx' ->
      (i = id ∧ ctx' = ctx) ∨ s.contexts i = some ctx' := by
    intro i ctx' hi
    by_cases heq : i = id
    · subst heq
      rw [update_self] at hi
      cases hi
      exact Or.inl ⟨rfl, rfl⟩
    · rw [update_of_ne heq] at hi
      exact Or.inr hi
  -- a context with an active event was live before
  have hlive : forall {ctx' e}, e ∈ (s.context ctx').active ->
      (exists i, update s.contexts id (some ctx) i = some ctx') ->
      s.Live ctx' := by
    rintro ctx' e he ⟨i, hi⟩
    rcases hentry i ctx' hi with ⟨-, rfl⟩ | hi
    · rw [hidle] at he
      cases he
    · exact ⟨i, hi⟩
  constructor
  · exact hok.balanced
  · exact hok.owner
  · intro i j ctx' hi hj
    rcases hentry i ctx' hi with ⟨hid, h₁⟩ | hold₁ <;>
      rcases hentry j ctx' hj with ⟨hid', h₂⟩ | hold₂
    · rw [hid, hid']
    · exact absurd ⟨j, h₁ ▸ hold₂⟩ hdead
    · exact absurd ⟨i, h₂ ▸ hold₁⟩ hdead
    · exact hok.slot i j ctx' hold₁ hold₂
  · rintro ctx' ⟨i, hi⟩
    rcases hentry i ctx' hi with ⟨-, rfl⟩ | hi
    · exact hpool.congr rfl rfl fun _ => Iff.rfl
    · exact (hok.pool ctx' ⟨i, hi⟩).congr rfl rfl fun _ => Iff.rfl
  · intro ctx' e h he
    exact hok.carried ctx' e (hlive he h) he
  · intro ctx' e h he
    exact hok.unanswered ctx' e (hlive he h) he
  · intro ctx₁ ctx₂ e₁ e₂ h₁ h₂ he₁ he₂
    exact hok.distinct ctx₁ ctx₂ e₁ e₂ (hlive he₁ h₁) (hlive he₂ h₂) he₁ he₂
  · exact hok.once
  · exact hok.answers

/-!
## Release
-/

structure Freed (s : State) (ctx : Nat) (events : List Nat) (s' : State) :
    Prop where
  contexts : s'.contexts = s.contexts
  other : forall ctx', ctx' ≠ ctx -> s'.context ctx' = s.context ctx'
  event : s'.event = s.event
  held : forall a, s'.heap.held a = if a ∈ events then none else s.heap.held a
  allocated : s'.heap.allocated = s.heap.allocated
  freed : s'.heap.freed = s.heap.freed ++ events
  balanced : s'.heap.Balanced
  submitted : s'.submitted = s.submitted
  ticket : s'.ticket = s.ticket
  returned : s'.returned = s.returned

theorem freeEvents_freed (events : List Nat) (hbalanced : s.heap.Balanced)
    (hnodup : events.Nodup)
    (hheld : forall e, e ∈ events -> s.heap.held e = some (.event ctx)) :
    Freed s ctx events (freeEvents ctx events s) := by
  induction events generalizing s with
  | nil =>
    constructor
    · rfl
    · intro _ _
      rfl
    · rfl
    · intro a
      rw [if_neg not_mem_nil]
      rfl
    · rfl
    · exact (append_nil _).symm
    · exact hbalanced
    · rfl
    · rfl
    · rfl
  | cons e rest ih =>
    obtain ⟨hnot, hrest⟩ := nodup_cons.mp hnodup
    unfold freeEvents
    set t : State := State.kfree { s with
      context := update s.context ctx
        { s.context ctx with available := rest } } e with ht
    have hother : forall a, a ≠ e -> t.heap.held a = s.heap.held a :=
      fun a ha => update_of_ne ha _ _
    have hself : t.heap.held e = none := update_self _ _ _
    have hlater : Freed t ctx rest (freeEvents ctx rest t) := by
      apply ih (hbalanced.free (hheld e mem_cons_self)) hrest
      intro k hk
      rw [hother k fun heq => hnot (heq ▸ hk)]
      exact hheld k (mem_cons_of_mem e hk)
    constructor
    · exact hlater.contexts
    · intro ctx' hne
      exact (hlater.other ctx' hne).trans (update_of_ne hne _ _)
    · exact hlater.event
    · intro a
      rw [hlater.held a]
      by_cases hae : a = e
      · subst hae
        rw [if_neg hnot, if_pos mem_cons_self, hself]
      · simp [hae, hother a hae]
    · exact hlater.allocated
    · rw [hlater.freed]
      show s.heap.freed ++ [e] ++ rest = _
      rw [append_assoc]
      rfl
    · exact hlater.balanced
    · exact hlater.submitted
    · exact hlater.ticket
    · exact hlater.returned

theorem firstSlot_test {test : Nat -> Bool} {left i : Nat}
    (h : firstSlot test left i = some id) : test id = true := by
  induction left generalizing i with
  | zero => cases h
  | succ left ih =>
    unfold firstSlot at h
    split at h
    · rename_i htest
      cases h
      exact htest
    · exact ih h

/-- What a call of `io_setup` that fails leaves: the heap as it was, with
the blocks it had taken released again. -/
structure Undone (s s' : State) : Prop where
  ok : Ok s'
  held : s'.heap.held = s.heap.held
  books : exists taken given, s'.heap.allocated = s.heap.allocated ++ taken ∧
    s'.heap.freed = s.heap.freed ++ given ∧ taken.Nodup ∧ given.Perm taken

theorem undone_self (hok : Ok s) : Undone s s := by
  refine ⟨hok, rfl, [], [], ?_, ?_, nodup_nil, List.Perm.refl []⟩
  · exact (append_nil _).symm
  · exact (append_nil _).symm

section Release

variable {s s' : State} {ctx nrEvents : Nat} {events : List Nat}

theorem Built.undone (h : Built s ctx nrEvents events s') (hok : Ok s) :
    Undone s ((freeEvents ctx (s'.context ctx).available s').kfree ctx) := by
  obtain ⟨hnot, hnodup⟩ := nodup_cons.mp h.nodup
  have hevents : forall e, e ∈ events -> s'.heap.held e = some (.event ctx) := by
    intro e he
    have hne : e ≠ ctx := fun heq => hnot (heq ▸ he)
    rw [h.held e, if_neg hne, if_pos he]
  rw [show (s'.context ctx).available = events by rw [h.self]]
  have hfreed := freeEvents_freed events h.balanced hnodup hevents
  generalize freeEvents ctx events s' = t at hfreed
  have hctx : t.heap.held ctx = some .context := by
    rw [hfreed.held ctx, if_neg hnot, h.held ctx, if_pos rfl]
  have hheld : (t.kfree ctx).heap.held = s.heap.held := by
    funext a
    show update t.heap.held ctx none a = _
    by_cases hactx : a = ctx
    · rw [hactx, update_self, h.fresh ctx mem_cons_self]
    · rw [update_of_ne hactx, hfreed.held a]
      split
      case isTrue hmem => rw [h.fresh a (mem_cons_of_mem ctx hmem)]
      case isFalse hmem => rw [h.held a, if_neg hactx, if_neg hmem]
  have hlive : forall {ctx'}, (t.kfree ctx).Live ctx' -> s.Live ctx' := by
    rintro ctx' ⟨i, hi⟩
    have hsame : t.contexts i = some ctx' := hi
    rw [hfreed.contexts, h.contexts] at hsame
    exact ⟨i, hsame⟩
  constructor
  · apply hok.apart _ (hfreed.balanced.free hctx)
    · intro e ctx' he
      rw [hheld] at he ⊢
      exact hok.owner e ctx' he
    · constructor
      · intro i ctx' hi
        have hsame : t.contexts i = some ctx' := hi
        rwa [hfreed.contexts, h.contexts] at hsame
      · intro ctx' hl
        have hne := h.ne_of_live hok (hlive hl)
        exact (hfreed.other ctx' hne).trans (h.other ctx' hne)
      · intro ctx' _
        rw [hheld]
      · intro ctx' e _
        rw [hheld]
      · intro ctx' e hl he
        have heheld := (hok.pool ctx' (hlive hl)).held_of_active he
        show (t.event e).iocb = _
        rw [hfreed.event, h.event e (h.not_mem heheld)]
      · exact hfreed.submitted.trans h.submitted
      · exact hfreed.ticket.trans h.ticket
      · exact hfreed.returned.trans h.returned
  · exact hheld
  · refine ⟨ctx :: events, events ++ [ctx], ?_, ?_, h.nodup, ?_⟩
    · exact hfreed.allocated.trans h.allocated
    · show t.heap.freed ++ [ctx] = _
      rw [hfreed.freed, h.freed, append_assoc]
    · exact perm_append_singleton ctx events

end Release

theorem ioSetup_ok (hok : Ok s) {nrEvents : Nat} {ctxp : Bool}
    {memory : Nat -> Option Nat} (hbound : nrEvents < 2 ^ 32)
    (hfresh : Fresh s memory) :
    Ok (ioSetup s nrEvents ctxp memory).2.2 ∧
      ((ioSetup s nrEvents ctxp memory).1 ≠ 0 ->
        Undone s (ioSetup s nrEvents ctxp memory).2.2) := by
  unfold ioSetup
  split
  · exact ⟨hok, fun _ => undone_self hok⟩
  · split
    · exact ⟨hok, fun _ => undone_self hok⟩
    · rename_i id hslot
      split
      · exact ⟨hok, fun _ => undone_self hok⟩
      · rename_i ctx hctx
        have hstart := built_allocContext hok (hfresh.unheld 0 ctx hctx).2
          nrEvents
        obtain ⟨events, hbuilt, hlength⟩ :=
          hstart.allocEvents hfresh nrEvents 0 (by
            intro a ha
            rw [mem_singleton.mp ha]
            exact ⟨0, Nat.le_refl 0, hctx⟩)
        split
        · rename_i s' hloop
          rw [hloop] at hbuilt
          have hundone := hbuilt.undone hok
          exact ⟨hundone.ok, fun _ => hundone⟩
        · rename_i s' hloop
          rw [hloop] at hbuilt hlength
          refine ⟨?_, fun hfail => absurd rfl hfail⟩
          have hnone : s.contexts id = none :=
            Option.isNone_iff_eq_none.mp (firstSlot_test hslot)
          apply (hbuilt.ok hok).publish
          · rw [hbuilt.contexts]
            exact hnone
          · intro hlive
            exact hbuilt.dead hok (hbuilt.live hlive)
          · apply hbuilt.pool hok hbound
            rw [hlength rfl]
            exact Nat.zero_add nrEvents
          · rw [hbuilt.self]

/-- What a call of `io_destroy` that succeeds releases: the context and all
that was allocated for it, once each. -/
structure Destroyed (s : State) (ctx : Nat) (s' : State) : Prop where
  ok : Ok s'
  books : exists given, s'.heap.freed = s.heap.freed ++ given ∧ given.Nodup ∧
    forall a, a ∈ given <-> a = ctx ∨ s.heap.held a = some (.event ctx)

theorem Ok.destroy (hok : Ok s) (hslot : s.contexts id = some ctx)
    (hidle : (s.context ctx).nrActive = 0) :
    let t := freeEvents ctx (s.context ctx).available s
    Destroyed s ctx
      (State.kfree { t with contexts := update t.contexts id none }
        ctx) := by
  intro t
  have hpool := hok.pool ctx ⟨id, hslot⟩
  have hactive : (s.context ctx).active = [] :=
    eq_nil_of_length_eq_zero (hpool.nrActive.symm.trans hidle)
  have hnodup : (s.context ctx).available.Nodup := hpool.nodup.of_append_right
  have hmem : forall e, e ∈ (s.context ctx).available <->
      s.heap.held e = some (.event ctx) := by
    intro e
    rw [← hpool.mem_iff e, hactive, nil_append]
  have hfreed : Freed s ctx (s.context ctx).available t :=
    freeEvents_freed _ hok.balanced hnodup fun e he => (hmem e).mp he
  have hself : ctx ∉ (s.context ctx).available := by
    intro hin
    have hheld := (hmem ctx).mp hin
    rw [hpool.held] at hheld
    cases hheld
  have hctx : t.heap.held ctx = some .context := by
    rw [hfreed.held ctx, if_neg hself]
    exact hpool.held
  have hheld : forall a, a ≠ ctx -> s.heap.held a ≠ some (.event ctx) ->
      update t.heap.held ctx none a = s.heap.held a := by
    intro a hne hnot
    rw [update_of_ne hne, hfreed.held a,
      if_neg fun hin => hnot ((hmem a).mp hin)]
  -- the contexts that stay in the table are other ones
  have hstays : forall {i ctx'}, update t.contexts id none i = some ctx' ->
      s.contexts i = some ctx' ∧ ctx' ≠ ctx := by
    intro i ctx' hi
    by_cases heq : i = id
    · rw [heq, update_self] at hi
      cases hi
    · rw [update_of_ne heq, hfreed.contexts] at hi
      refine ⟨hi, fun hsame => heq ?_⟩
      rw [hsame] at hi
      exact hok.slot i id ctx hi hslot
  have hcontext : forall {ctx'}, ctx' ≠ ctx ->
      s.heap.held ctx' = some .context ->
      update t.heap.held ctx none ctx' = some .context := by
    intro ctx' hne hold
    rw [hheld ctx' hne (by rw [hold]; exact nofun), hold]
  have hevent : forall {ctx'} e, ctx' ≠ ctx ->
      (update t.heap.held ctx none e = some (.event ctx') <->
        s.heap.held e = some (.event ctx')) := by
    intro ctx' e hne
    by_cases hectx : e = ctx
    · rw [hectx, update_self, hpool.held]
      simp
    · by_cases hown : s.heap.held e = some (.event ctx)
      · rw [update_of_ne hectx, hfreed.held e, if_pos ((hmem e).mpr hown), hown]
        simp [Ne.symm hne]
      · rw [hheld e hectx hown]
  constructor
  · apply hok.apart _ (hfreed.balanced.free hctx)
    · intro e ctx' he
      have hne : ctx' ≠ ctx := by
        rintro rfl
        have hectx : e ≠ ctx' := by
          rintro rfl
          exact absurd he (by simp [State.kfree, Ledger.free])
        have he' : t.heap.held e = some (.event ctx') := by
          rw [← he]
          exact (update_of_ne hectx _ _).symm
        rw [hfreed.held e] at he'
        split at he'
        · cases he'
        · rename_i hnot
          exact hnot ((hmem e).mpr he')
      exact hcontext hne (hok.owner e ctx' ((hevent e hne).mp he))
    · constructor
      · intro i ctx' hi
        exact (hstays hi).1
      · rintro ctx' ⟨i, hi⟩
        exact hfreed.other ctx' (hstays hi).2
      · rintro ctx' ⟨i, hi⟩
        have hold := (hok.pool ctx' ⟨i, (hstays hi).1⟩).held
        exact (hcontext (hstays hi).2 hold).trans hold.symm
      · rintro ctx' e ⟨i, hi⟩
        exact hevent e (hstays hi).2
      · intro ctx' e _ _
        show (t.event e).iocb = _
        rw [hfreed.event]
      · exact hfreed.submitted
      · exact hfreed.ticket
      · exact hfreed.returned
  · refine ⟨(s.context ctx).available ++ [ctx], ?_, ?_, ?_⟩
    · show t.heap.freed ++ [ctx] = _
      rw [hfreed.freed, append_assoc]
    · rw [← concat_eq_append]
      exact hnodup.concat hself
    · intro a
      rw [mem_append, mem_singleton, hmem a]
      exact or_comm

theorem ioDestroy_ok (hok : Ok s) (ctx : Nat) :
    Ok (ioDestroy s ctx).2 ∧
      ((ioDestroy s ctx).1 = 0 -> Destroyed s ctx (ioDestroy s ctx).2) := by
  unfold ioDestroy
  split
  · exact ⟨hok, fun h => nomatch h⟩
  · split
    · exact ⟨hok, fun h => nomatch h⟩
    · rename_i id hslot
      split
      · exact ⟨hok, fun h => nomatch h⟩
      · rename_i hidle
        have hdone := hok.destroy (beq_iff_eq.mp (firstSlot_test hslot))
          (Nat.eq_zero_of_not_pos hidle)
        exact ⟨hdone.ok, fun _ => hdone⟩

/-!
## Runs
-/

theorem ok_next {s' : State} {call : Call} (hok : Ok s) (hcall : CallOk s call)
    (h : next s call = some s') : Ok s' := by
  cases call with
  | setup nrEvents ctxp memory =>
    cases h
    exact (ioSetup_ok hok hcall.1 hcall.2).1
  | destroy ctx =>
    cases h
    exact (ioDestroy_ok hok ctx).1
  | submit ctx nr iocbpp =>
    cases h
    exact ioSubmit_ok hok hcall nr iocbpp
  | getevents aioData ctx minNr nr events =>
    obtain ⟨result, hresult, rfl⟩ := Option.map_eq_some_iff.mp h
    exact ioGetevents_ok hok hcall hresult
  | cancel aioData ctx iocb result =>
    cases h
    exact ioCancel_ok hok hcall aioData iocb result
  | complete event status res res2 =>
    cases h
    exact complete_ok hok event status res res2

theorem ok_reachable (h : Reachable Init (Guarded CallOk next) s) : Ok s :=
  h.guarded ok_init ok_next

/-- In every state that calls reach, each live context has its events on its two
lists, once each and as many as it was set up with; the blocks that a failing
`io_setup` took are released once each, as are all events of a context by
`io_destroy`; and no submission is answered twice. -/
theorem aio_events_conserved {s : State}
    (h : Reachable Init (Guarded CallOk next) s) :
    (forall ctx, s.Live ctx ->
      (s.context ctx).nrActive = (s.context ctx).active.length ∧
        ((s.context ctx).active ++ (s.context ctx).available).Nodup ∧
        (forall e, e ∈ (s.context ctx).active ++ (s.context ctx).available <->
          s.heap.held e = some (.event ctx)) ∧
        (s.context ctx).active.length + (s.context ctx).available.length =
          (s.context ctx).nrEvents) ∧
      (forall nrEvents ctxp memory s', CallOk s (.setup nrEvents ctxp memory) ->
        ioSetup s nrEvents ctxp memory = (-1, none, s') ->
        s'.heap.held = s.heap.held ∧
          exists taken given, s'.heap.allocated = s.heap.allocated ++ taken ∧
            s'.heap.freed = s.heap.freed ++ given ∧ taken.Nodup ∧
            given.Perm taken) ∧
      (forall ctx s', ioDestroy s ctx = (0, s') ->
        exists given, s'.heap.freed = s.heap.freed ++ given ∧ given.Nodup ∧
          forall a, a ∈ given <-> a = ctx ∨ s.heap.held a = some (.event ctx)) ∧
      s.heap.Balanced ∧
      (s.returned.map Returned.ticket).Nodup ∧
      forall r, r ∈ s.returned ->
        s.submitted[r.ticket]? = some (r.ctx, r.obj) := by
  have hok := ok_reachable h
  refine ⟨?_, ?_, ?_, hok.balanced, hok.once, hok.answers⟩
  · intro ctx hlive
    have hpool := hok.pool ctx hlive
    exact ⟨hpool.nrActive, hpool.nodup, hpool.mem_iff, hpool.total⟩
  · intro nrEvents ctxp memory s' hcall hsetup
    have hundone := @ioSetup_ok s hok nrEvents ctxp memory hcall.1 hcall.2
    rw [hsetup] at hundone
    have hleft := hundone.2 (show (-1 : Int) ≠ 0 by decide)
    exact ⟨hleft.held, hleft.books⟩
  · intro ctx s' hdestroy
    have hdestroyed := (ioDestroy_ok hok ctx).2
    rw [hdestroy] at hdestroyed
    exact (hdestroyed rfl).books

def twoBlocks : Nat -> Option Nat
  | 0 => some 10
  | 1 => some 11
  | _ => none

def initial : State where
  contexts := fun _ => none
  context := fun _ =>
    { nrEvents := 0, nrActive := 0, active := [], available := [] }
  event := fun _ => .zero
  heap := Ledger.empty
  submitted := []
  ticket := fun _ => 0
  returned := []

def afterSetup : State := (ioSetup initial 1 true twoBlocks).2.2

def afterSubmit : State := (ioSubmit afterSetup 10 1 (some fun _ => 7)).2

theorem aio_events_conserved_submit :
    (afterSubmit.context 10).active = [11] ∧
      (afterSubmit.context 10).active.length +
        (afterSubmit.context 10).available.length = 1 := by
  have hfresh : Fresh initial twoBlocks := by
    constructor
    · intro i a hi
      match i, hi with
      | 0, hi => cases hi; exact ⟨by decide, rfl⟩
      | 1, hi => cases hi; exact ⟨by decide, rfl⟩
    · intro i j a hi hj
      match i, j, hi, hj with
      | 0, 0, _, _ => rfl
      | 1, 1, _, _ => rfl
      | 0, 1, hi, hj => cases hi; cases hj
      | 1, 0, hi, hj => cases hi; cases hj
  have hinit : Init initial := ⟨fun _ => rfl, rfl, rfl, rfl⟩
  have hlive : afterSetup.Live 10 := ⟨0, rfl⟩
  have hsetup : Reachable Init (Guarded CallOk next)
      afterSetup :=
    (Reachable.init hinit).step (l := .setup 1 true twoBlocks)
      ⟨⟨by decide, hfresh⟩, rfl⟩
  have hsubmit : Reachable Init (Guarded CallOk next)
      afterSubmit :=
    hsetup.step (l := .submit 10 1 (some fun _ => 7)) ⟨Or.inr hlive, rfl⟩
  exact ⟨rfl, ((aio_events_conserved hsubmit).1 10 ⟨0, rfl⟩).2.2.2⟩

end Aio
end Horizon
