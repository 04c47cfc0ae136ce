import Mathlib.Data.Finset.Basic
import Horizon.Lib.Transition

/-!
# Lock ordering

Threads run programs that take and release locks and act on a shared state in
between.  When every program takes its locks in the order of a rank, no cycle
of threads arises in which each waits for a lock that the next one holds.
-/

namespace Horizon
namespace LockOrder

open Function

/-- What a thread still has to do. -/
inductive Program (lock shared : Type) where
  | done
  -- a loop without end or a fault
  | hang
  | take (l : lock) (rest : Program lock shared)
  | release (l : lock) (rest : Program lock shared)
  | act (update : shared -> shared) (rest : shared -> Program lock shared)

structure System (thread lock shared : Type) where
  state : shared
  owner : lock -> Option thread
  program : thread -> Program lock shared

section Step

variable {thread lock shared : Type} [DecidableEq thread] [DecidableEq lock]

def System.continue (s : System thread lock shared) (t : thread)
    (p : Program lock shared) : System thread lock shared :=
  { s with program := update s.program t p }

/-- The next step of a thread.  A thread that finds a lock taken does not
move. -/
def System.advance (s : System thread lock shared) (t : thread) :
    Option (System thread lock shared) :=
  match s.program t with
  | Program.done => none
  | Program.hang => none
  | Program.take l rest =>
      match s.owner l with
      | none => some { s.continue t rest with
          owner := update s.owner l (some t) }
      | some _ => none
  | Program.release l rest => some { s.continue t rest with
      owner := update s.owner l none }
  | Program.act update rest => some { s.continue t (rest s.state) with
      state := update s.state }

/-- A thread starts a call, given by its program, or takes a step of one. -/
def next (s : System thread lock shared) :
    thread × Option (Program lock shared) -> Option (System thread lock shared)
  | (t, some p) =>
      match s.program t with
      | Program.done => some (s.continue t p)
      | _ => none
  | (t, none) => s.advance t

def Waits (s : System thread lock shared) (t u : thread) : Prop :=
  exists l rest, s.program t = Program.take l rest ∧ s.owner l = some u

/-! ## Programs in order -/

variable (rank : lock -> Nat)

/-- A program that holds the given locks takes every further lock above them
and releases what it has taken. -/
def Ordered : Finset lock -> Program lock shared -> Prop
  | held, Program.done => held = ∅
  | _, Program.hang => True
  | held, Program.take l rest =>
      (forall h, h ∈ held -> rank h < rank l) ∧ Ordered (insert l held) rest
  | held, Program.release l rest => l ∈ held ∧ Ordered (held.erase l) rest
  | held, Program.act _ rest => forall s, Ordered held (rest s)

/-- Every thread runs a program in order, and a lock belongs to the thread that
holds it. -/
structure Ok (s : System thread lock shared) (held : thread -> Finset lock) :
    Prop where
  ordered : forall t, Ordered rank (held t) (s.program t)
  owner : forall t l, s.owner l = some t <-> l ∈ held t

def InOrder (s : System thread lock shared) : Prop :=
  exists held, Ok rank s held

variable {rank}

variable {s s' : System thread lock shared} {t : thread} {l : lock}
    {rest : Program lock shared} {held : thread -> Finset lock}

section

variable (h : Ok rank s held)
include h

theorem Ok.move {p : Program lock shared} {locks : Finset lock}
    (hprogram : s'.program = update s.program t p)
    (hordered : Ordered rank locks p)
    (howner : forall u l, s'.owner l = some u <-> l ∈ update held t locks u) :
    Ok rank s' (update held t locks) := by
  constructor
  · intro u
    rw [hprogram]
    by_cases hu : u = t
    · rw [hu, update_self, update_self]
      exact hordered
    · rw [update_of_ne hu, update_of_ne hu]
      exact h.ordered u
  · exact howner

theorem Ok.owner_same (t u : thread) (l : lock) :
    s.owner l = some u <-> l ∈ update held t (held t) u := by
  rw [update_eq_self]
  exact h.owner u l

theorem Ok.change {owner : Option thread} {locks : Finset lock}
    (hordered : Ordered rank locks rest)
    (hother : forall k, k ≠ l -> (k ∈ locks <-> k ∈ held t))
    (hhere : forall u, owner = some u <-> l ∈ update held t locks u) :
    Ok rank { s.continue t rest with owner := update s.owner l owner }
      (update held t locks) := by
  apply h.move rfl hordered
  intro u k
  show update s.owner l owner k = some u <-> _
  by_cases hk : k = l
  · rw [hk, update_self]
    exact hhere u
  · rw [update_of_ne hk, h.owner u k]
    by_cases hu : u = t
    · rw [hu, update_self, hother k hk]
    · rw [update_of_ne hu]

theorem Ok.take (ht : s.program t = .take l rest) (hfree : s.owner l = none) :
    Ok rank { s.continue t rest with
        owner := update s.owner l (some t) }
      (update held t (insert l (held t))) := by
  have hordered := h.ordered t
  rw [ht] at hordered
  refine h.change hordered.right (fun k hk => by simp [hk]) fun u => ?_
  by_cases hu : u = t
  · simp [hu]
  · have hnot : l ∉ held u := fun hc => by
      cases hfree.symm.trans ((h.owner u l).mpr hc)
    simp [hu, hnot, Ne.symm hu]

theorem Ok.release (ht : s.program t = .release l rest) :
    Ok rank { s.continue t rest with
        owner := update s.owner l none }
      (update held t ((held t).erase l)) := by
  have hordered := h.ordered t
  rw [ht] at hordered
  have hmine := (h.owner t l).mpr hordered.left
  refine h.change hordered.right (fun k hk => by simp [hk]) fun u => ?_
  by_cases hu : u = t
  · simp [hu]
  · have hnot : l ∉ held u := fun hc => by
      cases hmine.symm.trans ((h.owner u l).mpr hc)
      exact hu rfl
    simp [hu, hnot]

theorem Ok.advance (hs : s.advance t = some s') : InOrder rank s' := by
  have hordered := h.ordered t
  unfold System.advance at hs
  generalize hprogram : s.program t = p at hs hordered
  cases p with
  | done | hang => cases hs
  | take l rest =>
    simp only at hs
    split at hs <;> cases hs
    rename_i howner
    exact ⟨_, h.take hprogram howner⟩
  | release l rest =>
    cases hs
    exact ⟨_, h.release hprogram⟩
  | act update rest =>
    cases hs
    exact ⟨_, h.move rfl (hordered s.state) (h.owner_same t)⟩

theorem Ok.next {l : thread × Option (Program lock shared)}
    (hcall : forall p, l.2 = some p -> Ordered rank ∅ p)
    (hs : next s l = some s') : InOrder rank s' := by
  obtain ⟨t, call⟩ := l
  cases call with
  | none => exact h.advance hs
  | some p =>
    have hordered := h.ordered t
    simp only [LockOrder.next] at hs
    split at hs <;> cases hs
    rename_i hprogram
    rw [hprogram] at hordered
    have hnone : held t = ∅ := hordered
    refine ⟨_, h.move rfl ?_ (h.owner_same t)⟩
    rw [hnone]
    exact hcall p rfl

/-! ## No cycle -/

omit [DecidableEq thread] in
theorem Ok.rank_lt {u : thread} (hchain : Relation.TransGen (Waits s) t u)
    {k : lock} {rest' : Program lock shared} (ht : s.program t = .take l rest)
    (hu : s.program u = .take k rest') : rank l < rank k := by
  have hedge {v w : thread} {a b : lock} {p q : Program lock shared}
      (hwaits : Waits s v w) (hv : s.program v = .take a p)
      (hw : s.program w = .take b q) : rank a < rank b := by
    obtain ⟨a', p', hv', howner⟩ := hwaits
    rw [hv] at hv'
    cases hv'
    have hordered := h.ordered w
    rw [hw] at hordered
    exact hordered.left a ((h.owner w a).mp howner)
  induction hchain generalizing k rest' with
  | single hwaits => exact hedge hwaits ht hu
  | tail _ hwaits ih =>
    obtain ⟨m, rest'', hm, _⟩ := id hwaits
    exact Nat.lt_trans (ih hm) (hedge hwaits hm hu)

omit [DecidableEq thread] in
theorem Ok.acyclic (t : thread) : ¬ Relation.TransGen (Waits s) t t := by
  intro hcycle
  obtain ⟨u, ⟨l, rest, ht, _⟩, _⟩ := Relation.TransGen.head'_iff.mp hcycle
  exact Nat.lt_irrefl _ (h.rank_lt hcycle ht ht)

end

def Idle (s : System thread lock shared) : Prop :=
  (forall t, s.program t = Program.done) ∧ forall l, s.owner l = none

def Starts (calls : Program lock shared -> Prop)
    (_ : System thread lock shared)
    (l : thread × Option (Program lock shared)) : Prop :=
  forall p, l.2 = some p -> calls p

theorem acyclic_of_ordered {calls : Program lock shared -> Prop}
    (hcalls : forall p, calls p -> Ordered rank ∅ p)
    (h : Transition.Reachable Idle (Transition.Guarded (Starts calls) next) s)
    (t : thread) : ¬ Relation.TransGen (Waits s) t t := by
  have hok : InOrder rank s := by
    apply h.invariant
    · intro s hs
      refine ⟨fun _ => ∅, ?_, ?_⟩
      · intro t
        rw [hs.left t]
        rfl
      · intro t l
        rw [hs.right l]
        simp
    · intro s l s' hs hstep
      obtain ⟨held, hheld⟩ := hs
      exact hheld.next (fun p hp => hcalls p (hstep.left p hp)) hstep.right
  obtain ⟨held, hheld⟩ := hok
  exact hheld.acyclic t

end Step

end LockOrder
end Horizon
