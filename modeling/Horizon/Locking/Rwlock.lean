import Horizon.Lib.ThreadCount
import Horizon.Lib.Transition

/-!
# Reader-writer locks

This module follows `rwlock.c` thread by thread.  A thread stands at a point
of the call it makes, and one step is one access: taking or releasing the spin
lock, a test of the reader count or of the writer flag, or a change of one of
them.  The steps of different threads interleave in any way.
-/

namespace Horizon
namespace Rwlock

open Function ThreadCount Transition

/-- The two builds of `rwlock.c`, with and without `CONFIG_DEBUG_RWLOCK`. -/
inductive Build where
  | plain
  | debug
  deriving DecidableEq

inductive Mode where
  | read
  | write
  deriving DecidableEq

/-- The calls that acquire: `read_lock` and `write_lock` wait, `read_trylock`
and `write_trylock` give up. -/
inductive Attempt where
  | lock
  | trylock
  deriving DecidableEq

inductive Point where
  | outside
  -- at the `spin_lock` of an acquiring call
  | acquire (mode : Mode) (attempt : Attempt)
  -- the spin lock is held from here on
  | testReaders (attempt : Attempt)
  | testWriter (mode : Mode) (attempt : Attempt)
  | backOff (mode : Mode) (attempt : Attempt)
  | take (mode : Mode)
  | taken (mode : Mode)
  -- the call has returned with the lock
  | inside (mode : Mode)
  -- at the `spin_lock` of a releasing call
  | release (mode : Mode)
  | testHeld
  | drop (mode : Mode)
  | leave
  deriving DecidableEq

structure State (thread : Type) where
  /-- The thread that holds the spin lock. -/
  spin : Option thread
  readers : BitVec 32
  writer : Bool
  point : thread -> Point

/-- What a thread may do: start a call, or take the next step of one. -/
inductive Action where
  | call (mode : Mode) (attempt : Attempt)
  | unlock
  | step
  deriving DecidableEq

section Step

variable {thread : Type} [DecidableEq thread]

def State.move (s : State thread) (t : thread) (p : Point) : State thread :=
  { s with point := update s.point t p }

def State.spinLock (s : State thread) (t : thread) (p : Point) :
    Option (State thread) :=
  match s.spin with
  | none => some { s.move t p with spin := some t }
  | some _ => none

def State.spinUnlock (s : State thread) (t : thread) (p : Point) :
    State thread :=
  { s.move t p with spin := none }

/-- The test with which `read_unlock` guards its decrement.  The debug build
only excludes zero. -/
def held (build : Build) (readers : BitVec 32) : Bool :=
  match build with
  | Build.plain => BitVec.slt 0 readers
  | Build.debug => readers != 0

/-- The test of the reader count by a writer: `write_lock` waits for a positive
count to fall, `write_trylock` asks for zero. -/
def busy (attempt : Attempt) (readers : BitVec 32) : Bool :=
  match attempt with
  | Attempt.lock => BitVec.slt 0 readers
  | Attempt.trylock => readers != 0

def State.advance (build : Build) (s : State thread) (t : thread) :
    Option (State thread) :=
  match s.point t with
  | Point.outside => none
  | Point.acquire Mode.read attempt =>
      s.spinLock t (Point.testWriter Mode.read attempt)
  | Point.acquire Mode.write attempt =>
      s.spinLock t (Point.testReaders attempt)
  | Point.testReaders attempt =>
      if busy attempt s.readers then
        some (s.move t (Point.backOff Mode.write attempt))
      else some (s.move t (Point.testWriter Mode.write attempt))
  | Point.testWriter mode attempt =>
      if s.writer then some (s.move t (Point.backOff mode attempt))
      else some (s.move t (Point.take mode))
  | Point.backOff mode Attempt.lock =>
      some (s.spinUnlock t (Point.acquire mode Attempt.lock))
  | Point.backOff _ Attempt.trylock => some (s.spinUnlock t Point.outside)
  | Point.take Mode.read =>
      some { s.move t (Point.taken Mode.read) with readers := s.readers + 1 }
  | Point.take Mode.write =>
      some { s.move t (Point.taken Mode.write) with writer := true }
  | Point.taken mode => some (s.spinUnlock t (Point.inside mode))
  | Point.inside _ => none
  | Point.release Mode.read => s.spinLock t Point.testHeld
  | Point.release Mode.write => s.spinLock t (Point.drop Mode.write)
  | Point.testHeld =>
      if held build s.readers then some (s.move t (Point.drop Mode.read))
      else some (s.move t Point.leave)
  | Point.drop Mode.read =>
      some { s.move t Point.leave with readers := s.readers - 1 }
  | Point.drop Mode.write =>
      some { s.move t Point.leave with writer := false }
  | Point.leave => some (s.spinUnlock t Point.outside)

def next (build : Build) (s : State thread) :
    thread × Action -> Option (State thread)
  | (t, Action.call mode attempt) =>
      match s.point t with
      | Point.outside => some (s.move t (Point.acquire mode attempt))
      | _ => none
  | (t, Action.unlock) =>
      match s.point t with
      | Point.inside mode => some (s.move t (Point.release mode))
      | _ => none
  | (t, Action.step) => s.advance build t

end Step

def rwlockInit (thread : Type) : State thread where
  spin := none
  readers := 0
  writer := false
  point := fun _ => Point.outside

/-! ## Sections -/

/-- A thread is inside a section from the change that enters it to the one
that leaves it. -/
def Point.Inside (mode : Mode) : Point -> Prop
  | Point.taken m => m = mode
  | Point.inside m => m = mode
  | Point.release m => m = mode
  | Point.testHeld => Mode.read = mode
  | Point.drop m => m = mode
  | _ => False

instance (mode : Mode) : DecidablePred (Point.Inside mode) := by
  intro p
  unfold Point.Inside
  split <;> infer_instance

def Point.Spinning : Point -> Prop
  | Point.outside => False
  | Point.acquire _ _ => False
  | Point.inside _ => False
  | Point.release _ => False
  | _ => True

instance : DecidablePred Point.Spinning := by
  intro p
  unfold Point.Spinning
  split <;> infer_instance

/-- What a thread has seen under the spin lock of the writer flag and of the
number of threads that read. -/
def Point.Sees (writer : Bool) (reading : Nat) : Point -> Prop
  | Point.testWriter Mode.write _ => reading = 0
  | Point.take Mode.read => writer = false
  | Point.take Mode.write => writer = false ∧ reading = 0
  | _ => True

theorem sees_of_not_spinning {p : Point} (h : ¬ p.Spinning) (writer : Bool)
    (reading : Nat) : p.Sees writer reading := by
  cases p with
  | testWriter mode attempt => exact absurd trivial h
  | take mode => exact absurd trivial h
  | _ => trivial

section Invariant

variable {thread : Type} [Fintype thread]

def State.sections (s : State thread) (mode : Mode) : Nat :=
  count (Point.Inside mode) s.point

structure Ok (s : State thread) : Prop where
  spin : forall t, (s.point t).Spinning <-> s.spin = some t
  readers : s.readers = BitVec.ofNat 32 (s.sections Mode.read)
  small : s.sections Mode.read < 2 ^ 31
  writer : s.sections Mode.write = s.writer.toNat
  apart : s.writer = true -> s.sections Mode.read = 0
  sees : forall t, (s.point t).Sees s.writer (s.sections Mode.read)

variable {s s' : State thread} {t : thread} {n : Nat} {p q : Point}
    {build : Build}

/-- The threads other than the one with the spin lock have seen nothing that
could change. -/
theorem Ok.sees_other (h : Ok s) {u : thread} (ht : (s.point t).Spinning)
    (hne : u ≠ t) (writer : Bool) (reading : Nat) :
    (s.point u).Sees writer reading := by
  apply sees_of_not_spinning
  intro hu
  have hboth := ((h.spin t).mp ht).symm.trans ((h.spin u).mp hu)
  exact hne (Option.some.inj hboth).symm

theorem toInt_ofNat_of_lt (h : n < 2 ^ 31) : (BitVec.ofNat 32 n).toInt = n := by
  rw [BitVec.toInt_ofNat']
  apply Int.bmod_eq_of_le <;> omega

theorem slt_zero_ofNat (h : n < 2 ^ 31) :
    BitVec.slt 0 (BitVec.ofNat 32 n) = decide (0 < n) := by
  rw [BitVec.slt_eq_decide, toInt_ofNat_of_lt h]
  simp

theorem ofNat_bne_zero (h : n < 2 ^ 31) :
    (BitVec.ofNat 32 n != 0) = decide (0 < n) := by
  have hn : (BitVec.ofNat 32 n = 0) <-> n = 0 := by
    rw [<- BitVec.toNat_inj, BitVec.toNat_ofNat, Nat.mod_eq_of_lt (by omega)]
    rfl
  by_cases hz : n = 0
  · rw [hz]
    rfl
  · rw [decide_eq_true (Nat.pos_of_ne_zero hz), bne_iff_ne]
    exact fun hc => hz (hn.mp hc)

theorem Ok.busy_eq (h : Ok s) (attempt : Attempt) :
    busy attempt s.readers = decide (0 < s.sections .read) := by
  rw [h.readers]
  cases attempt with
  | lock => exact slt_zero_ofNat h.small
  | trylock => exact ofNat_bne_zero h.small

theorem Ok.held_eq (h : Ok s) (build : Build) :
    held build s.readers = decide (0 < s.sections .read) := by
  rw [h.readers]
  cases build with
  | plain => exact slt_zero_ofNat h.small
  | debug => exact ofNat_bne_zero h.small

variable [DecidableEq thread]

section

variable (h : Ok s) (hpoint : s.point t = q)
include h hpoint

/-- A thread goes on.  What the others have seen stays as it is, or the thread
holds the spin lock and they have seen nothing. -/
theorem Ok.go {spin : Option thread} {readers : BitVec 32} {writer : Bool}
    {reading writing : Nat}
    (hspin : forall u, (update s.point t p u).Spinning <-> spin = some u)
    (hread : count (Point.Inside .read) (update s.point t p) = reading)
    (hwrite : count (Point.Inside .write) (update s.point t p) = writing)
    (hreaders : readers = BitVec.ofNat 32 reading) (hsmall : reading < 2 ^ 31)
    (hwriter : writing = writer.toNat) (hapart : writer = true -> reading = 0)
    (hsees : p.Sees writer reading)
    (hothers : q.Spinning ∨ s.writer = writer ∧ s.sections .read = reading) :
    Ok ⟨spin, readers, writer, update s.point t p⟩ := by
  subst hread hwrite
  refine ⟨hspin, hreaders, hsmall, hwriter, hapart, ?_⟩
  intro u
  show (update s.point t p u).Sees writer (count _ (update s.point t p))
  by_cases hu : u = t
  · rw [hu, update_self]
    exact hsees
  · rw [update_of_ne hu]
    rcases hothers with hq | ⟨hsame, hsections⟩
    · exact h.sees_other (hpoint ▸ hq) hu _ _
    · rw [<- hsame, <- hsections]
      exact h.sees u

theorem Ok.quiet {spin : Option thread}
    (hinside : forall mode, q.Inside mode <-> p.Inside mode)
    (hspin : forall u, (update s.point t p u).Spinning <->
      spin = some u) (hsees : p.Sees s.writer (s.sections .read)) :
    Ok { s.move t p with spin := spin } := by
  have hsections (mode : Mode) :
      count (Point.Inside mode) (update s.point t p) = s.sections mode :=
    count_update_same _ (by rw [hpoint]; exact hinside mode)
  exact h.go hpoint hspin (hsections .read) (hsections .write) h.readers
    h.small h.writer h.apart hsees (.inr ⟨rfl, rfl⟩)

theorem Ok.spin_stays (hspin : q.Spinning <-> p.Spinning) (u : thread) :
    (update s.point t p u).Spinning <-> s.spin = some u := by
  by_cases hu : u = t
  · rw [hu, update_self, <- hspin, <- hpoint]
    exact h.spin t
  · rw [update_of_ne hu]
    exact h.spin u

theorem Ok.move (hinside : forall mode, q.Inside mode <-> p.Inside mode)
    (hspin : q.Spinning <-> p.Spinning)
    (hsees : p.Sees s.writer (s.sections .read)) : Ok (s.move t p) := by
  exact h.quiet hpoint hinside (h.spin_stays hpoint hspin) hsees

theorem Ok.spinLock (hs : s.spinLock t p = some s')
    (hinside : forall mode, q.Inside mode <-> p.Inside mode)
    (hspin : p.Spinning) (hsees : p.Sees s.writer (s.sections .read)) :
    Ok s' := by
  unfold State.spinLock at hs
  cases hfree : s.spin with
  | some owner =>
    rw [hfree] at hs
    cases hs
  | none =>
    rw [hfree] at hs
    obtain rfl := Option.some.inj hs
    apply h.quiet hpoint hinside _ hsees
    intro u
    by_cases hu : u = t
    · rw [hu, update_self]
      exact ⟨fun _ => rfl, fun _ => hspin⟩
    · rw [update_of_ne hu, h.spin u, hfree]
      constructor
      · intro hnone
        cases hnone
      · intro hsome
        exact absurd (Option.some.inj hsome).symm hu

theorem Ok.spinUnlock (hq : q.Spinning)
    (hinside : forall mode, q.Inside mode <-> p.Inside mode)
    (hspin : ¬ p.Spinning) : Ok (s.spinUnlock t p) := by
  have ht : (s.point t).Spinning := by
    rw [hpoint]
    exact hq
  apply h.quiet hpoint hinside _ (sees_of_not_spinning hspin _ _)
  intro u
  by_cases hu : u = t
  · rw [hu, update_self]
    exact ⟨fun hp => absurd hp hspin, fun hnone => by cases hnone⟩
  · rw [update_of_ne hu, h.spin u, (h.spin t).mp ht]
    constructor
    · intro hsome
      exact absurd (Option.some.inj hsome).symm hu
    · intro hnone
      cases hnone

end

theorem Ok.enterRead (h : Ok s) (ht : s.point t = .take .read)
    (hroom : s.sections .read + 1 < 2 ^ 31) :
    Ok { s.move t (.taken .read) with readers := s.readers + 1 } := by
  have hfree : s.writer = false := by
    have hseen := h.sees t
    rw [ht] at hseen
    exact hseen
  refine h.go ht (h.spin_stays ht Iff.rfl)
    (count_update_enter _ (by rw [ht]; exact id) rfl)
    (count_update_same _ (by rw [ht]; decide)) ?_ hroom h.writer ?_ trivial
    (.inl trivial)
  · rw [h.readers]
    exact (BitVec.ofNat_add _ _).symm
  · intro hset
    cases hfree.symm.trans hset

theorem Ok.enterWrite (h : Ok s) (ht : s.point t = .take .write) :
    Ok { s.move t (.taken .write) with writer := true } := by
  obtain ⟨hfree, hnone⟩ : s.writer = false ∧ s.sections .read = 0 := by
    have hseen := h.sees t
    rw [ht] at hseen
    exact hseen
  refine h.go ht (h.spin_stays ht Iff.rfl)
    (count_update_same _ (by rw [ht]; decide))
    (count_update_enter _ (by rw [ht]; exact id) rfl) h.readers h.small ?_
    (fun _ => hnone) trivial (.inl trivial)
  show s.sections .write + 1 = 1
  rw [h.writer, hfree]
  rfl

theorem Ok.leaveRead (h : Ok s) (ht : s.point t = .drop .read) :
    Ok { s.move t .leave with readers := s.readers - 1 } := by
  have hread : count (Point.Inside .read)
      (update s.point t .leave) + 1 = s.sections .read :=
    count_update_leave _ (by rw [ht]; rfl) id
  have hsmall := h.small
  refine h.go ht (h.spin_stays ht Iff.rfl) rfl
    (count_update_same _ (by rw [ht]; decide)) ?_ (by omega) h.writer ?_ trivial
    (.inl trivial)
  · rw [h.readers, <- hread, BitVec.ofNat_add]
    exact BitVec.add_sub_cancel _ _
  · intro hset
    have hzero := h.apart hset
    omega

theorem Ok.leaveWrite (h : Ok s) (ht : s.point t = .drop .write) :
    Ok { s.move t .leave with writer := false } := by
  have hwrite : count (Point.Inside .write)
      (update s.point t .leave) + 1 = s.sections .write :=
    count_update_leave _ (by rw [ht]; rfl) id
  have hone : s.sections .write <= 1 := by
    rw [h.writer]
    exact Bool.toNat_le s.writer
  refine h.go ht (h.spin_stays ht Iff.rfl)
    (count_update_same _ (by rw [ht]; decide)) rfl h.readers h.small ?_ ?_
    trivial (.inl trivial)
  · show _ = 0
    omega
  · intro hset
    cases hset

/-! ## Runs -/

/-- The reader count is an `int`: a reader enters only while it stays
positive. -/
def StepOk (s : State thread) (l : thread × Action) : Prop :=
  l.2 = Action.step -> s.point l.1 = Point.take Mode.read ->
    s.sections Mode.read + 1 < 2 ^ 31

theorem Ok.advance (h : Ok s) (hok : StepOk s (t, .step))
    (hs : s.advance build t = some s') : Ok s' := by
  have hseen := h.sees t
  unfold State.advance at hs
  generalize hpoint : s.point t = q at hs hseen
  cases q with
  | outside | inside => cases hs
  | acquire mode attempt =>
    cases mode <;> exact h.spinLock hpoint hs (fun _ => Iff.rfl) trivial trivial
  | testReaders attempt =>
    simp only [h.busy_eq attempt, decide_eq_true_eq] at hs
    split at hs
    case isTrue =>
      cases hs
      exact h.move hpoint (fun _ => Iff.rfl) Iff.rfl trivial
    case isFalse hnone =>
      cases hs
      exact h.move hpoint (fun _ => Iff.rfl) Iff.rfl
        (Nat.eq_zero_of_not_pos hnone)
  | testWriter mode attempt =>
    simp only at hs
    split at hs
    case isTrue =>
      cases hs
      exact h.move hpoint (fun _ => Iff.rfl) Iff.rfl trivial
    case isFalse hfree =>
      cases hs
      have hwriter : s.writer = false := Bool.eq_false_of_not_eq_true hfree
      apply h.move (p := .take mode) hpoint (fun _ => Iff.rfl) Iff.rfl
      cases mode with
      | read => exact hwriter
      | write => exact ⟨hwriter, hseen⟩
  | backOff mode attempt =>
    cases attempt
    all_goals
      cases hs
      exact h.spinUnlock hpoint trivial (fun _ => Iff.rfl) id
  | take mode =>
    cases mode with
    | read =>
      cases hs
      exact h.enterRead hpoint (hok rfl hpoint)
    | write =>
      cases hs
      exact h.enterWrite hpoint
  | taken mode =>
    cases hs
    exact h.spinUnlock hpoint trivial (fun _ => Iff.rfl) id
  | release mode =>
    cases mode <;> exact h.spinLock hpoint hs (fun _ => Iff.rfl) trivial trivial
  | testHeld =>
    -- the thread itself is counted, so the test passes
    have hpos : 0 < s.sections .read := by
      apply Nat.pos_of_ne_zero
      intro hzero
      have hnone := (count_eq_zero_iff _).mp hzero t
      rw [hpoint] at hnone
      exact hnone rfl
    simp only [h.held_eq build, decide_eq_true hpos, if_true] at hs
    cases hs
    exact h.move hpoint (fun _ => Iff.rfl) Iff.rfl trivial
  | drop mode =>
    cases mode with
    | read =>
      cases hs
      exact h.leaveRead hpoint
    | write =>
      cases hs
      exact h.leaveWrite hpoint
  | leave =>
    cases hs
    exact h.spinUnlock hpoint trivial (fun _ => Iff.rfl) id

theorem Ok.next {l : thread × Action} (h : Ok s) (hok : StepOk s l)
    (hs : next build s l = some s') : Ok s' := by
  obtain ⟨t, action⟩ := l
  cases action with
  | step => exact h.advance hok hs
  | _ =>
    simp only [Rwlock.next] at hs
    split at hs <;> cases hs
    rename_i hpoint
    exact h.move hpoint (fun _ => Iff.rfl) Iff.rfl trivial

end Invariant

section Overflow

variable {thread : Type} [DecidableEq thread]

def Reached (build : Build) (s : State thread) : Prop :=
  Reachable (fun s => s = rwlockInit thread)
    (fun s l s' => next build s l = some s') s

def State.standing (s : State thread) (t : thread) (spin : Option thread)
    (readers : BitVec 32) (writer : Bool) (p : Point) : State thread where
  spin := spin
  readers := readers
  writer := writer
  point := update s.point t p

theorem standing_point (s : State thread) (t : thread) (spin : Option thread)
    (readers : BitVec 32) (writer : Bool) (p : Point) :
    (s.standing t spin readers writer p).point t = p := by
  simp [State.standing]

theorem standing_move (s : State thread) (t : thread) (spin : Option thread)
    (readers : BitVec 32) (writer : Bool) (p q : Point) :
    (s.standing t spin readers writer p).move t q =
      s.standing t spin readers writer q := by
  simp [State.standing, State.move]

theorem Reached.step {build : Build} {s s' : State thread} {t : thread}
    (h : Reached build s) (hs : s.advance build t = some s') :
    Reached build s' :=
  Reachable.step (l := (t, .step)) h hs

def entered (mode : Mode) (readers : BitVec 32) (writer : Bool) :
    BitVec 32 × Bool :=
  match mode with
  | Mode.read => (readers + 1, writer)
  | Mode.write => (readers, true)

theorem Reached.lock {build : Build} {s : State thread} (h : Reached build s)
    {t : thread} (mode : Mode) (ht : s.point t = .outside)
    (hspin : s.spin = none) (hwriter : s.writer = false)
    (hfree : mode = .write -> busy .lock s.readers = false) :
    Reached build (s.standing t none (entered mode s.readers false).1
      (entered mode s.readers false).2 (.inside mode)) := by
  have hcalled : Reached build (s.standing t none s.readers false
      (.acquire mode .lock)) := by
    apply Reachable.step (l := (t, .call mode .lock)) h
    simp only [next, ht, State.move, State.standing, hspin, hwriter]
  have htested : Reached build (s.standing t (some t) s.readers false
      (.testWriter mode .lock)) := by
    cases mode with
    | read =>
      apply hcalled.step (t := t)
      simp only [State.advance, standing_point, State.spinLock, standing_move]
      rfl
    | write =>
      have hlocked : Reached build (s.standing t (some t) s.readers false
          (.testReaders .lock)) := by
        apply hcalled.step (t := t)
        simp only [State.advance, standing_point, State.spinLock, standing_move]
        rfl
      have hidle : busy .lock (s.standing t (some t) s.readers false
          (.testReaders .lock)).readers = false := hfree rfl
      apply hlocked.step (t := t)
      simp only [State.advance, standing_point, hidle, standing_move]
      rfl
  have htake : Reached build (s.standing t (some t) s.readers false
      (.take mode)) := by
    apply htested.step (t := t)
    simp only [State.advance, standing_point, standing_move]
    rfl
  have htaken : Reached build (s.standing t (some t)
      (entered mode s.readers false).1 (entered mode s.readers false).2
      (.taken mode)) := by
    apply htake.step (t := t)
    cases mode
    all_goals
      simp only [State.advance, standing_point, standing_move]
      rfl
  apply htaken.step (t := t)
  simp only [State.advance, standing_point, State.spinUnlock, standing_move]
  rfl

end Overflow

def reading (n k : Nat) : State (Fin n) where
  spin := none
  readers := BitVec.ofNat 32 k
  writer := false
  point := fun t => if t.val < k then Point.inside Mode.read else Point.outside

end Rwlock
end Horizon
