import Horizon.Lib.RingBuffer

/-!
# Terminals

The two buffers of a terminal in `drivers/char/tty/tty.c`.  The terminal is not
null, and the function that writes a character to the device is described by the
characters it was given.
-/

namespace Horizon
namespace Tty

open Function RingBuffer

def ttyBufferSize : Nat := 1024

structure Ring where
  buffer : Nat -> UInt8
  head : Nat
  tail : Nat

structure State where
  /-- The flag `TTY_FLAG_ECHO`. -/
  echo : Bool
  input : Ring
  output : Ring
  /-- Whether there is a function `write_char`, and what it was given. -/
  writeChar : Bool
  written : List UInt8

def ttyOpen (s : State) (echo : Bool) : State :=
  { s with
    echo := echo
    input := { s.input with head := 0, tail := 0 }
    output := { s.output with head := 0, tail := 0 } }

/-- What `tty_input` and `tty_output` do to their buffer. -/
def Ring.add (r : Ring) (c : UInt8) : Option Ring :=
  let nextHead := (r.head + 1) % ttyBufferSize
  if nextHead = r.tail then none
  else some { r with buffer := update r.buffer r.head c, head := nextHead }

def ttyOutput (s : State) (c : UInt8) : Int × State :=
  match s.output.add c with
  | none => (-1, s)
  | some output => (0, { s with
      output := output
      written := if s.writeChar then s.written ++ [c] else s.written })

def ttyInput (s : State) (c : UInt8) : Int × State :=
  match s.input.add c with
  | none => (-1, s)
  | some input =>
      let s := { s with input := input }
      (0, if s.echo then (ttyOutput s c).2 else s)

/-- The loop of `tty_read`, given how many characters are still wanted. -/
def Ring.read : Nat -> Ring -> List UInt8 × Ring
  | 0, r => ([], r)
  | n + 1, r =>
      if r.head = r.tail then ([], r)
      else
        let c := r.buffer r.tail
        let tail := r.tail + 1
        let tail := if ttyBufferSize <= tail then 0 else tail
        let (cs, r) := Ring.read n { r with tail := tail }
        (c :: cs, r)

def ttyRead (s : State) (count : Nat) : List UInt8 × State :=
  if s.input.head = s.input.tail then ([], s)
  else
    let (cs, input) := s.input.read count
    (cs, { s with input := input })

/-! ## The unread characters -/

structure Holds (r : Ring) (q : List UInt8) : Prop where
  tail : r.tail < ttyBufferSize
  room : q.length < ttyBufferSize
  head : r.head = place ttyBufferSize r.tail q.length
  window : window r.buffer ttyBufferSize r.tail q.length = q

variable {r : Ring} {q : List UInt8} {s : State}

theorem Holds.empty_iff (h : Holds r q) : r.head = r.tail <-> q = [] := by
  have htail := h.tail
  have hroom := h.room
  rw [h.head, <- List.length_eq_zero_iff]
  unfold place ttyBufferSize at *
  omega

theorem Holds.full_iff (h : Holds r q) :
    (r.head + 1) % ttyBufferSize = r.tail <-> q.length = ttyBufferSize - 1 := by
  have htail := h.tail
  have hroom := h.room
  rw [h.head]
  unfold place ttyBufferSize at *
  omega

theorem Holds.add (h : Holds r q) (c : UInt8)
    (hroom : q.length < ttyBufferSize - 1) :
    exists r', r.add c = some r' ∧ Holds r' (q ++ [c]) := by
  have hfull : (r.head + 1) % ttyBufferSize ≠ r.tail :=
    fun heq => Nat.ne_of_lt hroom (h.full_iff.mp heq)
  have hhead : place ttyBufferSize r.head 0 = r.head := by
    rw [h.head]
    exact place_place ..
  have hstores : Stores ttyBufferSize (place ttyBufferSize r.tail q.length) 1
      (fun _ => c) r.buffer (update r.buffer r.head c) := by
    rw [<- h.head]
    refine ⟨fun i hi => ?_, fun k _ hk => ?_⟩
    · rw [Nat.lt_one_iff.mp hi, hhead, update_self]
    · exact update_of_ne (hhead ▸ hk 0 Nat.one_pos) ..
  have hcells := hstores.window_add (Nat.add_lt_of_lt_sub hroom).le
  rw [h.window] at hcells
  refine ⟨_, if_neg hfull, h.tail, ?_, ?_, ?_⟩ <;> rw [List.length_append]
  · exact Nat.add_lt_of_lt_sub hroom
  · rw [h.head]
    exact place_place ..
  · exact hcells

theorem Holds.read (h : Holds r q) (n : Nat) :
    exists r', r.read n = (q.take n, r') ∧ Holds r' (q.drop n) := by
  induction n generalizing r q with
  | zero => exact ⟨r, rfl, h⟩
  | succ n ih =>
    unfold Ring.read
    cases q with
    | nil => exact ⟨r, if_pos (h.empty_iff.mpr rfl), h⟩
    | cons c q =>
      have hcells := h.window
      have hroom := h.room
      have htail := h.tail
      rw [List.length_cons, Nat.add_comm, window_add] at hcells
      have hnext : (if ttyBufferSize <= r.tail + 1 then 0 else r.tail + 1) =
          place ttyBufferSize r.tail 1 := by
        unfold place ttyBufferSize at *
        split <;> omega
      obtain ⟨hc, hq⟩ : r.buffer (place ttyBufferSize r.tail 0) = c ∧ _ :=
        List.cons.inj hcells
      rw [place_of_lt (i := 0) htail] at hc
      have hrest : Holds { r with tail := place ttyBufferSize r.tail 1 } q := by
        refine ⟨place_lt (by decide) .., Nat.lt_of_succ_lt hroom, ?_, hq⟩
        rw [h.head, place_place, Nat.add_comm]
        rfl
      obtain ⟨r', hread, hr'⟩ := ih hrest
      have hne : r.head ≠ r.tail := fun heq => by cases h.empty_iff.mp heq
      refine ⟨r', ?_, hr'⟩
      simp only [if_neg hne, hnext, hread]
      rw [<- hc]
      rfl

/-! ## Runs -/

inductive Call where
  | input (c : UInt8)
  | read (count : Nat)

/-- A terminal with the characters that were accepted and those read. -/
structure Session where
  state : State
  accepted : List UInt8
  returned : List UInt8

def Session.call (s : Session) : Call -> Session
  | Call.input c =>
      let (ret, state) := ttyInput s.state c
      { s with
        state := state
        accepted := if ret = 0 then s.accepted ++ [c] else s.accepted }
  | Call.read count =>
      let (cs, state) := ttyRead s.state count
      { s with state := state, returned := s.returned ++ cs }

theorem ttyOutput_input (s : State) (c : UInt8) :
    (ttyOutput s c).2.input = s.input := by
  unfold ttyOutput
  split <;> rfl

theorem ttyInput_spec (h : Holds s.input q) (c : UInt8) :
    if q.length < ttyBufferSize - 1 then
      (ttyInput s c).1 = 0 ∧ Holds (ttyInput s c).2.input (q ++ [c])
    else ttyInput s c = (-1, s) := by
  unfold ttyInput
  split
  case isTrue hroom =>
    obtain ⟨r, hadd, hr⟩ := h.add c hroom
    rw [hadd]
    refine ⟨rfl, ?_⟩
    show Holds (if s.echo then _ else _ : State).input _
    split
    · rw [ttyOutput_input]
      exact hr
    · exact hr
  case isFalse hroom =>
    have hfull := h.full_iff.mpr (Nat.le_antisymm
      (Nat.le_sub_one_of_lt h.room) (Nat.le_of_not_lt hroom))
    have hadd : s.input.add c = none := if_pos hfull
    rw [hadd]

theorem ttyRead_spec (h : Holds s.input q) (count : Nat) :
    (ttyRead s count).1 = q.take count ∧
      Holds (ttyRead s count).2.input (q.drop count) := by
  unfold ttyRead
  split
  case isTrue hempty =>
    obtain rfl := h.empty_iff.mp hempty
    simpa using h
  case isFalse =>
    obtain ⟨r, hread, hr⟩ := h.read count
    rw [hread]
    exact ⟨rfl, hr⟩

def Unread (s : Session) (unread : List UInt8) : Prop :=
  s.accepted = s.returned ++ unread ∧ Holds s.state.input unread

theorem Unread.call {s : Session} (h : Unread s q) (call : Call) :
    exists q', Unread (s.call call) q' := by
  obtain ⟨hlog, hq⟩ := h
  cases call with
  | input c =>
    have hinput := ttyInput_spec hq c
    split at hinput
    · refine ⟨q ++ [c], ?_, hinput.right⟩
      simp only [Session.call, if_pos hinput.left, hlog, List.append_assoc]
    · simp only [Session.call, hinput]
      exact ⟨q, hlog, hq⟩
  | read count =>
    obtain ⟨hread, hrest⟩ := ttyRead_spec hq count
    refine ⟨q.drop count, ?_, hrest⟩
    simp only [Session.call, hread, List.append_assoc, List.take_append_drop]
    exact hlog

/-- After any calls on a terminal that was opened with or without echo, what was
accepted is what was read followed by what is unread.  A character is accepted
while fewer than 1023 are unread, and a read returns the oldest ones. -/
theorem tty_input_fifo (state : State) (echo : Bool) (calls : List Call) :
    exists unread,
      let s := calls.foldl Session.call ⟨ttyOpen state echo, [], []⟩
      s.accepted = s.returned ++ unread ∧
        (forall c, (ttyInput s.state c).1 = 0 <->
          unread.length < ttyBufferSize - 1) ∧
        forall count, (ttyRead s.state count).1 = unread.take count := by
  have hopen : Unread ⟨ttyOpen state echo, [], []⟩ [] :=
    ⟨rfl, Nat.succ_pos 1023, Nat.succ_pos 1023, rfl, rfl⟩
  have hrun : exists q,
      Unread (calls.foldl Session.call ⟨ttyOpen state echo, [], []⟩) q := by
    apply List.foldlRecOn (motive := fun s => exists q, Unread s q)
    · exact ⟨[], hopen⟩
    · rintro s ⟨q, hq⟩ call _
      exact hq.call call
  obtain ⟨q, hlog, hq⟩ := hrun
  refine ⟨q, hlog, ?_, fun count => (ttyRead_spec hq count).left⟩
  intro c
  have hinput := ttyInput_spec hq c
  split at hinput
  case isTrue hroom => exact ⟨fun _ => hroom, fun _ => hinput.left⟩
  case isFalse hfull =>
    rw [hinput]
    exact ⟨fun hret => (by cases hret), fun hroom => absurd hroom hfull⟩

end Tty
end Horizon
