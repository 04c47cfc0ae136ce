import Horizon.Mm.Coherency.SingleWriter

/-!
# Reads and writes under MSI and MOESI

Under these protocols a read looks at all copies of the line, so that a single
writer is kept by reads and writes without a condition, and what the reading or
writing CPU gets can be read off by snooping.
-/

namespace Horizon
namespace Coherency

open Function Sweep Transition

/-- Under MSI no CPU has a line exclusively. -/
def LineOk (protocol : Protocol) (line : Line) : Prop :=
  SingleWriter line ∧
    (protocol = Protocol.msi -> forall i, line i ≠ LineState.exclusive)

section Lines

variable {line : Line} {cpu : Cpu}

theorem afterRead_msi (h : line cpu = .invalid) :
    afterRead .msi line cpu = update
      (fun i => if line i = .modified then .shared else line i)
      cpu .shared := by
  have hcells : (collect visitMsi line).2 = fun i =>
      if line i = .modified then .shared else line i := by
    funext i
    apply collect_cell (f := fun state =>
      if state = .modified then .shared else state)
    intro _ _ state
    cases state <;> rfl
  unfold afterRead
  simp only [if_pos h, hcells]

theorem afterRead_moesi (h : line cpu = .invalid) :
    afterRead .moesi line cpu =
      if exists i, line i ≠ .invalid then
        update (fun i => released (line i)) cpu .shared
      else update line cpu .exclusive := by
  unfold afterRead
  simp only [if_pos h]
  apply collect_released
    (fun seen => seen.modified || seen.exclusive || seen.shared)
    (fun state => state ≠ .invalid)
  · intro _ _ state
    cases state <;> rfl
  · rintro i ⟨modified, exclusive, shared⟩ state
    cases state <;> cases modified <;> cases exclusive <;> cases shared <;> rfl
  · rfl
  · intro state hne
    rw [not_not.mp hne]
    rfl

theorem lineOk_read_msi (h : LineOk .msi line) :
    LineOk .msi (afterRead .msi line cpu) ∧
      afterRead .msi line cpu cpu ≠ .invalid := by
  by_cases hcpu : line cpu = .invalid
  · have hstate : forall i, afterRead .msi line cpu i =
        .shared ∨ (afterRead .msi line cpu i = line i ∧
          line i ≠ .modified) := by
      intro i
      rw [afterRead_msi hcpu]
      by_cases hi : i = cpu
      · rw [hi, update_self]
        exact Or.inl rfl
      · rw [update_of_ne hi]
        split
        case isTrue hmodified => exact Or.inl rfl
        case isFalse hmodified => exact Or.inr ⟨rfl, hmodified⟩
    have hexclusive : forall i, afterRead .msi line cpu i ≠
        .exclusive := by
      intro i heq
      rcases hstate i with hshared | ⟨hsame, _⟩
      · rw [hshared] at heq
        cases heq
      · rw [hsame] at heq
        exact h.right rfl i heq
    refine ⟨⟨?_, fun _ => hexclusive⟩, ?_⟩
    · apply singleWriter_of_not_owned
      intro i howned
      cases howned with
      | inl hmodified =>
        rcases hstate i with hshared | ⟨hsame, hne⟩
        · rw [hshared] at hmodified
          cases hmodified
        · rw [hsame] at hmodified
          exact hne hmodified
      | inr hex => exact hexclusive i hex
    · rw [afterRead_msi hcpu, update_self]
      decide
  · have hsame : afterRead .msi line cpu = line := if_neg hcpu
    rw [hsame]
    exact ⟨h, hcpu⟩

theorem lineOk_read_moesi (h : LineOk .moesi line) :
    LineOk .moesi (afterRead .moesi line cpu) ∧
      afterRead .moesi line cpu cpu ≠ .invalid := by
  by_cases hcpu : line cpu = .invalid
  · rw [afterRead_moesi hcpu]
    refine ⟨⟨?_, fun hmsi => by cases hmsi⟩, ?_⟩
    · split
      case isTrue hany => exact singleWriter_released line cpu
      case isFalse hany =>
        rw [singleWriter_update (Or.inr rfl)]
        intro j _
        by_contra hne
        exact hany ⟨j, hne⟩
    · split
      · rw [update_self]
        decide
      · rw [update_self]
        decide
  · have hsame : afterRead .moesi line cpu = line := if_neg hcpu
    rw [hsame]
    exact ⟨h, hcpu⟩

theorem lineOk_write {protocol : Protocol} (h : protocol ≠ .none) (line : Line)
    (cpu : Cpu) : LineOk protocol (afterWrite protocol line cpu) := by
  refine ⟨singleWriter_write line cpu h, ?_⟩
  intro _ i
  rw [afterWrite_apply h]
  split
  · decide
  · decide

end Lines

/-!
## Runs
-/

inductive Access where
  | read (address : BitVec 64) (cpu : Int)
  | write (address : BitVec 64) (cpu : Int)

def access (s : State) : Access -> State
  | Access.read address cpu => (cacheCoherencyRead s address cpu).2
  | Access.write address cpu => (cacheCoherencyWrite s address cpu).2

def Snooping (protocol : Protocol) : Prop :=
  protocol = Protocol.msi ∨ protocol = Protocol.moesi

theorem Snooping.ne_none {protocol : Protocol} (h : Snooping protocol) :
    protocol ≠ .none := by
  rcases h with heq | heq
  · rw [heq]
    decide
  · rw [heq]
    decide

theorem lineOk_read {protocol : Protocol} {line : Line} (h : Snooping protocol)
    (hline : LineOk protocol line) (cpu : Cpu) :
    LineOk protocol (afterRead protocol line cpu) ∧
      afterRead protocol line cpu cpu ≠ .invalid := by
  rcases h with heq | heq
  · rw [heq] at hline ⊢
    exact lineOk_read_msi hline
  · rw [heq] at hline ⊢
    exact lineOk_read_moesi hline

theorem lineOk_blankLine (protocol : Protocol) : LineOk protocol blankLine :=
  ⟨singleWriter_blankLine, fun _ _ heq => by cases heq⟩

structure Ok (s : State) : Prop where
  protocol : Snooping s.protocol
  lines : AllLines (LineOk s.protocol) s

section Steps

variable {s s' : State} {address : BitVec 64} {line : Line}

theorem Ok.sets (h : Ok s) (hsets : Sets s address line s')
    (hline : LineOk s.protocol line) : Ok s' := by
  constructor
  · rw [hsets.protocol]
    exact h.protocol
  · rw [hsets.protocol]
    exact (hsets.allLines_iff h.lines).mpr hline

theorem Ok.lineAt (h : Ok s) (address : BitVec 64) :
    LineOk s.protocol (lineAt s address) :=
  h.lines.lineAt (lineOk_blankLine _) address

theorem Ok.access (h : Ok s) (a : Access) : Ok (access s a) := by
  cases a with
  | read address cpu =>
    show Ok (cacheCoherencyRead s address cpu).2
    cases hcpu : checkCpu cpu with
    | none =>
      rw [refused_read hcpu]
      exact h
    | some c =>
      exact h.sets (read_sets hcpu)
        (lineOk_read h.protocol (h.lineAt _) c).left
  | write address cpu =>
    show Ok (cacheCoherencyWrite s address cpu).2
    cases hcpu : checkCpu cpu with
    | none =>
      rw [refused_write hcpu]
      exact h
    | some c =>
      exact h.sets (write_sets hcpu)
        (lineOk_write h.protocol.ne_none _ c)

theorem checkCpu_cast (cpu : Cpu) : checkCpu ((cpu : Nat) : Int) = some cpu := by
  have hlt : (cpu : Nat) < 32 := cpu.isLt
  unfold checkCpu
  rw [dif_pos ⟨by omega, by omega⟩]
  rfl

theorem Sets.snoop (h : Sets s address line s') {other : BitVec 64}
    (hsame : align other = align address) (cpu : Cpu) :
    (cacheCoherencySnoop s' other (cpu : Nat)).1 = .ok (line cpu) := by
  unfold cacheCoherencySnoop
  simp only [checkCpu_cast, h.findEntry hsame, h.entry]

end Steps

theorem ok_selected {protocol : Int} (h : protocol = 1 ∨ protocol = 3) :
    Ok (cacheCoherencySetProtocol cacheCoherencyInit protocol).2 := by
  rcases h with heq | heq
  · rw [heq]
    exact ⟨Or.inl rfl, fun slot hvalid => by cases hvalid⟩
  · rw [heq]
    exact ⟨Or.inr rfl, fun slot hvalid => by cases hvalid⟩

/--
After any reads and writes under MSI (1) or MOESI (3) a CPU that may write to a
line is the only one that has it; a write makes the writing CPU such a one, a
read gives the reading CPU a copy, and lines in other slots stay as they were.
-/
theorem msi_moesi_coherence {protocol : Int} (hprotocol : protocol = 1 ∨ protocol = 3)
    {s : State} (h : Reachable
      (fun s => s = (cacheCoherencySetProtocol cacheCoherencyInit protocol).2)
      (fun s a s' => s' = access s a) s) :
    (forall slot, (s.directory slot).valid = true ->
      (forall i j, Owned ((s.directory slot).state i) ->
        Owned ((s.directory slot).state j) -> i = j) ∧
      forall i, Owned ((s.directory slot).state i) -> forall j, j ≠ i ->
        (s.directory slot).state j = LineState.invalid) ∧
    (forall address (cpu : Cpu),
      (forall other, align other = align address -> forall i : Cpu,
        (cacheCoherencySnoop (cacheCoherencyWrite s address (cpu : Nat)).2 other
          (i : Nat)).1 = Except.ok
            (if i = cpu then LineState.modified else LineState.invalid)) ∧
      forall slot, slot ≠ hash (align address) ->
        (cacheCoherencyWrite s address (cpu : Nat)).2.directory slot =
          s.directory slot) ∧
    forall address (cpu : Cpu),
      (forall other, align other = align address -> exists state,
        (cacheCoherencySnoop (cacheCoherencyRead s address (cpu : Nat)).2 other
          (cpu : Nat)).1 = Except.ok state ∧ state ≠ LineState.invalid) ∧
      forall slot, slot ≠ hash (align address) ->
        (cacheCoherencyRead s address (cpu : Nat)).2.directory slot =
          s.directory slot := by
  have hok : Ok s := by
    apply h.invariant
    · intro s hs
      rw [hs]
      exact ok_selected hprotocol
    · intro s a s' hs hs'
      rw [hs']
      exact hs.access a
  refine ⟨?_, ?_, ?_⟩
  · intro slot hvalid
    have hsingle := (hok.lines slot hvalid).left
    refine ⟨?_, hsingle⟩
    intro i j hi hj
    by_contra hne
    rw [hsingle i hi j (Ne.symm hne)] at hj
    exact not_owned_invalid hj
  · intro address cpu
    have hsets : Sets s address _ (cacheCoherencyWrite s address (cpu : Nat)).2 :=
      write_sets (checkCpu_cast cpu)
    refine ⟨?_, fun slot hne => hsets.other hne⟩
    intro other hsame i
    rw [hsets.snoop hsame, afterWrite_apply hok.protocol.ne_none]
  · intro address cpu
    have hsets : Sets s address _ (cacheCoherencyRead s address (cpu : Nat)).2 :=
      read_sets (checkCpu_cast cpu)
    refine ⟨?_, fun slot hne => hsets.other hne⟩
    intro other hsame
    exact ⟨_, hsets.snoop hsame cpu,
      (lineOk_read hok.protocol (hok.lineAt _) cpu).right⟩

/-- CPU 0 reads under MOESI, then CPU 1 writes to the same line. -/
theorem msi_moesi_coherence_write :
    (cacheCoherencySnoop (cacheCoherencyWrite
      (access (cacheCoherencySetProtocol cacheCoherencyInit 3).2
        (Access.read 64 0)) 100 1).2 127 0).1 = Except.ok LineState.invalid := by
  have hreach : Reachable
      (fun s => s = (cacheCoherencySetProtocol cacheCoherencyInit 3).2)
      (fun s a s' => s' = access s a)
      (access (cacheCoherencySetProtocol cacheCoherencyInit 3).2
        (Access.read 64 0)) := Reachable.step (Reachable.init rfl) rfl
  have hall := msi_moesi_coherence (Or.inr rfl) hreach
  exact (hall.right.left 100 ⟨1, by decide⟩).left 127 (by decide) ⟨0, by decide⟩

end Coherency
end Horizon
