import Horizon.Lib.Transition
import Horizon.Mm.Coherency.Model

/-!
# A single writer

A CPU that may write to a line without asking is the only one that has it.  Each
call changes one line of the directory, so that the property is a question about
that line before and after.
-/

namespace Horizon
namespace Coherency

open Function Sweep Transition

def Owned (state : LineState) : Prop :=
  state = LineState.modified ∨ state = LineState.exclusive

instance (state : LineState) : Decidable (Owned state) :=
  inferInstanceAs (Decidable (_ ∨ _))

theorem not_owned_invalid : ¬ Owned .invalid := by decide

def SingleWriter (line : Line) : Prop :=
  forall i, Owned (line i) -> forall j, j ≠ i -> line j = LineState.invalid

def AllLines (p : Line -> Prop) (s : State) : Prop :=
  forall slot, (s.directory slot).valid = true -> p (s.directory slot).state

def Coherent (s : State) : Prop := AllLines SingleWriter s

/-- The line of an address, invalid everywhere when it has no entry. -/
def lineAt (s : State) (address : BitVec 64) : Line :=
  match findEntry s address with
  | some slot => (s.directory slot).state
  | none => blankLine

/-!
## The directory
-/

section Directory

variable {s s' : State} {address : BitVec 64} {line : Line}

theorem align_align (address : BitVec 64) :
    align (align address) = align address := by
  unfold align
  rw [BitVec.and_assoc, BitVec.and_self]

structure Sets (s : State) (address : BitVec 64) (line : Line) (s' : State) :
    Prop where
  directory : s'.directory = update s.directory (hash (align address))
    ⟨align address, line, true⟩
  protocol : s'.protocol = s.protocol

variable {slot : Slot} {p : Line -> Prop}

theorem lineAt_some (h : findEntry s address = some slot) :
    lineAt s address = (s.directory slot).state := by
  unfold lineAt
  rw [h]

theorem findEntry_some (h : findEntry s (align address) = some slot) :
    slot = hash (align address) ∧
      s.directory slot = ⟨align address, lineAt s (align address), true⟩ := by
  rw [lineAt_some h]
  unfold findEntry at h
  simp only [align_align] at h
  split at h
  case isTrue hentry =>
    cases h
    refine ⟨rfl, ?_⟩
    generalize s.directory (hash (align address)) = entry at hentry ⊢
    cases entry with
    | mk found state valid =>
      rcases hentry with ⟨hvalid, haddress⟩
      cases hvalid
      cases haddress
      rfl
  case isFalse hentry =>
    cases h

theorem lineAt_none (h : findEntry s address = none) :
    lineAt s address = blankLine := by
  unfold lineAt
  rw [h]

theorem getEntry_sets (s : State) (address : BitVec 64) :
    exists s', getEntry s (align address) = (hash (align address), s') ∧
      Sets s address (lineAt s (align address)) s' := by
  unfold getEntry
  cases hfind : findEntry s (align address) with
  | some slot =>
    rcases findEntry_some hfind with ⟨hslot, hentry⟩
    rw [hslot] at hentry ⊢
    refine ⟨s, rfl, ?_, rfl⟩
    rw [← hentry, update_eq_self]
  | none =>
    rw [lineAt_none hfind]
    unfold createEntry
    simp only [align_align]
    exact ⟨_, rfl, rfl, rfl⟩

section

variable (h : Sets s address line s')
include h

theorem Sets.entry :
    s'.directory (hash (align address)) = ⟨align address, line, true⟩ := by
  rw [h.directory, update_self]

theorem Sets.other (hne : slot ≠ hash (align address)) :
    s'.directory slot = s.directory slot := by
  rw [h.directory, update_of_ne hne]

theorem Sets.setLine (line' : Line) :
    Sets s address line' (s'.setLine (hash (align address)) line') := by
  constructor
  · show update s'.directory _ _ = _
    rw [h.entry, h.directory, update_idem]
  · exact h.protocol

theorem Sets.setStats (stats : Stats) :
    Sets s address line (s'.setStats stats) := ⟨h.directory, h.protocol⟩

end

theorem sets_of_found (h : findEntry s (align address) = some slot)
    (line : Line) : Sets s address line (s.setLine slot line) := by
  rcases findEntry_some h with ⟨hslot, hentry⟩
  constructor
  · show update s.directory slot _ = _
    rw [hentry, hslot]
  · rfl

theorem Sets.findEntry (h : Sets s address line s') {other : BitVec 64}
    (hsame : align other = align address) :
    Coherency.findEntry s' (align other) = some (hash (align address)) := by
  unfold Coherency.findEntry
  simp only [hsame, align_align]
  rw [if_pos]
  rw [h.entry]
  exact ⟨rfl, rfl⟩

theorem AllLines.lineAt (h : AllLines p s) (hblank : p blankLine)
    (address : BitVec 64) : p (lineAt s address) := by
  unfold Coherency.lineAt
  cases hfind : Coherency.findEntry s address with
  | none => exact hblank
  | some slot =>
    apply h slot
    unfold Coherency.findEntry at hfind
    simp only [] at hfind
    split at hfind
    · rename_i hentry
      cases hfind
      exact hentry.left
    · cases hfind

theorem Sets.allLines_iff (h : Sets s address line s') (hall : AllLines p s) :
    AllLines p s' <-> p line := by
  constructor
  · intro hafter
    have hline := hafter (hash (align address))
    rw [h.entry] at hline
    exact hline rfl
  · intro hline slot hvalid
    by_cases hslot : slot = hash (align address)
    · rw [hslot, h.entry]
      exact hline
    · rw [h.other hslot] at hvalid ⊢
      exact hall slot hvalid

theorem singleWriter_blankLine : SingleWriter blankLine :=
  fun _ howned => absurd howned not_owned_invalid

theorem Coherent.lineAt (h : Coherent s) (address : BitVec 64) :
    SingleWriter (lineAt s address) :=
  AllLines.lineAt h singleWriter_blankLine address

theorem Sets.coherent_iff (h : Sets s address line s') (hcoherent : Coherent s) :
    Coherent s' <-> SingleWriter line := h.allLines_iff hcoherent

end Directory

/-!
## Loops over the CPUs
-/

instance : Nontrivial Cpu := inferInstanceAs (Nontrivial (Fin 32))

theorem nodup_cpus : cpus.Nodup := List.nodup_finRange maxCpus

theorem mem_cpus (i : Cpu) : i ∈ cpus := List.mem_finRange i

theorem rewrite_apply (f : Cpu -> LineState -> LineState) (line : Line)
    (i : Cpu) : rewrite f line i = f i (line i) := by
  have hrewrites : Rewrites (fun i (_ : Unit) state => ((), f i state)) f :=
    fun _ _ _ => rfl
  unfold rewrite
  rw [sweep_cell hrewrites nodup_cpus (mem_cpus i)]

theorem invalidateOthers_apply (cpu : Cpu) (line : Line) (i : Cpu) :
    invalidateOthers cpu line i = if i ≠ cpu then .invalid else line i := by
  unfold invalidateOthers
  rw [rewrite_apply]

theorem any_cpus (p : Cpu -> Bool) : cpus.any p = true <-> exists i, p i = true := by
  rw [List.any_eq_true]
  constructor
  · rintro ⟨i, _, hi⟩
    exact ⟨i, hi⟩
  · rintro ⟨i, hi⟩
    exact ⟨i, mem_cpus i, hi⟩

theorem collect_cell {visit : Cpu -> Seen -> LineState -> Seen × LineState}
    {f : LineState -> LineState}
    (hvisit : forall i seen state, (visit i seen state).2 = f state)
    (line : Line) (i : Cpu) : (collect visit line).2 i = f (line i) := by
  have hrewrites : Rewrites visit fun _ => f := hvisit
  unfold collect
  rw [sweep_cell hrewrites nodup_cpus (mem_cpus i)]

theorem collect_flag (visit : Cpu -> Seen -> LineState -> Seen × LineState)
    (flag : Seen -> Bool) (raises : LineState -> Bool)
    (hvisit : forall i seen state,
      flag (visit i seen state).1 = (flag seen || raises state))
    (hinit : flag ⟨false, false, false⟩ = false) (line : Line) :
    flag (collect visit line).1 = true <-> exists i, raises (line i) = true := by
  unfold collect
  rw [sweep_flag flag hvisit nodup_cpus, hinit, Bool.false_or, any_cpus]

/-- What a CPU that may write keeps when another one reads. -/
def released (state : LineState) : LineState :=
  if Owned state then LineState.shared else state

theorem not_owned_released (state : LineState) : ¬ Owned (released state) := by
  cases state <;> decide

/-- A read that asks all CPUs whether they have a copy that excludes others. -/
theorem collect_released {visit : Cpu -> Seen -> LineState -> Seen × LineState}
    (flag : Seen -> Bool) (p : LineState -> Prop) [DecidablePred p]
    (hcell : forall i seen state, (visit i seen state).2 = released state)
    (hvisit : forall i seen state,
      flag (visit i seen state).1 = (flag seen || decide (p state)))
    (hinit : flag ⟨false, false, false⟩ = false)
    (hkeep : forall state, ¬ p state -> released state = state) (line : Line)
    (cpu : Cpu) :
    (if flag (collect visit line).1 then
        update (collect visit line).2 cpu LineState.shared
      else update (collect visit line).2 cpu LineState.exclusive) =
      if exists i, p (line i) then
        update (fun i => released (line i)) cpu LineState.shared
      else update line cpu LineState.exclusive := by
  have hcells : (collect visit line).2 = fun i => released (line i) :=
    funext fun i => collect_cell hcell line i
  have hflag : flag (collect visit line).1 = true <-> exists i, p (line i) := by
    simpa only [decide_eq_true_eq] using
      collect_flag visit flag (fun state => decide (p state)) hvisit hinit line
  by_cases hany : exists i, p (line i)
  · rw [if_pos (hflag.mpr hany), if_pos hany, hcells]
  · have hsame : (fun i => released (line i)) = line :=
      funext fun i => hkeep _ fun hi => hany ⟨i, hi⟩
    rw [if_neg (fun hseen => hany (hflag.mp hseen)), if_neg hany, hcells, hsame]

/-!
## Lines under MESI
-/

section Mesi

variable {line : Line} {cpu : Cpu}

theorem afterRead_mesi (h : line cpu = .invalid) :
    afterRead .mesi line cpu =
      if exists i, Owned (line i) then
        update (fun i => released (line i)) cpu .shared
      else update line cpu .exclusive := by
  unfold afterRead
  simp only [if_pos h]
  apply collect_released (fun seen => seen.modified || seen.exclusive) Owned
  · intro _ _ state
    cases state <;> rfl
  · rintro i ⟨modified, exclusive, shared⟩ state
    cases state <;> cases modified <;> cases exclusive <;> rfl
  · rfl
  · exact fun _ howned => if_neg howned

theorem singleWriter_of_not_owned (h : forall i, ¬ Owned (line i)) :
    SingleWriter line := fun i howned => absurd howned (h i)

variable {state : LineState} {protocol : Protocol}

theorem singleWriter_update (howned : Owned state) :
    SingleWriter (update line cpu state) <->
      forall j, j ≠ cpu -> line j = .invalid := by
  constructor
  · intro hsingle j hj
    have hcpu := hsingle cpu (by rw [update_self]; exact howned) j hj
    rw [update_of_ne hj] at hcpu
    exact hcpu
  · intro hothers i hi j hj
    have hicpu : i = cpu := by
      by_contra hne
      rw [update_of_ne hne, hothers i hne] at hi
      exact not_owned_invalid hi
    rw [hicpu] at hj
    rw [update_of_ne hj]
    exact hothers j hj

theorem singleWriter_share (hcpu : line cpu = .invalid) :
    SingleWriter (update line cpu .shared) <-> forall i, ¬ Owned (line i) := by
  constructor
  · intro hsingle i howned
    have hne : cpu ≠ i := by
      intro heq
      rw [← heq, hcpu] at howned
      exact absurd howned (by decide)
    have hafter := hsingle i (by
      rw [update_of_ne hne.symm]
      exact howned) cpu hne
    rw [update_self] at hafter
    cases hafter
  · intro hnone
    apply singleWriter_of_not_owned
    intro i howned
    by_cases hi : i = cpu
    · rw [hi, update_self] at howned
      exact absurd howned (by decide)
    · rw [update_of_ne hi] at howned
      exact hnone i howned

theorem singleWriter_released (line : Line) (cpu : Cpu) : SingleWriter
    (update (fun i => released (line i)) cpu .shared) := by
  apply singleWriter_of_not_owned
  intro i
  by_cases hi : i = cpu
  · rw [hi, update_self]
    decide
  · rw [update_of_ne hi]
    exact not_owned_released _

theorem singleWriter_read_iff (h : SingleWriter line) :
    SingleWriter (afterRead .mesi line cpu) <->
      (line cpu = .invalid -> (forall i, ¬ Owned (line i)) ->
        forall i, line i = .invalid) := by
  by_cases hcpu : line cpu = .invalid
  · rw [afterRead_mesi hcpu]
    split
    case isTrue hany =>
      constructor
      · intro _ _ hnone
        rcases hany with ⟨i, howned⟩
        exact absurd howned (hnone i)
      · intro _
        exact singleWriter_released line cpu
    case isFalse hany =>
      rw [singleWriter_update (Or.inr rfl)]
      constructor
      · intro hothers _ _ i
        by_cases hi : i = cpu
        · rw [hi]
          exact hcpu
        · exact hothers i hi
      · intro hall j _
        exact hall hcpu (fun i howned => hany ⟨i, howned⟩) j
  · have hsame : afterRead .mesi line cpu = line := if_neg hcpu
    rw [hsame]
    exact ⟨fun _ hinvalid => absurd hinvalid hcpu, fun _ => h⟩

theorem afterWrite_apply (h : protocol ≠ .none) (line : Line) (cpu i : Cpu) :
    afterWrite protocol line cpu i =
      if i = cpu then .modified else .invalid := by
  have hwrite : afterWrite protocol line cpu =
      update (invalidateOthers cpu line) cpu .modified := by
    cases protocol with
    | none => exact absurd rfl h
    | msi => rfl
    | mesi => rfl
    | moesi => rfl
  rw [hwrite]
  split
  case isTrue hi => rw [hi, update_self]
  case isFalse hi => rw [update_of_ne hi, invalidateOthers_apply, if_pos hi]

theorem singleWriter_write (line : Line) (cpu : Cpu)
    (hprotocol : protocol ≠ .none) :
    SingleWriter (afterWrite protocol line cpu) := by
  intro i hi j hj
  rw [afterWrite_apply hprotocol] at hi ⊢
  by_cases hicpu : i = cpu
  · rw [hicpu] at hj
    rw [if_neg hj]
  · rw [if_neg hicpu] at hi
    exact absurd hi not_owned_invalid

theorem singleWriter_upgrade_iff (hlower : ¬ (line cpu).code >= state.code) :
    SingleWriter (upgraded .mesi line cpu state) <->
      (state = .shared -> forall i, ¬ Owned (line i)) := by
  unfold upgraded
  by_cases howned : Owned state
  · have hwriter : state = .modified ∨ state = .exclusive :=
      howned
    simp only [if_pos hwriter]
    rw [singleWriter_update howned]
    constructor
    · intro _ hshared
      rw [hshared] at howned
      exact absurd howned (by decide)
    · intro _ j hj
      rw [invalidateOthers_apply, if_pos hj]
  · have hreader : ¬ (state = .modified ∨ state = .exclusive) :=
      howned
    simp only [if_neg hreader]
    cases state with
    | invalid =>
      exfalso
      apply hlower
      cases line cpu <;> decide
    | shared =>
      have hcpu : line cpu = .invalid := by
        revert hlower
        cases line cpu <;> decide
      rw [singleWriter_share hcpu]
      exact ⟨fun hnone _ => hnone, fun hnone => hnone rfl⟩
    | modified => exact absurd (Or.inl rfl) howned
    | exclusive => exact absurd (Or.inr rfl) howned

theorem singleWriter_downgrade (h : SingleWriter line)
    (hhigher : ¬ (line cpu).code <= state.code) :
    SingleWriter (update line cpu state) := by
  have hcpu : line cpu ≠ .invalid := by
    intro heq
    apply hhigher
    rw [heq]
    cases state <;> decide
  intro i hi j hj
  by_cases hicpu : i = cpu
  · -- Only an exclusive line is still writable after a downgrade.
    have howned : Owned (line cpu) := by
      rw [hicpu, update_self] at hi
      revert hi hhigher
      cases state <;> cases line cpu <;> decide
    rw [hicpu] at hj
    rw [update_of_ne hj]
    exact h cpu howned j hj
  · rw [update_of_ne hicpu] at hi
    exact absurd (h i hi cpu (fun heq => hicpu heq.symm)) hcpu

theorem SingleWriter.rewrite (h : SingleWriter line)
    {f : Cpu -> LineState -> LineState}
    (howned : forall i state, Owned (f i state) -> Owned state)
    (hinvalid : forall i, f i .invalid = .invalid) :
    SingleWriter (Coherency.rewrite f line) := by
  intro i hi j hj
  rw [rewrite_apply] at hi ⊢
  rw [h i (howned i _ hi) j hj]
  exact hinvalid j

theorem singleWriter_broadcast_iff (h : SingleWriter line) :
    SingleWriter (rewrite (fun _ state =>
      if state = .invalid then .shared else state) line) <->
      forall i, ¬ Owned (line i) := by
  constructor
  · intro hsingle i howned
    -- Some other CPU got a copy.
    obtain ⟨j, hj⟩ : exists j : Cpu, j ≠ i := exists_ne i
    have hafter := hsingle i (by
      rw [rewrite_apply, if_neg]
      · exact howned
      · intro hinvalid
        rw [hinvalid] at howned
        exact not_owned_invalid howned) j hj
    rw [rewrite_apply, if_pos (h i howned j hj)] at hafter
    cases hafter
  · intro hnone
    apply singleWriter_of_not_owned
    intro i howned
    rw [rewrite_apply] at howned
    split at howned
    case isTrue hinvalid => exact absurd howned (by decide)
    case isFalse hinvalid => exact hnone i howned

end Mesi

/-!
## Runs under MESI
-/

inductive Call where
  | read (address : BitVec 64) (cpu : Int)
  | write (address : BitVec 64) (cpu : Int)
  | upgrade (address : BitVec 64) (cpu state : Int)
  | downgrade (address : BitVec 64) (cpu state : Int)
  | flush (address : BitVec 64)
  | invalidate (address : BitVec 64)
  | broadcast (address : BitVec 64)

def next (s : State) : Call -> State
  | Call.read address cpu => (cacheCoherencyRead s address cpu).2
  | Call.write address cpu => (cacheCoherencyWrite s address cpu).2
  | Call.upgrade address cpu state =>
      (cacheCoherencyUpgrade s address cpu state).2
  | Call.downgrade address cpu state =>
      (cacheCoherencyDowngrade s address cpu state).2
  | Call.flush address => (cacheCoherencyFlush s address).2
  | Call.invalidate address => (cacheCoherencyInvalidate s address).2
  | Call.broadcast address => (cacheCoherencyBroadcast s address).2

/--
The calls that keep a single writer: a read of a line that others only share, a
broadcast of a line that has a writer and an upgrade to a shared copy of such a
line are left out.
-/
def CallOk (s : State) : Call -> Prop
  | Call.read address cpu => forall c, checkCpu cpu = some c ->
      lineAt s (align address) c = LineState.invalid ->
      (forall i, ¬ Owned (lineAt s (align address) i)) ->
      forall i, lineAt s (align address) i = LineState.invalid
  | Call.upgrade address cpu state => forall c, checkCpu cpu = some c ->
      checkState state = some LineState.shared ->
      lineAt s (align address) c = LineState.invalid ->
      forall i, ¬ Owned (lineAt s (align address) i)
  | Call.broadcast address => forall i, ¬ Owned (lineAt s (align address) i)
  | _ => True

section Steps

variable {s : State}

variable {address : BitVec 64} {cpu state : Int} {c : Cpu} {new : LineState}

theorem read_sets (hcpu : checkCpu cpu = some c) :
    Sets s address (afterRead s.protocol (lineAt s (align address)) c)
      (cacheCoherencyRead s address cpu).2 := by
  rcases getEntry_sets s address with ⟨s1, hget, hsets⟩
  unfold cacheCoherencyRead
  simp only [hcpu, hget, hsets.entry, hsets.protocol]
  exact hsets.setLine _

theorem write_sets (hcpu : checkCpu cpu = some c) :
    Sets s address (afterWrite s.protocol (lineAt s (align address)) c)
      (cacheCoherencyWrite s address cpu).2 := by
  rcases getEntry_sets s address with ⟨s1, hget, hsets⟩
  unfold cacheCoherencyWrite
  simp only [hcpu, hget, hsets.entry, hsets.protocol]
  exact hsets.setLine _

theorem upgrade_sets (hcpu : checkCpu cpu = some c)
    (hstate : checkState state = some new) :
    Sets s address
      (if (lineAt s (align address) c).code >= new.code
        then lineAt s (align address)
        else upgraded s.protocol (lineAt s (align address)) c new)
      (cacheCoherencyUpgrade s address cpu state).2 := by
  rcases getEntry_sets s address with ⟨s1, hget, hsets⟩
  unfold cacheCoherencyUpgrade
  simp only [hcpu, hstate, hget, hsets.entry, hsets.protocol]
  split
  · exact hsets
  · exact (hsets.setLine _).setStats _

theorem onEntry_cases (s : State) (address : BitVec 64)
    (f : LineState -> LineState) (count : Stats -> Stats) :
    (lineAt s (align address) = blankLine ∧ (onEntry s address f count).2 = s) ∨
    Sets s address (rewrite (fun _ => f) (lineAt s (align address)))
      (onEntry s address f count).2 := by
  unfold onEntry
  cases hfind : findEntry s (align address) with
  | none => exact Or.inl ⟨lineAt_none hfind, rfl⟩
  | some slot =>
    right
    rw [lineAt_some hfind]
    exact (sets_of_found hfind _).setStats _

theorem downgrade_cases (s : State) (address : BitVec 64) (cpu state : Int) :
    (cacheCoherencyDowngrade s address cpu state).2 = s ∨
    exists c new, ¬ (lineAt s (align address) c).code <= new.code ∧
      Sets s address (update (lineAt s (align address)) c new)
        (cacheCoherencyDowngrade s address cpu state).2 := by
  unfold cacheCoherencyDowngrade
  split
  case h_1 c new _ _ =>
    cases hfind : findEntry s (align address) with
    | none => exact Or.inl rfl
    | some slot =>
      rw [lineAt_some hfind]
      by_cases hlower : ((s.directory slot).state c).code <= new.code
      · left
        simp only [if_pos hlower]
      · refine Or.inr ⟨c, new, hlower, ?_⟩
        simp only [if_neg hlower]
        exact (sets_of_found hfind _).setStats _
  case h_2 => exact Or.inl rfl

theorem blankLine_not_owned (i : Cpu) : ¬ Owned (blankLine i) :=
  not_owned_invalid

theorem onEntry_protocol (s : State) (address : BitVec 64)
    (f : LineState -> LineState) (count : Stats -> Stats) :
    (onEntry s address f count).2.protocol = s.protocol := by
  rcases onEntry_cases s address f count with ⟨_, hsame⟩ | hsets
  · rw [hsame]
  · exact hsets.protocol

theorem coherent_onEntry_iff (h : Coherent s) (address : BitVec 64)
    {f : LineState -> LineState} (count : Stats -> Stats) (ok : Line -> Prop)
    (hblank : ok blankLine)
    (hok : SingleWriter (rewrite (fun _ => f) (lineAt s (align address))) <->
      ok (lineAt s (align address))) :
    Coherent (onEntry s address f count).2 <-> ok (lineAt s (align address)) := by
  rcases onEntry_cases s address f count with ⟨hline, hsame⟩ | hsets
  · rw [hsame, hline]
    exact ⟨fun _ => hblank, fun _ => h⟩
  · rw [hsets.coherent_iff h, hok]

theorem refused_read (h : checkCpu cpu = none) :
    (cacheCoherencyRead s address cpu).2 = s := by
  unfold cacheCoherencyRead
  simp only [h]

theorem refused_write (h : checkCpu cpu = none) :
    (cacheCoherencyWrite s address cpu).2 = s := by
  unfold cacheCoherencyWrite
  simp only [h]

theorem refused_upgrade (h : checkCpu cpu = none ∨ checkState state = none) :
    (cacheCoherencyUpgrade s address cpu state).2 = s := by
  unfold cacheCoherencyUpgrade
  cases h with
  | inl hcpu => simp only [hcpu]
  | inr hstate => cases checkCpu cpu <;> simp only [hstate]

theorem coherent_read_iff (hprotocol : s.protocol = .mesi) (h : Coherent s)
    (address : BitVec 64) (cpu : Int) :
    Coherent (next s (.read address cpu)) <-> CallOk s (.read address cpu) := by
  cases hcpu : checkCpu cpu with
  | none =>
    show Coherent (cacheCoherencyRead s address cpu).2 <-> _
    rw [refused_read hcpu]
    exact iff_of_true h fun c hc => nomatch hcpu.symm.trans hc
  | some c =>
    show Coherent (cacheCoherencyRead s address cpu).2 <-> _
    rw [(read_sets hcpu).coherent_iff h, hprotocol,
      singleWriter_read_iff (h.lineAt _)]
    constructor
    · intro hread c' hc'
      cases hcpu.symm.trans hc'
      exact hread
    · intro hok
      exact hok c hcpu

theorem coherent_write (hprotocol : s.protocol ≠ .none) (h : Coherent s)
    (address : BitVec 64) (cpu : Int) :
    Coherent (cacheCoherencyWrite s address cpu).2 := by
  cases hcpu : checkCpu cpu with
  | none =>
    rw [refused_write hcpu]
    exact h
  | some c =>
    rw [(write_sets hcpu).coherent_iff h]
    exact singleWriter_write _ _ hprotocol

theorem coherent_upgrade_iff (hprotocol : s.protocol = .mesi) (h : Coherent s)
    (address : BitVec 64) (cpu state : Int) :
    Coherent (next s (.upgrade address cpu state)) <->
      CallOk s (.upgrade address cpu state) := by
  show Coherent (cacheCoherencyUpgrade s address cpu state).2 <-> _
  cases hcpu : checkCpu cpu with
  | none =>
    rw [refused_upgrade (Or.inl hcpu)]
    exact iff_of_true h fun c hc => nomatch hcpu.symm.trans hc
  | some c =>
    cases hstate : checkState state with
    | none =>
      rw [refused_upgrade (Or.inr hstate)]
      exact iff_of_true h fun c _ hshared => nomatch hstate.symm.trans hshared
    | some new =>
      rw [(upgrade_sets hcpu hstate).coherent_iff h, hprotocol]
      generalize hline : lineAt s (align address) = line
      have hsingle : SingleWriter line := hline ▸ h.lineAt _
      split
      case isTrue hlower =>
        constructor
        · intro _ c' hc' hshared hinvalid
          cases hcpu.symm.trans hc'
          cases hstate.symm.trans hshared
          rw [hline] at hinvalid
          rw [hinvalid] at hlower
          exact absurd hlower (by decide)
        · intro _
          exact hsingle
      case isFalse hlower =>
        rw [singleWriter_upgrade_iff hlower]
        constructor
        · intro hnone c' _ hshared _
          rw [hstate] at hshared
          rw [hline]
          exact hnone (Option.some.inj hshared)
        · intro hok hshared
          rw [← hline] at hlower ⊢
          apply hok c hcpu (by rw [hstate, hshared])
          rw [hshared] at hlower
          revert hlower
          cases lineAt s (align address) c <;> decide

theorem coherent_downgrade (h : Coherent s) (address : BitVec 64)
    (cpu state : Int) : Coherent (cacheCoherencyDowngrade s address cpu state).2 := by
  rcases downgrade_cases s address cpu state with hsame | ⟨c, new, hhigher, hsets⟩
  · rw [hsame]
    exact h
  · rw [hsets.coherent_iff h]
    exact singleWriter_downgrade (h.lineAt _) hhigher

theorem coherent_next_iff (hprotocol : s.protocol = .mesi) (h : Coherent s)
    (call : Call) : Coherent (next s call) <-> CallOk s call := by
  cases call with
  | read address cpu => exact coherent_read_iff hprotocol h address cpu
  | write address cpu =>
    have hne : s.protocol ≠ .none := by
      rw [hprotocol]
      decide
    exact iff_of_true (coherent_write hne h address cpu) trivial
  | upgrade address cpu state =>
    exact coherent_upgrade_iff hprotocol h address cpu state
  | downgrade address cpu state =>
    exact iff_of_true (coherent_downgrade h address cpu state) trivial
  | flush address | invalidate address =>
    apply coherent_onEntry_iff h address _ (fun _ => True) trivial
    rw [iff_true]
    apply (h.lineAt _).rewrite
    · intro _ state
      cases state <;> decide
    · intro _
      decide
  | broadcast address =>
    apply coherent_onEntry_iff h address _
      (fun line => forall i, ¬ Owned (line i)) blankLine_not_owned
    exact singleWriter_broadcast_iff (h.lineAt _)

theorem next_protocol (s : State) (call : Call) :
    (next s call).protocol = s.protocol := by
  cases call with
  | read address cpu =>
    show (cacheCoherencyRead s address cpu).2.protocol = _
    cases hcpu : checkCpu cpu with
    | none => rw [refused_read hcpu]
    | some c => exact (read_sets hcpu).protocol
  | write address cpu =>
    show (cacheCoherencyWrite s address cpu).2.protocol = _
    cases hcpu : checkCpu cpu with
    | none => rw [refused_write hcpu]
    | some c => exact (write_sets hcpu).protocol
  | upgrade address cpu state =>
    show (cacheCoherencyUpgrade s address cpu state).2.protocol = _
    cases hcpu : checkCpu cpu with
    | none => rw [refused_upgrade (Or.inl hcpu)]
    | some c =>
      cases hstate : checkState state with
      | none => rw [refused_upgrade (Or.inr hstate)]
      | some new => exact (upgrade_sets hcpu hstate).protocol
  | downgrade address cpu state =>
    rcases downgrade_cases s address cpu state with hsame | ⟨_, _, _, hsets⟩
    · exact congrArg State.protocol hsame
    · exact hsets.protocol
  | flush address => exact onEntry_protocol s address _ _
  | invalidate address => exact onEntry_protocol s address _ _
  | broadcast address => exact onEntry_protocol s address _ _

end Steps

theorem coherent_init : Coherent cacheCoherencyInit := by
  intro slot hvalid
  cases hvalid

def Step (s : State) (call : Call) (s' : State) : Prop :=
  CallOk s call ∧ s' = next s call

/-- In runs whose calls meet their conditions a CPU that may write is alone. -/
theorem mesi_single_writer {s : State}
    (h : Reachable (fun s => s = cacheCoherencyInit) Step s) (slot : Slot)
    (hvalid : (s.directory slot).valid = true) (i : Cpu)
    (howned : (s.directory slot).state i = LineState.modified ∨
      (s.directory slot).state i = LineState.exclusive) (j : Cpu) (hj : j ≠ i) :
    (s.directory slot).state j = LineState.invalid := by
  have hinv : s.protocol = Protocol.mesi ∧ Coherent s := by
    apply h.invariant
    · intro s hs
      rw [hs]
      exact ⟨rfl, coherent_init⟩
    · rintro s call s' ⟨hprotocol, hcoherent⟩ ⟨hok, hs'⟩
      rw [hs', next_protocol]
      exact ⟨hprotocol, (coherent_next_iff hprotocol hcoherent call).mpr hok⟩
  exact hinv.right slot hvalid i howned j hj

/-- CPU 1 writes, CPU 2 reads and writes. -/
theorem mesi_single_writer_run :
    ((next (next (next cacheCoherencyInit (Call.write 128 1)) (Call.read 128 2))
      (Call.write 128 2)).directory ⟨2, by decide⟩).state ⟨1, by decide⟩ =
      LineState.invalid := by
  have hread : CallOk (next cacheCoherencyInit (Call.write 128 1))
      (Call.read 128 2) := by
    intro c _ _ hnone
    exact absurd (hnone ⟨1, by decide⟩) (by decide +kernel)
  have hfirst : Reachable (fun s => s = cacheCoherencyInit) Step
      (next cacheCoherencyInit (Call.write 128 1)) :=
    Reachable.step (l := Call.write 128 1) (Reachable.init rfl) ⟨trivial, rfl⟩
  have hsecond := Reachable.step hfirst ⟨hread, rfl⟩
  have hthird : Reachable (fun s => s = cacheCoherencyInit) Step
      (next (next (next cacheCoherencyInit (Call.write 128 1))
        (Call.read 128 2)) (Call.write 128 2)) :=
    Reachable.step (l := Call.write 128 2) hsecond ⟨trivial, rfl⟩
  exact mesi_single_writer hthird _ (by decide +kernel) ⟨2, by decide⟩
    (Or.inl (by decide +kernel)) _ (by decide)

/-- Three reads: the third CPU gets the line exclusively while two others share
it. -/
theorem mesi_two_copies : ¬ forall s,
    Reachable (fun s => s = cacheCoherencyInit) (fun s call s' => s' = next s call) s ->
    Coherent s := by
  intro hall
  have hrun := hall _ (Reachable.step (l := Call.read 0 2) (Reachable.step
    (l := Call.read 0 1) (Reachable.step (l := Call.read 0 0)
      (Reachable.init rfl) rfl) rfl) rfl)
  have hstate := hrun ⟨0, by decide⟩ (by decide +kernel) ⟨2, by decide⟩
    (by decide +kernel) ⟨0, by decide⟩ (by decide)
  exact absurd hstate (by decide +kernel)

end Coherency
end Horizon
