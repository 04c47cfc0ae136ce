import Horizon.Mm.Vmm.Order
import Mathlib.Data.Nat.Bitwise

/-!
# The counters of an address space

The counters of an address space agree with its areas as long as no call changes
an area in a way that it does not account for: the middle of an area is not
unmapped, an area is locked and unlocked as a whole, and protecting it does not
change whether it is executable and not writable.
-/

namespace Horizon
namespace Vmm

open Function List LinkedList

def Vma.pages (v : Vma) : Nat := (v.stop - v.start) / pageSize

def Vma.counted (test : Nat -> Bool) (v : Vma) : Nat :=
  if test v.flags then v.pages else 0

/-- The pages of the areas whose flags pass a test. -/
def tally (test : Nat -> Bool) (vma : Nat -> Vma) (ps : List Nat) : Nat :=
  (ps.map fun p => (vma p).counted test).sum

def isLocked (flags : Nat) : Bool := has flags vmLocked

def isShared (flags : Nat) : Bool := has flags vmShared

/-- The counters are the numbers of pages of the areas that they count. -/
structure Accounted (mm : Mm) (ps : List Nat) : Prop extends Formed mm ps where
  whole : forall p, p ∈ ps -> (mm.vma p).Whole
  below : forall p, p ∈ ps -> (mm.vma p).stop < 2 ^ 32
  totalVm : mm.totalVm = tally (fun _ => true) mm.vma ps
  lockedVm : mm.lockedVm = tally isLocked mm.vma ps
  sharedVm : mm.sharedVm = tally isShared mm.vma ps
  execVm : mm.execVm = tally execOnly mm.vma ps
  small : mm.totalVm < 2 ^ 32

/-!
## Tallies
-/

variable {test : Nat -> Bool} {vma vma' : Nat -> Vma} {ps ps' : List Nat}
    {mm mm' : Mm} {v : Vma} {k n p stop flags start : Nat}

theorem tally_perm (h : ps.Perm ps') : tally test vma ps = tally test vma ps' :=
  (h.map _).sum_nat

theorem tally_cons (test : Nat -> Bool) (vma : Nat -> Vma) (p : Nat)
    (ps : List Nat) :
    tally test vma (p :: ps) = (vma p).counted test + tally test vma ps :=
  sum_cons

theorem tally_singleton (test : Nat -> Bool) (vma : Nat -> Vma) (p : Nat) :
    tally test vma [p] = (vma p).counted test := by
  rfl

theorem tally_congr (h : forall p, p ∈ ps -> vma' p = vma p) :
    tally test vma' ps = tally test vma ps := by
  unfold tally
  rw [map_congr_left fun p hp => by rw [h p hp]]

theorem tally_le (test : Nat -> Bool) (vma : Nat -> Vma) (ps : List Nat) :
    tally test vma ps <= tally (fun _ => true) vma ps := by
  induction ps with
  | nil => exact Nat.le_refl _
  | cons p ps ih =>
    rw [tally_cons, tally_cons]
    refine Nat.add_le_add ?_ ih
    unfold Vma.counted
    by_cases htest : test (vma p).flags = true
    · exact Nat.le_of_eq (by rw [if_pos htest, if_pos rfl])
    · rw [if_neg htest]
      exact Nat.zero_le _

/-!
## Cutting an area
-/

/-- The range does not lie strictly inside the area. -/
def EndCut (v : Vma) (start stop : Nat) : Prop :=
  v.Meets start stop -> ¬ (v.start < start ∧ stop < v.stop)

theorem pages_shrink (hwhole : v.Whole) (hbelow : v.stop < 2 ^ 32)
    (hstart : start % pageSize = 0) (hstop : stop % pageSize = 0)
    (hcut : EndCut v start stop) (hmeets : v.Meets start stop)
    (hinside : ¬ v.Inside start stop) :
    (v.shrink start stop).pages + v.overlap start stop / pageSize = v.pages ∧
      (v.shrink start stop).flags = v.flags ∧
      v.start <= (v.shrink start stop).start ∧
      (v.shrink start stop).stop <= v.stop := by
  have hend := hcut hmeets
  have hv' := hwhole.stop
  unfold Vma.Meets at hmeets
  unfold Vma.Inside at hinside
  unfold Vma.shrink Vma.overlap Vma.pages sub32
  unfold pageSize at *
  by_cases hbefore : v.start < start
  · have hlast : ¬ start > stop := by omega
    simp only [if_pos hbefore, if_neg hlast]
    rw [if_neg (show ¬ v.start > start by omega)]
    refine ⟨?_, trivial, Nat.le_refl _, by omega⟩
    split <;> omega
  · have hafter : v.stop > stop := by omega
    simp only [if_neg hbefore, if_pos hafter]
    rw [if_neg (show ¬ v.stop < stop by omega)]
    refine ⟨?_, trivial, by omega, Nat.le_refl _⟩
    split <;> omega

theorem counted_uncharge {v' : Vma} (hn : n = v.counted test)
    (hpages : v'.pages + k = v.pages) (hflags : v'.flags = v.flags)
    (hsmall : v.pages < 2 ^ 32) :
    (if test v.flags then sub32 n k else n) = v'.counted test := by
  unfold Vma.counted at hn ⊢
  rw [hflags]
  by_cases htest : test v.flags = true
  · rw [if_pos htest] at hn ⊢
    rw [if_pos htest, hn]
    unfold sub32
    omega
  · rw [if_neg htest] at hn ⊢
    rw [if_neg htest]
    exact hn

theorem Accounted.pages_lt (h : Accounted mm [p]) :
    (mm.vma p).pages < 2 ^ 32 := by
  have hbelow := h.below p (mem_singleton.mpr rfl)
  unfold Vma.pages pageSize
  omega

theorem Accounted.cut (h : Accounted mm [p]) (hstart : start % pageSize = 0)
    (hstop : stop % pageSize = 0) (hcut : EndCut (mm.vma p) start stop)
    (hmeets : (mm.vma p).Meets start stop)
    (hinside : ¬ (mm.vma p).Inside start stop) :
    Accounted (mm.cut p start stop) [p] := by
  have hp : p ∈ [p] := mem_singleton.mpr rfl
  have hwhole := h.whole p hp
  have hbelow := h.below p hp
  rcases pages_shrink hwhole hbelow hstart hstop hcut hmeets hinside with
    ⟨hpages, hflags, _, hle⟩
  have hsmall := h.pages_lt
  have hvma : (mm.cut p start stop).vma p = (mm.vma p).shrink start stop :=
    update_self ..
  have htotal := h.totalVm
  have hlocked := h.lockedVm
  have hshared := h.sharedVm
  have hexec := h.execVm
  rw [tally_singleton] at htotal hlocked hshared hexec
  have htotal' := counted_uncharge htotal hpages hflags hsmall
  refine ⟨h.toFormed.congr h.cache, ?_, ?_, ?_, ?_, ?_, ?_, ?_⟩
  · exact forall_setVma (hwhole.shrink hstart hstop hinside)
  · exact forall_setVma (P := fun v => v.stop < 2 ^ 32)
      (Nat.lt_of_le_of_lt hle hbelow)
  · rw [tally_singleton, hvma]
    exact htotal'
  · rw [tally_singleton, hvma]
    exact counted_uncharge hlocked hpages hflags hsmall
  · rw [tally_singleton, hvma]
    exact counted_uncharge hshared hpages hflags hsmall
  · rw [tally_singleton, hvma]
    exact counted_uncharge hexec hpages hflags hsmall
  · exact Nat.mod_lt _ (by decide)

/-!
## New areas
-/

theorem counted_charge {new : Nat} (hperm : ps'.Perm (new :: ps))
    (hold : forall p, p ∈ ps -> vma' p = vma p) (hn : n = tally test vma ps)
    (hk : (vma' new).pages = k) (hsmall : n + k < 2 ^ 32) :
    (if test (vma' new).flags then add32 n k else n) = tally test vma' ps' := by
  rw [tally_perm hperm, tally_cons, tally_congr hold, ← hn]
  unfold Vma.counted
  by_cases htest : test (vma' new).flags = true
  · rw [if_pos htest, if_pos htest, add32_of_lt hsmall, hk, Nat.add_comm]
  · rw [if_neg htest, if_neg htest, Nat.zero_add]

theorem Accounted.created {place size : Nat} (h : Accounted mm ps)
    (hfits : place + size < 2 ^ 32) (hplace : place % pageSize = 0)
    (hsize : size % pageSize = 0) (hpos : size ≠ 0)
    (htotal : mm.totalVm + size / pageSize < 2 ^ 32)
    (hcreated : Created mm ps place size flags mm' ps') :
    Accounted (mm'.charge flags size) ps' := by
  have hperm := hcreated.inserted.perm
  have hold : forall p, p ∈ ps -> mm'.vma p = mm.vma p :=
    fun p hp => hcreated.old h.toFormed hp
  have hnew := hcreated.new hfits
  have hpages : (mm'.vma mm.heap).pages = size / pageSize := by
    rw [hnew]
    show (place + size - place) / pageSize = _
    rw [Nat.add_sub_cancel_left]
  have hle : forall test, tally test mm.vma ps <= mm.totalVm := by
    intro test
    rw [h.totalVm]
    exact tally_le _ _ _
  -- a counter that starts out right is right afterwards
  have hcounter : forall (test : Nat -> Bool) n, n = tally test mm.vma ps ->
      (if test flags then add32 n (size / pageSize) else n) =
        tally test mm'.vma ps' := by
    intro test n hn
    have hless := hle test
    have hcharge := counted_charge hperm hold hn hpages (by omega)
    rw [hnew] at hcharge
    exact hcharge
  have hformed := hcreated.formed
  refine ⟨hformed.congr hformed.cache, ?_, ?_, ?_, ?_, ?_, ?_, ?_⟩
  · intro p hp
    exact hcreated.whole h.toFormed h.whole hfits hplace hsize hpos hp
  · intro p hp
    show (mm'.vma p).stop < 2 ^ 32
    rcases mem_cons.mp (hperm.mem_iff.mp hp) with rfl | hp
    · rw [hnew]
      exact hfits
    · rw [hold p hp]
      exact h.below p hp
  · exact hcounter _ mm'.totalVm (hcreated.totalVm.trans h.totalVm)
  · exact hcounter _ mm'.lockedVm (hcreated.lockedVm.trans h.lockedVm)
  · exact hcounter _ mm'.sharedVm (hcreated.sharedVm.trans h.sharedVm)
  · exact hcounter _ mm'.execVm (hcreated.execVm.trans h.execVm)
  · exact Nat.mod_lt _ (by decide)

theorem accounted_rules : Rules EndCut Accounted where
  formed h := h.toFormed
  cache h hcache := { h with toFormed := h.toFormed.congr hcache }
  mem h := { h with toFormed := h.toFormed.congr h.cache }
  cut h hstart hstop hcut hmeets hinside :=
    h.cut hstart hstop hcut hmeets hinside
  shrink := by
    intro mm p start stop h hstart hstop hcut hmeets hinside start' stop' hcut'
      hmeets'
    have hp : p ∈ [p] := mem_singleton.mpr rfl
    rcases pages_shrink (h.whole p hp) (h.below p hp) hstart hstop hcut hmeets
      hinside with ⟨_, _, hle, hle'⟩
    unfold Vma.Meets at hmeets'
    have hend := hcut' ⟨by omega, by omega⟩
    omega
  self := by
    intro v _ hinside
    omega
  new := by
    intro mm mm' ps' size h hpos hfits hcreated
    have hzero : mm.totalVm = 0 := h.totalVm
    refine h.created hfits (by decide) (alignUp_mod size) hpos ?_ hcreated
    unfold pageSize
    omega

/-!
## New flags
-/

theorem has_two_pow (flags k : Nat) : has flags (2 ^ k) = flags.testBit k := by
  unfold has
  rw [Nat.and_two_pow]
  cases flags.testBit k <;> simp

theorem isLocked_eq (flags : Nat) : isLocked flags = flags.testBit 13 :=
  has_two_pow flags 13

theorem isShared_eq (flags : Nat) : isShared flags = flags.testBit 3 :=
  has_two_pow flags 3

theorem execOnly_eq (flags : Nat) :
    execOnly flags = (flags.testBit 2 && !flags.testBit 1) := by
  unfold execOnly
  rw [show vmExec = 2 ^ 2 from rfl, show vmWrite = 2 ^ 1 from rfl, has_two_pow,
    has_two_pow]

theorem testBit_without (flags mask k : Nat) :
    (without flags mask).testBit k = (flags.testBit k && !mask.testBit k) := by
  unfold without
  rw [Nat.testBit_xor, Nat.testBit_and]
  cases flags.testBit k with
  | false => rfl
  | true => cases mask.testBit k with
    | false => rfl
    | true => rfl

theorem testBit_whenHas {bit bits : Nat} (h : bits.testBit k = false) :
    (whenHas flags bit bits).testBit k = false := by
  unfold whenHas
  split
  case isTrue hhas => exact h
  case isFalse hhas => exact Nat.zero_testBit k

theorem testBit_mprotectFlags (hk : 3 <= k) (flags prot : Nat) :
    (mprotectFlags flags prot).testBit k = flags.testBit k := by
  have hbit : forall n, n < 8 -> n.testBit k = false := by
    intro n hn
    apply Nat.testBit_lt_two_pow
    exact Nat.lt_of_lt_of_le hn
      (Nat.pow_le_pow_right (show 0 < 2 by decide) hk)
  unfold mprotectFlags
  rw [Nat.testBit_or, Nat.testBit_or, Nat.testBit_or, testBit_without,
    hbit (vmRead ||| vmWrite ||| vmExec) (by decide),
    testBit_whenHas (hbit _ (by decide)),
    testBit_whenHas (hbit _ (by decide)), testBit_whenHas (hbit _ (by decide))]
  simp

theorem Accounted.reflag {lockedVm : Nat} (h : Accounted mm [p])
    (hlocked : lockedVm =
      ({ mm.vma p with flags := flags } : Vma).counted isLocked)
    (hshared : isShared flags = isShared (mm.vma p).flags)
    (hexec : execOnly flags = execOnly (mm.vma p).flags) :
    Accounted { mm.setVma p { mm.vma p with flags := flags } with
      lockedVm := lockedVm } [p] := by
  have hp : p ∈ [p] := mem_singleton.mpr rfl
  have hvma : (mm.setVma p { mm.vma p with flags := flags }).vma p =
      { mm.vma p with flags := flags } := update_self ..
  have htotal := h.totalVm
  have hshared' := h.sharedVm
  have hexec' := h.execVm
  have hwhole := h.whole p hp
  refine ⟨h.toFormed.congr h.cache, ?_, ?_, ?_, ?_, ?_, ?_, h.small⟩
  · exact forall_setVma ⟨hwhole.nonempty, hwhole.start, hwhole.stop⟩
  · exact forall_setVma (P := fun v => v.stop < 2 ^ 32) (h.below p hp)
  · rw [tally_singleton]
    show mm.totalVm = ((mm.setVma p _).vma p).counted _
    rw [hvma]
    exact htotal
  · show lockedVm = ((mm.setVma p _).vma p).counted _
    rw [hvma]
    exact hlocked
  · show mm.sharedVm = ((mm.setVma p _).vma p).counted _
    rw [hvma, hshared']
    unfold Vma.counted
    rw [hshared]
    rfl
  · show mm.execVm = ((mm.setVma p _).vma p).counted _
    rw [hvma, hexec']
    unfold Vma.counted
    rw [hexec]
    rfl

theorem overlap_inside (hwhole : v.Whole) (hbelow : v.stop < 2 ^ 32)
    (hinside : v.Inside start stop) :
    v.overlap start stop / pageSize = v.pages := by
  have hne := hwhole.nonempty
  unfold Vma.Inside at hinside
  have hsize : v.overlap start stop = v.stop - v.start := by
    unfold Vma.overlap sub32
    split <;> split <;> omega
  rw [hsize]
  rfl

/-!
## Runs
-/

def CountOk (mm : Mm) : Call -> Prop
  | Call.mmap addr size _ flags => alignUp size.toNat ≠ 0 ->
      mmapPlace addr.toNat flags.toNat + alignUp size.toNat < 2 ^ 32 ∧
        mm.totalVm + alignUp size.toNat / pageSize < 2 ^ 32
  | Call.munmap addr size => UnmapOk EndCut mm addr.toNat size.toNat
  | Call.brk _ => True
  | Call.mprotect addr size prot => forall p, Visits mm [p] ->
      (mm.vma p).Meets (alignDown addr.toNat)
        (rangeEnd addr.toNat size.toNat) ->
      execOnly (mprotectFlags (mm.vma p).flags prot.toNat) =
        execOnly (mm.vma p).flags
  | Call.mremap oldAddr oldSize newSize fixed newAddr =>
      RemapOk EndCut mm (alignDown oldAddr.toNat) (alignUp oldSize.toNat)
        (alignUp newSize.toNat) fixed (alignDown newAddr.toNat)
  | Call.mlock addr size => forall p, Visits mm [p] ->
      (mm.vma p).Meets (alignDown addr.toNat)
        (rangeEnd addr.toNat size.toNat) ->
      ¬ isLocked (mm.vma p).flags ->
      (mm.vma p).Inside (alignDown addr.toNat)
        (rangeEnd addr.toNat size.toNat)
  | Call.munlock addr size => forall p, Visits mm [p] ->
      (mm.vma p).Meets (alignDown addr.toNat)
        (rangeEnd addr.toNat size.toNat) ->
      isLocked (mm.vma p).flags ->
      (mm.vma p).Inside (alignDown addr.toNat)
        (rangeEnd addr.toNat size.toNat)

theorem Accounted.protect {prot : Nat} (h : Accounted mm [p])
    (hexec : execOnly (mprotectFlags (mm.vma p).flags prot) =
      execOnly (mm.vma p).flags) :
    Accounted (mm.setVma p
      { mm.vma p with flags := mprotectFlags (mm.vma p).flags prot }) [p] := by
  have hlocked := h.lockedVm
  rw [tally_singleton] at hlocked
  refine h.reflag ?_ ?_ hexec
  · rw [hlocked]
    unfold Vma.counted
    rw [isLocked_eq, isLocked_eq, testBit_mprotectFlags (by decide)]
    rfl
  · rw [isShared_eq, isShared_eq, testBit_mprotectFlags (by decide)]

theorem testBit_vmLocked : forall i, i < 4 -> vmLocked.testBit i = false := by
  decide

/-- A call that only sets or clears the flag of locked areas, on an area that lies
in its range. -/
theorem Accounted.relock (h : Accounted mm [p])
    (hinside : (mm.vma p).Inside start stop) (count : Nat -> Nat -> Nat)
    (hcount : count ((mm.vma p).counted isLocked) (mm.vma p).pages =
      ({ mm.vma p with flags := flags } : Vma).counted isLocked)
    (hlow : forall i, i < 4 -> flags.testBit i = (mm.vma p).flags.testBit i) :
    Accounted { mm.setVma p { mm.vma p with flags := flags } with
      lockedVm := count mm.lockedVm
        ((mm.vma p).overlap start stop / pageSize) } [p] := by
  have hp : p ∈ [p] := mem_singleton.mpr rfl
  have hlocked := h.lockedVm
  refine h.reflag ?_ ?_ ?_
  · rw [overlap_inside (h.whole p hp) (h.below p hp) hinside, hlocked]
    exact hcount
  · rw [isShared_eq, isShared_eq, hlow 3 (by decide)]
  · rw [execOnly_eq, execOnly_eq, hlow 2 (by decide), hlow 1 (by decide)]

theorem Accounted.lock (h : Accounted mm [p])
    (hunlocked : ¬ isLocked (mm.vma p).flags)
    (hinside : (mm.vma p).Inside start stop) :
    Accounted { mm.setVma p
        { mm.vma p with flags := (mm.vma p).flags ||| vmLocked } with
      lockedVm := add32 mm.lockedVm
        ((mm.vma p).overlap start stop / pageSize) } [p] := by
  refine h.relock hinside add32 ?_ fun i hi => ?_
  · unfold Vma.counted
    rw [if_neg hunlocked, isLocked_eq, Nat.testBit_or,
      show vmLocked.testBit 13 = true from rfl, Bool.or_true, if_pos rfl,
      add32_of_lt (by rw [Nat.zero_add]; exact h.pages_lt), Nat.zero_add]
    rfl
  · rw [Nat.testBit_or, testBit_vmLocked i hi, Bool.or_false]

theorem Accounted.unlock (h : Accounted mm [p])
    (hislocked : isLocked (mm.vma p).flags = true)
    (hinside : (mm.vma p).Inside start stop) :
    Accounted { mm.setVma p
        { mm.vma p with flags := without (mm.vma p).flags vmLocked } with
      lockedVm := sub32 mm.lockedVm
        ((mm.vma p).overlap start stop / pageSize) } [p] := by
  refine h.relock hinside sub32 ?_ fun i hi => ?_
  · unfold Vma.counted
    rw [if_pos hislocked, isLocked_eq, testBit_without,
      show vmLocked.testBit 13 = true from rfl, Bool.not_true, Bool.and_false,
      if_neg Bool.false_ne_true]
    have hsmall := h.pages_lt
    unfold sub32
    omega
  · rw [testBit_without, testBit_vmLocked i hi, Bool.not_false, Bool.and_true]

theorem Accounted.step {fuel : Nat} {call : Call} (h : Accounted mm ps)
    (hok : CountOk mm call) (hstep : step fuel mm call = some mm') :
    exists ps', Accounted mm' ps' := by
  have hformed := h.toFormed
  cases call
  all_goals
    rcases Option.map_eq_some_iff.mp hstep with ⟨⟨r, mm1⟩, hcall, rfl⟩
  case mmap addr size prot flags =>
    rcases vmmMmap_some hformed addr.toNat_lt hcall with
      ⟨_, mem, rfl⟩ | ⟨_, hpos, mm2, ps', hcreated, rfl⟩
    · exact ⟨ps, accounted_rules.mem h⟩
    · rcases hok hpos with ⟨hfits, htotal⟩
      exact ⟨ps', h.created hfits (mmapPlace_mod _ _) (alignUp_mod _) hpos
        htotal hcreated⟩
  case munmap addr size => exact ⟨ps, (accounted_rules.munmap h hok hcall).left⟩
  case brk brk =>
    rw [vmmBrk_some hformed brk.toNat_lt hcall]
    exact ⟨ps, h⟩
  case mprotect addr size prot =>
    rcases vmmMprotect_some hformed hcall with rfl | ⟨p, rfl, hmeets, rfl⟩
    · exact ⟨ps, h⟩
    · exact ⟨[p], h.protect (hok p h.visits hmeets)⟩
  case mremap oldAddr oldSize newSize fixed newAddr =>
    exact accounted_rules.mremap h hok hcall
  case mlock addr size =>
    rcases vmmMlock_some hformed hcall with
      rfl | ⟨p, rfl, ⟨hmeets, hlocked⟩, rfl⟩
    · exact ⟨ps, h⟩
    · exact ⟨[p], h.lock hlocked (hok p h.visits hmeets hlocked)⟩
  case munlock addr size =>
    rcases vmmMunlock_some hformed hcall with
      rfl | ⟨p, rfl, ⟨hmeets, hlocked⟩, rfl⟩
    · exact ⟨ps, h⟩
    · exact ⟨[p], h.unlock hlocked (hok p h.visits hmeets hlocked)⟩

/--
In every state that calls which meet the condition lead to, the counters are the
numbers of pages of the areas that they count.
-/
theorem counters_agree (mm : Mm) (h : Reachable CountOk mm) :
    exists ps, Accounted mm ps := by
  induction h with
  | create vma links mem =>
    refine ⟨[], formed_vmmCreateMm vma links mem, ?_, ?_, rfl, rfl, rfl, rfl,
      ?_⟩
    · intro p hp
      cases hp
    · intro p hp
      cases hp
    · show 0 < 2 ^ 32
      decide
  | call _ hok hstep ih =>
    rcases ih with ⟨ps, haccounted⟩
    exact haccounted.step hok hstep

theorem counters_agree_locked_pages :
    exists mm, mm.lockedVm = 2 ∧ exists ps, Accounted mm ps := by
  refine ⟨_, ?_, counters_agree _ (Reachable.call (Reachable.call
    (Reachable.create (fun _ => ⟨0, 0, 0⟩) (fun _ => ⟨none, none⟩) []) ?_
      (show step 1 emptyMm (Call.mmap 0 8192 3 0x22) = some _ from rfl)) ?_
    (show step 1 _ (Call.mlock 0x10000000 8192) = some _ from rfl))⟩
  · rfl
  · intro _
    decide
  · intro p hp _ _
    cases hp.unique (show Visits _ [0] from
      ⟨rfl, ⟨⟨rfl, rfl⟩, by decide⟩⟩)
    decide

/-- Protecting an area does not count its pages as executable. -/
theorem mprotect_leaves_exec_vm :
    exists mm, Reachable (fun _ _ => True) mm ∧ Visits mm [0] ∧
      execOnly (mm.vma 0).flags = true ∧ (mm.vma 0).pages = 2 ∧
      mm.execVm = 0 := by
  refine ⟨_, Reachable.call (Reachable.call
    (Reachable.create (fun _ => ⟨0, 0, 0⟩) (fun _ => ⟨none, none⟩) []) trivial
      (show step 1 emptyMm (Call.mmap 0 8192 3 0x22) = some _ from rfl)) trivial
    (show step 1 _ (Call.mprotect 0x10000000 8192 5) = some _ from rfl), ?_,
    ?_, ?_, ?_⟩
  · exact ⟨rfl, ⟨⟨rfl, rfl⟩, by decide⟩⟩
  · decide
  · decide
  · rfl

end Vmm
end Horizon
