import Horizon.Mm.Vmm.Areas

/-!
# The order of the areas

The areas of an address space are disjoint and linked in increasing order, as
long as each new mapping is put into free addresses and not before the first of
two or more areas, and no end of an area wraps round.
-/

namespace Horizon
namespace Vmm

open List LinkedList

/-- A nonempty interval of whole pages. -/
structure Vma.Whole (v : Vma) : Prop where
  nonempty : v.start < v.stop
  start : v.start % pageSize = 0
  stop : v.stop % pageSize = 0

/--
The areas are nonempty intervals of whole pages, each ends where the next starts
or before, and they are counted.
-/
structure Ordered (mm : Mm) (ps : List Nat) : Prop extends Formed mm ps where
  whole : forall p, p ∈ ps -> (mm.vma p).Whole
  sorted : ps.Pairwise fun p q => (mm.vma p).stop <= (mm.vma q).start

variable {mm mm' : Mm} {ps : List Nat} {p stop flags start : Nat}

/-!
## Cutting an area
-/

theorem forall_setVma {P : Vma -> Prop} {v : Vma} (h : P v) (q : Nat)
    (hq : q ∈ [p]) : P ((mm.setVma p v).vma q) := by
  obtain rfl : q = p := mem_singleton.mp hq
  show P (Function.update mm.vma q v q)
  rw [Function.update_self]
  exact h

theorem Vma.Whole.shrink {v : Vma} (h : v.Whole) (hstart : start % pageSize = 0)
    (hstop : stop % pageSize = 0) (hinside : ¬ v.Inside start stop) :
    (v.shrink start stop).Whole := by
  unfold Vma.Inside at hinside
  unfold Vma.shrink
  by_cases hbefore : v.start < start
  · simp only [if_pos hbefore]
    split
    case isTrue hafter => exact ⟨hafter, hstop, hstart⟩
    case isFalse hafter => exact ⟨hbefore, h.start, hstart⟩
  · simp only [if_neg hbefore]
    have hafter : v.stop > stop := by omega
    rw [if_pos hafter]
    exact ⟨hafter, hstop, h.stop⟩

theorem Ordered.cut (h : Ordered mm [p]) (hstart : start % pageSize = 0)
    (hstop : stop % pageSize = 0) (hinside : ¬ (mm.vma p).Inside start stop) :
    Ordered (mm.cut p start stop) [p] where
  toFormed := h.toFormed.congr h.cache
  whole := forall_setVma
    ((h.whole p (mem_singleton.mpr rfl)).shrink hstart hstop hinside)
  sorted := pairwise_singleton _ _

/-!
## Inserting an area
-/

theorem pairwise_insert {α : Type} {R : α -> α -> Prop} {l l' : List α} {a : α}
    (h : (l ++ l').Pairwise R) (hbefore : forall x, x ∈ l -> R x a)
    (hafter : forall y, y ∈ l' -> R a y) : (l ++ a :: l').Pairwise R := by
  rw [pairwise_append] at h ⊢
  rcases h with ⟨hl, hl', hcross⟩
  refine ⟨hl, pairwise_cons.mpr ⟨hafter, hl'⟩, ?_⟩
  intro x hx y hy
  rcases mem_cons.mp hy with rfl | hy
  · exact hbefore x hx
  · exact hcross x hx y hy

/--
The new area ends below the top of the address space, it overlaps no other one,
and it is not put before the first of two or more areas.
-/
structure MmapOk (mm : Mm) (place size : Nat) : Prop where
  fits : place + size < 2 ^ 32
  apart : forall ps, Visits mm ps -> forall p, p ∈ ps ->
    (mm.vma p).stop <= place ∨ place + size <= (mm.vma p).start
  notFront : forall first second rest,
    Visits mm (first :: second :: rest) -> (mm.vma first).start <= place

variable {ps' : List Nat} {place size : Nat}

section

variable (hcreated : Created mm ps place size flags mm' ps')
include hcreated

theorem Created.old (h : Formed mm ps) (hp : p ∈ ps) :
    mm'.vma p = mm.vma p := by
  have hlt := h.heap p hp
  rw [hcreated.vma, Function.update_of_ne (by omega)]

theorem Created.new (hfits : place + size < 2 ^ 32) :
    mm'.vma mm.heap = ⟨place, place + size, flags⟩ := by
  rw [hcreated.vma, Function.update_self, add32_of_lt hfits]

theorem Created.whole (h : Formed mm ps)
    (hwhole : forall p, p ∈ ps -> (mm.vma p).Whole)
    (hfits : place + size < 2 ^ 32) (hplace : place % pageSize = 0)
    (hsize : size % pageSize = 0) (hpos : size ≠ 0) (hp : p ∈ ps') :
    (mm'.vma p).Whole := by
  rcases mem_cons.mp (hcreated.inserted.perm.mem_iff.mp hp) with rfl | hold
  · rw [hcreated.new hfits]
    refine ⟨?_, hplace, ?_⟩
    · show place < place + size
      omega
    · show (place + size) % pageSize = 0
      unfold pageSize at *
      omega
  · rw [hcreated.old h hold]
    exact hwhole p hold

theorem Ordered.created (h : Ordered mm ps) (hok : MmapOk mm place size)
    (hplace : place % pageSize = 0) (hsize : size % pageSize = 0)
    (hpos : size ≠ 0) : Ordered mm' ps' := by
  have hfits := hok.fits
  have hapart := hok.apart ps h.visits
  have hvma : forall p, p ∈ ps -> mm'.vma p = mm.vma p :=
    fun p hp => hcreated.old h.toFormed hp
  have hnew := hcreated.new hfits
  have hnonempty : forall p, p ∈ ps -> (mm.vma p).start < (mm.vma p).stop :=
    fun p hp => (h.whole p hp).nonempty
  have hsorted : ps.Pairwise fun p q =>
      (mm'.vma p).stop <= (mm'.vma q).start := by
    refine h.sorted.imp_of_mem ?_
    intro p q hp hq hpq
    rw [hvma p hp, hvma q hq]
    exact hpq
  refine ⟨hcreated.formed, ?_, ?_⟩
  · intro p hp
    exact hcreated.whole h.toFormed h.whole hfits hplace hsize hpos hp
  · cases hcreated.inserted with
    | first => exact pairwise_singleton _ _
    | @front m rest hle =>
      have hmem : m ∈ m :: rest := mem_cons_self
      have hm := hapart m hmem
      have hne := hnonempty m hmem
      cases rest with
      | nil =>
        refine pairwise_pair.mpr ?_
        rw [hnew, hvma m hmem]
        show place + size <= _
        omega
      | cons second rest =>
        have hfront := hok.notFront m second rest h.visits
        omega
    | @after pre post x q hbelow hle =>
      have hq : q ∈ pre ++ x :: q :: post := by simp
      rw [append_cons pre x] at hsorted ⊢
      refine pairwise_insert hsorted ?_ ?_
      · intro y hy
        have hmem : y ∈ pre ++ x :: q :: post := by
          rw [append_cons pre x]
          exact mem_append_left _ hy
        have hy' := hapart y hmem
        have hlt := hbelow y hy
        rw [hnew, hvma y hmem]
        show _ <= place
        omega
      · intro y hy
        have hmem : y ∈ pre ++ x :: q :: post := by
          rw [append_cons pre x]
          exact mem_append_right _ hy
        have hq' := hapart q hq
        have hne := hnonempty q hq
        rw [hnew, hvma y hmem]
        show place + size <= _
        rcases mem_cons.mp hy with rfl | hy
        · omega
        · have hnext : (mm.vma q).stop <= (mm.vma y).start := by
            have hpair := (pairwise_append.mp h.sorted).2.1
            have htail := (pairwise_cons.mp hpair).2
            exact (pairwise_cons.mp htail).1 y hy
          omega

end

/-!
## Runs
-/

theorem Ordered.charge (h : Ordered mm ps) (flags size : Nat) :
    Ordered (mm.charge flags size) ps :=
  ⟨h.toFormed.congr h.cache, h.whole, h.sorted⟩

theorem ordered_rules : Rules (fun _ _ _ => True) Ordered where
  formed h := h.toFormed
  cache h hcache := ⟨h.toFormed.congr hcache, h.whole, h.sorted⟩
  mem h := ⟨h.toFormed.congr h.cache, h.whole, h.sorted⟩
  cut h hstart hstop _ _ hinside := h.cut hstart hstop hinside
  shrink _ _ _ _ _ _ _ _ _ := trivial
  self _ := trivial
  new := by
    intro mm mm' ps' size h hpos hfits hcreated
    refine Ordered.charge (h.created hcreated ⟨hfits, ?_, ?_⟩ (by decide)
      (alignUp_mod size) hpos) _ _
    · intro ps hvisits p hp
      cases hvisits.unique h.visits
      cases hp
    · intro first second rest hvisits
      cases hvisits.unique h.visits

theorem Ordered.reflag {lockedVm : Nat} (h : Ordered mm [p]) :
    Ordered { mm.setVma p { mm.vma p with flags := flags } with
      lockedVm := lockedVm } [p] := by
  have hwhole := h.whole p (mem_singleton.mpr rfl)
  exact ⟨h.toFormed.congr h.cache, forall_setVma
    ⟨hwhole.nonempty, hwhole.start, hwhole.stop⟩, pairwise_singleton _ _⟩

def PlaceOk (mm : Mm) : Call -> Prop
  | Call.mmap addr size _ flags => alignUp size.toNat ≠ 0 ->
      MmapOk mm (mmapPlace addr.toNat flags.toNat) (alignUp size.toNat)
  | Call.mremap oldAddr oldSize newSize fixed newAddr =>
      RemapOk (fun _ _ _ => True) mm (alignDown oldAddr.toNat)
        (alignUp oldSize.toNat) (alignUp newSize.toNat) fixed
        (alignDown newAddr.toNat)
  | _ => True

theorem Ordered.step {fuel : Nat} {call : Call} (h : Ordered mm ps)
    (hok : PlaceOk mm call) (hstep : step fuel mm call = some mm') :
    exists ps', Ordered mm' ps' := by
  have hformed := h.toFormed
  cases call
  all_goals
    rcases Option.map_eq_some_iff.mp hstep with ⟨⟨r, mm1⟩, hcall, rfl⟩
  case mmap addr size prot flags =>
    rcases vmmMmap_some hformed addr.toNat_lt hcall with
      ⟨_, mem, rfl⟩ | ⟨_, hpos, mm2, ps', hcreated, rfl⟩
    · exact ⟨ps, ordered_rules.mem h⟩
    · exact ⟨ps', (h.created hcreated (hok hpos) (mmapPlace_mod _ _)
        (alignUp_mod _) hpos).charge _ _⟩
  case munmap addr size =>
    exact ⟨ps, (ordered_rules.munmap h (fun _ _ => trivial) hcall).left⟩
  case brk brk =>
    rw [vmmBrk_some hformed brk.toNat_lt hcall]
    exact ⟨ps, h⟩
  case mprotect addr size prot =>
    rcases vmmMprotect_some hformed hcall with rfl | ⟨p, rfl, _, rfl⟩
    · exact ⟨ps, h⟩
    · exact ⟨[p], h.reflag⟩
  case mremap oldAddr oldSize newSize fixed newAddr =>
    exact ordered_rules.mremap h hok hcall
  case mlock addr size =>
    rcases vmmMlock_some hformed hcall with rfl | ⟨p, rfl, _, rfl⟩
    · exact ⟨ps, h⟩
    · exact ⟨[p], h.reflag⟩
  case munlock addr size =>
    rcases vmmMunlock_some hformed hcall with rfl | ⟨p, rfl, _, rfl⟩
    · exact ⟨ps, h⟩
    · exact ⟨[p], h.reflag⟩

/--
In every state that calls which meet the condition lead to, the areas are
disjoint and in increasing order, and they are counted.
-/
theorem areas_ordered (mm : Mm) (h : Reachable PlaceOk mm) :
    exists ps, Ordered mm ps := by
  induction h with
  | create vma links mem =>
    refine ⟨[], formed_vmmCreateMm vma links mem, ?_, List.Pairwise.nil⟩
    intro p hp
    cases hp
  | call _ hok hstep ih =>
    rcases ih with ⟨ps, hordered⟩
    exact hordered.step hok hstep

def emptyMm : Mm :=
  vmmCreateMm (fun _ => ⟨0, 0, 0⟩) (fun _ => ⟨none, none⟩) []

def fixedPage (addr : UInt32) : Call := Call.mmap addr 4096 3 0x32

theorem areas_ordered_two_pages :
    exists mm, Visits mm [1, 0] ∧ exists ps, Ordered mm ps := by
  refine ⟨_, ?_, areas_ordered _ (Reachable.call (Reachable.call
    (Reachable.create (fun _ => ⟨0, 0, 0⟩) (fun _ => ⟨none, none⟩) []) ?_
      (show step 1 emptyMm (fixedPage 0x20000000) = some _ from rfl)) ?_
    (show step 1 _ (fixedPage 0x10000000) = some _ from rfl))⟩
  · exact ⟨rfl, ⟨⟨⟨rfl, rfl⟩, rfl, rfl⟩, by decide⟩⟩
  · intro _
    refine ⟨by decide, ?_, ?_⟩
    · intro ps hvisits p hp
      have hnil : Visits emptyMm [] := rfl
      cases hvisits.unique hnil
      cases hp
    · intro first second rest hvisits
      have hnil : Visits emptyMm [] := rfl
      cases hvisits.unique hnil
  · intro _
    refine ⟨by decide, ?_, ?_⟩
    · intro ps hvisits p hp
      cases hvisits.unique (show Visits _ [0] from
        ⟨rfl, ⟨⟨rfl, rfl⟩, by decide⟩⟩)
      cases mem_singleton.mp hp
      decide
    · intro first second rest hvisits
      cases hvisits.unique (show Visits _ [0] from
        ⟨rfl, ⟨⟨rfl, rfl⟩, by decide⟩⟩)

/-- Without a fixed address, every mapping is put at the same place. -/
theorem plain_mappings_overlap :
    exists mm, Reachable (fun _ _ => True) mm ∧ Visits mm [1, 0] ∧
      (mm.vma 0).start < (mm.vma 1).stop ∧
      (mm.vma 1).start < (mm.vma 0).stop := by
  refine ⟨_, Reachable.call (Reachable.call
    (Reachable.create (fun _ => ⟨0, 0, 0⟩) (fun _ => ⟨none, none⟩) []) trivial
      (show step 1 emptyMm (Call.mmap 0 4096 3 0x22) = some _ from rfl)) trivial
    (show step 1 _ (Call.mmap 0 4096 3 0x22) = some _ from rfl), ?_, ?_, ?_⟩
  · exact ⟨rfl, ⟨⟨⟨rfl, rfl⟩, rfl, rfl⟩, by decide⟩⟩
  · decide
  · decide

end Vmm
end Horizon
