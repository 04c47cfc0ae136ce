import Horizon.Lib.Intervals

/-!
# The early memory map

This module follows `early_mm_add_region`, `early_mm_reserve_kernel` and
`early_mm_reserve_modules` of `mm/early.c`: the regions of the multiboot memory
map, from which the ranges of the kernel and of the modules are split off.
-/

namespace Horizon
namespace Early

open List Intervals

def regionAvailable : Nat := 1

def regionKernel : Nat := 6

def regionModules : Nat := 7

structure Region where
  start : Nat
  size : Nat
  type : Nat
deriving DecidableEq

def Region.span (r : Region) : Interval where
  start := r.start
  size := r.size

/--
The variables of `early.c`.  `mem` holds the outcomes of the coming calls
of `early_mm_allocator_alloc`, `true` for a failure.
-/
structure State where
  regions : List Region
  regionCount : Nat
  totalMemory : Nat
  availableMemory : Nat
  mem : List Bool

def init (mem : List Bool) : State where
  regions := []
  regionCount := 0
  totalMemory := 0
  availableMemory := 0
  mem := mem

def earlyMmAddRegion (s : State) (start size type : Nat) : State :=
  if s.mem.headD false then { s with mem := s.mem.tail }
  else
    { regions := s.regions ++ [{ start := start, size := size, type := type }]
      regionCount := (s.regionCount + 1) % 2 ^ 32
      totalMemory := (s.totalMemory + size) % 2 ^ 64
      availableMemory :=
        if type = regionAvailable then (s.availableMemory + size) % 2 ^ 64
        else s.availableMemory
      mem := s.mem.tail }

def findRegion (start size : Nat) : List Region -> Nat -> Option (Nat × Region)
  | [], _ => none
  | r :: rest, k =>
      if r.type = regionAvailable ∧ start >= r.start ∧
          (start + size) % 2 ^ 64 <= (r.start + r.size) % 2 ^ 64 then
        some (k, r)
      else findRegion start size rest (k + 1)

/--
The common body of the two functions that reserve a range.  The pieces before
and after it are appended to the list before the region is overwritten.
-/
def reserveRange (s : State) (start stop type : Nat) : State :=
  let size := (stop + 2 ^ 64 - start) % 2 ^ 64
  match findRegion start size s.regions 0 with
  | none => s
  | some (k, r) =>
      let s :=
        if start > r.start then
          earlyMmAddRegion s r.start (start - r.start) regionAvailable
        else s
      let after := (start + size) % 2 ^ 64
      let rEnd := (r.start + r.size) % 2 ^ 64
      let s :=
        if after < rEnd then
          earlyMmAddRegion s after (rEnd - after) regionAvailable
        else s
      { s with
        regions := s.regions.set k { start := start, size := size, type := type }
        availableMemory := (s.availableMemory + 2 ^ 64 - size) % 2 ^ 64 }

def earlyMmReserveKernel (s : State) (start stop : Nat) : State :=
  reserveRange s start stop regionKernel

/-- A module is given by `mod_start` and `mod_end`. -/
def earlyMmReserveModules (s : State) (mods : List (Nat × Nat)) : State :=
  mods.foldl (fun s mod => reserveRange s mod.1 mod.2 regionModules) s

def addRegions (s : State) (map : List Region) : State :=
  map.foldl (fun s r => earlyMmAddRegion s r.start r.size r.type) s

/-- The part of `early_mm_init` that builds the memory map. -/
def buildMap (mem : List Bool) (map : List Region) (kernel : Nat × Nat)
    (mods : List (Nat × Nat)) : State :=
  earlyMmReserveModules
    (earlyMmReserveKernel (addRegions (init mem) map) kernel.1 kernel.2) mods

/-!
## Accounts
-/

def State.spans (s : State) : List Interval := s.regions.map Region.span

def availableSize (l : List Region) : Nat :=
  total ((l.filter fun r => r.type = regionAvailable).map Region.span)

structure Accounted (s : State) : Prop where
  apart : s.spans.Pairwise Interval.Apart
  below : forall i, i ∈ s.spans -> i.start + i.size < 2 ^ 64
  total : s.totalMemory = total s.spans
  available : s.availableMemory = availableSize s.regions

theorem availableSize_append (l l' : List Region) :
    availableSize (l ++ l') = availableSize l + availableSize l' := by
  unfold availableSize
  rw [filter_append, map_append, total_append]

theorem availableSize_le (l : List Region) :
    availableSize l <= total (l.map Region.span) := by
  induction l with
  | nil => exact Nat.le_refl 0
  | cons r l ih =>
    unfold availableSize at ih ⊢
    by_cases havail : r.type = regionAvailable
    · rw [filter_cons_of_pos (by simp [havail])]
      simp only [map_cons, Intervals.total, sum_cons] at ih ⊢
      omega
    · rw [filter_cons_of_neg (by simp [havail])]
      simp only [map_cons, Intervals.total, sum_cons] at ih ⊢
      omega

theorem total_lt {l : List Interval} (h : l.Pairwise Interval.Apart)
    (hbelow : forall i, i ∈ l -> i.start + i.size < 2 ^ 64) :
    total l < 2 ^ 64 := by
  have hle := total_le (2 ^ 64 - 1) h (by
    intro i hi
    have hlt := hbelow i hi
    omega)
  omega

def AddOk (s : State) (size : Nat) : Prop :=
  s.mem.headD false = false ∨ size = 0

instance (s : State) (size : Nat) : Decidable (AddOk s size) :=
  inferInstanceAs (Decidable (_ ∨ _))

theorem earlyMmAddRegion_accounted {s : State} {r : Region} (h : Accounted s)
    (hok : AddOk s r.size)
    (hapart : (s.spans ++ [r.span]).Pairwise Interval.Apart)
    (hbelow : r.start + r.size < 2 ^ 64) :
    Accounted (earlyMmAddRegion s r.start r.size r.type) ∧
    ((earlyMmAddRegion s r.start r.size r.type).spans = s.spans ++ [r.span] ∨
      (earlyMmAddRegion s r.start r.size r.type).spans = s.spans ∧
        r.size = 0) := by
  unfold earlyMmAddRegion
  cases hmem : s.mem.headD false with
  | true =>
    have hempty : r.size = 0 := by
      rcases hok with hgood | hempty
      · rw [hmem] at hgood
        cases hgood
      · exact hempty
    exact ⟨{ h with }, Or.inr ⟨rfl, hempty⟩⟩
  | false =>
    have hspans : (s.regions ++ [r]).map Region.span =
        s.spans ++ [r.span] := by
      rw [map_append]
      rfl
    have hbelow' : forall i, i ∈ s.spans ++ [r.span] ->
        i.start + i.size < 2 ^ 64 := by
      intro i hi
      rcases mem_append.mp hi with hold | hnew
      · exact h.below i hold
      · rw [mem_singleton.mp hnew]
        exact hbelow
    have htotal : Intervals.total (s.spans ++ [r.span]) =
        s.totalMemory + r.size := by
      rw [total_append, ← h.total]
      simp [Intervals.total, Region.span]
    have hlt := total_lt hapart hbelow'
    have havail := availableSize_le (s.regions ++ [r])
    rw [hspans] at havail
    refine ⟨⟨?_, ?_, ?_, ?_⟩, Or.inl hspans⟩
    · show ((s.regions ++ [r]).map Region.span).Pairwise Interval.Apart
      rw [hspans]
      exact hapart
    · show forall i, i ∈ (s.regions ++ [r]).map Region.span -> _
      rw [hspans]
      exact hbelow'
    · show (s.totalMemory + r.size) % 2 ^ 64 =
        Intervals.total ((s.regions ++ [r]).map Region.span)
      rw [hspans, htotal, Nat.mod_eq_of_lt (by omega)]
    · show (if r.type = regionAvailable then
          (s.availableMemory + r.size) % 2 ^ 64 else s.availableMemory) =
        availableSize (s.regions ++ [r])
      have hone : availableSize [r] =
          if r.type = regionAvailable then r.size else 0 := by
        unfold availableSize
        by_cases htype : r.type = regionAvailable
        · simp [htype, Intervals.total, Region.span]
        · simp [htype, Intervals.total]
      rw [availableSize_append, hone, ← h.available] at havail ⊢
      by_cases htype : r.type = regionAvailable
      · rw [if_pos htype] at havail ⊢
        rw [if_pos htype, Nat.mod_eq_of_lt (by omega)]
      · rw [if_neg htype, if_neg htype, Nat.add_zero]

def AddsOk : State -> List Region -> Prop
  | _, [] => True
  | s, r :: map => AddOk s r.size ∧
      AddsOk (earlyMmAddRegion s r.start r.size r.type) map

theorem covered_skip {l : List Interval} {i : Interval} (hempty : i.size = 0)
    (l' : List Interval) (b : Nat) :
    Covered (l ++ l') b <-> Covered (l ++ i :: l') b := by
  have hnone : ¬ i.Has b := by
    rintro ⟨hle, hlt⟩
    omega
  rw [covered_append, show i :: l' = [i] ++ l' from rfl, covered_append,
    covered_append, covered_singleton]
  tauto

theorem addRegions_accounted {s : State} {map : List Region} (h : Accounted s)
    (hok : AddsOk s map)
    (hapart : (s.spans ++ map.map Region.span).Pairwise Interval.Apart)
    (hbelow : forall r, r ∈ map -> r.start + r.size < 2 ^ 64) :
    Accounted (addRegions s map) ∧
      forall b, Covered (addRegions s map).spans b <->
        Covered (s.spans ++ map.map Region.span) b := by
  induction map generalizing s with
  | nil =>
    refine ⟨h, ?_⟩
    intro b
    rw [map_nil, append_nil]
    exact Iff.rfl
  | cons r map ih =>
    have hfirst : (s.spans ++ [r.span]).Pairwise Interval.Apart := by
      apply List.Pairwise.sublist _ hapart
      exact List.Sublist.append_left
        (List.Sublist.cons_cons _ (nil_sublist _)) _
    have hrest : (s.spans ++ map.map Region.span).Pairwise
        Interval.Apart := by
      apply List.Pairwise.sublist _ hapart
      exact List.Sublist.append_left (sublist_cons_self _ _) _
    rcases earlyMmAddRegion_accounted h hok.left hfirst
      (hbelow r mem_cons_self) with ⟨hadded, hspans⟩
    obtain ⟨s1, hs1⟩ : exists t, t =
      earlyMmAddRegion s r.start r.size r.type := ⟨_, rfl⟩
    have hrun : addRegions s (r :: map) = addRegions s1 map := by
      rw [hs1]
      rfl
    rw [← hs1] at hadded hspans
    have hok1 : AddsOk s1 map := by
      rw [hs1]
      exact hok.right
    have hbelow1 : forall r', r' ∈ map -> r'.start + r'.size < 2 ^ 64 :=
      fun r' hr' => hbelow r' (mem_cons_of_mem r hr')
    rw [hrun]
    rcases hspans with hgrown | ⟨hsame, hempty⟩
    · rcases ih hadded hok1 (by
          rw [hgrown, append_assoc]
          exact hapart) hbelow1 with ⟨hdone, hcover⟩
      refine ⟨hdone, ?_⟩
      intro b
      rw [hcover b, hgrown, append_assoc]
      rfl
    · rcases ih hadded hok1 (by rw [hsame]; exact hrest) hbelow1 with
        ⟨hdone, hcover⟩
      refine ⟨hdone, ?_⟩
      intro b
      rw [hcover b, hsame]
      exact covered_skip hempty _ b

/-!
## Reserving a range
-/

theorem findRegion_some {start size k k' : Nat} {r : Region} {l : List Region}
    (h : findRegion start size l k = some (k', r)) :
    k <= k' ∧ l[k' - k]? = some r ∧ r.type = regionAvailable := by
  induction l generalizing k with
  | nil => cases h
  | cons x l ih =>
    unfold findRegion at h
    split at h
    case isTrue hx =>
      cases h
      refine ⟨Nat.le_refl _, ?_, hx.left⟩
      rw [Nat.sub_self]
      rfl
    case isFalse hx =>
      rcases ih h with ⟨hle, hget, htype⟩
      refine ⟨by omega, ?_, htype⟩
      rw [show k' - k = (k' - (k + 1)) + 1 by omega, List.getElem?_cons_succ]
      exact hget

theorem map_span_set {l : List Region} {k : Nat} {r r' : Region}
    (hget : l[k]? = some r) (hspan : r'.span = r.span) :
    (l.set k r').map Region.span = l.map Region.span := by
  induction l generalizing k with
  | nil => rfl
  | cons x l ih =>
    cases k with
    | zero =>
      cases hget
      simp [hspan]
    | succ k => rw [set_cons_succ, map_cons, map_cons, ih hget]

theorem availableSize_set {l : List Region} {k : Nat} {r : Region} (r' : Region)
    (hget : l[k]? = some r) (htype : r.type = regionAvailable)
    (htype' : r'.type ≠ regionAvailable) :
    availableSize (l.set k r') + r.size = availableSize l := by
  induction l generalizing k with
  | nil => cases hget
  | cons x l ih =>
    cases k with
    | zero =>
      cases hget
      unfold availableSize
      rw [set_cons_zero, filter_cons_of_neg (by simp [htype']),
        filter_cons_of_pos (by simp [htype])]
      simp [Intervals.total, Region.span, Nat.add_comm]
    | succ k =>
      have hrest := ih hget
      rw [set_cons_succ, show x :: l.set k r' = [x] ++ l.set k r' from
        rfl, show x :: l = [x] ++ l from rfl, availableSize_append,
        availableSize_append]
      omega

/-- A region that contains the range consists of nothing else. -/
def ReserveOk (s : State) (start stop : Nat) : Prop :=
  forall k r, findRegion start ((stop + 2 ^ 64 - start) % 2 ^ 64) s.regions 0 =
    some (k, r) -> r.start = start ∧ r.start + r.size = stop

theorem reserveRange_accounted {s : State} {start stop type : Nat}
    (h : Accounted s) (hok : ReserveOk s start stop)
    (htype : type ≠ regionAvailable) :
    Accounted (reserveRange s start stop type) ∧
      (reserveRange s start stop type).spans = s.spans := by
  unfold reserveRange
  simp only
  cases hfind : findRegion start ((stop + 2 ^ 64 - start) % 2 ^ 64) s.regions
      0 with
  | none => exact ⟨h, rfl⟩
  | some found =>
    obtain ⟨k, r⟩ := found
    rcases hok k r hfind with ⟨hstart, hstop⟩
    rcases findRegion_some hfind with ⟨_, hget, havail⟩
    rw [Nat.sub_zero] at hget
    have hmem : r.span ∈ s.spans :=
      mem_map.mpr ⟨r, mem_of_getElem? hget, rfl⟩
    have hbelow : r.start + r.size < 2 ^ 64 := h.below _ hmem
    have hsize : (stop + 2 ^ 64 - start) % 2 ^ 64 = r.size := by omega
    -- the range is the whole region, so that no piece is split off
    have hbefore : ¬ start > r.start := by omega
    have hafter : ¬ (start + r.size) % 2 ^ 64 <
        (r.start + r.size) % 2 ^ 64 := by
      rw [hstart]
      exact Nat.lt_irrefl _
    simp only [hsize, if_neg hbefore, if_neg hafter]
    have hspan : (Region.mk start r.size type).span = r.span := by
      unfold Region.span
      rw [hstart]
    have hspans := map_span_set hget hspan
    have hset := availableSize_set (Region.mk start r.size type) hget havail
      htype
    have hle := availableSize_le s.regions
    have hlt := total_lt h.apart h.below
    have hlt' : Intervals.total (s.regions.map Region.span) < 2 ^ 64 := hlt
    refine ⟨⟨?_, ?_, ?_, ?_⟩, hspans⟩
    · show ((s.regions.set k _).map Region.span).Pairwise Interval.Apart
      rw [hspans]
      exact h.apart
    · show forall i, i ∈ (s.regions.set k _).map Region.span -> _
      rw [hspans]
      exact h.below
    · show s.totalMemory = Intervals.total ((s.regions.set k _).map
        Region.span)
      rw [hspans]
      exact h.total
    · show (s.availableMemory + 2 ^ 64 - r.size) % 2 ^ 64 =
        availableSize (s.regions.set k _)
      rw [h.available]
      omega

def ModulesOk : State -> List (Nat × Nat) -> Prop
  | _, [] => True
  | s, mod :: mods => ReserveOk s mod.1 mod.2 ∧
      ModulesOk (reserveRange s mod.1 mod.2 regionModules) mods

theorem earlyMmReserveModules_accounted {s : State} {mods : List (Nat × Nat)}
    (h : Accounted s) (hok : ModulesOk s mods) :
    Accounted (earlyMmReserveModules s mods) ∧
      (earlyMmReserveModules s mods).spans = s.spans := by
  induction mods generalizing s with
  | nil => exact ⟨h, rfl⟩
  | cons mod mods ih =>
    rcases reserveRange_accounted h hok.left
      (show regionModules ≠ regionAvailable by decide) with ⟨hstep, hspans⟩
    rcases ih hstep hok.right with ⟨hrun, hsame⟩
    exact ⟨hrun, hsame.trans hspans⟩

/--
The record of every nonempty region of the map is allocated, and each range
that lies in an available region is the whole of it.
-/
def BuildOk (mem : List Bool) (map : List Region) (kernel : Nat × Nat)
    (mods : List (Nat × Nat)) : Prop :=
  AddsOk (init mem) map ∧
  ReserveOk (addRegions (init mem) map) kernel.1 kernel.2 ∧
  ModulesOk (earlyMmReserveKernel (addRegions (init mem) map) kernel.1
    kernel.2) mods

/--
The regions stay disjoint, cover the bytes of the map, and are what the two
totals count.
-/
theorem memory_map_conserved (mem : List Bool) (map : List Region)
    (kernel : Nat × Nat) (mods : List (Nat × Nat))
    (hapart : (map.map Region.span).Pairwise Interval.Apart)
    (hbelow : forall r, r ∈ map -> r.start + r.size < 2 ^ 64)
    (hok : BuildOk mem map kernel mods) :
    (buildMap mem map kernel mods).spans.Pairwise Interval.Apart ∧
    (forall b, Covered (buildMap mem map kernel mods).spans b <->
      Covered (map.map Region.span) b) ∧
    (buildMap mem map kernel mods).totalMemory =
      total (buildMap mem map kernel mods).spans ∧
    (buildMap mem map kernel mods).availableMemory =
      availableSize (buildMap mem map kernel mods).regions := by
  rcases hok with ⟨hadds, hkernel, hmods⟩
  have hinit : Accounted (init mem) := by
    refine ⟨List.Pairwise.nil, ?_, rfl, rfl⟩
    intro i hi
    cases hi
  rcases addRegions_accounted hinit hadds hapart hbelow with ⟨hadded, hcover⟩
  rcases reserveRange_accounted hadded hkernel
    (show regionKernel ≠ regionAvailable by decide) with ⟨hreserved, hspans⟩
  rcases earlyMmReserveModules_accounted hreserved hmods with ⟨hdone, hsame⟩
  refine ⟨hdone.apart, ?_, hdone.total, hdone.available⟩
  intro b
  have hall : (buildMap mem map kernel mods).spans =
    (addRegions (init mem) map).spans := hsame.trans hspans
  rw [hall, hcover b]
  exact Iff.rfl

def twoRegions : List Region :=
  [{ start := 0, size := 0x9F000, type := regionAvailable },
    { start := 0x100000, size := 0x700000, type := regionAvailable }]

theorem memory_map_conserved_whole_regions :
    (buildMap [] twoRegions (0x100000, 0x800000) [(0, 0x9F000)]).totalMemory =
      total (buildMap [] twoRegions (0x100000, 0x800000)
        [(0, 0x9F000)]).spans := by
  have hapart : (twoRegions.map Region.span).Pairwise Interval.Apart := by
    simp only [twoRegions, map_cons, map_nil, pairwise_cons,
      mem_singleton, forall_eq]
    refine ⟨?_, ?_, List.Pairwise.nil⟩
    · rintro b ⟨⟨_, hlt⟩, ⟨hle, _⟩⟩
      simp only [Region.span] at hlt hle
      omega
    · intro i hi
      cases hi
  have hok : BuildOk [] twoRegions (0x100000, 0x800000) [(0, 0x9F000)] := by
    refine ⟨⟨by decide, by decide, trivial⟩, ?_, ?_, trivial⟩
    · intro k r hfind
      have hregion : findRegion 0x100000 ((0x800000 + 2 ^ 64 - 0x100000) %
          2 ^ 64) (addRegions (init []) twoRegions).regions 0 =
          some (1, ⟨0x100000, 0x700000, regionAvailable⟩) := by
        decide +kernel
      rw [hregion] at hfind
      cases hfind
      decide
    · intro k r hfind
      have hregion : findRegion 0 ((0x9F000 + 2 ^ 64 - 0) % 2 ^ 64)
          (earlyMmReserveKernel (addRegions (init []) twoRegions) 0x100000
            0x800000).regions 0 = some (0, ⟨0, 0x9F000, regionAvailable⟩) := by
        decide +kernel
      rw [hregion] at hfind
      cases hfind
      decide
  exact (memory_map_conserved [] twoRegions (0x100000, 0x800000)
    [(0, 0x9F000)] hapart (by decide) hok).right.right.left

/--
`early_mm_add_region` counts the pieces before and after the kernel again,
although the region they come from is counted already.
-/
theorem split_counts_pieces_twice :
    (buildMap [] twoRegions (0x200000, 0x300000) []).totalMemory =
        0x79F000 + 0x600000 ∧
      total (buildMap [] twoRegions (0x200000, 0x300000) []).spans =
        0x79F000 := by
  constructor
  · decide +kernel
  · decide +kernel

end Early
end Horizon
