import Horizon.Mm.Pmm.Blocks

/-!
# Runs of the buddy allocator

The allocator is booted from an arbitrary page frame array and a list of
available ranges, and then serves an arbitrary sequence of allocations and
frees.  A free names one of the outstanding blocks, so every sequence of calls
is one the allocator's contract allows.
-/

namespace Horizon
namespace Pmm

open Function List LinkedList
open Tilings

/-!
## Booting
-/

/-- `pmm_init` followed by `pmm_init_memmap` on each available range. -/
def boot (F : PageFlagOps) (s : State) (ranges : List (Nat × Nat)) :
    Option State :=
  ranges.foldlM (fun s r => pmmInitMemmap F s r.1 r.2) (pmmInit s)

def InRange (r : Nat × Nat) (x : Nat) : Prop := r.1 <= x ∧ x < r.2

instance (r : Nat × Nat) (x : Nat) : Decidable (InRange r x) :=
  inferInstanceAs (Decidable (_ ∧ _))

def Available (count : Nat) (ranges : List (Nat × Nat)) (x : Nat) : Prop :=
  x < count ∧ exists r, r ∈ ranges ∧ InRange r x

instance (count : Nat) (ranges : List (Nat × Nat)) (x : Nat) :
    Decidable (Available count ranges x) :=
  inferInstanceAs (Decidable (_ ∧ _))

def DisjointRanges (r t : Nat × Nat) : Prop :=
  forall x, InRange r x -> ¬ InRange t x

theorem pmmInitAreas_rings (n : Nat) (s : State) {i : Nat} (hi : i < n) :
    Ring (pmmInitAreas n s).links (.area i) [] := by
  induction n with
  | zero => omega
  | succ n ih =>
    unfold pmmInitAreas
    by_cases hin : i = n
    · subst hin
      exact ring_listInit _ _
    · apply (ih (by omega)).congr
      intro m hm
      have hne : m ≠ .area n := by
        intro heq
        rw [mem_singleton.mp hm] at heq
        cases heq
        exact hin rfl
      exact listInit_frame hne

theorem pmmInitFrames_area (n : Nat) (s : State) (i : Nat) :
    (pmmInitFrames n s).links (.area i) = s.links (.area i) := by
  induction n with
  | zero => rfl
  | succ n ih =>
    unfold pmmInitFrames
    exact ih

theorem pmmInitFrames_page (n : Nat) (s : State) {x : Nat} (hx : x < n) :
    (pmmInitFrames n s).pageFrames x = { flags := 0, order := 0 } := by
  induction n with
  | zero => omega
  | succ n ih =>
    unfold pmmInitFrames
    rw [pageFrames_setLinks]
    by_cases hxn : x = n
    · subst hxn
      simp [State.setPage]
    · simp only [State.setPage]
      rw [update_of_ne hxn]
      exact ih (by omega)

theorem pmmInitFrames_counters (n : Nat) (s : State) :
    (pmmInitFrames n s).freePages = s.freePages ∧
      (pmmInitFrames n s).pageFramesCount = s.pageFramesCount := by
  induction n with
  | zero => exact ⟨rfl, rfl⟩
  | succ n ih => exact ih

theorem pmmInitAreas_counters (n : Nat) (s : State) :
    (pmmInitAreas n s).freePages = s.freePages ∧
      (pmmInitAreas n s).pageFramesCount = s.pageFramesCount := by
  induction n with
  | zero => exact ⟨rfl, rfl⟩
  | succ n ih => exact ih

theorem freeBlocks_nil : freeBlocks (fun _ => []) = [] := by
  simp [freeBlocks]

theorem pmmInit_spec (F : PageFlagOps) (s : State) :
    BuddyInv F (fun _ => 0) (pmmInit s) (fun _ => []) [] [] ∧
      (forall x, x < s.pageFramesCount ->
        ((pmmInit s).pageFrames x).order = 0) ∧
      (pmmInit s).pageFramesCount = s.pageFramesCount := by
  have hareas := pmmInitAreas_counters 11
    (((s.setTotalPages 0).setFreePages 0).setReservedPages 0)
  obtain ⟨s1, hs1⟩ : exists t, t = pmmInitAreas 11
      (((s.setTotalPages 0).setFreePages 0).setReservedPages 0) := ⟨_, rfl⟩
  have hrings : forall i : Fin 11, Ring s1.links (.area i) [] := by
    intro i
    rw [hs1]
    exact pmmInitAreas_rings 11 _ i.isLt
  have hinit : pmmInit s = pmmInitFrames s1.pageFramesCount s1 := by
    rw [hs1]
    rfl
  rw [← hs1] at hareas
  rw [hinit]
  have hframes := pmmInitFrames_counters s1.pageFramesCount s1
  have hpages := fun x hx =>
    pmmInitFrames_page s1.pageFramesCount s1 (x := x) hx
  have hcount : s1.pageFramesCount = s.pageFramesCount := hareas.right
  refine ⟨⟨⟨?_, ?_, ?_, ?_⟩, ⟨?_, ?_, ?_, ?_, ?_⟩, ?_, ?_, ?_, ?_⟩, ?_, ?_⟩
  · intro i
    apply (hrings i).congr
    intro m hm
    rw [mem_singleton.mp hm]
    exact pmmInitFrames_area _ _ _
  · intro i j heq
    exact Fin.ext (Node.area.inj heq)
  · intro i j hmem
    cases hmem
  · intro i j m hmem
    cases hmem
  · intro b hb
    simp [freeBlocks_nil] at hb
  · intro b hb
    simp [freeBlocks_nil] at hb
  · intro x
    simp [freeBlocks_nil, coverCount]
  · intro x
    exact Nat.zero_le 1
  · intro b hb
    simp [freeBlocks_nil] at hb
  · intro b hb
    cases hb
  · intro k p hp
    cases hp
  · intro x hx hflag
    rw [hframes.right] at hx
    simp [pageTestFlags, hpages x hx, F.test_zero] at hflag
  · rw [hframes.left, hareas.left, freeBlocks_nil]
    rfl
  · intro x hx
    rw [hpages x (by omega)]
  · rw [hframes.right]
    exact hcount

variable {F : PageFlagOps} {region : Nat -> Nat} {s : State} {p : Nat}
    {ranges : List (Nat × Nat)} {free : FreeLists}

section

variable (h : BuddyInv F region s free [] [])
    (horder : forall x, x < s.pageFramesCount -> (s.pageFrames x).order = 0)
include h horder

theorem pmmInitMemmapPage_spec (hp : p < s.pageFramesCount)
    (hregion : region p = 0) :
    exists s' free', pmmInitMemmapPage F s p = some s' ∧
      BuddyInv F (update region p 1) s' free' [] [] ∧
      (forall x, x < s.pageFramesCount -> (s'.pageFrames x).order = 0) ∧
      s'.pageFramesCount = s.pageFramesCount := by
  obtain ⟨s1, hs1⟩ : exists t, t = (pageSetFlags F (s.setFlags p 0) p
      .buddy).setFreePages (addU64 s.freePages 1) := ⟨_, rfl⟩
  have horderSame : forall x, (s1.pageFrames x).order =
      (s.pageFrames x).order := by
    intro x
    rw [hs1, pageFrames_setFreePages, order_pageSetFlags, order_setFlags]
  have hflagSame : forall x, x ≠ p ->
      pageTestFlags F s1 x .buddy = pageTestFlags F s x .buddy := by
    intro x hx
    rw [hs1, pageTestFlags_setFreePages, pageTestFlags_pageSetFlags]
    simp [hx, pageTestFlags, State.setFlags, State.setPage]
  have hlinks : s1.links = s.links := by
    rw [hs1]
    rfl
  have hcount : s1.pageFramesCount = s.pageFramesCount := by
    rw [hs1]
    rfl
  have hfreePages : s1.freePages = s.freePages + 1 := by
    have hcountLt := s.count_lt
    have htotal := h.tiling.totalSize_le
    have hcounter := h.counter
    simp only [totalSize_append, totalSize_nil] at htotal hcounter
    rw [hs1, freePages_setFreePages]
    apply addU64_eq
    omega
  have htiling := h.tiling.addPoint hp hregion
  simp only [append_nil] at htiling
  -- the page is in hand, as a block that a caller hands back is
  have hheld : BuddyInv F (update region p 1) s1 free [Block.mk p 0] [] := by
    refine ⟨?_, ?_, ?_, ?_, ?_, ?_⟩
    · rw [hlinks]
      exact h.rings
    · rw [hcount, funext horderSame]
      apply htiling.perm
      rw [append_nil]
      exact (perm_append_singleton _ _).symm
    · intro b hb
      rw [append_nil, mem_singleton] at hb
      rw [hb]
      exact Nat.zero_le 10
    · intro k q hq
      rw [horderSame]
      exact h.label k q hq
    · intro x hlt hx
      by_cases hxp : x = p
      · exact Or.inr (Or.inr ⟨Block.mk p 0, mem_singleton_self _, hxp.symm⟩)
      · rw [hflagSame x hxp] at hx
        rw [hcount] at hlt
        rcases h.flagged x hlt hx with hk | ⟨b, hb, hinner⟩ | ⟨b, hb, _⟩
        · exact Or.inl hk
        · right
          left
          refine ⟨b, ?_, hinner⟩
          simp only [append_nil] at hb ⊢
          exact mem_append_left _ hb
        · cases hb
    · have hcounter := h.counter
      simp only [totalSize_cons, totalSize_nil] at hcounter ⊢
      omega
  rcases hheld.finishFree (by decide) (by rw [horderSame]; exact horder p hp)
    with ⟨L, hadd, hdone⟩
  refine ⟨(s1.setLinks L).setTotalPages (addU64 s.totalPages 1), _, ?_,
    { hdone with }, ?_, hcount⟩
  · rw [hs1] at hadd ⊢
    rcases Option.bind_eq_some_iff.mp hadd with ⟨L', hlist, heq⟩
    have hL : L' = L := congrArg State.links (Option.some.inj heq)
    rw [hL, links_setFreePages] at hlist
    simp only [pmmInitMemmapPage, State.listAdd, hlist]
    rfl
  · intro x hx
    exact (horderSame x).trans (horder x hx)

theorem pmmInitMemmapLoop_spec {n : Nat}
    (hregion : forall x, InRange (p, p + n) x -> region x = 0) :
    exists s' free' region', pmmInitMemmapLoop F n p s = some s' ∧
      BuddyInv F region' s' free' [] [] ∧
      (forall x, region' x = 1 <->
        region x = 1 ∨ (x < s.pageFramesCount ∧ InRange (p, p + n) x)) ∧
      (forall x, x < s.pageFramesCount -> (s'.pageFrames x).order = 0) ∧
      s'.pageFramesCount = s.pageFramesCount := by
  induction n generalizing p region s free with
  | zero =>
    refine ⟨s, free, region, rfl, h, ?_, horder, rfl⟩
    intro x
    simp only [InRange]
    omega
  | succ n ih =>
    unfold pmmInitMemmapLoop
    split
    case isTrue hend =>
      refine ⟨s, free, region, rfl, h, ?_, horder, rfl⟩
      intro x
      simp only [InRange]
      omega
    case isFalse hend =>
      have hp : p < s.pageFramesCount := by omega
      have hrp : region p = 0 := hregion p ⟨by simp, by simp⟩
      rcases pmmInitMemmapPage_spec h horder hp hrp with
        ⟨s1, free1, hpage, hinv, horder1, hcount1⟩
      have hregion1 : forall x, InRange (p + 1, p + 1 + n) x ->
          update region p 1 x = 0 := by
        intro x hx
        simp only [InRange] at hx
        rw [update_of_ne (by omega)]
        exact hregion x ⟨by simp only; omega, by simp only; omega⟩
      rw [← hcount1] at horder1
      rcases ih hinv horder1 hregion1 with
        ⟨s', free', region', hrun, hdone, hset, horder', hcount'⟩
      refine ⟨s', free', region', ?_, hdone, ?_, ?_, ?_⟩
      · rw [hpage]
        exact hrun
      · intro x
        rw [hset x, hcount1]
        simp only [InRange]
        by_cases hx : x = p
        · subst hx
          rw [update_self]
          omega
        · rw [update_of_ne hx]
          omega
      · rw [hcount1] at horder'
        exact horder'
      · rw [hcount', hcount1]

theorem pmmInitMemmap_spec {r : Nat × Nat}
    (hregion : forall x, InRange r x -> region x = 0) :
    exists s' free' region', pmmInitMemmap F s r.1 r.2 = some s' ∧
      BuddyInv F region' s' free' [] [] ∧
      (forall x, region' x = 1 <->
        region x = 1 ∨ (x < s.pageFramesCount ∧ InRange r x)) ∧
      (forall x, x < s.pageFramesCount -> (s'.pageFrames x).order = 0) ∧
      s'.pageFramesCount = s.pageFramesCount := by
  unfold pmmInitMemmap
  split
  case isTrue hempty =>
    refine ⟨s, free, region, rfl, h, ?_, horder, rfl⟩
    intro x
    simp only [InRange]
    omega
  case isFalse hempty =>
    have hend : r.1 + (r.2 - r.1) = r.2 := by omega
    have hloop := pmmInitMemmapLoop_spec (n := r.2 - r.1) (p := r.1) h horder
    rw [hend] at hloop
    exact hloop hregion

/-- The ranges after the first one, each unused when its turn comes. -/
theorem memmaps_spec (hdisjoint : ranges.Pairwise DisjointRanges)
    (hregion : forall r, r ∈ ranges -> forall x, InRange r x -> region x = 0) :
    exists s' free' region',
      ranges.foldlM (fun s r => pmmInitMemmap F s r.1 r.2) s = some s' ∧
      BuddyInv F region' s' free' [] [] ∧
      (forall x, region' x = 1 <->
        region x = 1 ∨ Available s.pageFramesCount ranges x) ∧
      s'.pageFramesCount = s.pageFramesCount := by
  induction ranges generalizing region s free with
  | nil =>
    refine ⟨s, free, region, rfl, h, ?_, rfl⟩
    intro x
    simp [Available]
  | cons r ranges ih =>
    rcases pairwise_cons.mp hdisjoint with ⟨hfirst, hrest⟩
    rcases pmmInitMemmap_spec h horder (hregion r mem_cons_self) with
      ⟨s1, free1, region1, hrun1, hinv1, hset1, horder1, hcount1⟩
    have hregion1 : forall t, t ∈ ranges -> forall x, InRange t x ->
        region1 x = 0 := by
      intro t ht x hx
      have hne : region1 x ≠ 1 := by
        intro hone
        rcases (hset1 x).mp hone with hold | ⟨_, hr⟩
        · have hzero := hregion t (mem_cons_of_mem _ ht) x hx
          omega
        · exact hfirst t ht x hr hx
      have hle := hinv1.tiling.region_le x
      omega
    rw [← hcount1] at horder1
    rcases ih hinv1 horder1 hrest hregion1 with
      ⟨s', free', region', hrun, hinv, hset, hcount⟩
    refine ⟨s', free', region', ?_, hinv, ?_, ?_⟩
    · rw [foldlM_cons, hrun1]
      exact hrun
    · intro x
      rw [hset x, hset1 x, hcount1]
      simp only [Available, exists_mem_cons_iff]
      tauto
    · rw [hcount, hcount1]

end

theorem boot_spec (F : PageFlagOps) (s : State)
    (hdisjoint : ranges.Pairwise DisjointRanges) :
    exists s' free region, boot F s ranges = some s' ∧
      BuddyInv F region s' free [] [] ∧
      (forall x, region x = 1 <-> Available s.pageFramesCount ranges x) ∧
      s'.pageFramesCount = s.pageFramesCount := by
  rcases pmmInit_spec F s with ⟨hinv, horder, hcount⟩
  rw [← hcount] at horder
  rcases memmaps_spec hinv horder hdisjoint (fun _ _ _ _ => rfl) with
    ⟨s', free, region, hrun, hinv', hset, hcount'⟩
  refine ⟨s', free, region, hrun, hinv', ?_, ?_⟩
  · intro x
    rw [hset x, hcount]
    simp
  · rw [hcount', hcount]

def blankFrames (count : Nat) (h : count < 2 ^ 32) : State where
  pageFrames _ := { flags := 0, order := 0 }
  pageFramesCount := count
  links _ := { next := none, prev := none }
  totalPages := 0
  freePages := 0
  reservedPages := 0
  count_lt := h

/-!
## Calls

A caller may free any block it holds, once, with the order it asked for.
-/

inductive Call where
  | alloc (order : Nat)
  | free (index : Nat)

/-- The allocator together with the blocks its callers hold. -/
structure System where
  state : State
  out : List Block

def runCall (F : PageFlagOps) (sys : System) : Call -> Option System
  | Call.alloc order => do
      let (page, s) <- pmmAllocPages F sys.state order
      match page with
      | none => return ⟨s, sys.out⟩
      | some pfn => return ⟨s, Block.mk pfn order :: sys.out⟩
  | Call.free index =>
      match sys.out[index]? with
      | none => some sys
      | some b => do
          let s <- pmmFreePages F sys.state b.start b.order
          return ⟨s, sys.out.erase b⟩

def runCalls (F : PageFlagOps) (sys : System) (calls : List Call) :
    Option System :=
  calls.foldlM (runCall F) sys

variable {sys : System}

theorem runCall_spec (h : BuddyInv F region sys.state free [] sys.out)
    (call : Call) :
    exists sys' free', runCall F sys call = some sys' ∧
      BuddyInv F region sys'.state free' [] sys'.out ∧
      sys'.state.pageFramesCount = sys.state.pageFramesCount := by
  cases call with
  | alloc order =>
    rcases pmmAllocPages_spec h order with ⟨r, s', free', hrun, hcount, hinv⟩
    cases r with
    | none =>
      refine ⟨⟨s', sys.out⟩, free', ?_, hinv, hcount⟩
      simp only [runCall, hrun]
      rfl
    | some pfn =>
      refine ⟨⟨s', Block.mk pfn order :: sys.out⟩, free', ?_, hinv, hcount⟩
      simp only [runCall, hrun]
      rfl
  | free index =>
    cases hget : sys.out[index]? with
    | none =>
      refine ⟨sys, free, ?_, h, rfl⟩
      simp only [runCall, hget]
    | some b =>
      have hmem : b ∈ sys.out := mem_of_getElem? hget
      rcases pmmFreePages_spec h hmem with ⟨s', free', hrun, hcount, hinv⟩
      refine ⟨⟨s', sys.out.erase b⟩, free', ?_, hinv, hcount⟩
      simp only [runCall, hget, hrun]
      rfl

theorem runCalls_spec (h : BuddyInv F region sys.state free [] sys.out)
    (calls : List Call) :
    exists sys' free', runCalls F sys calls = some sys' ∧
      BuddyInv F region sys'.state free' [] sys'.out ∧
      sys'.state.pageFramesCount = sys.state.pageFramesCount := by
  induction calls generalizing sys free with
  | nil => exact ⟨sys, free, rfl, h, rfl⟩
  | cons call calls ih =>
    rcases runCall_spec h call with ⟨sys1, free1, hrun1, hinv1, hcount1⟩
    rcases ih hinv1 with ⟨sys', free', hrun, hinv, hcount⟩
    refine ⟨sys', free', ?_, hinv, ?_⟩
    · unfold runCalls
      rw [foldlM_cons, hrun1]
      exact hrun
    · rw [hcount, hcount1]

/-!
## Block safety
-/

/--
The free lists `free` and the outstanding blocks `out` divide the
available pages into aligned blocks, and the counter agrees with the lists.
-/
structure BlockSafe (available : Nat -> Prop) (s : State) (free : FreeLists)
    (out : List Block) : Prop where
  rings : FreeRings s.links free
  disjoint : (freeBlocks free ++ out).Pairwise Block.Disjoint
  aligned : forall b, b ∈ freeBlocks free ++ out -> 2 ^ b.order ∣ b.start
  bounded : forall b, b ∈ freeBlocks free ++ out ->
    b.start + 2 ^ b.order <= s.pageFramesCount
  covered : forall x,
    (exists b, b ∈ freeBlocks free ++ out ∧ b.Covers x) <-> available x
  counter : s.freePages = ∑ k : Fin 11, 2 ^ (k : Nat) * (free k).length

theorem BuddyInv.blockSafe {out : List Block}
    (h : BuddyInv F region s free [] out) :
    BlockSafe (fun x => region x = 1) s free out := by
  have htiling := h.tiling
  rw [append_nil] at htiling
  constructor
  · exact h.rings
  · exact htiling.pairwise_disjoint
  · exact htiling.aligned
  · exact htiling.bounded
  · intro x
    rw [← coverCount_pos, htiling.cover x]
    have hle := htiling.region_le x
    omega
  · rw [h.counter, totalSize_freeBlocks]
    rfl

/--
After booting over disjoint ranges, every sequence of allocations and frees
completes, and the blocks stay disjoint, aligned, in bounds and exhaustive.
-/
theorem buddy_block_safety (F : PageFlagOps) (s : State)
    (ranges : List (Nat × Nat)) (hdisjoint : ranges.Pairwise DisjointRanges)
    (calls : List Call) :
    exists booted sys free,
      boot F s ranges = some booted ∧
      runCalls F ⟨booted, []⟩ calls = some sys ∧
      sys.state.pageFramesCount = s.pageFramesCount ∧
      BlockSafe (Available s.pageFramesCount ranges) sys.state free
        sys.out := by
  rcases boot_spec F s hdisjoint with
    ⟨booted, free0, region, hboot, hinv0, hset, hcount0⟩
  have hstart : BuddyInv F region (System.mk booted []).state free0 []
      (System.mk booted []).out := hinv0
  rcases runCalls_spec hstart calls with ⟨sys, free, hrun, hinv, hcount⟩
  refine ⟨booted, sys, free, hboot, hrun, ?_, ?_⟩
  · rw [hcount, hcount0]
  · have hsafe := hinv.blockSafe
    have hregion : (fun x => region x = 1) =
        Available s.pageFramesCount ranges := funext fun x =>
      propext (hset x)
    rwa [hregion] at hsafe

theorem buddy_block_safety_two_ranges :
    [(0, 4), (6, 9)].Pairwise DisjointRanges ∧
      exists booted sys free,
        boot bitFlags (blankFrames 8 (by decide)) [(0, 4), (6, 9)] =
          some booted ∧
        runCalls bitFlags ⟨booted, []⟩
          [Call.alloc 0, Call.alloc 0, Call.free 0, Call.free 0,
            Call.alloc 1] = some sys ∧
        sys.state.pageFramesCount = 8 ∧
        BlockSafe (Available 8 [(0, 4), (6, 9)]) sys.state free sys.out := by
  have hdisjoint : [(0, 4), (6, 9)].Pairwise DisjointRanges := by
    simp only [pairwise_cons, mem_singleton, DisjointRanges, InRange]
    refine ⟨?_, by simp⟩
    rintro _ rfl x hx
    omega
  exact ⟨hdisjoint, buddy_block_safety bitFlags _ _ hdisjoint _⟩

end Pmm
end Horizon
