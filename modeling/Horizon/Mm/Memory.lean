import Horizon.Lib.BitRuns
import Mathlib.Data.List.Pairwise

/-!
# The bitmap page allocator

This module follows `mm_init`, `mm_alloc_pages` and `mm_free_pages` of
`mm/memory.c`: one bit per page, a counter of free pages, and a first-fit search
for contiguous pages.  The bitmap occupies the first pages of the memory that it
describes.
-/

namespace Horizon
namespace Memory

open List Bytes
open Bitmaps

def pageSize : Nat := 4096

/-- The variables of `memory.c`; `pageBitmap` is what it points to. -/
structure State where
  memStart : Nat
  memEnd : Nat
  totalPages : Nat
  freePages : Nat
  pageBitmap : Buffer

def bitmapPages (totalPages : Nat) : Nat :=
  ((totalPages + 7) / 8 + pageSize - 1) / pageSize

/-- `old` is what the memory of the bitmap held before. -/
def mmInit (memStart memEnd : Nat) (old : Buffer) : State :=
  let totalPages := (memEnd + 2 ^ 32 - memStart) % 2 ^ 32 / pageSize
  let cleared : Buffer := fun i => if i < (totalPages + 7) / 8 then 0 else old i
  { memStart := memStart
    memEnd := memEnd
    totalPages := totalPages
    freePages := totalPages - bitmapPages totalPages
    pageBitmap := bitSetRange cleared 0 (bitmapPages totalPages) }

/-- The address of a page, zero standing for `NULL`. -/
def pageAddress (s : State) (page : Nat) : Nat :=
  (s.memStart + page * pageSize) % 2 ^ 32

def mmAllocPages (s : State) (count : Nat) : Nat × State :=
  if count = 0 then (0, s)
  else if count > s.freePages then (0, s)
  else
    match firstRun s.pageBitmap count s.totalPages 0 0 0 with
    | none => (0, s)
    | some startPage =>
        (pageAddress s startPage,
          { s with
            pageBitmap := bitSetRange s.pageBitmap startPage count
            freePages := s.freePages - count })

def freePage (s : State) (p : Nat) : State :=
  if p < s.totalPages then
    if bitTest s.pageBitmap p then
      { s with
        pageBitmap := bitClear s.pageBitmap p
        freePages := s.freePages + 1 }
    else s
  else s

def mmFreeLoop (page : Nat) : Nat -> Nat -> State -> State
  | 0, _, s => s
  | n + 1, i, s => mmFreeLoop page n (i + 1) (freePage s ((page + i) % 2 ^ 32))

def mmFreePages (s : State) (addr count : Nat) : State :=
  if addr = 0 ∨ count = 0 then s
  else
    mmFreeLoop ((addr + 2 ^ 32 - s.memStart) % 2 ^ 32 / pageSize) count 0 s

/-!
## Blocks
-/

/-- A block handed out by `mm_alloc_pages`. -/
structure Block where
  addr : Nat
  count : Nat
deriving DecidableEq

structure Block.At (s : State) (b : Block) (page : Nat) : Prop where
  addr : b.addr = s.memStart + page * pageSize
  pos : 0 < b.count
  above : bitmapPages s.totalPages <= page
  below : page + b.count <= s.totalPages

def Block.Apart (a b : Block) : Prop :=
  a.addr + a.count * pageSize <= b.addr ∨ b.addr + b.count * pageSize <= a.addr

/-- The memory that the allocator describes does not wrap around. -/
structure Formed (s : State) : Prop where
  fits : s.memStart + s.totalPages * pageSize < 2 ^ 32
  counted : s.freePages = clearCount s.pageBitmap s.totalPages
  bitmap : forall p, p < bitmapPages s.totalPages ->
    bitTest s.pageBitmap p = true

/-- The live blocks are used, and no two of them share a page. -/
structure Owns (s : State) (live : List Block) : Prop where
  place : forall b, b ∈ live -> exists page, b.At s page ∧
    forall p, page <= p -> p < page + b.count -> bitTest s.pageBitmap p = true
  apart : live.Pairwise Block.Apart

theorem bitmapPages_le (totalPages : Nat) :
    bitmapPages totalPages <= totalPages := by
  unfold bitmapPages pageSize
  omega

theorem bitmapPages_pos {totalPages : Nat} (h : 0 < totalPages) :
    0 < bitmapPages totalPages := by
  unfold bitmapPages pageSize
  omega

section

variable {s : State} {live : List Block}

theorem Block.At.pageAddress {b : Block} {page : Nat} (h : b.At s page)
    (hformed : Formed s) :
    pageAddress s page = b.addr ∧ b.addr ≠ 0 ∧
      (b.addr + 2 ^ 32 - s.memStart) % 2 ^ 32 / pageSize = page := by
  have hfits := hformed.fits
  have hpos := h.pos
  have habove := h.above
  have hbelow := h.below
  have hbitmap := bitmapPages_pos (show 0 < s.totalPages by omega)
  have haddr := h.addr
  unfold Memory.pageAddress
  unfold pageSize at hfits haddr ⊢
  omega

/-!
## One call
-/

theorem mmInit_formed {memStart memEnd : Nat} (old : Buffer)
    (horder : memStart <= memEnd) (hend : memEnd < 2 ^ 32) :
    Formed (mmInit memStart memEnd old) := by
  obtain ⟨total, htotal⟩ : exists t, t =
      (memEnd + 2 ^ 32 - memStart) % 2 ^ 32 / pageSize := ⟨_, rfl⟩
  have hle := bitmapPages_le total
  unfold mmInit
  simp only [← htotal]
  constructor
  · show memStart + total * pageSize < 2 ^ 32
    unfold pageSize at htotal ⊢
    omega
  · have hrun : ClearRun
        (fun i => if i < (total + 7) / 8 then 0 else old i) 0
        (bitmapPages total) := by
      intro k _ hk
      rw [bitTest_eq, if_pos (by omega)]
      exact Nat.zero_testBit _
    have hall : clearCount (fun i => if i < (total + 7) / 8 then 0 else old i)
        total = total := by
      unfold clearCount
      rw [countP_eq_length.mpr, length_range]
      intro k hk
      have hlt := mem_range.mp hk
      rw [bitTest_eq, if_pos (by omega)]
      simp
    have hcount := clearCount_bitSetRange hrun (by omega : _ <= total)
    show total - bitmapPages total = clearCount
      (bitSetRange (fun i => if i < (total + 7) / 8 then 0 else old i) 0
        (bitmapPages total)) total
    omega
  · intro p hp
    have hlt : p < 0 + bitmapPages total := by
      rw [Nat.zero_add]
      exact hp
    rw [bitTest_bitSetRange, decide_eq_true ⟨Nat.zero_le p, hlt⟩]
    rfl

def taken (s : State) (page count : Nat) : State :=
  { s with
    pageBitmap := bitSetRange s.pageBitmap page count
    freePages := s.freePages - count }

/-- The first run of clear bits, if there is one, is what is taken. -/
theorem mmAllocPages_cases (h : Formed s) (count : Nat) :
    (mmAllocPages s count = (0, s) ∧
      ¬ (0 < count ∧ exists page, page + count <= s.totalPages ∧
        ClearRun s.pageBitmap page count)) ∨
    exists page, mmAllocPages s count =
        (s.memStart + page * pageSize, taken s page count) ∧
      Block.At s ⟨s.memStart + page * pageSize, count⟩ page ∧
      ClearRun s.pageBitmap page count ∧
      forall page', ClearRun s.pageBitmap page' count -> page <= page' := by
  unfold mmAllocPages
  by_cases hzero : count = 0
  · rw [if_pos hzero]
    exact Or.inl ⟨rfl, fun hsome => by omega⟩
  rw [if_neg hzero]
  by_cases hmany : count > s.freePages
  · -- more pages than are free cannot be contiguous
    rw [if_pos hmany]
    refine Or.inl ⟨rfl, ?_⟩
    rintro ⟨_, page, hpage, hrun⟩
    have hle := le_clearCount hrun hpage
    rw [← h.counted] at hle
    omega
  rw [if_neg hmany]
  have hscan := Scanned.first (b := s.pageBitmap) (show 0 < count by omega)
  cases hfind : firstRun s.pageBitmap count s.totalPages 0 0 0 with
  | none =>
    refine Or.inl ⟨rfl, ?_⟩
    rintro ⟨_, page, hpage, hrun⟩
    have hlt := firstRun_none hscan hfind hrun
    omega
  | some page =>
    rcases firstRun_some hscan hfind with ⟨hrun, hpage, hlow⟩
    have habove : bitmapPages s.totalPages <= page := by
      rcases Nat.lt_or_ge page (bitmapPages s.totalPages) with hlt | hge
      · have hclear := hrun page (Nat.le_refl page) (by omega)
        rw [h.bitmap page hlt] at hclear
        cases hclear
      · exact hge
    have hat : Block.At s ⟨s.memStart + page * pageSize, count⟩ page := by
      refine ⟨rfl, ?_, habove, ?_⟩
      · show 0 < count
        omega
      · show page + count <= s.totalPages
        omega
    refine Or.inr ⟨page, ?_, hat, hrun, hlow⟩
    simp only [(hat.pageAddress h).left]
    rfl

theorem taken_formed {page count : Nat} (h : Formed s)
    (hat : Block.At s ⟨s.memStart + page * pageSize, count⟩ page)
    (hrun : ClearRun s.pageBitmap page count) : Formed (taken s page count) := by
  have hbelow : page + count <= s.totalPages := hat.below
  have hcount := clearCount_bitSetRange hrun hbelow
  have hcounted := h.counted
  constructor
  · exact h.fits
  · show s.freePages - count =
      clearCount (bitSetRange s.pageBitmap page count) s.totalPages
    omega
  · intro p hp
    show bitTest (bitSetRange s.pageBitmap page count) p = true
    rw [bitTest_bitSetRange, h.bitmap p hp, Bool.or_true]

structure Released (s : State) (page n : Nat) (s' : State) : Prop where
  memStart : s'.memStart = s.memStart
  totalPages : s'.totalPages = s.totalPages
  bit : forall p, bitTest s'.pageBitmap p =
    (!decide (page <= p ∧ p < page + n) && bitTest s.pageBitmap p)
  freePages : s'.freePages = s.freePages + n
  counted : clearCount s'.pageBitmap s.totalPages =
    clearCount s.pageBitmap s.totalPages + n

theorem mmFreeLoop_released {page n i : Nat}
    (hbelow : page + i + n <= s.totalPages) (hlt : s.totalPages < 2 ^ 32)
    (hused : forall p, page + i <= p -> p < page + i + n ->
      bitTest s.pageBitmap p = true) :
    Released s (page + i) n (mmFreeLoop page n i s) := by
  induction n generalizing i s with
  | zero =>
    refine ⟨rfl, rfl, ?_, rfl, rfl⟩
    intro p
    rw [decide_eq_false (by omega), Bool.not_false, Bool.true_and]
    rfl
  | succ n ih =>
    have hbit := hused (page + i) (Nat.le_refl _) (by omega)
    obtain ⟨s1, hs1⟩ : exists t : State, t =
      { s with
        pageBitmap := bitClear s.pageBitmap (page + i)
        freePages := s.freePages + 1 } := ⟨_, rfl⟩
    have hstep : freePage s ((page + i) % 2 ^ 32) = s1 := by
      unfold freePage
      rw [Nat.mod_eq_of_lt (by omega), if_pos (by omega), if_pos hbit, hs1]
    have htotal1 : s1.totalPages = s.totalPages := by rw [hs1]
    have hbit1 : forall p, bitTest s1.pageBitmap p =
        (!decide (p = page + i) && bitTest s.pageBitmap p) := by
      intro p
      rw [hs1]
      exact bitTest_bitClear _ _ _
    have hcount1 : clearCount s1.pageBitmap s.totalPages =
        clearCount s.pageBitmap s.totalPages + 1 := by
      rw [hs1]
      exact clearCount_bitClear (by omega) hbit
    unfold mmFreeLoop
    rw [hstep]
    have hrest := ih (i := i + 1) (s := s1) (by omega) (by omega) (by
      intro p hp hlt'
      rw [hbit1, decide_eq_false (by omega)]
      exact hused p (by omega) (by omega))
    refine ⟨?_, ?_, ?_, ?_, ?_⟩
    · rw [hrest.memStart, hs1]
    · rw [hrest.totalPages, htotal1]
    · intro p
      have hsplit : decide (page + i <= p ∧ p < page + i + (n + 1)) =
          (decide (page + (i + 1) <= p ∧ p < page + (i + 1) + n) ||
            decide (p = page + i)) := by
        rw [← Bool.decide_or, decide_eq_decide]
        omega
      rw [hrest.bit, hbit1, hsplit, Bool.not_or, Bool.and_assoc]
    · have hfree1 : s1.freePages = s.freePages + 1 := by rw [hs1]
      rw [hrest.freePages, hfree1]
      omega
    · have hcount := hrest.counted
      rw [htotal1] at hcount
      omega

theorem mmFreePages_released {b : Block} {page : Nat} (h : Formed s)
    (hat : b.At s page)
    (hused : forall p, page <= p -> p < page + b.count ->
      bitTest s.pageBitmap p = true) :
    Released s page b.count (mmFreePages s b.addr b.count) := by
  rcases hat.pageAddress h with ⟨_, hne, hpage⟩
  have hpos := hat.pos
  have hbelow := hat.below
  have hfits := h.fits
  unfold pageSize at hfits
  have hnot : ¬ (b.addr = 0 ∨ b.count = 0) := by omega
  unfold mmFreePages
  rw [if_neg hnot, hpage]
  exact mmFreeLoop_released (i := 0) hbelow (by omega) hused

/-!
## Runs
-/

theorem Block.Apart.symm {a b : Block} (h : a.Apart b) : b.Apart a := Or.symm h

theorem Owns.apart_of_ne {a b : Block} (h : Owns s live) (ha : a ∈ live)
    (hb : b ∈ live) (hne : a ≠ b) :
    a.Apart b := by
  have hsymm : Std.Symm Block.Apart := ⟨fun _ _ hab => hab.symm⟩
  exact h.apart.forall ha hb hne

theorem Block.apart_iff {a b : Block} {page page' : Nat} (ha : a.At s page)
    (hb : b.At s page') :
    a.Apart b <-> page + a.count <= page' ∨ page' + b.count <= page := by
  have haddr := ha.addr
  have haddr' := hb.addr
  unfold Block.Apart
  unfold pageSize at haddr haddr' ⊢
  omega

theorem Owns.taken {page count : Nat} (h : Owns s live)
    (hat : Block.At s ⟨s.memStart + page * pageSize, count⟩ page)
    (hrun : ClearRun s.pageBitmap page count) :
    Owns (taken s page count)
      (⟨s.memStart + page * pageSize, count⟩ :: live) := by
  have hbits : forall p, bitTest (Memory.taken s page count).pageBitmap p =
      (decide (page <= p ∧ p < page + count) || bitTest s.pageBitmap p) :=
    fun p => bitTest_bitSetRange _ _ _ _
  constructor
  · intro b hb
    cases hb with
    | head =>
      refine ⟨page, { hat with }, ?_⟩
      intro p hp hlt
      rw [hbits, decide_eq_true ⟨hp, hlt⟩, Bool.true_or]
    | tail _ hb =>
      rcases h.place b hb with ⟨q, hq, hused⟩
      refine ⟨q, { hq with }, ?_⟩
      intro p hp hlt
      rw [hbits, hused p hp hlt, Bool.or_true]
  · refine List.Pairwise.cons ?_ h.apart
    intro b hb
    rcases h.place b hb with ⟨q, hq, hused⟩
    rw [Block.apart_iff hat hq]
    show page + count <= q ∨ q + b.count <= page
    have hcount : 0 < count := hat.pos
    have hpos := hq.pos
    -- a shared page would be both clear and used
    have hshared : ¬ (max page q < page + count ∧ max page q < q + b.count) := by
      rintro ⟨hlt, hlt'⟩
      have hclear := hrun _ (Nat.le_max_left page q) hlt
      rw [hused _ (Nat.le_max_right page q) hlt'] at hclear
      cases hclear
    omega

theorem Owns.released {s s' : State} {b : Block} {page : Nat} (h : Owns s live)
    (hb : b ∈ live) (hat : b.At s page)
    (hrel : Released s page b.count s') : Owns s' (live.erase b) := by
  have hperm := perm_cons_erase hb
  have hpair := (hperm.pairwise_iff Block.Apart.symm).mp h.apart
  rcases pairwise_cons.mp hpair with ⟨hfrom, hrest⟩
  refine ⟨?_, hrest⟩
  intro a ha
  rcases h.place a (mem_of_mem_erase ha) with ⟨q, hq, hused⟩
  refine ⟨q, ⟨?_, hq.pos, ?_, ?_⟩, ?_⟩
  · rw [hrel.memStart]
    exact hq.addr
  · rw [hrel.totalPages]
    exact hq.above
  · rw [hrel.totalPages]
    exact hq.below
  · intro p hp hlt
    have hapart := (Block.apart_iff hat hq).mp (hfrom a ha)
    rw [hrel.bit, decide_eq_false (by omega), hused p hp hlt]
    rfl

theorem Released.formed {s s' : State} {b : Block} {page : Nat}
    (hrel : Released s page b.count s') (h : Formed s) (hat : b.At s page) :
    Formed s' := by
  have habove := hat.above
  constructor
  · rw [hrel.memStart, hrel.totalPages]
    exact h.fits
  · rw [hrel.totalPages, hrel.counted, hrel.freePages, h.counted]
  · intro p hp
    rw [hrel.totalPages] at hp
    rw [hrel.bit, decide_eq_false (by omega), h.bitmap p hp]
    rfl

end

/-- Sequences of calls, with the blocks handed out and not freed since. -/
inductive Reachable (init : State) : State -> List Block -> Prop where
  | init : Reachable init init []
  | alloc {s live} (count : Nat) : Reachable init s live ->
      (mmAllocPages s count).1 ≠ 0 ->
      Reachable init (mmAllocPages s count).2
        (⟨(mmAllocPages s count).1, count⟩ :: live)
  | allocFailed {s live} (count : Nat) : Reachable init s live ->
      (mmAllocPages s count).1 = 0 ->
      Reachable init (mmAllocPages s count).2 live
  | free {s live b} : Reachable init s live -> b ∈ live ->
      Reachable init (mmFreePages s b.addr b.count) (live.erase b)

structure SameMemory (s s' : State) : Prop where
  memStart : s'.memStart = s.memStart
  totalPages : s'.totalPages = s.totalPages

theorem Reachable.invariant {init s : State} {live : List Block}
    (hinit : Formed init) (h : Reachable init s live) :
    SameMemory init s ∧ Formed s ∧ Owns s live := by
  induction h with
  | init =>
    refine ⟨⟨rfl, rfl⟩, hinit, ?_, List.Pairwise.nil⟩
    intro b hb
    cases hb
  | alloc count _ hne ih =>
    rcases ih with ⟨hsame, hformed, howns⟩
    rcases mmAllocPages_cases hformed count with
      ⟨hres, _⟩ | ⟨page, hres, hat, hrun, _⟩
    · rw [hres] at hne
      exact absurd rfl hne
    · rw [hres]
      exact ⟨⟨hsame.memStart, hsame.totalPages⟩,
        taken_formed hformed hat hrun, howns.taken hat hrun⟩
  | allocFailed count _ hzero ih =>
    rcases ih with ⟨hsame, hformed, howns⟩
    rcases mmAllocPages_cases hformed count with
      ⟨hres, _⟩ | ⟨page, hres, hat, _, _⟩
    · rw [hres]
      exact ⟨hsame, hformed, howns⟩
    · rw [hres] at hzero
      exact absurd hzero (hat.pageAddress hformed).right.left
  | free _ hb ih =>
    rcases ih with ⟨hsame, hformed, howns⟩
    rcases howns.place _ hb with ⟨page, hat, hused⟩
    have hrel := mmFreePages_released hformed hat hused
    refine ⟨⟨?_, ?_⟩, hrel.formed hformed hat, howns.released hb hat hrel⟩
    · rw [hrel.memStart, hsame.memStart]
    · rw [hrel.totalPages, hsame.totalPages]

/-- `mm_alloc_pages` takes the lowest run that is long enough. -/
structure FirstFit (s : State) (count addr : Nat) (s' : State) : Prop where
  succeeds : addr ≠ 0 <-> 0 < count ∧ exists page,
    page + count <= s.totalPages ∧ ClearRun s.pageBitmap page count
  lowest : addr ≠ 0 -> exists page, addr = s.memStart + page * pageSize ∧
    page + count <= s.totalPages ∧ ClearRun s.pageBitmap page count ∧
    (forall page', ClearRun s.pageBitmap page' count -> page <= page') ∧
    forall p, bitTest s'.pageBitmap p =
      (decide (page <= p ∧ p < page + count) || bitTest s.pageBitmap p)

theorem mmAllocPages_firstFit {s : State} (h : Formed s) (count : Nat) :
    FirstFit s count (mmAllocPages s count).1 (mmAllocPages s count).2 := by
  rcases mmAllocPages_cases h count with
    ⟨hres, hnone⟩ | ⟨page, hres, hat, hrun, hlow⟩
  · rw [hres]
    exact ⟨⟨fun hne => absurd rfl hne, fun hsome => absurd hsome hnone⟩,
      fun hne => absurd rfl hne⟩
  · rw [hres]
    have hne := (hat.pageAddress h).right.left
    refine ⟨⟨fun _ => ⟨hat.pos, page, hat.below, hrun⟩, fun _ => hne⟩, ?_⟩
    intro _
    exact ⟨page, rfl, hat.below, hrun, hlow,
      fun p => bitTest_bitSetRange _ _ _ _⟩

/--
In every state reached from `mm_init` the counter counts the clear bits, the
live blocks share no memory with each other or with the bitmap, and
`mm_alloc_pages` is a complete first-fit search.
-/
theorem page_allocator_correct (memStart memEnd : Nat) (old : Buffer)
    (horder : memStart <= memEnd) (hend : memEnd < 2 ^ 32) {s : State}
    {live : List Block} (h : Reachable (mmInit memStart memEnd old) s live) :
    s.freePages = clearCount s.pageBitmap s.totalPages ∧
    live.Pairwise Block.Apart ∧
    (forall b, b ∈ live ->
      memStart + bitmapPages s.totalPages * pageSize <= b.addr ∧
      b.addr + b.count * pageSize <= memEnd) ∧
    forall count,
      FirstFit s count (mmAllocPages s count).1 (mmAllocPages s count).2 := by
  rcases h.invariant (mmInit_formed old horder hend) with
    ⟨hsame, hformed, howns⟩
  refine ⟨hformed.counted, howns.apart, ?_, ?_⟩
  · intro b hb
    rcases howns.place b hb with ⟨page, hat, _⟩
    have hstart : s.memStart = memStart := hsame.memStart
    have htotal : s.totalPages =
      (memEnd + 2 ^ 32 - memStart) % 2 ^ 32 / pageSize := hsame.totalPages
    have haddr := hat.addr
    have habove := hat.above
    have hbelow := hat.below
    unfold pageSize at htotal haddr ⊢
    omega
  · exact fun count => mmAllocPages_firstFit hformed count

/-- The sixteen megabytes that `mm_init` assumes, after one allocation. -/
theorem page_allocator_correct_initial :
    (mmAllocPages (mmInit 0x100000 0x1000000 zeros) 3).2.freePages =
      clearCount
        (mmAllocPages (mmInit 0x100000 0x1000000 zeros) 3).2.pageBitmap
        (mmAllocPages (mmInit 0x100000 0x1000000 zeros) 3).2.totalPages :=
  (page_allocator_correct 0x100000 0x1000000 zeros (by decide) (by decide)
    (Reachable.alloc 3 Reachable.init (by decide +kernel))).left

end Memory
end Horizon
