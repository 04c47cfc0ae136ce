import Horizon.Mm.Memory

/-!
# Two-level page tables

This module follows `vmm_create_context`, `vmm_map_page`, `vmm_unmap_page` and
`vmm_get_phys_addr` of `mm/vmm.c`.  Directory and tables live in pages handed
out by `mm_alloc_pages`, which does not clear them; the operations refine a
partial map from pages to frames when those pages happen to be clear.
-/

namespace Horizon
namespace PageTable

open Function Bitmaps
open Memory

/--
The page allocator and the 32-bit words of memory, at their byte addresses.
The pages of the bitmap, which are never handed out, are kept in `mm`.
-/
structure Machine where
  mm : Memory.State
  word : Nat -> Nat

def Machine.setWord (m : Machine) (a v : Nat) : Machine :=
  { m with word := update m.word a v }

structure Context where
  pageDir : Nat
  pageDirPhys : Nat
deriving DecidableEq

/-- `x & 0xFFFFF000` -/
def pageAlign (x : Nat) : Nat := x &&& 0xFFFFF000

def pdIndex (virt : Nat) : Nat := virt >>> 22

def ptIndex (virt : Nat) : Nat := (virt >>> 12) &&& 0x3FF

/-- The tests for `PDE_PRESENT` and `PTE_PRESENT`. -/
def Present (entry : Nat) : Prop := entry &&& 1 ≠ 0

instance (entry : Nat) : Decidable (Present entry) :=
  inferInstanceAs (Decidable (¬ _))

/-- `PDE_PRESENT | PDE_WRITE | PDE_USER` -/
def pdeFlags : Nat := 1 ||| 2 ||| 4

def allocPages (m : Machine) (count : Nat) : Nat × Machine :=
  ((mmAllocPages m.mm count).1, { m with mm := (mmAllocPages m.mm count).2 })

/-- `kmalloc` of `memory.c` with `MEM_ZERO`. -/
def kmallocZero (m : Machine) (size : Nat) : Nat × Machine :=
  if size = 0 then (0, m)
  else
    let pages := (size + pageSize - 1) / pageSize
    let (addr, m) := allocPages m pages
    if addr = 0 then (0, m)
    else
      (addr, { m with
        word := fun a =>
          if addr <= a ∧ a < addr + pages * pageSize then 0 else m.word a })

def kfree (m : Machine) (addr : Nat) : Machine :=
  if addr = 0 then m else { m with mm := mmFreePages m.mm addr 1 }

def vmmCreateContext (m : Machine) : Option Context × Machine :=
  let (context, m) := kmallocZero m 8
  if context = 0 then (none, m)
  else
    let (pageDir, m) := allocPages m 1
    if pageDir = 0 then (none, kfree m context)
    else (some { pageDir := pageDir, pageDirPhys := pageDir }, m)

def ensureTable (c : Context) (m : Machine) (pd : Nat) : Bool × Machine :=
  if Present (m.word (c.pageDir + 4 * pd)) then (true, m)
  else
    let (table, m) := allocPages m 1
    if table = 0 then (false, m)
    else (true, m.setWord (c.pageDir + 4 * pd) (table ||| pdeFlags))

def tableEntry (c : Context) (m : Machine) (virt : Nat) : Nat :=
  pageAlign (m.word (c.pageDir + 4 * pdIndex virt)) + 4 * ptIndex virt

/-- `true` stands for the return value zero. -/
def vmmMapPage (c : Context) (m : Machine) (virt phys flags : Nat) :
    Bool × Machine :=
  if virt = 0 ∨ phys = 0 then (false, m)
  else
    let virt := pageAlign virt
    let phys := pageAlign phys
    match ensureTable c m (pdIndex virt) with
    | (false, m) => (false, m)
    | (true, m) => (true, m.setWord (tableEntry c m virt) (phys ||| flags))

def vmmUnmapPage (c : Context) (m : Machine) (virt : Nat) : Bool × Machine :=
  if virt = 0 then (false, m)
  else
    let virt := pageAlign virt
    if Present (m.word (c.pageDir + 4 * pdIndex virt)) then
      if Present (m.word (tableEntry c m virt)) then
        (true, m.setWord (tableEntry c m virt) 0)
      else (false, m)
    else (false, m)

/-- The physical address, or zero for `NULL`. -/
def vmmGetPhysAddr (c : Context) (m : Machine) (virt : Nat) : Nat :=
  if virt = 0 then 0
  else if Present (m.word (c.pageDir + 4 * pdIndex virt)) then
    if Present (m.word (tableEntry c m virt)) then
      pageAlign (m.word (tableEntry c m virt)) ||| (virt &&& 0xFFF)
    else 0
  else 0

/-!
## Arithmetic of entries
-/

theorem present_iff (entry : Nat) : Present entry <-> entry % 2 = 1 := by
  unfold Present
  rw [Nat.and_one_is_mod]
  omega

variable {i t x page virt : Nat} {s : Memory.State} {c : Context} {m' : Machine}

theorem pageAlign_eq (hx : x < 2 ^ 32) : pageAlign x = x / 4096 * 4096 := by
  apply Nat.eq_of_testBit_eq
  intro i
  have hmask : (0xFFFFF000 : Nat) = (2 ^ 20 - 1) * 2 ^ 12 := by decide
  unfold pageAlign
  rw [Nat.testBit_and, hmask, show x / 4096 * 4096 = (x / 2 ^ 12) * 2 ^ 12 by
    norm_num, Nat.testBit_mul_two_pow, Nat.testBit_mul_two_pow,
    Nat.testBit_two_pow_sub_one, Nat.testBit_div_two_pow]
  by_cases hlow : 12 <= i
  · rw [decide_eq_true hlow, Bool.true_and, Bool.true_and,
      Nat.sub_add_cancel hlow]
    by_cases hhigh : i - 12 < 20
    · rw [decide_eq_true hhigh, Bool.and_true]
    · rw [decide_eq_false hhigh, Bool.and_false]
      symm
      apply Nat.testBit_lt_two_pow
      exact Nat.lt_of_lt_of_le hx (Nat.pow_le_pow_right (by decide) (by omega))
  · rw [decide_eq_false hlow, Bool.false_and, Bool.false_and, Bool.and_false]

theorem or_eq_add {f : Nat} (hx : x % 4096 = 0) (hf : f < 4096) :
    x ||| f = x + f := by
  have hmul : x = 2 ^ 12 * (x / 4096) := by omega
  rw [hmul, Nat.two_pow_add_eq_or_of_lt hf]

theorem pageAlign_mod (x : Nat) : pageAlign x % 4096 = 0 := by
  have hmod := Nat.and_mod_two_pow (a := x) (b := 0xFFFFF000) (n := 12)
  have hmask : 0xFFFFF000 % 2 ^ 12 = 0 := by decide
  rw [hmask, Nat.and_zero] at hmod
  exact hmod

theorem pdIndex_eq (virt : Nat) : pdIndex virt = virt / 4096 / 1024 := by
  unfold pdIndex
  rw [Nat.shiftRight_eq_div_pow, Nat.div_div_eq_div_mul]

theorem ptIndex_eq (virt : Nat) : ptIndex virt = virt / 4096 % 1024 := by
  unfold ptIndex
  rw [Nat.shiftRight_eq_div_pow]
  exact Nat.and_two_pow_sub_one_eq_mod _ 10

theorem pageAlign_div (hx : x < 2 ^ 32) : pageAlign x / 4096 = x / 4096 := by
  rw [pageAlign_eq hx, Nat.mul_div_cancel _ (by decide)]

/-!
## The map that the tables stand for
-/

def tableOf (c : Context) (m : Machine) (i : Nat) : Nat :=
  pageAlign (m.word (c.pageDir + 4 * i))

def translate (c : Context) (m : Machine) (n : Nat) : Option Nat :=
  if Present (m.word (c.pageDir + 4 * (n / 1024))) then
    if Present (m.word (tableOf c m (n / 1024) + 4 * (n % 1024))) then
      some (pageAlign (m.word (tableOf c m (n / 1024) + 4 * (n % 1024))))
    else none
  else none

theorem tableEntry_eq (c : Context) (m : Machine) (virt : Nat) :
    tableEntry c m virt =
      tableOf c m (virt / 4096 / 1024) + 4 * (virt / 4096 % 1024) := by
  unfold tableEntry tableOf
  rw [pdIndex_eq, ptIndex_eq]

theorem vmmGetPhysAddr_eq (c : Context) (m : Machine) (hne : virt ≠ 0) :
    vmmGetPhysAddr c m virt =
      match translate c m (virt / 4096) with
      | none => 0
      | some phys => phys + virt % 4096 := by
  unfold vmmGetPhysAddr translate
  rw [if_neg hne, tableEntry_eq, pdIndex_eq]
  by_cases hdir : Present (m.word (c.pageDir + 4 * (virt / 4096 / 1024)))
  · rw [if_pos hdir, if_pos hdir]
    by_cases hentry : Present (m.word (tableOf c m (virt / 4096 / 1024) +
        4 * (virt / 4096 % 1024)))
    · rw [if_pos hentry, if_pos hentry]
      show pageAlign _ ||| (virt &&& 0xFFF) = pageAlign _ + virt % 4096
      have hoff : virt &&& 0xFFF = virt % 4096 :=
        Nat.and_two_pow_sub_one_eq_mod virt 12
      rw [hoff, or_eq_add (pageAlign_mod _) (Nat.mod_lt _ (by decide))]
    · rw [if_neg hentry, if_neg hentry]
  · rw [if_neg hdir, if_neg hdir]

def UsedPage (s : Memory.State) (t : Nat) : Prop :=
  exists page, t = s.memStart + page * pageSize ∧ page < s.totalPages ∧
    bitTest s.pageBitmap page = true

/-- Directory and tables are distinct pages of the allocator. -/
structure Tables (c : Context) (m : Machine) : Prop where
  formed : Formed m.mm
  aligned : m.mm.memStart % 4096 = 0
  dir : UsedPage m.mm c.pageDir
  table : forall i, i < 1024 -> Present (m.word (c.pageDir + 4 * i)) ->
    UsedPage m.mm (tableOf c m i) ∧ tableOf c m i ≠ c.pageDir
  inj : forall i j, i < 1024 -> j < 1024 ->
    Present (m.word (c.pageDir + 4 * i)) ->
    Present (m.word (c.pageDir + 4 * j)) ->
    tableOf c m i = tableOf c m j -> i = j

theorem UsedPage.aligned (h : UsedPage s t) (haligned : s.memStart % 4096 = 0) :
    t % 4096 = 0 := by
  rcases h with ⟨page, ht, _, _⟩
  unfold pageSize at ht
  omega

theorem entry_inj {t' j j' : Nat} (ht : t % 4096 = 0) (ht' : t' % 4096 = 0)
    (hj : j < 1024) (hj' : j' < 1024) (h : t + 4 * j = t' + 4 * j') :
    t = t' ∧ j = j' := by
  omega

theorem word_setWord_self (m : Machine) (a v : Nat) :
    (m.setWord a v).word a = v := by
  exact update_self ..

variable {m : Machine}

theorem word_setWord_of_ne {a b v : Nat} (h : b ≠ a) :
    (m.setWord a v).word b = m.word b := by
  exact update_of_ne h ..

section Entry

variable {c : Context} {m : Machine} {i j : Nat} (h : Tables c m)
  (hi : i < 1024) (hj : j < 1024)
  (hpresent : Present (m.word (c.pageDir + 4 * i)))

include h hi hj hpresent

variable {k : Nat}

theorem dir_setEntry (v : Nat) (hk : k < 1024) :
    (m.setWord (tableOf c m i + 4 * j) v).word (c.pageDir + 4 * k) =
      m.word (c.pageDir + 4 * k) := by
  apply word_setWord_of_ne
  intro heq
  rcases h.table i hi hpresent with ⟨hused, hne⟩
  exact hne (entry_inj (h.dir.aligned h.aligned) (hused.aligned h.aligned) hk
    hj heq).left.symm

theorem tableOf_setEntry (v : Nat) (hk : k < 1024) :
    tableOf c (m.setWord (tableOf c m i + 4 * j) v) k = tableOf c m k := by
  exact congrArg pageAlign (dir_setEntry h hi hj hpresent v hk)

theorem tables_setEntry (v : Nat) :
    Tables c (m.setWord (tableOf c m i + 4 * j) v) := by
  refine ⟨h.formed, h.aligned, h.dir, ?_, ?_⟩
  · intro k hk hk'
    rw [dir_setEntry h hi hj hpresent v hk] at hk'
    rw [tableOf_setEntry h hi hj hpresent v hk]
    exact h.table k hk hk'
  · intro k l hk hl hk' hl' heq
    rw [dir_setEntry h hi hj hpresent v hk] at hk'
    rw [dir_setEntry h hi hj hpresent v hl] at hl'
    rw [tableOf_setEntry h hi hj hpresent v hk,
      tableOf_setEntry h hi hj hpresent v hl] at heq
    exact h.inj k l hk hl hk' hl' heq

theorem translate_setEntry (v : Nat) {n : Nat} (hn : n < 2 ^ 20) :
    translate c (m.setWord (tableOf c m i + 4 * j) v) n =
      if n = i * 1024 + j then
        if Present v then some (pageAlign v) else none
      else translate c m n := by
  have hk : n / 1024 < 1024 := by omega
  have hl : n % 1024 < 1024 := by omega
  unfold translate
  rw [dir_setEntry h hi hj hpresent v hk,
    tableOf_setEntry h hi hj hpresent v hk]
  by_cases hsame : n = i * 1024 + j
  · rw [if_pos hsame, show n / 1024 = i by omega, show n % 1024 = j by omega,
      if_pos hpresent, word_setWord_self]
  · rw [if_neg hsame]
    by_cases hdir : Present (m.word (c.pageDir + 4 * (n / 1024)))
    · have hne : tableOf c m (n / 1024) + 4 * (n % 1024) ≠
          tableOf c m i + 4 * j := by
        intro heq
        rcases h.table i hi hpresent with ⟨hused, _⟩
        rcases h.table _ hk hdir with ⟨hused', _⟩
        rcases entry_inj (hused'.aligned h.aligned) (hused.aligned h.aligned)
          hl hj heq with ⟨htable, hindex⟩
        have hpd := h.inj _ _ hk hi hdir hpresent htable
        omega
      rw [if_pos hdir, if_pos hdir, word_setWord_of_ne hne]
    · rw [if_neg hdir, if_neg hdir]

end Entry

/-!
## A fresh table
-/

theorem allocPages_cases (h : Formed m.mm) :
    allocPages m 1 = (0, m) ∨
    exists page, allocPages m 1 =
        (m.mm.memStart + page * pageSize, { m with mm := taken m.mm page 1 }) ∧
      (mmAllocPages m.mm 1).1 = m.mm.memStart + page * pageSize ∧
      m.mm.memStart + page * pageSize ≠ 0 ∧
      Formed (taken m.mm page 1) ∧ page < m.mm.totalPages ∧
      bitTest m.mm.pageBitmap page = false := by
  unfold allocPages
  rcases mmAllocPages_cases h 1 with ⟨hres, _⟩ | ⟨page, hres, hat, hrun, _⟩
  · rw [hres]
    exact Or.inl rfl
  · rw [hres]
    have hbelow : page + 1 <= m.mm.totalPages := hat.below
    exact Or.inr ⟨page, rfl, rfl, (hat.pageAddress h).right.left,
      taken_formed h hat hrun, hbelow,
      hrun page (Nat.le_refl page) (Nat.lt_succ_self page)⟩

theorem UsedPage.taken (h : UsedPage s t) (page : Nat) :
    UsedPage (taken s page 1) t := by
  rcases h with ⟨q, ht, hq, hbit⟩
  refine ⟨q, ht, hq, ?_⟩
  show bitTest (bitSetRange s.pageBitmap page 1) q = true
  rw [bitTest_bitSetRange, hbit, Bool.or_true]

theorem usedPage_taken (hpage : page < s.totalPages) :
    UsedPage (taken s page 1) (s.memStart + page * pageSize) := by
  refine ⟨page, rfl, hpage, ?_⟩
  show bitTest (bitSetRange s.pageBitmap page 1) page = true
  rw [bitTest_bitSetRange, decide_eq_true ⟨Nat.le_refl page, by omega⟩,
    Bool.true_or]

theorem UsedPage.ne_fresh (h : UsedPage s t)
    (hclear : bitTest s.pageBitmap page = false) :
    s.memStart + page * pageSize ≠ t := by
  rcases h with ⟨q, ht, _, hbit⟩
  intro heq
  have hsame : page = q := by
    unfold pageSize at heq ht
    omega
  rw [hsame, hbit] at hclear
  cases hclear

/-- If a table is needed, the page that it will get holds zeros. -/
def FreshTable (c : Context) (m : Machine) (i : Nat) : Prop :=
  ¬ Present (m.word (c.pageDir + 4 * i)) -> (mmAllocPages m.mm 1).1 ≠ 0 ->
    forall k, k < 1024 -> m.word ((mmAllocPages m.mm 1).1 + 4 * k) = 0

theorem tables_newTable (h : Tables c m) (hi : i < 1024)
    (habsent : ¬ Present (m.word (c.pageDir + 4 * i)))
    (hformed : Formed (taken m.mm page 1)) (hpage : page < m.mm.totalPages)
    (hclear : bitTest m.mm.pageBitmap page = false)
    (hzero : forall k, k < 1024 ->
      m.word (m.mm.memStart + page * pageSize + 4 * k) = 0) (hm' : m' =
      Machine.setWord { m with mm := taken m.mm page 1 } (c.pageDir + 4 * i)
        ((m.mm.memStart + page * pageSize) ||| pdeFlags)) :
    Tables c m' ∧ Present (m'.word (c.pageDir + 4 * i)) ∧
      forall n, n < 2 ^ 20 -> translate c m' n = translate c m n := by
  obtain ⟨t, ht⟩ : exists t, t = m.mm.memStart + page * pageSize := ⟨_, rfl⟩
  rw [← ht] at hzero hm'
  have hmm : m'.mm = taken m.mm page 1 := by
    rw [hm']
    rfl
  have hused : UsedPage m'.mm t := by
    rw [hmm, ht]
    exact usedPage_taken hpage
  have haligned : m'.mm.memStart % 4096 = 0 := by
    rw [hmm]
    exact h.aligned
  have htmod := hused.aligned haligned
  have hdirmod := h.dir.aligned h.aligned
  have hfresh : forall u, UsedPage m.mm u -> t ≠ u := by
    intro u hu
    rw [ht]
    exact hu.ne_fresh hclear
  have hself : m'.word (c.pageDir + 4 * i) = t + 7 := by
    rw [hm', word_setWord_self]
    exact or_eq_add htmod (by decide)
  have hother : forall a, a ≠ c.pageDir + 4 * i -> m'.word a = m.word a := by
    intro a ha
    rw [hm', word_setWord_of_ne ha]
  have hdir : forall k, k ≠ i ->
      m'.word (c.pageDir + 4 * k) = m.word (c.pageDir + 4 * k) := by
    intro k hk
    exact hother _ (by omega)
  have htable : tableOf c m' i = t := by
    have hlt : t + 7 < 2 ^ 32 := by
      have hfits := hformed.fits
      have hfits' : m.mm.memStart + m.mm.totalPages * pageSize < 2 ^ 32 := hfits
      unfold pageSize at hfits' ht
      omega
    unfold tableOf
    rw [hself, pageAlign_eq hlt]
    omega
  have htable' : forall k, k ≠ i -> tableOf c m' k = tableOf c m k := by
    intro k hk
    unfold tableOf
    rw [hdir k hk]
  have hpresent : Present (m'.word (c.pageDir + 4 * i)) := by
    rw [hself, present_iff]
    omega
  refine ⟨⟨?_, haligned, ?_, ?_, ?_⟩, hpresent, ?_⟩
  · rw [hmm]
    exact hformed
  · rw [hmm]
    exact h.dir.taken page
  · intro k hk hk'
    by_cases hki : k = i
    · rw [hki, htable]
      exact ⟨hused, hfresh _ h.dir⟩
    · rw [hdir k hki] at hk'
      rw [htable' k hki, hmm]
      exact ⟨(h.table k hk hk').left.taken page, (h.table k hk hk').right⟩
  · intro k l hk hl hk' hl' heq
    by_cases hki : k = i
    · by_cases hli : l = i
      · rw [hki, hli]
      · rw [hdir l hli] at hl'
        rw [hki, htable, htable' l hli] at heq
        exact absurd heq (hfresh _ (h.table l hl hl').left)
    · rw [hdir k hki] at hk'
      by_cases hli : l = i
      · rw [hli, htable, htable' k hki] at heq
        exact absurd heq.symm (hfresh _ (h.table k hk hk').left)
      · rw [hdir l hli] at hl'
        rw [htable' k hki, htable' l hli] at heq
        exact h.inj k l hk hl hk' hl' heq
  · intro n hn
    have hk : n / 1024 < 1024 := by omega
    have hl : n % 1024 < 1024 := by omega
    unfold translate
    by_cases hni : n / 1024 = i
    · -- the fresh table maps nothing
      have hne : t + 4 * (n % 1024) ≠ c.pageDir + 4 * i := by
        intro heq
        exact hfresh _ h.dir (entry_inj htmod hdirmod hl hi heq).left
      rw [hni, if_pos hpresent, if_neg habsent, htable, hother _ hne,
        hzero _ hl, if_neg]
      decide
    · rw [hdir _ hni, htable' _ hni]
      by_cases hold : Present (m.word (c.pageDir + 4 * (n / 1024)))
      · rcases h.table _ hk hold with ⟨hused', hne'⟩
        have hne : tableOf c m (n / 1024) + 4 * (n % 1024) ≠
            c.pageDir + 4 * i := by
          intro heq
          exact hne' (entry_inj (hused'.aligned h.aligned) hdirmod hl hi
            heq).left
        rw [if_pos hold, if_pos hold, hother _ hne]
      · rw [if_neg hold, if_neg hold]

theorem ensureTable_cases (h : Tables c m) (hi : i < 1024)
    (hfresh : FreshTable c m i) :
    ensureTable c m i = (false, m) ∨
    exists m', ensureTable c m i = (true, m') ∧ Tables c m' ∧
      Present (m'.word (c.pageDir + 4 * i)) ∧
      forall n, n < 2 ^ 20 -> translate c m' n = translate c m n := by
  unfold ensureTable
  by_cases hpresent : Present (m.word (c.pageDir + 4 * i))
  · rw [if_pos hpresent]
    exact Or.inr ⟨m, rfl, h, hpresent, fun n _ => rfl⟩
  rw [if_neg hpresent]
  rcases allocPages_cases h.formed with
    hnone | ⟨page, hres, haddr, hne, hformed, hpage, hclear⟩
  · rw [hnone]
    exact Or.inl rfl
  · have hzero := hfresh hpresent (by rw [haddr]; exact hne)
    rw [haddr] at hzero
    rw [hres]
    simp only [if_neg hne]
    exact Or.inr ⟨_, rfl, tables_newTable h hi hpresent hformed hpage hclear
      hzero rfl⟩

/-!
## Runs
-/

inductive Call where
  | map (virt phys flags : Nat)
  | unmap (virt : Nat)

def runCall (c : Context) (m : Machine) : Call -> Bool × Machine
  | Call.map virt phys flags => vmmMapPage c m virt phys flags
  | Call.unmap virt => vmmUnmapPage c m virt

abbrev Mapping := Nat -> Option Nat

def Mapping.after (f : Mapping) : Call -> Mapping
  | Call.map virt phys _ => update f (virt / 4096) (some phys)
  | Call.unmap virt => update f (virt / 4096) none

theorem Mapping.after_map (f : Mapping) (virt phys flags n : Nat) :
    f.after (.map virt phys flags) n =
      if n = virt / 4096 then some phys else f n :=
  update_apply ..

theorem Mapping.after_unmap (f : Mapping) (virt n : Nat) :
    f.after (.unmap virt) n = if n = virt / 4096 then none else f n :=
  update_apply ..

def run (c : Context) : Machine -> Mapping -> List Call -> Machine × Mapping
  | m, f, [] => (m, f)
  | m, f, call :: calls =>
      run c (runCall c m call).2
        (if (runCall c m call).1 then f.after call else f) calls

/--
The arguments are 32-bit values, the frame is page-aligned, the flags are flag
bits with `PTE_PRESENT` among them, and a table that has to be allocated gets a
page of zeros.
-/
def CallOk (c : Context) (m : Machine) : Call -> Prop
  | Call.map virt phys flags => virt < 2 ^ 32 ∧ phys < 2 ^ 32 ∧
      phys % 4096 = 0 ∧ flags < 4096 ∧ Present flags ∧
      FreshTable c m (virt / 4096 / 1024)
  | Call.unmap virt => virt < 2 ^ 32

def RunOk (c : Context) : Machine -> List Call -> Prop
  | _, [] => True
  | m, call :: calls => CallOk c m call ∧ RunOk c (runCall c m call).2 calls

theorem page_lt (h : virt < 2 ^ 32) : virt / 4096 < 2 ^ 20 := by
  omega

theorem page_split (n : Nat) : n = n / 1024 * 1024 + n % 1024 := by
  omega

/-- A call keeps the tables apart and does to the map what it should. -/
def Refines (c : Context) (m : Machine) (call : Call) (res : Bool × Machine) :
    Prop :=
  Tables c res.2 ∧ forall n, n < 2 ^ 20 -> translate c res.2 n =
    (if res.1 then Mapping.after (translate c m) call else translate c m) n

theorem vmmMapPage_refines {phys flags : Nat} (h : Tables c m)
    (hok : CallOk c m (.map virt phys flags)) :
    Refines c m (.map virt phys flags) (vmmMapPage c m virt phys flags) := by
  rcases hok with ⟨hvirt, hphys, haligned, hflags, hpresent, hfresh⟩
  have hpage := pageAlign_div hvirt
  have hpd : virt / 4096 / 1024 < 1024 := by omega
  have hpt : virt / 4096 % 1024 < 1024 := Nat.mod_lt _ (by decide)
  unfold vmmMapPage
  by_cases hnull : virt = 0 ∨ phys = 0
  · rw [if_pos hnull]
    exact ⟨h, fun n _ => rfl⟩
  rw [if_neg hnull]
  simp only [pdIndex_eq, hpage]
  rcases ensureTable_cases h hpd hfresh with
    hnone | ⟨m', hres, htables, hdir, hsame⟩
  · rw [hnone]
    exact ⟨h, fun n _ => rfl⟩
  · rw [hres]
    simp only [tableEntry_eq, hpage]
    refine ⟨tables_setEntry htables hpd hpt hdir _, ?_⟩
    intro n hn
    have hframe : pageAlign phys = phys := by
      rw [pageAlign_eq hphys]
      omega
    have hodd := (present_iff flags).mp hpresent
    have hvalue : pageAlign (phys + flags) = phys := by
      rw [pageAlign_eq (by omega)]
      omega
    have hset : Present (phys + flags) := by
      rw [present_iff]
      omega
    rw [translate_setEntry htables hpd hpt hdir _ hn, ← page_split, hframe,
      or_eq_add haligned hflags, hvalue, if_pos hset, hsame n hn]
    exact (Mapping.after_map _ virt phys flags n).symm

theorem vmmUnmapPage_refines (h : Tables c m) (hvirt : virt < 2 ^ 32) :
    Refines c m (.unmap virt) (vmmUnmapPage c m virt) := by
  have hpage := pageAlign_div hvirt
  have hpd : virt / 4096 / 1024 < 1024 := by omega
  have hpt : virt / 4096 % 1024 < 1024 := Nat.mod_lt _ (by decide)
  unfold vmmUnmapPage
  by_cases hnull : virt = 0
  · rw [if_pos hnull]
    exact ⟨h, fun n _ => rfl⟩
  rw [if_neg hnull]
  simp only [pdIndex_eq, tableEntry_eq, hpage]
  split
  case isTrue hdir =>
    split
    case isTrue hentry =>
      refine ⟨tables_setEntry h hpd hpt hdir 0, ?_⟩
      intro n hn
      have hzero : ¬ Present 0 := by decide
      rw [translate_setEntry h hpd hpt hdir 0 hn, ← page_split, if_neg hzero]
      exact (Mapping.after_unmap _ virt n).symm
    case isFalse hentry => exact ⟨h, fun n _ => rfl⟩
  case isFalse hdir => exact ⟨h, fun n _ => rfl⟩

theorem runCall_refines {call : Call} (h : Tables c m)
    (hok : CallOk c m call) : Refines c m call (runCall c m call) := by
  cases call with
  | map virt phys flags => exact vmmMapPage_refines h hok
  | unmap virt => exact vmmUnmapPage_refines h hok

variable {f : Mapping}

theorem Mapping.after_congr {g : Mapping}
    (h : forall n, n < 2 ^ 20 -> f n = g n) (call : Call) {n : Nat}
    (hn : n < 2 ^ 20) : f.after call n = g.after call n := by
  cases call with
  | map virt phys flags => rw [Mapping.after_map, Mapping.after_map, h n hn]
  | unmap virt => rw [Mapping.after_unmap, Mapping.after_unmap, h n hn]

theorem run_refines {calls : List Call} (h : Tables c m)
    (hf : forall n, n < 2 ^ 20 -> translate c m n = f n) (hok : RunOk c m calls) :
    forall n, n < 2 ^ 20 ->
      translate c (run c m f calls).1 n = (run c m f calls).2 n := by
  induction calls generalizing m f with
  | nil => exact hf
  | cons call calls ih =>
    rcases runCall_refines h hok.left with ⟨htables, hstep⟩
    apply ih htables _ hok.right
    intro n hn
    rw [hstep n hn]
    cases (runCall c m call).1 with
    | true => exact Mapping.after_congr hf call hn
    | false => exact hf n hn

theorem tables_empty (hformed : Formed m.mm)
    (haligned : m.mm.memStart % 4096 = 0) (hdir : UsedPage m.mm c.pageDir)
    (hzero : forall k, k < 1024 -> m.word (c.pageDir + 4 * k) = 0) :
    Tables c m ∧ forall n, n < 2 ^ 20 -> translate c m n = none := by
  have habsent : forall k, k < 1024 ->
      ¬ Present (m.word (c.pageDir + 4 * k)) := by
    intro k hk
    rw [hzero k hk]
    decide
  refine ⟨⟨hformed, haligned, hdir, ?_, ?_⟩, ?_⟩
  · intro k hk hpresent
    exact absurd hpresent (habsent k hk)
  · intro k l hk _ hpresent
    exact absurd hpresent (habsent k hk)
  · intro n hn
    unfold translate
    rw [if_neg (habsent (n / 1024) (by omega))]

theorem vmmCreateContext_tables (hformed : Formed m.mm)
    (haligned : m.mm.memStart % 4096 = 0)
    (hres : vmmCreateContext m = (some c, m'))
    (hzero : forall k, k < 1024 -> m.word (c.pageDir + 4 * k) = 0) :
    Tables c m' ∧ forall n, n < 2 ^ 20 -> translate c m' n = none := by
  unfold vmmCreateContext kmallocZero at hres
  rw [if_neg (by decide), show (8 + pageSize - 1) / pageSize = 1 by decide]
    at hres
  rcases allocPages_cases hformed with
    hnone | ⟨page, halloc, _, hne, hformed1, _, _⟩
  · simp [hnone] at hres
  simp only [halloc, if_neg hne] at hres
  obtain ⟨m1, hm1⟩ : exists t : Machine, t = Machine.mk (taken m.mm page 1)
    (fun a => if m.mm.memStart + page * pageSize <= a ∧
        a < m.mm.memStart + page * pageSize + 1 * pageSize then 0
      else m.word a) := ⟨_, rfl⟩
  rw [← hm1] at hres
  have hformed1' : Formed m1.mm := by
    rw [hm1]
    exact hformed1
  rcases allocPages_cases hformed1' with
    hnone | ⟨page', halloc', _, hne', hformed2, hpage', _⟩
  · simp [hnone] at hres
  · simp only [halloc', if_neg hne'] at hres
    cases hres
    apply tables_empty hformed2
    · rw [hm1]
      exact haligned
    · exact usedPage_taken hpage'
    · intro k hk
      show m1.word (m1.mm.memStart + page' * pageSize + 4 * k) = 0
      have hword := hzero k hk
      rw [hm1] at hword ⊢
      simp only at hword ⊢
      rw [hword, ite_self]

/--
The page tables refine the partial map: after every run of calls that meet
their conditions, `vmm_get_phys_addr` returns the frame that the last successful
call gave the page, and `NULL` for every other page.
-/
theorem page_tables_refine_map (m m' : Machine) (c : Context)
    (hformed : Formed m.mm) (haligned : m.mm.memStart % 4096 = 0)
    (hcreate : vmmCreateContext m = (some c, m'))
    (hzero : forall k, k < 1024 -> m.word (c.pageDir + 4 * k) = 0)
    (calls : List Call) (hok : RunOk c m' calls) (addr : Nat)
    (hne : addr ≠ 0) (hlt : addr < 2 ^ 32) :
    vmmGetPhysAddr c (run c m' (fun _ => none) calls).1 addr =
      match (run c m' (fun _ => none) calls).2 (addr / 4096) with
      | none => 0
      | some phys => phys + addr % 4096 := by
  rcases vmmCreateContext_tables hformed haligned hcreate hzero with
    ⟨htables, hempty⟩
  rw [vmmGetPhysAddr_eq _ _ hne,
    run_refines htables hempty hok (addr / 4096) (page_lt hlt)]

def uniformMachine (v : Nat) : Machine where
  mm := mmInit 0x100000 0x1000000 Bytes.zeros
  word := fun _ => v

theorem uniformMachine_formed (v : Nat) : Formed (uniformMachine v).mm :=
  mmInit_formed Bytes.zeros (by decide) (by decide)

theorem allocPages_word (m : Machine) (count : Nat) :
    (allocPages m count).2.word = m.word :=
  rfl

theorem vmmCreateContext_zeros (h : forall a, m.word a = 0)
    (a : Nat) : (vmmCreateContext m).2.word a = 0 := by
  have hkmalloc : forall a, (kmallocZero m 8).2.word a = 0 := by
    intro a
    unfold kmallocZero
    rw [if_neg (by decide)]
    simp only
    split
    · exact h a
    · simp only [allocPages_word, h a, ite_self]
  unfold vmmCreateContext
  simp only
  split
  · exact hkmalloc a
  · split
    · unfold kfree
      split
      · exact hkmalloc a
      · exact hkmalloc a
    · exact hkmalloc a

def firstContext : Context where
  pageDir := 0x102000
  pageDirPhys := 0x102000

theorem page_tables_refine_map_zeros :
    vmmGetPhysAddr firstContext
      (run firstContext (vmmCreateContext (uniformMachine 0)).2
        (fun _ => none) [Call.map 0x400000 0x5000 3]).1 0x400123 = 0x5123 := by
  have hcreate : vmmCreateContext (uniformMachine 0) =
      (some firstContext, (vmmCreateContext (uniformMachine 0)).2) := by
    apply Prod.ext
    · decide +kernel
    · rfl
  have hzero := vmmCreateContext_zeros (m := uniformMachine 0) (fun _ => rfl)
  rw [page_tables_refine_map (uniformMachine 0) _ firstContext
    (uniformMachine_formed 0) (by decide) hcreate (fun _ _ => rfl)
    [Call.map 0x400000 0x5000 3] ⟨⟨by decide, by decide, by decide, by decide,
      by decide, fun _ _ k _ => hzero _⟩, trivial⟩ 0x400123 (by decide)
    (by decide)]
  decide +kernel

/--
`mm_alloc_pages` does not clear the directory: whatever the page held before is
taken for page tables, and a page that was never mapped has a frame.
-/
theorem stale_directory_maps_unmapped_page :
    (vmmCreateContext (uniformMachine 0x200001)).1 = some firstContext ∧
      vmmGetPhysAddr firstContext
        (vmmCreateContext (uniformMachine 0x200001)).2 0x400123 = 0x200123 := by
  constructor
  · decide +kernel
  · decide +kernel

end PageTable
end Horizon
