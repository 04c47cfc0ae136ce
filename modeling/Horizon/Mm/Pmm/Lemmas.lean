import Horizon.Mm.Pmm.Model
import Mathlib.Algebra.BigOperators.Fin

/-!
# Field lemmas of the memory manager

How each update of the state changes the flags, the orders and the free lists.
The later modules use these facts and do not unfold the updates again.
-/

namespace Horizon
namespace Pmm

open Function List LinkedList
open Tilings

/-!
## Flag words
-/

theorem PageFlag.and_mask (w : Nat) (f : PageFlag) :
    (w &&& f.mask != 0) = w.testBit f.bit := by
  rw [PageFlag.mask, Nat.shiftLeft_eq, Nat.one_mul, Nat.and_two_pow]
  cases w.testBit f.bit <;> simp

theorem PageFlag.testBit_mask (f g : PageFlag) :
    f.mask.testBit g.bit = decide (f = g) := by
  cases f <;> cases g <;> rfl

/-- The flag functions as plain bit operations on the flag word. -/
def bitFlags : PageFlagOps where
  set w m := w ||| m
  clear w m := w ^^^ (w &&& m)
  test w m := w &&& m != 0
  test_zero f := by simp
  test_set w f g := by
    simp only [PageFlag.and_mask, Nat.testBit_or, PageFlag.testBit_mask]
    by_cases hfg : f = g <;> simp [hfg]
  test_clear w f g := by
    simp only [PageFlag.and_mask, Nat.testBit_xor, Nat.testBit_and,
      PageFlag.testBit_mask]
    by_cases hfg : f = g <;> simp [hfg]

/-!
## Fields
-/

section Fields

variable (F : PageFlagOps) (s : State) (pfn x : Nat) (f g : PageFlag)

@[simp] theorem pageTestFlags_pageSetFlags :
    pageTestFlags F (pageSetFlags F s pfn f) x g =
      if x = pfn ∧ f = g then true else pageTestFlags F s x g := by
  by_cases hx : x = pfn
  · subst hx
    simp [pageTestFlags, pageSetFlags, State.setFlags, State.setPage, F.test_set]
  · simp [pageTestFlags, pageSetFlags, State.setFlags, State.setPage, hx]

@[simp] theorem pageTestFlags_pageClearFlags :
    pageTestFlags F (pageClearFlags F s pfn f) x g =
      if x = pfn ∧ f = g then false else pageTestFlags F s x g := by
  by_cases hx : x = pfn
  · subst hx
    simp [pageTestFlags, pageClearFlags, State.setFlags, State.setPage, F.test_clear]
  · simp [pageTestFlags, pageClearFlags, State.setFlags, State.setPage, hx]

@[simp] theorem pageTestFlags_setOrder (order : Nat) :
    pageTestFlags F (s.setOrder pfn order) x g = pageTestFlags F s x g := by
  by_cases hx : x = pfn
  · subst hx
    simp [pageTestFlags, State.setOrder, State.setPage]
  · simp [pageTestFlags, State.setOrder, State.setPage, hx]

@[simp] theorem order_setFlags (flags : Nat) :
    ((s.setFlags pfn flags).pageFrames x).order = (s.pageFrames x).order := by
  by_cases hx : x = pfn
  · subst hx
    simp [State.setFlags, State.setPage]
  · simp [State.setFlags, State.setPage, hx]

@[simp] theorem order_pageSetFlags :
    ((pageSetFlags F s pfn f).pageFrames x).order = (s.pageFrames x).order :=
  order_setFlags s pfn x _

@[simp] theorem order_pageClearFlags :
    ((pageClearFlags F s pfn f).pageFrames x).order = (s.pageFrames x).order :=
  order_setFlags s pfn x _

@[simp] theorem order_setOrder (order : Nat) :
    ((s.setOrder pfn order).pageFrames x).order =
      if x = pfn then order else (s.pageFrames x).order := by
  by_cases hx : x = pfn
  · subst hx
    simp [State.setOrder, State.setPage]
  · simp [State.setOrder, State.setPage, hx]

@[simp] theorem count_setOrder (order : Nat) :
    (s.setOrder pfn order).pageFramesCount = s.pageFramesCount := rfl




@[simp] theorem links_pageClearFlags :
    (pageClearFlags F s pfn f).links = s.links := rfl

@[simp] theorem freePages_setOrder (order : Nat) :
    (s.setOrder pfn order).freePages = s.freePages := rfl

@[simp] theorem freePages_pageSetFlags :
    (pageSetFlags F s pfn f).freePages = s.freePages := rfl

@[simp] theorem freePages_pageClearFlags :
    (pageClearFlags F s pfn f).freePages = s.freePages := rfl

/-! The counters and the links leave the page frames alone, and conversely. -/

@[simp] theorem pageTestFlags_setLinks (L : Links Node) :
    pageTestFlags F (s.setLinks L) x g = pageTestFlags F s x g := rfl

@[simp] theorem pageTestFlags_setFreePages (n : Nat) :
    pageTestFlags F (s.setFreePages n) x g = pageTestFlags F s x g := rfl

@[simp] theorem pageFrames_setLinks (L : Links Node) :
    (s.setLinks L).pageFrames = s.pageFrames := rfl

@[simp] theorem pageFrames_setFreePages (n : Nat) :
    (s.setFreePages n).pageFrames = s.pageFrames := rfl

@[simp] theorem links_setFreePages (n : Nat) :
    (s.setFreePages n).links = s.links := rfl

@[simp] theorem count_setLinks (L : Links Node) :
    (s.setLinks L).pageFramesCount = s.pageFramesCount := rfl

@[simp] theorem count_pageSetFlags :
    (pageSetFlags F s pfn f).pageFramesCount = s.pageFramesCount := rfl

@[simp] theorem count_pageClearFlags :
    (pageClearFlags F s pfn f).pageFramesCount = s.pageFramesCount := rfl

@[simp] theorem count_setFreePages (n : Nat) :
    (s.setFreePages n).pageFramesCount = s.pageFramesCount := rfl

@[simp] theorem freePages_setLinks (L : Links Node) :
    (s.setLinks L).freePages = s.freePages := rfl

@[simp] theorem freePages_setFreePages (n : Nat) :
    (s.setFreePages n).freePages = n := rfl

end Fields

variable {a b p : Nat} {ps : List Nat} {s : State} {k : Fin 11} {L : Links Node}

theorem addU64_eq (h : a + b < 2 ^ 64) : addU64 a b = a + b :=
  Nat.mod_eq_of_lt h

theorem subU64_eq (ha : a < 2 ^ 64) (h : b <= a) : subU64 a b = a - b := by
  unfold subU64
  rw [show a + 2 ^ 64 - b = 2 ^ 64 + (a - b) by omega, Nat.add_mod_left,
    Nat.mod_eq_of_lt (by omega)]

/-!
## Free lists

`FreeRings` says which frame numbers each of the eleven lists links.  The
blocks on the lists are the frame numbers paired with the order of their list.
-/

/-- The frame numbers linked on each list of `free_area`. -/
abbrev FreeLists := Fin 11 -> List Nat

def FreeRings (L : Links Node) (free : FreeLists) : Prop :=
  Rings L (fun k : Fin 11 => Node.area k) (fun k => (free k).map Node.page)

def freeBlocks (free : FreeLists) : List Block :=
  (List.finRange 11).flatMap fun k => (free k).map fun p => Block.mk p k

variable {free : FreeLists}

theorem mem_freeBlocks {b : Block} :
    b ∈ freeBlocks free <-> exists k : Fin 11, b.order = k ∧ b.start ∈ free k := by
  cases b with
  | mk start order =>
    simp only [freeBlocks, mem_flatMap, mem_map,
      mem_finRange, true_and, Block.mk.injEq]
    constructor
    · rintro ⟨k, p, hp, rfl, rfl⟩
      exact ⟨k, rfl, hp⟩
    · rintro ⟨k, rfl, hp⟩
      exact ⟨k, start, hp, rfl, rfl⟩

theorem map_update_page (free : FreeLists) (k : Fin 11) (ps : List Nat) :
    (fun j => (update free k ps j).map .page) =
      update (fun j => (free j).map .page) k
        (ps.map Node.page) := by
  funext j
  by_cases hj : j = k
  · subst hj
    simp
  · simp [hj]

theorem page_mem_map : .page p ∈ ps.map Node.page <-> p ∈ ps := by
  simp

theorem page_injective : Function.Injective Node.page := by
  intro p q h
  cases h
  rfl

theorem FreeRings.listAdd (h : FreeRings s.links free) (k : Fin 11)
    (hp : forall j, p ∉ free j) :
    exists L, s.listAdd p k = some (s.setLinks L) ∧
      FreeRings L (update free k (p :: free k)) := by
  have hhead : forall j : Fin 11, .page p ≠ Node.area j := by
    intro j heq
    cases heq
  have hnew : forall j, .page p ∉ (free j).map Node.page := by
    intro j hmem
    exact hp j (page_mem_map.mp hmem)
  rcases Rings.listAdd h (i := k) hhead hnew with ⟨L, hadd, hrings⟩
  refine ⟨L, by simp [State.listAdd, hadd], ?_⟩
  unfold FreeRings
  rw [map_update_page]
  exact hrings

theorem FreeRings.listDel (h : FreeRings s.links free) (hp : p ∈ free k) :
    exists L, s.listDel p = some (s.setLinks L) ∧
      FreeRings L (update free k ((free k).erase p)) := by
  rcases Rings.listDel h (page_mem_map.mpr hp) with ⟨L, hdel, hrings⟩
  refine ⟨L, by simp [State.listDel, hdel], ?_⟩
  unfold FreeRings
  rw [map_update_page, map_erase page_injective]
  exact hrings

theorem FreeRings.nodup (h : FreeRings L free) (k : Fin 11) :
    (free k).Nodup := by
  have hnodup := (h.ring k).nodup
  exact List.Nodup.of_map _ (nodup_cons.mp hnodup).right

theorem FreeRings.disjoint (h : FreeRings L free) {j : Fin 11} (hj : p ∈ free j)
    (hk : p ∈ free k) : j = k :=
  Rings.disjoint h j k (Node.page p) (page_mem_map.mpr hj)
    (page_mem_map.mpr hk)

theorem FreeRings.listEmpty_iff (h : FreeRings L free) (k : Fin 11) :
    listEmpty L (Node.area k) = true <-> free k = [] := by
  rw [(h.ring k).listEmpty_iff, map_eq_nil_iff]

theorem FreeRings.firstPage (h : FreeRings s.links free) (hk : free k = p :: ps) :
    Pmm.firstPage s k = some p := by
  have hnext := (h.ring k).segment.next_eq
  simp only [hk, map_cons, headD_cons] at hnext
  simp [Pmm.firstPage, hnext]

/-!
## Moving blocks on and off the lists
-/

private theorem flatMap_perm_cons {index : Type} {ks : List index}
    {g g' : index -> List Block} {k : index} {b : Block}
    (hnodup : ks.Nodup) (hk : k ∈ ks) (hself : (g' k).Perm (b :: g k))
    (hother : forall j, j ≠ k -> g' j = g j) :
    (ks.flatMap g').Perm (b :: ks.flatMap g) := by
  induction ks with
  | nil => cases hk
  | cons j ks ih =>
      rcases nodup_cons.mp hnodup with ⟨hj, hks⟩
      simp only [flatMap_cons]
      rcases mem_cons.mp hk with rfl | hmem
      · have hrest : ks.flatMap g' = ks.flatMap g := by
          apply flatMap_congr
          intro i hi
          exact hother i (fun heq => hj (heq ▸ hi))
        rw [hrest]
        exact hself.append_right _
      · have hjk : j ≠ k := fun heq => hj (heq ▸ hmem)
        rw [hother j hjk]
        exact ((ih hks hmem).append_left (g j)).trans perm_middle

theorem freeBlocks_add (free : FreeLists) (k : Fin 11) (p : Nat) :
    (freeBlocks (update free k (p :: free k))).Perm
      (⟨p, k⟩ :: freeBlocks free) := by
  apply flatMap_perm_cons (nodup_finRange 11) (mem_finRange k)
  · simp
  · intro j hj
    simp [hj]

theorem freeBlocks_del (hp : p ∈ free k) :
    (freeBlocks free).Perm
      (⟨p, k⟩ ::
        freeBlocks (update free k ((free k).erase p))) := by
  apply flatMap_perm_cons (nodup_finRange 11) (mem_finRange k)
  · have hperm := (perm_cons_erase hp).map (fun q => Block.mk q k)
    simpa using hperm
  · intro j hj
    simp [hj]

theorem mem_update_cons {j k : Fin 11} {p q : Nat} :
    q ∈ update free k (p :: free k) j <-> (q = p ∧ j = k) ∨ q ∈ free j := by
  by_cases hj : j = k
  · subst hj
    simp
  · simp [hj]

theorem FreeRings.mem_update_erase {j k : Fin 11} {p q : Nat}
    (h : FreeRings L free) (hp : p ∈ free k) :
    q ∈ update free k ((free k).erase p) j <-> q ∈ free j ∧ q ≠ p := by
  by_cases hj : j = k
  · subst hj
    rw [update_self, (h.nodup j).mem_erase_iff]
    exact And.comm
  · rw [update_of_ne hj]
    constructor
    · intro hq
      refine ⟨hq, ?_⟩
      intro heq
      subst heq
      exact hj (h.disjoint hq hp)
    · intro hq
      exact hq.left

theorem totalSize_freeBlocks (free : FreeLists) :
    totalSize (freeBlocks free) =
      ∑ k : Fin 11, 2 ^ (k : Nat) * (free k).length := by
  have hlist : forall k : Fin 11,
      totalSize ((free k).map fun p => Block.mk p k) =
        2 ^ (k : Nat) * (free k).length := by
    intro k
    have hmap : ((free k).map fun p => Block.mk p k).map Block.size =
        List.replicate (free k).length (2 ^ (k : Nat)) := by
      simp [map_map, comp_def, Block.size, List.map_const']
    rw [totalSize, hmap, sum_replicate, smul_eq_mul, Nat.mul_comm]
  unfold totalSize freeBlocks
  rw [map_flatMap, List.flatMap, sum_flatten, map_map]
  congr 1
  apply map_congr_left
  intro k _
  exact hlist k

end Pmm
end Horizon
