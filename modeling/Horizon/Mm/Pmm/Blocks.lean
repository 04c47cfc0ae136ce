import Horizon.Mm.Pmm.Lemmas

/-!
# Block safety of the buddy allocator

The invariant relates the free lists and the blocks handed out to a tiling of
the pages that were made available.  Splitting never writes the order of the
half it frees and merging leaves stale flags behind, so the invariant also says
what the order field of an inner page is and where a set buddy flag can be.
-/

namespace Horizon
namespace Pmm

open Function List LinkedList
open Tilings

/--
The state of the allocator between two steps of a call.  `cur` is the
block in the hands of the running call (at most one), `out` are the blocks
held by callers, and `region` counts how often a page was made available.
-/
structure BuddyInv (F : PageFlagOps) (region : Nat -> Nat) (s : State)
    (free : FreeLists) (cur out : List Block) : Prop where
  rings : FreeRings s.links free
  tiling : Tiling s.pageFramesCount region
    (fun x => (s.pageFrames x).order) (freeBlocks free ++ cur ++ out)
  orders : forall b, b ∈ cur ++ out -> b.order <= 10
  label : forall (k : Fin 11) p, p ∈ free k -> (s.pageFrames p).order = k
  flagged : forall x, x < s.pageFramesCount ->
    pageTestFlags F s x PageFlag.buddy = true ->
    (exists k, x ∈ free k) ∨
    (exists b, b ∈ freeBlocks free ++ cur ++ out ∧ b.Inner x) ∨
    (exists b, b ∈ cur ∧ b.start = x)
  counter : s.freePages = totalSize (freeBlocks free) + totalSize cur

theorem cur_perm (bs : List Block) (b : Block) (cur out : List Block) :
    (bs ++ b :: cur ++ out).Perm (b :: (bs ++ cur ++ out)) := by
  rw [append_assoc, cons_append, append_assoc]
  exact perm_middle

namespace BuddyInv

variable {F : PageFlagOps} {region : Nat -> Nat} {s : State}
  {free free' : FreeLists} {cur cur' out out' : List Block}

variable {b : Block} {n o p t x order : Nat}

section

variable (h : BuddyInv F region s free cur out)
include h

theorem freePages_lt : s.freePages < 2 ^ 64 := by
  have hcount := s.count_lt
  have htotal := h.tiling.totalSize_le
  have hcounter := h.counter
  rw [totalSize_append, totalSize_append] at htotal
  omega

theorem order_le (hb : b ∈ freeBlocks free ++ cur ++ out) : b.order <= 10 := by
  rw [append_assoc] at hb
  rcases mem_append.mp hb with hfree | hheld
  · rcases mem_freeBlocks.mp hfree with ⟨k, hk, _⟩
    omega
  · exact h.orders b hheld

theorem regroup {L : Links Node} (hrings : FreeRings L free')
    (hall : (freeBlocks free ++ cur ++ out).Perm
      (freeBlocks free' ++ cur' ++ out'))
    (hlabel : forall (k : Fin 11) p, p ∈ free' k ->
      (s.pageFrames p).order = k)
    (hstart : forall x, pageTestFlags F s x .buddy = true ->
      (exists k, x ∈ free k) ∨ (exists b, b ∈ cur ∧ b.start = x) ->
      (exists k, x ∈ free' k) ∨ exists b, b ∈ cur' ∧ b.start = x)
    (hn : n + totalSize out' = s.freePages + totalSize out) :
    BuddyInv F region ((s.setLinks L).setFreePages n) free' cur' out' where
  rings := hrings
  tiling := h.tiling.perm hall
  orders b hb := by
    apply h.order_le
    rw [hall.mem_iff, append_assoc]
    exact mem_append_right _ hb
  label := hlabel
  flagged x hlt hx := by
    rcases h.flagged x hlt hx with hfree | ⟨b, hb, hinner⟩ | hcur
    · exact (hstart x hx (Or.inl hfree)).imp_right Or.inr
    · exact Or.inr (Or.inl ⟨b, hall.mem_iff.mp hb, hinner⟩)
    · exact (hstart x hx (Or.inr hcur)).imp_right Or.inr
  counter := by
    have hsize := totalSize_perm hall
    have hcounter := h.counter
    simp only [totalSize_append] at hsize
    rw [freePages_setFreePages]
    omega

theorem recut (htiling : Tiling s.pageFramesCount region
      (fun x => (s.pageFrames x).order) (freeBlocks free ++ cur' ++ out))
    (horders : forall b, b ∈ cur' -> b.order <= 10)
    (hpoints : forall b, b ∈ cur -> forall x, b.Covers x ->
      exists c, c ∈ cur' ∧ c.Covers x)
    (hsize : totalSize cur' = totalSize cur) :
    BuddyInv F region s free cur' out := by
  have hcut (b : Block) (hb : b ∈ cur) (x : Nat) (hx : b.Covers x) :
      (exists c, c ∈ freeBlocks free ++ cur' ++ out ∧ c.Inner x) ∨
        exists c, c ∈ cur' ∧ c.start = x := by
    rcases hpoints b hb x hx with ⟨c, hc, hcov⟩
    rcases hcov.start_or_inner with heq | hinner
    · exact Or.inr ⟨c, hc, heq⟩
    · exact Or.inl ⟨c, by simp [hc], hinner⟩
  refine ⟨h.rings, htiling, ?_, h.label, ?_, by rw [hsize]; exact h.counter⟩
  · intro b hb
    rcases mem_append.mp hb with hmem | hmem
    · exact horders b hmem
    · exact h.orders b (mem_append_right _ hmem)
  · intro x hlt hx
    rcases h.flagged x hlt hx with hfree | ⟨b, hb, hinner⟩ | ⟨b, hb, rfl⟩
    · exact Or.inl hfree
    · rw [append_assoc, mem_append, mem_append] at hb
      rcases hb with hb | hb | hb
      · exact Or.inr (Or.inl ⟨b, by simp [hb], hinner⟩)
      · exact Or.inr (hcut b hb x hinner.covers)
      · exact Or.inr (Or.inl ⟨b, by simp [hb], hinner⟩)
    · exact Or.inr (hcut b hb b.start b.covers_start)

theorem clearBuddy (p : Nat) :
    BuddyInv F region (pageClearFlags F s p .buddy) free cur out where
  rings := h.rings
  tiling := by simpa using h.tiling
  orders := h.orders
  label := by simpa using h.label
  flagged x hlt hx := by
    by_cases hxp : x = p
    · simp [hxp] at hx
    · exact h.flagged x hlt (by simpa [hxp] using hx)
  counter := h.counter

theorem take {k : Fin 11} (hp : p ∈ free k) :
    exists L, s.listDel p = some (s.setLinks L) ∧
      BuddyInv F region (s.setLinks L)
        (update free k ((free k).erase p)) (Block.mk p k :: cur) out := by
  rcases h.rings.listDel hp with ⟨L, hdel, hrings⟩
  have hperm := ((freeBlocks_del hp).append_right cur).append_right out
  refine ⟨L, hdel, h.regroup (n := s.freePages) hrings
    (hperm.trans (cur_perm _ _ _ _).symm) ?_ ?_ rfl⟩
  · intro j q hq
    exact h.label j q ((h.rings.mem_update_erase hp).mp hq).left
  · rintro x _ (⟨j, hj⟩ | ⟨b, hb, hx⟩)
    · by_cases hxp : x = p
      · exact Or.inr ⟨⟨p, k⟩, mem_cons_self, hxp.symm⟩
      · exact Or.inl ⟨j, (h.rings.mem_update_erase hp).mpr ⟨hj, hxp⟩⟩
    · exact Or.inr ⟨b, mem_cons_of_mem _ hb, hx⟩

end

/-!
## The block in hand
-/

section

variable (h : BuddyInv F region s free (b :: cur) out)
include h

theorem inHand : Tiling s.pageFramesCount region
    (fun x => (s.pageFrames x).order) (b :: (freeBlocks free ++ cur ++ out)) :=
  h.tiling.perm (cur_perm _ b cur out)

theorem start_not_free (k : Fin 11) : b.start ∉ free k := by
  intro hmem
  have hblock : (⟨b.start, k⟩ : Block) ∈ freeBlocks free ++ cur ++ out := by
    simp [mem_freeBlocks, Fin.val_inj, hmem]
  exact h.inHand.not_covers hblock b.covers_start (Block.covers_start _)

theorem setOrder (order : Nat) :
    BuddyInv F region (s.setOrder b.start order) free (b :: cur) out where
  rings := h.rings
  tiling := by
    apply Tiling.perm _ (cur_perm _ _ _ _).symm
    apply h.inHand.relabel
    intro x hx
    simp [hx]
  orders := h.orders
  label k q hq := by
    have hqb : q ≠ b.start := fun heq => h.start_not_free k (heq ▸ hq)
    simpa [hqb] using h.label k q hq
  flagged := by simpa using h.flagged
  counter := h.counter

theorem setBuddy :
    BuddyInv F region (pageSetFlags F s b.start .buddy) free (b :: cur) out where
  rings := h.rings
  tiling := by simpa using h.tiling
  orders := h.orders
  label := by simpa using h.label
  flagged x hlt hx := by
    by_cases hxb : x = b.start
    · exact Or.inr (Or.inr ⟨b, mem_cons_self, hxb.symm⟩)
    · exact h.flagged x hlt (by simpa [hxb] using hx)
  counter := h.counter

end

theorem finishFree (ho : o < 11)
    (h : BuddyInv F region s free (Block.mk p o :: cur) out)
    (hself : (s.pageFrames p).order = o) :
    exists L, s.listAdd p o = some (s.setLinks L) ∧
      BuddyInv F region (s.setLinks L)
        (update free ⟨o, ho⟩ (p :: free ⟨o, ho⟩)) cur out := by
  rcases h.rings.listAdd ⟨o, ho⟩ h.start_not_free with ⟨L, hadd, hrings⟩
  have hperm :=
    ((freeBlocks_add free ⟨o, ho⟩ p).append_right cur).append_right out
  refine ⟨L, hadd, h.regroup (n := s.freePages) hrings
    ((cur_perm _ _ _ _).trans hperm.symm) ?_ ?_ rfl⟩
  · intro k q hq
    rcases mem_update_cons.mp hq with ⟨rfl, rfl⟩ | hmem
    · exact hself
    · exact h.label k q hmem
  · rintro x _ (⟨k, hk⟩ | ⟨b, hb, rfl⟩)
    · exact Or.inl ⟨k, mem_update_cons.mpr (Or.inr hk)⟩
    · rcases mem_cons.mp hb with rfl | hmem
      · exact Or.inl ⟨⟨o, ho⟩, mem_update_cons.mpr (Or.inl ⟨rfl, rfl⟩)⟩
      · exact Or.inr ⟨b, hmem, rfl⟩

/-!
## Steps of an allocation
-/

/--
One round of the splitting loop: the upper half goes to the list below.  Its
order field is not written; as an inner page it already holds the right value.
-/
theorem splitStep {c : Nat} (hc : c < 11)
    (h : BuddyInv F region s free [Block.mk p (c + 1)] out) :
    exists L, (pageSetFlags F s (p + 2 ^ c) .buddy).listAdd
        (p + 2 ^ c) c =
        some ((pageSetFlags F s (p + 2 ^ c) .buddy).setLinks L) ∧
      BuddyInv F region
        ((pageSetFlags F s (p + 2 ^ c) .buddy).setLinks L)
        (update free ⟨c, hc⟩ ((p + 2 ^ c) :: free ⟨c, hc⟩))
        [Block.mk p c] out := by
  rcases h.inHand.split with ⟨hsplit, hlabel⟩
  have hperm : (Block.mk p c :: Block.mk (p + 2 ^ c) c ::
      (freeBlocks free ++ [] ++ out)).Perm
      (freeBlocks free ++ [Block.mk (p + 2 ^ c) c, Block.mk p c] ++ out) :=
    (List.Perm.swap _ _ _).trans (((cur_perm _ _ _ _).trans
      ((cur_perm _ _ _ _).cons _)).symm)
  have hhalves : BuddyInv F region s free
      [Block.mk (p + 2 ^ c) c, Block.mk p c] out := by
    apply h.recut (hsplit.perm hperm)
    · intro b hb
      have hle := h.orders _ (mem_append_left _ mem_cons_self)
      rcases mem_pair.mp hb with rfl | rfl <;> exact Nat.le_of_lt hle
    · intro b hb x hx
      rw [mem_singleton.mp hb] at hx
      simp only [Block.Covers, Block.size, Nat.pow_succ] at hx
      by_cases hlt : x < p + 2 ^ c
      · exact ⟨Block.mk p c, by simp, hx.left, hlt⟩
      · refine ⟨Block.mk (p + 2 ^ c) c, by simp, ?_⟩
        simp only [Block.Covers, Block.size]
        omega
    · simp [Nat.pow_succ, Nat.mul_two]
  exact hhalves.setBuddy.finishFree hc (by simpa using hlabel)

theorem splitLoop (hn : order + n <= 10)
    (h : BuddyInv F region s free [Block.mk p (order + n)] out)
    (hclear : pageTestFlags F s p .buddy = false) :
    exists s' free', pmmSplit F p order n s = some s' ∧
      BuddyInv F region s' free' [Block.mk p order] out ∧
      pageTestFlags F s' p .buddy = false ∧
      s'.pageFramesCount = s.pageFramesCount := by
  induction n generalizing s free with
  | zero => exact ⟨s, free, rfl, h, hclear, rfl⟩
  | succ n ih =>
    rcases splitStep (c := order + n) (by omega) h with ⟨L, hadd, hstep⟩
    have hpos := Nat.two_pow_pos (order + n)
    have hne : p ≠ p + 2 ^ (order + n) := by omega
    have hclear' : pageTestFlags F
        ((pageSetFlags F s (p + 2 ^ (order + n)) .buddy).setLinks L)
        p .buddy = false := by
      simpa [hne] using hclear
    rcases ih (by omega) hstep hclear' with
      ⟨s', free', hsplit, hinv, hflag, hcount⟩
    refine ⟨s', free', ?_, hinv, hflag, hcount⟩
    simp only [pmmSplit, Nat.shiftLeft_eq, Nat.one_mul, hadd]
    exact hsplit

theorem finishAlloc (h : BuddyInv F region s free [Block.mk p order] out)
    (hclear : pageTestFlags F s p .buddy = false)
    (hn : n + 2 ^ order = s.freePages) :
    BuddyInv F region ((s.setOrder p order).setFreePages n)
      free [] (Block.mk p order :: out) := by
  have hset := h.setOrder order
  apply hset.regroup hset.rings _ hset.label
  · rintro x hx (hfree | ⟨b, hb, rfl⟩)
    · exact Or.inl hfree
    · rw [mem_singleton.mp hb, pageTestFlags_setOrder, hclear] at hx
      cases hx
  · simp only [totalSize_cons, freePages_setOrder]
    omega
  · rw [append_nil, append_assoc]
    rfl

/-!
## Steps of a free
-/

theorem beginFree (h : BuddyInv F region s free [] out)
    (hb : Block.mk p order ∈ out) (hn : n = s.freePages + 2 ^ order) :
    BuddyInv F region
      (((pageSetFlags F s p .buddy).setOrder p order).setFreePages n)
      free [Block.mk p order] (out.erase (Block.mk p order)) := by
  have hout := perm_cons_erase hb
  have hall : (freeBlocks free ++ [] ++ out).Perm (freeBlocks free ++
      [Block.mk p order] ++ out.erase (Block.mk p order)) := by
    rw [append_nil, append_assoc]
    exact hout.append_left _
  have hback : BuddyInv F region ((s.setLinks s.links).setFreePages n) free
      [Block.mk p order] (out.erase (Block.mk p order)) := by
    apply h.regroup h.rings hall h.label
    · rintro x _ (hfree | ⟨b, hnone, _⟩)
      · exact Or.inl hfree
      · cases hnone
    · have hsize := totalSize_perm hout
      simp only [totalSize_cons] at hsize
      omega
  exact hback.setBuddy.setOrder order

theorem buddy_cases (h : 2 ^ o ∣ p) :
    exists t, 2 ^ (o + 1) ∣ t ∧
      ((p = t ∧ p ^^^ 2 ^ o = t + 2 ^ o) ∨
        (p = t + 2 ^ o ∧ p ^^^ 2 ^ o = t)) := by
  rcases aligned_cases h with heven | ⟨t, ht, rfl⟩
  · exact ⟨p, heven, Or.inl ⟨rfl, xor_two_pow_of_even heven⟩⟩
  · exact ⟨t, ht, Or.inr ⟨rfl, xor_two_pow_of_odd ht⟩⟩

/--
A flagged buddy with the order of the block in hand is the start of a free
block of that order: a stale flag sits on an inner page, and the block around
an inner buddy would overlap the block in hand.
-/
theorem buddy_free (ho : o < 11)
    (h : BuddyInv F region s free [Block.mk p o] out)
    (hlt : p ^^^ 2 ^ o < s.pageFramesCount)
    (hflag : pageTestFlags F s (p ^^^ 2 ^ o) .buddy = true)
    (horder : (s.pageFrames (p ^^^ 2 ^ o)).order = o) :
    p ^^^ 2 ^ o ∈ free ⟨o, ho⟩ := by
  have htiling := h.inHand
  have halign : 2 ^ o ∣ p := htiling.aligned ⟨p, o⟩ mem_cons_self
  rcases buddy_cases halign with ⟨t, ht, hcases⟩
  rcases h.flagged _ hlt hflag with ⟨k, hk⟩ | ⟨b, hb, hinner⟩ | ⟨b, hb, heq⟩
  · have hlabel := h.label k _ hk
    rw [horder] at hlabel
    have hko : k = ⟨o, ho⟩ := Fin.ext hlabel.symm
    rwa [hko] at hk
  · exfalso
    rcases mem_cons.mp ((cur_perm _ _ [] _).mem_iff.mp hb) with rfl | hmem
    · have h1 := hinner.left
      have h2 := hinner.right
      simp only [Block.size] at h1 h2
      omega
    · have hbAlign := htiling.aligned b (mem_cons_of_mem _ hmem)
      have hbuddy : 2 ^ o ∣ p ^^^ 2 ^ o := by
        have hto : 2 ^ o ∣ t := Nat.dvd_trans ⟨2, Nat.pow_succ 2 o⟩ ht
        rcases hcases with ⟨_, hx⟩ | ⟨_, hx⟩
        · rw [hx]
          exact Nat.dvd_add hto (Nat.dvd_refl _)
        · rw [hx]
          exact hto
      by_cases hle : b.order <= o
      · have hstart := hinner.covers.eq_start hbAlign hbuddy hle
        have h1 := hinner.left
        omega
      · have hboth := hinner.covers.pair hbAlign ht (by omega)
          (by omega) (by omega)
        have hcov : b.Covers p := by
          rcases hcases with ⟨hp, _⟩ | ⟨hp, _⟩
          · rw [hp]
            exact hboth.left
          · rw [hp]
            exact hboth.right
        exact htiling.not_covers hmem (Block.covers_start ⟨p, o⟩) hcov
  · exfalso
    rw [mem_singleton.mp hb] at heq
    simp only at heq
    omega

theorem swap {c : Block} (h : BuddyInv F region s free [b, c] out) :
    BuddyInv F region s free [c, b] out := by
  have hperm := ((List.Perm.swap c b []).append_left
    (freeBlocks free)).append_right out
  apply h.regroup (n := s.freePages) h.rings hperm h.label _ rfl
  rintro x _ (hfree | ⟨d, hd, heq⟩)
  · exact Or.inl hfree
  · exact Or.inr ⟨d, (List.Perm.swap c b []).mem_iff.mp hd, heq⟩

theorem mergeBlock (ho : o < 10) (ht : 2 ^ (o + 1) ∣ t)
    (h : BuddyInv F region s free [Block.mk t o, Block.mk (t + 2 ^ o) o] out)
    (hlabel : (s.pageFrames (t + 2 ^ o)).order = o) :
    BuddyInv F region s free [Block.mk t (o + 1)] out := by
  have hperm := (cur_perm (freeBlocks free) (Block.mk t o)
    [Block.mk (t + 2 ^ o) o] out).trans ((cur_perm _ _ [] _).cons _)
  have hmerged := (h.tiling.perm hperm).merge ht hlabel
  apply h.recut (hmerged.perm (cur_perm _ _ [] _).symm)
  · intro b hb
    rw [mem_singleton.mp hb]
    exact ho
  · intro b hb x hx
    refine ⟨Block.mk t (o + 1), mem_cons_self, ?_⟩
    rcases mem_pair.mp hb with rfl | rfl <;>
      simp only [Block.Covers, Block.size, Nat.pow_succ] at hx ⊢ <;> omega
  · simp [Nat.pow_succ, Nat.mul_two]

theorem mergeStep (ho : o < 10)
    (h : BuddyInv F region s free [Block.mk p o] out)
    (hself : (s.pageFrames p).order = o) (hlt : p ^^^ 2 ^ o < s.pageFramesCount)
    (hflag : pageTestFlags F s (p ^^^ 2 ^ o) .buddy = true)
    (horder : (s.pageFrames (p ^^^ 2 ^ o)).order = o) :
    exists L t free', s.listDel (p ^^^ 2 ^ o) = some (s.setLinks L) ∧
      (if p ^^^ 2 ^ o < p then p ^^^ 2 ^ o else p) = t ∧
      BuddyInv F region
        ((pageClearFlags F (s.setLinks L) (p ^^^ 2 ^ o)
          .buddy).setOrder t (o + 1))
        free' [Block.mk t (o + 1)] out := by
  have ho' : o < 11 := by omega
  have halign : 2 ^ o ∣ p := h.inHand.aligned ⟨p, o⟩ mem_cons_self
  rcases h.take (h.buddy_free ho' hlt hflag horder) with ⟨L, hdel, htake⟩
  have hboth := htake.clearBuddy (p ^^^ 2 ^ o)
  generalize update free ⟨o, ho'⟩ _ = rest at hboth
  -- Both orders of the two halves give the same merged block.
  rcases buddy_cases halign with ⟨t, ht, ⟨hp, hx⟩ | ⟨hp, hx⟩⟩
  · rw [hx, hp] at hboth
    rw [hx] at horder
    have hmerged := mergeBlock ho ht hboth.swap (by simpa using horder)
    refine ⟨L, t, rest, hdel, by rw [if_neg (by omega), hp], ?_⟩
    rw [hx]
    exact hmerged.setOrder _
  · rw [hx, hp] at hboth
    rw [hp] at hself
    have hmerged := mergeBlock ho ht hboth (by simpa using hself)
    refine ⟨L, t, rest, hdel, by rw [if_pos (by omega), hx], ?_⟩
    rw [hx]
    exact hmerged.setOrder _

theorem mergeLoop (ho : o + n = 10)
    (h : BuddyInv F region s free [Block.mk p o] out)
    (hself : (s.pageFrames p).order = o) :
    exists s' free' p' o', pmmMerge F n s p o = some (s', p', o') ∧
      BuddyInv F region s' free' [Block.mk p' o'] out ∧
      (s'.pageFrames p').order = o' ∧
      s'.pageFramesCount = s.pageFramesCount := by
  induction n generalizing s free p o with
  | zero => exact ⟨s, free, p, o, rfl, h, hself, rfl⟩
  | succ n ih =>
    unfold pmmMerge
    simp only [Nat.shiftLeft_eq, Nat.one_mul]
    split
    case isTrue hbound => exact ⟨s, free, p, o, rfl, h, hself, rfl⟩
    case isFalse hbound =>
      split
      case isTrue hstop => exact ⟨s, free, p, o, rfl, h, hself, rfl⟩
      case isFalse hstop =>
        have hgo : pageTestFlags F s (p ^^^ 2 ^ o) .buddy = true ∧
            (s.pageFrames (p ^^^ 2 ^ o)).order = o := by
          simpa using hstop
        rcases mergeStep (by omega) h hself (by omega) hgo.left hgo.right with
          ⟨L, t, free', hdel, htarget, hinv⟩
        rcases ih (by omega) hinv (by simp) with
          ⟨s', free'', p', o', hrun, hinv', horder, hcount⟩
        refine ⟨s', free'', p', o', ?_, hinv', horder, ?_⟩
        · rw [hdel, htarget]
          exact hrun
        · rw [hcount]
          rfl

end BuddyInv

/-!
## The calls
-/

section Calls

variable {F : PageFlagOps} {region : Nat -> Nat} {s : State}
  {free : FreeLists} {out : List Block}

variable {k order : Nat}

theorem pmmFindOrder_some {n c : Nat} (h : pmmFindOrder s n c = some k) :
    c <= k ∧ k < c + n ∧ listEmpty s.links (.area k) = false ∧
      forall j, c <= j -> j < k -> listEmpty s.links (.area j) = true := by
  induction n generalizing c with
  | zero => cases h
  | succ n ih =>
    unfold pmmFindOrder at h
    cases hempty : listEmpty s.links (.area c) with
    | true =>
      rw [if_pos hempty] at h
      rcases ih h with ⟨hle, hlt, hk, hbelow⟩
      refine ⟨by omega, by omega, hk, ?_⟩
      intro j hj hjk
      by_cases hjc : j = c
      · rw [hjc]
        exact hempty
      · exact hbelow j (by omega) hjk
    | false =>
      rw [if_neg (by simp [hempty])] at h
      cases h
      exact ⟨Nat.le_refl _, by omega, hempty, by omega⟩

theorem FreeRings.found (h : FreeRings s.links free) (horder : ¬ order > 10)
    (hfind : pmmFindOrder s (11 - order) order = some k) :
    order <= k ∧ exists (hk : k < 11) (p : Nat),
      p ∈ free ⟨k, hk⟩ ∧ Pmm.firstPage s k = some p := by
  rcases pmmFindOrder_some hfind with ⟨hle, hlt, hnonempty, _⟩
  have hk : k < 11 := by omega
  refine ⟨hle, hk, ?_⟩
  cases hfree : free ⟨k, hk⟩ with
  | nil =>
    have hempty := (h.listEmpty_iff ⟨k, hk⟩).mpr hfree
    rw [hnonempty] at hempty
    cases hempty
  | cons p ps => exact ⟨p, mem_cons_self, h.firstPage hfree⟩

theorem pmmAllocPages_spec (h : BuddyInv F region s free [] out) (order : Nat) :
    exists r s' free', pmmAllocPages F s order = some (r, s') ∧
      s'.pageFramesCount = s.pageFramesCount ∧
      match r with
      | none => BuddyInv F region s' free' [] out
      | some p => BuddyInv F region s' free' [] (Block.mk p order :: out) := by
  unfold pmmAllocPages
  split
  case isTrue horder => exact ⟨none, s, free, rfl, rfl, h⟩
  case isFalse horder =>
    cases hfind : pmmFindOrder s (11 - order) order with
    | none => exact ⟨none, s, free, rfl, rfl, h⟩
    | some k =>
      rcases h.rings.found horder hfind with ⟨hle, hk, p, hmem, hfirst⟩
      rcases h.take hmem with ⟨L, hdel, htake⟩
      have hcleared := htake.clearBuddy p
      have hsum : order + (k - order) = k := by omega
      rw [show (Block.mk p (⟨k, hk⟩ : Fin 11)) =
        Block.mk p (order + (k - order)) by rw [hsum]] at hcleared
      rcases hcleared.splitLoop (by omega) (by simp) with
        ⟨s', free', hsplit, hinv, hclear, hcount⟩
      have hshift : 1 <<< order = 2 ^ order := by
        rw [Nat.shiftLeft_eq, Nat.one_mul]
      have hcounter := hinv.counter
      simp only [totalSize_cons, totalSize_nil] at hcounter
      have hsub : subU64 s'.freePages (1 <<< order) + 2 ^ order =
          s'.freePages := by
        rw [hshift, subU64_eq hinv.freePages_lt (by omega)]
        omega
      refine ⟨some p, _, free', ?_, ?_, hinv.finishAlloc hclear hsub⟩
      · simp only [hfirst, Option.bind_eq_bind, Option.bind_some, hdel, hsplit]
        rfl
      · rw [count_setFreePages, count_setOrder, hcount]
        rfl

theorem pmmFreePages_spec (h : BuddyInv F region s free [] out) {p : Nat}
    (hb : Block.mk p order ∈ out) :
    exists s' free', pmmFreePages F s p order = some s' ∧
      s'.pageFramesCount = s.pageFramesCount ∧
      BuddyInv F region s' free' [] (out.erase (Block.mk p order)) := by
  have horder : order <= 10 := h.orders ⟨p, order⟩ (by simpa using hb)
  have hshift : 1 <<< order = 2 ^ order := by rw [Nat.shiftLeft_eq, Nat.one_mul]
  have hlt : s.freePages + 2 ^ order < 2 ^ 64 := by
    have hpow : 2 ^ order <= 2 ^ 10 := Nat.pow_le_pow_right (by omega) horder
    have hcounter := h.counter
    have htotal := h.tiling.totalSize_le
    have hcount := s.count_lt
    simp only [totalSize_append, totalSize_nil] at hcounter htotal
    omega
  have hadd : addU64 s.freePages (1 <<< order) = s.freePages + 2 ^ order := by
    rw [hshift, addU64_eq hlt]
  rcases (h.beginFree hb hadd).mergeLoop (n := 10 - order) (by omega)
      (by simp) with ⟨s', free', p', o', hmerge, hinv, hself, hcount⟩
  have ho' : o' < 11 := by
    have hle := hinv.orders ⟨p', o'⟩ (by simp)
    exact Nat.lt_succ_of_le hle
  rcases hinv.finishFree ho' hself with ⟨L, hlist, hdone⟩
  refine ⟨_, _, ?_, ?_, hdone⟩
  · unfold pmmFreePages
    rw [if_neg (by omega)]
    simp only [Option.bind_eq_bind]
    have hmerge' := hmerge
    simp only [freePages_setOrder, freePages_pageSetFlags]
    rw [hmerge', Option.bind_some]
    exact hlist
  · rw [count_setLinks, hcount]
    rfl

end Calls

end Pmm
end Horizon
