import Horizon.Mm.Pmm.Runs

/-!
# The buddy flag and the free lists

The merge loop and the reserve path both read `PG_buddy` as "this page heads a
block on some free list".  This module says which calls keep that reading true
and exhibits a run of allocations and frees that makes it false.
-/

namespace Horizon
namespace Pmm

open Function List LinkedList
open Tilings

def Listed (s : State) (x : Nat) : Prop :=
  exists k : Fin 11, Linked s.links (Node.area k) (Node.page x)

def FlagsAgree (F : PageFlagOps) (s : State) : Prop :=
  forall x, x < s.pageFramesCount ->
    (pageTestFlags F s x PageFlag.buddy = true <-> Listed s x)

variable {L : Links Node} {free : FreeLists} {j k : Fin 11}
    {p q count order : Nat} {F : PageFlagOps} {s : State}
    {ranges : List (Nat × Nat)}

theorem FreeRings.linked_iff (h : FreeRings L free) (k : Fin 11) (x : Nat) :
    Linked L (.area k) (.page x) <-> x ∈ free k := by
  rw [(h.ring k).linked_iff]
  exact page_mem_map

def Fits (count p order : Nat) : Prop :=
  2 ^ order ∣ p ∧ p + 2 ^ order <= count

theorem Fits.halves (h : Fits count p (order + 1)) :
    Fits count p order ∧ Fits count (p + 2 ^ order) order := by
  have hdvd : 2 ^ order ∣ p :=
    (Nat.pow_dvd_pow 2 (Nat.le_succ order)).trans h.left
  have hle := h.right
  exact ⟨⟨hdvd, by omega⟩, ⟨(Nat.dvd_add_self_right).mpr hdvd, by omega⟩⟩

theorem Fits.merge (h : Fits count p order) (hup : p < p ^^^ 2 ^ order)
    (hbuddy : (p ^^^ 2 ^ order) + 2 ^ order <= count) :
    Fits count p (order + 1) := by
  rcases aligned_cases h.left with heven | ⟨t, ht, rfl⟩
  · rw [xor_two_pow_of_even heven] at hbuddy
    refine ⟨heven, ?_⟩
    omega
  · rw [xor_two_pow_of_odd ht] at hup
    omega

/--
The flags agree with the lists, except that `held` is marked and not yet
listed.  The bounds keep every split and every merge inside the frame array.
-/
structure FlagInv (F : PageFlagOps) (s : State) (free : FreeLists)
    (held : Option Nat) (out : List Block) : Prop where
  rings : FreeRings s.links free
  agree : forall x, x < s.pageFramesCount ->
    (pageTestFlags F s x PageFlag.buddy = true <->
      (exists k, x ∈ free k) ∨ held = some x)
  heldFresh : forall x, held = some x -> forall k, x ∉ free k
  listed : forall (k : Fin 11) p, p ∈ free k -> Fits s.pageFramesCount p k
  orders : forall x, x < s.pageFramesCount ->
    x + 2 ^ (s.pageFrames x).order <= s.pageFramesCount
  blocks : forall b, b ∈ out ->
    b.order <= 10 ∧ Fits s.pageFramesCount b.start b.order

namespace FlagInv

variable {F : PageFlagOps} {s : State} {free : FreeLists}
  {held : Option Nat} {out : List Block}

theorem flagsAgree (h : FlagInv F s free none out) : FlagsAgree F s := by
  intro x hx
  rw [h.agree x hx]
  constructor
  · rintro (⟨k, hk⟩ | hheld)
    · exact ⟨k, (h.rings.linked_iff k x).mpr hk⟩
    · cases hheld
  · rintro ⟨k, hk⟩
    exact Or.inl ⟨k, (h.rings.linked_iff k x).mp hk⟩

section

variable (h : FlagInv F s free held out)
include h

theorem congr {s' : State} (hlinks : s'.links = s.links)
    (hcount : s'.pageFramesCount = s.pageFramesCount)
    (hflag : forall x, pageTestFlags F s' x .buddy = pageTestFlags F s x .buddy)
    (horder : forall x, (s'.pageFrames x).order = (s.pageFrames x).order) :
    FlagInv F s' free held out := by
  constructor
  · rw [hlinks]
    exact h.rings
  · intro x hx
    rw [hcount] at hx
    rw [hflag]
    exact h.agree x hx
  · exact h.heldFresh
  · rw [hcount]
    exact h.listed
  · intro x hx
    rw [hcount] at hx
    rw [horder, hcount]
    exact h.orders x hx
  · rw [hcount]
    exact h.blocks

theorem setFreePages (n : Nat) :
    FlagInv F (s.setFreePages n) free held out :=
  h.congr rfl rfl (fun _ => rfl) (fun _ => rfl)

theorem setReservedPages (n : Nat) :
    FlagInv F (s.setReservedPages n) free held out :=
  h.congr rfl rfl (fun _ => rfl) (fun _ => rfl)

theorem setTotalPages (n : Nat) :
    FlagInv F (s.setTotalPages n) free held out :=
  h.congr rfl rfl (fun _ => rfl) (fun _ => rfl)

theorem setReserved (p : Nat) :
    FlagInv F (pageSetFlags F s p .reserved) free held out :=
  h.congr rfl rfl (fun x => by simp) (fun x => by simp)

theorem clearReserved (p : Nat) :
    FlagInv F (pageClearFlags F s p .reserved) free held out :=
  h.congr rfl rfl (fun x => by simp) (fun x => by simp)

end

variable {p order : Nat}

theorem setOrder (h : FlagInv F s free held out)
    (hp : p + 2 ^ order <= s.pageFramesCount) :
    FlagInv F (s.setOrder p order) free held out := by
  constructor
  · exact h.rings
  · intro x hx
    rw [pageTestFlags_setOrder]
    exact h.agree x hx
  · exact h.heldFresh
  · exact h.listed
  · intro x hx
    rw [order_setOrder]
    split
    case isTrue hxp =>
      rw [hxp]
      exact hp
    case isFalse hxp => exact h.orders x hx
  · exact h.blocks

theorem not_listed (h : FlagInv F s free held out) (hp : p < s.pageFramesCount)
    (hflag : pageTestFlags F s p .buddy = false) (k : Fin 11) :
    p ∉ free k := by
  intro hmem
  have htrue := (h.agree p hp).mpr (Or.inl ⟨k, hmem⟩)
  rw [hflag] at htrue
  cases htrue

theorem setBuddy (h : FlagInv F s free none out) (hp : p < s.pageFramesCount)
    (hflag : pageTestFlags F s p .buddy = false) :
    FlagInv F (pageSetFlags F s p .buddy) free (some p) out := by
  constructor
  · exact h.rings
  · intro x hx
    rw [pageTestFlags_pageSetFlags]
    by_cases hxp : x = p
    · subst hxp
      simp
    · have hne : ¬ (p = x) := fun heq => hxp heq.symm
      have hagree := h.agree x hx
      simpa [hxp, hne] using hagree
  · intro x hx k
    cases hx
    exact h.not_listed hp hflag k
  · exact h.listed
  · intro x hx
    rw [order_pageSetFlags]
    exact h.orders x hx
  · exact h.blocks

theorem listAdd (h : FlagInv F s free (some p) out) (k : Fin 11)
    (hp : Fits s.pageFramesCount p k) :
    exists L, s.listAdd p k = some (s.setLinks L) ∧
      FlagInv F (s.setLinks L) (update free k (p :: free k)) none
        out := by
  rcases h.rings.listAdd k (h.heldFresh p rfl) with ⟨L, hadd, hrings⟩
  refine ⟨L, hadd, ⟨hrings, ?_, ?_, ?_, h.orders, h.blocks⟩⟩
  · intro x hx
    rw [pageTestFlags_setLinks, h.agree x hx]
    simp only [mem_update_cons, Option.some.injEq]
    constructor
    · rintro (⟨j, hj⟩ | rfl)
      · exact Or.inl ⟨j, Or.inr hj⟩
      · exact Or.inl ⟨k, Or.inl ⟨rfl, rfl⟩⟩
    · rintro (⟨j, ⟨rfl, _⟩ | hj⟩ | hnone)
      · exact Or.inr rfl
      · exact Or.inl ⟨j, hj⟩
      · cases hnone
  · intro x hx
    cases hx
  · intro j q hq
    rcases mem_update_cons.mp hq with ⟨rfl, rfl⟩ | hold
    · exact hp
    · exact h.listed j q hold

theorem listDel {k : Fin 11} (h : FlagInv F s free held out) (hp : p ∈ free k) :
    exists L, s.listDel p = some (s.setLinks L) ∧
      FlagInv F (pageClearFlags F (s.setLinks L) p .buddy)
        (update free k ((free k).erase p)) held out := by
  rcases h.rings.listDel hp with ⟨L, hdel, hrings⟩
  refine ⟨L, hdel, ⟨hrings, ?_, ?_, ?_, ?_, h.blocks⟩⟩
  · intro x hx
    rw [pageTestFlags_pageClearFlags, pageTestFlags_setLinks]
    simp only [h.rings.mem_update_erase hp]
    by_cases hxp : x = p
    · subst hxp
      have hheld : held ≠ some x := fun heq => h.heldFresh x heq k hp
      simp [hheld]
    · simpa [hxp] using h.agree x hx
  · intro x hx j hj
    exact h.heldFresh x hx j ((h.rings.mem_update_erase hp).mp hj).left
  · intro j q hq
    exact h.listed j q ((h.rings.mem_update_erase hp).mp hq).left
  · intro x hx
    rw [order_pageClearFlags]
    exact h.orders x hx

theorem memmapPage (h : FlagInv F s free none out) (hp : p < s.pageFramesCount)
    (hflag : pageTestFlags F s p .buddy = false) :
    exists s' free', pmmInitMemmapPage F s p = some s' ∧
      FlagInv F s' free' none out ∧
      s'.pageFramesCount = s.pageFramesCount ∧
      forall x, x ≠ p -> pageTestFlags F s' x .buddy =
        pageTestFlags F s x .buddy := by
  have hzero : pageTestFlags F (s.setFlags p 0) p .buddy = false := by
    simp [pageTestFlags, State.setFlags, State.setPage, F.test_zero]
  have hother : forall x, x ≠ p ->
      pageTestFlags F (s.setFlags p 0) x .buddy =
        pageTestFlags F s x .buddy := by
    intro x hx
    simp [pageTestFlags, State.setFlags, State.setPage, hx]
  have hclear : FlagInv F (s.setFlags p 0) free none out := by
    refine h.congr rfl rfl ?_ ?_
    · intro x
      by_cases hx : x = p
      · rw [hx, hzero, hflag]
      · exact hother x hx
    · intro x
      rw [order_setFlags]
  have hfits : Fits s.pageFramesCount p 0 := ⟨by simp, hp⟩
  rcases (hclear.setBuddy hp hzero).listAdd 0 hfits with ⟨L, hadd, hdone⟩
  refine ⟨_, _, ?_, (hdone.setFreePages (addU64 s.freePages 1)).setTotalPages
    (addU64 s.totalPages 1), rfl, ?_⟩
  · unfold pmmInitMemmapPage
    simp only [Fin.val_zero] at hadd
    simp only [hadd]
    rfl
  · intro x hx
    have hset := pageTestFlags_pageSetFlags F (s.setFlags p 0) p x
      .buddy .buddy
    rw [if_neg (fun hboth => hx hboth.left), hother x hx] at hset
    exact hset

theorem splitLoop {n : Nat} (h : FlagInv F s free none out)
    (hn : order + n <= 10) (hp : Fits s.pageFramesCount p (order + n))
    (hflag : forall c, order <= c -> c < order + n ->
      pageTestFlags F s (p + 2 ^ c) .buddy = false) :
    exists s' free', pmmSplit F p order n s = some s' ∧
      FlagInv F s' free' none out ∧
      s'.pageFramesCount = s.pageFramesCount := by
  induction n generalizing s free with
  | zero => exact ⟨s, free, rfl, h, rfl⟩
  | succ n ih =>
    have hshift : 1 <<< (order + n) = 2 ^ (order + n) := by
      rw [Nat.shiftLeft_eq, Nat.one_mul]
    rw [← Nat.add_assoc] at hp
    rcases hp.halves with ⟨hlower, hupper⟩
    have hpos : 0 < 2 ^ (order + n) := Nat.two_pow_pos _
    have hbuddy : p + 2 ^ (order + n) < s.pageFramesCount := by
      have hle := hupper.right
      omega
    have hk : order + n < 11 := by omega
    rcases (h.setBuddy hbuddy (hflag _ (by omega) (by omega))).listAdd
        ⟨order + n, hk⟩ hupper with ⟨L, hadd, hstep⟩
    -- The halves still to be handed back start at other pages.
    have hrest : forall c, order <= c -> c < order + n ->
        pageTestFlags F ((pageSetFlags F s (p + 2 ^ (order + n))
          .buddy).setLinks L) (p + 2 ^ c) .buddy = false := by
      intro c hc hlt
      have hne : 2 ^ c ≠ 2 ^ (order + n) := by
        intro heq
        have hcn := Nat.pow_right_injective (Nat.le_refl 2) heq
        omega
      rw [pageTestFlags_setLinks, pageTestFlags_pageSetFlags, if_neg (by omega)]
      exact hflag c hc (by omega)
    rcases ih hstep (by omega) hlower hrest with ⟨s', free', hrun, hinv, hcount⟩
    refine ⟨s', free', ?_, hinv, hcount⟩
    unfold pmmSplit
    simp only [hshift, hadd, Option.bind_eq_bind, Option.bind_some]
    exact hrun

end FlagInv

/-!
## Conditions on the calls

Each condition reads the state before the call.
-/

def EmptyBelow (s : State) (order k : Nat) : Prop :=
  forall j, j < k -> order <= j -> listEmpty s.links (Node.area j) = true

instance (s : State) (order k : Nat) : Decidable (EmptyBelow s order k) := by
  unfold EmptyBelow
  infer_instance

/-- The upper halves a split of the first block would hand back are unmarked. -/
def HalvesClear (F : PageFlagOps) (s : State) (order k : Nat) : Prop :=
  forall c, c < k -> order <= c -> forall p, p ∈ firstPage s k ->
    pageTestFlags F s (p + 2 ^ c) PageFlag.buddy = false

instance (F : PageFlagOps) (s : State) (order k : Nat) :
    Decidable (HalvesClear F s order k) := by
  unfold HalvesClear
  infer_instance

/-- An allocation splits the first block of the lowest nonempty list. -/
def AllocOk (F : PageFlagOps) (s : State) (order : Nat) : Prop :=
  forall k, k < 11 -> order <= k -> EmptyBelow s order k ->
    HalvesClear F s order k

instance (F : PageFlagOps) (s : State) (order : Nat) :
    Decidable (AllocOk F s order) := by
  unfold AllocOk
  infer_instance

def MergesAt (F : PageFlagOps) (s : State) (pfn order : Nat) : Prop :=
  pfn ^^^ 2 ^ order < s.pageFramesCount ∧
    pageTestFlags F s (pfn ^^^ 2 ^ order) PageFlag.buddy = true ∧
    (s.pageFrames (pfn ^^^ 2 ^ order)).order = order

instance (F : PageFlagOps) (s : State) (pfn order : Nat) :
    Decidable (MergesAt F s pfn order) :=
  inferInstanceAs (Decidable (_ ∧ _))

/--
The freed page is unmarked, and as long as merging goes on the buddy is the
upper half.
-/
def FreeOk (F : PageFlagOps) (s : State) (pfn order : Nat) : Prop :=
  pageTestFlags F s pfn PageFlag.buddy = false ∧
    forall j, j < 10 -> order <= j ->
      (forall i, i < j + 1 -> order <= i -> MergesAt F s pfn i) ->
      pfn < pfn ^^^ 2 ^ j

instance (F : PageFlagOps) (s : State) (pfn order : Nat) :
    Decidable (FreeOk F s pfn order) :=
  inferInstanceAs (Decidable (_ ∧ _))

/-- No reserved page of the range is marked as free already. -/
def FreeRangeOk (F : PageFlagOps) (s : State) (startPfn endPfn : Nat) : Prop :=
  forall x, x < endPfn -> startPfn <= x -> x < s.pageFramesCount ->
    pageTestFlags F s x PageFlag.reserved = true ->
    pageTestFlags F s x PageFlag.buddy = false

instance (F : PageFlagOps) (s : State) (startPfn endPfn : Nat) :
    Decidable (FreeRangeOk F s startPfn endPfn) := by
  unfold FreeRangeOk
  infer_instance

/-!
## What one call does
-/

section Calls

variable {F : PageFlagOps} {s : State} {free : FreeLists} {out : List Block}

variable {n p order : Nat}

theorem FlagInv.allocBlock (h : FlagInv F s free none out)
    (hok : AllocOk F s order) :
    exists r s' free', pmmAllocPages F s order = some (r, s') ∧
      match r with
      | none => FlagInv F s' free' none out
      | some p => FlagInv F s' free' none (Block.mk p order :: out) := by
  unfold pmmAllocPages
  split
  case isTrue horder => exact ⟨none, s, free, rfl, h⟩
  case isFalse horder =>
    cases hfind : pmmFindOrder s (11 - order) order with
    | none => exact ⟨none, s, free, rfl, h⟩
    | some k =>
      rcases h.rings.found horder hfind with ⟨hle, hk, p, hmem, hfirst⟩
      have hempty := (pmmFindOrder_some hfind).2.2.2
      have hbelow := hok k hk hle
        (fun j hj hoj => hempty j hoj hj)
      have hfits : Fits s.pageFramesCount p (order + (k - order)) := by
        rw [show order + (k - order) = k by omega]
        exact h.listed ⟨k, hk⟩ p hmem
      rcases h.listDel hmem with ⟨L, hdel, htaken⟩
      have hclear : forall c, order <= c -> c < order + (k - order) ->
          pageTestFlags F (pageClearFlags F (s.setLinks L) p
            .buddy) (p + 2 ^ c) .buddy = false := by
        intro c hc hck
        have hpos := Nat.two_pow_pos c
        rw [pageTestFlags_pageClearFlags, if_neg (by omega)]
        exact hbelow c (by omega) hc p hfirst
      rcases htaken.splitLoop (by omega) hfits hclear with
        ⟨s', free', hsplit, hinv, hcount⟩
      have hblock : Fits s.pageFramesCount p order := by
        refine ⟨(Nat.pow_dvd_pow 2 (by omega)).trans hfits.left, ?_⟩
        have hpow : 2 ^ order <= 2 ^ (order + (k - order)) :=
          Nat.pow_le_pow_right (by omega) (by omega)
        have hbound := hfits.right
        omega
      have hcount' : s'.pageFramesCount = s.pageFramesCount := hcount
      rw [← hcount'] at hblock
      have hdone := (hinv.setOrder hblock.right).setFreePages
        (subU64 s'.freePages (1 <<< order))
      refine ⟨some p, _, free', ?_, { hdone with blocks := ?_ }⟩
      · simp only [hfirst, Option.bind_eq_bind, Option.bind_some, hdel, hsplit]
        rfl
      · intro b hb
        rcases mem_cons.mp hb with rfl | hold
        · exact ⟨by simp only; omega, hblock⟩
        · exact hdone.blocks b hold

theorem buddy_ne (p i : Nat) : p ^^^ 2 ^ i ≠ p := by
  intro heq
  have hself : p ^^^ 2 ^ i = p ^^^ 0 := by rw [heq, Nat.xor_zero]
  exact (Nat.two_pow_pos i).ne' (Nat.xor_right_injective hself)

theorem mergesAt_step {L : Links Node} {i : Nat} (hi : order < i) :
    MergesAt F ((pageClearFlags F (s.setLinks L) (p ^^^ 2 ^ order)
      .buddy).setOrder p (order + 1)) p i <-> MergesAt F s p i := by
  have hbuddy : p ^^^ 2 ^ i ≠ p ^^^ 2 ^ order := by
    intro heq
    have hpow := Nat.pow_right_injective (Nat.le_refl 2)
      (Nat.xor_right_injective heq)
    omega
  simp [MergesAt, hbuddy, buddy_ne p i]

theorem FlagInv.mergeLoop (h : FlagInv F s free (some p) out)
    (hn : order + n = 10) (hp : Fits s.pageFramesCount p order)
    (hup : forall j, j < 10 -> order <= j ->
      (forall i, i < j + 1 -> order <= i -> MergesAt F s p i) ->
      p < p ^^^ 2 ^ j) :
    exists s' free' order', pmmMerge F n s p order = some (s', p, order') ∧
      order' <= 10 ∧ Fits s.pageFramesCount p order' ∧
      FlagInv F s' free' (some p) out ∧
      s'.pageFramesCount = s.pageFramesCount := by
  induction n generalizing s free order with
  | zero => exact ⟨s, free, order, rfl, by omega, hp, h, rfl⟩
  | succ n ih =>
    have hshift : 1 <<< order = 2 ^ order := by
      rw [Nat.shiftLeft_eq, Nat.one_mul]
    unfold pmmMerge
    simp only [hshift]
    split
    case isTrue hend => exact ⟨s, free, order, rfl, by omega, hp, h, rfl⟩
    case isFalse hend =>
      by_cases hmerge : pageTestFlags F s (p ^^^ 2 ^ order) .buddy =
          true ∧ (s.pageFrames (p ^^^ 2 ^ order)).order = order
      · rw [if_neg (by simp [hmerge])]
        have hat : MergesAt F s p order := ⟨by omega, hmerge⟩
        have hlow : p < p ^^^ 2 ^ order := by
          apply hup order (by omega) (Nat.le_refl _)
          intro i hi hle
          rw [show i = order by omega]
          exact hat
        rcases (h.agree _ hat.left).mp hmerge.left with ⟨k, hk⟩ | hself
        · rcases h.listDel hk with ⟨L, hdel, hinv⟩
          have hbound := h.orders _ hat.left
          rw [hmerge.right] at hbound
          have hlarger := hp.merge hlow hbound
          rcases ih (hinv.setOrder hlarger.right) (by omega) hlarger
              (by
                intro j hj hle hall
                apply hup j hj (by omega)
                intro i hi hoi
                by_cases hio : i = order
                · rw [hio]
                  exact hat
                · exact (mergesAt_step (by omega)).mp
                    (hall i hi (by omega))) with
            ⟨s', free', order', hrun, hle, hfits, hdone, hcount⟩
          refine ⟨s', free', order', ?_, hle, hfits, hdone, hcount⟩
          rw [hdel]
          simp only [Option.bind_eq_bind, Option.bind_some,
            if_neg (show ¬ (p ^^^ 2 ^ order < p) by omega)]
          exact hrun
        · have heq := Option.some.inj hself
          omega
      · rw [if_pos (by
          rw [Bool.or_eq_true, Bool.not_eq_true', bne_iff_ne]
          by_cases hflag : pageTestFlags F s (p ^^^ 2 ^ order)
              .buddy = true
          · exact Or.inr (fun heq => hmerge ⟨hflag, heq⟩)
          · exact Or.inl (Bool.not_eq_true _ ▸ hflag))]
        exact ⟨s, free, order, rfl, by omega, hp, h, rfl⟩

section

variable (h : FlagInv F s free none out)
include h

theorem FlagInv.freeBlock {b : Block} (hb : b ∈ out)
    (hok : FreeOk F s b.start b.order) :
    exists s' free', pmmFreePages F s b.start b.order = some s' ∧
      FlagInv F s' free' none (out.erase b) := by
  rcases h.blocks b hb with ⟨horder, hfits⟩
  have hpos : 0 < 2 ^ b.order := Nat.two_pow_pos _
  have hstart : b.start < s.pageFramesCount := by
    have hbound := hfits.right
    omega
  obtain ⟨s1, hs1⟩ : exists t, t =
      ((pageSetFlags F s b.start .buddy).setOrder b.start
        b.order).setFreePages (addU64 s.freePages (1 <<< b.order)) := ⟨_, rfl⟩
  have hinv : FlagInv F s1 free (some b.start) out := by
    rw [hs1]
    exact ((h.setBuddy hstart hok.left).setOrder hfits.right).setFreePages _
  have hcount1 : s1.pageFramesCount = s.pageFramesCount := by
    rw [hs1]
    rfl
  have hsame : forall i, MergesAt F s1 b.start i -> MergesAt F s b.start i := by
    intro i hi
    rw [hs1] at hi
    simpa [MergesAt, buddy_ne b.start i] using hi
  rcases hinv.mergeLoop (n := 10 - b.order) (by omega) (hcount1 ▸ hfits)
      (fun j hj hle hall => hok.right j hj hle
        (fun i hi hoi => hsame i (hall i hi hoi))) with
    ⟨s2, free2, order', hrun, hle, hfits', hinv2, hcount2⟩
  rw [← hcount2] at hfits'
  rcases hinv2.listAdd ⟨order', Nat.lt_succ_of_le hle⟩ hfits' with
    ⟨L, hadd, hdone⟩
  refine ⟨s2.setLinks L, _, ?_, { hdone with blocks := ?_ }⟩
  · unfold pmmFreePages
    rw [if_neg (by omega)]
    simp only [freePages_setOrder, freePages_pageSetFlags]
    rw [← hs1, hrun]
    exact hadd
  · intro c hc
    exact hdone.blocks c (mem_of_mem_erase hc)

theorem FlagInv.reservePage (hp : p < s.pageFramesCount) :
    exists s' free', pmmReserveRangePage F s p = some s' ∧
      FlagInv F s' free' none out := by
  unfold pmmReserveRangePage
  cases hflag : pageTestFlags F s p .buddy with
  | true =>
    rcases (h.agree p hp).mp hflag with ⟨k, hk⟩ | hheld
    · rcases h.listDel hk with ⟨L, hdel, hinv⟩
      have hdel' : (pageClearFlags F s p .buddy).listDel p =
          some ((pageClearFlags F s p .buddy).setLinks L) := by
        unfold State.listDel at hdel ⊢
        rw [links_pageClearFlags]
        cases hlist : LinkedList.listDel s.links (.page p) with
        | none =>
          rw [hlist] at hdel
          cases hdel
        | some L' =>
          rw [hlist] at hdel
          have heq : L' = L := congrArg State.links (Option.some.inj hdel)
          rw [heq]
          rfl
      refine ⟨_, _, ?_, ((hinv.setFreePages
        (subU64 s.freePages 1)).setReserved p).setReservedPages
        (addU64 s.reservedPages 1)⟩
      simp only [if_true, hdel']
      rfl
    · cases hheld
  | false =>
    exact ⟨_, free, rfl, (h.setReserved p).setReservedPages _⟩

theorem FlagInv.reserveLoop :
    exists s' free', pmmReserveRangeLoop F n p s = some s' ∧
      FlagInv F s' free' none out := by
  induction n generalizing p s free with
  | zero => exact ⟨s, free, rfl, h⟩
  | succ n ih =>
    unfold pmmReserveRangeLoop
    split
    case isTrue hend => exact ⟨s, free, rfl, h⟩
    case isFalse hend =>
      rcases h.reservePage (Nat.not_le.mp hend) with ⟨s1, free1, hpage, hinv1⟩
      rcases ih hinv1 with ⟨s', free', hrun, hinv⟩
      refine ⟨s', free', ?_, hinv⟩
      rw [hpage]
      exact hrun

theorem FlagInv.reserveRange (startPfn endPfn : Nat) :
    exists s' free', pmmReserveRange F s startPfn endPfn = some s' ∧
      FlagInv F s' free' none out := by
  unfold pmmReserveRange
  split
  case isTrue hempty => exact ⟨s, free, rfl, h⟩
  case isFalse hempty => exact h.reserveLoop

theorem FlagInv.freeRangePage (hp : p < s.pageFramesCount)
    (hok : pageTestFlags F s p .reserved = true ->
      pageTestFlags F s p .buddy = false) :
    exists s' free', pmmFreeRangePage F s p = some s' ∧
      s'.pageFramesCount = s.pageFramesCount ∧
      FlagInv F s' free' none out ∧
      forall x f, x ≠ p -> pageTestFlags F s' x f = pageTestFlags F s x f := by
  unfold pmmFreeRangePage
  cases hres : pageTestFlags F s p .reserved with
  | true =>
    obtain ⟨n, hn⟩ : exists t, t = subU64 s.reservedPages 1 := ⟨_, rfl⟩
    obtain ⟨s1, hs1⟩ : exists t, t =
        (pageClearFlags F s p .reserved).setReservedPages n :=
      ⟨_, rfl⟩
    have hinv1 : FlagInv F s1 free none out := by
      rw [hs1]
      exact (h.clearReserved p).setReservedPages n
    have hclear : forall x f, pageTestFlags F s1 x f =
        if x = p ∧ .reserved = f then false
        else pageTestFlags F s x f := by
      intro x f
      rw [hs1]
      exact pageTestFlags_pageClearFlags F s p x .reserved f
    have hcount1 : s1.pageFramesCount = s.pageFramesCount := by
      rw [hs1]
      rfl
    have hflag : pageTestFlags F s1 p .buddy = false := by
      rw [hclear, if_neg (by simp)]
      exact hok hres
    rw [← hcount1] at hp
    have hfits : Fits s1.pageFramesCount p 0 := ⟨by simp, hp⟩
    rcases (hinv1.setBuddy hp hflag).listAdd 0 hfits with ⟨L, hadd, hdone⟩
    refine ⟨((pageSetFlags F s1 p .buddy).setLinks L).setFreePages
      (addU64 s1.freePages 1), _, ?_, hcount1, hdone.setFreePages _, ?_⟩
    · simp only [Fin.val_zero] at hadd
      have hreserved : (pageClearFlags F s p
          .reserved).reservedPages = s.reservedPages := rfl
      simp only [if_true, hreserved, ← hn, ← hs1, hadd]
      rfl
    · intro x f hx
      rw [pageTestFlags_setFreePages, pageTestFlags_setLinks,
        pageTestFlags_pageSetFlags, if_neg (fun hboth => hx hboth.left),
        hclear, if_neg (fun hboth => hx hboth.left)]
  | false => exact ⟨s, free, rfl, rfl, h, fun _ _ _ => rfl⟩

theorem FlagInv.freeRangeLoop (hok : FreeRangeOk F s p (p + n)) :
    exists s' free', pmmFreeRangeLoop F n p s = some s' ∧
      FlagInv F s' free' none out := by
  induction n generalizing p s free with
  | zero => exact ⟨s, free, rfl, h⟩
  | succ n ih =>
    unfold pmmFreeRangeLoop
    split
    case isTrue hend => exact ⟨s, free, rfl, h⟩
    case isFalse hend =>
      have hp : p < s.pageFramesCount := by omega
      rcases h.freeRangePage hp (hok p (by omega) (Nat.le_refl _) hp) with
        ⟨s1, free1, hpage, hcount1, hinv1, hsame⟩
      have hok1 : FreeRangeOk F s1 (p + 1) (p + 1 + n) := by
        intro x hx hle hlt
        rw [hcount1] at hlt
        rw [hsame x _ (by omega), hsame x _ (by omega)]
        exact hok x (by omega) (by omega) hlt
      rcases ih hinv1 hok1 with ⟨s', free', hrun, hinv⟩
      refine ⟨s', free', ?_, hinv⟩
      rw [hpage]
      exact hrun

theorem FlagInv.freeRange {startPfn endPfn : Nat}
    (hok : FreeRangeOk F s startPfn endPfn) :
    exists s' free', pmmFreeRange F s startPfn endPfn = some s' ∧
      FlagInv F s' free' none out := by
  unfold pmmFreeRange
  split
  case isTrue hempty => exact ⟨s, free, rfl, h⟩
  case isFalse hempty =>
    apply h.freeRangeLoop
    rw [show startPfn + (endPfn - startPfn) = endPfn by omega]
    exact hok

end

end Calls

/-!
## Booting
-/

theorem FlagInv.memmapLoop {n : Nat} (h : FlagInv F s free none [])
    (hclear : forall x, InRange (p, p + n) x -> x < s.pageFramesCount ->
      pageTestFlags F s x .buddy = false) :
    exists s' free', pmmInitMemmapLoop F n p s = some s' ∧
      FlagInv F s' free' none [] ∧
      s'.pageFramesCount = s.pageFramesCount ∧
      forall x, ¬ InRange (p, p + n) x ->
        pageTestFlags F s' x .buddy = pageTestFlags F s x .buddy := by
  induction n generalizing p s free with
  | zero => exact ⟨s, free, rfl, h, rfl, fun _ _ => rfl⟩
  | succ n ih =>
    unfold pmmInitMemmapLoop
    split
    case isTrue hend => exact ⟨s, free, rfl, h, rfl, fun _ _ => rfl⟩
    case isFalse hend =>
      have hp : p < s.pageFramesCount := by omega
      rcases h.memmapPage hp (hclear p ⟨by simp, by simp⟩ hp) with
        ⟨s1, free1, hpage, hinv1, hcount1, hsame1⟩
      have hclear1 : forall x, InRange (p + 1, p + 1 + n) x ->
          x < s1.pageFramesCount ->
          pageTestFlags F s1 x .buddy = false := by
        intro x hx hlt
        simp only [InRange] at hx
        rw [hsame1 x (by omega)]
        exact hclear x ⟨by simp only; omega, by simp only; omega⟩ (by omega)
      rcases ih hinv1 hclear1 with ⟨s', free', hrun, hinv, hcount, hsame⟩
      refine ⟨s', free', ?_, hinv, hcount.trans hcount1, ?_⟩
      · rw [hpage]
        exact hrun
      · intro x hx
        simp only [InRange] at hx
        rw [hsame x (by simp only [InRange]; omega), hsame1 x (by omega)]

theorem FlagInv.memmap {r : Nat × Nat} (h : FlagInv F s free none [])
    (hclear : forall x, InRange r x -> x < s.pageFramesCount ->
      pageTestFlags F s x .buddy = false) :
    exists s' free', pmmInitMemmap F s r.1 r.2 = some s' ∧
      FlagInv F s' free' none [] ∧
      s'.pageFramesCount = s.pageFramesCount ∧
      forall x, ¬ InRange r x -> pageTestFlags F s' x .buddy =
        pageTestFlags F s x .buddy := by
  unfold pmmInitMemmap
  split
  case isTrue hempty => exact ⟨s, free, rfl, h, rfl, fun _ _ => rfl⟩
  case isFalse hempty =>
    have hend : r.1 + (r.2 - r.1) = r.2 := by omega
    have hloop := h.memmapLoop (n := r.2 - r.1) (p := r.1)
    rw [hend] at hloop
    exact hloop hclear

theorem FlagInv.memmaps (h : FlagInv F s free none [])
    (hdisjoint : ranges.Pairwise DisjointRanges)
    (hclear : forall r, r ∈ ranges -> forall x, InRange r x ->
      x < s.pageFramesCount ->
      pageTestFlags F s x .buddy = false) :
    exists s' free',
      ranges.foldlM (fun s r => pmmInitMemmap F s r.1 r.2) s = some s' ∧
      FlagInv F s' free' none [] := by
  induction ranges generalizing s free with
  | nil => exact ⟨s, free, rfl, h⟩
  | cons r ranges ih =>
    rcases pairwise_cons.mp hdisjoint with ⟨hfirst, hrest⟩
    rcases h.memmap (hclear r mem_cons_self) with
      ⟨s1, free1, hrun1, hinv1, hcount1, hsame1⟩
    have hclear1 : forall t, t ∈ ranges -> forall x, InRange t x ->
        x < s1.pageFramesCount ->
        pageTestFlags F s1 x .buddy = false := by
      intro t ht x hx hlt
      rw [hsame1 x (fun hr => hfirst t ht x hr hx)]
      exact hclear t (mem_cons_of_mem _ ht) x hx (hcount1 ▸ hlt)
    rcases ih hinv1 hrest hclear1 with ⟨s', free', hrun, hinv⟩
    refine ⟨s', free', ?_, hinv⟩
    rw [foldlM_cons, hrun1]
    exact hrun

theorem boot_flagInv (F : PageFlagOps) (s : State)
    (hdisjoint : ranges.Pairwise DisjointRanges) :
    exists s' free, boot F s ranges = some s' ∧ FlagInv F s' free none [] := by
  rcases pmmInit_spec F s with ⟨hbuddy, horder, hcount⟩
  have hflag : forall x, x < (pmmInit s).pageFramesCount ->
      pageTestFlags F (pmmInit s) x .buddy = false := by
    intro x hx
    cases htest : pageTestFlags F (pmmInit s) x .buddy with
    | false => rfl
    | true =>
      rcases hbuddy.flagged x hx htest with ⟨k, hk⟩ | ⟨b, hb, _⟩ | ⟨b, hb, _⟩
      · cases hk
      · simp [freeBlocks_nil] at hb
      · cases hb
  have hinit : FlagInv F (pmmInit s) (fun _ => []) none [] := by
    constructor
    · exact hbuddy.rings
    · intro x hx
      simp [hflag x hx]
    · intro x hx
      cases hx
    · intro k p hp
      cases hp
    · intro x hx
      rw [hcount] at hx
      rw [horder x hx, hcount]
      exact hx
    · intro b hb
      cases hb
  exact hinit.memmaps hdisjoint (fun _ _ x _ hx => hflag x hx)

/-!
## Runs
-/

/-- The calls of a block caller, and the two calls on page ranges. -/
inductive RangeCall where
  | call (call : Call)
  | reserveRange (startPfn endPfn : Nat)
  | freeRange (startPfn endPfn : Nat)

def runRangeCall (F : PageFlagOps) (sys : System) :
    RangeCall -> Option System
  | RangeCall.call call => runCall F sys call
  | RangeCall.reserveRange startPfn endPfn => do
      let s <- pmmReserveRange F sys.state startPfn endPfn
      return ⟨s, sys.out⟩
  | RangeCall.freeRange startPfn endPfn => do
      let s <- pmmFreeRange F sys.state startPfn endPfn
      return ⟨s, sys.out⟩

def runRangeCalls (F : PageFlagOps) (sys : System) (calls : List RangeCall) :
    Option System :=
  calls.foldlM (runRangeCall F) sys

def CallOk (F : PageFlagOps) (sys : System) : RangeCall -> Prop
  | RangeCall.call (Call.alloc order) => AllocOk F sys.state order
  | RangeCall.call (Call.free index) =>
      forall b, b ∈ sys.out[index]? -> FreeOk F sys.state b.start b.order
  | RangeCall.reserveRange _ _ => True
  | RangeCall.freeRange startPfn endPfn =>
      FreeRangeOk F sys.state startPfn endPfn

instance (F : PageFlagOps) (sys : System) (call : RangeCall) :
    Decidable (CallOk F sys call) :=
  match call with
  | RangeCall.call (Call.alloc order) =>
      inferInstanceAs (Decidable (AllocOk F sys.state order))
  | RangeCall.call (Call.free index) =>
      inferInstanceAs (Decidable (forall b, b ∈ sys.out[index]? ->
        FreeOk F sys.state b.start b.order))
  | RangeCall.reserveRange _ _ => isTrue trivial
  | RangeCall.freeRange startPfn endPfn =>
      inferInstanceAs (Decidable (FreeRangeOk F sys.state startPfn endPfn))

def RunOk (F : PageFlagOps) : System -> List RangeCall -> Prop
  | _, [] => True
  | sys, call :: calls => CallOk F sys call ∧
      forall sys', sys' ∈ runRangeCall F sys call -> RunOk F sys' calls

instance decidableRunOk (F : PageFlagOps) :
    (sys : System) -> (calls : List RangeCall) -> Decidable (RunOk F sys calls)
  | _, [] => isTrue trivial
  | sys, call :: calls =>
      have (sys' : System) : Decidable (RunOk F sys' calls) :=
        decidableRunOk F sys' calls
      inferInstanceAs (Decidable (CallOk F sys call ∧
        forall sys', sys' ∈ runRangeCall F sys call -> RunOk F sys' calls))

theorem runRangeCall_flagInv {sys : System}
    (h : FlagInv F sys.state free none sys.out) {call : RangeCall}
    (hok : CallOk F sys call) :
    exists sys' free', runRangeCall F sys call = some sys' ∧
      FlagInv F sys'.state free' none sys'.out := by
  cases call with
  | call call =>
    cases call with
    | alloc order =>
      rcases h.allocBlock hok with ⟨r, s', free', hrun, hinv⟩
      cases r with
      | none =>
        refine ⟨⟨s', sys.out⟩, free', ?_, hinv⟩
        simp only [runRangeCall, runCall, hrun]
        rfl
      | some p =>
        refine ⟨⟨s', Block.mk p order :: sys.out⟩, free', ?_, hinv⟩
        simp only [runRangeCall, runCall, hrun]
        rfl
    | free index =>
      cases hget : sys.out[index]? with
      | none =>
        refine ⟨sys, free, ?_, h⟩
        simp only [runRangeCall, runCall, hget]
      | some b =>
        have hfree := hok b hget
        rcases h.freeBlock (mem_of_getElem? hget) hfree with
          ⟨s', free', hrun, hinv⟩
        refine ⟨⟨s', sys.out.erase b⟩, free', ?_, hinv⟩
        simp only [runRangeCall, runCall, hget, hrun]
        rfl
  | reserveRange startPfn endPfn =>
    rcases h.reserveRange startPfn endPfn with ⟨s', free', hrun, hinv⟩
    refine ⟨⟨s', sys.out⟩, free', ?_, hinv⟩
    simp only [runRangeCall, hrun]
    rfl
  | freeRange startPfn endPfn =>
    rcases h.freeRange hok with ⟨s', free', hrun, hinv⟩
    refine ⟨⟨s', sys.out⟩, free', ?_, hinv⟩
    simp only [runRangeCall, hrun]
    rfl

theorem runRangeCalls_flagInv {calls : List RangeCall} {sys : System}
    (h : FlagInv F sys.state free none sys.out) (hok : RunOk F sys calls) :
    exists sys' free', runRangeCalls F sys calls = some sys' ∧
      FlagInv F sys'.state free' none sys'.out := by
  induction calls generalizing sys free with
  | nil => exact ⟨sys, free, rfl, h⟩
  | cons call calls ih =>
    rcases runRangeCall_flagInv h hok.left with ⟨sys1, free1, hrun1, hinv1⟩
    rcases ih hinv1 (hok.right sys1 hrun1) with ⟨sys', free', hrun, hinv⟩
    refine ⟨sys', free', ?_, hinv⟩
    unfold runRangeCalls
    rw [foldlM_cons, hrun1]
    exact hrun

/--
A run whose calls all meet their conditions completes, and afterwards the flags
agree with the lists.
-/
theorem buddy_flags_agree (F : PageFlagOps) (s : State)
    (ranges : List (Nat × Nat)) (hdisjoint : ranges.Pairwise DisjointRanges) :
    exists booted, boot F s ranges = some booted ∧
      forall calls, RunOk F ⟨booted, []⟩ calls ->
        exists sys, runRangeCalls F ⟨booted, []⟩ calls = some sys ∧
          FlagsAgree F sys.state := by
  rcases boot_flagInv F s hdisjoint with ⟨booted, free0, hboot, hinv0⟩
  refine ⟨booted, hboot, ?_⟩
  intro calls hok
  have hstart : FlagInv F (System.mk booted []).state free0 none
      (System.mk booted []).out := hinv0
  rcases runRangeCalls_flagInv hstart hok with ⟨sys, free, hrun, hinv⟩
  exact ⟨sys, hrun, hinv.flagsAgree⟩

theorem buddy_flags_agree_three_pages :
    [(0, 3)].Pairwise DisjointRanges ∧
      exists booted,
        boot bitFlags (blankFrames 3 (by decide)) [(0, 3)] = some booted ∧
        exists sys, runRangeCalls bitFlags ⟨booted, []⟩
          [RangeCall.call (Call.alloc 0), RangeCall.call (Call.alloc 0),
            RangeCall.call (Call.alloc 0), RangeCall.call (Call.free 1),
            RangeCall.call (Call.free 0), RangeCall.reserveRange 2 3,
            RangeCall.call (Call.alloc 0), RangeCall.freeRange 2 3] = some sys ∧
          FlagsAgree bitFlags sys.state := by
  have hdisjoint : [(0, 3)].Pairwise DisjointRanges := pairwise_singleton _ _
  refine ⟨hdisjoint, ?_⟩
  rcases buddy_flags_agree bitFlags (blankFrames 3 (by decide)) _ hdisjoint with
    ⟨booted, hboot, hrun⟩
  refine ⟨booted, hboot, hrun _ ?_⟩
  have hok : forall b, b ∈ boot bitFlags (blankFrames 3 (by decide)) [(0, 3)] ->
      RunOk bitFlags ⟨b, []⟩
        [RangeCall.call (Call.alloc 0), RangeCall.call (Call.alloc 0),
          RangeCall.call (Call.alloc 0), RangeCall.call (Call.free 1),
          RangeCall.call (Call.free 0), RangeCall.reserveRange 2 3,
          RangeCall.call (Call.alloc 0), RangeCall.freeRange 2 3] := by
    decide +kernel
  exact hok booted hboot

/--
Freeing page 1 after page 0 merges with the lower buddy: page 0 heads the
merged block with its flag cleared, and page 1 keeps its flag.
-/
theorem lower_merge_breaks_flags :
    exists booted sys,
      boot bitFlags (blankFrames 2 (by decide)) [(0, 2)] = some booted ∧
      runRangeCalls bitFlags ⟨booted, []⟩
        [RangeCall.call (Call.alloc 0), RangeCall.call (Call.alloc 0),
          RangeCall.call (Call.free 0), RangeCall.call (Call.free 0)] =
            some sys ∧
      Listed sys.state 0 ∧
      pageTestFlags bitFlags sys.state 0 PageFlag.buddy = false ∧
      pageTestFlags bitFlags sys.state 1 PageFlag.buddy = true ∧
      ¬ FlagsAgree bitFlags sys.state := by
  obtain ⟨booted, hboot⟩ : exists b,
      boot bitFlags (blankFrames 2 (by decide)) [(0, 2)] = some b := by
    apply Option.isSome_iff_exists.mp
    decide +kernel
  have hall : forall b, b ∈ boot bitFlags (blankFrames 2 (by decide)) [(0, 2)] ->
      (runRangeCalls bitFlags ⟨b, []⟩
        [RangeCall.call (Call.alloc 0), RangeCall.call (Call.alloc 0),
          RangeCall.call (Call.free 0), RangeCall.call (Call.free 0)]).map
        (fun sys => ((sys.state.links (Node.area 1)).next,
          pageTestFlags bitFlags sys.state 0 PageFlag.buddy,
          pageTestFlags bitFlags sys.state 1 PageFlag.buddy,
          decide (0 < sys.state.pageFramesCount))) =
        some (some (Node.page 0), false, true, true) := by
    decide +kernel
  rcases Option.map_eq_some_iff.mp (hall booted hboot) with ⟨sys, hrun, hsys⟩
  simp only [Prod.mk.injEq, decide_eq_true_eq] at hsys
  rcases hsys with ⟨hnext, hzero, hone, hlt⟩
  have hlisted : Listed sys.state 0 :=
    ⟨1, Linked.first hnext (by simp)⟩
  refine ⟨booted, sys, hboot, hrun, hlisted, hzero, hone, ?_⟩
  intro hagree
  have htrue := (hagree 0 hlt).mpr hlisted
  rw [hzero] at htrue
  cases htrue

end Pmm
end Horizon
