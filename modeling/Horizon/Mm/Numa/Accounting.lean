import Horizon.Lib.Transition
import Horizon.Mm.Numa.Model

/-!
# Accounting of NUMA pages

The blocks that callers hold, the set of allocated page frames and the counters
of the nodes stay in step, so that an allocation fails only when no node has
the pages.
-/

namespace Horizon
namespace Numa

open Function List Intervals Transition

/-! ## The loops -/

variable {i pfn count : Nat} {node : Node} {b : Interval} {live : List Interval}

theorem markPages_apply (allocated : Nat -> Bool) (value : Bool) {n : Nat}
    (h : pfn + n <= 2 ^ 64) (p : Nat) :
    markPages allocated value pfn n p =
      if pfn <= p ∧ p < pfn + n then value else allocated p := by
  induction n with
  | zero =>
    rw [if_neg (by omega)]
    rfl
  | succ n ih =>
    unfold markPages
    rw [Nat.mod_eq_of_lt (by omega)]
    by_cases hp : p = pfn + n
    · rw [hp, update_self, if_pos (by omega)]
    · rw [update_of_ne hp, ih (by omega)]
      have hsame : (pfn <= p ∧ p < pfn + (n + 1)) <->
          (pfn <= p ∧ p < pfn + n) := by omega
      simp only [hsame]

def RunFree (allocated : Nat -> Bool) (pfn count : Nat) : Prop :=
  forall p, pfn <= p -> p < pfn + count -> allocated p = false

theorem pagesFree_iff (allocated : Nat -> Bool) (h : pfn + count <= 2 ^ 64) :
    pagesFree allocated pfn count = true <-> RunFree allocated pfn count := by
  unfold pagesFree RunFree
  simp only [all_eq_true, mem_range, Bool.not_eq_true']
  constructor
  · intro hall p hle hlt
    have hp := hall (p - pfn) (by omega)
    rwa [Nat.add_sub_cancel' hle, Nat.mod_eq_of_lt (by omega)] at hp
  · intro hall i hi
    rw [Nat.mod_eq_of_lt (by omega)]
    exact hall (pfn + i) (Nat.le_add_right pfn i) (by omega)

theorem findPages_spec (allocated : Nat -> Bool) (count : Nat)
    (last fuel pfn : Nat) (hlast : last + 1 < 2 ^ 64) (hpos : 0 < fuel)
    (hfuel : last + 1 < pfn + fuel) :
    (exists q, findPages allocated count last fuel pfn = some (some q) ∧
      pfn <= q ∧ q <= last ∧ pagesFree allocated q count = true) ∨
    (findPages allocated count last fuel pfn = some none ∧
      forall q, pfn <= q -> q <= last ->
        pagesFree allocated q count = false) := by
  induction fuel generalizing pfn with
  | zero => exact absurd hpos (Nat.lt_irrefl 0)
  | succ fuel ih =>
    unfold findPages
    split
    case isTrue hle =>
      cases hfree : pagesFree allocated pfn count with
      | true => exact Or.inl ⟨pfn, rfl, Nat.le_refl pfn, hle, hfree⟩
      | false =>
        rw [if_neg Bool.false_ne_true, Nat.mod_eq_of_lt (by omega)]
        rcases ih (pfn + 1) (by omega) (by omega) with h | h
        · obtain ⟨q, hq, hfrom, hto, hqfree⟩ := h
          exact Or.inl ⟨q, hq, Nat.le_of_succ_le hfrom, hto, hqfree⟩
        · refine Or.inr ⟨h.left, ?_⟩
          intro q hfrom hto
          rcases Nat.eq_or_lt_of_le hfrom with heq | hlt
          · rw [<- heq]
            exact hfree
          · exact h.right q hlt hto
    case isFalse hle =>
      refine Or.inr ⟨rfl, ?_⟩
      intro q hfrom hto
      omega

/-! ## The invariant -/

def Node.Has (node : Node) (p : Nat) : Prop :=
  node.startPfn <= p ∧ p < node.endPfn

instance (node : Node) (p : Nat) : Decidable (node.Has p) :=
  inferInstanceAs (Decidable (_ ∧ _))

def Node.Contains (node : Node) (block : Interval) : Prop :=
  node.startPfn <= block.start ∧ block.start + block.size <= node.endPfn

/-- The nodes are disjoint ranges of page frames that have addresses. -/
structure Layout (map : Mapping) (s : State) : Prop where
  range : forall i, i < s.nodeCount ->
    (s.nodes i).startPfn <= (s.nodes i).endPfn ∧ (s.nodes i).endPfn < 2 ^ 64
  pages : forall i, i < s.nodeCount ->
    (s.nodes i).totalPages = (s.nodes i).endPfn - (s.nodes i).startPfn
  apart : forall i j p, i < s.nodeCount -> j < s.nodeCount ->
    (s.nodes i).Has p -> (s.nodes j).Has p -> i = j
  address : forall i p, i < s.nodeCount -> (s.nodes i).Has p ->
    map.pfnToVirt p ≠ 0 ∧ map.virtToPfn (map.pfnToVirt p) = p

def livePages (node : Node) (live : List Interval) : Nat :=
  ((addresses live).filter node.Has).card

structure Ok (map : Mapping) (initial : Nat -> Bool) (sys : System) : Prop where
  layout : Layout map sys.state
  turn : sys.state.nextNode < sys.state.nodeCount ∨ sys.state.nodeCount = 0
  counter : forall i, i < sys.state.nodeCount ->
    (sys.state.nodes i).freePages + livePages (sys.state.nodes i) sys.live =
      (sys.state.nodes i).totalPages
  inside : forall b, b ∈ sys.live -> 0 < b.size ∧
    exists i, i < sys.state.nodeCount ∧ (sys.state.nodes i).Contains b
  apart : sys.live.Pairwise Interval.Apart
  marks : forall p, sys.state.allocated p = true <->
    initial p = true ∨ Covered sys.live p
  fresh : forall p, Covered sys.live p -> initial p = false

def HasRun (s : State) (i count : Nat) : Prop :=
  exists q, (s.nodes i).startPfn <= q ∧ q + count <= (s.nodes i).endPfn ∧
    RunFree s.allocated q count

structure CanTake (s : State) (i q count : Nat) : Prop where
  node : i < s.nodeCount
  contains : (s.nodes i).Contains ⟨q, count⟩
  free : RunFree s.allocated q count
  counted : count <= (s.nodes i).freePages

/-! ## Live pages -/

theorem Node.Contains.has {p : Nat} (h : node.Contains b) (hp : b.Has p) :
    node.Has p :=
  ⟨Nat.le_trans h.left hp.left, Nat.lt_of_lt_of_le hp.right h.right⟩

theorem livePages_congr {live' : List Interval} (node : Node)
    (h : forall p, Covered live p <-> Covered live' p) :
    livePages node live = livePages node live' := by
  unfold livePages
  have hsame : addresses live = addresses live' := by
    ext p
    rw [mem_addresses, mem_addresses, h]
  rw [hsame]

theorem livePages_cons (hapart : forall p, b.Has p -> ¬ Covered live p) :
    livePages node (b :: live) =
      ((Finset.Ico b.start (b.start + b.size)).filter node.Has).card +
        livePages node live := by
  unfold livePages
  show ((_ ∪ addresses live).filter node.Has).card = _
  rw [Finset.filter_union, Finset.card_union_of_disjoint]
  rw [Finset.disjoint_left]
  intro p hp hlive
  rw [Finset.mem_filter, Finset.mem_Ico] at hp
  rw [Finset.mem_filter, mem_addresses] at hlive
  exact hapart p hp.left hlive.left

theorem card_block_of_contains (h : node.Contains b) :
    ((Finset.Ico b.start (b.start + b.size)).filter node.Has).card =
      b.size := by
  rw [Finset.filter_true_of_mem, Nat.card_Ico, Nat.add_sub_cancel_left]
  intro p hp
  exact h.has (Finset.mem_Ico.mp hp)

theorem card_block_of_apart (h : forall p, b.Has p -> ¬ node.Has p) :
    ((Finset.Ico b.start (b.start + b.size)).filter node.Has).card = 0 := by
  rw [Finset.card_eq_zero, Finset.filter_eq_empty_iff]
  intro p hp
  exact h p (Finset.mem_Ico.mp hp)

theorem count_add_livePages_le {q : Nat} (hstart : node.startPfn <= q)
    (hend : q + count <= node.endPfn)
    (hfree : forall p, q <= p -> p < q + count -> ¬ Covered live p) :
    count + livePages node live <= node.endPfn - node.startPfn := by
  have hcontains : node.Contains ⟨q, count⟩ := ⟨hstart, hend⟩
  have hapart (p : Nat) (hp : Interval.Has ⟨q, count⟩ p) : ¬ Covered live p :=
    hfree p hp.left hp.right
  have hcons : livePages node (⟨q, count⟩ :: live) = _ := livePages_cons hapart
  rw [card_block_of_contains hcontains] at hcons
  change _ = count + _ at hcons
  have hsub : (addresses (⟨q, count⟩ :: live)).filter node.Has ⊆
      Finset.Ico node.startPfn node.endPfn := by
    intro p hp
    exact Finset.mem_Ico.mpr (Finset.mem_filter.mp hp).right
  have hcard := Finset.card_le_card hsub
  rw [Nat.card_Ico] at hcard
  unfold livePages at hcons ⊢
  omega

/-! ## Allocation -/

def State.taken (s : State) (i pfn count : Nat) : State :=
  { s.setNode i { s.nodes i with
      freePages := (s.nodes i).freePages - count } with
    allocated := markPages s.allocated true pfn count }

theorem Ok.freePages_le {map : Mapping} {initial : Nat -> Bool} {sys : System}
    (h : Ok map initial sys) (hi : i < sys.state.nodeCount) :
    (sys.state.nodes i).freePages <=
      (sys.state.nodes i).endPfn - (sys.state.nodes i).startPfn := by
  have hcounter := h.counter i hi
  rw [h.layout.pages i hi] at hcounter
  omega

theorem numaAllocPages_refused (map : Mapping) (s : State) {nodeId : Int}
    (h : nodeId < 0 ∨ (s.nodeCount : Int) <= nodeId ∨ count = 0) :
    numaAllocPages map s nodeId count = some (0, s) := by
  unfold numaAllocPages
  rw [if_pos h]

theorem numaAllocPages_node (map : Mapping) (s : State) (hi : i < s.nodeCount)
    (hpos : 0 < count) :
    numaAllocPages map s (Int.ofNat i) count =
      if (s.nodes i).freePages < count then some (0, s)
      else
        match findPages s.allocated count
            (((s.nodes i).endPfn + (2 ^ 64 - count)) % 2 ^ 64) (2 ^ 64)
            (s.nodes i).startPfn with
        | none => none
        | some none => some (0, s)
        | some (some pfn) =>
          some (map.pfnToVirt pfn,
            { s.setNode i { s.nodes i with freePages :=
                ((s.nodes i).freePages + (2 ^ 64 - count)) % 2 ^ 64 } with
              allocated := markPages s.allocated true pfn count }) := by
  unfold numaAllocPages
  rw [if_neg]
  · rfl
  · simp only [Int.ofNat_eq_natCast]
    omega

section

variable {map : Mapping} {initial : Nat -> Bool} {sys : System}

variable {i j q count : Nat} {s : State} {live rest : List Interval}
    {b : Interval} {sys' : System}

theorem Ok.count_le_freePages (h : Ok map initial sys)
    (hi : i < sys.state.nodeCount) (hrun : HasRun sys.state i count) :
    count <= (sys.state.nodes i).freePages := by
  obtain ⟨q, hstart, hend, hfree⟩ := hrun
  have hlive (p : Nat) (hle : q <= p) (hlt : p < q + count) :
      ¬ Covered sys.live p := by
    intro hcovered
    have hmark := (h.marks p).mpr (Or.inr hcovered)
    rw [hfree p hle hlt] at hmark
    cases hmark
  have hfit := count_add_livePages_le hstart hend hlive
  have hcounter := h.counter i hi
  rw [h.layout.pages i hi] at hcounter
  omega

/-- What an allocation from a node does: it takes the first run that is long
enough, or there is none and nothing changes. -/
theorem Ok.allocNode_cases (h : Ok map initial sys)
    (hi : i < sys.state.nodeCount) (hpos : 0 < count) :
    (exists q, CanTake sys.state i q count ∧
      numaAllocPages map sys.state (Int.ofNat i) count =
        some (map.pfnToVirt q, sys.state.taken i q count)) ∨
    (numaAllocPages map sys.state (Int.ofNat i) count = some (0, sys.state) ∧
      ¬ HasRun sys.state i count) := by
  have hrange := h.layout.range i hi
  have hfreeLe := h.freePages_le hi
  rw [numaAllocPages_node map sys.state hi hpos]
  by_cases hfew : (sys.state.nodes i).freePages < count
  · rw [if_pos hfew]
    refine Or.inr ⟨rfl, ?_⟩
    intro hrun
    exact Nat.not_le.mpr hfew (h.count_le_freePages hi hrun)
  · have hlast : ((sys.state.nodes i).endPfn + (2 ^ 64 - count)) % 2 ^ 64 =
        (sys.state.nodes i).endPfn - count := by omega
    have hless : ((sys.state.nodes i).freePages + (2 ^ 64 - count)) % 2 ^ 64 =
        (sys.state.nodes i).freePages - count := by omega
    rw [if_neg hfew, hlast, hless]
    have hsearch := findPages_spec sys.state.allocated count
      ((sys.state.nodes i).endPfn - count) (2 ^ 64)
      (sys.state.nodes i).startPfn (by omega) (by omega) (by omega)
    rcases hsearch with ⟨q, hfound, hfrom, hto, hfree⟩ | ⟨hnone, hbusy⟩
    · rw [hfound]
      rw [pagesFree_iff _ (by omega)] at hfree
      exact Or.inl ⟨q, ⟨hi, ⟨hfrom, show q + count <= _ by omega⟩, hfree,
        Nat.le_of_not_lt hfew⟩, rfl⟩
    · rw [hnone]
      refine Or.inr ⟨rfl, ?_⟩
      rintro ⟨q, hstart, hend, hfree⟩
      have hq := hbusy q hstart (by omega)
      rw [<- pagesFree_iff _ (by omega), hq] at hfree
      cases hfree

/-! ## Keeping the invariant -/

def State.recount (s : State) (i free : Nat) (allocated : Nat -> Bool) :
    State :=
  { s.setNode i { s.nodes i with freePages := free } with
    allocated := allocated }

theorem recount_nodes (s : State) (i free : Nat) (allocated : Nat -> Bool)
    (j : Nat) : (s.recount i free allocated).nodes j = { s.nodes j with
      freePages := if j = i then free else (s.nodes j).freePages } := by
  unfold State.recount State.setNode
  by_cases hj : j = i
  · rw [hj, if_pos rfl]
    exact update_self ..
  · rw [if_neg hj]
    exact update_of_ne hj ..

theorem Layout.recount (h : Layout map s) (i free : Nat)
    (allocated : Nat -> Bool) : Layout map (s.recount i free allocated) := by
  constructor
  · intro j hj
    rw [recount_nodes]
    exact h.range j hj
  · intro j hj
    rw [recount_nodes]
    exact h.pages j hj
  · intro j k p hj hk
    rw [recount_nodes, recount_nodes]
    exact h.apart j k p hj hk
  · intro j p hj
    rw [recount_nodes]
    exact h.address j p hj

/-- The live blocks of a system are one block and the others. -/
structure Splits (live : List Interval) (b : Interval) (rest : List Interval) :
    Prop where
  covered : forall p, Covered live p <-> b.Has p ∨ Covered rest p
  apart : forall p, b.Has p -> ¬ Covered rest p

theorem Splits.livePages (h : Splits live b rest) (node : Node) :
    livePages node live =
      ((Finset.Ico b.start (b.start + b.size)).filter node.Has).card +
        livePages node rest := by
  rw [<- livePages_cons h.apart]
  apply livePages_congr
  intro p
  rw [h.covered]
  simp [Covered]

/-- The counters agree with the live blocks when the node of the block that
comes or goes is counted anew. -/
theorem Splits.counter (hlayout : Layout map s) (h : Splits live b rest)
    (hi : i < s.nodeCount) (hb : (s.nodes i).Contains b) (hj : j < s.nodeCount) :
    Numa.livePages (s.nodes j) live =
      (if j = i then b.size else 0) + Numa.livePages (s.nodes j) rest := by
  rw [h.livePages]
  split
  case isTrue hji => rw [hji, card_block_of_contains hb]
  case isFalse hji =>
    rw [card_block_of_apart]
    intro p hp hother
    exact hji (hlayout.apart j i p hj hi hother (hb.has hp))

theorem Ok.take (h : Ok map initial sys) (hpos : 0 < count)
    (htake : CanTake sys.state i q count) :
    Ok map initial ⟨sys.state.taken i q count, ⟨q, count⟩ :: sys.live⟩ := by
  obtain ⟨hi, hcontains, hfree, hcount⟩ := htake
  have hrange := h.layout.range i hi
  have hend : q + count <= (sys.state.nodes i).endPfn := hcontains.right
  have hunmarked (p : Nat) (hp : (⟨q, count⟩ : Interval).Has p) :
      ¬ (initial p = true ∨ Covered sys.live p) := by
    rw [<- h.marks p, hfree p hp.left hp.right]
    exact Bool.false_ne_true
  have hsplits : Splits (⟨q, count⟩ :: sys.live) ⟨q, count⟩ sys.live := by
    constructor
    · intro p
      simp [Covered]
    · intro p hp hcovered
      exact hunmarked p hp (Or.inr hcovered)
  constructor
  · exact h.layout.recount i _ _
  · exact h.turn
  · intro j hj
    have hcounter := h.counter j hj
    change ((sys.state.recount i _ _).nodes j).freePages +
      livePages ((sys.state.recount i _ _).nodes j) _ =
      ((sys.state.recount i _ _).nodes j).totalPages
    rw [recount_nodes]
    change (if j = i then _ else _) + livePages (sys.state.nodes j) _ =
      (sys.state.nodes j).totalPages
    rw [hsplits.counter h.layout hi hcontains hj]
    by_cases hji : j = i
    · subst hji
      simp only [if_true]
      omega
    · rw [if_neg hji, if_neg hji, Nat.zero_add]
      exact hcounter
  · intro b hb
    rcases mem_cons.mp hb with rfl | hb
    · exact ⟨hpos, i, hi, (recount_nodes ..).symm ▸ hcontains⟩
    · obtain ⟨hsize, j, hj, hjb⟩ := h.inside b hb
      exact ⟨hsize, j, hj, (recount_nodes ..).symm ▸ hjb⟩
  · apply pairwise_cons.mpr
    constructor
    · intro b hb p hp
      exact hsplits.apart p hp.left ⟨b, hb, hp.right⟩
    · exact h.apart
  · intro p
    show markPages sys.state.allocated true q count p = true <-> _
    rw [markPages_apply _ _ (by omega), hsplits.covered]
    split
    case isTrue hp => exact ⟨fun _ => Or.inr (Or.inl hp), fun _ => rfl⟩
    case isFalse hp =>
      rw [h.marks p]
      constructor
      · intro hold
        exact hold.imp_right Or.inr
      · intro hnew
        exact hnew.imp_right (fun hc => hc.resolve_left hp)
  · intro p hp
    rcases (hsplits.covered p).mp hp with hblock | hlive
    · have hnot := hunmarked p hblock
      exact Bool.eq_false_of_not_eq_true (fun hc => hnot (Or.inl hc))
    · exact h.fresh p hlive

/-! ## Freeing a block -/

theorem Layout.findNode_eq (h : Layout map s) {p : Nat} (hi : i < s.nodeCount)
    (hp : (s.nodes i).Has p) : findNode s p = some i := by
  unfold findNode
  cases hfind : (List.range s.nodeCount).find? (fun i =>
      decide ((s.nodes i).startPfn <= p ∧ p < (s.nodes i).endPfn)) with
  | none =>
    have hnot := List.find?_eq_none.mp hfind i (mem_range.mpr hi)
    exact absurd (decide_eq_true hp) hnot
  | some j =>
    have hj := mem_range.mp (mem_of_find?_eq_some hfind)
    have htest := List.find?_some hfind
    have hjp : (s.nodes j).Has p := of_decide_eq_true htest
    rw [h.apart j i p hj hi hjp hp]

theorem splits_erase (hapart : live.Pairwise Interval.Apart) (hb : b ∈ live) :
    Splits live b (live.erase b) := by
  have hperm := perm_cons_erase hb
  have hcons := (hperm.pairwise_iff (fun h => Interval.Apart.symm h)).mp hapart
  constructor
  · intro p
    unfold Covered
    simp only [hperm.mem_iff, mem_cons]
    simp
  · rintro p hp ⟨c, hc, hcp⟩
    exact (pairwise_cons.mp hcons).left c hc p ⟨hp, hcp⟩

theorem Ok.numaFreePages_eq (h : Ok map initial sys) (hb : b ∈ sys.live)
    (hsmall : b.start < 2 ^ 52) :
    exists i, i < sys.state.nodeCount ∧ (sys.state.nodes i).Contains b ∧
      numaFreePages map sys.state (map.pfnToVirt b.start) b.size =
        sys.state.recount i ((sys.state.nodes i).freePages + b.size)
          (markPages sys.state.allocated false b.start b.size) := by
  obtain ⟨hsize, i, hi, hcontains⟩ := h.inside b hb
  have hstart : (sys.state.nodes i).Has b.start :=
    hcontains.has ⟨Nat.le_refl _, Nat.lt_add_of_pos_right hsize⟩
  obtain ⟨haddr, hback⟩ := h.layout.address i b.start hi hstart
  have hnode : numaGetNodeForAddr sys.state (b.start * 4096 % 2 ^ 64) =
      some i := by
    unfold numaGetNodeForAddr
    rw [Nat.mod_eq_of_lt (by omega), Nat.mul_div_cancel _ (by decide)]
    exact h.layout.findNode_eq hi hstart
  have hroom : (sys.state.nodes i).freePages + b.size < 2 ^ 64 := by
    have hcounter := h.counter i hi
    have hrange := h.layout.range i hi
    rw [(splits_erase h.apart hb).counter h.layout hi hcontains hi,
      if_pos rfl, h.layout.pages i hi] at hcounter
    omega
  refine ⟨i, hi, hcontains, ?_⟩
  unfold numaFreePages
  rw [if_neg (by omega), hback]
  simp only [hnode, Nat.mod_eq_of_lt hroom]
  rfl

theorem Ok.free (h : Ok map initial sys) (hb : b ∈ sys.live)
    (hsmall : b.start < 2 ^ 52) :
    Ok map initial
      ⟨numaFreePages map sys.state (map.pfnToVirt b.start) b.size,
        sys.live.erase b⟩ := by
  obtain ⟨i, hi, hcontains, heq⟩ := h.numaFreePages_eq hb hsmall
  have hsplits := splits_erase h.apart hb
  have hrange := h.layout.range i hi
  have hend := hcontains.right
  rw [heq]
  constructor
  · exact h.layout.recount i _ _
  · exact h.turn
  · intro j hj
    have hcounter := h.counter j hj
    rw [hsplits.counter h.layout hi hcontains hj] at hcounter
    rw [recount_nodes]
    change (if j = i then _ else _) + livePages (sys.state.nodes j) _ =
      (sys.state.nodes j).totalPages
    by_cases hji : j = i
    · subst hji
      simp only [if_true] at hcounter ⊢
      omega
    · rw [if_neg hji, Nat.zero_add] at hcounter
      rw [if_neg hji]
      exact hcounter
  · intro c hc
    obtain ⟨hsize, j, hj, hjc⟩ := h.inside c (mem_of_mem_erase hc)
    exact ⟨hsize, j, hj, (recount_nodes ..).symm ▸ hjc⟩
  · exact h.apart.sublist erase_sublist
  · intro p
    show markPages sys.state.allocated false b.start b.size p = true <-> _
    rw [markPages_apply _ _ (by omega)]
    by_cases hp : b.start <= p ∧ p < b.start + b.size
    · have hold := h.fresh p ((hsplits.covered p).mpr (Or.inl hp))
      have hgone := hsplits.apart p hp
      rw [if_pos hp, hold]
      simp [hgone]
    · rw [if_neg hp, h.marks p, hsplits.covered]
      constructor
      · intro hold
        exact hold.imp_right (fun hc => hc.resolve_left hp)
      · intro hnew
        exact hnew.imp_right Or.inr
  · intro p hp
    exact h.fresh p ((hsplits.covered p).mpr (Or.inr hp))

/-! ## Allocation by policy -/

theorem Ok.address (h : Ok map initial sys) (hpos : 0 < count)
    (htake : CanTake sys.state i q count) :
    map.pfnToVirt q ≠ 0 ∧ map.virtToPfn (map.pfnToVirt q) = q :=
  h.layout.address i q htake.node
    (htake.contains.has ⟨Nat.le_refl q, Nat.lt_add_of_pos_right hpos⟩)

theorem Ok.alloc_cases (h : Ok map initial sys) (nodeId : Int) (count : Nat) :
    (exists i q, nodeId = Int.ofNat i ∧ 0 < count ∧
      CanTake sys.state i q count ∧
      numaAllocPages map sys.state nodeId count =
        some (map.pfnToVirt q, sys.state.taken i q count)) ∨
    (numaAllocPages map sys.state nodeId count = some (0, sys.state) ∧
      forall i, nodeId = Int.ofNat i -> i < sys.state.nodeCount -> 0 < count ->
        ¬ HasRun sys.state i count) := by
  by_cases hbad : nodeId < 0 ∨ (sys.state.nodeCount : Int) <= nodeId ∨ count = 0
  · refine Or.inr ⟨numaAllocPages_refused map sys.state hbad, ?_⟩
    intro i hi hlt hpos
    rw [hi] at hbad
    simp only [Int.ofNat_eq_natCast] at hbad
    omega
  · obtain ⟨i, rfl⟩ : exists i, nodeId = Int.ofNat i :=
      ⟨nodeId.toNat, by simp only [Int.ofNat_eq_natCast]; omega⟩
    simp only [Int.ofNat_eq_natCast] at hbad
    have hi : i < sys.state.nodeCount := by omega
    have hpos : 0 < count := by omega
    rcases h.allocNode_cases hi hpos with hfound | ⟨hnone, hrun⟩
    · obtain ⟨q, htake, halloc⟩ := hfound
      exact Or.inl ⟨i, q, rfl, hpos, htake, halloc⟩
    · refine Or.inr ⟨hnone, ?_⟩
      intro j hj _ _
      rw [<- Int.ofNat.inj hj]
      exact hrun

theorem Ok.tryNodes_cases (h : Ok map initial sys) (hpos : 0 < count)
    (ids : List Int) :
    (exists i q, CanTake sys.state i q count ∧
      tryNodes map count ids sys.state =
        some (some (Int.ofNat i, map.pfnToVirt q), sys.state.taken i q count)) ∨
    (tryNodes map count ids sys.state = some (none, sys.state) ∧
      forall i, Int.ofNat i ∈ ids -> i < sys.state.nodeCount ->
        ¬ HasRun sys.state i count) := by
  induction ids with
  | nil => exact Or.inr ⟨rfl, fun i hi => absurd hi not_mem_nil⟩
  | cons nodeId ids ih =>
    unfold tryNodes
    rcases h.alloc_cases nodeId count with hfound | ⟨hfailed, hrun⟩
    · obtain ⟨i, q, rfl, _, htake, halloc⟩ := hfound
      rw [halloc]
      simp only [if_pos (h.address hpos htake).left]
      exact Or.inl ⟨i, q, htake, rfl⟩
    · rw [hfailed]
      simp only [ne_eq, not_true, if_false]
      apply ih.imp_right
      intro hrest
      refine ⟨hrest.left, ?_⟩
      intro i hi hlt
      rcases mem_cons.mp hi with hi | hi
      · exact hrun i hi.symm hlt hpos
      · exact hrest.right i hi hlt

theorem mem_local_or_others (nodeId : Int) (hi : i < s.nodeCount) :
    Int.ofNat i ∈ nodeId :: otherNodes s nodeId := by
  by_cases heq : Int.ofNat i = nodeId
  · rw [heq]
    exact mem_cons_self
  · apply mem_cons_of_mem
    apply mem_filter.mpr
    exact ⟨mem_map_of_mem (mem_range.mpr hi), decide_eq_true heq⟩

theorem mem_interleavedNodes (hnext : s.nextNode < s.nodeCount)
    (hi : i < s.nodeCount) : Int.ofNat i ∈ interleavedNodes s := by
  -- node `i` is as many turns away as it is behind the next node
  apply mem_map.mpr
  by_cases hle : s.nextNode <= i
  · refine ⟨i - s.nextNode, mem_range.mpr (by omega), ?_⟩
    rw [Nat.add_sub_cancel' hle, Nat.mod_eq_of_lt hi]
  · refine ⟨i + s.nodeCount - s.nextNode, mem_range.mpr (by omega), ?_⟩
    have hsum : s.nextNode + (i + s.nodeCount - s.nextNode) =
        i + s.nodeCount := by omega
    rw [hsum, Nat.add_mod_right, Nat.mod_eq_of_lt hi]

/-- An allocation by policy takes pages of some node, or no node has them. -/
theorem Ok.policyAlloc_cases (h : Ok map initial sys) (cpu count : Nat) :
    (exists i q nextNode, 0 < count ∧ CanTake sys.state i q count ∧
      (nextNode < sys.state.nodeCount ∨ sys.state.nodeCount = 0) ∧
      numaPolicyAllocPages map sys.state cpu count =
        some (map.pfnToVirt q,
          { sys.state.taken i q count with nextNode := nextNode })) ∨
    (numaPolicyAllocPages map sys.state cpu count = some (0, sys.state) ∧
      forall i, i < sys.state.nodeCount -> 0 < count ->
        ¬ HasRun sys.state i count) ∨
    (numaPolicyAllocPages map sys.state cpu count = none ∧
      sys.state.nodeCount = 0) := by
  unfold numaPolicyAllocPages
  by_cases hcount : count = 0
  · rw [if_pos hcount]
    exact Or.inr (Or.inl ⟨rfl, fun _ _ hpos => by omega⟩)
  have hpos := Nat.pos_of_ne_zero hcount
  rw [if_neg hcount]
  cases hpolicy : sys.state.policy with
  | «local» =>
    by_cases hzero : sys.state.nodeCount = 0
    · simp only [if_pos hzero]
      exact Or.inr (Or.inr ⟨trivial, hzero⟩)
    · simp only [if_neg hzero]
      rcases h.tryNodes_cases hpos
        (Int.ofNat (cpu % sys.state.nodeCount) ::
          otherNodes sys.state (Int.ofNat (cpu % sys.state.nodeCount)))
        with ⟨i, q, htake, heq⟩ | ⟨heq, hnone⟩
      · rw [heq]
        exact Or.inl ⟨i, q, sys.state.nextNode, hpos, htake, h.turn, rfl⟩
      · rw [heq]
        refine Or.inr (Or.inl ⟨rfl, fun i hi _ => ?_⟩)
        exact hnone i (mem_local_or_others _ hi) hi
  | interleave =>
    rcases h.tryNodes_cases hpos (interleavedNodes sys.state)
      with ⟨i, q, htake, heq⟩ | ⟨heq, hnone⟩
    · simp only [heq]
      have hnode := htake.node
      exact Or.inl ⟨i, q, (i + 1) % sys.state.nodeCount, hpos, htake,
        Or.inl (Nat.mod_lt _ (by omega)), rfl⟩
    · simp only [heq]
      refine Or.inr (Or.inl ⟨trivial, fun i hi _ => ?_⟩)
      rcases h.turn with hnext | hzero
      · exact hnone i (mem_interleavedNodes hnext hi) hi
      · omega
  | preferred =>
    rcases h.tryNodes_cases hpos
      (sys.state.preferredNode ::
        otherNodes sys.state sys.state.preferredNode)
      with ⟨i, q, htake, heq⟩ | ⟨heq, hnone⟩
    · simp only [heq]
      exact Or.inl ⟨i, q, sys.state.nextNode, hpos, htake, h.turn, rfl⟩
    · simp only [heq]
      refine Or.inr (Or.inl ⟨trivial, fun i hi _ => ?_⟩)
      exact hnone i (mem_local_or_others _ hi) hi

/-! ## Runs -/

theorem Ok.setNext (h : Ok map initial sys) {nextNode : Nat}
    (hnext : nextNode < sys.state.nodeCount ∨ sys.state.nodeCount = 0) :
    Ok map initial { sys with
      state := { sys.state with nextNode := nextNode } } :=
  { h with layout := { h.layout with }, turn := hnext }

/-- A freed block starts at a page frame whose address has 64 bits. -/
def StepOk (_ : System) : Call -> Prop
  | Call.free block => block.start < 2 ^ 52
  | _ => True

theorem Ok.record (h : Ok map initial sys) (hpos : 0 < count)
    (htake : CanTake sys.state i q count)
    (hs : sys.record map count (some (map.pfnToVirt q, s)) = some sys') :
    sys' = ⟨s, ⟨q, count⟩ :: sys.live⟩ := by
  obtain ⟨haddr, hback⟩ := h.address hpos htake
  unfold System.record at hs
  simp only [if_neg haddr, hback] at hs
  exact (Option.some.inj hs).symm

theorem Ok.step {call : Call} (h : Ok map initial sys) (hok : StepOk sys call)
    (hs : next map sys call = some sys') : Ok map initial sys' := by
  cases call with
  | alloc nodeId count =>
    simp only [next] at hs
    rcases h.alloc_cases nodeId count.toNat with hfound | ⟨hfailed, _⟩
    · obtain ⟨i, q, _, hpos, htake, halloc⟩ := hfound
      rw [halloc] at hs
      rw [h.record hpos htake hs]
      exact h.take hpos htake
    · rw [hfailed] at hs
      obtain rfl := Option.some.inj hs
      exact h
  | policyAlloc cpu count =>
    simp only [next] at hs
    rcases h.policyAlloc_cases cpu count.toNat with
      hfound | ⟨hfailed, _⟩ | ⟨hfault, _⟩
    · obtain ⟨i, q, nextNode, hpos, htake, hnext, halloc⟩ := hfound
      rw [halloc] at hs
      rw [h.record hpos htake hs]
      exact (h.take hpos htake).setNext hnext
    · rw [hfailed] at hs
      obtain rfl := Option.some.inj hs
      exact h
    · rw [hfault] at hs
      cases hs
  | free block =>
    simp only [next] at hs
    split at hs
    case isTrue hmem =>
      obtain rfl := Option.some.inj hs
      exact h.free hmem hok
    case isFalse => cases hs
  | setPolicy policy preferredNode =>
    obtain rfl := Option.some.inj hs
    unfold numaSetPolicy
    split
    case isTrue => exact h
    case isFalse =>
      exact { h with layout := { h.layout with } }

/-- The nodes as `numa_detect_nodes` sets them up, over any disjoint ranges and
with any pages allocated already. -/
structure Initial (map : Mapping) (initial : Nat -> Bool) (sys : System) :
    Prop where
  layout : Layout map sys.state
  allocated : sys.state.allocated = initial
  free : forall i, i < sys.state.nodeCount ->
    (sys.state.nodes i).freePages = (sys.state.nodes i).totalPages
  turn : sys.state.nextNode = 0
  live : sys.live = []

theorem Initial.ok (h : Initial map initial sys) : Ok map initial sys := by
  constructor
  · exact h.layout
  · rw [h.turn]
    exact (Nat.eq_zero_or_pos sys.state.nodeCount).symm
  · intro i hi
    rw [h.free i hi, h.live]
    rfl
  · intro b hb
    rw [h.live] at hb
    cases hb
  · rw [h.live]
    exact List.Pairwise.nil
  · intro p
    rw [h.allocated, h.live]
    simp [Covered]
  · intro p hp
    rw [h.live] at hp
    simp [Covered] at hp

end

/-! ## One node -/

end Numa
end Horizon
