import Horizon.Mm.Slab.OneSlab

/-!
# The owner of an allocation

`kmalloc` takes objects from the cache for the size and pages for what is larger
than every cache; `kfree` gives everything back to the first cache.  The second
of these is harmless for objects of the first cache, and for objects of a slab
that is not full, because then no list is touched.
-/

namespace Horizon
namespace Slab
namespace Kmalloc

open Function List LinkedList
open Memory

/-!
## Sizes
-/

def classOf (size : Nat) : Option Nat :=
  kmallocSizes.findIdx? fun bound => size <= bound

variable {a i k addr size : Nat} {s s' : State} {live : List Nat}
    {blocks : List Block} {slabOf : Nat -> Option Nat} {L : Links Node}

theorem classOf_small (h : size <= 4072) :
    exists k bound, classOf size = some k ∧ k < 8 ∧
      kmallocSizes[k]? = some bound ∧ size <= bound := by
  cases hclass : classOf size with
  | none =>
    have hnone := List.findIdx?_eq_none_iff.mp hclass 4096 (by decide)
    rw [decide_eq_false_iff_not] at hnone
    omega
  | some k =>
    rcases List.findIdx?_eq_some_iff_getElem.mp hclass with ⟨hlt, hle, hfirst⟩
    refine ⟨k, kmallocSizes[k], rfl, ?_, List.getElem?_eq_getElem hlt,
      of_decide_eq_true hle⟩
    -- the eighth cache would have done
    by_contra hge
    have hseven := hfirst 7 (by omega)
    have hbound : size <= kmallocSizes[7] := by
      show size <= 4096
      omega
    exact hseven (decide_eq_true hbound)

theorem classOf_large (h : 131072 < size) : classOf size = none := by
  unfold classOf
  rw [List.findIdx?_eq_none_iff]
  intro bound hbound
  have hle : bound <= 131072 := by
    have hall : forall b, b ∈ kmallocSizes -> b <= 131072 := by decide
    exact hall bound hbound
  rw [decide_eq_false_iff_not]
  omega

def Standard (s : State) : Prop :=
  forall k bound, kmallocSizes[k]? = some bound ->
    exists x y, s.cache k = newCache bound 0 none x y

structure Small (c : Cache) (k bound : Nat) : Prop where
  ok : CacheOk c
  size : c.size = bound
  ctor : c.ctor = none
  last : slabHeader + (c.num - 1) * c.size + min c.size 4072 <= pageSize
  few : 0 < k -> c.num < 127

theorem small_sizes : forall p, p ∈ (kmallocSizes.take 8).zipIdx ->
    0 < (newCache p.1 0 none 0 0).num ∧ 4 <= (newCache p.1 0 none 0 0).size ∧
    slabHeader + ((newCache p.1 0 none 0 0).num - 1) *
      (newCache p.1 0 none 0 0).size +
        min (newCache p.1 0 none 0 0).size 4072 <= pageSize ∧
    (newCache p.1 0 none 0 0).size = p.1 ∧
    (0 < p.2 -> (newCache p.1 0 none 0 0).num < 127) := by
  decide

theorem Standard.small (h : Standard s) {bound : Nat} (hk : k < 8)
    (hbound : kmallocSizes[k]? = some bound) : Small (s.cache k) k bound := by
  rcases h k bound hbound with ⟨x, y, hcache⟩
  have hmem : (bound, k) ∈ (kmallocSizes.take 8).zipIdx := by
    rw [mk_mem_zipIdx_iff_getElem?, getElem?_take_of_lt hk]
    exact hbound
  rcases small_sizes _ hmem with ⟨hnum, hsize, hlast, hbytes, hfew⟩
  have hfour := Nat.le_min.mpr ⟨hsize, (by decide : 4 <= 4072)⟩
  rw [hcache]
  exact ⟨⟨hnum, hsize, Nat.le_trans (Nat.add_le_add_left hfour _) hlast⟩,
    hbytes, rfl, hlast, hfew⟩

theorem Standard.exists_small (h : Standard s) (hk : k < 8) :
    exists bound, Small (s.cache k) k bound := by
  have hlen : k < kmallocSizes.length := Nat.lt_of_lt_of_le hk (by decide)
  exact ⟨_, h.small hk (List.getElem?_eq_getElem hlen)⟩

theorem Standard.first (h : Standard s) : (s.cache 0).num = 127 := by
  rcases h 0 32 rfl with ⟨x, y, hcache⟩
  rw [hcache]
  rfl

theorem Standard.cacheOk (h : Standard s) (hk : k < 8) :
    CacheOk (s.cache k) := by
  rcases h.exists_small hk with ⟨bound, hsmall⟩
  exact hsmall.ok

/-!
## Runs
-/

/-- A pointer that `kmalloc` returned, with the size that was asked for. -/
structure Allocation where
  addr : Nat
  size : Nat
deriving DecidableEq

def Allocation.Apart (b c : Allocation) : Prop :=
  b.addr + b.size <= c.addr ∨ c.addr + c.size <= b.addr

/--
A state, the allocations that were not freed since, and every object that came
from a cache so far, with that cache.
-/
structure History where
  state : State
  live : List Allocation
  produced : List (Nat × Nat)

def addrs (live : List Allocation) : List Nat := live.map Allocation.addr

/-- The calls, and what the owner of an allocation writes at its start. -/
inductive Call where
  | kmalloc (size : Nat) (zero : Bool)
  | kfree (addr : Nat)
  | write (addr : Nat) (v : Option Nat)

def served (produced : List (Nat × Nat)) (size addr : Nat) : List (Nat × Nat) :=
  match classOf size with
  | none => produced
  | some k => (addr, k) :: produced

def step (h : History) : Call -> Option History
  | Call.kmalloc size zero => do
      let (addr, s) <- Slab.kmalloc h.state size zero
      if addr = 0 then return { h with state := s }
      else
        return {
          state := s
          live := { addr := addr, size := size } :: h.live
          produced := served h.produced size addr }
  | Call.kfree addr => do
      let s <- Slab.kfree h.state addr
      return { h with
        state := s
        live := h.live.eraseP fun b => b.addr = addr }
  | Call.write addr v => some { h with state := h.state.setNext addr v }

/--
What is asked for stays inside the page, also when the whole object is cleared,
and what is freed is an object of the first cache or of a slab that is not full.
A request is a 32-bit number.
-/
def StepOk (h : History) : Call -> Prop
  | Call.kmalloc size zero => size < 2 ^ 32 ∧
      (size <= 4072 ∧ (zero = true -> size <= 2048) ∨ 131072 < size)
  | Call.kfree addr => exists b, b ∈ h.live ∧ b.addr = addr ∧
      exists k, classOf b.size = some k ∧
        (k = 0 ∨ (h.state.slab (pageOf addr)).free ≠ 0)
  | Call.write addr _ => exists b, b ∈ h.live ∧ b.addr = addr

inductive Reachable (init : State) : History -> Prop where
  | init : Reachable init { state := init, live := [], produced := [] }
  | call {h h' : History} {call : Call} : Reachable init h ->
      StepOk h call -> step h call = some h' -> Reachable init h'

/-!
## The invariant
-/

def Fits : Place -> Nat -> Nat -> Prop
  | Place.used, free, _ => 0 < free
  | Place.full, free, _ => free = 0
  | Place.idle, free, num => free = num

structure Housed (s : State) (live : List Nat) (blocks : List Block)
    (k a : Nat) : Prop where
  small : k < 8
  block : Block.mk a 1 ∈ blocks
  ok : exists free, SlabOk s k live a free
  shape : exists p, Shape s.links k a p ∧ Fits p (s.slab a).free (s.cache k).num

theorem Housed.other {live' : List Nat} {blocks' : List Block} {j b : Nat}
    (h : Housed s live blocks j b) (hok : CacheOk (s.cache j)) (hjk : j ≠ k)
    (hba : b ≠ a) (hcache : s'.cache j = s.cache j)
    (hslab : s'.slab b = s.slab b)
    (hnext : forall o, pageOf o ≠ a -> s'.next o = s.next o)
    (hlinks : Elsewhere s.links s'.links k a)
    (hlive : (liveIn live' b).Perm (liveIn live b))
    (hblock : Block.mk b 1 ∈ blocks') : Housed s' live' blocks' j b := by
  rcases h.ok with ⟨free, hfree⟩
  rcases h.shape with ⟨p, hshape, hfits⟩
  refine ⟨h.small, hblock, ⟨free, ?_⟩, p, ?_, ?_⟩
  · exact hfree.other hok hba hcache hslab hnext hlive
  · exact hshape.congr (hlinks.head hjk) (hlinks.slab hba)
  · rw [hslab, hcache]
    exact hfits

/-- An allocation is an object of the slab for its size, or a block of pages. -/
def Held (slabOf : Nat -> Option Nat) (blocks : List Block) (b : Allocation) :
    Prop :=
  (exists k, classOf b.size = some k ∧ b.size <= 4072 ∧
    slabOf k = some (pageOf b.addr)) ∨
  131072 < b.size ∧ exists count, Block.mk b.addr count ∈ blocks ∧
    b.size <= count * pageSize

structure Kept (h : History) (slabOf : Nat -> Option Nat)
    (blocks : List Block) : Prop where
  formed : Formed h.state.mm
  aligned : h.state.mm.memStart % pageSize = 0
  owns : Owns h.state.mm blocks
  cache : Standard h.state
  empty : forall k, k < 13 -> slabOf k = none ->
    forall i, Ring h.state.links (Node.head k i) []
  slab : forall k a, slabOf k = some a ->
    Housed h.state (addrs h.live) blocks k a
  inj : forall j k a, slabOf j = some a -> slabOf k = some a -> j = k
  held : forall b, b ∈ h.live -> Held slabOf blocks b
  nodup : (addrs h.live).Nodup
  produced : forall obj k, (obj, k) ∈ h.produced -> slabOf k = some (pageOf obj)

variable {h h' : History} {b : Allocation}

section

variable (hkept : Kept h slabOf blocks)
include hkept

/-- Only one slab, its page and its links change. -/
theorem Kept.change (ha : slabOf k = some a) (hmm : h'.state.mm = h.state.mm)
    (hcache : h'.state.cache = h.state.cache)
    (hslab : forall b, b ≠ a -> h'.state.slab b = h.state.slab b)
    (hnext : forall o, pageOf o ≠ a -> h'.state.next o = h.state.next o)
    (hlinks : Elsewhere h.state.links h'.state.links k a)
    (hhoused : Housed h'.state (addrs h'.live) blocks k a)
    (hlive : forall b, b ≠ a ->
      (liveIn (addrs h'.live) b).Perm (liveIn (addrs h.live) b))
    (hheld : forall b, b ∈ h'.live -> Held slabOf blocks b)
    (hnodup : (addrs h'.live).Nodup)
    (hproduced : forall obj j, (obj, j) ∈ h'.produced ->
      slabOf j = some (pageOf obj)) : Kept h' slabOf blocks where
  formed := hmm ▸ hkept.formed
  aligned := hmm ▸ hkept.aligned
  owns := hmm ▸ hkept.owns
  cache := fun j => hcache ▸ hkept.cache j
  empty := by
    intro j hj hnone i
    apply hlinks.ring _ (hkept.empty j hj hnone i)
    intro heq
    rw [heq, ha] at hnone
    cases hnone
  slab := by
    intro j b hb
    by_cases hj : j = k
    · rw [hj, ha] at hb
      cases hb
      rw [hj]
      exact hhoused
    · have hne : b ≠ a := by
        intro heq
        rw [heq] at hb
        exact hj (hkept.inj j k a hb ha)
      have hold := hkept.slab j b hb
      exact hold.other (hkept.cache.cacheOk hold.small) hj hne (by rw [hcache])
        (hslab b hne) hnext hlinks (hlive b hne) hold.block
  inj := hkept.inj
  held := hheld
  nodup := hnodup
  produced := hproduced

/-!
## Requests for objects
-/

theorem Kept.take (ha : slabOf k = some a)
    (hshape : Shape h.state.links k a .used) (hpos : 0 < (h.state.slab a).free)
    (hclass : classOf size = some k) (hsize : size <= 4072) (zero : Bool) :
    exists obj s', takeObject h.state k a = some (obj, s') ∧ obj ≠ 0 ∧
      Kept {
        state := if zero then s'.setNext obj none else s'
        live := { addr := obj, size := size } :: h.live
        produced := served h.produced size obj } slabOf blocks := by
  have hhoused := hkept.slab k a ha
  have hcache := hkept.cache.cacheOk hhoused.small
  rcases hhoused.ok with ⟨free, hok⟩
  have hlength := hok.length
  cases free with
  | nil =>
    rw [length_nil] at hlength
    omega
  | cons obj rest =>
    rcases hok.mem_page hcache mem_cons_self with ⟨hpage, hne⟩
    rcases hok.take hcache zero with ⟨hnew, hfree⟩
    have hfree' : ((afterTake h.state a obj zero).slab a).free =
        (h.state.slab a).free - 1 := by
      rw [afterTake_slab, update_self]
      exact hfree
    have hlinks : exists L p, (if sub32 (h.state.slab a).free 1 = 0 then
        moveSlab h.state.links a (.head k .slabsFull)
        else some h.state.links) = some L ∧ Shape L k a p ∧
        Fits p ((h.state.slab a).free - 1) (h.state.cache k).num ∧
        Elsewhere h.state.links L k a := by
      rw [hfree]
      by_cases hlast : (h.state.slab a).free - 1 = 0
      · rcases hshape.fill with ⟨L, hmove, hfull, helse⟩
        exact ⟨L, .full, by rw [if_pos hlast, hmove], hfull, hlast, helse⟩
      · exact ⟨h.state.links, .used, if_neg hlast, hshape,
          Nat.pos_of_ne_zero hlast, fun _ _ _ => rfl⟩
    rcases hlinks with ⟨L, p, hlinks, hshape', hfits, helse⟩
    rcases takeObject_afterTake hok.chain.left hlinks zero with
      ⟨s', htake, hstate⟩
    refine ⟨obj, s', htake, hne, ?_⟩
    rw [hstate]
    refine hkept.change ha ?_ ?_ ?_ ?_ helse ?_ ?_ ?_ ?_ ?_
    · cases zero <;> rfl
    · exact afterTake_cache ..
    · intro b hb
      show (afterTake h.state a obj zero).slab b = _
      rw [afterTake_slab, update_of_ne hb]
    · intro o ho
      exact afterTake_next _ _ _ _ fun heq => ho (heq ▸ hpage)
    · refine ⟨hhoused.small, hhoused.block, ⟨rest, { hnew with }⟩, p,
        hshape', ?_⟩
      rw [hfree', afterTake_cache]
      exact hfits
    · intro b hb
      show (liveIn (obj :: addrs h.live) b).Perm _
      rw [liveIn_cons_of_ne hpage hb]
    · intro b hb
      rcases mem_cons.mp hb with rfl | hb
      · refine Or.inl ⟨k, hclass, hsize, ?_⟩
        show slabOf k = some (pageOf obj)
        rw [hpage]
        exact ha
      · exact hkept.held b hb
    · refine nodup_cons.mpr ⟨?_, hkept.nodup⟩
      exact hok.not_mem hcache mem_cons_self
    · intro o j hmem
      unfold served at hmem
      rw [hclass] at hmem
      rcases mem_cons.mp hmem with heq | hmem
      · cases heq
        rw [hpage]
        exact ha
      · exact hkept.produced o j hmem

theorem Kept.block (hb : b ∈ h.live) :
    exists count, Block.mk (pageOf b.addr) count ∈ blocks := by
  rcases hkept.held b hb with ⟨k, _, _, hslab⟩ | ⟨_, count, hmem, _⟩
  · exact ⟨1, (hkept.slab k _ hslab).block⟩
  · rcases hkept.owns.place _ hmem with ⟨page, hat, _⟩
    have haddr : b.addr = h.state.mm.memStart + page * pageSize := hat.addr
    rw [pageOf_of_aligned]
    · exact ⟨count, hmem⟩
    · rw [haddr, Nat.add_mul_mod_self_right]
      exact hkept.aligned

structure Fresh (h : History) (blocks : List Block) (a count : Nat)
    (mm : Memory.State) : Prop where
  formed : Formed mm
  memStart : mm.memStart = h.state.mm.memStart
  owns : Owns mm (Block.mk a count :: blocks)
  aligned : a % pageSize = 0
  block : forall b n, Block.mk b n ∈ blocks -> b ≠ a
  live : liveIn (addrs h.live) a = []

theorem Kept.fresh (count : Nat) :
    mmAllocPages h.state.mm count = (0, h.state.mm) ∨
      exists a mm, mmAllocPages h.state.mm count = (a, mm) ∧ a ≠ 0 ∧
        Fresh h blocks a count mm := by
  rcases mmAllocPages_cases hkept.formed count with
    ⟨hres, _⟩ | ⟨page, hres, hat, hrun, _⟩
  · exact Or.inl hres
  refine Or.inr ⟨_, _, hres, (hat.pageAddress hkept.formed).right.left, ?_⟩
  have howns := hkept.owns.taken hat hrun
  have hblock : forall b n, Block.mk b n ∈ blocks ->
      b ≠ h.state.mm.memStart + page * pageSize := by
    intro b n hb heq
    rcases hkept.owns.place _ hb with ⟨q, hq, _⟩
    have hn : 0 < n := hq.pos
    have hcount : 0 < count := hat.pos
    have hapart := (pairwise_cons.mp howns.apart).left _ hb
    rw [heq] at hapart
    unfold Block.Apart pageSize at hapart
    simp only at hapart
    omega
  refine ⟨taken_formed hkept.formed hat hrun, rfl, howns, ?_, hblock, ?_⟩
  · rw [Nat.add_mul_mod_self_right]
    exact hkept.aligned
  · rw [eq_nil_iff_forall_not_mem]
    intro obj hobj
    rcases mem_liveIn.mp hobj with ⟨hlive, hpage⟩
    rcases mem_map.mp hlive with ⟨b, hb, rfl⟩
    rcases hkept.block hb with ⟨n, hn⟩
    exact hblock _ n hn hpage

theorem Kept.grow {mm : Memory.State} (hk : k < 8) (hnone : slabOf k = none)
    (halloc : mmAllocPages h.state.mm 1 = (a, mm)) (hne : a ≠ 0)
    (hfresh : Fresh h blocks a 1 mm) :
    exists s', pickSlab h.state k = some (some a, s') ∧
      Kept { h with state := s' } (update slabOf k (some a))
        (Block.mk a 1 :: blocks) ∧
      Shape s'.links k a .used ∧ 0 < (s'.slab a).free := by
  rcases hkept.cache.exists_small hk with ⟨_, hcache, _, hctor, _, _⟩
  rcases pickSlab_grown hcache hctor (hkept.empty k (by omega) hnone)
    (by rw [halloc]) hne hfresh.aligned hfresh.live with ⟨s', hpick, hgrown⟩
  rcases hgrown.counted with ⟨x, y, hcounted⟩
  have hnum : (s'.cache k).num = (h.state.cache k).num := by rw [hcounted]
  have hpos : 0 < (s'.slab a).free := by
    rw [hgrown.free, hnum]
    exact hcache.num
  have hmm : s'.mm = mm := by rw [hgrown.mm, halloc]
  have hold {j b : Nat} (hj : slabOf j = some b) : j ≠ k ∧ b ≠ a := by
    refine ⟨fun heq => ?_, hfresh.block b 1 (hkept.slab j b hj).block⟩
    rw [heq, hnone] at hj
    cases hj
  have hslabs (j b : Nat) : update slabOf k (some a) j = some b <->
      j = k ∧ b = a ∨ slabOf j = some b := by
    by_cases hjk : j = k
    · simp [hjk, hnone, eq_comm]
    · simp [hjk]
  refine ⟨s', hpick, ?_, hgrown.shape, hpos⟩
  constructor
  · rw [hmm]
    exact hfresh.formed
  · rw [hmm, hfresh.memStart]
    exact hkept.aligned
  · rw [hmm]
    exact hfresh.owns
  · intro j bound hbound
    show exists x y, s'.cache j = _
    rcases hkept.cache j bound hbound with ⟨x', y', hcache'⟩
    by_cases hj : j = k
    · rw [hj] at hcache' ⊢
      rw [hcounted, hcache']
      exact ⟨x, y, rfl⟩
    · rw [hgrown.cache j hj]
      exact ⟨x', y', hcache'⟩
  · intro j hj hjnone i
    have hjk : j ≠ k := by
      rintro rfl
      rw [update_self] at hjnone
      cases hjnone
    rw [update_of_ne hjk] at hjnone
    exact hgrown.elsewhere.ring hjk (hkept.empty j hj hjnone i)
  · intro j b hj
    rcases (hslabs j b).mp hj with ⟨rfl, rfl⟩ | hj
    · exact ⟨hk, mem_cons_self, hgrown.ok, .used, hgrown.shape, hpos⟩
    · have hhoused := hkept.slab j b hj
      rcases hold hj with ⟨hjk, hba⟩
      exact hhoused.other (hkept.cache.cacheOk hhoused.small) hjk hba
        (hgrown.cache j hjk) (hgrown.slab b hba) hgrown.next hgrown.elsewhere
        (List.Perm.refl _) (mem_cons_of_mem _ hhoused.block)
  · intro i j b hi hj
    rw [hslabs] at hi hj
    rcases hi with ⟨rfl, rfl⟩ | hi
    · exact (hj.resolve_right fun hj => (hold hj).right rfl).left.symm
    · exact hkept.inj i j b hi (hj.resolve_left fun hj => (hold hi).right hj.right)
  · intro b hb
    rcases hkept.held b hb with ⟨j, hclass, hsize, hj⟩ | ⟨hlarge, n, hn, hle⟩
    · exact Or.inl ⟨j, hclass, hsize, (hslabs j _).mpr (Or.inr hj)⟩
    · exact Or.inr ⟨hlarge, n, mem_cons_of_mem _ hn, hle⟩
  · exact hkept.nodup
  · exact fun obj j hmem =>
      (hslabs j _).mpr (Or.inr (hkept.produced obj j hmem))

def afterRequest (h : History) (s : State) (addr size : Nat) : History :=
  if addr = 0 then { h with state := s }
  else {
    state := s
    live := { addr := addr, size := size } :: h.live
    produced := served h.produced size addr }

theorem Kept.alloc {zero : Bool} (hk : k < 8) (hclass : classOf size = some k)
    (hsize : size <= 4072)
    (hres : slabCacheAlloc h.state k zero = some (addr, s)) :
    exists slabOf' blocks', Kept (afterRequest h s addr size) slabOf' blocks' := by
  -- what is left to do once there is a slab on the list of partial slabs
  have htake : forall {s1 : State} {slabOf' : Nat -> Option Nat}
      {blocks' : List Block} {a : Nat},
      pickSlab h.state k = some (some a, s1) ->
      Kept { h with state := s1 } slabOf' blocks' -> slabOf' k = some a ->
      Shape s1.links k a .used -> 0 < (s1.slab a).free ->
      exists slabOf' blocks',
        Kept (afterRequest h s addr size) slabOf' blocks' := by
    intro s1 slabOf' blocks' a hpick hkept1 ha hshape hpos
    rcases hkept1.take ha hshape hpos hclass hsize zero with
      ⟨obj, s2, htake, hne, hkept2⟩
    have hres' : slabCacheAlloc h.state k zero =
        some (obj, if zero then s2.setNext obj none else s2) := by
      unfold slabCacheAlloc
      simp only [hpick, Option.bind_eq_bind, Option.bind_some, htake,
        Option.pure_def]
    cases hres.symm.trans hres'
    refine ⟨slabOf', blocks', ?_⟩
    unfold afterRequest
    rw [if_neg hne]
    exact hkept2
  cases ha : slabOf k with
  | none =>
    rcases hkept.fresh 1 with hnull | ⟨a, mm, halloc, hne, hfresh⟩
    · -- there is no page for a slab
      have hempty := hkept.empty k (by omega) ha
      have hres' : slabCacheAlloc h.state k zero =
          some (0, { h.state with mm := h.state.mm }) := by
        unfold slabCacheAlloc pickSlab slabAlloc
        rw [(hempty _).listEmpty_iff.mpr rfl, (hempty _).listEmpty_iff.mpr rfl,
          if_pos rfl, if_pos rfl, hnull, if_pos rfl]
        rfl
      cases hres.symm.trans hres'
      exact ⟨slabOf, blocks, hkept⟩
    · rcases hkept.grow hk ha halloc hne hfresh with
        ⟨s1, hpick, hkept1, hshape, hpos⟩
      exact htake hpick hkept1 (update_self ..) hshape hpos
  | some a =>
    have hhoused := hkept.slab k a ha
    have hnum := (hkept.cache.cacheOk hk).num
    rcases hhoused.shape with ⟨p, hshape, hfits⟩
    -- a slab that is not on the list of partial slabs is moved there
    have hmove : forall L, Ring h.state.links (.head k .slabsPartial) [] ->
        (h.state.links (.head k .slabsFree)).next = some (.slab a) ->
        moveSlab h.state.links a (.head k .slabsPartial) = some L ->
        pickSlab h.state k = some (some a, { h.state with links := L }) := by
      intro L hring hfirst hmove
      have hpart := hring.listEmpty_iff.mpr rfl
      unfold pickSlab listEmpty firstSlab at *
      rw [hpart, if_pos rfl, hfirst, if_neg (by simp)]
      simp only [Option.bind_eq_bind, Option.bind_some, hmove, Option.pure_def]
    cases p with
    | used =>
      have hpick : pickSlab h.state k = some (some a, h.state) := by
        have hfirst := hshape.left.segment.next_eq
        unfold pickSlab listEmpty firstSlab
        rw [hfirst, if_neg (by simp)]
        rfl
      exact htake hpick hkept ha hshape hfits
    | full =>
      -- the first free object is fetched through a null pointer
      rcases hshape.unfill with ⟨L, hmoved, _, _⟩
      have hpick := hmove L hshape.left hshape.right.right hmoved
      rcases hhoused.ok with ⟨free, hok⟩
      have hfree : (h.state.slab a).freelist = none := by
        have hlength := hok.length
        have hchain := hok.chain
        rw [show (h.state.slab a).free = 0 from hfits] at hlength
        rw [length_eq_zero_iff.mp hlength] at hchain
        exact hchain
      unfold slabCacheAlloc takeObject at hres
      simp only [hpick, Option.bind_eq_bind, Option.bind_some, hfree,
        Option.bind_none] at hres
      cases hres
    | idle =>
      rcases hshape.wake with ⟨L, hmoved, hused, helse⟩
      have hpos : 0 < (h.state.slab a).free := by
        rw [show (h.state.slab a).free = (h.state.cache k).num from hfits]
        exact hnum
      rcases hhoused.ok with ⟨free, hok⟩
      have hkept1 : Kept { h with state := { h.state with links := L } }
          slabOf blocks := by
        refine hkept.change ha rfl rfl (fun _ _ => rfl) (fun _ _ => rfl)
          helse ?_ (fun _ _ => List.Perm.refl _) hkept.held hkept.nodup
          hkept.produced
        exact ⟨hk, hhoused.block, ⟨free, { hok with }⟩, .used, hused,
          hpos⟩
      exact htake (hmove L hshape.left hshape.right.right.left hmoved) hkept1
        ha hused hpos

/-!
## The other calls
-/

theorem Kept.pages {count : Nat} (hsize : 131072 < size)
    (hcount : count = 0 ∨ size <= count * pageSize) :
    exists blocks', Kept (afterRequest h
      { h.state with mm := (mmAllocPages h.state.mm count).2 }
      (mmAllocPages h.state.mm count).1 size) slabOf blocks' := by
  rcases hkept.fresh count with hnull | ⟨a, mm, halloc, hne, hfresh⟩
  · refine ⟨blocks, ?_⟩
    rw [hnull]
    exact hkept
  refine ⟨Block.mk a count :: blocks, ?_⟩
  rw [halloc]
  have hserved : served h.produced size a = h.produced := by
    unfold served
    rw [classOf_large hsize]
  have hpage := pageOf_of_aligned hfresh.aligned
  have hin : a ∉ addrs h.live := by
    intro hmem
    have hlive := mem_liveIn.mpr ⟨hmem, hpage⟩
    rw [hfresh.live] at hlive
    cases hlive
  have hpos : count ≠ 0 := by
    intro hzero
    rcases hfresh.owns.place _ mem_cons_self with ⟨page, hat, _⟩
    have hat : 0 < count := hat.pos
    omega
  unfold afterRequest
  rw [if_neg hne, hserved]
  constructor
  · exact hfresh.formed
  · rw [hfresh.memStart]
    exact hkept.aligned
  · exact hfresh.owns
  · exact hkept.cache
  · exact hkept.empty
  · intro k b hb
    have hhoused := hkept.slab k b hb
    have hba := hfresh.block b 1 hhoused.block
    rcases hhoused.ok with ⟨free, hok⟩
    refine ⟨hhoused.small, mem_cons_of_mem _ hhoused.block,
      ⟨free, { hok with objects := ?_ }⟩, hhoused.shape⟩
    show (free ++ liveIn (a :: addrs h.live) b).Perm _
    rw [liveIn_cons_of_ne hpage hba]
    exact hok.objects
  · exact hkept.inj
  · intro b hb
    rcases mem_cons.mp hb with rfl | hb
    · refine Or.inr ⟨hsize, count, mem_cons_self, ?_⟩
      show size <= count * pageSize
      omega
    · rcases hkept.held b hb with hsmall | ⟨hlarge, n, hn, hle⟩
      · exact Or.inl hsmall
      · exact Or.inr ⟨hlarge, n, mem_cons_of_mem _ hn, hle⟩
  · exact nodup_cons.mpr ⟨hin, hkept.nodup⟩
  · exact hkept.produced

end

theorem addrs_eraseP (live : List Allocation) (addr : Nat) :
    addrs (live.eraseP fun b => b.addr = addr) = (addrs live).erase addr := by
  induction live with
  | nil => rfl
  | cons b live ih =>
    unfold addrs at ih ⊢
    by_cases hb : b.addr = addr
    · rw [eraseP_cons_of_pos (by simpa using hb), map_cons, hb, erase_cons_head]
    · rw [eraseP_cons_of_neg (by simpa using hb), map_cons,
        map_cons, ih, erase_cons_tail (by simpa using hb)]

theorem Kept.owner (hkept : Kept h slabOf blocks) (hb : b ∈ h.live)
    (hclass : classOf b.size = some k) :
    b.size <= 4072 ∧ slabOf k = some (pageOf b.addr) := by
  rcases hkept.held b hb with ⟨j, hj, hsize, hslab⟩ | ⟨hlarge, _⟩
  · rw [hclass] at hj
    cases hj
    exact ⟨hsize, hslab⟩
  · rw [classOf_large hlarge] at hclass
    cases hclass

/-- The links after an object of the first cache or of a used slab is freed. -/
theorem relinkSlab_first {free num : Nat} {p : Place} (hs : Standard s)
    (hk : k < 8) (hnum : (s.cache k).num = num) (hshape : Shape L k a p)
    (hfits : Fits p free num) (hlt : free < num) (hcond : k = 0 ∨ free ≠ 0) :
    exists L' p', relinkSlab L 0 a (free + 1) (s.cache 0).num = some L' ∧
      Shape L' k a p' ∧ Fits p' (free + 1) num ∧ Elsewhere L L' k a := by
  have hnum0 := hs.first
  unfold relinkSlab
  rw [hnum0]
  by_cases hfirst : k = 0
  · have hnum' : num = 127 := by
      rw [← hnum, hfirst]
      exact hnum0
    cases p with
    | full =>
      have hfree : free = 0 := hfits
      rcases hshape.unfill with ⟨L', hmove, hused, helse⟩
      rw [hfirst] at hmove
      refine ⟨L', .used, ?_, hused, Nat.succ_pos _, helse⟩
      rw [hfree, if_pos rfl, hmove, Option.bind_some, if_neg (by decide)]
    | used =>
      have hfree : 0 < free := hfits
      rw [if_neg (by omega), Option.bind_some]
      by_cases hall : free + 1 = 127
      · rcases hshape.clear with ⟨L', hmove, hidle, helse⟩
        rw [hfirst] at hmove
        refine ⟨L', .idle, ?_, hidle, ?_, helse⟩
        · rw [if_pos hall, hmove]
        · exact hall.trans hnum'.symm
      · exact ⟨L, .used, if_neg hall, hshape, Nat.succ_pos _, fun _ _ _ => rfl⟩
    | idle =>
      have hfree : free = num := hfits
      omega
  · -- the first cache holds more objects than any other slab has
    rcases hs.exists_small hk with ⟨_, hsmall⟩
    have hmany := hsmall.few (Nat.pos_of_ne_zero hfirst)
    have hfree := hcond.resolve_left hfirst
    rw [if_neg (by omega), Option.bind_some, if_neg (by omega)]
    refine ⟨L, .used, rfl, ?_, Nat.succ_pos _, fun _ _ _ => rfl⟩
    cases p with
    | used => exact hshape
    | full => exact absurd hfits hfree
    | idle =>
      have hall : free = num := hfits
      omega

theorem Kept.free (hkept : Kept h slabOf blocks) (hb : b ∈ h.live)
    (hclass : classOf b.size = some k)
    (hcond : k = 0 ∨ (h.state.slab (pageOf b.addr)).free ≠ 0) :
    exists s, Slab.kfree h.state b.addr = some s ∧
      (s.slab (pageOf b.addr)).freelist = some b.addr ∧
      Kept { h with
        state := s
        live := h.live.eraseP fun c => c.addr = b.addr } slabOf blocks := by
  have ha := (hkept.owner hb hclass).right
  generalize hpage : pageOf b.addr = a at ha hcond ⊢
  have hhoused := hkept.slab k a ha
  have hcache := hkept.cache.cacheOk hhoused.small
  have hmem : b.addr ∈ addrs h.live := mem_map.mpr ⟨b, hb, rfl⟩
  rcases hhoused.ok with ⟨free, hok⟩
  rcases hhoused.shape with ⟨p, hshape, hfits⟩
  rcases hok.give hcache hmem hpage with ⟨hne, hnew, hlt, hfree⟩
  have hslab : (afterGive h.state a b.addr).slab a =
      (h.state.slab a).give b.addr := update_self ..
  have hfree' : ((afterGive h.state a b.addr).slab a).free =
      (h.state.slab a).free + 1 := by
    rw [hslab]
    exact hfree
  rcases relinkSlab_first hkept.cache hhoused.small rfl hshape hfits hlt hcond
    with ⟨L, p', hrelink, hshape', hfits', helse⟩
  refine ⟨{ afterGive h.state a b.addr with links := L }, ?_, ?_, ?_⟩
  · unfold Slab.kfree
    rw [if_neg hne, slabCacheFree_eq hne hpage, hfree', hrelink]
    rfl
  · rw [hslab]
    rfl
  refine hkept.change ha rfl rfl ?_ ?_ helse ?_ ?_ ?_ ?_ hkept.produced
  · exact fun c hc => update_of_ne hc ..
  · exact fun o ho => afterGive_next fun heq => ho (heq ▸ hpage)
  · refine ⟨hhoused.small, hhoused.block, ⟨b.addr :: free, ?_⟩, p', hshape', ?_⟩
    · rw [addrs_eraseP]
      exact { hnew with }
    · rw [hfree']
      exact hfits'
  · intro c hc
    show (liveIn (addrs (h.live.eraseP fun c => c.addr = b.addr)) c).Perm _
    rw [addrs_eraseP]
    rw [← hpage] at hc
    exact liveIn_erase_of_ne hmem hc
  · exact fun c hc => hkept.held c (mem_of_mem_eraseP hc)
  · rw [addrs_eraseP]
    exact hkept.nodup.erase _

theorem Kept.write (hkept : Kept h slabOf blocks) (hlive : addr ∈ addrs h.live)
    (v : Option Nat) :
    Kept { h with state := h.state.setNext addr v } slabOf blocks := by
  refine { hkept with slab := ?_ }
  intro k a ha
  have hhoused := hkept.slab k a ha
  rcases hhoused.ok with ⟨free, hok⟩
  exact ⟨hhoused.small, hhoused.block, ⟨free, hok.setNext
    (hkept.cache.cacheOk hhoused.small) hlive v⟩, hhoused.shape⟩

theorem Kept.step {call : Call} (hkept : Kept h slabOf blocks)
    (hok : StepOk h call) (hstep : step h call = some h') :
    exists slabOf' blocks', Kept h' slabOf' blocks' := by
  cases call with
  | kmalloc size zero =>
    have hrequest : exists addr s, Slab.kmalloc h.state size zero =
        some (addr, s) ∧ h' = afterRequest h s addr size := by
      rcases Option.bind_eq_some_iff.mp hstep with ⟨⟨addr, s⟩, hres, hstep⟩
      refine ⟨addr, s, hres, ?_⟩
      unfold afterRequest
      apply Option.some.inj
      rw [← hstep, apply_ite some]
      rfl
    rcases hrequest with ⟨addr, s, hres, rfl⟩
    unfold Slab.kmalloc at hres
    by_cases hzero : size = 0
    · rw [if_pos hzero] at hres
      cases hres
      exact ⟨slabOf, blocks, hkept⟩
    rw [if_neg hzero] at hres
    rcases hok with ⟨hlt, ⟨hsmall, _⟩ | hlarge⟩
    · rcases classOf_small hsmall with ⟨k, _, hclass, hk, _, _⟩
      rw [show kmallocSizes.findIdx? (fun bound => size <= bound) = some k
        from hclass] at hres
      exact hkept.alloc hk hclass hsmall hres
    · rw [show kmallocSizes.findIdx? (fun bound => size <= bound) = none
        from classOf_large hlarge] at hres
      cases hres
      have hpages : (size + (pageSize - 1)) % 2 ^ 32 / pageSize = 0 ∨
          size <= (size + (pageSize - 1)) % 2 ^ 32 / pageSize * pageSize := by
        unfold pageSize
        omega
      rcases hkept.pages hlarge hpages with ⟨blocks', hkept'⟩
      exact ⟨slabOf, blocks', hkept'⟩
  | kfree addr =>
    rcases hok with ⟨b, hb, rfl, k, hclass, hcond⟩
    rcases hkept.free hb hclass hcond with ⟨s, hfree, _, hkept'⟩
    rcases Option.bind_eq_some_iff.mp hstep with ⟨s', hfree', hstep⟩
    rw [hfree] at hfree'
    cases hfree'
    cases hstep
    exact ⟨slabOf, blocks, hkept'⟩
  | write addr v =>
    rcases hok with ⟨b, hb, rfl⟩
    cases hstep
    exact ⟨slabOf, blocks, hkept.write (mem_map.mpr ⟨b, hb, rfl⟩) v⟩

/-!
## The caches after `slab_init`
-/

structure Made (s : State) (i : Nat) : Prop where
  formed : Formed s.mm
  aligned : s.mm.memStart % pageSize = 0
  owns : exists blocks, Owns s.mm blocks
  cache : forall j bound, j < i -> kmallocSizes[j]? = some bound ->
    exists x y, s.cache j = newCache bound 0 none x y
  empty : forall j, j < i -> forall kind, Ring s.links (Node.head j kind) []

theorem ring_nil_listInit {head n : Node} (h : Ring L n [] ∨ n = head) :
    Ring (listInit L head) n [] := by
  by_cases hn : n = head
  · rw [hn]
    exact ring_listInit L head
  · rcases h with hring | heq
    · apply hring.congr
      intro m hm
      rw [mem_singleton.mp hm]
      exact listInit_frame hn
    · exact absurd heq hn

theorem Made.create (h : Made s i) (hsize : kmallocSizes[i]? = some size)
    (hcreate : slabCacheCreate s i size 0 none = (true, s')) :
    Made s' (i + 1) := by
  unfold slabCacheCreate at hcreate
  by_cases hzero : size = 0
  · rw [if_pos hzero] at hcreate
    cases hcreate
  rw [if_neg hzero] at hcreate
  rcases mmAllocPages_cases h.formed 1 with ⟨hres, _⟩ | ⟨page, hres, hat, hrun, _⟩
  · rw [hres] at hcreate
    cases hcreate
  rcases h.owns with ⟨blocks, howns⟩
  have hnull := (hat.pageAddress h.formed).right.left
  simp only [hres] at hcreate
  rw [if_neg hnull] at hcreate
  cases hcreate
  refine ⟨taken_formed h.formed hat hrun, h.aligned, ⟨_, howns.taken hat hrun⟩,
    ?_, ?_⟩
  · intro j bound hj hbound
    by_cases hji : j = i
    · rw [hji, hsize] at hbound
      cases hbound
      rw [hji]
      exact ⟨_, _, update_self ..⟩
    · rcases h.cache j bound (by omega) hbound with ⟨x, y, hcache⟩
      refine ⟨x, y, ?_⟩
      rw [← hcache]
      exact update_of_ne hji ..
  · intro j hj kind
    by_cases hji : j = i
    · rw [hji]
      cases kind with
      | slabsFull =>
        exact ring_nil_listInit (Or.inl (ring_nil_listInit (Or.inl
          (ring_nil_listInit (Or.inr rfl)))))
      | slabsPartial =>
        exact ring_nil_listInit (Or.inl (ring_nil_listInit (Or.inr rfl)))
      | slabsFree => exact ring_nil_listInit (Or.inr rfl)
    · have hring := h.empty j (by omega) kind
      exact ring_nil_listInit (Or.inl (ring_nil_listInit (Or.inl
        (ring_nil_listInit (Or.inl hring)))))

/--
Live allocations do not overlap, and no slab on a list of a cache has an object
on its freelist that came from another cache.
-/
structure Owned (h : History) : Prop where
  apart : h.live.Pairwise Allocation.Apart
  inside : forall b, b ∈ h.live -> h.state.mm.memStart <= b.addr ∧
    b.addr + b.size <= h.state.mm.memStart + h.state.mm.totalPages * pageSize
  freelist : forall k i a, k < 13 ->
    Linked h.state.links (Node.head k i) (Node.slab a) ->
    exists free, Chain h.state.next (h.state.slab a).freelist free ∧
      forall obj j, obj ∈ free -> (obj, j) ∈ h.produced -> j = k

/-- An object is the first free one of a slab that is on lists of one cache. -/
structure Returned (h : History) (k addr : Nat) : Prop where
  freelist : (h.state.slab (pageOf addr)).freelist = some addr
  linked : exists i,
    Linked h.state.links (Node.head k i) (Node.slab (pageOf addr))
  only : forall j i, j < 13 ->
    Linked h.state.links (Node.head j i) (Node.slab (pageOf addr)) -> j = k

section

variable (hkept : Kept h slabOf blocks)
include hkept

theorem Kept.linked {i : Kind} (hk : k < 13)
    (hlinked : Linked h.state.links (.head k i) (.slab a)) :
    slabOf k = some a := by
  cases hslab : slabOf k with
  | none =>
    have hmem := (hkept.empty k hk hslab i).linked_iff.mp hlinked
    cases hmem
  | some b =>
    rcases (hkept.slab k b hslab).shape with ⟨p, hshape, _⟩
    rcases hshape.linked hlinked with heq | ⟨j, heq⟩
    · rw [Node.slab.inj heq]
    · cases heq

theorem Kept.object (hb : b ∈ h.live) (hclass : classOf b.size = some k)
    (ha : slabOf k = some a)
    (hpage : pageOf b.addr = a) :
    b.size <= (h.state.cache k).size ∧
      exists i, b.addr = objectAt a (h.state.cache k).size i ∧
        b.addr + b.size <= a + pageSize := by
  have hhoused := hkept.slab k a ha
  have hsmall := (hkept.owner hb hclass).left
  rcases classOf_small hsmall with ⟨j, bound, hj, hj8, hbound, hle⟩
  rw [hclass] at hj
  cases hj
  have hcache := hkept.cache.small hj8 hbound
  have hsize := hcache.size
  have hlast := hcache.last
  rcases hhoused.ok with ⟨free, hok⟩
  have hin := mem_liveIn.mpr ⟨mem_map.mpr ⟨b, hb, rfl⟩, hpage⟩
  have hmem := hok.objects.mem_iff.mp (mem_append_right free hin)
  rcases mem_map.mp hmem with ⟨i, hi, hobj⟩
  have hmul : i * (h.state.cache k).size <=
      ((h.state.cache k).num - 1) * (h.state.cache k).size :=
    Nat.mul_le_mul_right _ (Nat.le_sub_one_of_lt (mem_range.mp hi))
  refine ⟨by rw [hsize]; exact hle, i, hobj.symm, ?_⟩
  rw [← hobj]
  unfold objectAt
  omega

theorem Kept.extent (hb : b ∈ h.live) :
    exists c, c ∈ blocks ∧ c.addr <= b.addr ∧
      b.addr + b.size <= c.addr + c.count * pageSize ∧
      ((exists k, classOf b.size = some k ∧ slabOf k = some c.addr ∧
        pageOf b.addr = c.addr ∧ c.count = 1) ∨
        c.addr = b.addr ∧ c.count ≠ 1) := by
  rcases hkept.held b hb with ⟨k, hclass, _, ha⟩ | ⟨hlarge, n, hn, hle⟩
  · rcases hkept.object hb hclass ha rfl with ⟨hsize, i, haddr, hend⟩
    refine ⟨Block.mk (pageOf b.addr) 1, (hkept.slab k _ ha).block, ?_, ?_,
      Or.inl ⟨k, hclass, ha, rfl, rfl⟩⟩
    · exact Nat.div_mul_le_self ..
    · show b.addr + b.size <= pageOf b.addr + 1 * pageSize
      omega
  · refine ⟨Block.mk b.addr n, hn, Nat.le_refl _, ?_, Or.inr ⟨rfl, ?_⟩⟩
    · exact Nat.add_le_add_left hle _
    · intro hone
      have hn : n = 1 := hone
      unfold pageSize at hle
      omega

theorem Kept.apart {c : Allocation} (hb : b ∈ h.live) (hc : c ∈ h.live)
    (hne : b.addr ≠ c.addr) :
    b.Apart c := by
  rcases hkept.extent hb with ⟨x, hx, hxlow, hxhigh, hxkind⟩
  rcases hkept.extent hc with ⟨y, hy, hylow, hyhigh, hykind⟩
  unfold Allocation.Apart
  by_cases hxy : x = y
  · subst hxy
    rcases hxkind with ⟨k, hk, hslab, hpage, hone⟩ | ⟨hxaddr, hmany⟩
    · rcases hykind with ⟨j, hj, hslab', hpage', _⟩ | ⟨_, hmany⟩
      · -- two objects of one slab
        have hjk := hkept.inj j k _ hslab' hslab
        subst hjk
        rcases hkept.object hb hk hslab hpage with ⟨hsize, i, hi, _⟩
        rcases hkept.object hc hj hslab' hpage' with ⟨hsize', l, hl, _⟩
        have hil : i ≠ l := fun heq => hne (by rw [hi, hl, heq])
        rw [hi, hl]
        unfold objectAt
        rcases Nat.lt_or_gt_of_ne hil with hlt | hlt
        all_goals
          have hmul := Nat.mul_le_mul_right (h.state.cache j).size hlt
          rw [Nat.succ_mul] at hmul
          omega
      · exact absurd hone hmany
    · rcases hykind with ⟨_, _, _, _, hone⟩ | ⟨hyaddr, _⟩
      · exact absurd hone hmany
      · exact absurd (hxaddr.symm.trans hyaddr) hne
  · rcases hkept.owns.apart_of_ne hx hy hxy with hle | hle
    · exact Or.inl (by omega)
    · exact Or.inr (by omega)

theorem Kept.owned : Owned h := by
  refine ⟨?_, ?_, ?_⟩
  · have hnodup : h.live.Pairwise fun b c => b.addr ≠ c.addr :=
      pairwise_map.mp hkept.nodup
    exact hnodup.imp_of_mem fun hb hc hne => hkept.apart hb hc hne
  · intro b hb
    rcases hkept.extent hb with ⟨c, hc, hlow, hhigh, _⟩
    rcases hkept.owns.place c hc with ⟨page, hat, _⟩
    have haddr := hat.addr
    have hbelow := hat.below
    unfold pageSize at haddr hhigh ⊢
    omega
  · intro k i a hk hlinked
    have ha := hkept.linked hk hlinked
    have hhoused := hkept.slab k a ha
    rcases hhoused.ok with ⟨free, hok⟩
    refine ⟨free, hok.chain, ?_⟩
    intro obj j hobj hproduced
    have hj := hkept.produced obj j hproduced
    have hpage := (hok.mem_page (hkept.cache.cacheOk hhoused.small) hobj).left
    rw [hpage] at hj
    exact hkept.inj j k a hj ha

end

def booted : State where
  cache := fun _ => newCache 4 0 none 0 0
  links := emptyLists
  slab := fun _ => { start := 0, inuse := 0, free := 0, freelist := none }
  next := fun _ => none
  mm := mmInit 0x100000 0x160000 Bytes.zeros

def run : List Call -> History -> Option History
  | [], h => some h
  | call :: calls, h => (step h call).bind (run calls)

end Kmalloc
end Slab
end Horizon
