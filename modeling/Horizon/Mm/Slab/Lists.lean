import Horizon.Mm.Slab.Model
import Mathlib.Data.List.Nodup

/-!
# The lists of a slab cache

A slab of a consistent cache is on exactly one list, the one for the number of
its free objects, and its free objects are those that are not live.  Allocating,
freeing and shrinking keep a cache consistent, as long as it never has to grow:
a new slab stays on the list of free slabs when it is put on the list of partial
ones.
-/

namespace Horizon
namespace Slab

open Function List LinkedList
open Memory

/-!
## Moving slabs between lists
-/

def moved (xs : Kind -> List Node) (i j : Kind) (n : Node) :
    Kind -> List Node :=
  let rest := update xs i ((xs i).erase n)
  update rest j (n :: rest j)

variable {L : Links Node} {a b k obj : Nat} {xs : Kind -> List Node}
    {i l : Kind} {m n : Node} {c : Cache} {s s' : State} {live live' : List Nat}

theorem mem_moved (h : Rings L (.head k) xs) {j : Kind} (hn : n ∈ xs i) :
    m ∈ moved xs i j n l <-> m = n ∧ l = j ∨ m ≠ n ∧ m ∈ xs l := by
  unfold moved
  rw [mem_push, h.mem_erase hn]

theorem rings_moveSlab (h : Rings L (.head k) xs) (ha : .slab a ∈ xs i)
    (j : Kind) : exists L', moveSlab L a (.head k j) = some L' ∧
      Rings L' (.head k) (moved xs i j (.slab a)) := by
  rcases h.listDel ha with ⟨L1, hdel, hrings⟩
  have hfresh : forall l, .slab a ∉
      update xs i ((xs i).erase (.slab a)) l := by
    intro l hmem
    exact ((h.mem_erase ha).mp hmem).left rfl
  have hhead : forall l, .slab a ≠ Node.head k l := by
    intro l heq
    cases heq
  rcases hrings.listAdd (i := j) hhead hfresh with ⟨L2, hadd, hrings'⟩
  refine ⟨L2, ?_, hrings'⟩
  unfold moveSlab
  rw [hdel]
  exact hadd

def slabCount (xs : Kind -> List Node) : Nat :=
  (xs Kind.slabsFull).length + (xs Kind.slabsPartial).length +
    (xs Kind.slabsFree).length

/-- Replacing one of the lists changes the count by the difference in length. -/
theorem slabCount_update (xs : Kind -> List Node) (i : Kind) (ys : List Node) :
    slabCount (update xs i ys) + (xs i).length = slabCount xs + ys.length := by
  unfold slabCount
  cases i
  all_goals
    rw [update_self, update_of_ne (by decide), update_of_ne (by decide)]
    omega

theorem slabCount_erase (hn : n ∈ xs i) :
    slabCount (update xs i ((xs i).erase n)) + 1 = slabCount xs := by
  have hcount := slabCount_update xs i ((xs i).erase n)
  have hlength := length_erase_of_mem hn
  have hpos := length_pos_of_mem hn
  omega

theorem slabCount_cons (xs : Kind -> List Node) (j : Kind) (n : Node) :
    slabCount (update xs j (n :: xs j)) = slabCount xs + 1 := by
  have hcount := slabCount_update xs j (n :: xs j)
  rw [length_cons] at hcount
  omega

theorem slabCount_moved (hn : n ∈ xs i) (j : Kind) :
    slabCount (moved xs i j n) = slabCount xs := by
  unfold moved
  rw [slabCount_cons]
  exact slabCount_erase hn

/-!
## Objects
-/

/-- Every object of a slab starts in its page. -/
structure CacheOk (c : Cache) : Prop where
  num : 0 < c.num
  size : 4 <= c.size
  starts : slabHeader + (c.num - 1) * c.size + 4 <= pageSize

/-- The objects of a slab fill its page at most. -/
def Cache.Fits (c : Cache) : Prop := slabHeader + c.num * c.size <= pageSize

def objects (c : Cache) (a : Nat) : List Nat :=
  (List.range c.num).map fun i => objectAt a c.size i

theorem objectAt_inj {size i j : Nat} (hsize : 0 < size)
    (h : objectAt a size i = objectAt a size j) : i = j := by
  have heq : i * size = j * size := by
    unfold objectAt at h
    omega
  exact Nat.eq_of_mul_eq_mul_right hsize heq

theorem nodup_objects (h : CacheOk c) (a : Nat) : (objects c a).Nodup := by
  have hsize := h.size
  exact List.Nodup.map (fun _ _ => objectAt_inj (by omega)) nodup_range

theorem length_objects (c : Cache) (a : Nat) :
    (objects c a).length = c.num := by
  unfold objects
  rw [length_map, length_range]

theorem pageOf_of_aligned (h : a % pageSize = 0) : pageOf a = a :=
  Nat.div_mul_cancel (Nat.dvd_of_mod_eq_zero h)

theorem pageOf_object (h : CacheOk c) (ha : a % pageSize = 0)
    (hobj : obj ∈ objects c a) : pageOf obj = a ∧ obj ≠ 0 := by
  rcases mem_map.mp hobj with ⟨i, hi, rfl⟩
  have hlt := mem_range.mp hi
  have hstarts := h.starts
  have hmul : i * c.size <= (c.num - 1) * c.size :=
    Nat.mul_le_mul_right _ (Nat.le_sub_one_of_lt hlt)
  unfold pageOf objectAt
  unfold slabHeader pageSize at *
  omega

def liveIn (live : List Nat) (a : Nat) : List Nat :=
  live.filter fun obj => pageOf obj = a

theorem mem_liveIn {obj a : Nat} {live : List Nat} :
    obj ∈ liveIn live a <-> obj ∈ live ∧ pageOf obj = a := by
  unfold liveIn
  rw [mem_filter, decide_eq_true_eq]

/-- The free objects of a slab and its live ones are all its objects. -/
structure SlabOk (s : State) (k : Nat) (live : List Nat) (a : Nat)
    (free : List Nat) : Prop where
  aligned : a % pageSize = 0
  chain : Chain s.next (s.slab a).freelist free
  length : free.length = (s.slab a).free
  objects : (free ++ liveIn live a).Perm (objects (s.cache k) a)
  counted : (s.slab a).inuse + (s.slab a).free = (s.cache k).num

def Matches : Kind -> Nat -> Nat -> Prop
  | Kind.slabsFull, free, _ => free = 0
  | Kind.slabsPartial, free, num => 0 < free ∧ free < num
  | Kind.slabsFree, free, num => free = num

/--
The slabs of a cache, but for the list that one of them is on: each is on one of
the three lists and its objects are accounted for, every live object belongs to
one of them, and the counters count them.
-/
structure Filed (k : Nat) (s : State) (live : List Nat)
    (xs : Kind -> List Node) : Prop where
  cache : CacheOk (s.cache k)
  rings : Rings s.links (Node.head k) xs
  slabs : forall i n, n ∈ xs i -> exists a, n = Node.slab a
  slab : forall i a, Node.slab a ∈ xs i -> exists free, SlabOk s k live a free
  housed : forall obj, obj ∈ live -> exists i, Node.slab (pageOf obj) ∈ xs i
  totalSlabs : (s.cache k).totalSlabs = slabCount xs
  totalObjects : (s.cache k).totalObjects = slabCount xs * (s.cache k).num
  small : slabCount xs * (s.cache k).num < 2 ^ 32

/-- The cache is consistent: each slab is on the list for it. -/
structure Consistent (k : Nat) (s : State) (live : List Nat)
    (xs : Kind -> List Node) : Prop extends Filed k s live xs where
  kind : forall i a, Node.slab a ∈ xs i ->
    Matches i (s.slab a).free (s.cache k).num

theorem CacheOk.small (h : CacheOk c) : c.num < 2 ^ 32 := by
  have hstarts := h.starts
  have hle : (c.num - 1) * 4 <= (c.num - 1) * c.size :=
    Nat.mul_le_mul_left _ h.size
  unfold slabHeader pageSize at hstarts
  omega

section

variable {free : List Nat} (h : SlabOk s k live a free)
include h

theorem SlabOk.length_liveIn : (liveIn live a).length = (s.slab a).inuse := by
  have hlength := h.objects.length_eq
  rw [length_append, length_objects, h.length] at hlength
  have hcounted := h.counted
  omega

variable (hcache : CacheOk (s.cache k))
include hcache

theorem SlabOk.mem_page (hobj : obj ∈ free) : pageOf obj = a ∧ obj ≠ 0 :=
  pageOf_object hcache h.aligned
    (h.objects.mem_iff.mp (mem_append_left _ hobj))

theorem SlabOk.nodup : (free ++ liveIn live a).Nodup :=
  h.objects.nodup_iff.mpr (nodup_objects hcache a)

theorem SlabOk.not_mem (hobj : obj ∈ free) : obj ∉ live := by
  intro hlive
  have hdisjoint := (nodup_append.mp (h.nodup hcache)).2.2
  have hin := mem_liveIn.mpr ⟨hlive, (h.mem_page hcache hobj).left⟩
  exact hdisjoint obj hobj obj hin rfl

theorem SlabOk.setNext (hobj : obj ∈ live) (v : Option Nat) :
    SlabOk (s.setNext obj v) k live a free :=
  { h with chain := h.chain.update fun hmem => h.not_mem hcache hmem hobj }

end

theorem Filed.relink {xs' : Kind -> List Node} {mm : Memory.State}
    (h : Filed k s live xs) (hrings : Rings L (.head k) xs')
    (hmem : forall n, (exists i, n ∈ xs' i) <-> exists i, n ∈ xs i)
    (hcount : slabCount xs' = slabCount xs) :
    Filed k { s with links := L, mm := mm } live xs' where
  cache := h.cache
  rings := hrings
  slabs := by
    intro i n hn
    rcases (hmem n).mp ⟨i, hn⟩ with ⟨l, hl⟩
    exact h.slabs l n hl
  slab := by
    intro i a ha
    rcases (hmem _).mp ⟨i, ha⟩ with ⟨l, hl⟩
    rcases h.slab l a hl with ⟨free, hok⟩
    exact ⟨free, { hok with }⟩
  housed := by
    intro obj hobj
    exact (hmem _).mpr (h.housed obj hobj)
  totalSlabs := by
    rw [hcount]
    exact h.totalSlabs
  totalObjects := by
    rw [hcount]
    exact h.totalObjects
  small := by
    rw [hcount]
    exact h.small

def KindBut (k : Nat) (s : State) (xs : Kind -> List Node) (a : Nat) : Prop :=
  forall i b, Node.slab b ∈ xs i -> b ≠ a ->
    Matches i (s.slab b).free (s.cache k).num

theorem Filed.move (h : Filed k s live xs) (ha : .slab a ∈ xs i)
    (hkind : KindBut k s xs a) (j : Kind) :
    exists L xs', moveSlab s.links a (.head k j) = some L ∧
      Filed k { s with links := L } live xs' ∧ .slab a ∈ xs' j ∧
      KindBut k s xs' a := by
  have hself : .slab a ∈ moved xs i j (.slab a) j :=
    (mem_moved h.rings ha).mpr (Or.inl ⟨rfl, rfl⟩)
  rcases rings_moveSlab h.rings ha j with ⟨L, hmove, hrings⟩
  refine ⟨L, _, hmove, h.relink hrings (fun n => ⟨?_, ?_⟩)
    (slabCount_moved ha j), hself, fun l b hb hba => ?_⟩
  · rintro ⟨l, hl⟩
    rcases (mem_moved h.rings ha).mp hl with ⟨rfl, _⟩ | ⟨_, hn⟩
    · exact ⟨i, ha⟩
    · exact ⟨l, hn⟩
  · rintro ⟨l, hl⟩
    by_cases hn : n = .slab a
    · exact ⟨j, hn ▸ hself⟩
    · exact ⟨l, (mem_moved h.rings ha).mpr (Or.inr ⟨hn, hl⟩)⟩
  · rcases (mem_moved h.rings ha).mp hb with ⟨heq, _⟩ | ⟨_, hb⟩
    · exact absurd (Node.slab.inj heq) hba
    · exact hkind l b hb hba

/-- The last slab is on the list for it, too. -/
theorem Filed.consistent (h : Filed k s live xs) (hbut : KindBut k s xs a)
    (ha : .slab a ∈ xs i) (hkind : Matches i (s.slab a).free (s.cache k).num) :
    Consistent k s live xs := by
  refine ⟨h, fun j b hb => ?_⟩
  by_cases hba : b = a
  · rw [hba] at hb ⊢
    cases h.rings.disjoint i j _ ha hb
    exact hkind
  · exact hbut j b hb hba

/-!
## Taking and returning an object
-/

theorem SlabOk.other {free : List Nat} (h : SlabOk s k live b free)
    (hcache : CacheOk (s.cache k)) (hne : b ≠ a)
    (hsame : s'.cache k = s.cache k) (hslab : s'.slab b = s.slab b)
    (hnext : forall obj, pageOf obj ≠ a -> s'.next obj = s.next obj)
    (hlive : (liveIn live' b).Perm (liveIn live b)) :
    SlabOk s' k live' b free where
  aligned := h.aligned
  chain := by
    rw [hslab]
    apply h.chain.congr
    intro obj hobj
    apply hnext
    rw [(h.mem_page hcache hobj).left]
    exact hne
  length := by
    rw [hslab]
    exact h.length
  objects := by
    rw [hsame]
    exact (hlive.append_left free).trans h.objects
  counted := by
    rw [hsame, hslab]
    exact h.counted

theorem Filed.change {free' : List Nat} (h : Filed k s live xs)
    (hcache : s'.cache k = s.cache k) (hlinks : s'.links = s.links)
    (hslab : forall b, b ≠ a -> s'.slab b = s.slab b)
    (hnext : forall obj, pageOf obj ≠ a -> s'.next obj = s.next obj)
    (hlive : forall b, b ≠ a -> (liveIn live' b).Perm (liveIn live b))
    (hok : SlabOk s' k live' a free') (hhoused : forall obj, obj ∈ live' ->
      exists i, .slab (pageOf obj) ∈ xs i) : Filed k s' live' xs where
  cache := by
    rw [hcache]
    exact h.cache
  rings := by
    rw [hlinks]
    exact h.rings
  slabs := h.slabs
  slab := by
    intro i b hb
    by_cases hne : b = a
    · rw [hne]
      exact ⟨free', hok⟩
    · rcases h.slab i b hb with ⟨free, hb⟩
      exact ⟨free, hb.other h.cache hne hcache (hslab b hne) hnext
        (hlive b hne)⟩
  housed := hhoused
  totalSlabs := by
    rw [hcache]
    exact h.totalSlabs
  totalObjects := by
    rw [hcache]
    exact h.totalObjects
  small := by
    rw [hcache]
    exact h.small

theorem liveIn_cons_self (h : pageOf obj = a) :
    liveIn (obj :: live) a = obj :: liveIn live a :=
  filter_cons_of_pos (by simp [h])

theorem liveIn_cons_of_ne (h : pageOf obj = a) (hne : b ≠ a) :
    liveIn (obj :: live) b = liveIn live b :=
  filter_cons_of_neg (by simp [h, Ne.symm hne])

theorem sub32_one {n : Nat} (hpos : 0 < n) (hlt : n < 2 ^ 32) :
    sub32 n 1 = n - 1 := by
  unfold sub32
  omega

theorem add32_one {n : Nat} (hlt : n + 1 < 2 ^ 32) : add32 n 1 = n + 1 :=
  Nat.mod_eq_of_lt hlt

def SlabData.take (d : SlabData) (rest : Option Nat) : SlabData :=
  { d with
    freelist := rest
    inuse := add32 d.inuse 1
    free := sub32 d.free 1 }

def afterTake (s : State) (a obj : Nat) (zero : Bool) : State :=
  let s' := s.setSlab a ((s.slab a).take (s.next obj))
  if zero then s'.setNext obj none else s'

section AfterTake

variable (s : State) (a obj : Nat) (zero : Bool)

theorem afterTake_slab : (afterTake s a obj zero).slab =
    update s.slab a ((s.slab a).take (s.next obj)) := by
  cases zero <;> rfl

theorem afterTake_cache : (afterTake s a obj zero).cache = s.cache := by
  cases zero <;> rfl

theorem afterTake_links : (afterTake s a obj zero).links = s.links := by
  cases zero <;> rfl

theorem afterTake_next {o : Nat} (h : o ≠ obj) :
    (afterTake s a obj zero).next o = s.next o := by
  cases zero with
  | false => rfl
  | true => exact update_of_ne h ..

end AfterTake

theorem SlabOk.take {rest : List Nat} (h : SlabOk s k live a (obj :: rest))
    (hcache : CacheOk (s.cache k)) (zero : Bool) :
    SlabOk (afterTake s a obj zero) k (obj :: live) a rest ∧
      sub32 (s.slab a).free 1 = (s.slab a).free - 1 := by
  have hpage := (h.mem_page hcache mem_cons_self).left
  have hlength := h.length
  rw [length_cons] at hlength
  have hsmall := hcache.small
  have hcounted := h.counted
  have hfree : sub32 (s.slab a).free 1 = (s.slab a).free - 1 :=
    sub32_one (by omega) (by omega)
  have hinuse : add32 (s.slab a).inuse 1 = (s.slab a).inuse + 1 :=
    add32_one (by omega)
  have hnodup := h.nodup hcache
  have hfresh : obj ∉ rest := by
    intro hmem
    rw [cons_append, nodup_cons] at hnodup
    exact hnodup.left (mem_append_left _ hmem)
  refine ⟨⟨h.aligned, ?_, ?_, ?_, ?_⟩, hfree⟩
  · rw [afterTake_slab, update_self]
    apply h.chain.right.congr
    intro o ho
    exact afterTake_next s a obj zero fun heq => hfresh (heq ▸ ho)
  · rw [afterTake_slab, update_self]
    show rest.length = sub32 (s.slab a).free 1
    omega
  · rw [afterTake_cache, liveIn_cons_self hpage]
    exact perm_middle.trans h.objects
  · rw [afterTake_slab, update_self, afterTake_cache]
    show add32 (s.slab a).inuse 1 + sub32 (s.slab a).free 1 = _
    omega

theorem Filed.take (h : Filed k s live xs) (ha : .slab a ∈ xs i)
    (hpos : 0 < (s.slab a).free) (zero : Bool) :
    exists obj, (s.slab a).freelist = some obj ∧ obj ≠ 0 ∧
      Filed k (afterTake s a obj zero) (obj :: live) xs ∧
      sub32 (s.slab a).free 1 = (s.slab a).free - 1 := by
  rcases h.slab i a ha with ⟨free, hok⟩
  have hlength := hok.length
  cases free with
  | nil =>
    rw [length_nil] at hlength
    omega
  | cons obj rest =>
    rcases hok.mem_page h.cache mem_cons_self with ⟨hpage, hne⟩
    rcases hok.take h.cache zero with ⟨hnew, hfree⟩
    refine ⟨obj, hok.chain.left, hne, ?_, hfree⟩
    refine h.change (by rw [afterTake_cache]) (afterTake_links ..) ?_ ?_ ?_
      hnew ?_
    · intro b hb
      rw [afterTake_slab, update_of_ne hb]
    · intro o ho
      exact afterTake_next s a obj zero fun heq => ho (heq ▸ hpage)
    · intro b hb
      rw [liveIn_cons_of_ne hpage hb]
    · intro o ho
      rcases mem_cons.mp ho with rfl | ho
      · rw [hpage]
        exact ⟨i, ha⟩
      · exact h.housed o ho

theorem liveIn_erase_perm (h : obj ∈ live) :
    (liveIn live (pageOf obj)).Perm
      (obj :: liveIn (live.erase obj) (pageOf obj)) := by
  have hperm := (perm_cons_erase h).filter
    fun o => decide (pageOf o = pageOf obj)
  rw [filter_cons_of_pos (by simp)] at hperm
  exact hperm

theorem liveIn_erase_of_ne (h : obj ∈ live) (hne : b ≠ pageOf obj) :
    (liveIn (live.erase obj) b).Perm (liveIn live b) := by
  have hperm := (perm_cons_erase h).filter fun o => decide (pageOf o = b)
  rw [filter_cons_of_neg (by simp [Ne.symm hne])] at hperm
  exact hperm.symm

def SlabData.give (d : SlabData) (obj : Nat) : SlabData :=
  { d with
    freelist := some obj
    inuse := sub32 d.inuse 1
    free := add32 d.free 1 }

def afterGive (s : State) (a obj : Nat) : State :=
  (s.setNext obj (s.slab a).freelist).setSlab a ((s.slab a).give obj)

theorem SlabOk.give {free : List Nat} (h : SlabOk s k live a free)
    (hcache : CacheOk (s.cache k)) (hobj : obj ∈ live) (hpage : pageOf obj = a) :
    obj ≠ 0 ∧
    SlabOk (afterGive s a obj) k (live.erase obj) a (obj :: free) ∧
    (s.slab a).free < (s.cache k).num ∧
    add32 (s.slab a).free 1 = (s.slab a).free + 1 := by
  have hin := mem_liveIn.mpr ⟨hobj, hpage⟩
  have hinuse := h.length_liveIn
  have hpos := length_pos_of_mem hin
  have hcounted := h.counted
  have hsmall := hcache.small
  have hfree : add32 (s.slab a).free 1 = (s.slab a).free + 1 :=
    add32_one (by omega)
  have hused : sub32 (s.slab a).inuse 1 = (s.slab a).inuse - 1 :=
    sub32_one (by omega) (by omega)
  have hfresh : obj ∉ free := by
    intro hmem
    have hdisjoint := (nodup_append.mp (h.nodup hcache)).2.2
    exact hdisjoint obj hmem obj hin rfl
  have hmem := h.objects.mem_iff.mp (mem_append_right free hin)
  have hslab : (afterGive s a obj).slab a = (s.slab a).give obj :=
    update_self ..
  refine ⟨(pageOf_object hcache h.aligned hmem).right,
    ⟨h.aligned, ?_, ?_, ?_, ?_⟩, by omega, hfree⟩
  · rw [hslab]
    exact h.chain.push hfresh
  · rw [hslab, length_cons, h.length]
    exact hfree.symm
  · have hperm := liveIn_erase_perm hobj
    rw [hpage] at hperm
    have hmiddle : (obj :: (free ++ liveIn (live.erase obj) a)).Perm
        (free ++ liveIn live a) :=
      perm_middle.symm.trans (hperm.symm.append_left free)
    exact hmiddle.trans h.objects
  · rw [hslab]
    show sub32 (s.slab a).inuse 1 + add32 (s.slab a).free 1 = (s.cache k).num
    omega

theorem afterGive_next {o : Nat} (h : o ≠ obj) :
    (afterGive s a obj).next o = s.next o :=
  update_of_ne h ..

theorem Filed.give (h : Filed k s live xs) (hobj : obj ∈ live)
    (hpage : pageOf obj = a) (ha : .slab a ∈ xs i) :
    obj ≠ 0 ∧ Filed k (afterGive s a obj) (live.erase obj) xs ∧
    (s.slab a).free < (s.cache k).num ∧
    add32 (s.slab a).free 1 = (s.slab a).free + 1 := by
  rcases h.slab i a ha with ⟨free, hok⟩
  rcases hok.give h.cache hobj hpage with ⟨hne, hnew, hlt, hfree⟩
  refine ⟨hne, h.change rfl rfl ?_ ?_ ?_ hnew ?_, hlt, hfree⟩
  · exact fun b hb => update_of_ne hb ..
  · intro o ho
    exact afterGive_next fun heq => ho (heq ▸ hpage)
  · intro b hb
    rw [← hpage] at hb
    exact liveIn_erase_of_ne hobj hb
  · exact fun o ho => h.housed o (mem_of_mem_erase ho)

/-!
## The calls
-/

theorem takeObject_eq (h : (s.slab a).freelist = some obj) :
    takeObject s k a =
      if sub32 (s.slab a).free 1 = 0 then
        (moveSlab s.links a (.head k .slabsFull)).map fun L =>
          (obj, { s.setSlab a ((s.slab a).take (s.next obj)) with links := L })
      else some (obj, s.setSlab a ((s.slab a).take (s.next obj))) := by
  unfold takeObject
  rw [h, Option.bind_eq_bind, Option.bind_some]
  show (if (update s.slab a ((s.slab a).take (s.next obj)) a).free = 0
    then _ else _) = _
  rw [update_self, Option.map_eq_bind]
  rfl

theorem takeObject_afterTake (h : (s.slab a).freelist = some obj)
    (hlinks : (if sub32 (s.slab a).free 1 = 0 then
      moveSlab s.links a (.head k .slabsFull)
      else some s.links) = some L) (zero : Bool) :
    exists s', takeObject s k a = some (obj, s') ∧
      (if zero then s'.setNext obj none else s') =
        { afterTake s a obj zero with links := L } := by
  refine ⟨{ s.setSlab a ((s.slab a).take (s.next obj)) with links := L },
    ?_, ?_⟩
  · rw [takeObject_eq h]
    by_cases hlast : sub32 (s.slab a).free 1 = 0
    · rw [if_pos hlast] at hlinks ⊢
      rw [hlinks]
      rfl
    · rw [if_neg hlast] at hlinks ⊢
      injection hlinks with hlinks
      rw [← hlinks]
      rfl
  · cases zero <;> rfl

theorem Filed.takeObject (h : Filed k s live xs)
    (ha : .slab a ∈ xs .slabsPartial) (hpos : 0 < (s.slab a).free)
    (hle : (s.slab a).free <= (s.cache k).num) (hkind : KindBut k s xs a)
    (zero : Bool) :
    exists obj s' xs', takeObject s k a = some (obj, s') ∧ obj ≠ 0 ∧
      Consistent k (if zero then s'.setNext obj none else s') (obj :: live)
        xs' := by
  rcases h.take ha hpos zero with ⟨obj, hfirst, hne, hfiled, hfree⟩
  have hfree' : ((afterTake s a obj zero).slab a).free =
      (s.slab a).free - 1 := by
    rw [afterTake_slab, update_self]
    exact hfree
  have hother : KindBut k (afterTake s a obj zero) xs a := by
    intro i b hb hba
    rw [afterTake_slab, update_of_ne hba, afterTake_cache]
    exact hkind i b hb hba
  by_cases hzero : (s.slab a).free - 1 = 0
  · -- that was the last free object
    rcases hfiled.move ha hother .slabsFull with
      ⟨L, xs', hmove, hfiled', ha', hother'⟩
    rw [afterTake_links] at hmove
    rcases takeObject_afterTake hfirst (by rw [hfree, if_pos hzero, hmove])
      zero with ⟨s', htake, hstate⟩
    refine ⟨obj, s', xs', htake, hne, ?_⟩
    rw [hstate]
    exact hfiled'.consistent hother' ha' (hfree'.trans hzero)
  · rcases takeObject_afterTake hfirst (by rw [hfree, if_neg hzero]) zero with
      ⟨s', htake, hstate⟩
    refine ⟨obj, s', xs, htake, hne, ?_⟩
    rw [hstate, ← afterTake_links s a obj zero]
    refine hfiled.consistent hother ha ?_
    rw [hfree', afterTake_cache]
    exact ⟨by omega, by omega⟩

/-- The cache does not have to grow, or it cannot. -/
def AllocOk (s : State) (k : Nat) : Prop :=
  listEmpty s.links (Node.head k Kind.slabsPartial) = false ∨
    listEmpty s.links (Node.head k Kind.slabsFree) = false ∨
    (mmAllocPages s.mm 1).1 = 0

theorem Filed.firstSlab (h : Filed k s live xs)
    (hne : listEmpty s.links (.head k i) = false) :
    exists a, firstSlab s.links (.head k i) = some a ∧ .slab a ∈ xs i := by
  have hring := h.rings.ring i
  cases hxs : xs i with
  | nil =>
    rw [hring.listEmpty_iff.mpr hxs] at hne
    cases hne
  | cons n rest =>
    have hn : n ∈ xs i := by
      rw [hxs]
      exact mem_cons_self
    rcases h.slabs i n hn with ⟨a, rfl⟩
    refine ⟨a, ?_, mem_cons_self⟩
    unfold Slab.firstSlab
    rw [hring.segment.next_eq, hxs]
    rfl

theorem Consistent.alloc (h : Consistent k s live xs) (hok : AllocOk s k)
    (zero : Bool) :
    exists obj s', slabCacheAlloc s k zero = some (obj, s') ∧
      (obj = 0 ∧ Consistent k s' live xs ∨
        obj ≠ 0 ∧ exists xs', Consistent k s' (obj :: live) xs') := by
  have hnum := h.cache.num
  unfold slabCacheAlloc pickSlab
  cases hpart : listEmpty s.links (.head k .slabsPartial) with
  | false =>
    rcases h.toFiled.firstSlab hpart with ⟨a, hfirst, ha⟩
    have hkind := h.kind _ a ha
    rcases h.toFiled.takeObject ha hkind.left (Nat.le_of_lt hkind.right)
      (fun i b hb _ => h.kind i b hb) zero with
      ⟨obj, s', xs', htake, hne, hcons⟩
    refine ⟨obj, _, ?_, Or.inr ⟨hne, xs', hcons⟩⟩
    rw [if_neg Bool.false_ne_true, hfirst]
    simp only [Option.bind_eq_bind, Option.bind_some, Option.pure_def, htake]
  | true =>
    rw [if_pos rfl]
    cases hfree : listEmpty s.links (.head k .slabsFree) with
    | false =>
      rcases h.toFiled.firstSlab hfree with ⟨a, hfirst, ha⟩
      rcases h.toFiled.move ha (fun i b hb _ => h.kind i b hb)
        .slabsPartial with ⟨L, ys, hmove, hfiled, ha', hother⟩
      have hkind : (s.slab a).free = (s.cache k).num := h.kind _ a ha
      rcases hfiled.takeObject ha' (hkind ▸ hnum) (Nat.le_of_eq hkind) hother
        zero with ⟨obj, s', xs', htake, hne, hcons⟩
      refine ⟨obj, _, ?_, Or.inr ⟨hne, xs', hcons⟩⟩
      rw [if_neg Bool.false_ne_true, hfirst]
      simp only [Option.bind_eq_bind, Option.bind_some, Option.pure_def,
        hmove, htake]
    | true =>
      have hnone : (mmAllocPages s.mm 1).1 = 0 := by
        rcases hok with hok | hok | hok
        · rw [hpart] at hok
          cases hok
        · rw [hfree] at hok
          cases hok
        · exact hok
      refine ⟨0, { s with mm := (mmAllocPages s.mm 1).2 }, ?_, Or.inl ⟨rfl, ?_⟩⟩
      · unfold slabAlloc
        rw [if_pos hnone]
        rfl
      · refine ⟨h.toFiled.relink h.rings (fun _ => Iff.rfl) rfl, ?_⟩
        exact h.kind

/-- A slab is put on the list for the number of its free objects. -/
theorem Filed.relinkSlab (h : Filed k s live xs) (ha : .slab a ∈ xs i)
    (hpos : 0 < (s.slab a).free) (hle : (s.slab a).free <= (s.cache k).num)
    (hi : (s.slab a).free ≠ 1 -> i = .slabsPartial)
    (hkind : KindBut k s xs a) :
    exists L xs', relinkSlab s.links k a (s.slab a).free (s.cache k).num =
        some L ∧ Consistent k { s with links := L } live xs' := by
  -- a slab that was full becomes partial first
  have hfirst : exists L ys,
      (if (s.slab a).free = 1 then
        moveSlab s.links a (.head k .slabsPartial)
      else some s.links) = some L ∧
      Filed k { s with links := L } live ys ∧
      .slab a ∈ ys .slabsPartial ∧ KindBut k s ys a := by
    by_cases hone : (s.slab a).free = 1
    · rcases h.move ha hkind .slabsPartial with ⟨L, ys, hmove, hys⟩
      exact ⟨L, ys, (if_pos hone).trans hmove, hys⟩
    · refine ⟨s.links, xs, if_neg hone, h, ?_, hkind⟩
      rw [← hi hone]
      exact ha
  rcases hfirst with ⟨L, ys, hstep, hfiled, hmem, hys⟩
  unfold Slab.relinkSlab
  rw [hstep, Option.bind_some]
  by_cases hall : (s.slab a).free = (s.cache k).num
  · rcases hfiled.move hmem hys .slabsFree with
      ⟨L', zs, hmove, hfiled', hmem', hzs⟩
    exact ⟨L', zs, (if_pos hall).trans hmove,
      hfiled'.consistent hzs hmem' hall⟩
  · exact ⟨L, ys, if_neg hall, hfiled.consistent hys hmem
      ⟨hpos, Nat.lt_of_le_of_ne hle hall⟩⟩

theorem slabCacheFree_eq (hne : obj ≠ 0) (hpage : pageOf obj = a) :
    slabCacheFree s k obj =
      (relinkSlab s.links k a ((afterGive s a obj).slab a).free
        (s.cache k).num).map fun L => { afterGive s a obj with links := L } := by
  unfold slabCacheFree
  rw [if_neg hne, hpage, Option.map_eq_bind]
  rfl

theorem Consistent.free (h : Consistent k s live xs) (hobj : obj ∈ live) :
    exists s' xs', slabCacheFree s k obj = some s' ∧
      Consistent k s' (live.erase obj) xs' := by
  rcases h.housed obj hobj with ⟨i, ha⟩
  obtain ⟨a, hpage⟩ : exists a, pageOf obj = a := ⟨_, rfl⟩
  rw [hpage] at ha
  rcases h.toFiled.give hobj hpage ha with ⟨hne, hfiled, hlt, hfree⟩
  have hkind := h.kind i _ ha
  have hslab : (afterGive s a obj).slab =
      update s.slab a ((s.slab a).give obj) := rfl
  have hfree' : ((afterGive s a obj).slab a).free = (s.slab a).free + 1 := by
    rw [hslab, update_self]
    exact hfree
  rcases hfiled.relinkSlab ha (by omega) (by rw [hfree']; exact hlt)
    (by
      intro hone
      cases i with
      | slabsFull =>
        have hzero : (s.slab a).free = 0 := hkind
        omega
      | slabsPartial => rfl
      | slabsFree =>
        have hall : (s.slab a).free = (s.cache k).num := hkind
        omega)
    (by
      intro j b hb hba
      rw [hslab, update_of_ne hba]
      exact h.kind j b hb) with ⟨L, xs', hrelink, hcons⟩
  have hrelink' : Slab.relinkSlab s.links k a
      ((afterGive s a obj).slab a).free (s.cache k).num = some L := hrelink
  refine ⟨{ afterGive s a obj with links := L }, xs', ?_, hcons⟩
  rw [slabCacheFree_eq hne hpage, hrelink']
  rfl

def afterShrink (s : State) (k a : Nat) (L : Links Node) : State :=
  { s with
    links := L
    mm := mmFreePages s.mm (s.slab a).start 1
    cache := update s.cache k { s.cache k with
      totalSlabs := sub32 (s.cache k).totalSlabs 1
      totalObjects := sub32 (s.cache k).totalObjects (s.cache k).num } }

section

variable (h : Consistent k s live xs)
include h

theorem Consistent.drop (ha : .slab a ∈ xs .slabsFree) :
    exists L, listDel s.links (.slab a) = some L ∧
      Consistent k (afterShrink s k a L) live
        (update xs .slabsFree
          ((xs .slabsFree).erase (.slab a))) := by
  rcases h.rings.listDel ha with ⟨L, hdel, hrings⟩
  rcases h.slab _ a ha with ⟨free, hok⟩
  have hall : (s.slab a).free = (s.cache k).num := h.kind _ a ha
  have hcount := slabCount_erase ha
  have hcache : (afterShrink s k a L).cache k = { s.cache k with
      totalSlabs := sub32 (s.cache k).totalSlabs 1
      totalObjects := sub32 (s.cache k).totalObjects (s.cache k).num } :=
    update_self ..
  have hmem : forall {i n}, n ∈ update xs .slabsFree
      ((xs .slabsFree).erase (.slab a)) i -> n ∈ xs i :=
    fun hn => ((h.rings.mem_erase ha).mp hn).right
  have hsmall := h.small
  rw [← hcount, Nat.add_mul, Nat.one_mul] at hsmall
  refine ⟨L, hdel, ⟨?_, hrings, ?_, ?_, ?_, ?_, ?_, ?_⟩, ?_⟩
  · rw [hcache]
    exact ⟨h.cache.num, h.cache.size, h.cache.starts⟩
  · exact fun i n hn => h.slabs i n (hmem hn)
  · intro i b hb
    rcases h.slab i b (hmem hb) with ⟨free', hb⟩
    refine ⟨free', hb.aligned, hb.chain, hb.length, ?_, ?_⟩
    · rw [hcache]
      exact hb.objects
    · rw [hcache]
      exact hb.counted
  · intro obj hobj
    rcases h.housed obj hobj with ⟨i, hi⟩
    refine ⟨i, (h.rings.mem_erase ha).mpr ⟨?_, hi⟩⟩
    intro heq
    have hpage : pageOf obj = a := Node.slab.inj heq
    have hin := mem_liveIn.mpr ⟨hobj, hpage⟩
    have hpos := length_pos_of_mem hin
    have hinuse := hok.length_liveIn
    have hcounted := hok.counted
    omega
  · rw [hcache]
    show sub32 (s.cache k).totalSlabs 1 = _
    have hnum := h.cache.num
    have htotal : slabCount xs <= slabCount xs * (s.cache k).num :=
      Nat.le_mul_of_pos_right _ hnum
    have hbound := h.small
    rw [h.totalSlabs, sub32_one (by omega) (by omega)]
    omega
  · rw [hcache]
    show sub32 (s.cache k).totalObjects (s.cache k).num = _ * (s.cache k).num
    rw [h.totalObjects, ← hcount, Nat.add_mul, Nat.one_mul]
    unfold sub32
    omega
  · rw [hcache]
    show _ * (s.cache k).num < 2 ^ 32
    omega
  · intro i b hb
    rw [hcache]
    exact h.kind i b (hmem hb)

omit h in
theorem Ring.after_first {L : Links Node} {head : Node} {l : List Node}
    (hring : Ring L head l) : exists after,
      (L (l.headD head)).next = some after ∧
        forall n rest, l = n :: rest -> after = rest.headD head := by
  cases l with
  | nil =>
    refine ⟨_, hring.segment.next_eq, ?_⟩
    intro n rest heq
    cases heq
  | cons n rest =>
    refine ⟨_, hring.segment.right.next_eq, ?_⟩
    intro n' rest' heq
    cases heq
    rfl

theorem shrinkLoop_spec {l : List Node} {following : Node} (hl : xs .slabsFree = l)
    (hfollowing : forall n rest, l = n :: rest ->
      following = rest.headD (.head k .slabsFree)) :
    exists s' xs', Consistent k s' live xs' ∧
      forall fuel, shrinkLoop k fuel (l.headD (.head k .slabsFree))
        following s = if l.length < fuel then some s' else none := by
  induction l generalizing s xs following with
  | nil =>
    refine ⟨s, xs, h, ?_⟩
    intro fuel
    cases fuel with
    | zero => rfl
    | succ fuel => exact if_pos rfl
  | cons n rest ih =>
    have hn : n ∈ xs .slabsFree := by
      rw [hl]
      exact mem_cons_self
    rcases h.slabs _ n hn with ⟨a, rfl⟩
    rcases h.drop hn with ⟨L, hdel, hcons⟩
    have hrest : update xs .slabsFree
        ((xs .slabsFree).erase (.slab a)) .slabsFree = rest := by
      rw [update_self, hl, erase_cons_head]
    have hring := hcons.rings.ring .slabsFree
    rw [hrest] at hring
    rw [hfollowing _ rest rfl]
    rcases Ring.after_first hring with ⟨after, hnext, hafter⟩
    rcases ih hcons hrest hafter with ⟨s', xs', hcons', hloop⟩
    refine ⟨s', xs', hcons', ?_⟩
    intro fuel
    cases fuel with
    | zero => rfl
    | succ fuel =>
      have hstep : shrinkLoop k (fuel + 1) (.slab a)
          (rest.headD (.head k .slabsFree)) s =
            shrinkLoop k fuel (rest.headD (.head k .slabsFree))
              after (afterShrink s k a L) := by
        show (if .slab a = Node.head k .slabsFree then _ else _) = _
        simp only [hdel, Option.bind_eq_bind, Option.bind_some]
        show ((afterShrink s k a L).links
          (rest.headD (.head k .slabsFree))).next.bind _ = _
        rw [hnext]
        rfl
      show shrinkLoop k (fuel + 1) (.slab a) _ s = _
      rw [hstep, hloop fuel]
      by_cases hlt : rest.length < fuel
      · rw [if_pos hlt, if_pos (by rw [length_cons]; omega)]
      · rw [if_neg hlt, if_neg (by rw [length_cons]; omega)]

theorem Consistent.shrink :
    exists s' xs', Consistent k s' live xs' ∧
      forall fuel, slabCacheShrink fuel s k =
        if (xs .slabsFree).length < fuel then some s' else none := by
  have hring := h.rings.ring .slabsFree
  rcases Ring.after_first hring with ⟨following, hnext, hfollowing⟩
  rcases shrinkLoop_spec h rfl hfollowing with ⟨s', xs', hcons, hloop⟩
  refine ⟨s', xs', hcons, ?_⟩
  intro fuel
  unfold slabCacheShrink
  rw [hring.segment.next_eq, Option.bind_eq_bind, Option.bind_some, hnext,
    Option.bind_some]
  exact hloop fuel

theorem Consistent.write (hobj : obj ∈ live) (v : Option Nat) :
    Consistent k (s.setNext obj v) live xs := by
  refine { h with slab := ?_ }
  intro i a ha
  rcases h.slab i a ha with ⟨free, hok⟩
  exact ⟨free, hok.setNext h.cache hobj v⟩

end

/-!
## Runs
-/

/-- The calls on a cache, and what its users write into their objects. -/
inductive Call where
  | alloc (zero : Bool)
  | free (obj : Nat)
  | shrink
  | write (obj : Nat) (v : Option Nat)

structure History where
  state : State
  live : List Nat

def step (fuel k : Nat) (h : History) : Call -> Option History
  | Call.alloc zero => do
      let (obj, s) <- slabCacheAlloc h.state k zero
      return { state := s, live := if obj = 0 then h.live else obj :: h.live }
  | Call.free obj => do
      let s <- slabCacheFree h.state k obj
      return { state := s, live := h.live.erase obj }
  | Call.shrink => do
      let s <- slabCacheShrink fuel h.state k
      return { h with state := s }
  | Call.write obj v => some { h with state := h.state.setNext obj v }

/--
Only live objects are freed and written, and only objects that fit into the page
are cleared.
-/
def StepOk (k : Nat) (h : History) : Call -> Prop
  | Call.alloc zero =>
      AllocOk h.state k ∧ (zero = true -> (h.state.cache k).Fits)
  | Call.free obj => obj ∈ h.live
  | Call.shrink => True
  | Call.write obj _ => obj ∈ h.live

inductive Reachable (k : Nat) (init : History) : History -> Prop where
  | init : Reachable k init init
  | call {h h' : History} {call : Call} {fuel : Nat} : Reachable k init h ->
      StepOk k h call -> step fuel k h call = some h' -> Reachable k init h'

/-- A call that meets the condition returns, and keeps the cache consistent. -/
theorem Consistent.step {h : History} (hcons : Consistent k h.state h.live xs)
    {call : Call} (hok : StepOk k h call) :
    exists h' xs' n, Consistent k h'.state h'.live xs' ∧
      forall fuel, step fuel k h call = if n <= fuel then some h' else none := by
  cases call with
  | alloc zero =>
    rcases hcons.alloc hok.left zero with ⟨obj, s, halloc, hres⟩
    refine ⟨⟨s, if obj = 0 then h.live else obj :: h.live⟩, ?_⟩
    have hstep (fuel : Nat) : Slab.step fuel k h (.alloc zero) = if 0 <= fuel
        then some ⟨s, if obj = 0 then h.live else obj :: h.live⟩ else none := by
      simp [Slab.step, halloc]
    rcases hres with ⟨hzero, hcons'⟩ | ⟨hne, xs', hcons'⟩
    · exact ⟨xs, 0, by simpa [hzero] using hcons', hstep⟩
    · exact ⟨xs', 0, by simpa [hne] using hcons', hstep⟩
  | free obj =>
    rcases hcons.free hok with ⟨s, xs', hfree, hcons'⟩
    refine ⟨⟨s, h.live.erase obj⟩, xs', 0, hcons', fun fuel => ?_⟩
    simp [Slab.step, hfree]
  | shrink =>
    rcases hcons.shrink with ⟨s, xs', hcons', hshrink⟩
    refine ⟨{ h with state := s }, xs', (xs .slabsFree).length + 1, hcons',
      fun fuel => ?_⟩
    unfold Slab.step
    simp only [hshrink, Nat.succ_le_iff]
    by_cases hlt : (xs .slabsFree).length < fuel
    · rw [if_pos hlt, if_pos hlt]
      rfl
    · rw [if_neg hlt, if_neg hlt]
      rfl
  | write obj v => exact ⟨_, xs, 0, hcons.write hok v, fun fuel => rfl⟩

def emptyLists : Links Node := fun n => { next := some n, prev := some n }

end Slab
end Horizon
