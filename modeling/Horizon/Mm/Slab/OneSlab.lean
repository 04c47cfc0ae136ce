import Horizon.Mm.Slab.Lists

/-!
# Caches with one slab

A cache that grew points at its slab from its list of free slabs for ever, and
so it never grows again.  This module follows the links of such a cache through
every move of its slab, and describes the slab when it is new.
-/

namespace Horizon
namespace Slab
namespace Kmalloc

open Function List LinkedList
open Memory

/-!
## The links of a cache
-/

/-- Where the slab of a cache is. -/
inductive Place where
  | used
  | full
  | idle

/-- The links of a cache with the slab `a`. -/
def Shape (L : Links Node) (k a : Nat) : Place -> Prop
  | Place.used =>
      Ring L (Node.head k Kind.slabsPartial) [Node.slab a] ∧
        Ring L (Node.head k Kind.slabsFull) [] ∧
        (L (Node.head k Kind.slabsFree)).next = some (Node.slab a)
  | Place.full =>
      Ring L (Node.head k Kind.slabsPartial) [] ∧
        Ring L (Node.head k Kind.slabsFull) [Node.slab a] ∧
        (L (Node.head k Kind.slabsFree)).next = some (Node.slab a)
  | Place.idle =>
      Ring L (Node.head k Kind.slabsPartial) [] ∧
        Ring L (Node.head k Kind.slabsFull) [] ∧
        (L (Node.head k Kind.slabsFree)).next = some (Node.slab a) ∧
        (L (Node.slab a)).next = some (Node.slab a) ∧
        (L (Node.slab a)).prev = some (Node.head k Kind.slabsFree)

/-- Only the links of one cache and its slab differ. -/
def Elsewhere (L L' : Links Node) (k a : Nat) : Prop :=
  forall n, (forall i, n ≠ Node.head k i) -> n ≠ Node.slab a -> L' n = L n

theorem head_ne_slab (k a : Nat) (i : Kind) : .head k i ≠ Node.slab a := by
  intro heq
  cases heq

variable {L L' : Links Node} {a j k size : Nat} {i : Kind} {p : Place}
    {s : State}

theorem Elsewhere.head (h : Elsewhere L L' k a) (hne : j ≠ k) (i : Kind) :
    L' (.head j i) = L (Node.head j i) := by
  apply h _ _ (head_ne_slab j a i)
  intro l heq
  cases heq
  exact hne rfl

theorem Elsewhere.slab {b : Nat} (h : Elsewhere L L' k a) (hne : b ≠ a) :
    L' (.slab b) = L (Node.slab b) :=
  h _ (fun i => Ne.symm (head_ne_slab k b i))
    fun heq => hne (Node.slab.inj heq)

theorem Elsewhere.ring (h : Elsewhere L L' k a) (hne : j ≠ k)
    (hring : Ring L (.head j i) []) : Ring L' (.head j i) [] :=
  hring.keep_empty (h.head hne i)

section

variable (h : Shape L k a p)
include h

theorem Shape.congr (hhead : forall i, L' (.head k i) = L (.head k i))
    (hslab : L' (.slab a) = L (.slab a)) : Shape L' k a p := by
  have hring : forall i xs, (forall n, n ∈ xs -> n = .slab a) ->
      Ring L (.head k i) xs -> Ring L' (.head k i) xs := by
    intro i xs hxs hring
    apply hring.congr
    intro n hn
    rcases mem_cons.mp hn with rfl | hn
    · exact hhead i
    · rw [hxs n hn]
      exact hslab
  have hone : forall n, n ∈ [.slab a] -> n = Node.slab a :=
    fun n hn => mem_singleton.mp hn
  have hnone : forall n, n ∈ ([] : List Node) -> n = .slab a := by
    intro n hn
    cases hn
  cases p with
  | used =>
    refine ⟨hring _ _ hone h.left, hring _ _ hnone h.right.left, ?_⟩
    rw [hhead]
    exact h.right.right
  | full =>
    refine ⟨hring _ _ hnone h.left, hring _ _ hone h.right.left, ?_⟩
    rw [hhead]
    exact h.right.right
  | idle =>
    refine ⟨hring _ _ hnone h.left, hring _ _ hnone h.right.left, ?_⟩
    rw [hhead, hslab]
    exact h.right.right

theorem Shape.next_free : (L (.head k .slabsFree)).next = some (.slab a) := by
  cases p with
  | used | full => exact h.right.right
  | idle => exact h.right.right.left

theorem Shape.next_head (i : Kind) :
    (L (.head k i)).next = some (.slab a) ∨
      (L (.head k i)).next = some (.head k i) := by
  cases i with
  | slabsFull =>
    cases p with
    | full => exact Or.inl h.right.left.segment.next_eq
    | used | idle => exact Or.inr h.right.left.segment.next_eq
  | slabsPartial =>
    cases p with
    | used => exact Or.inl h.left.segment.next_eq
    | full | idle => exact Or.inr h.left.segment.next_eq
  | slabsFree => exact Or.inl h.next_free

theorem Shape.next_slab :
    (L (.slab a)).next = some (.slab a) ∨
      exists i, (L (.slab a)).next = some (.head k i) := by
  cases p with
  | used => exact Or.inr ⟨_, h.left.segment.right.next_eq⟩
  | full => exact Or.inr ⟨_, h.right.left.segment.right.next_eq⟩
  | idle => exact Or.inl h.right.right.right.left

theorem Shape.linked {n : Node} (hn : Linked L (.head k i) n) :
    n = .slab a ∨ exists j, n = .head k j := by
  have hhead : forall j m, (L (.head k j)).next = some m ->
      m = .slab a ∨ exists l, m = .head k l := by
    intro j m hm
    rcases h.next_head j with hnext | hnext
    · rw [hnext] at hm
      exact Or.inl (Option.some.inj hm).symm
    · rw [hnext] at hm
      exact Or.inr ⟨j, (Option.some.inj hm).symm⟩
  induction hn with
  | first hnext _ => exact hhead i _ hnext
  | next _ hnext _ ih =>
    rcases ih with rfl | ⟨j, rfl⟩
    · rcases h.next_slab with hslab | ⟨l, hslab⟩
      · rw [hslab] at hnext
        exact Or.inl (Option.some.inj hnext).symm
      · rw [hslab] at hnext
        exact Or.inr ⟨l, (Option.some.inj hnext).symm⟩
    · exact hhead j _ hnext

end

/-- The slab moves from one list of its cache to another. -/
theorem moveSlab_ring {i' : Kind} (hne : i' ≠ i)
    (hring : Ring L (.head k i) [.slab a]) (hempty : Ring L (.head k i') []) :
    exists L', moveSlab L a (.head k i') = some L' ∧ Ring L' (.head k i) [] ∧
      Ring L' (.head k i') [.slab a] ∧ Elsewhere L L' k a ∧
      forall l, l ≠ i -> l ≠ i' -> L' (.head k l) = L (.head k l) := by
  rcases hring.listDel mem_cons_self with ⟨L1, hdel, hring1, hframe1⟩
  rw [erase_cons_head] at hring1
  have hempty1 := hempty.keep_empty (hframe1 _ (by simp [hne]))
  rcases hempty1.listAdd (show .slab a ∉ [Node.head k i'] by simp) with
    ⟨L2, hadd, hring2, hframe2⟩
  refine ⟨L2, ?_, ?_, hring2, ?_, ?_⟩
  · unfold moveSlab
    rw [hdel]
    exact hadd
  · exact hring1.keep_empty (hframe2 _ (by simp [hne.symm]))
  · intro n hhead hslab
    rw [hframe2 n (by simp [hhead, hslab]), hframe1 n (by simp [hhead, hslab])]
  · intro l hl hl'
    rw [hframe2 _ (by simp [hl']), hframe1 _ (by simp [hl])]

theorem grow_links (a : Nat) (h : forall i, Ring L (.head k i) []) :
    exists L1 L2, listAdd L (.slab a) (.head k .slabsFree) =
        some L1 ∧
      listAdd L1 (.slab a) (.head k .slabsPartial) = some L2 ∧
      Shape L2 k a .used ∧ Elsewhere L L2 k a := by
  have hfresh : forall i, .slab a ∉ [Node.head k i] := by simp
  rcases (h .slabsFree).listAdd (hfresh _) with ⟨L1, hadd1, hring1, hframe1⟩
  have hsame : forall i, i ≠ .slabsFree ->
      Ring L1 (.head k i) [] := by
    intro i hi
    exact (h i).keep_empty (hframe1 _ (by simp [hi]))
  rcases (hsame .slabsPartial (by decide)).listAdd (hfresh _) with
    ⟨L2, hadd2, hring2, hframe2⟩
  refine ⟨L1, L2, hadd1, hadd2, ⟨hring2, ?_, ?_⟩, ?_⟩
  · exact (hsame .slabsFull (by decide)).keep_empty (hframe2 _ (by simp))
  · rw [hframe2 _ (by simp)]
    exact hring1.segment.next_eq
  · intro n hhead hslab
    rw [hframe2 n (by simp [hhead, hslab]), hframe1 n (by simp [hhead, hslab])]

theorem Shape.fill (h : Shape L k a .used) :
    exists L', moveSlab L a (.head k .slabsFull) = some L' ∧
      Shape L' k a .full ∧ Elsewhere L L' k a := by
  rcases moveSlab_ring (by decide) h.left h.right.left with
    ⟨L', hmove, hpart, hfull, helse, hrest⟩
  refine ⟨L', hmove, ⟨hpart, hfull, ?_⟩, helse⟩
  rw [hrest _ (by decide) (by decide)]
  exact h.right.right

theorem Shape.unfill (h : Shape L k a .full) :
    exists L', moveSlab L a (.head k .slabsPartial) = some L' ∧
      Shape L' k a .used ∧ Elsewhere L L' k a := by
  rcases moveSlab_ring (by decide) h.right.left h.left with
    ⟨L', hmove, hfull, hpart, helse, hrest⟩
  refine ⟨L', hmove, ⟨hpart, hfull, ?_⟩, helse⟩
  rw [hrest _ (by decide) (by decide)]
  exact h.right.right

theorem Shape.clear (h : Shape L k a .used) :
    exists L', moveSlab L a (.head k .slabsFree) = some L' ∧
      Shape L' k a .idle ∧ Elsewhere L L' k a := by
  rcases h with ⟨hpart, hfull, hfree⟩
  rcases hpart.listDel mem_cons_self with ⟨L1, hdel, hring, hframe⟩
  rw [erase_cons_head] at hring
  -- the list of free slabs still points at the slab
  have hfree1 : (L1 (.head k .slabsFree)).next =
      some (.slab a) := by
    rw [hframe _ (by simp)]
    exact hfree
  rcases listAdd_eq (.slab a) hfree1 with ⟨L2, hadd, hnext, hprev⟩
  have hother : forall n, n ≠ .head k .slabsFree -> n ≠ .slab a ->
      L2 n = L1 n := by
    intro n hhead hslab
    exact link_ext (by grind) (by grind)
  refine ⟨L2, ?_, ⟨?_, ?_, ?_, ?_, ?_⟩, ?_⟩
  · unfold moveSlab
    rw [hdel]
    exact hadd
  · exact hring.keep_empty (hother _ (by simp) (by simp))
  · apply hfull.keep_empty
    rw [hother _ (by simp) (by simp)]
    exact hframe _ (by simp)
  · rw [hnext, if_pos rfl]
  · rw [hnext, if_neg (by simp), if_pos rfl]
  · rw [hprev, if_pos rfl]
  · intro n hhead hslab
    rw [hother n (hhead _) hslab]
    exact hframe n (by simp [hhead, hslab])

theorem Shape.wake (h : Shape L k a .idle) :
    exists L', moveSlab L a (.head k .slabsPartial) = some L' ∧
      Shape L' k a .used ∧ Elsewhere L L' k a := by
  rcases h with ⟨hpart, hfull, hfree, hnext, hprev⟩
  obtain ⟨L1, hL1⟩ : exists L1, L1 = ((((L.setPrev (.slab a)
    (L (.slab a)).prev).setNext (.head k .slabsFree)
    (some (.slab a))).setNext (.slab a) none).setPrev (.slab a)
    none) := ⟨_, rfl⟩
  have hdel : listDel L (.slab a) = some L1 := by
    rw [hL1]
    simp [listDel, hnext, hprev, Links.setPrev]
  have hother : forall n, n ≠ .head k .slabsFree -> n ≠ .slab a ->
      L1 n = L n := by
    intro n hhead hslab
    rw [hL1]
    simp [Links.setPrev, Links.setNext, hhead, hslab]
  have hused1 : Ring L1 (.head k .slabsPartial) [] :=
    hpart.keep_empty (hother _ (by simp) (by simp))
  have hfresh : .slab a ∉ [Node.head k .slabsPartial] := by simp
  rcases hused1.listAdd hfresh with ⟨L2, hadd, hring, hframe⟩
  refine ⟨L2, ?_, ⟨hring, ?_, ?_⟩, ?_⟩
  · unfold moveSlab
    rw [hdel]
    exact hadd
  · apply hfull.keep_empty
    rw [hframe _ (by simp)]
    exact hother _ (by simp) (by simp)
  · rw [hframe _ (by simp), hL1]
    simp [Links.setPrev, Links.setNext]
  · intro n hhead hslab
    rw [hframe n (by simp [hhead, hslab])]
    exact hother n (hhead _) hslab

/-!
## New slabs
-/

/-- What the loop of `slab_alloc` does: the free objects are threaded. -/
structure Threaded (s s' : State) (a : Nat) (objs : List Nat) : Prop where
  cache : s'.cache = s.cache
  links : s'.links = s.links
  mm : s'.mm = s.mm
  slab : forall b, b ≠ a -> s'.slab b = s.slab b
  inuse : (s'.slab a).inuse = (s.slab a).inuse
  free : (s'.slab a).free = (s.slab a).free
  next : forall o, o ∉ objs -> s'.next o = s.next o
  chain : Chain s'.next (s'.slab a).freelist objs

theorem initLoop_threaded (hsize : 0 < size) {n i : Nat} {l : List Nat}
    (hchain : Chain s.next (s.slab a).freelist l)
    (hfresh : forall j, i <= j -> objectAt a size j ∉ l) :
    Threaded s (initLoop a size none n i s) a
      (((List.range' i n).map (objectAt a size)).reverse ++ l) := by
  induction n generalizing i s l with
  | zero => exact ⟨rfl, rfl, rfl, fun _ _ => rfl, rfl, rfl, fun _ _ => rfl, hchain⟩
  | succ n ih =>
    let obj := objectAt a size i
    let t := (s.setNext obj (s.slab a).freelist).setSlab a
      { s.slab a with freelist := some obj }
    have hslab : t.slab a = { s.slab a with freelist := some obj } :=
      update_self ..
    have hchain' : Chain t.next (t.slab a).freelist (obj :: l) := by
      rw [hslab]
      exact hchain.push (hfresh i (Nat.le_refl i))
    have hfresh' : forall j, i + 1 <= j -> objectAt a size j ∉ obj :: l := by
      intro j hj hmem
      rcases mem_cons.mp hmem with heq | hmem
      · have hji := objectAt_inj hsize heq
        omega
      · exact hfresh j (by omega) hmem
    have hrest := ih hchain' hfresh'
    rw [List.range'_succ, map_cons, reverse_cons, append_assoc]
    refine ⟨hrest.cache, hrest.links, hrest.mm, ?_, ?_, ?_, ?_, hrest.chain⟩
    · intro b hb
      exact (hrest.slab b hb).trans (update_of_ne hb ..)
    · exact hrest.inuse.trans (congrArg SlabData.inuse hslab :)
    · exact hrest.free.trans (congrArg SlabData.free hslab :)
    · intro o ho
      refine (hrest.next o ho).trans (update_of_ne ?_ ..)
      rintro rfl
      simp [obj] at ho

structure Grown (s s' : State) (k a : Nat) (live : List Nat) : Prop where
  cache : forall j, j ≠ k -> s'.cache j = s.cache j
  counted : exists x y, s'.cache k =
    { s.cache k with totalObjects := x, totalSlabs := y }
  mm : s'.mm = (mmAllocPages s.mm 1).2
  slab : forall b, b ≠ a -> s'.slab b = s.slab b
  next : forall o, pageOf o ≠ a -> s'.next o = s.next o
  shape : Shape s'.links k a Place.used
  elsewhere : Elsewhere s.links s'.links k a
  ok : exists free, SlabOk s' k live a free
  free : (s'.slab a).free = (s'.cache k).num

theorem pickSlab_grown {live : List Nat} (hcache : CacheOk (s.cache k))
    (hctor : (s.cache k).ctor = none)
    (hempty : forall i, Ring s.links (.head k i) [])
    (ha : (mmAllocPages s.mm 1).1 = a) (hne : a ≠ 0)
    (haligned : a % pageSize = 0) (hlive : liveIn live a = []) :
    exists s', pickSlab s k = some (some a, s') ∧ Grown s s' k a live := by
  have hsize : 0 < (s.cache k).size := by
    have hle := hcache.size
    omega
  let slab : SlabData := ⟨a, 0, (s.cache k).num, none⟩
  let s0 := State.setSlab { s with mm := (mmAllocPages s.mm 1).2 } a slab
  have hslab0 : s0.slab a = slab := update_self ..
  have hthread := initLoop_threaded (a := a) hsize (n := (s.cache k).num)
    (i := 0) (s := s0) (l := []) (by rw [hslab0]; rfl) nofun
  rw [append_nil] at hthread
  generalize hs1 : initLoop a (s.cache k).size none (s.cache k).num 0 s0 = s1
    at hthread
  have hlinks : s1.links = s.links := hthread.links
  have hcaches : s1.cache = s.cache := hthread.cache
  rcases grow_links a hempty with ⟨L1, L2, hadd1, hadd2, hshape, helse⟩
  let c : Cache := { s.cache k with
    totalSlabs := add32 (s.cache k).totalSlabs 1
    totalObjects := add32 (s.cache k).totalObjects (s.cache k).num }
  have hgrow : slabAlloc s k =
      some (some a, State.setCache { s1 with links := L1 } k c) := by
    unfold slabAlloc
    rw [ha, if_neg hne]
    show (listAdd (initLoop a (s.cache k).size (s.cache k).ctor
      (s.cache k).num 0 _).links _ _).bind _ = _
    rw [hctor]
    erw [hs1]
    simp only [hlinks, hadd1, hcaches]
    rfl
  refine ⟨{ State.setCache { s1 with links := L1 } k c with links := L2 },
    ?_, ?_⟩
  · unfold pickSlab
    rw [(hempty _).listEmpty_iff.mpr rfl, (hempty _).listEmpty_iff.mpr rfl,
      if_pos rfl, if_pos rfl, hgrow, Option.bind_eq_bind, Option.bind_some]
    show (listAdd L1 _ _).bind _ = _
    rw [hadd2]
    rfl
  have hperm : ((List.range' 0 (s.cache k).num).map
      (objectAt a (s.cache k).size)).reverse.Perm (objects (s.cache k) a) := by
    unfold objects
    rw [range_eq_range']
    exact reverse_perm _
  have hself : (update s1.cache k c) k = c := update_self ..
  refine ⟨?_, ⟨_, _, hself⟩, hthread.mm, ?_, ?_, hshape, helse, ⟨_, haligned,
    hthread.chain, ?_, ?_, ?_⟩, ?_⟩
  · intro j hj
    show (update s1.cache k c) j = s.cache j
    rw [update_of_ne hj, hcaches]
  · intro b hb
    exact (hthread.slab b hb).trans (update_of_ne hb ..)
  · intro o ho
    apply hthread.next o
    intro hmem
    exact ho (pageOf_object hcache haligned (hperm.mem_iff.mp hmem)).left
  · show _ = (s1.slab a).free
    rw [hthread.free, hslab0, hperm.length_eq, length_objects]
  · show (_ ++ liveIn live a).Perm (objects ((update s1.cache k c) k) a)
    rw [hself, hlive, append_nil]
    exact hperm
  · show (s1.slab a).inuse + (s1.slab a).free =
      ((update s1.cache k c) k).num
    rw [hthread.inuse, hthread.free, hslab0, hself]
    exact Nat.zero_add _
  · show (s1.slab a).free = ((update s1.cache k c) k).num
    rw [hthread.free, hslab0, hself]

end Kmalloc
end Slab
end Horizon
