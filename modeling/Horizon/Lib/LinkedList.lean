import Mathlib.Data.List.Basic

/-!
# Intrusive circular lists

A list node is a pair of nullable pointers, and a list is a ring of nodes
through a distinguished head.  This module gives the pointer operations on such
nodes, the rings they represent, and the effect of each operation on a family
of rings that share one heap of nodes.
-/

namespace Horizon
namespace LinkedList

open List

structure Link (node : Type) where
  next : Option node
  prev : Option node

/-- A heap of list nodes. -/
abbrev Links (node : Type) := node -> Link node

section Operations

variable {node : Type} [DecidableEq node]

def Links.setNext (L : Links node) (n : node) (v : Option node) : Links node :=
  Function.update L n { L n with next := v }

def Links.setPrev (L : Links node) (n : node) (v : Option node) : Links node :=
  Function.update L n { L n with prev := v }

def listInit (L : Links node) (list : node) : Links node :=
  (L.setNext list (some list)).setPrev list (some list)

/--
`list_add`: insert a node right after the head.  The result is absent when the
head's next pointer is null and the first store would fault.
-/
def listAdd (L : Links node) (new head : node) : Option (Links node) := do
  let first <- (L head).next
  let L := L.setPrev first (some new)
  let L := L.setNext new (L head).next
  let L := L.setPrev new (some head)
  return L.setNext head (some new)

def listAddTail (L : Links node) (new head : node) : Option (Links node) := do
  let last <- (L head).prev
  let L := L.setNext last (some new)
  let L := L.setPrev new (L head).prev
  let L := L.setNext new (some head)
  return L.setPrev head (some new)

def listDel (L : Links node) (entry : node) : Option (Links node) := do
  let next <- (L entry).next
  let L := L.setPrev next (L entry).prev
  let prev <- (L entry).prev
  let L := L.setNext prev (L entry).next
  let L := L.setNext entry none
  return L.setPrev entry none

def listEmpty (L : Links node) (head : node) : Bool :=
  (L head).next == some head

section Pointers

variable (L : Links node) (n m : node) (v : Option node)

@[grind =] theorem setNext_next :
    (L.setNext n v m).next = if m = n then v else (L m).next := by
  rw [Links.setNext, Function.update_apply]
  grind

@[grind =] theorem setNext_prev : (L.setNext n v m).prev = (L m).prev := by
  rw [Links.setNext, Function.update_apply]
  grind

@[grind =] theorem setPrev_prev :
    (L.setPrev n v m).prev = if m = n then v else (L m).prev := by
  rw [Links.setPrev, Function.update_apply]
  grind

@[grind =] theorem setPrev_next : (L.setPrev n v m).next = (L m).next := by
  rw [Links.setPrev, Function.update_apply]
  grind

end Pointers

end Operations

/-!
## Segments

A segment is a run of nodes whose next and prev pointers agree.  The end points
may coincide, which is how a ring closes on its head.
-/

section Segments

variable {node : Type}

def Segment (L : Links node) : node -> List node -> node -> Prop
  | a, [], b => (L a).next = some b ∧ (L b).prev = some a
  | a, x :: xs, b =>
      ((L a).next = some x ∧ (L x).prev = some a) ∧ Segment L x xs b

theorem getLastD_mem_cons (a : node) (xs : List node) :
    xs.getLastD a ∈ a :: xs := by
  cases xs with
  | nil => simp
  | cons x xs => simp [getLastD_eq_getLast?, List.getLast?_eq_getLast_of_ne_nil]

theorem headD_mem_cons (a : node) (xs : List node) : xs.headD a ∈ a :: xs := by
  cases xs <;> simp

variable {L L' : Links node} {b : node} {xs : List node}

theorem segment_append {a m : node} {ys : List node} :
    Segment L a (xs ++ m :: ys) b <-> Segment L a xs m ∧ Segment L m ys b := by
  induction xs generalizing a with
  | nil => exact Iff.rfl
  | cons x xs ih => simp [Segment, ih, and_assoc]

theorem Segment.next_eq {a : node} (h : Segment L a xs b) :
    (L a).next = some (xs.headD b) := by
  cases xs with
  | nil => exact h.left
  | cons x xs => exact h.left.left

theorem Segment.prev_eq {a : node} (h : Segment L a xs b) :
    (L b).prev = some (xs.getLastD a) := by
  induction xs generalizing a with
  | nil => exact h.right
  | cons x xs ih =>
    rw [getLastD_cons]
    exact ih h.right

/--
A segment survives any change of the heap that keeps the next pointers of all
its nodes but the last one and the prev pointers of all but the first one.
-/
theorem Segment.congr {a : node} (h : Segment L a xs b)
    (hnext : forall n, n ∈ a :: xs -> (L' n).next = (L n).next)
    (hprev : forall n, n ∈ xs ++ [b] -> (L' n).prev = (L n).prev) :
    Segment L' a xs b := by
  induction xs generalizing a with
  | nil =>
    refine ⟨?_, ?_⟩
    · rw [hnext a (by simp)]
      exact h.left
    · rw [hprev b (by simp)]
      exact h.right
  | cons x xs ih =>
    refine ⟨⟨?_, ?_⟩, ?_⟩
    · rw [hnext a (by simp)]
      exact h.left.left
    · rw [hprev x (by simp)]
      exact h.left.right
    · apply ih h.right
      · intro n hn
        exact hnext n (mem_cons_of_mem a hn)
      · intro n hn
        exact hprev n (mem_cons_of_mem x hn)

/-- A segment is given another end by the pointers of its last node. -/
theorem Segment.retarget [DecidableEq node] {a c : node} (h : Segment L a xs b)
    (hnodup : (a :: xs).Nodup)
    (hnext : forall n, n ∈ a :: xs ->
      (L' n).next = if n = xs.getLastD a then some c else (L n).next)
    (hprev : forall n, n ∈ xs -> (L' n).prev = (L n).prev)
    (hend : (L' c).prev = some (xs.getLastD a)) : Segment L' a xs c := by
  induction xs generalizing a with
  | nil => exact ⟨by grind, hend⟩
  | cons x xs ih =>
    have hlast := getLastD_mem_cons x xs
    rw [getLastD_cons] at hend
    refine ⟨⟨?_, ?_⟩, ih h.right hnodup.of_cons ?_ ?_ hend⟩
    · rw [hnext a mem_cons_self, getLastD_cons, if_neg (by grind)]
      exact h.left.left
    · rw [hprev x mem_cons_self]
      exact h.left.right
    · intro n hn
      rw [hnext n (mem_cons_of_mem a hn), getLastD_cons]
    · intro n hn
      exact hprev n (mem_cons_of_mem x hn)

end Segments

/-!
## Rings

The ring of a head is a segment from the head to itself without repeated
nodes.  The pointers after each operation are computed once; everything off
the touched nodes is left alone.
-/

section Rings

variable {node : Type}

structure Ring (L : Links node) (head : node) (xs : List node) : Prop where
  segment : Segment L head xs head
  nodup : (head :: xs).Nodup

variable {L L' : Links node} {xs ys pre post : List node}
    {b n new entry head : node}

theorem Ring.congr (h : Ring L head xs)
    (hsame : forall n, n ∈ head :: xs -> L' n = L n) : Ring L' head xs := by
  refine ⟨h.segment.congr ?_ ?_, h.nodup⟩
  · intro n hn
    rw [hsame n hn]
  · intro n hn
    have hmem : n ∈ head :: xs := by simpa [or_comm] using hn
    rw [hsame n hmem]

theorem Ring.keep_empty (h : Ring L head [])
    (hsame : L' head = L head) : Ring L' head [] := by
  apply h.congr
  intro n hn
  rw [mem_singleton.mp hn]
  exact hsame

theorem Ring.rotate {a : node} (h : Ring L a (xs ++ b :: ys)) :
    Ring L b (ys ++ a :: xs) := by
  refine ⟨segment_append.mpr (segment_append.mp h.segment).symm, ?_⟩
  have hperm : ((a :: xs) ++ (b :: ys)).Perm ((b :: ys) ++ (a :: xs)) :=
    perm_append_comm
  exact hperm.nodup_iff.mp h.nodup

theorem Ring.exists_rotation {head p : node} (h : Ring L head xs)
    (hp : p ∈ head :: xs) :
    exists ys, Ring L p ys ∧ (p :: ys).Perm (head :: xs) := by
  cases hp with
  | head => exact ⟨xs, h, List.Perm.refl _⟩
  | tail _ hp =>
    rcases mem_iff_append.mp hp with ⟨pre, post, rfl⟩
    have hperm : ((p :: post) ++ (head :: pre)).Perm
        ((head :: pre) ++ (p :: post)) := perm_append_comm
    exact ⟨post ++ head :: pre, h.rotate, hperm⟩

theorem Ring.next_of_append {head a : node} (h : Ring L head xs)
    (heq : head :: xs = pre ++ a :: b :: post) : (L a).next = some b := by
  cases pre with
  | nil =>
    cases heq
    exact h.segment.next_eq
  | cons x pre =>
    cases heq
    exact h.rotate.segment.next_eq

theorem Ring.prev_first (h : Ring L head xs) :
    (L (xs.headD head)).prev = some head := by
  cases xs with
  | nil => exact h.segment.right
  | cons x xs => exact h.segment.left.right

theorem Segment.unique {a : node} (h : Segment L a xs b) (h' : Segment L a ys b)
    (hxs : b ∉ xs) (hys : b ∉ ys) : xs = ys := by
  have hfirst := h.next_eq.symm.trans h'.next_eq
  induction xs generalizing a ys with
  | nil => cases ys <;> grind
  | cons x xs ih =>
    cases ys with
    | nil => grind
    | cons y ys =>
      cases hfirst
      rw [ih h.right h'.right (by grind) (by grind)
        (h.right.next_eq.symm.trans h'.right.next_eq)]

theorem Ring.unique (h : Ring L head xs) (h' : Ring L head ys) :
    xs = ys :=
  h.segment.unique h'.segment (nodup_cons.mp h.nodup).left
    (nodup_cons.mp h'.nodup).left

/-!
## Traversal
-/

/-- The nodes a walk along `next` meets before it is back at the head. -/
inductive Linked (L : Links node) (head : node) : node -> Prop where
  | first {n : node} :
      (L head).next = some n -> n ≠ head -> Linked L head n
  | next {n m : node} : Linked L head n ->
      (L n).next = some m -> m ≠ head -> Linked L head m

theorem Segment.linked {head a : node} (h : Segment L a xs head)
    (hstart : a = head ∨ Linked L head a) (hhead : head ∉ xs) {x : node}
    (hx : x ∈ xs) : Linked L head x := by
  induction xs generalizing a with
  | nil => cases hx
  | cons y ys ih =>
    have hy : Linked L head y := by
      have hne : y ≠ head := fun heq => hhead (heq ▸ mem_cons_self)
      rcases hstart with rfl | hlinked
      · exact .first h.left.left hne
      · exact .next hlinked h.left.left hne
    rcases mem_cons.mp hx with rfl | hrest
    · exact hy
    · exact ih h.right (Or.inr hy)
        (fun hmem => hhead (mem_cons_of_mem _ hmem)) hrest

theorem Ring.linked_iff (h : Ring L head xs) :
    Linked L head n <-> n ∈ xs := by
  have mem_of_headD : forall {ys : List node} {m : node},
      ys.headD head = m -> m ≠ head -> m ∈ ys := by
    intro ys m hm hne
    cases ys with
    | nil => exact absurd hm.symm hne
    | cons y ys =>
      rw [← hm]
      exact mem_cons_self
  constructor
  · intro hlinked
    induction hlinked with
    | first hnext hne =>
      rw [h.segment.next_eq] at hnext
      exact mem_of_headD (Option.some.inj hnext) hne
    | next _ hnext hne ih =>
      rcases append_of_mem ih with ⟨before, after, hsplit⟩
      have hseg := h.segment
      rw [hsplit, segment_append] at hseg
      rw [hseg.right.next_eq] at hnext
      have hmem := mem_of_headD (Option.some.inj hnext) hne
      rw [hsplit]
      exact mem_append.mpr (Or.inr (mem_cons_of_mem _ hmem))
  · intro hmem
    exact h.segment.linked (Or.inl rfl)
      (nodup_cons.mp h.nodup).left hmem

/-!
## Operations
-/

variable [DecidableEq node]

theorem ring_listInit (L : Links node) (head : node) :
    Ring (listInit L head) head [] := by
  refine ⟨?_, by simp⟩
  simp [Segment, listInit, Links.setNext, Links.setPrev]

theorem listInit_frame (h : n ≠ head) :
    listInit L head n = L n := by
  simp [listInit, Links.setNext, Links.setPrev, h]

theorem Ring.listEmpty_iff (h : Ring L head xs) :
    listEmpty L head = true <-> xs = [] := by
  have hnext := h.segment.next_eq
  cases xs with
  | nil => simpa [listEmpty] using hnext
  | cons x xs =>
    have hne : x ≠ head := by
      intro heq
      have hnodup := h.nodup
      simp [heq] at hnodup
    simp [listEmpty, hnext, hne]

theorem listAdd_eq {head first : node} (new : node)
    (hfirst : (L head).next = some first) :
    exists L', listAdd L new head = some L' ∧
      (forall n, (L' n).next =
        if n = head then some new
        else if n = new then some first else (L n).next) ∧
      (forall n, (L' n).prev =
        if n = new then some head
        else if n = first then some new else (L n).prev) := by
  refine ⟨_, by simp only [listAdd, hfirst]; rfl, ?_, ?_⟩
  · intro n
    grind
  · intro n
    grind

theorem listDel_self (h : listDel L entry = some L') :
    (L' entry).next = none := by
  rcases Option.bind_eq_some_iff.mp h with ⟨next, _, h⟩
  rcases Option.bind_eq_some_iff.mp h with ⟨prev, _, h⟩
  cases h
  simp [Links.setNext, Links.setPrev]

theorem listDel_null (h : (L entry).next = none) : listDel L entry = none := by
  unfold listDel
  rw [h]
  rfl

theorem listDel_eq {next prev : node} (hnext : (L entry).next = some next)
    (hprev : (L entry).prev = some prev) (hnextNe : next ≠ entry) :
    exists L', listDel L entry = some L' ∧
      (forall n, n ≠ entry -> (L' n).next =
        if n = prev then some next else (L n).next) ∧
      (forall n, n ≠ entry -> (L' n).prev =
        if n = next then some prev else (L n).prev) := by
  have hprev' : (L.setPrev next (L entry).prev entry).prev = some prev := by
    rw [setPrev_prev, if_neg hnextNe.symm, hprev]
  refine ⟨_, by simp only [listDel, hnext, Option.bind_eq_bind,
    Option.bind_some, hprev']; rfl, ?_, ?_⟩
  · intro n hn
    grind
  · intro n hn
    grind

omit [DecidableEq node] in
theorem link_ext {n : node} (hnext : (L' n).next = (L n).next)
    (hprev : (L' n).prev = (L n).prev) : L' n = L n := by
  cases hL' : L' n
  cases hL : L n
  simp_all

theorem Ring.listAdd (h : Ring L head xs) (hnew : new ∉ head :: xs) :
    exists L', LinkedList.listAdd L new head = some L' ∧
      Ring L' head (new :: xs) ∧
      forall n, n ∉ head :: new :: xs -> L' n = L n := by
  have hnodup := h.nodup
  rcases listAdd_eq new h.segment.next_eq with ⟨L', hadd, hnext, hprev⟩
  refine ⟨L', hadd, ⟨⟨⟨by grind, by grind⟩, ?_⟩, by grind⟩, ?_⟩
  · cases xs with
    | nil => exact ⟨by grind, by grind⟩
    | cons x xs =>
      refine ⟨⟨by grind, by grind⟩, h.segment.right.congr ?_ ?_⟩
      · intro n hn
        grind
      · intro n hn
        grind
  · intro n hn
    have hfirst := headD_mem_cons head xs
    exact link_ext (by grind) (by grind)

theorem listAddTail_eq_listAdd {head last : node}
    (hprev : (L head).prev = some last) (hnext : (L last).next = some head)
    (hnew : new ≠ head) (hnewLast : new ≠ last) :
    listAddTail L new head = LinkedList.listAdd L new last := by
  simp only [listAddTail, LinkedList.listAdd, hprev, hnext, Option.bind_eq_bind,
    Option.bind_some, Option.pure_def, Option.some_inj]
  funext n
  exact link_ext (by grind) (by grind)

theorem Ring.listAddTail (h : Ring L head (pre ++ post))
    (hnew : new ∉ head :: (pre ++ post)) :
    exists L', LinkedList.listAddTail L new (post.headD head) = some L' ∧
      Ring L' head (pre ++ new :: post) := by
  have hfirst := headD_mem_cons head post
  rcases eq_nil_or_concat pre with rfl | ⟨front, last, rfl⟩
  · rw [nil_append] at h hnew
    rcases h.listAdd hnew with ⟨L', hadd, hring, _⟩
    refine ⟨L', ?_, hring⟩
    rw [listAddTail_eq_listAdd h.prev_first h.segment.next_eq (by grind)
      (ne_of_not_mem_cons hnew)]
    exact hadd
  · -- seen from the node before it, the new node is the first one
    rw [concat_eq_append, append_assoc, singleton_append] at h hnew ⊢
    have hrot := h.rotate
    have hheadD : (post ++ head :: front).headD last = post.headD head := by
      cases post <;> rfl
    have hfresh : new ∉ last :: (post ++ head :: front) := by grind
    rcases hrot.listAdd hfresh with ⟨L', hadd, hring, _⟩
    have hprev := hrot.prev_first
    have hnext := hrot.segment.next_eq
    rw [hheadD] at hprev hnext
    refine ⟨L', ?_, ?_⟩
    · rw [listAddTail_eq_listAdd hprev hnext (by grind) (by grind)]
      exact hadd
    · rw [← cons_append] at hring
      exact hring.rotate

theorem Ring.listDel (h : Ring L head xs) (hentry : entry ∈ xs) :
    exists L', LinkedList.listDel L entry = some L' ∧
      Ring L' head (xs.erase entry) ∧
      forall n, n ∉ head :: xs -> L' n = L n := by
  rcases mem_iff_append.mp hentry with ⟨pre, post, rfl⟩
  have hnodup := h.nodup
  have herase : (pre ++ entry :: post).erase entry = pre ++ post := by
    rw [erase_append_right _ (by grind), erase_cons_head]
  -- seen from the entry, the ring is closed without it
  have hrot := h.rotate
  generalize hys : post ++ head :: pre = ys at hrot
  cases ys with
  | nil => simp at hys
  | cons x ys =>
    have hlast := getLastD_mem_cons x ys
    have hprev := hrot.segment.prev_eq
    rw [getLastD_cons] at hprev
    rcases listDel_eq hrot.segment.next_eq hprev (by grind [hrot.nodup])
      with ⟨L', hdel, hnext', hprev'⟩
    have hring : Ring L' x ys := by
      refine ⟨hrot.segment.right.retarget hrot.nodup.of_cons ?_ ?_ ?_,
        hrot.nodup.of_cons⟩
      · intro n hn
        grind [hrot.nodup]
      · intro n hn
        grind [hrot.nodup]
      · grind [hrot.nodup]
    refine ⟨L', hdel, ?_, ?_⟩
    · rw [herase]
      cases post with
      | nil =>
        cases hys
        simpa using hring
      | cons y post =>
        rw [cons_append] at hys
        cases hys
        exact hring.rotate
    · intro n hn
      have hmem : n ∉ entry :: x :: ys := by
        rw [← hys]
        grind
      exact link_ext (by grind) (by grind)

end Rings

/-!
## Families of rings

Several list heads share one heap.  The nodes linked on different heads are
disjoint, so each operation on one ring keeps every other ring.
-/

section Families

variable {node index : Type} [DecidableEq node] [DecidableEq index]

structure Rings (L : Links node) (head : index -> node)
    (xs : index -> List node) : Prop where
  ring : forall i, Ring L (head i) (xs i)
  headInj : forall i j, head i = head j -> i = j
  headFresh : forall i j, head i ∉ xs j
  disjoint : forall i j n, n ∈ xs i -> n ∈ xs j -> i = j

variable {L : Links node} {xs : index -> List node} {i : index}

omit [DecidableEq node] [DecidableEq index] in
theorem Rings.apart {head : index -> node} (h : Rings L head xs) {j : index}
    (hne : j ≠ i) {n : node} (hn : n ∈ head j :: xs j) :
    n ∉ head i :: xs i := by
  rw [mem_cons, not_or]
  rcases mem_cons.mp hn with rfl | hmem
  · exact ⟨fun heq => hne (h.headInj j i heq), h.headFresh j i⟩
  · constructor
    · intro heq
      exact h.headFresh i j (heq ▸ hmem)
    · intro hmem'
      exact hne (h.disjoint j i n hmem hmem')

omit [DecidableEq node] in
theorem mem_push {new n : node} {j : index} :
    n ∈ Function.update xs i (new :: xs i) j <->
      n = new ∧ j = i ∨ n ∈ xs j := by
  by_cases hji : j = i
  · subst hji
    simp
  · simp [hji]

theorem Rings.mem_erase {head : index -> node} (h : Rings L head xs)
    {entry n : node} (hentry : entry ∈ xs i) {j : index} :
    n ∈ Function.update xs i ((xs i).erase entry) j <->
      n ≠ entry ∧ n ∈ xs j := by
  have hnodup : (xs i).Nodup := (nodup_cons.mp (h.ring i).nodup).right
  by_cases hji : j = i
  · rw [hji, Function.update_self, hnodup.mem_erase_iff]
  · rw [Function.update_of_ne hji]
    constructor
    · intro hn
      exact ⟨fun heq => hji (h.disjoint j i entry (heq ▸ hn) hentry), hn⟩
    · exact fun hn => hn.right

theorem Rings.listAdd {head : index -> node} (h : Rings L head xs) {new : node}
    (hhead : forall j, new ≠ head j) (hnew : forall j, new ∉ xs j) :
    exists L', LinkedList.listAdd L new (head i) = some L' ∧
      Rings L' head (Function.update xs i (new :: xs i)) := by
  have hfresh : new ∉ head i :: xs i := by simp [hhead i, hnew i]
  rcases (h.ring i).listAdd hfresh with ⟨L', hadd, hring, hframe⟩
  refine ⟨L', hadd, ⟨?_, h.headInj, ?_, ?_⟩⟩
  · intro j
    by_cases hji : j = i
    · subst hji
      simpa using hring
    · rw [Function.update_of_ne hji]
      apply (h.ring j).congr
      intro n hn
      have hother := h.apart hji hn
      apply hframe
      grind
  · intro j k hmem
    rcases mem_push.mp hmem with ⟨heq, _⟩ | hmem
    · exact hhead j heq.symm
    · exact h.headFresh j k hmem
  · intro j k n hj hk
    have hdisjoint := h.disjoint j k n
    rw [mem_push] at hj hk
    grind

theorem Rings.listDel {head : index -> node} (h : Rings L head xs)
    {entry : node} (hentry : entry ∈ xs i) :
    exists L', LinkedList.listDel L entry = some L' ∧
      Rings L' head (Function.update xs i ((xs i).erase entry)) := by
  rcases (h.ring i).listDel hentry with ⟨L', hdel, hring, hframe⟩
  refine ⟨L', hdel, ⟨?_, h.headInj, ?_, ?_⟩⟩
  · intro j
    by_cases hji : j = i
    · subst hji
      simpa using hring
    · rw [Function.update_of_ne hji]
      apply (h.ring j).congr
      intro n hn
      exact hframe n (h.apart hji hn)
  · intro j k hmem
    exact h.headFresh j k ((h.mem_erase hentry).mp hmem).right
  · intro j k n hj hk
    exact h.disjoint j k n ((h.mem_erase hentry).mp hj).right
      ((h.mem_erase hentry).mp hk).right

omit [DecidableEq node] [DecidableEq index] in
theorem Rings.comp {index' : Type} {head : index -> node} (h : Rings L head xs)
    (f : index' -> index) (hf : forall i j, f i = f j -> i = j) :
    Rings L (fun i => head (f i)) (fun i => xs (f i)) where
  ring i := h.ring (f i)
  headInj i j heq := hf i j (h.headInj _ _ heq)
  headFresh i j := h.headFresh (f i) (f j)
  disjoint i j n hi hj := hf i j (h.disjoint _ _ n hi hj)

end Families

/-!
## Chains

A chain is a singly linked list that ends with a null pointer.
-/

section Chains

variable {node : Type}

def Chain (next : node -> Option node) : Option node -> List node -> Prop
  | p, [] => p = none
  | p, x :: xs => p = some x ∧ Chain next (next x) xs

variable {xs : List node} {y : node}

theorem Chain.congr {next next' : node -> Option node} {p : Option node}
    (h : Chain next p xs) (hsame : forall x, x ∈ xs -> next' x = next x) :
    Chain next' p xs := by
  induction xs generalizing p with
  | nil => exact h
  | cons x xs ih =>
    refine ⟨h.left, ?_⟩
    rw [hsame x mem_cons_self]
    exact ih h.right fun y hy => hsame y (mem_cons_of_mem x hy)

theorem Chain.update [DecidableEq node] {next : node -> Option node}
    {p v : Option node} (h : Chain next p xs) (hy : y ∉ xs) :
    Chain (Function.update next y v) p xs := by
  apply h.congr
  intro x hx
  have hne : x ≠ y := fun heq => hy (heq ▸ hx)
  rw [Function.update_of_ne hne]

theorem Chain.push [DecidableEq node] {next : node -> Option node}
    {p : Option node} (h : Chain next p xs) (hy : y ∉ xs) :
    Chain (Function.update next y p) (some y) (y :: xs) := by
  refine ⟨rfl, ?_⟩
  rw [Function.update_self]
  exact h.update hy

end Chains

end LinkedList
end Horizon
